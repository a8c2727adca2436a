import ZWaveHost.Proofs.Link.SingleFlight
import ZWaveHost.Proofs.Station.Published

/-! How a station ends. It was asked to, its line is dead, or the reader has ended and every item that it delivered was
handled. What it has published then is closed: each exchange that started has ended, and the loss of the connection
comes last. -/
namespace ZWaveHost

namespace Transcript

theorem Orderly.startEnds {first last : Standing} {before id node later}
    (orderly : Orderly first (before ++ .event (.started id node) :: later) last) (landed : last.request = none) :
    endingsOf id before = [] ∧ ∃ ending, endingsOf id later = [ending] := by
  obtain ⟨mid, request, head, unborn, -, own⟩ := orderly.behindStart
  obtain ⟨ending, one, -⟩ := own.lands (by simp [Standing.flight, landed])
  exact ⟨head.unreached unborn, ending, one⟩

end Transcript

def StationEvent.ends? : StationEvent → Option Nat
  | link event => event.ends?
  | connectionLost _ => none

def StationEvent.message? : StationEvent → Option Message
  | link (.received message _) => some message
  | _ => none

namespace Station
open Transcript

variable {station after : Station} {events : List StationEvent}

theorem stopOver (station : Station) (rest : List Output) (why : Option Fault) :
    (station.stop rest why).station.isRunning = false := by
  cases why <;> rfl

theorem Released.goesOn {pending} (released : Released station pending after events)
    (working : after.isRunning = true) : after.inbox = station.inbox ∧ after.line.state = station.line.state := by
  cases released with
  | on _ alike still => exact still ▸ ⟨rfl, alike⟩
  | dead _ _ stops =>
    subst stops
    simp [stopOver] at working

theorem Turned.goesOn {now item} (turned : Turned station now item after events) (working : after.isRunning = true) :
    station.isRunning = true ∧ station.inbox = item.toList ++ after.inbox ∧ after.line.state = station.line.state := by
  cases turned with
  | rests => exact ⟨working, rfl, rfl⟩
  | resumes running released =>
    obtain ⟨inbox, alike⟩ := released.goesOn working
    exact ⟨running, inbox.symm, alike⟩
  | works running _ next _ released =>
    obtain ⟨inbox, alike⟩ := released.goesOn working
    obtain ⟨waits, _, line, _⟩ := next.kept
    exact ⟨running, inbox ▸ waits, line ▸ alike⟩
  | cancelled | heardOut => simp [stopOver] at working

theorem stepInbox (station : Station) (op : Op) (working : (station.step op).station.isRunning = true) :
    station.isRunning = true ∧ station.inbox ++ (station.delivered? op).toList =
      (station.handled? op).toList ++ (station.step op).station.inbox := by
  by_cases turn : ∃ now effort, op = .turn now effort
  · obtain ⟨now, effort, rfl⟩ := turn
    obtain ⟨running, inbox, _⟩ := (turned station now effort).goesOn working
    exact ⟨running, (List.append_nil _).trans inbox⟩
  · obtain ⟨beside, _, none, inbox⟩ := stepBeside station fun now effort same => turn ⟨now, effort, same⟩
    refine ⟨by simpa [isRunning, beside.state] using working, ?_⟩
    rw [none, inbox]
    rfl

theorem runInbox (station : Station) (history : List Op) (working : (station.run history).station.isRunning = true) :
    station.isRunning = true ∧ station.inbox ++ station.deliveredIn history =
      station.handledIn history ++ (station.run history).station.inbox := by
  induction history generalizing station with
  | nil => exact ⟨working, List.append_nil _⟩
  | cons op rest ih =>
    obtain ⟨still, later⟩ := ih (station.step op).station working
    obtain ⟨running, first⟩ := stepInbox station op still
    refine ⟨running, ?_⟩
    simp only [deliveredIn, handledIn, picked, run] at later ⊢
    rw [← List.append_assoc, first, List.append_assoc, later, List.append_assoc]

theorem drainUnfinished {line : Line} (unfinished : line.state ≠ .finished) : line.drain.1.state ≠ .finished := by
  fun_induction Line.drain line with
  | case1 => exact unfinished
  | case2 line waits after pieces written ih =>
    have batch : (line.writeBatch Line.batchLimit).1.state ≠ .finished := by
      unfold Line.writeBatch
      dsimp only
      split
      · exact unfinished
      · simp
    have last := ih batch
    rwa [written] at last

theorem stepUnfinished {op : Op} (unfinished : station.line.state ≠ .finished)
    (working : (station.step op).station.isRunning = true) :
    (station.step op).station.line.state ≠ .finished := by
  by_cases turn : ∃ now effort, op = .turn now effort
  · obtain ⟨now, effort, rfl⟩ := turn
    obtain ⟨_, _, alike⟩ := (turned station now effort).goesOn working
    have same : (station.step (.turn now effort)).station.line.state = station.line.state := alike
    rwa [same]
  · obtain ⟨⟨_, _, state, line⟩, _⟩ := stepBeside station fun now effort same => turn ⟨now, effort, same⟩
    rcases line with same | writes
    · rwa [same]
    · have running : station.isRunning = true := by simpa [isRunning, state] using working
      rw [writes]
      simpa [write, running] using drainUnfinished unfinished

theorem runUnfinished (history : List Op) (unfinished : station.line.state ≠ .finished)
    (working : (station.run history).station.isRunning = true) :
    (station.run history).station.line.state ≠ .finished := by
  induction history generalizing station with
  | nil => exact unfinished
  | cons op rest ih =>
    have running := (runInbox (station.step op).station rest working).1
    exact ih (stepUnfinished unfinished running) working

theorem deadFailed {line : Line} (dead : line.isRunning = false) (unfinished : line.state ≠ .finished) :
    ∃ fault, line.state = .failed fault := by
  cases state : line.state with
  | running => simp [Line.isRunning, state] at dead
  | failed fault => exact ⟨fault, rfl⟩
  | finished => exact absurd state unfinished

inductive Ends (station : Station) (item : Option Item) (after : Station) : Prop
  | cancelled (asked : station.cancelRequested = true) (state : after.state = .cancelled)
  | writer (dead : station.line.isRunning = false) (state : after.state = .lost .connectionClosed)
  | reader {why} (ended : station.readingEnd = some why) (heard : station.inbox = []) (nothing : item = none)
      (state : after.state = .lost why)

theorem Released.ends {pending} (released : Released station pending after events) (working : station.isRunning = true)
    (stopped : after.isRunning = false) : station.line.isRunning = false ∧ after.state = .lost .connectionClosed := by
  cases released with
  | on _ _ still =>
    have running : after.isRunning = true := still ▸ working
    simp [running] at stopped
  | dead dead _ stops => exact ⟨dead, stops ▸ rfl⟩

theorem Turned.ended {now item} (turned : Turned station now item after events) (working : station.isRunning = true)
    (stopped : after.isRunning = false) : Ends station item after := by
  cases turned with
  | rests => simp [working] at stopped
  | resumes _ released =>
    obtain ⟨dead, state⟩ := released.ends working stopped
    exact .writer dead state
  | works _ _ next _ released =>
    obtain ⟨_, _, line, state⟩ := next.kept
    obtain ⟨dead, lost⟩ := released.ends (by simpa [isRunning, state] using working) stopped
    exact .writer (line ▸ dead) lost
  | cancelled _ _ asked => exact .cancelled asked rfl
  | heardOut _ _ heard ended => exact .reader ended heard rfl rfl

theorem stepEnds (station : Station) (op : Op) (working : station.isRunning = true)
    (stopped : (station.step op).station.isRunning = false) :
    Ends station (station.handled? op) (station.step op).station := by
  by_cases turn : ∃ now effort, op = .turn now effort
  · obtain ⟨now, effort, rfl⟩ := turn
    exact (turned station now effort).ended working stopped
  · obtain ⟨beside, _⟩ := stepBeside station fun now effort same => turn ⟨now, effort, same⟩
    simp only [isRunning, beside.state] at working stopped
    simp [working] at stopped

theorem countEnds (id : Nat) (outputs : List Output) :
    ((linkEvents outputs).map StationEvent.ends?).count (some id) = (endingsOf id outputs).length := by
  induction outputs with
  | nil => rfl
  | cons output rest ih =>
    cases output with
    | write bytes => exact ih
    | event event =>
      have first : ((linkEvents (.event event :: rest)).map StationEvent.ends?).count (some id) =
          ((linkEvents rest).map StationEvent.ends?).count (some id) + if event.ends? == some id then 1 else 0 :=
        List.count_cons
      rw [first, ih]
      by_cases ends : event.ends? = some id <;> simp [endingsOf, ends]

theorem farewellEnds (id : Nat) (state : StationState) :
    (state.farewell.map StationEvent.ends?).count (some id) = 0 := by
  cases state <;> rfl

theorem farewellOther (event : LinkEvent) (state : StationState) : .link event ∉ state.farewell := by
  cases state <;> simp [StationState.farewell]

theorem onlyLinkEvents (outputs : List Output) : ∃ told : List LinkEvent, linkEvents outputs = told.map .link := by
  induction outputs with
  | nil => exact ⟨[], rfl⟩
  | cons output rest ih =>
    obtain ⟨told, same⟩ := ih
    cases output with
    | write bytes => exact ⟨told, same⟩
    | event event => exact ⟨event :: told, congrArg (List.cons _) same⟩

theorem messagesTold (outputs : List Output) (state : StationState) :
    (linkEvents outputs ++ state.farewell).filterMap StationEvent.message? = outputs.filterMap Output.message? := by
  have none : state.farewell.filterMap StationEvent.message? = [] := by cases state <;> rfl
  rw [List.filterMap_append, none, List.append_nil, linkEvents, List.filterMap_filterMap]
  congr
  funext output
  cases output with
  | write bytes => rfl
  | event event => cases event <;> rfl

theorem published {outputs : List Output} {farewell before later event} (other : .link event ∉ farewell)
    (told : linkEvents outputs ++ farewell = before ++ .link event :: later) :
    ∃ first rest, outputs = first ++ .event event :: rest ∧ before = linkEvents first ∧
      later = linkEvents rest ++ farewell := by
  induction outputs generalizing before with
  | nil =>
    have member : .link event ∈ linkEvents [] ++ farewell := by
      rw [told]
      simp
    exact absurd member other
  | cons output rest ih =>
    cases output with
    | write bytes =>
      obtain ⟨first, others, rfl, same, after⟩ := ih told
      exact ⟨.write bytes :: first, others, rfl, same, after⟩
    | event head =>
      cases before with
      | nil =>
        obtain ⟨same, after⟩ := List.cons.inj told
        cases same
        exact ⟨[], rest, rfl, rfl, after.symm⟩
      | cons earlier before =>
        obtain ⟨same, told⟩ := List.cons.inj told
        obtain ⟨first, others, rfl, before, after⟩ := ih told
        exact ⟨.event head :: first, others, rfl, by rw [before, ← same]; rfl, after⟩

section Reports

variable {start : Link} {handled : List Item}

theorem Reported.unlost (reported : Reported start handled station events) (working : station.isRunning = true)
    (fault : Fault) : .connectionLost fault ∉ events := by
  cases reported with
  | closed ended => simp [working] at ended
  | @working outputs _ _ tells =>
    obtain ⟨told, same⟩ := onlyLinkEvents outputs
    simp [tells, same]

theorem Reported.farewell (reported : Reported start handled station events) (ended : station.isRunning = false) :
    ∃ told : List LinkEvent, events = told.map .link ++ station.state.farewell := by
  cases reported with
  | working working => simp [working] at ended
  | @closed outputs _ _ _ tells =>
    obtain ⟨told, same⟩ := onlyLinkEvents outputs
    exact ⟨told, same ▸ tells⟩

theorem Reported.messages (reported : Reported start handled station events) (ended : station.isRunning = false) :
    events.filterMap StationEvent.message? = handled.filterMap Item.message? := by
  cases reported with
  | working working => simp [working] at ended
  | closed _ _ _ tells shown => rw [tells, messagesTold, shown]

theorem Reported.startEnds {before id node later} (sound : start.Sound)
    (reported : Reported start handled station events) (ended : station.isRunning = false)
    (told : events = before ++ .link (.started id node) :: later) :
    (before.map StationEvent.ends?).count (some id) = 0 ∧ (later.map StationEvent.ends?).count (some id) = 1 := by
  cases reported with
  | working working => simp [working] at ended
  | @closed outputs _ path idle tells =>
    obtain ⟨first, rest, rfl, rfl, rfl⟩ := published (farewellOther _ _) (tells.symm.trans told)
    have landed : station.link.standing.request = none := by simp [Link.standing, idle]
    obtain ⟨none, ending, once⟩ := (path.orderly sound).startEnds landed
    rw [List.map_append, List.count_append, countEnds, countEnds, farewellEnds, none, once]
    exact ⟨rfl, rfl⟩

end Reports

theorem freshReported (timing : Timing) (capacity writerCapacity : Nat) (port : Port) (history : List Op) :
    let start := fresh timing capacity writerCapacity port
    Reported start.link (start.handledIn history) (start.run history).station (start.run history).events := by
  intro start
  have first : Reported start.link [] start [] := @Reported.working _ _ _ _ [] rfl (.stay _) rfl rfl
  exact runReported (Link.freshSound timing ⟨capacity, 0⟩) first history

/-- However a station ends, what it has published is closed: each exchange that was told to have started ends once after
that, and the loss of the connection is told last, once, and just when the station was lost. It ends because it was
asked to, because the line has failed, or because the reader has ended; and then everything the reader delivered was
handled, and its messages were told. -/
theorem endsInOrder (timing : Timing) (capacity writerCapacity : Nat) (port : Port) (history : List Op) :
    let start := fresh timing capacity writerCapacity port
    let turn := start.run history
    (turn.station.isRunning = true → ∀ fault, .connectionLost fault ∉ turn.events) ∧
    (turn.station.isRunning = false →
      (∀ before id node later, turn.events = before ++ .link (.started id node) :: later →
        (before.map StationEvent.ends?).count (some id) = 0 ∧ (later.map StationEvent.ends?).count (some id) = 1) ∧
      ∃ told : List LinkEvent, turn.events = told.map .link ++ turn.station.state.farewell) ∧
    ∀ op, turn.station.isRunning = true →
      let last := start.run (history ++ [op])
      last.station.isRunning = false →
        turn.station.cancelRequested = true ∧ last.station.state = .cancelled ∨
        (∃ fault, turn.station.line.state = .failed fault) ∧ last.station.state = .lost .connectionClosed ∨
        ∃ why, turn.station.readingEnd = some why ∧ last.station.state = .lost why ∧
          start.handledIn history = start.deliveredIn history ∧
          last.events.filterMap StationEvent.message? = (start.deliveredIn history).filterMap Item.message? := by
  intro start turn
  have sound := Link.freshSound timing ⟨capacity, 0⟩
  have reported := freshReported timing capacity writerCapacity port
  refine ⟨(reported history).unlost, fun ended => ⟨fun before id node later => ?_, (reported history).farewell ended⟩,
    fun op working => ?_⟩
  · exact (reported history).startEnds sound ended
  · intro last stopped
    have same : last.station = (turn.station.step op).station := (runAppend start history [op]).1
    cases stepEnds turn.station op working (same ▸ stopped) with
    | cancelled asked state => exact .inl ⟨asked, same ▸ state⟩
    | writer dead state =>
      have unfinished : start.line.state ≠ .finished := by simp [start, Station.fresh]
      exact .inr (.inl ⟨deadFailed dead (runUnfinished history unfinished working), same ▸ state⟩)
    | @reader why ended heard nothing state =>
      have all : start.deliveredIn history = start.handledIn history := by
        have inbox := (runInbox start history working).2
        rwa [heard, List.append_nil] at inbox
      have handled : start.handledIn (history ++ [op]) = start.handledIn history := by
        simpa [handledIn, pickedAppend, picked] using nothing
      have told := (reported (history ++ [op])).messages stopped
      exact .inr (.inr ⟨why, ended, same ▸ state, all.symm, by rw [told, handled, all]⟩)

example :
    ((fresh {} 1 16 .sound).run [.reserve, .post (.accept ⟨.versionRequest, true⟩), .turn 0 8,
      .endReading .connectionClosed, .turn 5 8]).events =
      [.link (.started 1 none), .link (.failed 1 none .versionRequest .cancelled),
        .connectionLost .connectionClosed] := by
  decide +kernel

end Station

end ZWaveHost
