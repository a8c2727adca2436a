import ZWaveHost.Proofs.Link.Answers
import ZWaveHost.Proofs.Station.Office

/-! What a station publishes. All that its link puts out is told in order, and what is not told yet waits; the end of
the station tells the rest at once, with the cancelled exchange, and after that only why it ended. -/
namespace ZWaveHost

def Signal.item? : Signal → Option Item
  | item taken => some taken
  | _ => none

def Signal.change? (link : Link) (now : Time) : Signal → Option (Link × List Output)
  | item taken => some (link.inbound taken now)
  | order taken => some (Station.carryOut link taken, [])
  | timer => some (link.expire now)
  | _ => none

def StationState.farewell : StationState → List StationEvent
  | lost fault => [.connectionLost fault]
  | _ => []

namespace Station

theorem Next.kept {station without : Station} {now signal} (next : station.Next now signal without) :
    station.inbox = signal.item?.toList ++ without.inbox ∧ without.link = station.link ∧
      without.line = station.line ∧ without.state = station.state := by
  cases next with
  | item _ waits => exact ⟨waits, rfl, rfl, rfl⟩
  | cancel | endOfReading | order | timer => exact ⟨rfl, rfl, rfl, rfl⟩

def handled? (station : Station) : Op → Option Item
  | .turn now effort =>
    if !station.isRunning ∨ effort = 0 ∨ station.unreleased ≠ [] then none
    else (station.next? now).bind (·.1.item?)
  | _ => none

def delivered? (station : Station) : Op → Option Item
  | .deliver item => (station.deliver? item).map fun _ => item
  | _ => none

theorem linkEventsAppend (before later : List Output) :
    linkEvents (before ++ later) = linkEvents before ++ linkEvents later := List.filterMap_append

inductive Released (station : Station) (pending : List Output) (after : Station) (events : List StationEvent) : Prop
  | on {line told waiting} (all : pending = told ++ waiting) (alike : line.state = station.line.state)
      (still : after = { station with line, unreleased := waiting }) (tells : events = linkEvents told) :
      Released station pending after events
  | dead {bytes told rest} (dead : station.line.isRunning = false) (all : pending = told ++ .write bytes :: rest)
      (stops : after = (station.stop rest (some .connectionClosed)).station)
      (tells : events = linkEvents told ++ (station.stop rest (some .connectionClosed)).events) :
      Released station pending after events

theorem Released.behind {station after : Station} {pending events} (released : Released station pending after events)
    (output : Output) : Released station (output :: pending) after (linkEvents [output] ++ events) := by
  cases released with
  | @on _ told _ all alike still tells =>
    exact .on (congrArg _ all) alike still (by rw [tells, ← linkEventsAppend, List.singleton_append])
  | @dead _ told _ dead all stops tells =>
    exact .dead dead (congrArg _ all) stops
      (by rw [tells, ← List.append_assoc, ← linkEventsAppend, List.singleton_append])

theorem released {station : Station} (clear : station.unreleased = []) (effort : Nat) (pending : List Output) :
    Released station pending (station.release effort pending).station (station.release effort pending).events := by
  fun_induction release station effort pending with
  | case1 station effort =>
    have same : station = { station with unreleased := [] } := by rw [← clear]
    exact .on (List.append_nil []).symm rfl same rfl
  | case2 station effort event rest later ih => exact (ih clear).behind (.event event)
  | case3 station bytes rest => exact .on (List.nil_append _).symm rfl rfl rfl
  | case4 station effort bytes rest some dead =>
    exact .dead (by simpa using dead) (List.nil_append _).symm rfl rfl
  | case5 station effort bytes rest some alive room ih =>
    have pushed := (ih clear).behind (.write bytes)
    cases pushed with
    | on all alike still tells => exact .on all alike still tells
    | dead dead =>
      have running : station.line.isRunning = true := by simpa using alive
      have still : station.line.isRunning = false := dead
      simp [running] at still
  | case6 station effort bytes rest some alive full => exact .on (List.nil_append _).symm rfl rfl rfl

inductive Turned (station : Station) (now : Time) : Option Item → Station → List StationEvent → Prop
  | rests : Turned station now none station []
  | resumes {after events} (working : station.isRunning = true)
      (released : Released { station with unreleased := [] } station.unreleased after events) :
      Turned station now none after events
  | works {signal without changed after events} (working : station.isRunning = true) (clear : station.unreleased = [])
      (next : station.Next now signal without) (change : signal.change? without.link now = some changed)
      (released : Released { without with link := (changed.1.transmit now).1 }
        (changed.2 ++ (changed.1.transmit now).2) after events) : Turned station now signal.item? after events
  | cancelled (working : station.isRunning = true) (clear : station.unreleased = [])
      (asked : station.cancelRequested = true) :
      Turned station now none (station.stop [] none).station (station.stop [] none).events
  | heardOut {why} (working : station.isRunning = true) (clear : station.unreleased = [])
      (heard : station.inbox = []) (ended : station.readingEnd = some why) :
      Turned station now none (station.stop [] (some why)).station (station.stop [] (some why)).events

theorem workReleased {without : Station} (clear : without.unreleased = []) (now : Time) (effort : Nat)
    (changed : Link × List Output) :
    Released { without with link := (changed.1.transmit now).1 } (changed.2 ++ (changed.1.transmit now).2)
      (without.work now effort changed).station (without.work now effort changed).events :=
  @released { without with link := (changed.1.transmit now).1 } clear effort _

theorem reacts {station without : Station} {now signal} (working : station.isRunning = true)
    (clear : station.unreleased = []) (next : station.Next now signal without) (effort : Nat) :
    Turned station now signal.item? (without.react now effort signal).station
      (without.react now effort signal).events := by
  cases next with
  | cancel asked => exact .cancelled working clear asked
  | endOfReading _ heard ended => exact .heardOut working clear heard ended
  | @item item rest unasked waits =>
    have without : ({ station with inbox := rest } : Station).unreleased = [] := clear
    exact .works working clear (.item unasked waits) rfl (workReleased without now effort _)
  | @order order rest unasked heard reading waits =>
    have without : ({ station with mailbox := rest } : Station).unreleased = [] := clear
    exact .works working clear (.order unasked heard reading waits) rfl (workReleased without now effort _)
  | timer unasked heard reading due =>
    exact .works working clear (.timer unasked heard reading due) rfl (workReleased clear now effort _)

theorem turned (station : Station) (now : Time) (effort : Nat) :
    Turned station now (station.handled? (.turn now effort)) (station.turn now effort).station
      (station.turn now effort).events := by
  by_cases idle : !station.isRunning ∨ effort = 0
  · have rests : station.turn now effort = { station, effort } := if_pos idle
    have none : station.handled? (.turn now effort) = none := if_pos (idle.imp_right .inl)
    rw [rests, none]
    exact .rests
  · have working : station.isRunning = true := by simpa using fun stopped => idle (.inl stopped)
    by_cases clear : station.unreleased = []
    · have handled : station.handled? (.turn now effort) = (station.next? now).bind (·.1.item?) := by
        refine if_neg ?_
        rintro (stopped | none | waits)
        · exact idle (.inl stopped)
        · exact idle (.inr none)
        · exact waits clear
      rw [handled]
      simp only [turn, if_neg idle, ne_eq, clear, not_true_eq_false, if_false]
      split
      · rename_i nothing
        rw [nothing]
        exact .rests
      · rename_i signal without taken
        rw [taken]
        exact reacts working clear (Station.next taken) (effort - 1)
    · have resumes : station.turn now effort = { station with unreleased := [] }.release effort station.unreleased := by
        simp only [turn, if_neg idle, ne_eq, clear, not_false_eq_true, if_true]
      have none : station.handled? (.turn now effort) = none := if_pos (.inr (.inr clear))
      rw [resumes, none]
      exact .resumes working (released rfl effort station.unreleased)

inductive Reported (start : Link) (handled : List Item) (station : Station) (events : List StationEvent) : Prop
  | working {outputs} (working : station.isRunning = true)
      (path : start.Path (outputs ++ station.unreleased) station.link) (tells : events = linkEvents outputs)
      (shown : (outputs ++ station.unreleased).filterMap Output.message? = handled.filterMap Item.message?) :
      Reported start handled station events
  | closed {outputs} (ended : station.isRunning = false) (path : start.Path outputs station.link)
      (idle : station.link.active = none) (tells : events = linkEvents outputs ++ station.state.farewell)
      (shown : outputs.filterMap Output.message? = handled.filterMap Item.message?) :
      Reported start handled station events

theorem abortIdle (link : Link) : link.abort.1.active = none := by
  cases active : link.active with
  | none => simp [Link.abort, Link.conclude, active]
  | some exchange =>
    have terminal : (exchange.stop .cancelled).isTerminal = true := by
      unfold Exchange.stop
      split
      · assumption
      · rfl
    simp [Link.abort, Link.conclude, active, terminal]

theorem silent {outputs : List Output} (own : ∀ output ∈ outputs, ¬ output.IsAside) :
    outputs.filterMap Output.message? = [] :=
  List.filterMap_eq_nil_iff.mpr fun output member => output.messageAside (own output member)

variable {start : Link} {handled : List Item} {station after : Station} {events more : List StationEvent}
  {before : List Output}

theorem stopReported {unpublished : List Output} (sound : start.Sound)
    (path : start.Path (before ++ unpublished) station.link)
    (shown : (before ++ unpublished).filterMap Output.message? = handled.filterMap Item.message?) (why : Option Fault) :
    Reported start handled (station.stop unpublished why).station
      (linkEvents before ++ (station.stop unpublished why).events) := by
  have aborted : station.link.Path station.link.abort.2 station.link.abort.1 :=
    Link.stepPath (path.sound sound) 0 .abort
  have quiet : station.link.abort.2.filterMap Output.message? = [] :=
    silent (@Link.stepOwn station.link 0 .abort rfl)
  refine .closed ?_ (path.append aborted) (abortIdle station.link) ?_ ?_
  · cases why <;> rfl
  · cases why <;> simp [stop, StationState.farewell, linkEventsAppend]
  · simpa [quiet] using shown

theorem Released.reported {pending : List Output} (released : Released station pending after more)
    (working : station.isRunning = true) (sound : start.Sound) (path : start.Path (before ++ pending) station.link)
    (shown : (before ++ pending).filterMap Output.message? = handled.filterMap Item.message?) :
    Reported start handled after (linkEvents before ++ more) := by
  cases released with
  | on all _ still tells =>
    subst all still tells
    rw [← List.append_assoc] at path shown
    exact .working working path (linkEventsAppend _ _).symm shown
  | @dead bytes told rest dead all stops tells =>
    subst all stops tells
    have tells : linkEvents before ++ linkEvents told = linkEvents (before ++ told ++ [.write bytes]) := by
      simp [linkEvents]
    have split : before ++ (told ++ .write bytes :: rest) = before ++ told ++ [.write bytes] ++ rest := by
      simp
    rw [split] at path shown
    rw [← List.append_assoc, tells]
    exact stopReported sound path shown _

theorem changePath {link : Link} {signal : Signal} {now changed} (sound : link.Sound)
    (change : signal.change? link now = some changed) :
    link.Path changed.2 changed.1 ∧
      changed.2.filterMap Output.message? = signal.item?.toList.filterMap Item.message? := by
  cases signal with
  | cancel => contradiction
  | endOfReading why => contradiction
  | item taken =>
    cases Option.some.inj change
    have shown := (link.inboundAnswered taken now).picks.2
    refine ⟨Link.inboundPath sound taken now, shown.trans ?_⟩
    cases message : taken.message? <;> simp [Signal.item?, message]
  | order taken =>
    cases Option.some.inj change
    refine ⟨?_, rfl⟩
    cases taken with
    | accept outbound => exact Link.stepPath sound now (.accept outbound)
    | wake node => exact Link.stepPath sound now (.wake node)
    | sleep node => exact Link.stepPath sound now (.sleep node)
    | report => exact .stay link
  | timer =>
    cases Option.some.inj change
    exact ⟨Link.stepPath sound now .expire, silent (@Link.stepOwn link now .expire rfl)⟩

theorem Turned.reported {now item} (turned : Turned station now item after more) (sound : start.Sound)
    (reported : Reported start handled station events) :
    Reported start (handled ++ item.toList) after (events ++ more) := by
  cases reported with
  | closed ended path idle tells shown =>
    cases turned with
    | rests => simpa using Reported.closed ended path idle tells shown
    | resumes working | works working | cancelled working | heardOut working => simp [ended] at working
  | @working outputs working path tells shown =>
    subst tells
    cases turned with
    | rests => simpa using Reported.working working path rfl shown
    | resumes _ released =>
      simp only [Option.toList_none, List.append_nil]
      exact released.reported working sound path shown
    | cancelled _ clear | heardOut _ clear =>
      simp only [Option.toList_none, List.append_nil]
      exact stopReported sound (clear ▸ path) (clear ▸ shown) _
    | @works signal without changed _ _ _ clear next change released =>
      obtain ⟨_, link, _, state⟩ := next.kept
      rw [clear, List.append_nil] at path shown
      rw [← link] at path
      obtain ⟨changes, own⟩ := changePath (path.sound sound) change
      have changedPath := path.append changes
      have sent := Link.transmitPath (changedPath.sound sound) now
      have quiet : (changed.1.transmit now).2.filterMap Output.message? = [] := silent (changed.1.transmitOwn now)
      refine released.reported ?_ sound (path.append (changes.append sent)) ?_
      · simpa [isRunning, state] using working
      · simp [shown, own, quiet]

structure Beside (station after : Station) : Prop where
  link : ∃ outbox, after.link = { station.link with outbox }
  unreleased : after.unreleased = station.unreleased
  state : after.state = station.state
  line : after.line = station.line ∨ after.line = station.write.station.line

theorem Reported.beside (reported : Reported start handled station events) (beside : Beside station after) :
    Reported start handled after events := by
  obtain ⟨⟨outbox, link⟩, unreleased, state, _⟩ := beside
  have moved : station.link.Path [] after.link := link ▸ .one 0 (.aside station.link rfl (by simp))
  cases reported with
  | working working path tells shown =>
    have longer := path.append moved
    rw [List.append_nil, ← unreleased] at longer
    exact .working (by simpa [isRunning, state] using working) longer tells (unreleased ▸ shown)
  | closed ended path idle tells shown =>
    have longer := path.append moved
    rw [List.append_nil] at longer
    exact .closed (by simpa [isRunning, state] using ended) longer (link ▸ idle) (state ▸ tells) shown

theorem delivered {item} (delivers : station.deliver? item = some after) :
    after = { station with inbox := station.inbox ++ [item] } := by
  unfold deliver? at delivers
  split at delivers
  · cases delivers
    rfl
  · contradiction

theorem stepBeside (station : Station) {op : Op} (noTurn : ∀ now effort, op ≠ .turn now effort) :
    Beside station (station.step op).station ∧ (station.step op).events = [] ∧ station.handled? op = none ∧
      (station.step op).station.inbox = station.inbox ++ (station.delivered? op).toList := by
  have same : Beside station station := ⟨⟨station.link.outbox, rfl⟩, rfl, rfl, .inl rfl⟩
  have kept : station.inbox = station.inbox ++ [] := (List.append_nil _).symm
  cases op with
  | turn now effort => exact absurd rfl (noTurn now effort)
  | giveBack => exact ⟨⟨⟨_, rfl⟩, rfl, rfl, .inl rfl⟩, rfl, rfl, kept⟩
  | endReading why => exact ⟨⟨⟨_, rfl⟩, rfl, rfl, .inl rfl⟩, rfl, rfl, kept⟩
  | cancel => exact ⟨⟨⟨_, rfl⟩, rfl, rfl, .inl rfl⟩, rfl, rfl, kept⟩
  | write => exact ⟨⟨⟨_, rfl⟩, rfl, rfl, .inr rfl⟩, rfl, rfl, kept⟩
  | reserve =>
    cases reserves : station.reserve with
    | error fault =>
      have refused : station.step .reserve = { station } := by simp [step, reserves, Except.toOption]
      rw [refused]
      exact ⟨same, rfl, rfl, kept⟩
    | ok taken =>
      have took : station.step .reserve = { station := taken } := by simp [step, reserves, Except.toOption]
      rw [took, (reserved reserves).2]
      exact ⟨⟨⟨_, rfl⟩, rfl, rfl, .inl rfl⟩, rfl, rfl, kept⟩
  | post order =>
    cases posts : station.post order with
    | error fault =>
      have refused : station.step (.post order) = { station } := by simp [step, posts, Except.toOption]
      rw [refused]
      exact ⟨same, rfl, rfl, kept⟩
    | ok after =>
      have left : station.step (.post order) = { station := after } := by simp [step, posts, Except.toOption]
      rw [left, (posted posts).2]
      exact ⟨⟨⟨_, rfl⟩, rfl, rfl, .inl rfl⟩, rfl, rfl, kept⟩
  | deliver item =>
    cases delivers : station.deliver? item with
    | none =>
      have refused : station.step (.deliver item) = { station } := by simp [step, delivers]
      have none : station.delivered? (.deliver item) = none := by simp [delivered?, delivers]
      rw [refused, none]
      exact ⟨same, rfl, rfl, kept⟩
    | some after =>
      have took : station.step (.deliver item) = { station := after } := by simp [step, delivers]
      have some : station.delivered? (.deliver item) = some item := by simp [delivered?, delivers]
      rw [took, some, delivered delivers]
      exact ⟨⟨⟨_, rfl⟩, rfl, rfl, .inl rfl⟩, rfl, rfl, rfl⟩

theorem stepReported (sound : start.Sound) (reported : Reported start handled station events) (op : Op) :
    Reported start (handled ++ (station.handled? op).toList) (station.step op).station
      (events ++ (station.step op).events) := by
  by_cases turn : ∃ now effort, op = .turn now effort
  · obtain ⟨now, effort, rfl⟩ := turn
    exact (turned station now effort).reported sound reported
  · obtain ⟨beside, quiet, none, _⟩ := stepBeside station fun now effort same => turn ⟨now, effort, same⟩
    rw [quiet, none, List.append_nil, Option.toList_none, List.append_nil]
    exact reported.beside beside

def picked (pick : Station → Op → Option Item) (station : Station) : List Op → List Item
  | [] => []
  | op :: rest => (pick station op).toList ++ picked pick (station.step op).station rest

theorem pickedAppend (pick : Station → Op → Option Item) (station : Station) (history later : List Op) :
    picked pick station (history ++ later) =
      picked pick station history ++ picked pick (station.run history).station later := by
  induction history generalizing station with
  | nil => rfl
  | cons op rest ih => simp only [List.cons_append, picked, run, ih, List.append_assoc]

def handledIn : Station → List Op → List Item := picked handled?

def deliveredIn : Station → List Op → List Item := picked delivered?

theorem runAppend (station : Station) (history later : List Op) :
    (station.run (history ++ later)).station = ((station.run history).station.run later).station ∧
      (station.run (history ++ later)).events =
        (station.run history).events ++ ((station.run history).station.run later).events := by
  induction history generalizing station with
  | nil => exact ⟨rfl, rfl⟩
  | cons op rest ih =>
    obtain ⟨same, told⟩ := ih (station.step op).station
    exact ⟨same, by simp only [List.cons_append, run, told, List.append_assoc]⟩

theorem runReported (sound : start.Sound) (reported : Reported start handled station events) (history : List Op) :
    Reported start (handled ++ station.handledIn history) (station.run history).station
      (events ++ (station.run history).events) := by
  induction history generalizing station handled events with
  | nil => simpa [handledIn, picked, run] using reported
  | cons op rest ih => simpa [handledIn, picked, run] using ih (stepReported sound reported op)

end Station

end ZWaveHost
