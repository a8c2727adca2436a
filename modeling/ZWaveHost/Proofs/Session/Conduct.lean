import ZWaveHost.Proofs.Station.Stepwise
import ZWaveHost.Session

/-! What a session does to its station. Reader, line and audience touch it through its own steps alone: they deliver,
write and call. -/
namespace ZWaveHost

namespace Session

variable {α : Type}

theorem wakeStation (session : Session α) (worker : Worker) : (session.wake worker).station = session.station := by
  unfold wake
  split <;> rfl

theorem wakeIfStation (session : Session α) (wanted : Bool) (worker : Worker) :
    (session.wakeIf wanted worker).station = session.station := by
  unfold wakeIf
  split
  · exact wakeStation session worker
  · rfl

theorem resumeStation (session : Session α) : session.resume.station = session.station := by
  have wakesAll (workers : List Worker) (session : Session α) :
      (workers.foldl wake session).station = session.station := by
    induction workers generalizing session with
    | nil => rfl
    | cons worker rest ih => rw [List.foldl_cons, ih, wakeStation]
  exact wakesAll session.postponed { session with postponed := [] }

theorem deliversAll (station : Station) (items : List Item) : station.Leads (station.deliverAll items).1 := by
  induction items generalizing station with
  | nil => exact .refl
  | cons item rest ih =>
    simp only [Station.deliverAll]
    cases delivers : station.deliver? item with
    | none => exact .refl
    | some after =>
      have moves : station.Moves after := by
        simpa [Station.step, delivers] using @Station.Moves.stepped station (.deliver item) trivial
      exact .head moves (ih after)

theorem delivers (session : Session α) : session.station.Leads session.deliver.station := by
  simpa [deliver, wakeIfStation] using deliversAll session.station session.arriving

theorem readerTurns (session : Session α) : session.station.Leads session.readerTurn.station := by
  have overdue (session : Session α) : session.station.Leads session.takeOverdue.station := by
    let given := abandon session.decoder session.now session.receiveTimeout (session.decoder.size + 1)
    unfold takeOverdue
    split
    · exact delivers { session with decoder := given.1, arriving := given.2 }
    · exact .refl
  simp only [readerTurn]
  split
  · exact .trans (delivers session) (overdue session.deliver)
  · exact delivers session

theorem operates (session : Session α) (effort : Nat) :
    session.station.Leads (session.operate effort).1.station := by
  fun_induction operate session effort with
  | case1 session => exact .refl
  | case2 session effort some turn after worked ih =>
    exact .head (.stepped (.turn session.now effort) trivial) ih
  | case3 session effort some turn after worked => exact .single (.stepped (.turn session.now effort) trivial)

theorem stationTurns (session : Session α) : session.station.Leads session.stationTurn.station := by
  have operated := operates session effortLimit
  simp only [stationTurn, wakeIfStation]
  split <;> exact operated

theorem lineTurns (session : Session α) : session.station.Leads session.lineTurn.station := by
  rw [lineTurn, wakeIfStation]
  exact .single (.stepped .write trivial)

theorem answers {session after : Session α} {call} (accepted : session.call? call = .ok after) :
    session.station.Moves after.station := by
  simp only [call?, bind, Except.bind, pure, Except.pure] at accepted
  split at accepted
  · contradiction
  · rename_i station answered
    cases accepted
    rw [posted, wakeIfStation]
    exact .called answered

theorem callsAll (session : Session α) (calls : List LinkCall) :
    session.station.Leads (calls.foldl call session).station := by
  induction calls generalizing session with
  | nil => exact .refl
  | cons first rest ih =>
    refine .trans ?_ (ih (session.call first))
    cases accepted : session.call? first with
    | error fault => exact Station.Leads.stays (by simp [call, accepted, Except.toOption])
    | ok after => simpa [call, accepted, Except.toOption] using .single (answers accepted)

variable [Audience α]

theorem audienceTurns (session : Session α) : session.station.Leads session.audienceTurn.station := by
  have hearsAll (events : List StationEvent) (session : Session α) :
      session.station.Leads (events.foldl tell session).station := by
    induction events generalizing session with
    | nil => exact .refl
    | cons event rest ih =>
      let answer := Audience.hear session.audience session.now event
      have answered : session.station.Leads (session.tell event).station :=
        callsAll { session with audience := answer.1 } answer.2
      exact .trans answered (ih (session.tell event))
  have heard := hearsAll (session.unheard.take hearingLimit)
    { session with unheard := session.unheard.drop hearingLimit }
  simp only [audienceTurn]
  split <;> exact heard

theorem workerTurns (session : Session α) (worker : Worker) :
    session.station.Leads (session.turnOf worker).station := by
  cases worker with
  | reader => exact readerTurns session
  | station => exact stationTurns session
  | line => exact lineTurns session
  | audience => exact audienceTurns session

theorem settlesWithin (session : Session α) (patience turns : Nat) :
    session.station.Leads (session.settleWithin patience turns).station := by
  fun_induction settleWithin session patience turns with
  | case1 => exact .refl
  | case2 session turns left worker rest waits ih =>
    exact .trans (workerTurns { session with queue := rest } worker) ih
  | case3 session patience turns queue idle => exact .refl
  | case4 session patience turns queue idle ih => exact resumeStation session ▸ ih
  | case5 session turns worker rest waits ih => exact resumeStation session ▸ ih

theorem settles (session : Session α) : session.station.Leads session.settle.station := settlesWithin _ _ _

theorem rings (session : Session α) (now : Time) : session.station.Leads (session.ring now).station := by
  simp only [ring]
  refine .trans (Station.Leads.stays ?_) (settles _)
  simp only [wakeIfStation]

theorem advancesFrom (session : Session α) (start target : Time) :
    session.station.Leads (session.advanceFrom start target).station := by
  fun_induction advanceFrom session start target with
  | case1 session start idle => exact .refl
  | case2 session start next due ahead ih => exact .trans (rings session next) ih
  | case3 session start next due late => exact .refl

inductive Moves (session : Session α) : Session α → Prop
  | settled : Moves session session.settle
  | received (bytes : Bytes) : Moves session (session.receive bytes)
  | readingEnds (why : Fault) : Moves session (session.endReading why)
  | cancelled : Moves session session.cancel
  | requested (call : LinkCall) : Moves session (session.request call).1
  | counted : Moves session session.stats.1
  | passes (duration : Time) : Moves session (session.advance duration)
  | replugged (port : Port) : Moves session (session.withPort port)
  | told (audience : α) (calls : List LinkCall) : Moves session (calls.foldl call { session with audience })

theorem Moves.leads {session after : Session α} (moves : session.Moves after) :
    session.station.Leads after.station := by
  cases moves with
  | settled => exact settles session
  | received bytes =>
    simp only [receive]
    split
    · refine .trans (Station.Leads.stays ?_) (settles _)
      rw [wakeStation]
    · exact .refl
  | readingEnds why =>
    simp only [endReading]
    split
    · refine .head (.stepped (.endReading why) trivial) (.trans (Station.Leads.stays ?_) (settles _))
      rw [wakeStation]
      rfl
    · exact .refl
  | cancelled =>
    refine .head (.stepped .cancel trivial) (.trans (Station.Leads.stays ?_) (settles _))
    rw [wakeStation]
    rfl
  | requested call =>
    simp only [request]
    split
    · rename_i accepted
      exact .head (answers accepted) (settles _)
    · exact .refl
  | counted =>
    simp only [stats]
    split
    · rename_i station posts
      refine .head (.stepped (.post .report) trivial) (.trans (Station.Leads.stays ?_) (settles _))
      simp [posted, wakeIfStation, Station.step, posts, Except.toOption]
    · exact .refl
  | passes duration => exact advancesFrom session session.now _
  | replugged port => exact .single (.replugged port)
  | told audience calls => exact callsAll { session with audience } calls

/- Whatever a session goes through: while its station runs, each slot that is taken belongs to a request in the outbox or in
the mailbox, and there are never more of them than the settings allow. -/
theorem sharesSlots (settings : Settings) (port : Port) (audience : α) {session : Session α}
    (happened : Relation.ReflTransGen Moves (fresh settings port audience) session) :
    let station := session.station
    station.pending ≤ settings.queueCapacity.toNat ∧
      (station.isRunning = true →
        station.pending = station.link.outbox.size + (requestsOf station.mailbox).length) := by
  have leads : (fresh settings port audience).station.Leads session.station :=
    happened.lift' station fun _ _ moves => moves.leads
  exact Station.slotsShared leads

end Session

end ZWaveHost
