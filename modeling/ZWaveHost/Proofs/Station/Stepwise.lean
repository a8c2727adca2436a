import Mathlib.Logic.Relation
import ZWaveHost.Proofs.Station.Balance

/-! A station among whole calls, followed step by step. A call takes all its steps at once and a turn of the station
is several steps of its own, so whatever holds of every office holds of every station that runs this way. -/
namespace ZWaveHost

namespace Station

def Op.LeavesSlots : Op → Prop
  | reserve | giveBack | post (.accept _) => False
  | _ => True

inductive Moves (station : Station) : Station → Prop
  | called {call after} (accepted : station.call call = .ok after) : Moves station after
  | stepped (op : Op) (leaves : op.LeavesSlots) : Moves station (station.step op).station
  | replugged (port : Port) : Moves station { station with line.port := port }

def Leads : Station → Station → Prop := Relation.ReflTransGen Moves

theorem Leads.stays {station after : Station} (same : after = station) : station.Leads after := same ▸ .refl

theorem sent {station after : Station} {message listening}
    (accepted : station.call (.send message listening) = .ok after) :
    message.validate = .ok () ∧
      ∃ taken, station.reserve = .ok taken ∧ taken.post (.accept ⟨message, listening⟩) = .ok after := by
  simp only [call, bind, Except.bind] at accepted
  split at accepted
  · contradiction
  · rename_i valid
    split at accepted
    · contradiction
    · rename_i taken reserves
      exact ⟨valid, taken, reserves, accepted⟩

end Station

namespace Office

def Alike (station other : Station) : Prop :=
  station.link = other.link ∧ station.mailbox = other.mailbox ∧ station.state = other.state

structure Shows (office : Office) (station : Station) : Prop where
  alike : Alike office.station station
  present : station.state = .running → office.leaving = false

structure Idle (office : Office) : Prop where
  asked : office.asked = []
  holding : office.holding = []
  refused : office.refused = []

def Op.IsOwn : Op → Prop
  | take | inbound .. | expire _ | transmit _ | abort | close _ => True
  | _ => False

theorem Idle.own {office : Office} {op : Op} (idle : office.Idle) (own : op.IsOwn) : (office.step op).1.Idle := by
  obtain ⟨asked, holding, refused⟩ := idle
  cases op with
  | take | inbound | expire | transmit | abort | close =>
    simp only [step, take, work, abort, close]
    split <;> exact ⟨asked, holding, refused⟩
  | ask | reserve | post | giveBack | wake | sleep | report => exact own.elim

def Reaches (office : Office) (station : Station) : Prop :=
  ∃ steps : List Op, (∀ step ∈ steps, step.IsOwn) ∧ (office.run steps).1.Shows station

theorem Reaches.after {office : Office} {station : Station} (op : Op) (own : op.IsOwn)
    (reaches : (office.step op).1.Reaches station) : office.Reaches station := by
  obtain ⟨steps, owns, alike⟩ := reaches
  exact ⟨op :: steps, List.forall_mem_cons.mpr ⟨own, owns⟩, alike⟩

theorem Shows.reaches {office : Office} {station : Station} (shows_ : office.Shows station) :
    office.Reaches station := ⟨[], by simp, shows_⟩

theorem Reaches.idle {office : Office} {station : Station} (reaches : office.Reaches station) (idle : office.Idle) :
    ∃ steps, (office.run steps).1.Shows station ∧ (office.run steps).1.Idle := by
  obtain ⟨steps, owns, shows_⟩ := reaches
  refine ⟨steps, shows_, ?_⟩
  clear shows_
  induction steps generalizing office with
  | nil => exact idle
  | cons op rest ih =>
    obtain ⟨own, owns⟩ := List.forall_mem_cons.mp owns
    exact ih (idle.own own) owns

section Turns

variable {office : Office} {station : Station}

theorem Shows.own (shows_ : office.Shows station) (running : station.state = .running) :
    office.station.state = .running := shows_.alike.2.2.trans running

theorem Shows.attends (shows_ : office.Shows station) (running : station.state = .running) : office.attends = true := by
  simp [Office.attends, Station.isRunning, shows_.own running, shows_.present running]

theorem Shows.stops (shows_ : office.Shows station) (running : station.state = .running) (rest : List Output)
    (why : Option Fault) : office.Reaches (station.stop rest why).station := by
  refine .after .abort trivial (.after (.close why) trivial (Shows.reaches ⟨?_, ?_⟩))
  · simp [step, abort, shows_.attends running, close, Station.isRunning, shows_.own running, Alike, shows_.alike.1,
      Station.stop]
  · cases why <;> simp [Station.stop]

theorem Shows.releases (shows_ : office.Shows station) (running : station.state = .running) (effort : Nat)
    (outputs : List Output) : office.Reaches (station.release effort outputs).station := by
  fun_induction Station.release station effort outputs with
  | case1 station effort => exact shows_.reaches
  | case2 station effort event rest later ih => exact ih shows_ running
  | case3 station bytes rest => exact Shows.reaches ⟨shows_.alike, shows_.present⟩
  | case4 station effort bytes rest some dead => exact shows_.stops running rest _
  | case5 station effort bytes rest some alive room ih => exact ih ⟨shows_.alike, shows_.present⟩ running
  | case6 station effort bytes rest some alive full => exact Shows.reaches ⟨shows_.alike, shows_.present⟩

theorem Shows.works {changed : Link × List Output} (shows_ : office.Shows { station with link := changed.1 })
    (running : station.state = .running) (now : Time) (effort : Nat) :
    office.Reaches (station.work now effort changed).station := by
  have sent : (office.step (.transmit now)).1.Shows { station with link := (changed.1.transmit now).1 } := by
    obtain ⟨link, mailbox, state⟩ := shows_.alike
    refine ⟨?_, fun _ => ?_⟩
    · simp [step, work, shows_.attends running, Alike, Link.step, link, mailbox, state]
    · simp [step, work, shows_.attends running, shows_.present running]
  exact .after (.transmit now) trivial (sent.releases running effort _)

theorem Shows.hears (shows_ : office.Shows station) (running : station.state = .running) (now : Time) (op : Link.Op) :
    (office.work now op).1.Shows { station with link := (station.link.step now op).1 } := by
  obtain ⟨link, mailbox, state⟩ := shows_.alike
  refine ⟨?_, fun _ => ?_⟩
  · simp [work, shows_.attends running, Alike, link, mailbox, state]
  · simp [work, shows_.attends running, shows_.present running]

theorem Shows.takes {order rest} (shows_ : office.Shows station) (running : station.state = .running)
    (waits : station.mailbox = order :: rest) :
    office.take.1.Shows { station with link := Station.carryOut station.link order, mailbox := rest } := by
  obtain ⟨link, mailbox, state⟩ := shows_.alike
  refine ⟨?_, fun _ => ?_⟩
  · simp [take, shows_.attends running, Alike, link, mailbox, waits, state]
  · simp [take, shows_.attends running, mailbox, waits, shows_.present running]

theorem Shows.reacts {without : Station} {now signal} (shows_ : office.Shows station)
    (running : station.state = .running) (next : station.Next now signal without) (effort : Nat) :
    office.Reaches (without.react now effort signal).station := by
  cases next with
  | cancel => exact shows_.stops running [] none
  | endOfReading => exact shows_.stops running [] _
  | @item item rest =>
    have left : office.Shows { station with inbox := rest } := ⟨shows_.alike, shows_.present⟩
    exact .after (.inbound item now) trivial (Shows.works (left.hears running now (.inbound item)) running now effort)
  | timer => exact .after (.expire now) trivial (Shows.works (shows_.hears running now .expire) running now effort)
  | @order order rest _ _ _ waits =>
    have left : office.take.1.Shows { station with link := Station.carryOut station.link order, mailbox := rest } :=
      shows_.takes running waits
    exact .after .take trivial (@Shows.works _ { station with mailbox := rest } _ left running now effort)

theorem Shows.turns (shows_ : office.Shows station) (now : Time) (effort : Nat) :
    office.Reaches (station.turn now effort).station := by
  unfold Station.turn
  split
  · exact shows_.reaches
  · rename_i works
    have running : station.state = .running := by
      simp only [not_or, Station.isRunning] at works
      simpa using works.1
    split
    · have cleared : office.Shows { station with unreleased := [] } := ⟨shows_.alike, shows_.present⟩
      exact cleared.releases running effort station.unreleased
    · split
      · exact shows_.reaches
      · rename_i taken
        exact shows_.reacts running (Station.next taken) (effort - 1)

end Turns

def stepsOf (outbound : Outbound) : List Op := [.ask outbound, .reserve outbound, .post outbound, .giveBack outbound]

theorem callStepwise {office : Office} (idle : office.Idle) (message : Message) (listening : Bool) :
    let outbound : Outbound := ⟨message, listening⟩
    office.run (stepsOf outbound) =
      match office.station.call (.send message listening) with
      | .ok after => ({ office with station := after }, [.posted (.accept outbound), .returned outbound none])
      | .error fault => (office, [.returned outbound (some fault)]) := by
  obtain ⟨station, _, _, _, leaving, lost⟩ := office
  obtain ⟨rfl, rfl, rfl⟩ := idle
  cases valid : message.validate with
  | error fault => simp [stepsOf, run, step, ask, reserve, post, giveBack, Station.call, valid, bind, Except.bind]
  | ok _ =>
    cases full : station.reserve with
    | error fault =>
      simp [stepsOf, run, step, ask, reserve, post, giveBack, Station.call, valid, full, bind, Except.bind]
    | ok taken =>
      cases posted : taken.post (.accept ⟨message, listening⟩) with
      | ok after =>
        simp [stepsOf, run, step, ask, reserve, post, giveBack, Station.call, valid, full, posted, bind, Except.bind]
      | error fault =>
        simp [stepsOf, run, step, ask, reserve, post, giveBack, Station.call, valid, full, posted, bind, Except.bind,
          Station.givenBack full, (Station.unposted posted).2]

section Calls

variable {station other after : Station}

theorem Alike.trans (alike : Alike station other) (more : Alike other after) : Alike station after :=
  ⟨alike.1.trans more.1, alike.2.1.trans more.2.1, alike.2.2.trans more.2.2⟩

theorem Alike.symm (alike : Alike station other) : Alike other station :=
  ⟨alike.1.symm, alike.2.1.symm, alike.2.2.symm⟩

theorem Alike.posts {order} (alike : Alike station other) (posts : other.post order = .ok after) :
    ∃ own, station.post order = .ok own ∧ Alike own after := by
  obtain ⟨running, rfl⟩ := Station.posted posts
  obtain ⟨link, mailbox, state⟩ := alike
  have own : station.isRunning = true := by simpa [Station.isRunning, state] using running
  exact ⟨{ station with mailbox := station.mailbox ++ [order] }, by simp [Station.post, own], link, by simp [mailbox],
    state⟩

theorem Alike.reserves (alike : Alike station other) (reserves : other.reserve = .ok after) :
    ∃ own, station.reserve = .ok own ∧ Alike own after := by
  obtain ⟨room, rfl⟩ := Station.reserved reserves
  obtain ⟨link, mailbox, state⟩ := alike
  have own : station.reserve =
      .ok (station.withSlots { other.link.outbox.slots with reserved := other.pending + 1 }) := by
    have free : other.link.outbox.slots.isFull = false := by simpa [Slots.isFull, Station.pending] using room
    simp [Station.reserve, Slots.reserve, Station.pending, link, free, bind, Except.bind, pure, Except.pure]
  exact ⟨_, own, by simp [Station.withSlots, link], mailbox, state⟩

theorem Alike.calls {call} (alike : Alike station other) (accepted : other.call call = .ok after) :
    ∃ own, station.call call = .ok own ∧ Alike own after := by
  cases call with
  | send message listening =>
    obtain ⟨valid, taken, reserves, posts⟩ := Station.sent accepted
    obtain ⟨ownTaken, ownReserves, takenAlike⟩ := alike.reserves reserves
    obtain ⟨own, ownPosts, ownAlike⟩ := takenAlike.posts posts
    exact ⟨own, by simp [Station.call, valid, ownReserves, ownPosts, bind, Except.bind], ownAlike⟩
  | wake node => exact alike.posts accepted
  | sleep node => exact alike.posts accepted

end Calls

variable {office : Office} {station after : Station}

theorem Shows.told {order : Order} (shows_ : office.Shows station) (posts : station.post order = .ok after) :
    (office.tell order).1.Shows after := by
  obtain ⟨own, ownPosts, alike⟩ := shows_.alike.posts posts
  obtain ⟨_, rfl⟩ := Station.posted posts
  exact ⟨by simpa [tell, ownPosts] using alike, by simpa [tell, ownPosts] using shows_.present⟩

theorem Idle.told (idle : office.Idle) (order : Order) : (office.tell order).1.Idle := by
  unfold tell
  split
  · exact idle
  · exact ⟨idle.asked, idle.holding, idle.refused⟩

theorem keepsState {message listening} (accepted : station.call (.send message listening) = .ok after) :
    after.state = station.state := by
  obtain ⟨_, taken, reserves, posts⟩ := Station.sent accepted
  rw [(Station.posted posts).2, (Station.reserved reserves).2]
  rfl

theorem Shows.whole (shows_ : office.Shows station) (idle : office.Idle) (message : Message) (listening : Bool) :
    let after := (office.run (stepsOf ⟨message, listening⟩)).1
    after.Shows ((station.call (.send message listening)).toOption.getD station) ∧ after.Idle := by
  have steps := callStepwise idle message listening
  cases accepted : office.station.call (.send message listening) with
  | ok own =>
    obtain ⟨after, called, alike⟩ := shows_.alike.symm.calls accepted
    rw [accepted] at steps
    rw [steps, called]
    exact ⟨⟨alike.symm, keepsState called ▸ shows_.present⟩, idle.asked, idle.holding, idle.refused⟩
  | error fault =>
    rw [accepted] at steps
    cases called : station.call (.send message listening) with
    | ok after =>
      obtain ⟨own, ownAccepted, -⟩ := shows_.alike.calls called
      cases accepted.symm.trans ownAccepted
    | error other =>
      rw [steps]
      exact ⟨shows_, idle⟩

theorem Shows.calls {call} (shows_ : office.Shows station) (idle : office.Idle)
    (accepted : station.call call = .ok after) :
    ∃ steps, (office.run steps).1.Shows after ∧ (office.run steps).1.Idle := by
  cases call with
  | send message listening =>
    have whole := shows_.whole idle message listening
    rw [accepted] at whole
    exact ⟨stepsOf ⟨message, listening⟩, whole⟩
  | wake node => exact ⟨[.wake node], shows_.told accepted, idle.told _⟩
  | sleep node => exact ⟨[.sleep node], shows_.told accepted, idle.told _⟩

theorem Shows.moves (shows_ : office.Shows station) (idle : office.Idle) (moves : station.Moves after) :
    ∃ steps, (office.run steps).1.Shows after ∧ (office.run steps).1.Idle := by
  -- What callers cannot tell the station by takes no step of the office.
  have aside {other : Station} (alike : Alike station other) :
      ∃ steps, (office.run steps).1.Shows other ∧ (office.run steps).1.Idle :=
    ⟨[], ⟨shows_.alike.trans alike, fun running => shows_.present (alike.2.2.trans running)⟩, idle⟩
  cases moves with
  | called accepted => exact shows_.calls idle accepted
  | replugged port => exact aside ⟨rfl, rfl, rfl⟩
  | stepped op leaves =>
    cases op with
    | reserve | giveBack => exact leaves.elim
    | post order =>
      simp only [Station.step]
      cases posts : station.post order with
      | error fault => exact aside ⟨rfl, rfl, rfl⟩
      | ok after =>
        have told := shows_.told posts
        cases order with
        | accept outbound => exact leaves.elim
        | wake node => exact ⟨[.wake node], told, idle.told _⟩
        | sleep node => exact ⟨[.sleep node], told, idle.told _⟩
        | report => exact ⟨[.report], told, idle.told _⟩
    | deliver item =>
      simp only [Station.step, Station.deliver?]
      split <;> exact aside ⟨rfl, rfl, rfl⟩
    | endReading why => exact aside ⟨rfl, rfl, rfl⟩
    | cancel => exact aside ⟨rfl, rfl, rfl⟩
    | turn now effort => exact (shows_.turns now effort).idle idle
    | write => exact aside ⟨rfl, rfl, rfl⟩

theorem Shows.leads (shows_ : office.Shows station) (idle : office.Idle) (leads : station.Leads after) :
    ∃ steps, (office.run steps).1.Shows after ∧ (office.run steps).1.Idle := by
  induction leads with
  | refl => exact ⟨[], shows_, idle⟩
  | tail before moves ih =>
    obtain ⟨history, later, still⟩ := ih
    obtain ⟨steps, last, end_⟩ := later.moves still moves
    refine ⟨history ++ steps, ?_⟩
    rw [runAppend]
    exact ⟨last, end_⟩

theorem openedShows (timing : Timing) (queueCapacity writerCapacity : Nat) (port : Port) :
    let office := opened timing queueCapacity writerCapacity port
    office.Shows (.fresh timing queueCapacity writerCapacity port) ∧ office.Idle :=
  ⟨⟨⟨rfl, rfl, rfl⟩, fun _ => rfl⟩, rfl, rfl, rfl⟩

theorem followed {timing queueCapacity writerCapacity port}
    (leads : (Station.fresh timing queueCapacity writerCapacity port).Leads station) :
    ∃ history, let office := ((opened timing queueCapacity writerCapacity port).run history).1
      office.Shows station ∧ office.Idle := by
  obtain ⟨shows_, idle⟩ := openedShows timing queueCapacity writerCapacity port
  exact shows_.leads idle leads

end Office

namespace Station

theorem slotsShared {timing queueCapacity writerCapacity port station}
    (leads : (fresh timing queueCapacity writerCapacity port).Leads station) :
    station.pending ≤ queueCapacity ∧
      (station.isRunning = true →
        station.pending = station.link.outbox.size + (requestsOf station.mailbox).length) := by
  obtain ⟨history, ⟨⟨link, mailbox, state⟩, _⟩, idle⟩ := Office.followed leads
  obtain ⟨_, shares, bounded, working⟩ :=
    Office.runBalanced (Office.openedBalanced timing queueCapacity writerCapacity port) history
  simp only [pending, link, mailbox, idle.holding, idle.refused] at shares bounded
  refine ⟨bounded, fun running => ?_⟩
  have works := (working (by simpa [isRunning, state] using running)).1
  simpa [works, requestsOf, pending] using shares

end Station

end ZWaveHost
