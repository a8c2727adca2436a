import ZWaveHost.Proofs.Link.Outbox
import ZWaveHost.Proofs.Station.Office

/-! Slots in balance. A slot that is taken belongs to one request: to a call that has not posted it, to an order in the
mailbox, or to a request in the outbox. It is given back when the request leaves the outbox, or when the call finds the
mailbox closed. -/
namespace ZWaveHost

theorem requestsAppend (orders later : List Order) :
    requestsOf (orders ++ later) = requestsOf orders ++ requestsOf later := by
  simp [requestsOf]

theorem requestsAccept (outbound : Outbound) : requestsOf [.accept outbound] = [outbound] := rfl

theorem requestsOther {order : Order} (other : order.request? = none) : requestsOf [order] = [] := by
  simp [requestsOf, other]

namespace Office

def Refusal (office : Office) (note : Note) : Prop :=
  ∃ outbound fault, note = .returned outbound (some fault) ∧
    (outbound.message.validate = .error fault ∨ office.station.reserve = .error fault)

inductive Deed (office : Office) : List Note → Office → Prop
  | aside {asked notes} (failures : ∀ note ∈ notes, Refusal office note) : Deed office notes { office with asked }
  | reserved {outbound station asked} (reserves : office.station.reserve = .ok station) :
      Deed office [] { office with station, asked, holding := outbound :: office.holding }
  | handedOver {outbound station} (held : outbound ∈ office.holding)
      (posts : office.station.post (.accept outbound) = .ok station) :
      Deed office [.posted (.accept outbound), .returned outbound none]
        { office with station, holding := office.holding.erase outbound }
  | told {order station} (other : order.request? = none) (posts : office.station.post order = .ok station) :
      Deed office [.posted order] { office with station }
  | refused {outbound} (held : outbound ∈ office.holding) (ended : office.station.isRunning = false) :
      Deed office [] { office with
        holding := office.holding.erase outbound
        refused := outbound :: office.refused }
  | givenBack {outbound} (holds : outbound ∈ office.refused) :
      Deed office [.returned outbound (some .connectionClosed)] { office with
        station := office.station.giveBack
        refused := office.refused.erase outbound }
  | took {order rest} (attends : office.attends = true) (waits : office.station.mailbox = order :: rest) :
      Deed office [.taken order] { office with
        station := { office.station with link := Station.carryOut office.station.link order, mailbox := rest } }
  | worked {link} (attends : office.attends = true) (empties : office.station.link.Empties link) :
      Deed office [] { office with station.link := link }
  | left (attends : office.attends = true) :
      Deed office [] { office with station.link := office.station.link.abort.1, leaving := true }
  | closed {why : Option Fault} (running : office.station.isRunning = true) (leaving : office.leaving = true) :
      Deed office [] { office with
        station := { office.station with inbox := [], mailbox := [], state := why.elim .cancelled .lost }
        lost := office.station.mailbox }

theorem Deed.nothing (office : Office) : Deed office [] office := .aside (by simp)

theorem tellDeed (office : Office) {order : Order} (other : order.request? = none) :
    Deed office (office.tell order).2 (office.tell order).1 := by
  unfold tell
  split
  · exact .nothing office
  · rename_i posts
    exact .told other posts

theorem workDeed (office : Office) {now op}
    (empties : office.station.link.Empties (office.station.link.step now op).1) :
    Deed office (office.work now op).2 (office.work now op).1 := by
  unfold work
  split
  · rename_i attends
    exact .worked attends empties
  · exact .nothing office

theorem stepDeed (office : Office) (op : Op) : Deed office (office.step op).2 (office.step op).1 := by
  cases op with
  | ask outbound =>
    simp only [step, ask]
    split
    · rename_i invalid
      exact .aside (by simpa using ⟨_, _, rfl, .inl invalid⟩)
    · exact .aside (by simp)
  | reserve outbound =>
    simp only [step, reserve]
    split
    · split
      · rename_i full
        exact .aside (by simpa using ⟨_, _, rfl, .inr full⟩)
      · rename_i reserves
        exact .reserved reserves
    · exact .nothing office
  | post outbound =>
    simp only [step, post]
    split
    · rename_i held
      split
      · rename_i refused
        exact .refused held (Station.unposted refused).1
      · rename_i posts
        exact .handedOver held posts
    · exact .nothing office
  | giveBack outbound =>
    simp only [step, giveBack]
    split
    · rename_i holds
      exact .givenBack holds
    · exact .nothing office
  | wake node => exact tellDeed office rfl
  | sleep node => exact tellDeed office rfl
  | report => exact tellDeed office rfl
  | take =>
    simp only [step, take]
    split
    · rename_i attends waits
      exact .took attends waits
    · exact .nothing office
  | inbound item now => exact workDeed office (.same (Link.inboundOutbox _ item now))
  | expire now => exact workDeed office (.same (Link.expireOutbox _ now))
  | transmit now => exact workDeed office (Link.transmitEmpties _ now)
  | abort =>
    simp only [step, abort]
    split
    · rename_i attends
      exact .left attends
    · exact .nothing office
  | close why =>
    simp only [step, close]
    split
    · rename_i both
      exact .closed both.1 both.2
    · exact .nothing office

theorem runKeeps {P : Office → Prop}
    (keeps : ∀ {office after : Office} {notes}, P office → Deed office notes after → P after)
    {office : Office} (holds : P office) (history : List Op) : P (office.run history).1 := by
  induction history generalizing office with
  | nil => exact holds
  | cons op rest ih => exact ih (keeps holds (stepDeed office op))

def Note.accepted? : Note → Option Outbound
  | returned outbound none => some outbound
  | _ => none

def posted (notes : List Note) : List Order := notes.filterMap Note.posted?

def taken (notes : List Note) : List Order := notes.filterMap Note.taken?

def accepted (notes : List Note) : List Outbound := notes.filterMap Note.accepted?

structure Balanced (capacity : Nat) (office : Office) : Prop where
  limit : office.station.link.outbox.slots.limit = capacity
  shares : office.station.pending = office.station.link.outbox.size + (requestsOf office.station.mailbox).length +
    (requestsOf office.lost).length + office.holding.length + office.refused.length
  bounded : office.station.pending ≤ capacity
  working : office.station.isRunning = true → office.lost = [] ∧ office.refused = []

theorem openedBalanced (timing : Timing) (capacity writerCapacity : Nat) (port : Port) :
    Balanced capacity (opened timing capacity writerCapacity port) :=
  ⟨rfl, rfl, Nat.zero_le _, fun _ => ⟨rfl, rfl⟩⟩

theorem carryOutSlots (link : Link) (order : Order) :
    (Station.carryOut link order).outbox.slots = link.outbox.slots ∧
      (Station.carryOut link order).outbox.size = link.outbox.size + (requestsOf [order]).length := by
  cases order with
  | accept outbound => exact ⟨Outbox.acceptSlots _ _, Outbox.acceptSize _ _⟩
  | wake node => exact ⟨rfl, Outbox.wakeSize _ _⟩
  | sleep node => exact ⟨rfl, rfl⟩
  | report => exact ⟨rfl, rfl⟩

theorem Balanced.works {capacity : Nat} {office : Office} {link : Link} (balanced : Balanced capacity office)
    (gives : office.station.link.outbox.Gives link.outbox) (leaving : Bool) :
    Balanced capacity { office with station.link := link, leaving } := by
  obtain ⟨limit, shares, bounded, working⟩ := balanced
  obtain ⟨fewer, slots⟩ := gives
  refine ⟨by simpa only [slots, Slots.release] using limit, ?_, ?_, working⟩
  · simp only [Station.pending, slots, Slots.release] at shares ⊢
    omega
  · simp only [Station.pending, slots, Slots.release] at bounded ⊢
    omega

theorem Balanced.deed {capacity : Nat} {office after : Office} {notes} (balanced : Balanced capacity office)
    (deed : Deed office notes after) : Balanced capacity after := by
  obtain ⟨limit, shares, bounded, working⟩ := balanced
  -- What a step adds in one place it takes from another, or from the count itself; the rest is arithmetic.
  cases deed with
  | aside => exact ⟨limit, shares, bounded, working⟩
  | reserved reserves =>
    obtain ⟨room, rfl⟩ := Station.reserved reserves
    refine ⟨limit, ?_, limit ▸ room, working⟩
    simp only [Station.pending, Station.withSlots, Outbox.size, List.length_cons] at shares ⊢
    omega
  | handedOver held posts =>
    obtain ⟨running, rfl⟩ := Station.posted posts
    have one := List.length_pos_of_mem held
    refine ⟨limit, ?_, bounded, working⟩
    simp only [Station.pending, requestsAppend, requestsAccept, List.length_append, List.length_singleton,
      List.length_erase_of_mem held] at shares ⊢
    omega
  | told other posts =>
    obtain ⟨running, rfl⟩ := Station.posted posts
    refine ⟨limit, ?_, bounded, working⟩
    simpa only [Station.pending, requestsAppend, requestsOther other, List.append_nil] using shares
  | refused held ended =>
    have one := List.length_pos_of_mem held
    refine ⟨limit, ?_, bounded, by simp [ended]⟩
    simp only [List.length_erase_of_mem held, List.length_cons] at shares ⊢
    omega
  | givenBack holds =>
    have one := List.length_pos_of_mem holds
    refine ⟨limit, ?_, Nat.le_trans (Nat.sub_le _ 1) bounded, fun running => ?_⟩
    · simp only [Station.pending, Station.giveBack, Station.withSlots, Slots.release, Outbox.size,
        List.length_erase_of_mem holds] at shares ⊢
      omega
    · simp [(working running).2] at holds
  | @took order rest attends waits =>
    obtain ⟨slots, size⟩ := carryOutSlots office.station.link order
    have split : requestsOf office.station.mailbox = requestsOf [order] ++ requestsOf rest := by
      rw [waits, ← requestsAppend, List.singleton_append]
    refine ⟨slots ▸ limit, ?_, ?_, working⟩
    · simp only [Station.pending, slots, size, split, List.length_append] at shares ⊢
      omega
    · simpa only [Station.pending, slots] using bounded
  | worked attends empties => exact Balanced.works ⟨limit, shares, bounded, working⟩ empties.gives office.leaving
  | left attends =>
    have empties := Link.abortEmpties office.station.link
    exact Balanced.works ⟨limit, shares, bounded, working⟩ empties.gives true
  | @closed why running leaving =>
    obtain ⟨lost, refused⟩ := working running
    refine ⟨limit, ?_, bounded, ?_⟩
    · simp only [Station.pending, lost, refused, requestsOf, List.filterMap_nil, List.length_nil] at shares ⊢
      omega
    · cases why <;> simp [Station.isRunning]

theorem runBalanced {capacity : Nat} {office : Office} (balanced : Balanced capacity office) (history : List Op) :
    Balanced capacity (office.run history).1 :=
  runKeeps Balanced.deed balanced history

theorem refusalsSilent {office : Office} {notes : List Note} (failures : ∀ note ∈ notes, Refusal office note) :
    posted notes = [] ∧ taken notes = [] ∧ accepted notes = [] := by
  refine ⟨?_, ?_, ?_⟩ <;> refine List.filterMap_eq_nil_iff.mpr fun note member => ?_ <;>
    obtain ⟨outbound, fault, rfl, _⟩ := failures note member <;> rfl

structure InOrder (office : Office) (notes : List Note) : Prop where
  queue : posted notes = taken notes ++ (office.station.mailbox ++ office.lost)
  accepts : accepted notes = requestsOf (posted notes)
  received : office.station.link.outbox.Received (requestsOf (taken notes))

theorem openedInOrder (timing : Timing) (capacity writerCapacity : Nat) (port : Port) :
    InOrder (opened timing capacity writerCapacity port) [] :=
  ⟨rfl, rfl, [], rfl, rfl⟩

theorem carriedOut {link : Link} {requests} (received : link.outbox.Received requests) (order : Order) :
    (Station.carryOut link order).outbox.Received (requests ++ requestsOf [order]) := by
  cases order with
  | accept outbound => exact @Outbox.Received.more _ _ _ [outbound] [.accept outbound] received rfl rfl
  | wake node => exact @Outbox.Received.more _ _ _ [] [.wake node] received rfl rfl
  | sleep node => exact @Outbox.Received.more _ _ _ [] [.sleep node] received rfl rfl
  | report => exact @Outbox.Received.more _ _ _ [] [] received rfl rfl

theorem emptied {before after : Link} {requests} (received : before.outbox.Received requests)
    (empties : before.Empties after) : after.outbox.Received requests := by
  obtain ⟨calls, leave, same⟩ := empties
  simpa using @Outbox.Received.more _ _ _ [] calls received (Outbox.exitsAdd leave) (congrArg Outbox.contents same)

theorem InOrder.grows {office after : Office} {notes more} (inOrder : InOrder office notes)
    (accepts : accepted more = requestsOf (posted more))
    (queue : office.station.mailbox ++ office.lost ++ posted more =
      taken more ++ (after.station.mailbox ++ after.lost))
    (received : after.station.link.outbox.Received (requestsOf (taken notes) ++ requestsOf (taken more))) :
    InOrder after (notes ++ more) := by
  have postedBoth : posted (notes ++ more) = posted notes ++ posted more := List.filterMap_append
  have takenBoth : taken (notes ++ more) = taken notes ++ taken more := List.filterMap_append
  have acceptedBoth : accepted (notes ++ more) = accepted notes ++ accepted more := List.filterMap_append
  refine ⟨?_, ?_, ?_⟩
  · rw [postedBoth, takenBoth, inOrder.queue, List.append_assoc, queue, List.append_assoc]
  · rw [acceptedBoth, postedBoth, requestsAppend, inOrder.accepts, accepts]
  · rw [takenBoth, requestsAppend]
    exact received

theorem InOrder.deed {capacity : Nat} {office after : Office} {notes more} (inOrder : InOrder office notes)
    (balanced : Balanced capacity office) (deed : Deed office more after) : InOrder after (notes ++ more) := by
  have received : office.station.link.outbox.Received (requestsOf (taken notes) ++ []) := by
    simpa using inOrder.received
  -- While the station works nothing is lost, so what is posted stands last.
  cases deed with
  | aside failures =>
    obtain ⟨noPosted, noTaken, noAccepted⟩ := refusalsSilent failures
    refine inOrder.grows (by rw [noAccepted, noPosted]; rfl) (by simp [noPosted, noTaken]) ?_
    rw [noTaken]
    exact received
  | reserved reserves =>
    obtain ⟨_, rfl⟩ := Station.reserved reserves
    exact inOrder.grows rfl (List.append_nil _) (received.unchanged rfl)
  | @handedOver outbound _ held posts =>
    obtain ⟨running, rfl⟩ := Station.posted posts
    have open_ := (balanced.working running).1
    refine inOrder.grows rfl ?_ received
    show _ ++ [.accept outbound] = [] ++ (office.station.mailbox ++ [.accept outbound] ++ office.lost)
    simp [open_]
  | @told order _ other posts =>
    obtain ⟨running, rfl⟩ := Station.posted posts
    have open_ := (balanced.working running).1
    refine inOrder.grows (requestsOther other).symm ?_ received
    show _ ++ [order] = [] ++ (office.station.mailbox ++ [order] ++ office.lost)
    simp [open_]
  | refused held ended => exact inOrder.grows rfl (List.append_nil _) received
  | givenBack holds => exact inOrder.grows rfl (List.append_nil _) (received.unchanged rfl)
  | @took order rest attends waits =>
    refine inOrder.grows rfl ?_ (carriedOut inOrder.received order)
    simp [waits, posted, taken, Note.posted?, Note.taken?]
  | worked attends empties => exact inOrder.grows rfl (List.append_nil _) (emptied received empties)
  | left attends => exact inOrder.grows rfl (List.append_nil _) (emptied received (Link.abortEmpties _))
  | closed running leaving =>
    have open_ := (balanced.working running).1
    exact inOrder.grows rfl (by simp [open_, posted, taken]) received

theorem runInOrder {capacity : Nat} {office : Office} {notes : List Note} (inOrder : InOrder office notes)
    (balanced : Balanced capacity office) (history : List Op) :
    InOrder (office.run history).1 (notes ++ (office.run history).2) := by
  induction history generalizing office notes with
  | nil => simpa [run] using inOrder
  | cons op rest ih =>
    have deed := stepDeed office op
    have later := ih (inOrder.deed balanced deed) (balanced.deed deed)
    simpa only [run, List.append_assoc] using later

theorem Deed.failed {office after : Office} {notes outbound fault} (deed : Deed office notes after)
    (failed : .returned outbound (some fault) ∈ notes) (full : fault ≠ .connectionClosed) :
    after.station = office.station := by
  cases deed with
  | aside => rfl
  | givenBack => simp_all
  | reserved | refused | worked | left | closed => simp at failed
  | handedOver | told | took => simp at failed

theorem Deed.slots {capacity : Nat} {office after : Office} {notes} (balanced : Balanced capacity office)
    (deed : Deed office notes after) :
    let (outbox, next) := (office.station.link.outbox, after.station.link.outbox)
    office.station.pending < capacity ∧ after.station.pending = office.station.pending + 1 ∧ next.size = outbox.size ∨
      (∃ outbound, notes = [.returned outbound (some .connectionClosed)] ∧ 1 ≤ office.station.pending ∧
        next.slots = outbox.slots.release 1 ∧ next.size = outbox.size) ∨
      ∃ count ≤ office.station.pending, next.slots = outbox.slots.release count ∧
        count + next.size = outbox.size + (requestsOf (taken notes)).length := by
  obtain ⟨limit, shares, bounded, working⟩ := balanced
  have unmoved {notes : List Note} (nothing : taken notes = []) :
      ∃ count ≤ office.station.pending,
        office.station.link.outbox.slots = office.station.link.outbox.slots.release count ∧
        count + office.station.link.outbox.size = office.station.link.outbox.size + (requestsOf (taken notes)).length :=
    ⟨0, Nat.zero_le _, rfl, by simp [nothing, requestsOf]⟩
  have emptied {link : Link} (gives : office.station.link.outbox.Gives link.outbox) :
      ∃ count ≤ office.station.pending, link.outbox.slots = office.station.link.outbox.slots.release count ∧
        count + link.outbox.size = office.station.link.outbox.size + 0 :=
    ⟨_, by omega, gives.slots, Nat.sub_add_cancel gives.fewer⟩
  cases deed with
  | aside failures => exact .inr (.inr (unmoved (refusalsSilent failures).2.1))
  | refused | closed => exact .inr (.inr (unmoved rfl))
  | reserved reserves =>
    obtain ⟨room, rfl⟩ := Station.reserved reserves
    exact .inl ⟨limit ▸ room, rfl, rfl⟩
  | handedOver held posts | told other posts =>
    obtain ⟨_, rfl⟩ := Station.posted posts
    exact .inr (.inr (unmoved rfl))
  | givenBack holds =>
    have one := List.length_pos_of_mem holds
    exact .inr (.inl ⟨_, rfl, by omega, rfl, rfl⟩)
  | took attends waits =>
    obtain ⟨slots, size⟩ := carryOutSlots office.station.link _
    exact .inr (.inr ⟨0, Nat.zero_le _, slots, (Nat.zero_add _).trans size⟩)
  | worked attends empties => exact .inr (.inr (emptied empties.gives))
  | left attends => exact .inr (.inr (emptied (Link.abortEmpties _).gives))

/-- Whatever calls hand over requests, and however their steps come between those of the station: no slot is lost, and
none is given back twice. A step takes one slot for a call, gives one back for a call that found the mailbox closed, or
gives back just as many as requests leave the outbox. -/
theorem slotsInBalance (timing : Timing) (capacity writerCapacity : Nat) (port : Port) (history : List Op) :
    let (office, notes) := (opened timing capacity writerCapacity port).run history
    let station := office.station
    (station.isRunning = true →
      station.pending =
        station.link.outbox.size + (requestsOf station.mailbox).length + office.holding.length) ∧
    station.pending ≤ capacity ∧
    accepted notes = requestsOf (posted notes) ∧
    (station.isRunning = true → posted notes = taken notes ++ station.mailbox) ∧
    station.link.outbox.Received (requestsOf (taken notes)) ∧
    (∀ outbound, (office.ask outbound).1.station = station) ∧
    ∀ op, let (after, told) := office.step op
      (∀ outbound fault, .returned outbound (some fault) ∈ told → fault ≠ .connectionClosed →
        after.station = station) ∧
      let (outbox, next) := (station.link.outbox, after.station.link.outbox)
      (station.pending < capacity ∧ after.station.pending = station.pending + 1 ∧ next.size = outbox.size ∨
        (∃ outbound, told = [.returned outbound (some .connectionClosed)] ∧ 1 ≤ station.pending ∧
          next.slots = outbox.slots.release 1 ∧ next.size = outbox.size) ∨
        ∃ count ≤ station.pending, next.slots = outbox.slots.release count ∧
          count + next.size = outbox.size + (requestsOf (taken told)).length) := by
  have fresh := openedBalanced timing capacity writerCapacity port
  have balanced := runBalanced fresh history
  have inOrder := runInOrder (openedInOrder timing capacity writerCapacity port) fresh history
  have open_ := balanced.working
  refine ⟨fun running => ?_, balanced.bounded, inOrder.accepts, fun running => ?_, inOrder.received, fun outbound => ?_,
    fun op => ⟨fun outbound fault failed full => (stepDeed _ op).failed failed full, (stepDeed _ op).slots balanced⟩⟩
  · simpa [requestsOf, open_ running] using balanced.shares
  · simpa [open_ running] using inOrder.queue
  · unfold ask
    split <;> rfl

end Office

end ZWaveHost
