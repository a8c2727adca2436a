import ZWaveHost.Station

/-! A station among its callers, step by step. A call that hands over a request is checked, takes a slot, is posted, and
gives the slot back if the mailbox is closed; between these steps other calls and the station go on. The station
takes orders, hears items, lets deadlines take effect and writes what is due, and when it ends it clears its link
before the mailbox is closed. -/
namespace ZWaveHost

def Order.request? : Order → Option Outbound
  | accept outbound => some outbound
  | _ => none

def requestsOf (orders : List Order) : List Outbound := orders.filterMap Order.request?

namespace Station

theorem reserved {station taken : Station} (reserves : station.reserve = .ok taken) :
    station.pending < station.link.outbox.slots.limit ∧
      taken = station.withSlots { station.link.outbox.slots with reserved := station.pending + 1 } := by
  unfold reserve Slots.reserve at reserves
  split at reserves
  · contradiction
  · rename_i room
    cases reserves
    exact ⟨by simpa [Slots.isFull, pending] using room, rfl⟩

theorem unreserved {station : Station} {fault} (full : station.reserve = .error fault) :
    station.link.outbox.slots.limit ≤ station.pending ∧ fault = .queueFull station.pending := by
  unfold reserve Slots.reserve at full
  split at full
  · rename_i none
    cases full
    exact ⟨by simpa [Slots.isFull, pending] using none, rfl⟩
  · contradiction

theorem givenBack {station taken : Station} (reserves : station.reserve = .ok taken) : taken.giveBack = station := by
  rw [(reserved reserves).2]
  rfl

theorem posted {station after : Station} {order} (posts : station.post order = .ok after) :
    station.isRunning ∧ after = { station with mailbox := station.mailbox ++ [order] } := by
  unfold post at posts
  split at posts
  · rename_i running
    cases posts
    exact ⟨running, rfl⟩
  · contradiction

theorem unposted {station : Station} {order fault} (refused : station.post order = .error fault) :
    station.isRunning = false ∧ fault = .connectionClosed := by
  unfold post at refused
  split at refused
  · contradiction
  · rename_i ended
    cases refused
    exact ⟨by simpa using ended, rfl⟩

inductive Next (station : Station) (now : Time) : Signal → Station → Prop
  | cancel (asked : station.cancelRequested = true) : Next station now .cancel station
  | item {item rest} (unasked : station.cancelRequested = false) (waits : station.inbox = item :: rest) :
      Next station now (.item item) { station with inbox := rest }
  | endOfReading {why} (unasked : station.cancelRequested = false) (heard : station.inbox = [])
      (ended : station.readingEnd = some why) : Next station now (.endOfReading why) station
  | order {order rest} (unasked : station.cancelRequested = false) (heard : station.inbox = [])
      (reading : station.readingEnd = none) (waits : station.mailbox = order :: rest) :
      Next station now (.order order) { station with mailbox := rest }
  | timer (unasked : station.cancelRequested = false) (heard : station.inbox = [])
      (reading : station.readingEnd = none) (due : station.link.deadline.any (· ≤ now) = true) :
      Next station now .timer station

theorem next {station without : Station} {now signal} (taken : station.next? now = some (signal, without)) :
    Next station now signal without := by
  unfold next? at taken
  split at taken
  · rename_i asked
    cases taken
    exact .cancel asked
  · rename_i unasked
    have unasked : station.cancelRequested = false := by simpa using unasked
    split at taken
    · rename_i waits
      cases taken
      exact .item unasked waits
    · rename_i heard ended
      cases taken
      exact .endOfReading unasked heard ended
    · rename_i heard reading waits
      cases taken
      exact .order unasked heard reading waits
    · rename_i heard reading _
      split at taken
      · rename_i due
        cases taken
        exact .timer unasked heard reading due
      · contradiction

end Station

structure Office where
  station : Station
  /- Calls whose request was checked and that have no slot yet. -/
  asked : List Outbound := []
  /- Calls with a slot that have not posted their request yet. -/
  holding : List Outbound := []
  /- Calls that found the mailbox closed and have not given their slot back yet. -/
  refused : List Outbound := []
  /- Whether the station has cleared its link for good. -/
  leaving : Bool := false
  lost : List Order := []

namespace Office

def opened (timing : Timing) (queueCapacity writerCapacity : Nat) (port : Port) : Office where
  station := Station.fresh timing queueCapacity writerCapacity port

inductive Note
  | returned (outbound : Outbound) (fault : Option Fault)
  | posted (order : Order)
  | taken (order : Order)
  deriving DecidableEq, Repr

def Note.posted? : Note → Option Order
  | posted order => some order
  | _ => none

def Note.taken? : Note → Option Order
  | taken order => some order
  | _ => none

inductive Op
  | ask (outbound : Outbound)
  | reserve (outbound : Outbound)
  | post (outbound : Outbound)
  | giveBack (outbound : Outbound)
  | wake (node : NodeId)
  | sleep (node : NodeId)
  | report
  | take
  | inbound (item : Item) (now : Time)
  | expire (now : Time)
  | transmit (now : Time)
  | abort
  | close (why : Option Fault)
  deriving DecidableEq, Repr

def ask (office : Office) (outbound : Outbound) : Office × List Note :=
  match outbound.message.validate with
  | .error fault => (office, [.returned outbound (some fault)])
  | .ok _ => ({ office with asked := outbound :: office.asked }, [])

def reserve (office : Office) (outbound : Outbound) : Office × List Note :=
  if outbound ∈ office.asked then
    let others := office.asked.erase outbound
    match office.station.reserve with
    | .error fault => ({ office with asked := others }, [.returned outbound (some fault)])
    | .ok station => ({ office with station, asked := others, holding := outbound :: office.holding }, [])
  else (office, [])

def post (office : Office) (outbound : Outbound) : Office × List Note :=
  if outbound ∈ office.holding then
    let others := office.holding.erase outbound
    match office.station.post (.accept outbound) with
    | .error _ => ({ office with holding := others, refused := outbound :: office.refused }, [])
    | .ok station =>
      ({ office with station, holding := others }, [.posted (.accept outbound), .returned outbound none])
  else (office, [])

def giveBack (office : Office) (outbound : Outbound) : Office × List Note :=
  if outbound ∈ office.refused then
    ({ office with station := office.station.giveBack, refused := office.refused.erase outbound },
      [.returned outbound (some .connectionClosed)])
  else (office, [])

def tell (office : Office) (order : Order) : Office × List Note :=
  match office.station.post order with
  | .error _ => (office, [])
  | .ok station => ({ office with station }, [.posted order])

def attends (office : Office) : Bool := office.station.isRunning && !office.leaving

def take (office : Office) : Office × List Note :=
  match office.attends, office.station.mailbox with
  | true, order :: rest =>
    ({ office with
        station := { office.station with link := Station.carryOut office.station.link order, mailbox := rest } },
      [.taken order])
  | _, _ => (office, [])

def work (office : Office) (now : Time) (op : Link.Op) : Office × List Note :=
  if office.attends then ({ office with station.link := (office.station.link.step now op).1 }, []) else (office, [])

def abort (office : Office) : Office × List Note :=
  if office.attends then ({ office with station.link := office.station.link.abort.1, leaving := true }, [])
  else (office, [])

def close (office : Office) (why : Option Fault) : Office × List Note :=
  if office.station.isRunning ∧ office.leaving then
    ({ office with
        station := { office.station with inbox := [], mailbox := [], state := why.elim .cancelled .lost }
        lost := office.station.mailbox }, [])
  else (office, [])

def step (office : Office) : Op → Office × List Note
  | .ask outbound => office.ask outbound
  | .reserve outbound => office.reserve outbound
  | .post outbound => office.post outbound
  | .giveBack outbound => office.giveBack outbound
  | .wake node => office.tell (.wake node)
  | .sleep node => office.tell (.sleep node)
  | .report => office.tell .report
  | .take => office.take
  | .inbound item now => office.work now (.inbound item)
  | .expire now => office.work now .expire
  | .transmit now => office.work now .transmit
  | .abort => office.abort
  | .close why => office.close why

def run (office : Office) : List Op → Office × List Note
  | [] => (office, [])
  | op :: rest =>
    let (after, notes) := office.step op
    let (last, later) := after.run rest
    (last, notes ++ later)

theorem runAppend (office : Office) (history later : List Op) :
    office.run (history ++ later) =
      (((office.run history).1.run later).1, (office.run history).2 ++ ((office.run history).1.run later).2) := by
  induction history generalizing office with
  | nil => rfl
  | cons op rest ih => simp only [List.cons_append, run, ih, List.append_assoc]

end Office

end ZWaveHost
