import ZWaveHost.Device.Node
import ZWaveHost.Line
import ZWaveHost.Link

/-!
The station: a link at work between an inbox that the reader fills, a mailbox in which callers leave orders, and the
outgoing line. A turn takes what is most urgent: a request to end, then an item, then the end of reading,
then an order, then a deadline of the link. Outputs are released in order, and while the line has no room for them
nothing more is taken. When the station ends, for whatever reason, the exchange in flight is cancelled before the
loss of the connection is told.
-/
namespace ZWaveHost

inductive Order
  /-- A request whose slot is already taken. -/
  | accept (outbound : Outbound)
  | wake (node : NodeId)
  | sleep (node : NodeId)
  | report
  deriving DecidableEq, Repr

inductive StationEvent
  | link (event : LinkEvent)
  | connectionLost (fault : Fault)
  deriving DecidableEq, Repr

inductive StationState
  | running
  | cancelled
  | lost (fault : Fault)
  deriving DecidableEq, Repr

inductive Signal
  | cancel
  | item (item : Item)
  | endOfReading (why : Fault)
  | order (order : Order)
  | timer
  deriving DecidableEq, Repr

structure Station where
  link : Link
  line : Line
  inbox : List Item := []
  readingEnd : Option Fault := none
  mailbox : List Order := []
  cancelRequested : Bool := false
  unreleased : List Output := []
  state : StationState := .running

structure Turn where
  station : Station
  events : List StationEvent := []
  pieces : List Bytes := []
  effort : Nat := 0

namespace Station

def fresh (timing : Timing) (queueCapacity writerCapacity : Nat) (port : Port) : Station where
  link := Link.fresh timing ⟨queueCapacity, 0⟩
  line := { port, capacity := writerCapacity }

def isRunning (station : Station) : Bool := station.state = .running

def pending (station : Station) : Nat := station.link.outbox.slots.reserved

def withSlots (station : Station) (slots : Slots) : Station := { station with link.outbox.slots := slots }

def reserve (station : Station) : Except Fault Station := do
  return station.withSlots (← station.link.outbox.slots.reserve)

def giveBack (station : Station) : Station := station.withSlots (station.link.outbox.slots.release 1)

def post (station : Station) (order : Order) : Except Fault Station :=
  if station.isRunning then .ok { station with mailbox := station.mailbox ++ [order] }
  else .error .connectionClosed

def call (station : Station) : LinkCall → Except Fault Station
  | .send message listening => do
    message.validate
    (← station.reserve).post (.accept ⟨message, listening⟩)
  | .wake node => station.post (.wake node)
  | .sleep node => station.post (.sleep node)

def inboxLimit : Nat := 64

def deliver? (station : Station) (item : Item) : Option Station :=
  if station.isRunning ∧ station.readingEnd = none ∧ station.inbox.length < inboxLimit then
    some { station with inbox := station.inbox ++ [item] }
  else none

def deliverAll (station : Station) : List Item → Station × List Item
  | [] => (station, [])
  | item :: rest =>
    match station.deliver? item with
    | some after => after.deliverAll rest
    | none => (station, item :: rest)

def endReading (station : Station) (why : Fault) : Station :=
  { station with readingEnd := station.readingEnd.or (some why) }

def cancel (station : Station) : Station := { station with cancelRequested := true }

def linkEvents (outputs : List Output) : List StationEvent :=
  outputs.filterMap fun | .event event => some (.link event) | .write _ => none

/-- Ends the station: events that are still to be published come first. Items and orders that were not taken are
lost, the orders together with their slots. -/
def stop (station : Station) (unpublished : List Output) (why : Option Fault) : Turn :=
  let (link, cancelled) := station.link.abort
  { station := { station with link, inbox := [], mailbox := [], state := why.elim .cancelled .lost }
    events := linkEvents (unpublished ++ cancelled) ++ why.toList.map .connectionLost }

def release (station : Station) (effort : Nat) : List Output → Turn
  | [] => { station, effort }
  | .event event :: rest =>
    let later := station.release effort rest
    { later with events := .link event :: later.events }
  | .write bytes :: rest =>
    if effort = 0 then { station := { station with unreleased := .write bytes :: rest } }
    else if !station.line.isRunning then { station.stop rest (some .connectionClosed) with effort }
    else if station.line.hasRoom then { station with line := station.line.push bytes }.release (effort - 1) rest
    else { station := { station with unreleased := .write bytes :: rest }, effort }

def work (station : Station) (now : Time) (effort : Nat) (changed : Link × List Output) : Turn :=
  let (link, outputs) := changed.1.transmit now
  { station with link }.release effort (changed.2 ++ outputs)

def carryOut (link : Link) : Order → Link
  | .accept outbound => link.accept outbound
  | .wake node => link.wake node
  | .sleep node => link.sleep node
  | .report => link

def next? (station : Station) (now : Time) : Option (Signal × Station) :=
  if station.cancelRequested then some (.cancel, station)
  else match station.inbox, station.readingEnd, station.mailbox with
    | item :: rest, _, _ => some (.item item, { station with inbox := rest })
    | [], some why, _ => some (.endOfReading why, station)
    | [], none, order :: rest => some (.order order, { station with mailbox := rest })
    | [], none, [] =>
      if station.link.deadline.any (· ≤ now) then some (.timer, station) else none

def react (station : Station) (now : Time) (effort : Nat) : Signal → Turn
  | .cancel => { station.stop [] none with effort }
  | .item item => station.work now effort (station.link.inbound item now)
  | .endOfReading why => { station.stop [] (some why) with effort }
  | .order order => station.work now effort (carryOut station.link order, [])
  | .timer => station.work now effort (station.link.expire now)

/-- One turn with a limited effort: each thing taken and each chunk handed over costs one. -/
def turn (station : Station) (now : Time) (effort : Nat) : Turn :=
  if !station.isRunning ∨ effort = 0 then { station, effort }
  else if station.unreleased ≠ [] then { station with unreleased := [] }.release effort station.unreleased
  else match station.next? now with
    | none => { station, effort }
    | some (signal, without) => without.react now (effort - 1) signal

def write (station : Station) : Turn :=
  let (line, pieces) := if station.isRunning then station.line.drain else station.line.finish
  { station := { station with line }, pieces }

def deadline (station : Station) : Option Time := if station.isRunning then station.link.deadline else none

inductive Op
  | reserve
  | giveBack
  | post (order : Order)
  | deliver (item : Item)
  | endReading (why : Fault)
  | cancel
  | turn (now : Time) (effort : Nat)
  | write
  deriving DecidableEq, Repr

def step (station : Station) : Op → Turn
  | .reserve => { station := station.reserve.toOption.getD station }
  | .giveBack => { station := station.giveBack }
  | .post order => { station := (station.post order).toOption.getD station }
  | .deliver item => { station := (station.deliver? item).getD station }
  | .endReading why => { station := station.endReading why }
  | .cancel => { station := station.cancel }
  | .turn now effort => station.turn now effort
  | .write => station.write

def run (station : Station) : List Op → Turn
  | [] => { station }
  | op :: rest =>
    let first := station.step op
    let later := first.station.run rest
    { later with events := first.events ++ later.events, pieces := first.pieces ++ later.pieces }

end Station

end ZWaveHost
