import ZWaveHost.Link.Exchange
import ZWaveHost.Link.Handshake
import ZWaveHost.Link.Outbox
import ZWaveHost.Message.Layout
import ZWaveHost.Wire.Decoder

/-!
The link: handshake, outbox and the one exchange in flight. Nothing is written while an acknowledgement is
outstanding, and the outbox releases the next request only when the exchange before it has ended. Each operation
takes the instant it happens at and answers with what it writes and publishes, in order; clocks and ports are
not known here.
-/
namespace ZWaveHost

structure Context where
  id : Nat
  node : Option NodeId
  function : UInt8
  deriving DecidableEq, Repr

inductive LinkEvent
  | started (id : Nat) (node : Option NodeId)
  | completed (id : Nat) (node : Option NodeId) (request : Message)
  | failed (id : Nat) (node : Option NodeId) (request : Message) (why : Failure)
  | received (message : Message) (context : Option Context)
  deriving DecidableEq, Repr

inductive Output
  | write (bytes : Bytes)
  | event (event : LinkEvent)
  deriving DecidableEq, Repr

structure Link where
  timing : Timing := {}
  handshake : Handshake := {}
  outbox : Outbox := {}
  active : Option Exchange := none
  nextId : Nat := 1
  nextCallbackId : UInt8 := 1
  deriving DecidableEq, Repr

namespace Link

def fresh (timing : Timing) (slots : Slots) : Link := { timing, outbox.slots := slots }

def followingCallbackId (id : UInt8) : UInt8 := if id = 255 then 1 else id + 1

def ending (exchange : Exchange) : LinkEvent :=
  match exchange.failure with
  | none => .completed exchange.id exchange.node exchange.request
  | some why => .failed exchange.id exchange.node exchange.request why

def conclude (link : Link) : Link × List Output :=
  match link.active with
  | some exchange =>
    if exchange.isTerminal then ({ link with active := none }, [.event (ending exchange)]) else (link, [])
  | none => (link, [])

def onControl (link : Link) (byte : Control) (now : Time) : Link × List Output :=
  let (handshake, outcome) := link.handshake.control byte
  let active := match outcome with
    | .delivered => link.active.map (Exchange.onAck · link.timing now)
    | .failed _ => link.active.map (Exchange.onUndelivered · link.timing now)
    | .unexpected => link.active
  { link with handshake, active }.conclude

/-- The link after a message that is the expected reply of the exchange. A reply that overtakes the
acknowledgement proves delivery. -/
def onReply (link : Link) (exchange : Exchange) (message : Message) (now : Time) : Link :=
  let overtakes := exchange.phase = .sent
  { link with
    handshake := if overtakes then link.handshake.settle else link.handshake
    active := some (exchange.onReply message link.timing now) }

def contextOf (exchange : Exchange) : Context := ⟨exchange.id, exchange.node, exchange.request.function⟩

def addressee (link : Link) (message : Message) : Option Exchange :=
  link.active.filter (Exchange.isNextReply · message)

def onMessage (link : Link) (message : Message) (now : Time) : Link × List Output :=
  let expecting := link.addressee message
  let answered := expecting.elim link (link.onReply · message now)
  let (after, ended) := answered.conclude
  (after, .event (.received message (expecting.map contextOf)) :: ended)

def inbound (link : Link) (item : Item) (now : Time) : Link × List Output :=
  match item with
  | .ack => link.onControl .ack now
  | .nak => link.onControl .nak now
  | .can => link.onControl .can now
  | .frame frame =>
    let (after, outputs) :=
      { link with handshake := link.handshake.countReceived }.onMessage (.ofFrame frame .controller) now
    (after, .write [Wire.ack] :: outputs)
  | .rejected _ => ({ link with handshake := link.handshake.countInvalid }, [.write [Wire.nak]])

def expire (link : Link) (now : Time) : Link × List Output :=
  let (handshake, late) := link.handshake.expire now
  let active := if late.isSome then link.active.map (Exchange.onUndelivered · link.timing now) else link.active
  { link with handshake, active := active.map (Exchange.expire · now) }.conclude

def write? (link : Link) (exchange : Exchange) (now : Time) : Option (Link × List Output) :=
  match exchange.request.encode with
  | .error _ => none
  | .ok bytes =>
    let handshake := if exchange.retries = 0 then link.handshake else link.handshake.countRetransmission
    some ({ link with
        handshake := handshake.sent link.timing.ackTimeout now
        active := some exchange.onSent }, [.write bytes])

def begin? (link : Link) : Option (Link × Exchange) :=
  match link.outbox.next? with
  | none => none
  | some (message, outbox) =>
    let stamped := message.callbackId.isSome
    let request := if stamped then message.withCallbackId link.nextCallbackId else message
    some ({ link with
        outbox
        nextId := link.nextId + 1
        nextCallbackId := if stamped then followingCallbackId link.nextCallbackId else link.nextCallbackId },
      { id := link.nextId, request })

theorem beginShrinks {link after : Link} {exchange : Exchange} (begun : link.begin? = some (after, exchange)) :
    after.outbox.ready.length < link.outbox.ready.length := by
  unfold begin? at begun
  split at begun
  · contradiction
  · rename_i message outbox taken
    cases Option.some.inj begun
    exact Outbox.nextShrinks taken

def startNext (link : Link) (now : Time) : Link × List Output :=
  match _begun : link.begin? with
  | none => (link, [])
  | some (after, exchange) =>
    let started := Output.event (.started exchange.id exchange.node)
    match after.write? exchange now with
    | some (sent, outputs) => (sent, started :: outputs)
    | none =>
      let (last, later) := startNext { after with active := none } now
      (last, started :: .event (ending (exchange.stop .rejected)) :: later)
termination_by link.outbox.ready.length
decreasing_by exact beginShrinks _begun

def transmit (link : Link) (now : Time) : Link × List Output :=
  if link.handshake.isAwaiting then (link, [])
  else match link.active with
    | none => link.startNext now
    | some exchange =>
      if exchange.isDue now then
        match link.write? exchange now with
        | some sent => sent
        | none =>
          let (last, later) := startNext { link with active := none } now
          (last, .event (ending (exchange.stop .rejected)) :: later)
      else (link, [])

/-- The earliest instant at which `expire` or `transmit` has something to do. -/
def deadline (link : Link) : Option Time :=
  match link.handshake.deadline, link.active.bind Exchange.deadline with
  | some a, some b => some (min a b)
  | some a, none => some a
  | none, b => b

def abort (link : Link) : Link × List Output :=
  let (after, outputs) :=
    { link with
      handshake := link.handshake.settle
      active := link.active.map (Exchange.stop · .cancelled) }.conclude
  ({ after with outbox := after.outbox.clear }, outputs)

def enqueue (link : Link) (outbound : Outbound) : Except Fault Link := do
  return { link with outbox := ← link.outbox.enqueue outbound }

def accept (link : Link) (outbound : Outbound) : Link := { link with outbox := link.outbox.accept outbound }

def wake (link : Link) (node : NodeId) : Link := { link with outbox := link.outbox.wake node }

def sleep (link : Link) (node : NodeId) : Link := { link with outbox := link.outbox.sleep node }

inductive Op
  | enqueue (outbound : Outbound)
  | accept (outbound : Outbound)
  | wake (node : NodeId)
  | sleep (node : NodeId)
  | inbound (item : Item)
  | expire
  | transmit
  | abort
  deriving DecidableEq, Repr

def step (link : Link) (now : Time) : Op → Link × List Output
  | .enqueue outbound => ((link.enqueue outbound).toOption.getD link, [])
  | .accept outbound => (link.accept outbound, [])
  | .wake node => (link.wake node, [])
  | .sleep node => (link.sleep node, [])
  | .inbound item => link.inbound item now
  | .expire => link.expire now
  | .transmit => link.transmit now
  | .abort => link.abort

def run (link : Link) : List (Time × Op) → Link × List (List Output)
  | [] => (link, [])
  | (now, op) :: rest =>
    let (after, outputs) := link.step now op
    let (last, later) := after.run rest
    (last, outputs :: later)

def nextRound (link : Link) : Option (Time × Link × List Output) :=
  link.deadline.map fun now =>
    let (expired, before) := link.expire now
    let (after, outputs) := expired.transmit now
    (now, after, before ++ outputs)

end Link

end ZWaveHost
