import ZWaveHost.Message.Layout

/-!
Requests that wait for their turn. A request for a sleeping node is held until the node is awake; all others are ready in
the order of acceptance. Every waiting request owns one slot, taken before it is handed over and given back when it leaves.
-/
namespace ZWaveHost

structure Slots where
  limit : Nat := 256
  reserved : Nat := 0
  deriving DecidableEq, Repr

namespace Slots

def isFull (slots : Slots) : Bool := slots.limit ≤ slots.reserved

def reserve (slots : Slots) : Except Fault Slots :=
  if slots.isFull then .error (.queueFull slots.reserved)
  else .ok { slots with reserved := slots.reserved + 1 }

/-- Gives slots back; more than were taken count as all of them. -/
def release (slots : Slots) (count : Nat) : Slots := { slots with reserved := slots.reserved - count }

end Slots

structure Outbound where
  message : Message
  listening : Bool := true
  deriving DecidableEq, Repr

def Outbound.waitsFor (outbound : Outbound) : Option NodeId :=
  if outbound.listening then none else outbound.message.target

structure Outbox where
  ready : List Message := []
  held : List (NodeId × Message) := []
  awake : List NodeId := []
  slots : Slots := {}
  deriving DecidableEq, Repr

namespace Outbox

def isAwake (outbox : Outbox) (node : NodeId) : Bool := outbox.awake.contains node

def accept (outbox : Outbox) (outbound : Outbound) : Outbox :=
  match outbound.waitsFor with
  | some node =>
    if outbox.isAwake node then { outbox with ready := outbox.ready ++ [outbound.message] }
    else { outbox with held := outbox.held ++ [(node, outbound.message)] }
  | none => { outbox with ready := outbox.ready ++ [outbound.message] }

def enqueue (outbox : Outbox) (outbound : Outbound) : Except Fault Outbox := do
  outbound.message.validate
  let slots ← outbox.slots.reserve
  return { outbox with slots }.accept outbound

def heldFor (outbox : Outbox) (node : NodeId) : List Message :=
  (outbox.held.filter (·.1 = node)).map (·.2)

def wake (outbox : Outbox) (node : NodeId) : Outbox :=
  { outbox with
    awake := if outbox.isAwake node then outbox.awake else node :: outbox.awake
    ready := outbox.ready ++ outbox.heldFor node
    held := outbox.held.filter (·.1 ≠ node) }

def sleep (outbox : Outbox) (node : NodeId) : Outbox :=
  { outbox with awake := outbox.awake.filter (· ≠ node) }

def next? (outbox : Outbox) : Option (Message × Outbox) :=
  match outbox.ready with
  | [] => none
  | message :: rest => some (message, { outbox with ready := rest, slots := outbox.slots.release 1 })

def size (outbox : Outbox) : Nat := outbox.ready.length + outbox.held.length

def clear (outbox : Outbox) : Outbox :=
  { outbox with ready := [], held := [], slots := outbox.slots.release outbox.size }

theorem nextShrinks {outbox rest : Outbox} {message : Message} (taken : outbox.next? = some (message, rest)) :
    rest.ready.length < outbox.ready.length := by
  unfold next? at taken
  split at taken
  · contradiction
  · rename_i first others ready
    cases Option.some.inj taken
    simp [ready]

inductive Op
  | enqueue (outbound : Outbound)
  | accept (outbound : Outbound)
  | wake (node : NodeId)
  | sleep (node : NodeId)
  | next
  | clear
  deriving DecidableEq, Repr

def step (outbox : Outbox) : Op → Outbox × Option Message
  | .enqueue outbound => ((outbox.enqueue outbound).toOption.getD outbox, none)
  | .accept outbound => (outbox.accept outbound, none)
  | .wake node => (outbox.wake node, none)
  | .sleep node => (outbox.sleep node, none)
  | .next =>
    match outbox.next? with
    | none => (outbox, none)
    | some (message, rest) => (rest, some message)
  | .clear => (outbox.clear, none)

def run (outbox : Outbox) : List Op → Outbox × List (Option Message)
  | [] => (outbox, [])
  | op :: rest =>
    let (after, left) := outbox.step op
    let (last, later) := after.run rest
    (last, left :: later)

end Outbox

end ZWaveHost
