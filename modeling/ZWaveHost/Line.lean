import ZWaveHost.Fault
import ZWaveHost.Wire

/-!
The outgoing line: chunks wait for a serial port that takes as much of them at a time as it likes. Batches are
offered until the port has taken all of them; the first failure ends the line, and what waits is lost.
-/
namespace ZWaveHost

/-- How a serial port answers. Each call is told by its number, so that the answers may change. -/
structure Port where
  write : Nat → List Bytes → Except Fault Nat
  flush : Nat → Except Fault Unit

namespace Port

def sound : Port := ⟨fun _ slices => .ok slices.flatten.length, fun _ => .ok ()⟩

def failing (fault : Fault) : Port := ⟨fun _ _ => .error fault, fun _ => .ok ()⟩

def stuck : Port := ⟨fun _ _ => .ok 0, fun _ => .ok ()⟩

def unflushable (fault : Fault) : Port := ⟨sound.write, fun _ => .error fault⟩

end Port

inductive LineState
  | running
  | failed (fault : Fault)
  | finished
  deriving DecidableEq, Repr

structure Line where
  port : Port
  capacity : Nat
  waiting : List Bytes := []
  calls : Nat := 0
  state : LineState := .running

namespace Line

def batchLimit : Nat := 16

/-- What is left of some chunks of a batch when so many bytes of it are written; the chunks before these are together as
long as the offset. -/
def remaining (written offset : Nat) : List Bytes → List Bytes
  | [] => []
  | chunk :: rest =>
    let stop := offset + chunk.length
    if written < stop then chunk.drop (written - offset) :: remaining written stop rest
    else remaining written stop rest

def nothingTaken : Fault := .io .writeZero "write_vectored returned 0"

structure Transfer where
  pieces : List Bytes
  calls : Nat
  outcome : Except Fault Unit

def transfer (port : Port) (batch : List Bytes) (calls written : Nat) : Transfer :=
  if _left : written < batch.flatten.length then
    let offered := remaining written 0 batch
    match port.write calls offered with
    | .error fault => ⟨[], calls + 1, .error fault⟩
    | .ok 0 => ⟨[], calls + 1, .error nothingTaken⟩
    | .ok (n + 1) =>
      let later := transfer port batch (calls + 1) (written + (n + 1))
      { later with pieces := offered.flatten.take (n + 1) :: later.pieces }
  else ⟨[], calls + 1, port.flush calls⟩
termination_by batch.flatten.length - written
decreasing_by omega

def isRunning (line : Line) : Bool := line.state = .running

def writeBatch (line : Line) (size : Nat) : Line × List Bytes :=
  let done := transfer line.port (line.waiting.take size) line.calls 0
  match done.outcome with
  | .ok _ => ({ line with waiting := line.waiting.drop size, calls := done.calls }, done.pieces)
  | .error fault => ({ line with waiting := [], calls := done.calls, state := .failed fault }, done.pieces)

theorem writeBatchShrinks {line : Line} (some : line.waiting ≠ []) :
    (line.writeBatch batchLimit).1.waiting.length < line.waiting.length := by
  have positive := List.length_pos_iff.mpr some
  unfold writeBatch
  dsimp only
  split
  · simp only [List.length_drop, batchLimit]
    omega
  · exact positive

def drain (line : Line) : Line × List Bytes :=
  if _some : line.waiting = [] then (line, [])
  else
    let (after, pieces) := drain (line.writeBatch batchLimit).1
    (after, (line.writeBatch batchLimit).2 ++ pieces)
termination_by line.waiting.length
decreasing_by exact writeBatchShrinks _some

/-- An empty line takes a chunk whatever its capacity. -/
def hasRoom (line : Line) : Bool := line.waiting.isEmpty || line.waiting.length < line.capacity

def push (line : Line) (chunk : Bytes) : Line := { line with waiting := line.waiting ++ [chunk] }

def finish (line : Line) : Line × List Bytes :=
  let (after, pieces) := line.drain
  (if after.isRunning then { after with state := .finished } else after, pieces)

end Line

end ZWaveHost
