import ZWaveHost.Wire

/-!
From a byte stream, cut at any places, to frames, control bytes and rejected frames. Between two deliveries the
decoder keeps at most one unfinished frame. A frame that fails its checksum gives up only its start byte when a
sound frame can be read from the bytes behind it, and is dropped whole otherwise.
-/
namespace ZWaveHost

inductive Reject
  | checksum (expected actual : UInt8)
  | length (value : UInt8)
  | kind (value : UInt8)
  | incomplete
  deriving DecidableEq, Repr

inductive Item
  | ack
  | nak
  | can
  | frame (frame : Frame)
  | rejected (why : Reject)
  deriving DecidableEq, Repr

namespace Item

def isFrame : Item → Bool
  | frame _ => true
  | _ => false

def ofControl? (byte : UInt8) : Option Item :=
  if byte = Wire.ack then some ack
  else if byte = Wire.nak then some nak
  else if byte = Wire.can then some can
  else none

end Item

structure Partial where
  since : Time
  bytes : Bytes
  deriving DecidableEq, Repr

structure Decoder where
  pending : Option Partial := none
  discarded : Nat := 0
  deriving DecidableEq, Repr

namespace Decoder

structure Verdict where
  item : Item
  rest : Bytes
  dropped : Nat
  deriving DecidableEq, Repr

def judge (resume : Bytes → Bool) (behind : Bytes) (size : Nat) : Verdict :=
  let expected := Wire.checksum (behind.take size)
  let actual := behind.getD size 0
  if expected = actual then
    let kind := behind.getD 1 0
    match FrameKind.ofByte? kind with
    | some found => ⟨.frame ⟨found, behind.getD 2 0, (behind.take size).drop 3⟩, behind.drop (size + 1), 0⟩
    | none => ⟨.rejected (.kind kind), behind.drop (size + 1), 0⟩
  else if resume behind then ⟨.rejected (.checksum expected actual), behind, 1⟩
  else ⟨.rejected (.checksum expected actual), behind.drop (size + 1), 0⟩

/-- Looks at the bytes behind a start byte; `none` asks for more of them. A length byte that is too small
stays in the stream, since it may be a start byte itself. -/
def verdict (resume : Bytes → Bool) (behind : Bytes) : Option Verdict :=
  match behind with
  | [] => none
  | length :: _ =>
    if length.toNat < Wire.overhead then some ⟨.rejected (.length length), behind, 1⟩
    else if behind.length < length.toNat + 1 then none
    else some (judge resume behind length.toNat)

theorem judgeShrinks (resume : Bytes → Bool) (behind : Bytes) (size : Nat) :
    (judge resume behind size).rest.length ≤ behind.length := by
  unfold judge
  dsimp only
  split
  · split <;> simp
  · split <;> simp

theorem verdictShrinks {resume : Bytes → Bool} {behind : Bytes} {v : Verdict}
    (found : verdict resume behind = some v) : v.rest.length ≤ behind.length := by
  unfold verdict at found
  split at found
  · contradiction
  · split at found
    · cases Option.some.inj found
      exact Nat.le_refl _
    · split at found
      · contradiction
      · cases Option.some.inj found
        exact judgeShrinks _ _ _

structure Scan where
  items : List Item := []
  discarded : Nat := 0
  pending : Option Partial := none
  deriving DecidableEq, Repr

def scan (resume : Bytes → Bool) (now : Time) : Bytes → Scan
  | [] => {}
  | byte :: rest =>
    match Item.ofControl? byte with
    | some item =>
      let later := scan resume now rest
      { later with items := item :: later.items }
    | none =>
      if byte = Wire.sof then
        match _found : verdict resume rest with
        | none => { pending := some ⟨now, rest⟩ }
        | some v =>
          let later := scan resume now v.rest
          { later with items := v.item :: later.items, discarded := later.discarded + v.dropped }
      else
        let later := scan resume now rest
        { later with discarded := later.discarded + 1 }
termination_by bytes => bytes.length
decreasing_by
  · simp
  · have := verdictShrinks _found
    simp only [List.length_cons]
    omega
  · simp

/-- Whether a sound frame can be read from the bytes behind a start byte, dropping every bad frame whole. -/
def frameBehind (behind : Bytes) : Bool :=
  (scan (fun _ => false) 0 behind).items.any Item.isFrame

def settle (before : Nat) (found : Scan) : Decoder × List Item :=
  (⟨found.pending, before + found.discarded⟩, found.items)

def push (decoder : Decoder) (bytes : Bytes) (now : Time) : Decoder × List Item :=
  match decoder.pending with
  | none => settle decoder.discarded (scan frameBehind now bytes)
  | some started =>
    let behind := started.bytes ++ bytes
    match verdict frameBehind behind with
    | none => ({ decoder with pending := some ⟨started.since, behind⟩ }, [])
    | some v =>
      let later := scan frameBehind now v.rest
      settle decoder.discarded
        { later with items := v.item :: later.items, discarded := later.discarded + v.dropped }

def abandon (decoder : Decoder) (now : Time) : Decoder × List Item :=
  match decoder.pending with
  | none => (decoder, [])
  | some started =>
    let later := scan frameBehind now started.bytes
    settle decoder.discarded
      { later with items := .rejected .incomplete :: later.items, discarded := later.discarded + 1 }

def clear (decoder : Decoder) : Decoder := { decoder with pending := none }

def size (decoder : Decoder) : Nat := (decoder.pending.elim [] (·.bytes)).length

def partialSince (decoder : Decoder) : Option Time := decoder.pending.map (·.since)

inductive Op
  | push (bytes : Bytes)
  | abandon
  | clear
  deriving DecidableEq, Repr

def step (decoder : Decoder) (now : Time) : Op → Decoder × List Item
  | .push bytes => decoder.push bytes now
  | .abandon => decoder.abandon now
  | .clear => (decoder.clear, [])

def run (decoder : Decoder) : List (Time × Op) → Decoder × List (List Item)
  | [] => (decoder, [])
  | (now, op) :: rest =>
    let (next, items) := decoder.step now op
    let (last, later) := next.run rest
    (last, items :: later)

end Decoder

end ZWaveHost
