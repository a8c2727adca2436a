import ZWaveHost.Wire.Decoder

/-! What can stand behind a start byte: too little to tell, a length byte that counts too little, or a block, as many
bytes as the length byte counts. A block need not be a frame; what the decoder makes of it is said here once. -/
namespace ZWaveHost

/- The bytes that a length byte counts, whatever they hold. The last of them stands where a checksum belongs. -/
structure Block where
  kind : UInt8
  function : UInt8
  payload : Bytes
  sum : UInt8
  fits : payload.length ≤ Wire.maxPayload

namespace Block
open Decoder

def length (block : Block) : UInt8 := UInt8.ofNat (block.payload.length + Wire.overhead)

def covered (block : Block) : Bytes := block.length :: block.kind :: block.function :: block.payload

def behind (block : Block) : Bytes := block.covered ++ [block.sum]

def bytes (block : Block) : Bytes := Wire.sof :: block.behind

def expected (block : Block) : UInt8 := Wire.checksum block.covered

def item (block : Block) : Item :=
  if block.expected = block.sum then
    match FrameKind.ofByte? block.kind with
    | some kind => .frame ⟨kind, block.function, block.payload⟩
    | none => .rejected (.kind block.kind)
  else .rejected (.checksum block.expected block.sum)

theorem counted (block : Block) : block.length.toNat = block.payload.length + Wire.overhead := by
  have fits := block.fits
  simp only [Wire.maxPayload, Wire.overhead] at fits
  simp only [length, Wire.overhead, UInt8.toNat_ofNat']
  omega

theorem coveredLength (block : Block) : block.covered.length = block.length.toNat := by
  simp [covered, counted, Wire.overhead]

theorem behindLength (block : Block) : block.behind.length = block.length.toNat + 1 := by
  simp [behind, coveredLength]

theorem shorter (block : Block) (rest : Bytes) : rest.length < (block.bytes ++ rest).length := by
  rw [List.length_append]
  exact Nat.lt_add_of_pos_left (Nat.succ_pos _)

theorem judgeBlock (block : Block) (resume : Bytes → Bool) (rest : Bytes) :
    judge resume (block.behind ++ rest) block.length.toNat =
      if block.expected ≠ block.sum ∧ resume (block.behind ++ rest) then ⟨block.item, block.behind ++ rest, 1⟩
      else ⟨block.item, rest, 0⟩ := by
  have taken : (block.behind ++ rest).take block.length.toNat = block.covered := by
    rw [behind, List.append_assoc, ← coveredLength, List.take_left]
  have dropped : (block.behind ++ rest).drop (block.length.toNat + 1) = rest := by
    rw [← behindLength, List.drop_left]
  have sum : (block.behind ++ rest).getD block.length.toNat 0 = block.sum := by
    simp [behind, ← coveredLength]
  have kind : (block.behind ++ rest).getD 1 0 = block.kind := rfl
  have function : (block.behind ++ rest).getD 2 0 = block.function := rfl
  have payload : block.covered.drop 3 = block.payload := rfl
  simp only [judge, taken, dropped, sum, kind, function, payload]
  by_cases same : block.expected = block.sum
  · have same_ : Wire.checksum block.covered = block.sum := same
    cases found : FrameKind.ofByte? block.kind <;> simp [item, same, same_, found]
  · have same_ : ¬ Wire.checksum block.covered = block.sum := same
    cases resumes : resume (block.behind ++ rest) <;> simp [item, same_, expected]

theorem verdictBlock (block : Block) (resume : Bytes → Bool) (rest : Bytes) :
    verdict resume (block.behind ++ rest) =
      some (if block.expected ≠ block.sum ∧ resume (block.behind ++ rest) then ⟨block.item, block.behind ++ rest, 1⟩
        else ⟨block.item, rest, 0⟩) := by
  have start : ∃ tail, block.behind ++ rest = block.length :: tail := ⟨_, rfl⟩
  obtain ⟨tail, start⟩ := start
  have roomy : ¬ block.length.toNat < Wire.overhead := by simp [counted]
  have enough : ¬ (block.behind ++ rest).length < block.length.toNat + 1 := by
    rw [List.length_append, behindLength]
    omega
  rw [← judgeBlock]
  rw [start] at enough ⊢
  simp only [verdict]
  rw [if_neg roomy, if_neg enough]

theorem verdictShort (block : Block) (resume : Bytes → Bool) {bytes more : Bytes} (cut : bytes ++ more = block.behind)
    (short : more ≠ []) : verdict resume bytes = none := by
  cases bytes with
  | nil => rfl
  | cons first rest =>
    have same : first = block.length := (List.cons.inj cut).1
    have lengths := congrArg List.length cut
    have more_ := List.length_pos_iff.mpr short
    simp only [List.length_append, behindLength] at lengths
    subst same
    simp only [verdict]
    rw [if_neg (by simp [counted]), if_pos (by omega)]

end Block

namespace Decoder

theorem verdictSmall {length : UInt8} (small : length.toNat < Wire.overhead) (resume : Bytes → Bool) (rest : Bytes) :
    verdict resume (length :: rest) = some ⟨.rejected (.length length), length :: rest, 1⟩ := by
  simp only [verdict]
  rw [if_pos small]

theorem blockCut {length : UInt8} {rest : Bytes} (roomy : Wire.overhead ≤ length.toNat)
    (enough : length.toNat ≤ rest.length) :
    ∃ (block : Block) (tail : Bytes), length :: rest = block.behind ++ tail := by
  have small := length.toNat_lt
  match rest with
  | [] | [_] => simp [Wire.overhead] at roomy enough; omega
  | kind :: function :: more =>
    simp only [Wire.overhead, List.length_cons] at roomy enough
    have split := List.take_append_drop (length.toNat - Wire.overhead) more
    cases there : more.drop (length.toNat - Wire.overhead) with
    | nil =>
      have short := congrArg List.length there
      simp only [List.length_drop, List.length_nil, Wire.overhead] at short
      omega
    | cons sum tail =>
      have size : (more.take (length.toNat - Wire.overhead)).length + Wire.overhead = length.toNat := by
        simp only [List.length_take, Wire.overhead]
        omega
      have fits : (more.take (length.toNat - Wire.overhead)).length ≤ Wire.maxPayload := by
        simp only [Wire.maxPayload, Wire.overhead] at size ⊢
        omega
      refine ⟨⟨kind, function, more.take (length.toNat - Wire.overhead), sum, fits⟩, tail, ?_⟩
      have counts : length = UInt8.ofNat ((more.take (length.toNat - Wire.overhead)).length + Wire.overhead) := by
        rw [size, UInt8.ofNat_toNat]
      rw [there] at split
      simp only [Block.behind, Block.covered, Block.length, ← counts, List.cons_append, List.append_assoc,
        List.nil_append, split]

theorem lookBehind (bytes : Bytes) :
    (∀ resume, verdict resume bytes = none) ∨
    (∃ (length : UInt8) (rest : Bytes), bytes = length :: rest ∧ length.toNat < Wire.overhead) ∨
    ∃ (block : Block) (rest : Bytes), bytes = block.behind ++ rest := by
  cases bytes with
  | nil => exact .inl fun _ => rfl
  | cons length rest =>
    by_cases small : length.toNat < Wire.overhead
    · exact .inr (.inl ⟨length, rest, rfl, small⟩)
    · by_cases enough : length.toNat ≤ rest.length
      · exact .inr (.inr (blockCut (Nat.le_of_not_lt small) enough))
      · refine .inl fun resume => ?_
        simp only [verdict]
        rw [if_neg small, if_pos (by simpa using enough)]

end Decoder

end ZWaveHost
