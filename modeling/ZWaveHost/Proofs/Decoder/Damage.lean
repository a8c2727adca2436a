import ZWaveHost.Proofs.Decoder.Resync

/-! One byte of a frame is changed on its way. Whatever the frame holds, the checksum tells the change, and not before the
last byte of the frame is there. -/
namespace ZWaveHost

namespace Wire

def garbled (bytes : Bytes) (position : Nat) (mask : UInt8) : Bytes := bytes.modify position (· ^^^ mask)

theorem garbledBehind (first : UInt8) (rest : Bytes) (position : Nat) (mask : UInt8) :
    garbled (first :: rest) (position + 1) mask = first :: garbled rest position mask := rfl

theorem foldSeeded (bytes : Bytes) (seed mask : UInt8) :
    bytes.foldl (· ^^^ ·) (seed ^^^ mask) = bytes.foldl (· ^^^ ·) seed ^^^ mask := by
  induction bytes generalizing seed with
  | nil => rfl
  | cons byte rest ih =>
    rw [List.foldl_cons, List.foldl_cons, ← ih, UInt8.xor_assoc, UInt8.xor_comm mask, ← UInt8.xor_assoc]

theorem checksumAppended (bytes : Bytes) (byte : UInt8) : checksum (bytes ++ [byte]) = checksum bytes ^^^ byte := by
  rw [checksum, List.foldl_append]
  rfl

theorem foldGarbled {bytes : Bytes} {position : Nat} (within : position < bytes.length) (seed mask : UInt8) :
    (garbled bytes position mask).foldl (· ^^^ ·) seed = bytes.foldl (· ^^^ ·) seed ^^^ mask := by
  induction bytes generalizing position seed with
  | nil => contradiction
  | cons byte rest ih =>
    cases position with
    | zero =>
      show rest.foldl (· ^^^ ·) (seed ^^^ (byte ^^^ mask)) = rest.foldl (· ^^^ ·) (seed ^^^ byte) ^^^ mask
      rw [← UInt8.xor_assoc, foldSeeded]
    | succ position => exact ih (Nat.lt_of_succ_lt_succ within) (seed ^^^ byte)

theorem checksumGarbled {bytes : Bytes} {position : Nat} (within : position < bytes.length) (mask : UInt8) :
    checksum (garbled bytes position mask) = checksum bytes ^^^ mask := foldGarbled within 0xFF mask

end Wire

namespace Decoder
open Wire

theorem blockResidue (block : Block) : block.expected ^^^ block.sum = checksum block.behind :=
  (checksumAppended block.covered block.sum).symm

theorem bodyResidue (frame : Frame) (length : UInt8) : checksum (frame.body length) = 0 := by
  rw [Frame.body, checksumAppended, UInt8.xor_self]

theorem garbledBlock {sent : Frame} {wire : Bytes} (encoded : sent.encode = .ok wire)
    (fits : sent.payload.length ≤ maxPayload) {position : Nat} (behindLength : 2 ≤ position)
    (within : position < wire.length) (mask : UInt8) :
    ∃ block : Block, garbled wire position mask = block.bytes ∧ block.expected ^^^ block.sum = mask := by
  obtain ⟨length, counted, same⟩ := frameEncoded fits
  cases encoded.symm.trans same
  obtain ⟨place, rfl⟩ := Nat.exists_eq_add_of_le' behindLength
  have size := bodyLength sent length
  have body : ∃ rest, sent.body length = length :: rest := ⟨_, rfl⟩
  obtain ⟨rest, body⟩ := body
  have inside : place + 1 < (sent.body length).length := Nat.lt_of_succ_lt_succ within
  have kept : (garbled rest place mask).length = rest.length := List.length_modify ..
  rw [body, List.length_cons] at size
  have roomy : overhead ≤ length.toNat := counted ▸ Nat.le_add_left _ _
  have enough : length.toNat ≤ (garbled rest place mask).length := by omega
  obtain ⟨block, tail, cut⟩ := blockCut roomy enough
  have whole : tail = [] := by
    have lengths := congrArg List.length cut
    have first : block.length = length := (List.cons.inj cut).1.symm
    rw [List.length_append, block.behindLength, first, List.length_cons] at lengths
    exact List.eq_nil_of_length_eq_zero (by omega)
  rw [whole, List.append_nil, ← garbledBehind, ← body] at cut
  refine ⟨block, ?_, ?_⟩
  · rw [Block.bytes, ← cut]
    rfl
  · rw [blockResidue, ← cut, checksumGarbled inside, bodyResidue, UInt8.zero_xor]

theorem residueWrong {block : Block} {mask : UInt8} (residue : block.expected ^^^ block.sum = mask)
    (turned : mask ≠ 0) : block.expected ≠ block.sum := by
  intro same
  rw [same, UInt8.xor_self] at residue
  exact turned residue.symm

theorem blockUnsettled (block : Block) {bytes more : Bytes} (cut : bytes ++ more = block.bytes) (short : more ≠ [])
    (now : Time) :
    (scan frameBehind now bytes).items = [] ∧ (scan frameBehind now bytes).discarded = 0 ∧
      unfinished (scan frameBehind now bytes).pending = bytes := by
  cases bytes with
  | nil => simp [scan, unfinished]
  | cons first rest =>
    rw [Block.bytes, List.cons_append, List.cons.injEq] at cut
    obtain ⟨rfl, cut⟩ := cut
    rw [scanAsked (block.verdictShort frameBehind cut short)]
    exact ⟨rfl, rfl, rfl⟩

theorem runNothing {decoder : Decoder} (asks : Asks frameBehind decoder.pending) {parts : List (Time × Bytes)}
    (nothing : (parts.map (·.2)).flatten = []) :
    (decoder.run (deliveries parts)).1 = decoder ∧ (decoder.run (deliveries parts)).2.flatten = [] := by
  induction parts with
  | nil => exact ⟨rfl, rfl⟩
  | cons part rest ih =>
    obtain ⟨now, bytes⟩ := part
    obtain ⟨rfl, others⟩ := List.append_eq_nil_iff.mp nothing
    obtain ⟨same, none⟩ := ih others
    simp only [deliveries, List.map_cons, run, step, pushNothing asks, List.flatten_cons, List.nil_append]
    exact ⟨same, none⟩

theorem blockArrives {block : Block} {decoder : Decoder} {parts : List (Time × Bytes)}
    (cut : decoder.backlog ++ (parts.map (·.2)).flatten = block.bytes) (short : (parts.map (·.2)).flatten ≠ []) :
    ∃ now, (decoder.run (deliveries parts)).2.flatten = (scan frameBehind now block.bytes).items ∧
      (decoder.run (deliveries parts)).1.discarded =
        decoder.discarded + (scan frameBehind now block.bytes).discarded ∧
      (decoder.run (deliveries parts)).1.backlog = unfinished (scan frameBehind now block.bytes).pending := by
  induction parts generalizing decoder with
  | nil => contradiction
  | cons part rest ih =>
    obtain ⟨now, bytes⟩ := part
    simp only [List.map_cons, List.flatten_cons] at cut
    rw [← List.append_assoc] at cut
    obtain ⟨items, discarded, backlog⟩ := decoder.pushScans bytes now
    simp only [deliveries, List.map_cons, run, step, List.flatten_cons]
    by_cases last : (rest.map (·.2)).flatten = []
    · obtain ⟨same, none⟩ := runNothing (decoder.pushAsks bytes now) last
      rw [last, List.append_nil] at cut
      rw [cut] at items discarded backlog
      rw [deliveries] at same none
      exact ⟨now, by rw [none, List.append_nil, items], by rw [same, discarded], by rw [same, backlog]⟩
    · obtain ⟨silent, kept, waits⟩ := blockUnsettled block cut last now
      rw [waits] at backlog
      obtain ⟨later, items_, discarded_, backlog_⟩ := ih (backlog ▸ cut) last
      rw [deliveries] at items_ discarded_ backlog_
      exact ⟨later, by rw [items, silent, items_, List.nil_append], by rw [discarded_, discarded, kept, Nat.add_zero],
        backlog_⟩

theorem damagedFirst {block : Block} (wrong : block.expected ≠ block.sum) (rest : Bytes) (now : Time) :
    ∃ later, (scan frameBehind now (block.bytes ++ rest)).items =
      .rejected (.checksum block.expected block.sum) :: later := by
  cases followed : frameBehind (block.behind ++ rest) with
  | false => exact ⟨_, by rw [scanWhole (by simp [followed]), itemDamaged wrong]⟩
  | true => exact ⟨_, by rw [scanResumed wrong followed, itemDamaged wrong]⟩

/- Whatever a frame holds, wherever a byte behind its length byte is changed and however the bytes arrive: the first item
is a wrong checksum, and it is off by the bits that were turned over. Where no frame is seen behind the start byte by a
decoder that drops every bad frame as a whole, it is the only item and nothing is left. -/
theorem flippedByteCaught (sent : Frame) (fits : sent.payload.length ≤ maxPayload) :
    ∃ wire, sent.encode = .ok wire ∧
      ∀ (position : Nat) (mask : UInt8) (parts : List (Time × Bytes)),
        2 ≤ position → position < wire.length → mask ≠ 0 →
        (parts.map (·.2)).flatten = garbled wire position mask →
        let (decoder, items) := ({} : Decoder).run (deliveries parts)
        ∃ expected actual later, items.flatten = .rejected (.checksum expected actual) :: later ∧
          expected ^^^ actual = mask ∧
          ((∀ frame, .frame frame ∉ (scan (fun _ => false) 0 (garbled wire position mask).tail).items) →
            later = [] ∧ decoder.size = 0 ∧ decoder.partialSince = none) := by
  obtain ⟨length, -, encoded⟩ := frameEncoded fits
  refine ⟨_, encoded, fun position mask parts behindLength within turned cut => ?_⟩
  obtain ⟨block, same, residue⟩ := garbledBlock encoded fits behindLength within mask
  have wrong := residueWrong residue turned
  rw [same] at cut ⊢
  have arrives : ({} : Decoder).backlog ++ (parts.map (·.2)).flatten = block.bytes := cut
  obtain ⟨now, items, -, backlog⟩ := blockArrives arrives (cut ▸ List.cons_ne_nil _ _)
  obtain ⟨later, first⟩ := damagedFirst wrong [] now
  rw [List.append_nil] at first
  refine ⟨_, _, later, items.trans first, residue, fun unseen => ?_⟩
  have whole : ¬ (block.expected ≠ block.sum ∧ frameBehind (block.behind ++ [])) := by
    rw [List.append_nil, frameBehindIff 0]
    exact fun ⟨_, frame, seen⟩ => unseen frame seen
  have dropped := scanWhole whole now
  rw [List.append_nil, show scan frameBehind now [] = {} by simp [scan]] at dropped
  rw [dropped] at first backlog
  have settled := unfinishedNil backlog
  exact ⟨(List.cons.inj first).2.symm, by simp [size, settled], by simp [partialSince, settled]⟩

theorem flippedAddressCaught :
    let sent : Frame := .response FunctionId.memoryId [0x01, 0x02, 0x03, 0x04, 0x01]
    let wire := [0x01, 0x08, 0x01, 0x20, 0x01, 0x02, 0x03, 0x04, 0x01, 0xD3]
    let parts : List (Time × Bytes) :=
      [(0, [0x01, 0x08, 0x01, 0x20]), (7, []), (7, [0x01, 0x02, 0x13, 0x04, 0x01]), (9, [0xD3]), (9, [])]
    let (decoder, items) := ({} : Decoder).run (deliveries parts)
    sent.payload.length ≤ maxPayload ∧ sent.encode = .ok wire ∧ (parts.map (·.2)).flatten = garbled wire 6 0x10 ∧
      ∃ expected actual, items.flatten = [.rejected (.checksum expected actual)] ∧ expected ^^^ actual = 0x10 ∧
        decoder.size = 0 ∧ decoder.partialSince = none := by
  intro sent wire parts
  have fits : sent.payload.length ≤ maxPayload := by decide
  have encoded : sent.encode = .ok wire := by simp only [sent, wire]; rfl
  have cut : (parts.map (·.2)).flatten = garbled wire 6 0x10 := by decide
  obtain ⟨own, same, caught⟩ := flippedByteCaught sent fits
  cases encoded.symm.trans same
  obtain ⟨expected, actual, later, first, residue, only⟩ := caught 6 0x10 parts (by decide) (by decide) (by decide) cut
  have alone : ¬ frameBehind (garbled wire 6 0x10).tail := by decide +kernel
  obtain ⟨rfl, settled⟩ := only fun frame seen => alone ((frameBehindIff 0).mpr ⟨frame, seen⟩)
  exact ⟨fits, encoded, cut, expected, actual, first, residue, settled⟩

end Decoder
end ZWaveHost
