import Mathlib.Data.Nat.Bitwise
import ZWaveHost.Proofs.Message.RoundTrip

/-! The bitmask of nodes, one bit at a time. It is written id after id: quotient and remainder name the byte and the bit of an
id that a node can have, and any other id is passed over. It is read by a test of each bit of each byte. A mask written so is
that of the layout, and what is found so are the ids of the reading, so writing and reading agree on the bit of every id. -/
namespace ZWaveHost

def oneBit (bit : Nat) : UInt8 := 1 <<< UInt8.ofNat bit

theorem oneBitSize {bit : Nat} (inside : bit < 8) : (oneBit bit).toNat = 2 ^ bit := by
  have small : 2 ^ bit < 2 ^ 8 := Nat.pow_lt_pow_right (by decide) inside
  rw [oneBit, UInt8.toNat_shiftLeft, UInt8.toNat_ofNat', UInt8.toNat_one, Nat.one_shiftLeft]
  rw [Nat.mod_eq_of_lt (by omega : bit < 2 ^ 8), Nat.mod_eq_of_lt inside, Nat.mod_eq_of_lt small]

theorem bitTested (byte : UInt8) {bit : Nat} (inside : bit < 8) :
    byte &&& oneBit bit ≠ 0 ↔ byte.toNat.testBit bit := by
  rw [Ne, ← UInt8.toNat_inj, UInt8.toNat_and, oneBitSize inside, Nat.and_two_pow, UInt8.toNat_zero]
  cases byte.toNat.testBit bit <;> simp

abbrev NodeMask := Vector UInt8 nodeMaskSize

namespace NodeMask

def empty : NodeMask := .replicate nodeMaskSize 0

theorem byteInside {id : NodeId} (real : 1 ≤ id ∧ id ≤ maxNodeId) : (id - 1).toNat / 8 < nodeMaskSize := by
  have bound : id.toNat ≤ 232 := UInt8.le_iff_toNat_le.mp real.2
  have bytes : nodeMaskSize = 29 := rfl
  rw [UInt8.toNat_sub_of_le _ _ real.1, UInt8.toNat_one]
  omega

def enter (mask : NodeMask) (id : NodeId) : NodeMask :=
  if real : 1 ≤ id ∧ id ≤ maxNodeId then
    let place := (id - 1).toNat
    have inside : place / 8 < nodeMaskSize := byteInside real
    mask.set (place / 8) (mask[place / 8] ||| oneBit (place % 8))
  else mask

def ofIds (ids : List NodeId) : NodeMask := ids.foldl enter empty

theorem marksAt (mask : NodeMask) (n : Nat) :
    marks mask.toList n = (mask[n / 8]?.getD 0).toNat.testBit (n % 8) := by
  simp [marks]

theorem emptyMarks (n : Nat) : ¬ marks empty.toList n := by
  have zero : empty[n / 8]?.getD 0 = 0 := by
    rw [empty, Vector.getElem?_replicate]
    split <;> rfl
  rw [marksAt, zero, UInt8.toNat_zero, Nat.zero_testBit]
  exact Bool.false_ne_true

theorem enterMarks (mask : NodeMask) (id : NodeId) (n : Nat) :
    marks (mask.enter id).toList n ↔ marks mask.toList n ∨ (1 ≤ id ∧ id ≤ maxNodeId) ∧ id.toNat = n + 1 := by
  by_cases real : 1 ≤ id ∧ id ≤ maxNodeId
  · have positive : 1 ≤ id.toNat := UInt8.le_iff_toNat_le.mp real.1
    have place : (id - 1).toNat = id.toNat - 1 := UInt8.toNat_sub_of_le _ _ real.1
    have inside := byteInside real
    rw [enter, dif_pos real, marksAt, marksAt, and_iff_right real]
    by_cases byte : (id - 1).toNat / 8 = n / 8
    · have own : (id - 1).toNat % 8 = n % 8 ↔ id.toNat = n + 1 := by omega
      have bit := oneBitSize (Nat.mod_lt (id - 1).toNat (by decide : 8 > 0))
      rw [← byte, Vector.getElem?_set_self inside, Vector.getElem?_eq_getElem inside, Option.getD_some, Option.getD_some,
        UInt8.toNat_or, Nat.testBit_or, bit, Nat.testBit_two_pow, Bool.or_eq_true, decide_eq_true_iff, own]
    · have other : id.toNat ≠ n + 1 := by omega
      rw [Vector.getElem?_set_ne inside byte, or_iff_left other]
  · rw [enter, dif_neg real]
    exact ⟨Or.inl, fun set => set.resolve_right fun own => real own.1⟩

theorem entersMarks (mask : NodeMask) (ids : List NodeId) (n : Nat) :
    marks (ids.foldl enter mask).toList n ↔
      marks mask.toList n ∨ ∃ id ∈ ids, (1 ≤ id ∧ id ≤ maxNodeId) ∧ id.toNat = n + 1 := by
  induction ids generalizing mask with
  | nil => simp
  | cons id rest ih => rw [List.foldl_cons, ih, enterMarks, or_assoc, List.exists_mem_cons_iff]

theorem ofIdsMarks (ids : List NodeId) (n : Nat) :
    marks (ofIds ids).toList n ↔ ∃ id ∈ ids, (1 ≤ id ∧ id ≤ maxNodeId) ∧ id.toNat = n + 1 := by
  rw [ofIds, entersMarks, or_iff_right (emptyMarks n)]

end NodeMask

theorem byteSame {byte other : UInt8} (same : ∀ i < 8, byte.toNat.testBit i = other.toNat.testBit i) : byte = other := by
  refine UInt8.toNat_inj.mp (Nat.eq_of_testBit_eq fun i => ?_)
  by_cases inside : i < 8
  · exact same i inside
  · have beyond (byte : UInt8) : byte.toNat < 2 ^ i :=
      Nat.lt_of_lt_of_le byte.toNat_lt (Nat.pow_le_pow_right (by decide) (Nat.le_of_not_lt inside))
    rw [Nat.testBit_lt_two_pow (beyond byte), Nat.testBit_lt_two_pow (beyond other)]

theorem maskSame {mask other : Bytes} (size : mask.length = other.length) (same : ∀ n, marks mask n ↔ marks other n) :
    mask = other := by
  refine List.ext_getElem size fun j inside inside_ => byteSame fun i bit => ?_
  have quotient : (8 * j + i) / 8 = j := by omega
  have remainder : (8 * j + i) % 8 = i := by omega
  have here := Bool.eq_iff_iff.mpr (same (8 * j + i))
  simpa only [marks, quotient, remainder, List.getD_eq_getElem _ _ inside, List.getD_eq_getElem _ _ inside_] using here

theorem ofIdsLayout (ids : List NodeId) : (NodeMask.ofIds ids).toList = nodeMask ids := by
  refine maskSame (by rw [Vector.length_toList, nodeMaskLength]) fun n => ?_
  rw [NodeMask.ofIdsMarks]
  constructor
  · rintro ⟨id, there, ⟨-, bounded⟩, own⟩
    have bounded : id.toNat ≤ maxNodeId.toNat := UInt8.le_iff_toNat_le.mp bounded
    rw [maskMarks ids (by omega), ← own, UInt8.ofNat_toNat, List.contains_iff_mem]
    exact there
  · intro set
    have inside : n < maxNodeId.toNat := Nat.lt_of_lt_of_eq (marksInside set) (nodeMaskPlaces ids)
    rw [maskMarks ids inside, List.contains_iff_mem] at set
    exact ⟨_, set, memMaskable.mp (List.mem_map.mpr ⟨n, List.mem_range.mpr inside, rfl⟩), maskableSize inside⟩

def testedIds (j : Nat) (byte : UInt8) : List NodeId :=
  ((List.range 8).filter fun bit => byte &&& oneBit bit ≠ 0).map fun bit => UInt8.ofNat (8 * j + bit + 1)

def testedMask (mask : Bytes) : List NodeId := mask.zipIdx.flatMap fun (byte, j) => testedIds j byte

theorem testedReading (mask : Bytes) : testedMask mask = readMask mask := by
  have same (j : Nat) (byte : UInt8) : testedIds j byte = maskedIds j byte := by
    refine congrArg (List.map _) (List.filter_congr fun bit inside => ?_)
    exact Bool.eq_iff_iff.mpr (decide_eq_true_iff.trans (bitTested byte (List.mem_range.mp inside)))
  simp only [testedMask, readMask, same]

/-- Whatever ids are given, in any order and any number of times, and whatever else is told: there is a frame, and in its
mask every id of a node has set its bit. Read from it, whoever sent it, all is as it was told, but for the ids: they are
those that the tests of the mask find, and these are the given ids that a node can have, ascending and each once. -/
theorem nodeMaskExact (data : InitData) (sender : Side) :
    let mask := (NodeMask.ofIds data.nodeIds).toList
    let nodeIds := testedMask mask
    ∃ frame, (Message.initData data).toFrame = .ok frame ∧
      frame.payload = data.apiVersion :: data.capabilities :: UInt8.ofNat nodeMaskSize ::
        (mask ++ [data.chipType, data.chipVersion]) ∧
      Message.ofFrame frame sender = .initData { data with nodeIds } ∧
      nodeIds.Pairwise (· < ·) ∧ ∀ id, id ∈ nodeIds ↔ id ∈ data.nodeIds ∧ 1 ≤ id ∧ id ≤ maxNodeId := by
  intro mask nodeIds
  have layout : mask = nodeMask data.nodeIds := ofIdsLayout data.nodeIds
  have reading : nodeIds = readMask (nodeMask data.nodeIds) := (testedReading mask).trans (congrArg readMask layout)
  obtain ⟨ascending, nodes⟩ := maskReadNodes data.nodeIds
  rw [← reading] at ascending nodes
  refine ⟨_, rfl, by rw [layout], ?_, ascending, nodes⟩
  rw [reading]
  exact viewed (congrArg (Option.map Message.initData) (initDataRead data))

example :
    let mask := (NodeMask.ofIds [16, 0, 9, 233, 8, 1, 9, 232]).toList
    mask = 0x81 :: 0x81 :: (List.replicate 26 0x00 ++ [0x80]) ∧ testedMask mask = [1, 8, 9, 16, 232] := by
  decide +kernel

end ZWaveHost
