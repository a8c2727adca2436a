import Mathlib.Algebra.Group.Nat.Defs
import Mathlib.Data.List.Pairwise
import ZWaveHost.Message.Layout

/-! The bitmask of nodes as a set. What is read from a mask of any length is the id of each set bit, in order and cut to a
byte. Up to the bit of the highest id these are the ids of the nodes; behind it they are not. What is read from a mask that
was written are the ids asked for that a node can have, ascending and each once, in whatever order they were given. -/
namespace ZWaveHost

theorem bitsValue (bit : Nat → Bool) (count start : Nat) :
    let value := (List.range' start count).foldr (fun i n => 2 * n + (bit i).toNat) 0
    value < 2 ^ count ∧ ∀ i < count, value.testBit i = bit (start + i) := by
  induction count generalizing start with
  | zero => simp
  | succ count ih =>
    obtain ⟨small, bits⟩ := ih (start + 1)
    simp only [List.range'_succ, List.foldr_cons]
    generalize (List.range' (start + 1) count).foldr (fun i n => 2 * n + (bit i).toNat) 0 = later at small bits ⊢
    have one := (bit start).toNat_lt
    constructor
    · rw [Nat.pow_succ]
      omega
    · intro i inside
      cases i with
      | zero =>
        rw [Nat.testBit_zero]
        cases bit start <;> simp
      | succ i =>
        have half : (2 * later + (bit start).toNat) / 2 = later := by omega
        rw [Nat.testBit_succ, half, bits i (Nat.lt_of_succ_lt_succ inside)]
        exact congrArg bit (by omega)

theorem bitOfByte (bit : Nat → Bool) {i : Nat} (inside : i < 8) : (byteOfBits bit).toNat.testBit i = bit i := by
  obtain ⟨small, bits⟩ := bitsValue bit 8 0
  have value : (byteOfBits bit).toNat = (List.range' 0 8).foldr (fun i n => 2 * n + (bit i).toNat) 0 := by
    rw [byteOfBits, List.range_eq_range', UInt8.toNat_ofNat']
    exact Nat.mod_eq_of_lt small
  rw [value, bits i inside, Nat.zero_add]

def marks (mask : Bytes) (n : Nat) : Bool := (mask.getD (n / 8) 0).toNat.testBit (n % 8)

def marked (mask : Bytes) : List Nat := (List.range (8 * mask.length)).filter (marks mask)

theorem rangeBytes (size : Nat) :
    List.range (8 * size) = (List.range size).flatMap fun j => (List.range 8).map (8 * j + ·) := by
  induction size with
  | zero => rfl
  | succ size ih =>
    rw [Nat.mul_succ, List.range_add, ih, @List.range_succ size, List.flatMap_append, List.flatMap_singleton]

theorem readMarked (mask : Bytes) : readMask mask = (marked mask).map fun n => UInt8.ofNat (n + 1) := by
  have indexed : mask.zipIdx = (List.range mask.length).map fun j => (mask.getD j 0, j) := by
    refine List.ext_getElem (by simp) fun j inside _ => ?_
    rw [List.length_zipIdx] at inside
    simp [List.getElem?_eq_getElem inside]
  have bits (j : Nat) : (List.range 8).filter (mask.getD j 0).toNat.testBit =
      (List.range 8).filter (marks mask ∘ (8 * j + ·)) := by
    refine List.filter_congr fun i inside => ?_
    have inside := List.mem_range.mp inside
    have byte : (8 * j + i) / 8 = j := by omega
    have bit : (8 * j + i) % 8 = i := by omega
    simp [marks, byte, bit]
  rw [readMask, indexed, List.flatMap_map, marked, rangeBytes, List.filter_flatMap, List.map_flatMap]
  simp only [maskedIds, bits, List.filter_map, List.map_map]
  rfl

theorem marksInside {mask : Bytes} {n : Nat} (set : marks mask n) : n < 8 * mask.length := by
  refine Nat.lt_of_not_le fun beyond => ?_
  have absent : mask[n / 8]? = none := List.getElem?_eq_none (by omega)
  simp [marks, absent] at set

theorem memMarked {mask : Bytes} {n : Nat} : n ∈ marked mask ↔ marks mask n := by
  rw [marked, List.mem_filter, List.mem_range]
  exact ⟨And.right, fun set => ⟨marksInside set, set⟩⟩

theorem markedAscends (mask : Bytes) : (marked mask).Pairwise (· < ·) := List.pairwise_lt_range.filter _

def maskable : List NodeId := (List.range maxNodeId.toNat).map fun n => UInt8.ofNat (n + 1)

theorem maskableSize {n : Nat} (inside : n < maxNodeId.toNat) : (UInt8.ofNat (n + 1)).toNat = n + 1 := by
  have bound : maxNodeId.toNat = 232 := rfl
  rw [UInt8.toNat_ofNat']
  omega

theorem memMaskable {id : NodeId} : id ∈ maskable ↔ 1 ≤ id ∧ id ≤ maxNodeId := by
  simp only [maskable, List.mem_map, List.mem_range, UInt8.le_iff_toNat_le]
  constructor
  · rintro ⟨n, inside, rfl⟩
    rw [maskableSize inside]
    exact ⟨Nat.le_add_left 1 n, inside⟩
  · rintro ⟨positive, bounded⟩
    have positive : 1 ≤ id.toNat := positive
    refine ⟨id.toNat - 1, by omega, ?_⟩
    rw [Nat.sub_add_cancel positive, UInt8.ofNat_toNat]

theorem maskableAscends : maskable.Pairwise (· < ·) := by
  refine List.pairwise_map.mpr (List.pairwise_lt_range.imp_of_mem fun {n m} here there less => ?_)
  rw [UInt8.lt_iff_toNat_lt, maskableSize (List.mem_range.mp here), maskableSize (List.mem_range.mp there)]
  exact Nat.succ_lt_succ less

theorem ascendingSame {ids others : List NodeId} (ascending : ids.Pairwise (· < ·))
    (ascending_ : others.Pairwise (· < ·)) (same : ∀ id, id ∈ ids ↔ id ∈ others) : ids = others := by
  have once {ids : List NodeId} (ascending : ids.Pairwise (· < ·)) : ids.Nodup := by
    refine ascending.imp fun {first second} less same => ?_
    exact UInt8.lt_irrefl second (same ▸ less)
  refine List.Perm.eq_of_pairwise (fun first second _ _ less more => ?_) ascending ascending_
    ((List.perm_ext_iff_of_nodup (once ascending) (once ascending_)).mpr same)
  exact absurd more (UInt8.lt_asymm less)

theorem nodeMaskLength (ids : List NodeId) : (nodeMask ids).length = nodeMaskSize := by simp [nodeMask]

theorem nodeMaskPlaces (ids : List NodeId) : 8 * (nodeMask ids).length = maxNodeId.toNat := by
  rw [nodeMaskLength]
  rfl

theorem maskMarks (ids : List NodeId) {n : Nat} (inside : n < maxNodeId.toNat) :
    marks (nodeMask ids) n = ids.contains (UInt8.ofNat (n + 1)) := by
  have size : n / 8 < nodeMaskSize := by
    have bound : maxNodeId.toNat = 232 := rfl
    have bytes : nodeMaskSize = 29 := rfl
    omega
  have byte : (nodeMask ids).getD (n / 8) 0 =
      byteOfBits fun i => ids.contains (UInt8.ofNat (8 * (n / 8) + i + 1)) := by
    simp [nodeMask, List.getD_eq_getElem?_getD, size]
  rw [marks, byte, bitOfByte _ (Nat.mod_lt n (by decide)), Nat.div_add_mod]

theorem maskRead (ids : List NodeId) : readMask (nodeMask ids) = maskable.filter (ids.contains ·) := by
  have bits : (List.range maxNodeId.toNat).filter (marks (nodeMask ids)) =
      (List.range maxNodeId.toNat).filter fun n => ids.contains (UInt8.ofNat (n + 1)) :=
    List.filter_congr fun n inside => maskMarks ids (List.mem_range.mp inside)
  rw [readMarked, marked, nodeMaskPlaces, bits, maskable, List.filter_map]
  rfl

theorem maskReadNodes (ids : List NodeId) :
    (readMask (nodeMask ids)).Pairwise (· < ·) ∧
      ∀ id, id ∈ readMask (nodeMask ids) ↔ id ∈ ids ∧ 1 ≤ id ∧ id ≤ maxNodeId := by
  rw [maskRead]
  refine ⟨maskableAscends.filter _, fun id => ?_⟩
  rw [List.mem_filter, memMaskable, List.contains_iff_mem]
  exact And.comm

theorem maskReadBack {ids : List NodeId} (ascending : ids.Pairwise (· < ·))
    (real : ∀ id ∈ ids, 1 ≤ id ∧ id ≤ maxNodeId) : readMask (nodeMask ids) = ids := by
  obtain ⟨ascending_, nodes⟩ := maskReadNodes ids
  refine ascendingSame ascending_ ascending fun id => (nodes id).trans ?_
  exact ⟨And.left, fun there => ⟨there, real id there⟩⟩

/- Only the ids of nodes are read, in order, each for its own bit, just when no bit behind the highest id is set. A bit
farther behind is read as an id that a node has, and then that node's own bit would be read as the same id. -/
theorem nodesOnlyIff (mask : Bytes) :
    ((readMask mask).Pairwise (· < ·) ∧
        ∀ id ∈ readMask mask, (1 ≤ id ∧ id ≤ maxNodeId) ∧ marks mask (id.toNat - 1)) ↔
      ∀ n, marks mask n → n < maxNodeId.toNat := by
  rw [readMarked]
  constructor
  · rintro ⟨ascending, real⟩ n set
    have there : n ∈ marked mask := memMarked.mpr set
    obtain ⟨⟨positive, bounded⟩, own⟩ := real _ (List.mem_map_of_mem there)
    rw [UInt8.le_iff_toNat_le] at positive bounded
    have positive : 1 ≤ (UInt8.ofNat (n + 1)).toNat := positive
    have differ : (marked mask).Pairwise fun n m => UInt8.ofNat (n + 1) ≠ UInt8.ofNat (m + 1) :=
      (List.pairwise_map.mp ascending).imp UInt8.ne_of_lt
    have symmetric : Std.Symm fun n m => UInt8.ofNat (n + 1) ≠ UInt8.ofNat (m + 1) := ⟨fun _ _ => Ne.symm⟩
    have once : n = (UInt8.ofNat (n + 1)).toNat - 1 := Classical.byContradiction fun other => by
      refine differ.forall there (memMarked.mpr own) other ?_
      rw [Nat.sub_add_cancel positive, UInt8.ofNat_toNat]
    omega
  · intro inside
    have sizes (n) (there : n ∈ marked mask) : (UInt8.ofNat (n + 1)).toNat = n + 1 :=
      maskableSize (inside n (memMarked.mp there))
    constructor
    · refine List.pairwise_map.mpr ((markedAscends mask).imp_of_mem fun {n m} here there less => ?_)
      rw [UInt8.lt_iff_toNat_lt, sizes n here, sizes m there]
      exact Nat.succ_lt_succ less
    · intro id member
      obtain ⟨n, there, rfl⟩ := List.mem_map.mp member
      have set := memMarked.mp there
      refine ⟨memMaskable.mp (List.mem_map.mpr ⟨n, List.mem_range.mpr (inside n set), rfl⟩), ?_⟩
      rw [sizes n there]
      exact set

theorem readInitDataMask {payload : Bytes} {data : InitData} (read : readInitData payload = some data) :
    ∃ (length : UInt8) (mask rest : Bytes), payload = data.apiVersion :: data.capabilities :: length :: (mask ++ rest) ∧
      mask.length = length.toNat ∧ data.nodeIds = readMask mask := by
  unfold readInitData at read
  split at read
  · rename_i apiVersion capabilities length rest
    split at read
    · rename_i enough
      cases read
      refine ⟨length, rest.take length.toNat, rest.drop length.toNat, ?_, ?_, rfl⟩
      · rw [List.take_append_drop]
      · rw [List.length_take, Nat.min_eq_left enough]
    · contradiction
  · contradiction

/-- Whatever mask a payload announces: the ids that are read from it are those of its set bits, in order and cut to a
byte. They ascend, are ids of nodes and are marked by their own bits just when no bit behind that of the highest id is
set, and so for every mask that is not longer than that of all nodes. -/
theorem markedNodesRead (payload : Bytes) (sender : Side) (data : InitData)
    (read : Message.ofFrame (.response FunctionId.initData payload) sender = .initData data) :
    ∃ (length : UInt8) (mask rest : Bytes), payload = data.apiVersion :: data.capabilities :: length :: (mask ++ rest) ∧
      mask.length = length.toNat ∧ data.nodeIds = (marked mask).map (fun n => UInt8.ofNat (n + 1)) ∧
      ((data.nodeIds.Pairwise (· < ·) ∧
          ∀ id ∈ data.nodeIds, (1 ≤ id ∧ id ≤ maxNodeId) ∧ marks mask (id.toNat - 1)) ↔
        ∀ n, marks mask n → n < maxNodeId.toNat) ∧
      (length.toNat ≤ nodeMaskSize →
        data.nodeIds.Pairwise (· < ·) ∧ ∀ id ∈ data.nodeIds, 1 ≤ id ∧ id ≤ maxNodeId) := by
  have view : ((readInitData payload).map Message.initData).getD (.unknown _) = .initData data := read
  have read_ : readInitData payload = some data := by
    cases found : readInitData payload with
    | none => simp [found] at view
    | some own => simpa [found] using view
  obtain ⟨length, mask, rest, split, counted, ids⟩ := readInitDataMask read_
  have exact_ := nodesOnlyIff mask
  rw [← ids] at exact_
  refine ⟨length, mask, rest, split, counted, ids.trans (readMarked mask), exact_, fun short => ?_⟩
  have inside (n) (set : marks mask n) : n < maxNodeId.toNat := by
    have place := List.mem_range.mp (List.mem_filter.mp (memMarked.mpr set)).1
    have all : 8 * nodeMaskSize = maxNodeId.toNat := rfl
    omega
  obtain ⟨ascending, real⟩ := exact_.mpr inside
  exact ⟨ascending, fun id member => (real id member).1⟩

theorem paddedMaskRead :
    let mask : Bytes := 0x11 :: (List.replicate 27 0x00 ++ [0x80, 0x00])
    let payload : Bytes := 0x05 :: 0x08 :: 0x1E :: (mask ++ [0x05, 0x00])
    let data : InitData := ⟨0x05, 0x08, [1, 5, 232], 0x05, 0x00⟩
    Message.ofFrame (.response FunctionId.initData payload) .controller = .initData data ∧
      (∀ n, marks mask n → n < maxNodeId.toNat) ∧
      data.nodeIds.Pairwise (· < ·) ∧ ∀ id ∈ data.nodeIds, (1 ≤ id ∧ id ≤ maxNodeId) ∧ marks mask (id.toNat - 1) := by
  intro mask payload data
  have read : Message.ofFrame (.response FunctionId.initData payload) .controller = .initData data := by decide +kernel
  have inside (n) (set : marks mask n) : n < maxNodeId.toNat := by
    have places : ∀ n ∈ marked mask, n < maxNodeId.toNat := by decide +kernel
    exact places n (memMarked.mpr set)
  obtain ⟨length, own, rest, split, counted, -, exact_, -⟩ := markedNodesRead payload .controller data read
  obtain ⟨same, -⟩ : own = mask ∧ rest = [0x05, 0x00] := by
    simp only [payload, data, List.cons.injEq, true_and] at split
    rw [← split.1] at counted
    exact List.append_inj split.2.symm counted
  subst same
  exact ⟨read, inside, exact_.mpr inside⟩

/- A bit behind the highest id is read as an id that no node has, and farther behind as the id of another node. -/
theorem longMaskWraps :
    let mask : Bytes := 0x01 :: (List.replicate 28 0x00 ++ [0x01, 0x00, 0x80, 0x01])
    let payload : Bytes := 0x05 :: 0x08 :: 0x21 :: (mask ++ [0x05, 0x00])
    let ids : List NodeId := [1, 233, 0, 1]
    Message.ofFrame (.response FunctionId.initData payload) .controller = .initData ⟨0x05, 0x08, ids, 0x05, 0x00⟩ ∧
      ¬ ids.Pairwise (· < ·) ∧ ¬ ∀ id ∈ ids, 1 ≤ id ∧ id ≤ maxNodeId := by
  decide +kernel

end ZWaveHost
