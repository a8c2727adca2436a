import Mathlib.Algebra.Group.Nat.Defs
import Mathlib.Data.List.Forall2
import Mathlib.Tactic.SplitIfs
import ZWaveHost.Text

/-! Text that was written is read back, whatever bytes follow it. A lead byte is known by its value alone; the bytes
behind it are within its range because a character is neither a surrogate nor written longer than it must be. Whatever
text is read from some bytes, it is written in no more of them, and has no zero character where they have no zero. -/
namespace ZWaveHost

theorem mappedEach {α β : Type} {f : α → Option β} {items : List α} {results : List β}
    (mapped : items.mapM f = some results) : List.Forall₂ (fun item result => f item = some result) items results := by
  induction items generalizing results with
  | nil =>
    cases mapped
    exact .nil
  | cons first rest ih =>
    simp only [List.mapM_cons, bind, Option.bind_eq_some_iff] at mapped
    obtain ⟨here, result, others, there, same⟩ := mapped
    cases same
    exact .cons result (ih there)

namespace Text.Utf8

theorem followersOf (lead : UInt8) :
    followers lead =
      if 0xC2 ≤ lead.toNat ∧ lead.toNat ≤ 0xDF then some (1, 0x80, 0xBF)
      else if lead.toNat = 0xE0 then some (2, 0xA0, 0xBF)
      else if lead.toNat = 0xED then some (2, 0x80, 0x9F)
      else if 0xE1 ≤ lead.toNat ∧ lead.toNat ≤ 0xEF then some (2, 0x80, 0xBF)
      else if lead.toNat = 0xF0 then some (3, 0x90, 0xBF)
      else if 0xF1 ≤ lead.toNat ∧ lead.toNat ≤ 0xF3 then some (3, 0x80, 0xBF)
      else if lead.toNat = 0xF4 then some (3, 0x80, 0x8F)
      else none := by
  simp only [followers, UInt8.le_iff_toNat_le, ← UInt8.toNat_inj, Bool.and_eq_true, decide_eq_true_eq]
  rfl

theorem unitsOne {lead : UInt8} (small : lead < 0x80) (rest : Bytes) :
    units (lead :: rest) = some (Char.ofNat lead.toNat) :: units rest := by
  rw [units, if_pos small]

theorem unitsTwo {lead low high first : UInt8} (large : ¬ lead < 0x80) (found : followers lead = some (1, low, high))
    (inside : low ≤ first ∧ first ≤ high) (rest : Bytes) :
    units (lead :: first :: rest) = some (combine (lead.toNat % 0x20) [first]) :: units rest := by
  rw [units, if_neg large, found]
  simp [inside]

theorem unitsThree {lead low high first second : UInt8} (large : ¬ lead < 0x80)
    (found : followers lead = some (2, low, high)) (inside : low ≤ first ∧ first ≤ high)
    (goesOn : isContinuation second) (rest : Bytes) :
    units (lead :: first :: second :: rest) =
      some (combine (lead.toNat % 0x10) [first, second]) :: units rest := by
  rw [units, if_neg large, found]
  simp [inside, goesOn]

theorem unitsFour {lead low high first second third : UInt8} (large : ¬ lead < 0x80)
    (found : followers lead = some (3, low, high)) (inside : low ≤ first ∧ first ≤ high)
    (goesOn : isContinuation second) (goesOn_ : isContinuation third) (rest : Bytes) :
    units (lead :: first :: second :: third :: rest) =
      some (combine (lead.toNat % 0x08) [first, second, third]) :: units rest := by
  rw [units, if_neg large, found]
  simp [inside, goesOn, goesOn_]

theorem byteSize {n : Nat} (small : n < 0x100) : (UInt8.ofNat n).toNat = n := by
  rw [UInt8.toNat_ofNat']
  omega

theorem continues (n : Nat) : isContinuation (UInt8.ofNat (0x80 + n % 0x40)) := by
  have size := @byteSize (0x80 + n % 0x40) (by omega)
  simp only [isContinuation, UInt8.le_iff_toNat_le, size, Bool.and_eq_true, decide_eq_true_eq]
  constructor
  · simp
  · simp
    omega

theorem within {n low high : Nat} (above : low ≤ n) (below : n ≤ high) (small : high < 0x100) :
    UInt8.ofNat low ≤ UInt8.ofNat n ∧ UInt8.ofNat n ≤ UInt8.ofNat high := by
  simp only [UInt8.le_iff_toNat_le]
  rw [byteSize small, byteSize (by omega), byteSize (by omega)]
  exact ⟨above, below⟩

theorem largeLead {n : Nat} (large : 0x80 ≤ n) (small : n < 0x100) : ¬ UInt8.ofNat n < 0x80 := by
  rw [UInt8.lt_iff_toNat_lt, byteSize small]
  simpa using large

theorem combined (c : Char) {high : Nat} {tail : Bytes}
    (value : tail.foldl (fun n byte => n * 0x40 + byte.toNat % 0x40) high = c.toNat) : combine high tail = c := by
  rw [combine, value, Char.ofNat_toNat]

theorem followersThree {n : Nat} (large : 0x800 ≤ n) (small : n < 0x10000) (valid : n < 0xD800 ∨ 0xDFFF < n) :
    ∃ low high, followers (UInt8.ofNat (0xE0 + n / 0x1000)) = some (2, UInt8.ofNat low, UInt8.ofNat high) ∧
      low ≤ 0x80 + n / 0x40 % 0x40 ∧ 0x80 + n / 0x40 % 0x40 ≤ high ∧ high < 0x100 := by
  rw [followersOf, byteSize (by omega), if_neg (by omega)]
  by_cases first : 0xE0 + n / 0x1000 = 0xE0
  · rw [if_pos first]
    exact ⟨0xA0, 0xBF, rfl, by omega⟩
  · rw [if_neg first]
    by_cases surrogate : 0xE0 + n / 0x1000 = 0xED
    · rw [if_pos surrogate]
      exact ⟨0x80, 0x9F, rfl, by omega⟩
    · rw [if_neg surrogate, if_pos (by omega)]
      exact ⟨0x80, 0xBF, rfl, by omega⟩

theorem followersFour {n : Nat} (large : 0x10000 ≤ n) (small : n < 0x110000) :
    ∃ low high, followers (UInt8.ofNat (0xF0 + n / 0x40000)) = some (3, UInt8.ofNat low, UInt8.ofNat high) ∧
      low ≤ 0x80 + n / 0x1000 % 0x40 ∧ 0x80 + n / 0x1000 % 0x40 ≤ high ∧ high < 0x100 := by
  rw [followersOf, byteSize (by omega), if_neg (by omega), if_neg (by omega), if_neg (by omega), if_neg (by omega)]
  by_cases first : 0xF0 + n / 0x40000 = 0xF0
  · rw [if_pos first]
    exact ⟨0x90, 0xBF, rfl, by omega⟩
  · rw [if_neg first]
    by_cases last : 0xF0 + n / 0x40000 = 0xF4
    · rw [if_neg (by omega), if_pos last]
      exact ⟨0x80, 0x8F, rfl, by omega⟩
    · rw [if_pos (by omega)]
      exact ⟨0x80, 0xBF, rfl, by omega⟩

theorem unitsChar (c : Char) (rest : Bytes) : units (encodeChar c ++ rest) = some c :: units rest := by
  have valid : c.toNat < 0xD800 ∨ 0xDFFF < c.toNat ∧ c.toNat < 0x110000 := c.valid
  have last := @byteSize (0x80 + c.toNat % 0x40) (by omega)
  have beforeLast := @byteSize (0x80 + c.toNat / 0x40 % 0x40) (by omega)
  have second := @byteSize (0x80 + c.toNat / 0x1000 % 0x40) (by omega)
  simp only [encodeChar]
  split
  · rename_i one
    have size := byteSize (Nat.lt_trans one (by decide : 0x80 < 0x100))
    rw [List.cons_append, List.nil_append, unitsOne (by rw [UInt8.lt_iff_toNat_lt, size]; exact one), size,
      Char.ofNat_toNat]
  · split
    · rename_i large two
      have lead := @byteSize (0xC0 + c.toNat / 0x40) (by omega)
      have found : followers (UInt8.ofNat (0xC0 + c.toNat / 0x40)) = some (1, 0x80, 0xBF) := by
        rw [followersOf, lead, if_pos (by omega)]
      have inside := @within (0x80 + c.toNat % 0x40) 0x80 0xBF (by omega) (by omega) (by decide)
      refine (unitsTwo (largeLead (by omega) (by omega)) found inside rest).trans ?_
      rw [combined c]
      simp only [List.foldl_cons, List.foldl_nil, lead, last]
      omega
    · split
      · rename_i large three
        have lead := @byteSize (0xE0 + c.toNat / 0x1000) (by omega)
        obtain ⟨low, high, found, above, below, small⟩ := @followersThree c.toNat (by omega) three (by omega)
        refine (unitsThree (largeLead (by omega) (by omega)) found (within above below small)
          (continues _) rest).trans ?_
        rw [combined c]
        simp only [List.foldl_cons, List.foldl_nil, lead, beforeLast, last]
        omega
      · rename_i large
        have lead := @byteSize (0xF0 + c.toNat / 0x40000) (by omega)
        obtain ⟨low, high, found, above, below, small⟩ := @followersFour c.toNat (by omega) (by omega)
        refine (unitsFour (largeLead (by omega) (by omega)) found (within above below small)
          (continues _) (continues _) rest).trans ?_
        rw [combined c]
        simp only [List.foldl_cons, List.foldl_nil, lead, second, beforeLast, last]
        omega

theorem unitsEncode (text : List Char) : units (encode text) = text.map some := by
  induction text with
  | nil => rfl
  | cons c rest ih => rw [encode, List.flatMap_cons, unitsChar, List.map_cons, ← ih, encode]

theorem decodeLossyEncode (text : List Char) : decodeLossy (encode text) = text := by
  rw [decodeLossy, unitsEncode, List.map_map]
  exact List.map_id text

theorem charZeroFree {c : Char} (free : c.toNat ≠ 0) : ∀ byte ∈ encodeChar c, byte.toNat ≠ 0 := by
  have valid : c.toNat < 0xD800 ∨ 0xDFFF < c.toNat ∧ c.toNat < 0x110000 := c.valid
  have written {n : Nat} (positive : 0 < n) (small : n < 0x100) : (UInt8.ofNat n).toNat ≠ 0 := by
    rw [byteSize small]
    exact Nat.ne_of_gt positive
  simp only [encodeChar]
  split
  · simpa using written (by omega) (by omega)
  · split
    · simp only [List.forall_mem_cons]
      exact ⟨written (by omega) (by omega), written (by omega) (by omega), List.forall_mem_nil _⟩
    · split
      · simp only [List.forall_mem_cons]
        exact ⟨written (by omega) (by omega), written (by omega) (by omega), written (by omega) (by omega),
          List.forall_mem_nil _⟩
      · simp only [List.forall_mem_cons]
        exact ⟨written (by omega) (by omega), written (by omega) (by omega), written (by omega) (by omega),
          written (by omega) (by omega), List.forall_mem_nil _⟩

theorem zeroFree {text : List Char} (free : ∀ c ∈ text, c.toNat ≠ 0) : ∀ byte ∈ encode text, byte ≠ 0 := by
  intro byte member same
  obtain ⟨c, there, written⟩ := List.mem_flatMap.mp member
  exact charZeroFree (free c there) byte written (same ▸ rfl)

theorem ofNatValid {n : Nat} (valid : n.isValidChar) : (Char.ofNat n).toNat = n := by
  have same : Char.ofNat n = Char.ofNatAux n valid := dif_pos valid
  exact congrArg Char.toNat same

theorem ofNatBelow (n : Nat) : (Char.ofNat n).toNat ≤ n := by
  by_cases valid : n.isValidChar
  · exact Nat.le_of_eq (ofNatValid valid)
  · have zero : (Char.ofNat n).toNat = 0 := congrArg Char.toNat (dif_neg valid)
    exact Nat.le_trans (Nat.le_of_eq zero) (Nat.zero_le n)

theorem charSize (c : Char) :
    (encodeChar c).length ≤ 4 ∧ (c.toNat < 0x10000 → (encodeChar c).length ≤ 3) ∧
      (c.toNat < 0x800 → (encodeChar c).length ≤ 2) ∧ (c.toNat < 0x80 → (encodeChar c).length ≤ 1) := by
  simp only [encodeChar]
  split
  · simp
  · split
    · simp
      omega
    · split <;> simp <;> omega

theorem combinedSize (high : Nat) (tail : Bytes) : (combine high tail).toNat < (high + 1) * 0x40 ^ tail.length := by
  unfold combine
  refine Nat.lt_of_le_of_lt (ofNatBelow _) ?_
  induction tail generalizing high with
  | nil => simp
  | cons byte rest ih =>
    refine Nat.lt_of_lt_of_le (ih _) ?_
    have small : byte.toNat % 0x40 < 0x40 := Nat.mod_lt _ (by decide)
    have step : high * 0x40 + byte.toNat % 0x40 + 1 ≤ (high + 1) * 0x40 := by omega
    rw [List.length_cons, Nat.pow_succ', ← Nat.mul_assoc]
    exact Nat.mul_le_mul_right _ step

theorem encodedCons (c : Char) (units : List (Option Char)) :
    (encode ((some c :: units).filterMap id)).length =
      (encodeChar c).length + (encode (units.filterMap id)).length := by
  simp [encode]

theorem unitsSize (bytes : Bytes) : (encode ((units bytes).filterMap id)).length ≤ bytes.length := by
  fun_induction units bytes with
  | case1 => simp [encode]
  | case2 lead rest small ih =>
    have below : (Char.ofNat lead.toNat).toNat < 0x80 := Nat.lt_of_le_of_lt (ofNatBelow _) (UInt8.lt_iff_toNat_lt.mp small)
    have size := (charSize (Char.ofNat lead.toNat)).2.2.2 below
    rw [encodedCons, List.length_cons]
    omega
  | case5 lead _ _ _ first =>
    have below := combinedSize (lead.toNat % 0x20) [first]
    have size := (charSize (combine (lead.toNat % 0x20) [first])).2.2.1 (by simp at below; omega)
    rw [encodedCons]
    simp only [List.length_cons]
    omega
  | case7 lead _ _ _ first _ second =>
    have below := combinedSize (lead.toNat % 0x10) [first, second]
    have size := (charSize (combine (lead.toNat % 0x10) [first, second])).2.1 (by simp at below; omega)
    rw [encodedCons]
    simp only [List.length_cons]
    omega
  | case9 lead _ _ _ _ _ first _ _ second _ _ third =>
    have size := (charSize (combine (lead.toNat % 0x08) [first, second, third])).1
    rw [encodedCons]
    simp only [List.length_cons]
    omega
  | case3 | case10 | case11 | case12 =>
    simp only [List.filterMap_cons, id, List.length_cons] at *
    omega
  | case4 | case6 | case8 => simp [encode]

theorem decodedSize {bytes : Bytes} {text : List Char} (decoded : decode? bytes = some text) :
    (encode text).length ≤ bytes.length := by
  have all {units : List (Option Char)} {text : List Char}
      (each : List.Forall₂ (fun unit c => id unit = some c) units text) : units.filterMap id = text := by
    induction each with
    | nil => rfl
    | cons here _ ih => rw [List.filterMap_cons, here, ih]
  exact all (mappedEach decoded) ▸ unitsSize bytes

theorem decodedEncode (text : List Char) : decode? (encode text) = some text := by
  rw [decode?, unitsEncode]
  induction text with
  | nil => rfl
  | cons c rest ih => simp_all

theorem followersRange (lead : UInt8) :
    (followers lead).map (fun (count, low, high) => (count, low.toNat, high.toNat)) =
      if 0xC2 ≤ lead.toNat ∧ lead.toNat ≤ 0xDF then some (1, 0x80, 0xBF)
      else if lead.toNat = 0xE0 then some (2, 0xA0, 0xBF)
      else if lead.toNat = 0xED then some (2, 0x80, 0x9F)
      else if 0xE1 ≤ lead.toNat ∧ lead.toNat ≤ 0xEF then some (2, 0x80, 0xBF)
      else if lead.toNat = 0xF0 then some (3, 0x90, 0xBF)
      else if 0xF1 ≤ lead.toNat ∧ lead.toNat ≤ 0xF3 then some (3, 0x80, 0xBF)
      else if lead.toNat = 0xF4 then some (3, 0x80, 0x8F)
      else none := by
  simp only [followersOf, apply_ite (Option.map _)]
  rfl

/- What a lead byte and the byte behind it, in the range that the lead asks for, contribute to a character: never too
little for the bytes that it takes, never a surrogate, and never more than the highest character. -/
theorem followersHigh {lead low high first : UInt8} {count : Nat} (found : followers lead = some (count, low, high))
    (inside : low ≤ first ∧ first ≤ high) :
    (count = 1 ∧ 0x80 ≤ lead.toNat % 0x20 * 0x40 + first.toNat % 0x40) ∨
      (count = 2 ∧ 0x20 ≤ lead.toNat % 0x10 * 0x40 + first.toNat % 0x40 ∧
        ¬ (0x360 ≤ lead.toNat % 0x10 * 0x40 + first.toNat % 0x40 ∧
          lead.toNat % 0x10 * 0x40 + first.toNat % 0x40 < 0x380)) ∨
      (count = 3 ∧ 0x10 ≤ lead.toNat % 0x08 * 0x40 + first.toNat % 0x40 ∧
        lead.toNat % 0x08 * 0x40 + first.toNat % 0x40 < 0x110) := by
  have range := followersRange lead
  rw [UInt8.le_iff_toNat_le, UInt8.le_iff_toNat_le] at inside
  have byte := first.toNat_lt
  rw [found, Option.map_some] at range
  split_ifs at range <;> grind

theorem validZeroFree {n : Nat} (positive : 0 < n) (valid : n < 0xD800 ∨ 0xDFFF < n ∧ n < 0x110000) :
    ∀ c ∈ some (Char.ofNat n), c.toNat ≠ 0 := by
  rintro c ⟨⟩
  rw [ofNatValid valid]
  exact Nat.ne_of_gt positive

theorem unitsZeroFree {bytes : Bytes} (free : ∀ byte ∈ bytes, byte ≠ 0) :
    ∀ unit ∈ units bytes, ∀ c ∈ unit, c.toNat ≠ 0 := by
  fun_induction units bytes with
  | case1 => simp
  | case2 lead rest small ih =>
    obtain ⟨here, later⟩ := List.forall_mem_cons.mp free
    have positive : 0 < lead.toNat := Nat.pos_of_ne_zero fun zero => here (UInt8.toNat_inj.mp zero)
    have below : lead.toNat < 0x80 := UInt8.lt_iff_toNat_lt.mp small
    exact List.forall_mem_cons.mpr ⟨validZeroFree positive (by omega), ih later⟩
  | case5 lead _ _ _ first rest inside found ih =>
    have high := followersHigh found (by simpa using inside)
    have later : ∀ byte ∈ rest, byte ≠ 0 := fun byte there => free byte (by simp [there])
    exact List.forall_mem_cons.mpr ⟨validZeroFree (by simp; omega) (by simp; omega), ih later⟩
  | case7 lead _ _ _ first inside second rest _ found _ ih =>
    have high := followersHigh found (by simpa using inside)
    have later : ∀ byte ∈ rest, byte ≠ 0 := fun byte there => free byte (by simp [there])
    exact List.forall_mem_cons.mpr ⟨validZeroFree (by simp; omega) (by simp; omega), ih later⟩
  | case9 lead _ _ _ _ found first inside _ second _ _ third rest _ ih =>
    have high := followersHigh found (by simpa using inside)
    have later : ∀ byte ∈ rest, byte ≠ 0 := fun byte there => free byte (by simp [there])
    exact List.forall_mem_cons.mpr ⟨validZeroFree (by simp; omega) (by simp; omega), ih later⟩
  | case3 | case10 | case11 | case12 =>
    rename_i ih
    exact List.forall_mem_cons.mpr ⟨nofun, ih fun byte there => free byte (by grind)⟩
  | case4 | case6 | case8 => simp

theorem decodedZeroFree {bytes : Bytes} (free : ∀ byte ∈ bytes, byte ≠ 0) : ∀ c ∈ decodeLossy bytes, c.toNat ≠ 0 := by
  intro c there
  obtain ⟨unit, member, rfl⟩ := List.mem_map.mp there
  cases unit with
  | none => decide
  | some own => exact unitsZeroFree free _ member own rfl

end Text.Utf8

end ZWaveHost
