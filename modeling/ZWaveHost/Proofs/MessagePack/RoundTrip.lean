import Mathlib.Data.List.Forall2
import ZWaveHost.MessagePack
import ZWaveHost.Proofs.Text.Utf8

/-! What is written is read back, whatever bytes follow it. A value tells its own end: every reader is followed through
what was written for it, and the bytes behind are left alone. -/
namespace ZWaveHost.MessagePack

open Text.Utf8 (byteSize encodeString)

def Takes {α : Type} (read : Reader α) (bytes : Bytes) (a : α) : Prop :=
  ∀ rest, read (bytes ++ rest) = some (a, rest)

def Reads (level : Nat) (bytes : Bytes) (value : Value) : Prop := Takes (readValue level) bytes value

def sizeLimit : Nat := 2 ^ 32

theorem takesBytes (bytes : Bytes) : Takes (takeBytes bytes.length) bytes bytes := by
  intro rest
  induction bytes with
  | nil => rfl
  | cons first others ih => simp [takeBytes, ih]

theorem takesNatural {width n : Nat} (fits : n < Wire.BigEndian.bound width) :
    Takes (readNatural width) (Wire.BigEndian.encode width n) n := by
  intro rest
  have digits := takesBytes (Wire.BigEndian.encode width n) rest
  rw [Wire.BigEndian.encodeLength] at digits
  simp [readNatural, digits, Wire.BigEndian.decodeEncode fits]

theorem Takes.mapped {α β : Type} {read : Reader α} {bytes : Bytes} {a : α} (takes : Takes read bytes a) (f : α → β) :
    Takes (mapped f read) bytes (f a) := by
  intro rest
  simp [MessagePack.mapped, takes rest]

theorem Takes.pair {α : Type} {one : Reader α} {bytes more : Bytes} {key value : α} (takesKey : Takes one bytes key)
    (takesValue : Takes one more value) : Takes (readPair one) (bytes ++ more) (key, value) := by
  intro rest
  simp [readPair, takesKey _, takesValue _]

theorem takesCounted {width : Nat} {bytes : Bytes} (fits : bytes.length < Wire.BigEndian.bound width) :
    Takes (readCounted width) (Wire.BigEndian.encode width bytes.length ++ bytes) bytes := by
  intro rest
  simp [readCounted, takesNatural fits _, takesBytes bytes _]

theorem takesSized {width size : Nat} {read : Nat → Reader Value} {bytes : Bytes} {value : Value}
    (fits : size < Wire.BigEndian.bound width) (takes : Takes (read size) bytes value) :
    Takes (readSized width read) (Wire.BigEndian.encode width size ++ bytes) value := by
  intro rest
  simp [readSized, takesNatural fits _, takes _]

/- By induction on the items, each of which ends where the next one begins. -/
theorem takesMany {α : Type} {one : Reader α} {written : List Bytes} {items : List α}
    (each : List.Forall₂ (Takes one) written items) : Takes (readMany one items.length) written.flatten items := by
  intro rest
  induction each with
  | nil => rfl
  | cons first _ ih => simp [readMany, first _, ih]

section Values

variable {level : Nat} {marker : UInt8} {bytes : Bytes} {value : Value}

theorem takesScalar (level : Nat) (scalar : ∀ one, readContainer one marker.toNat = none)
    (takes : Takes (readScalar marker.toNat) bytes value) : Reads level (marker :: bytes) value := by
  intro rest
  cases level with
  | zero => simpa [readValue, scalar] using takes rest
  | succ level => simpa [readValue, scalar] using takes rest

theorem takesContainer {read : Reader Value} (container : readContainer (readValue level) marker.toNat = some read)
    (takes : Takes read bytes value) : Reads (level + 1) (marker :: bytes) value := by
  intro rest
  simpa [readValue, container] using takes rest

theorem scalarMarker {marker : Nat} (range : marker < 0x80 ∨ 0xA0 ≤ marker ∧ marker < 0xC0) (one : Reader Value) :
    readContainer one marker = none := by
  simp only [readContainer, Bool.and_eq_true, decide_eq_true_eq]
  rw [if_neg (by omega), if_neg (by omega)]
  split <;> first | omega | rfl

theorem readsByte (level : Nat) (n : UInt8) : Reads level (Written.byte n) (.natural n.toNat) := by
  unfold Written.byte
  split
  · rename_i small
    have bound : n.toNat < 0x80 := UInt8.lt_iff_toNat_lt.mp small
    refine takesScalar level (scalarMarker (.inl bound)) fun rest => ?_
    unfold readScalar
    rw [if_pos bound]
    rfl
  · have size : [n] = Wire.BigEndian.encode 1 n.toNat := by simp [Wire.BigEndian.encode]
    rw [size]
    exact takesScalar level (fun _ => rfl) ((@takesNatural 1 _ n.toNat_lt).mapped Value.natural)

theorem readsBool (level : Nat) (flag : Bool) : Reads level (Written.bool flag) (.bool flag) := by
  cases flag with
  | false => exact @takesScalar 0xC2 [] _ level (fun _ => rfl) fun _ => rfl
  | true => exact @takesScalar 0xC3 [] _ level (fun _ => rfl) fun _ => rfl

theorem readsText (level : Nat) {text : String} (short : (encodeString text).length < sizeLimit) :
    Reads level (Written.text text) (.text (encodeString text)) := by
  have counted (width : Nat) (fits : (encodeString text).length < Wire.BigEndian.bound width) :=
    (takesCounted fits).mapped Value.text
  simp only [Written.text, Written.textHeader]
  split
  · rename_i inMarker
    have marker := @byteSize (0xA0 + (encodeString text).length) (by omega)
    refine takesScalar level (scalarMarker (.inr (by rw [marker]; omega))) ?_
    have reader : readScalar (0xA0 + (encodeString text).length) = mapped .text (takeBytes (encodeString text).length) := by
      unfold readScalar
      rw [if_neg (by omega), if_pos (by simp; omega), Nat.add_sub_cancel_left]
    rw [marker, reader]
    exact (takesBytes _).mapped Value.text
  · split
    · rename_i one
      exact takesScalar level (fun _ => rfl) (counted 1 one)
    · split
      · rename_i two
        exact takesScalar level (fun _ => rfl) (counted 2 two)
      · exact takesScalar level (fun _ => rfl) (counted 4 short)

theorem readsArray {written : List Bytes} {items : List Value} (short : items.length < sizeLimit)
    (each : List.Forall₂ (Reads level) written items) : Reads (level + 1) (Written.array written) (.array items) := by
  have takes : Takes (readItems (readValue level) items.length) written.flatten (.array items) :=
    (takesMany each).mapped Value.array
  simp only [Written.array, Written.arrayHeader, each.length_eq]
  split
  · rename_i inMarker
    have marker := @byteSize (0x90 + items.length) (by omega)
    refine takesContainer ?_ takes
    unfold readContainer
    rw [marker, if_neg (by simp), if_pos (by simp; omega), Nat.add_sub_cancel_left]
  · split
    · rename_i two
      exact takesContainer rfl (@takesSized 2 _ _ _ _ two takes)
    · exact takesContainer rfl (@takesSized 4 _ _ _ _ short takes)

theorem readsMap {written : List (Bytes × Bytes)} {entries : List (Value × Value)} (short : entries.length < sizeLimit)
    (each : List.Forall₂ (fun entry read => Reads level entry.1 read.1 ∧ Reads level entry.2 read.2) written entries) :
    Reads (level + 1) (Written.map written) (.map entries) := by
  have pairs : List.Forall₂ (Takes (readPair (readValue level))) (written.map fun entry => entry.1 ++ entry.2) entries :=
    List.forall₂_map_left_iff.mpr (each.imp fun _ _ both => both.1.pair both.2)
  have takes : Takes (readEntries (readValue level) entries.length) (written.flatMap fun entry => entry.1 ++ entry.2)
      (.map entries) := (takesMany pairs).mapped Value.map
  simp only [Written.map, Written.mapHeader, each.length_eq]
  split
  · rename_i inMarker
    have marker := @byteSize (0x80 + entries.length) (by omega)
    refine takesContainer ?_ takes
    unfold readContainer
    rw [marker, if_pos (by simp; omega), Nat.add_sub_cancel_left]
  · split
    · rename_i two
      exact takesContainer rfl (@takesSized 2 _ _ _ _ two takes)
    · exact takesContainer rfl (@takesSized 4 _ _ _ _ short takes)

def named (names : List String) (values : List Value) : Value :=
  .map ((names.map fun name => .text (encodeString name)).zip values)

theorem readsFields {names : List String} {written : List Bytes} {values : List Value}
    (shortNames : ∀ name ∈ names, (encodeString name).length < sizeLimit) (few : names.length < sizeLimit)
    (each : List.Forall₂ (Reads level) written values) :
    Reads (level + 1) (Written.fields (names.zip written)) (named names values) := by
  refine readsMap (by simp; omega) ?_
  clear few
  induction each generalizing names with
  | nil => simp
  | cons first _ ih =>
    cases names with
    | nil => simp
    | cons name others =>
      obtain ⟨shortName, shortOthers⟩ := List.forall_mem_cons.mp shortNames
      exact .cons ⟨readsText level shortName, first⟩ (ih shortOthers)

end Values

end ZWaveHost.MessagePack
