import Mathlib.Data.List.Induction
import ZWaveHost.Proofs.MessagePack.RoundTrip

/-! Whatever bytes a value was read from, its texts and arrays are no longer than four bytes can count. So what has been
read can be written again. -/
namespace ZWaveHost.MessagePack

def Value.isPlain : Value → Bool
  | .nil | .bool _ | .natural _ | .integer _ | .float _ | .extension .. => true
  | .text _ | .binary _ | .array _ | .map _ => false

inductive Bounded : Value → Prop
  | plain {value} (plain : value.isPlain = true) : Bounded value
  | text {bytes} (short : bytes.length < sizeLimit) : Bounded (.text bytes)
  | binary {bytes} (short : bytes.length < sizeLimit) : Bounded (.binary bytes)
  | array {items} (short : items.length < sizeLimit) (each : ∀ item ∈ items, Bounded item) : Bounded (.array items)
  | map {entries} (keys : ∀ entry ∈ entries, Bounded entry.1) (values : ∀ entry ∈ entries, Bounded entry.2) :
      Bounded (.map entries)

def Gives {α : Type} (read : Reader α) (holds : α → Prop) : Prop := ∀ raw a rest, read raw = some (a, rest) → holds a

theorem Gives.weaken {α : Type} {read : Reader α} {holds holdsToo : α → Prop} (gives : Gives read holds)
    (weaker : ∀ a, holds a → holdsToo a) : Gives read holdsToo :=
  fun raw a rest reads => weaker a (gives raw a rest reads)

theorem givesBytes (n : Nat) : Gives (takeBytes n) (·.length = n) := by
  induction n with
  | zero =>
    rintro raw taken rest ⟨⟩
    rfl
  | succ n ih =>
    intro raw taken rest reads
    cases raw with
    | nil => cases reads
    | cons byte raw =>
      simp only [takeBytes, bind, Option.bind_eq_some_iff] at reads
      obtain ⟨⟨others, behind⟩, takes, same⟩ := reads
      cases same
      simp [ih raw others behind takes]

theorem decodeBound (bytes : Bytes) : Wire.BigEndian.decode bytes < Wire.BigEndian.bound bytes.length := by
  induction bytes using List.reverseRecOn with
  | nil => decide
  | append_singleton before byte ih =>
    have digit := byte.toNat_lt
    rw [Wire.BigEndian.decodeSnoc, List.length_append]
    simp only [List.length_singleton, Wire.BigEndian.bound]
    omega

theorem givesNatural (width : Nat) : Gives (readNatural width) (· < Wire.BigEndian.bound width) := by
  intro raw n rest reads
  simp only [readNatural, bind, Option.bind_eq_some_iff] at reads
  obtain ⟨⟨digits, behind⟩, takes, same⟩ := reads
  cases same
  have size : digits.length = width := givesBytes width raw digits behind takes
  exact size ▸ decodeBound digits

theorem givesCounted (width : Nat) : Gives (readCounted width) (·.length < Wire.BigEndian.bound width) := by
  intro raw bytes rest reads
  simp only [readCounted, bind, Option.bind_eq_some_iff] at reads
  obtain ⟨⟨n, behind⟩, counts, takes⟩ := reads
  have size : bytes.length = n := givesBytes n behind bytes rest takes
  exact size ▸ givesNatural width raw n behind counts

theorem Gives.mapped {α β : Type} {read : Reader α} {f : α → β} {holds : β → Prop}
    (gives : Gives read fun a => holds (f a)) : Gives (mapped f read) holds := by
  intro raw b rest reads
  obtain ⟨⟨a, behind⟩, reads, same⟩ := Option.map_eq_some_iff.mp reads
  cases same
  exact gives raw a rest reads

theorem Gives.pair {α : Type} {one : Reader α} {holds : α → Prop} (gives : Gives one holds) :
    Gives (readPair one) fun (key, value) => holds key ∧ holds value := by
  intro raw pair rest reads
  simp only [readPair, bind, Option.bind_eq_some_iff] at reads
  obtain ⟨⟨key, behind⟩, readsKey, ⟨value, last⟩, readsValue, same⟩ := reads
  cases same
  exact ⟨gives raw key behind readsKey, gives behind value last readsValue⟩

theorem Gives.many {α : Type} {one : Reader α} {holds : α → Prop} (gives : Gives one holds) (n : Nat) :
    Gives (readMany one n) fun items => items.length = n ∧ ∀ item ∈ items, holds item := by
  induction n with
  | zero =>
    rintro raw items rest ⟨⟩
    exact ⟨rfl, List.forall_mem_nil _⟩
  | succ n ih =>
    intro raw items rest reads
    simp only [readMany, bind, Option.bind_eq_some_iff] at reads
    obtain ⟨⟨first, behind⟩, readsFirst, ⟨others, last⟩, readsOthers, same⟩ := reads
    cases same
    obtain ⟨size, each⟩ := ih behind others last readsOthers
    exact ⟨congrArg Nat.succ size, List.forall_mem_cons.mpr ⟨gives raw first behind readsFirst, each⟩⟩

theorem Gives.sized {width : Nat} {read : Nat → Reader Value} {holds : Value → Prop}
    (gives : ∀ size, size < Wire.BigEndian.bound width → Gives (read size) holds) :
    Gives (readSized width read) holds := by
  intro raw value rest reads
  simp only [readSized, bind, Option.bind_eq_some_iff] at reads
  obtain ⟨⟨size, behind⟩, counts, reads⟩ := reads
  exact gives size (givesNatural width raw size behind counts) behind value rest reads

theorem extensionPlain (size : Nat) : Gives (readExtension size) Bounded := by
  intro raw value rest reads
  simp only [readExtension, bind, Option.bind_eq_some_iff] at reads
  obtain ⟨_, _, _, _, same⟩ := reads
  cases same
  exact .plain rfl

theorem plainBounded {α : Type} {f : α → Value} (plain : ∀ a, (f a).isPlain = true) (read : Reader α) :
    Gives (mapped f read) Bounded := by
  have gives : Gives read fun a => Bounded (f a) := fun _ a _ _ => .plain (plain a)
  exact gives.mapped

theorem scalarBounded (marker : Nat) : Gives (readScalar marker) Bounded := by
  have text {width : Nat} (narrow : Wire.BigEndian.bound width ≤ sizeLimit) :
      Gives (mapped .text (readCounted width)) Bounded :=
    ((givesCounted width).weaken fun _ short => .text (Nat.lt_of_lt_of_le short narrow)).mapped
  have binary {width : Nat} (narrow : Wire.BigEndian.bound width ≤ sizeLimit) :
      Gives (mapped .binary (readCounted width)) Bounded :=
    ((givesCounted width).weaken fun _ short => .binary (Nat.lt_of_lt_of_le short narrow)).mapped
  unfold readScalar
  split
  · rintro raw value rest ⟨⟩
    exact .plain rfl
  · split
    · rename_i inMarker
      have size : marker - 0xA0 < sizeLimit := by
        simp only [Bool.and_eq_true, decide_eq_true_eq] at inMarker
        unfold sizeLimit
        omega
      exact ((givesBytes _).weaken fun _ same => .text (same ▸ size)).mapped
    · split
      · rintro raw value rest ⟨⟩
        exact .plain rfl
      · split
        case h_1 | h_2 | h_3 =>
          rintro raw value rest ⟨⟩
          exact .plain rfl
        case h_4 | h_5 | h_6 => exact binary (by decide)
        case h_17 | h_18 | h_19 => exact text (by decide)
        case h_20 => rintro raw value rest ⟨⟩
        all_goals exact plainBounded (fun _ => rfl) _

theorem containerBounded {one read : Reader Value} {marker : Nat} (gives : Gives one Bounded)
    (container : readContainer one marker = some read) : Gives read Bounded := by
  have items {size : Nat} (short : size < sizeLimit) : Gives (readItems one size) Bounded :=
    ((gives.many size).weaken fun _ ⟨same, each⟩ => .array (same ▸ short) each).mapped
  have entries (size : Nat) : Gives (readEntries one size) Bounded :=
    ((gives.pair.many size).weaken fun _ ⟨_, each⟩ =>
      .map (fun entry member => (each entry member).1) fun entry member => (each entry member).2).mapped
  have sizedItems {width : Nat} (narrow : Wire.BigEndian.bound width ≤ sizeLimit) :
      Gives (readSized width (readItems one)) Bounded := .sized fun _ size => items (Nat.lt_of_lt_of_le size narrow)
  unfold readContainer at container
  split at container
  · rw [← Option.some.inj container]
    exact entries _
  · split at container
    · rename_i inMarker
      have size : marker - 0x90 < sizeLimit := by
        simp only [Bool.and_eq_true, decide_eq_true_eq] at inMarker
        unfold sizeLimit
        omega
      rw [← Option.some.inj container]
      exact items size
    · split at container
      case h_13 => cases container
      all_goals rw [← Option.some.inj container]
      case h_1 | h_2 | h_3 => exact .sized fun size _ => extensionPlain size
      case h_9 | h_10 => exact sizedItems (by decide)
      case h_11 | h_12 => exact .sized fun size _ => entries size
      all_goals exact extensionPlain _

/- By induction on the levels: a container holds what was read one level below. -/
theorem readBounded (level : Nat) : Gives (readValue level) Bounded := by
  induction level with
  | zero =>
    intro raw value rest reads
    cases raw with
    | nil => cases reads
    | cons marker raw =>
      simp only [readValue] at reads
      split at reads
      · cases reads
      · exact scalarBounded _ raw value rest reads
  | succ level ih =>
    intro raw value rest reads
    cases raw with
    | nil => cases reads
    | cons marker raw =>
      simp only [readValue] at reads
      split at reads
      · rename_i container
        exact containerBounded ih container raw value rest reads
      · exact scalarBounded _ raw value rest reads

theorem decodedBounded {bytes : Bytes} {value : Value} (decoded : decode? bytes = some value) : Bounded value := by
  obtain ⟨⟨_, rest⟩, reads, same⟩ := Option.map_eq_some_iff.mp decoded
  cases same
  exact readBounded levels bytes _ rest reads

end ZWaveHost.MessagePack
