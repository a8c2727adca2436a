import Mathlib.Data.List.Induction
import ZWaveHost.Archive.Layout

/-! What a table answers after a record is put in, or after many, and that its ids stay in ascending order. -/
namespace ZWaveHost.Table

variable {id : NodeId} {record : NodeRecord} {entries : List (NodeId × NodeRecord)}

theorem lookupCons (key other : NodeId) (kept : NodeRecord) (rest : List (NodeId × NodeRecord)) :
    ((other, kept) :: rest).lookup key = if key = other then some kept else rest.lookup key := by
  by_cases same : key = other
  · simp [same]
  · rw [List.lookup_cons, beq_false_of_ne same, if_neg same]

theorem lookupInserted (id : NodeId) (record : NodeRecord) (entries : List (NodeId × NodeRecord)) (key : NodeId) :
    (insertEntry id record entries).lookup key = if key = id then some record else entries.lookup key := by
  induction entries with
  | nil => rw [insertEntry, lookupCons]
  | cons first rest ih =>
    obtain ⟨other, kept⟩ := first
    unfold insertEntry
    split
    · rw [lookupCons]
    · split
      · rename_i own
        subst own
        rw [lookupCons, lookupCons]
        by_cases same : key = id <;> simp [same]
      · rename_i differ
        rw [lookupCons, lookupCons, ih]
        by_cases here : key = other
        · simp [here, Ne.symm differ]
        · simp [here]

theorem saved (table : Table) (record : NodeRecord) (key : NodeId) :
    (table.save record).get? key = if key = record.nodeId then some record else table.get? key :=
  lookupInserted record.nodeId record table.entries key

theorem memberInserted {entry : NodeId × NodeRecord} (member : entry ∈ insertEntry id record entries) :
    entry = (id, record) ∨ entry ∈ entries := by
  induction entries with
  | nil => exact .inl (List.mem_singleton.mp member)
  | cons first rest ih =>
    unfold insertEntry at member
    split at member
    · exact List.mem_cons.mp member
    · split at member
      · exact (List.mem_cons.mp member).imp_right (List.mem_cons_of_mem first)
      · rcases List.mem_cons.mp member with here | there
        · exact .inr (here ▸ List.mem_cons_self)
        · exact (ih there).imp_right (List.mem_cons_of_mem first)

theorem mappedInserted (id : NodeId) (record : NodeRecord) (entries : List (NodeId × NodeRecord)) (key : NodeId) :
    key ∈ (insertEntry id record entries).map (·.1) ↔ key = id ∨ key ∈ entries.map (·.1) := by
  induction entries with
  | nil => simp [insertEntry]
  | cons first rest ih =>
    unfold insertEntry
    split
    · simp
    · split
      · rename_i own
        simp [own]
      · rw [List.map_cons, List.mem_cons, ih, List.map_cons, List.mem_cons]
        exact or_left_comm

theorem savedIds (table : Table) (record : NodeRecord) (key : NodeId) :
    key ∈ (table.save record).ids ↔ key = record.nodeId ∨ key ∈ table.ids :=
  mappedInserted record.nodeId record table.entries key

theorem foundMember {table : Table} (found : table.get? id = some record) : (id, record) ∈ table.entries := by
  obtain ⟨entries⟩ := table
  unfold get? at found
  induction entries with
  | nil => cases found
  | cons first rest ih =>
    obtain ⟨other, kept⟩ := first
    rw [lookupCons] at found
    split at found
    · rename_i same
      cases found
      exact same ▸ List.mem_cons_self
    · exact List.mem_cons_of_mem _ (ih found)

def Ascending (entries : List (NodeId × NodeRecord)) : Prop := entries.Pairwise fun before later => before.1 < later.1

def Sorted (table : Table) : Prop := Ascending table.entries

theorem ascendingInserted (ascending : Ascending entries) : Ascending (insertEntry id record entries) := by
  induction entries with
  | nil => exact List.pairwise_singleton _ _
  | cons first rest ih =>
    obtain ⟨below, ascendingRest⟩ := List.pairwise_cons.mp ascending
    unfold insertEntry
    split
    · rename_i small
      refine List.pairwise_cons.mpr ⟨fun entry member => ?_, ascending⟩
      rcases List.mem_cons.mp member with here | there
      · exact here ▸ small
      · exact UInt8.lt_trans small (below entry there)
    · split
      · rename_i own
        exact List.pairwise_cons.mpr ⟨fun entry member => own ▸ below entry member, ascendingRest⟩
      · rename_i large differ
        have above : first.1 < id := by
          rw [UInt8.lt_iff_toNat_lt] at large ⊢
          rw [← UInt8.toNat_inj] at differ
          omega
        refine List.pairwise_cons.mpr ⟨fun entry member => ?_, ih ascendingRest⟩
        rcases memberInserted member with same | there
        · exact same ▸ above
        · exact below entry there

theorem Sorted.insert {table : Table} (sorted : table.Sorted) (id : NodeId) (record : NodeRecord) :
    (table.insert id record).Sorted := ascendingInserted sorted

theorem insertedLast (greater : ∀ entry ∈ entries, entry.1 < id) :
    insertEntry id record entries = entries ++ [(id, record)] := by
  induction entries with
  | nil => rfl
  | cons first rest ih =>
    obtain ⟨below, others⟩ := List.forall_mem_cons.mp greater
    have large : ¬ id < first.1 := UInt8.lt_asymm below
    have differ : id ≠ first.1 := (UInt8.ne_of_lt below).symm
    rw [insertEntry, if_neg large, if_neg differ, ih others]
    rfl

/- Ids are bytes, so there are no more entries than bytes from the first id on. -/
theorem ascendingSize (ascending : Ascending entries) {low : Nat} (above : ∀ entry ∈ entries, low ≤ entry.1.toNat) :
    entries.length ≤ 256 - low := by
  induction entries generalizing low with
  | nil => exact Nat.zero_le _
  | cons first rest ih =>
    obtain ⟨below, ascendingRest⟩ := List.pairwise_cons.mp ascending
    have size := ih ascendingRest fun entry member => UInt8.lt_iff_toNat_lt.mp (below entry member)
    have here := above first List.mem_cons_self
    have byte := first.1.toNat_lt
    rw [List.length_cons]
    omega

theorem Sorted.size {table : Table} (sorted : table.Sorted) : table.entries.length ≤ 256 :=
  ascendingSize sorted fun _ _ => Nat.zero_le _

theorem insertedAgain {entries : List (NodeId × NodeRecord)} (ascending : Ascending entries)
    (found : entries.lookup id = some record) : insertEntry id record entries = entries := by
  induction entries with
  | nil => cases found
  | cons first rest ih =>
    obtain ⟨other, kept⟩ := first
    obtain ⟨below, ascendingRest⟩ := List.pairwise_cons.mp ascending
    rw [lookupCons] at found
    unfold insertEntry
    split at found
    · rename_i own
      cases found
      rw [if_neg (own ▸ UInt8.lt_irrefl _), if_pos own, own]
    · rename_i differ
      have above : other < id := below (id, record) (@foundMember id record ⟨rest⟩ found)
      rw [if_neg (UInt8.lt_asymm above), if_neg differ, ih ascendingRest found]

theorem Sorted.savedAgain {table : Table} (sorted : table.Sorted) (found : table.get? record.nodeId = some record) :
    table.save record = table :=
  congrArg Table.mk (insertedAgain sorted found)

theorem ofRecordsSnoc (records : List NodeRecord) (record : NodeRecord) :
    ofRecords (records ++ [record]) = (ofRecords records).save record := by
  simp [ofRecords]

theorem ofRecordsHolds {holds : Table → Prop} (empty : holds {})
    (save : ∀ table record, holds table → holds (table.save record)) (records : List NodeRecord) :
    holds (ofRecords records) := by
  induction records using List.reverseRecOn with
  | nil => exact empty
  | append_singleton before record ih => exact ofRecordsSnoc before record ▸ save _ record ih

theorem ofRecordsSorted (records : List NodeRecord) : (ofRecords records).Sorted :=
  ofRecordsHolds .nil (fun _ record sorted => sorted.insert record.nodeId record) records

theorem ofRecordsUnder (records : List NodeRecord) : ∀ entry ∈ (ofRecords records).entries, entry.1 = entry.2.nodeId := by
  refine @ofRecordsHolds (fun table => ∀ entry ∈ table.entries, entry.1 = entry.2.nodeId) (List.forall_mem_nil _)
    (fun table record under entry member => ?_) records
  rcases memberInserted member with here | there
  · exact here ▸ rfl
  · exact under entry there

theorem ofRecordsLast (records : List NodeRecord) (id : NodeId) :
    (ofRecords records).get? id = (records.filter (·.nodeId = id)).getLast? := by
  induction records using List.reverseRecOn with
  | nil => rfl
  | append_singleton before record ih =>
    rw [ofRecordsSnoc, saved, ih, List.filter_append]
    by_cases same : record.nodeId = id
    · simp [same]
    · simp [same, Ne.symm same]

theorem Sorted.ids {table : Table} (sorted : table.Sorted) : table.ids.Pairwise (· < ·) :=
  List.pairwise_map.mpr sorted

end ZWaveHost.Table
