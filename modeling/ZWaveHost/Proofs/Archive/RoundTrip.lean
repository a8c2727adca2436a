import ZWaveHost.Archive.Layout
import ZWaveHost.Proofs.Archive.Table
import ZWaveHost.Proofs.MessagePack.Sizes

/-! A table that was written is read back. Whatever bytes a table was read from, it is in order and short enough to be
written again. -/
namespace ZWaveHost

structure NodeRecord.Fits (record : NodeRecord) : Prop where
  classes : record.info.commandClasses.length < MessagePack.sizeLimit
  kind : (Text.Utf8.encodeString record.kind).length < MessagePack.sizeLimit

def Table.Fits (table : Table) : Prop := ∀ entry ∈ table.entries, entry.2.Fits

theorem Table.Fits.save {table : Table} {record : NodeRecord} (fits : table.Fits) (fitsRecord : record.Fits) :
    (table.save record).Fits := by
  intro entry member
  rcases Table.memberInserted member with here | there
  · exact here ▸ fitsRecord
  · exact fits entry there

namespace Archive

open MessagePack (Value Reads Bounded sizeLimit named readsByte readsBool readsText readsArray readsMap readsFields)
open Text.Utf8 (encode encodeString)

theorem encodeInjective {text other : String} (same : encodeString text = encodeString other) : text = other := by
  have decoded := congrArg Text.Utf8.decode? same
  simp only [encodeString, Text.Utf8.decodedEncode, Option.some.injEq] at decoded
  exact String.toList_inj.mp decoded

theorem keyFound {done rest : List String} {name : String} (new : name ∉ done) :
    keyMeaning (done ++ name :: rest) (.text (encodeString name)) = some (.known done.length) := by
  have before : done.findIdx? (encodeString · = encodeString name) = none := by
    rw [List.findIdx?_eq_none_iff]
    intro other member
    exact decide_eq_false fun same => new (encodeInjective same ▸ member)
  simp [keyMeaning, List.findIdx?_append, before, List.findIdx?_cons]

/- By induction on the names to come: what was placed before them stays, and each value goes into the first free slot. -/
theorem placeNamed {done todo : List String} {placed values : List Value} (distinct : (done ++ todo).Nodup)
    (sizeDone : placed.length = done.length) (size : values.length = todo.length) :
    place (done ++ todo) ((todo.map fun name => .text (encodeString name)).zip values)
      (placed.map some ++ todo.map fun _ => none) = some ((placed ++ values).map some) := by
  induction todo generalizing done placed values with
  | nil =>
    cases List.length_eq_zero_iff.mp size
    simp [place]
  | cons name rest ih =>
    cases values with
    | nil => cases size
    | cons value others =>
      have new : name ∉ done := fun member => (List.nodup_append.mp distinct).2.2 name member name List.mem_cons_self rfl
      have later := @ih (done ++ [name]) (placed ++ [value]) others (by simpa using distinct) (by simp [sizeDone])
        (Nat.succ.inj size)
      simp only [List.map_cons, List.zip_cons_cons, place, keyFound new]
      simpa [← sizeDone] using later

theorem structNamed {names : List String} {values : List Value} (distinct : names.Nodup)
    (size : values.length = names.length) : structOf names (named names values) = some values := by
  have placed := @placeNamed [] names [] values distinct rfl size
  simp only [List.nil_append, List.map_nil] at placed
  simp only [structOf, named, placed, bind, Option.bind_some]
  clear placed size
  induction values with
  | nil => rfl
  | cons value rest ih => simp_all

theorem byteBack (n : UInt8) : byteOf (.natural n.toNat) = some n := by
  simp [byteOf, n.toNat_lt]

theorem bytesBack (bytes : Bytes) : bytesOf (.array (bytes.map fun n => .natural n.toNat)) = some bytes := by
  unfold bytesOf
  induction bytes with
  | nil => rfl
  | cons first rest ih => simp_all [byteBack]

theorem textBack (text : String) : textOf (.text (encodeString text)) = some text := by
  simp [textOf, encodeString, Text.Utf8.decodedEncode]

def infoValue (info : NodeInfo) : Value :=
  named infoFields [.natural info.nodeId.toNat, .natural info.deviceClass.basic.toNat,
    .natural info.deviceClass.generic.toNat, .natural info.deviceClass.specific.toNat,
    .array (info.commandClasses.map fun n => .natural n.toNat)]

def recordValue (record : NodeRecord) : Value :=
  named recordFields [infoValue record.info, .bool record.listening, .text (encodeString record.kind)]

def tableValue (table : Table) : Value :=
  .map (table.entries.map fun (id, record) => (.natural id.toNat, recordValue record))

theorem infoBack (info : NodeInfo) : infoOf (infoValue info) = some info := by
  have fields {values : List Value} (size : values.length = 5) :
      structOf infoFields (named infoFields values) = some values := structNamed (by decide) size
  simp [infoOf, infoValue, fields, byteBack, bytesBack]

theorem recordBack (record : NodeRecord) : recordOf (recordValue record) = some record := by
  have fields {values : List Value} (size : values.length = 3) :
      structOf recordFields (named recordFields values) = some values := structNamed (by decide) size
  simp [recordOf, recordValue, fields, infoBack, boolOf, textBack]

theorem tableBack {table : Table} (sorted : table.Sorted) : tableOf (tableValue table) = some table := by
  have entries {before rest : List (NodeId × NodeRecord)} (ascending : Table.Ascending (before ++ rest)) :
      (rest.map fun (id, record) => (Value.natural id.toNat, recordValue record)).foldlM addEntry ⟨before⟩ =
        some (⟨before ++ rest⟩ : Table) := by
    induction rest generalizing before with
    | nil => simp
    | cons first rest ih =>
      obtain ⟨id, record⟩ := first
      have greater : ∀ entry ∈ before, entry.1 < id := fun entry member =>
        (List.pairwise_append.mp ascending).2.2 entry member (id, record) List.mem_cons_self
      have later := @ih (before ++ [(id, record)]) (by simpa using ascending)
      simpa [addEntry, byteBack, recordBack, Table.insert, Table.insertedLast greater] using later
  exact @entries [] table.entries sorted

theorem readsBytes (level : Nat) {bytes : Bytes} (short : bytes.length < sizeLimit) :
    Reads (level + 1) (MessagePack.Written.array (bytes.map MessagePack.Written.byte))
      (.array (bytes.map fun n => .natural n.toNat)) := by
  refine readsArray (by simpa using short) ?_
  rw [List.forall₂_map_left_iff, List.forall₂_map_right_iff]
  exact List.forall₂_same.mpr fun n _ => readsByte level n

theorem readsInfo (level : Nat) {info : NodeInfo} (short : info.commandClasses.length < sizeLimit) :
    Reads (level + 2) (writeInfo info) (infoValue info) := by
  have byte := readsByte (level + 1)
  exact readsFields (by decide) (by decide)
    (.cons (byte _) (.cons (byte _) (.cons (byte _) (.cons (byte _) (.cons (readsBytes level short) .nil)))))

theorem readsRecord (level : Nat) {record : NodeRecord} (fits : record.Fits) :
    Reads (level + 3) (writeRecord record) (recordValue record) :=
  readsFields (by decide) (by decide)
    (.cons (readsInfo level fits.classes) (.cons (readsBool _ _) (.cons (readsText _ fits.kind) .nil)))

theorem readsTable (level : Nat) {table : Table} (sorted : table.Sorted) (fits : table.Fits) :
    Reads (level + 4) (writeTable table) (tableValue table) := by
  have size : table.entries.length < sizeLimit := Nat.lt_of_le_of_lt sorted.size (by decide)
  refine readsMap (by simpa using size) ?_
  rw [List.forall₂_map_left_iff, List.forall₂_map_right_iff]
  exact List.forall₂_same.mpr fun entry member => ⟨readsByte _ _, readsRecord level (fits entry member)⟩

theorem readBack {α : Type} {view : Value → Option α} {bytes : Bytes} {value : Value} {a : α}
    (reads : Reads MessagePack.levels bytes value) (back : view value = some a) (rest : Bytes) :
    read view (bytes ++ rest) = .ok a := by
  simp [read, MessagePack.decode?, reads rest, back]

theorem tableRead {table : Table} (sorted : table.Sorted) (fits : table.Fits) (rest : Bytes) :
    read tableOf (writeTable table ++ rest) = .ok table :=
  readBack (readsTable 1019 sorted fits) (tableBack sorted) rest

/-- Node info, a record and a table of records are read back from what is written of them, whatever bytes follow, as long
as four bytes can count the command classes of each and the bytes of each kind. -/
theorem writtenSurvives (rest : Bytes) :
    (∀ info : NodeInfo, info.commandClasses.length < sizeLimit → read infoOf (writeInfo info ++ rest) = .ok info) ∧
      (∀ record : NodeRecord, record.Fits → read recordOf (writeRecord record ++ rest) = .ok record) ∧
      ∀ table : Table, table.Sorted → table.Fits → read tableOf (writeTable table ++ rest) = .ok table := by
  refine ⟨fun info short => ?_, fun record fits => ?_, fun table sorted fits => tableRead sorted fits rest⟩
  · exact readBack (readsInfo 1021 short) (infoBack info) rest
  · exact readBack (readsRecord 1020 fits) (recordBack record) rest

theorem longRecordSurvives :
    let classes : Bytes := List.replicate 300 0xEF
    let record : NodeRecord := ⟨⟨200, ⟨0x04, 0x80, 0xFF⟩, classes⟩, false, "a kind whose name is longer than a marker counts"⟩
    let table : Table := ⟨[(127, record), (128, record)]⟩
    record.Fits ∧ table.Sorted ∧ read infoOf (writeInfo record.info ++ [0xC1]) = .ok record.info ∧
      read recordOf (writeRecord record ++ [0xC1]) = .ok record ∧
      read tableOf (writeTable table ++ [0xC1]) = .ok table := by
  intro classes record table
  have short : classes.length < sizeLimit := Nat.lt_of_le_of_lt (Nat.le_of_eq List.length_replicate) (by decide)
  have fits : record.Fits := ⟨short, by decide +kernel⟩
  have sorted : table.Sorted := List.pairwise_pair.mpr (by decide)
  have fitsTable : table.Fits := by simp [Table.Fits, table, fits]
  obtain ⟨info, whole, tables⟩ := writtenSurvives [0xC1]
  exact ⟨fits, sorted, info _ short, whole record fits, tables table sorted fitsTable⟩

theorem placeBounded {names : List String} {entries : List (Value × Value)} {slots filled : List (Option Value)}
    (placed : place names entries slots = some filled) (each : ∀ entry ∈ entries, Bounded entry.2)
    (held : ∀ value, some value ∈ slots → Bounded value) : ∀ value, some value ∈ filled → Bounded value := by
  induction entries generalizing slots with
  | nil =>
    cases placed
    exact held
  | cons first rest ih =>
    obtain ⟨key, value⟩ := first
    obtain ⟨bounded, others⟩ := List.forall_mem_cons.mp each
    unfold place at placed
    split at placed
    · cases placed
    · exact ih placed others held
    · split at placed
      · refine ih placed others fun other member => ?_
        rcases List.mem_or_eq_of_mem_set member with there | here
        · exact held other there
        · cases here
          exact bounded
      · cases placed

theorem structBounded {names : List String} {value : Value} {values : List Value}
    (found : structOf names value = some values) (bounded : Bounded value) : ∀ field ∈ values, Bounded field := by
  unfold structOf at found
  split at found
  · split at found
    · cases found
      cases bounded with
      | plain no => cases no
      | array _ each => exact each
    · cases found
  · rename_i entries
    obtain ⟨slots, placed, taken⟩ := Option.bind_eq_some_iff.mp found
    cases bounded with
    | plain no => cases no
    | map _ each =>
      have held := placeBounded placed each (by simp)
      have fields := mappedEach taken
      clear placed taken found
      induction fields with
      | nil => exact List.forall_mem_nil _
      | cons here _ ih =>
        cases here
        have others := ih fun value member => held value (List.mem_cons_of_mem _ member)
        exact List.forall_mem_cons.mpr ⟨held _ List.mem_cons_self, others⟩
  · cases found

theorem bytesShort {value : Value} {bytes : Bytes} (found : bytesOf value = some bytes) (bounded : Bounded value) :
    bytes.length < sizeLimit := by
  cases bounded with
  | array short => exact (mappedEach found).length_eq ▸ short
  | binary short =>
    cases found
    exact short
  | text | map => cases found
  | @plain value no => cases value <;> simp [Value.isPlain, bytesOf] at no found

theorem textShort {value : Value} {text : String} (found : textOf value = some text) (bounded : Bounded value) :
    (encodeString text).length < sizeLimit := by
  have decoded {bytes : Bytes} (short : bytes.length < sizeLimit)
      (found : (Text.Utf8.decode? bytes).map String.ofList = some text) : (encodeString text).length < sizeLimit := by
    obtain ⟨chars, decodes, same⟩ := Option.map_eq_some_iff.mp found
    cases same
    rw [encodeString, String.toList_ofList]
    exact Nat.lt_of_le_of_lt (Text.Utf8.decodedSize decodes) short
  cases bounded with
  | text short | binary short => exact decoded short found
  | array | map => cases found
  | @plain value no => cases value <;> simp [Value.isPlain, textOf] at no found

theorem infoShort {value : Value} {info : NodeInfo} (found : infoOf value = some info) (bounded : Bounded value) :
    info.commandClasses.length < sizeLimit := by
  simp only [infoOf, bind, Option.bind_eq_some_iff] at found
  obtain ⟨fields, struct, found⟩ := found
  split at found
  · simp only [Option.bind_eq_some_iff] at found
    obtain ⟨_, _, _, _, _, _, _, _, classes, read, same⟩ := found
    cases same
    exact bytesShort read (structBounded struct bounded _ (by simp))
  · cases found

theorem recordFits {value : Value} {record : NodeRecord} (found : recordOf value = some record)
    (bounded : Bounded value) : record.Fits := by
  simp only [recordOf, bind, Option.bind_eq_some_iff] at found
  obtain ⟨fields, struct, found⟩ := found
  have each := structBounded struct bounded
  split at found
  · simp only [Option.bind_eq_some_iff] at found
    obtain ⟨info, readInfo, _, _, kind, readKind, same⟩ := found
    cases same
    exact ⟨infoShort readInfo (each _ (by simp)), textShort readKind (each _ (by simp))⟩
  · cases found

theorem tableFits {value : Value} {table : Table} (found : tableOf value = some table) (bounded : Bounded value) :
    table.Sorted ∧ table.Fits := by
  have entries {entries : List (Value × Value)} {start table : Table} (added : entries.foldlM addEntry start = some table)
      (each : ∀ entry ∈ entries, Bounded entry.2) (sorted : start.Sorted) (fits : start.Fits) :
      table.Sorted ∧ table.Fits := by
    induction entries generalizing start with
    | nil =>
      cases added
      exact ⟨sorted, fits⟩
    | cons first rest ih =>
      obtain ⟨bounded, others⟩ := List.forall_mem_cons.mp each
      simp only [List.foldlM_cons, addEntry, bind, Option.bind_eq_some_iff] at added
      obtain ⟨next, ⟨id, _, record, read, same⟩, added⟩ := added
      cases same
      refine ih added others (sorted.insert id record) fun entry member => ?_
      rcases Table.memberInserted member with here | there
      · exact here ▸ recordFits read bounded
      · exact fits entry there
  cases bounded with
  | map _ each => exact entries found each .nil (List.forall_mem_nil _)
  | text | binary | array => cases found
  | @plain value no => cases value <;> simp [Value.isPlain, tableOf] at no found

theorem readFits {bytes : Bytes} {table : Table} (reads : read tableOf bytes = .ok table) : table.Sorted ∧ table.Fits := by
  unfold read at reads
  split at reads
  · rename_i found
    cases reads
    obtain ⟨value, decoded, view⟩ := Option.bind_eq_some_iff.mp found
    exact tableFits view (MessagePack.decodedBounded decoded)
  · cases reads

end Archive

end ZWaveHost
