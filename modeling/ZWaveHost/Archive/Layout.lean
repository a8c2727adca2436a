import ZWaveHost.Device.Info
import ZWaveHost.MessagePack

/-!
Node info, node records and tables of records by node id as MessagePack. Written, each is a map from field names. Read, the
fields may come in any order, under their name or their number, or as an array in declaration order; unknown fields are
skipped, and a repeated or missing one refuses the whole.
-/
namespace ZWaveHost

structure Table where
  entries : List (NodeId × NodeRecord) := []
  deriving DecidableEq, Repr

namespace Table

def insertEntry (id : NodeId) (record : NodeRecord) :
    List (NodeId × NodeRecord) → List (NodeId × NodeRecord)
  | [] => [(id, record)]
  | (other, kept) :: rest =>
    if id < other then (id, record) :: (other, kept) :: rest
    else if id = other then (id, record) :: rest
    else (other, kept) :: insertEntry id record rest

def insert (table : Table) (id : NodeId) (record : NodeRecord) : Table :=
  ⟨insertEntry id record table.entries⟩

def get? (table : Table) (id : NodeId) : Option NodeRecord := table.entries.lookup id

def ids (table : Table) : List NodeId := table.entries.map (·.1)

def size (table : Table) : Nat := table.entries.length

def save (table : Table) (record : NodeRecord) : Table := table.insert record.nodeId record

def ofRecords (records : List NodeRecord) : Table := records.foldl save {}

def records (table : Table) : List NodeRecord := table.entries.map (·.2)

end Table

namespace Archive

open MessagePack (Value)

def infoFields : List String :=
  ["node_id", "basic_device_class", "generic_device_class", "specific_device_class", "command_classes"]

def recordFields : List String := ["info", "is_listening", "kind"]

def writeInfo (info : NodeInfo) : Bytes :=
  MessagePack.Written.fields (infoFields.zip
    [MessagePack.Written.byte info.nodeId, MessagePack.Written.byte info.deviceClass.basic,
      MessagePack.Written.byte info.deviceClass.generic, MessagePack.Written.byte info.deviceClass.specific,
      MessagePack.Written.array (info.commandClasses.map MessagePack.Written.byte)])

def writeRecord (record : NodeRecord) : Bytes :=
  MessagePack.Written.fields (recordFields.zip
    [writeInfo record.info, MessagePack.Written.bool record.listening, MessagePack.Written.text record.kind])

def writeTable (table : Table) : Bytes :=
  MessagePack.Written.map (table.entries.map fun (id, record) => (MessagePack.Written.byte id, writeRecord record))

def byteOf : Value → Option UInt8
  | .natural n => if n < 256 then some (UInt8.ofNat n) else none
  | .integer n => if 0 ≤ n ∧ n < 256 then some (UInt8.ofNat n.toNat) else none
  | _ => none

def boolOf : Value → Option Bool
  | .bool flag => some flag
  | _ => none

def textOf : Value → Option String
  | .text bytes | .binary bytes => (Text.Utf8.decode? bytes).map String.ofList
  | _ => none

def bytesOf : Value → Option Bytes
  | .array items => items.mapM byteOf
  | .binary bytes => some bytes
  | _ => none

/-- What a key says: which field it names, or that it names none that is known. -/
inductive KeyMeaning
  | known (index : Nat)
  | unknown
  deriving DecidableEq, Repr

def keyMeaning (names : List String) : Value → Option KeyMeaning
  | .text bytes | .binary bytes =>
    some (match names.findIdx? (Text.Utf8.encodeString · = bytes) with
      | some index => .known index
      | none => .unknown)
  | .natural n => some (if n < names.length then .known n else .unknown)
  | _ => none

def place (names : List String) : List (Value × Value) → List (Option Value) → Option (List (Option Value))
  | [], slots => some slots
  | (key, value) :: rest, slots =>
    match keyMeaning names key with
    | none => none
    | some .unknown => place names rest slots
    | some (.known index) =>
      match slots[index]? with
      | some none => place names rest (slots.set index (some value))
      | _ => none

def structOf (names : List String) : Value → Option (List Value)
  | .array items => if items.length = names.length then some items else none
  | .map entries => do (← place names entries (names.map fun _ => none)).mapM id
  | _ => none

def infoOf (value : Value) : Option NodeInfo := do
  match ← structOf infoFields value with
  | [nodeId, basic, generic, specific, classes] =>
    some ⟨← byteOf nodeId, ⟨← byteOf basic, ← byteOf generic, ← byteOf specific⟩, ← bytesOf classes⟩
  | _ => none

def recordOf (value : Value) : Option NodeRecord := do
  match ← structOf recordFields value with
  | [info, listening, kind] => some ⟨← infoOf info, ← boolOf listening, ← textOf kind⟩
  | _ => none

/-- The later of two entries for one id counts. -/
def addEntry (table : Table) (entry : Value × Value) : Option Table := do
  return table.insert (← byteOf entry.1) (← recordOf entry.2)

def tableOf : Value → Option Table
  | .map entries => entries.foldlM addEntry {}
  | _ => none

def read {α : Type} (view : Value → Option α) (bytes : Bytes) : Except Fault α :=
  match (MessagePack.decode? bytes).bind view with
  | some a => .ok a
  | none => .error .archiveUnreadable

end Archive

end ZWaveHost
