import ZWaveHost.Text

/-!
MessagePack values. A reader takes one value from the front and returns the bytes behind it; containers count against a
limit of nested levels, so that reading ends on any input. What is written has the shortest header for its size.
-/
namespace ZWaveHost

namespace MessagePack

inductive Value
  | nil
  | bool (flag : Bool)
  | natural (n : Nat)
  /-- Written with a signed marker, whatever its sign. -/
  | integer (n : Int)
  | float (bytes : Bytes)
  | text (bytes : Bytes)
  | binary (bytes : Bytes)
  | array (items : List Value)
  | map (entries : List (Value × Value))
  | extension (tag : UInt8) (bytes : Bytes)
  deriving Repr

def levels : Nat := 1023

abbrev Reader (α : Type) := Bytes → Option (α × Bytes)

def takeBytes : Nat → Reader Bytes
  | 0, raw => some ([], raw)
  | _ + 1, [] => none
  | n + 1, byte :: raw => do
    let (taken, rest) ← takeBytes n raw
    some (byte :: taken, rest)

def readNatural (width : Nat) : Reader Nat := fun raw => do
  let (digits, rest) ← takeBytes width raw
  some (Wire.BigEndian.decode digits, rest)

def readInteger (width : Nat) : Reader Int := fun raw => do
  let (n, rest) ← readNatural width raw
  some (if 2 * n < Wire.BigEndian.bound width then (n : Int) else (n : Int) - Wire.BigEndian.bound width, rest)

def readMany {α : Type} (one : Reader α) : Nat → Reader (List α)
  | 0, raw => some ([], raw)
  | n + 1, raw => do
    let (first, raw) ← one raw
    let (others, rest) ← readMany one n raw
    some (first :: others, rest)

def readCounted (width : Nat) : Reader Bytes := fun raw => do
  let (n, raw) ← readNatural width raw
  takeBytes n raw

def readPair {α : Type} (one : Reader α) : Reader (α × α) := fun raw => do
  let (key, raw) ← one raw
  let (value, rest) ← one raw
  some ((key, value), rest)

def readExtension (size : Nat) : Reader Value := fun raw => do
  let (tag, raw) ← takeBytes 1 raw
  let (bytes, rest) ← takeBytes size raw
  some (.extension (tag.headD 0) bytes, rest)

def mapped {α β : Type} (f : α → β) (read : Reader α) : Reader β := fun raw => (read raw).map fun (a, rest) => (f a, rest)

def readItems (one : Reader Value) (size : Nat) : Reader Value := mapped .array (readMany one size)

def readEntries (one : Reader Value) (size : Nat) : Reader Value := mapped .map (readMany (readPair one) size)

def readSized (width : Nat) (read : Nat → Reader Value) : Reader Value := fun raw => do
  let (size, raw) ← readNatural width raw
  read size raw

def readScalar (marker : Nat) : Reader Value :=
  if marker < 0x80 then fun raw => some (.natural marker, raw)
  else if 0xA0 ≤ marker && marker < 0xC0 then mapped .text (takeBytes (marker - 0xA0))
  else if 0xE0 ≤ marker then fun raw => some (.integer ((marker : Int) - 256), raw)
  else match marker with
    | 0xC0 => fun raw => some (.nil, raw)
    | 0xC2 => fun raw => some (.bool false, raw)
    | 0xC3 => fun raw => some (.bool true, raw)
    | 0xC4 => mapped .binary (readCounted 1)
    | 0xC5 => mapped .binary (readCounted 2)
    | 0xC6 => mapped .binary (readCounted 4)
    | 0xCA => mapped .float (takeBytes 4)
    | 0xCB => mapped .float (takeBytes 8)
    | 0xCC => mapped .natural (readNatural 1)
    | 0xCD => mapped .natural (readNatural 2)
    | 0xCE => mapped .natural (readNatural 4)
    | 0xCF => mapped .natural (readNatural 8)
    | 0xD0 => mapped .integer (readInteger 1)
    | 0xD1 => mapped .integer (readInteger 2)
    | 0xD2 => mapped .integer (readInteger 4)
    | 0xD3 => mapped .integer (readInteger 8)
    | 0xD9 => mapped .text (readCounted 1)
    | 0xDA => mapped .text (readCounted 2)
    | 0xDB => mapped .text (readCounted 4)
    | _ => fun _ => none

def readContainer (one : Reader Value) (marker : Nat) : Option (Reader Value) :=
  if 0x80 ≤ marker && marker < 0x90 then some (readEntries one (marker - 0x80))
  else if 0x90 ≤ marker && marker < 0xA0 then some (readItems one (marker - 0x90))
  else match marker with
    | 0xC7 => some (readSized 1 readExtension)
    | 0xC8 => some (readSized 2 readExtension)
    | 0xC9 => some (readSized 4 readExtension)
    | 0xD4 => some (readExtension 1)
    | 0xD5 => some (readExtension 2)
    | 0xD6 => some (readExtension 4)
    | 0xD7 => some (readExtension 8)
    | 0xD8 => some (readExtension 16)
    | 0xDC => some (readSized 2 (readItems one))
    | 0xDD => some (readSized 4 (readItems one))
    | 0xDE => some (readSized 2 (readEntries one))
    | 0xDF => some (readSized 4 (readEntries one))
    | _ => none

def readValue : Nat → Reader Value
  | _, [] => none
  | 0, marker :: raw =>
    match readContainer (fun _ => none) marker.toNat with
    | some _ => none
    | none => readScalar marker.toNat raw
  | level + 1, marker :: raw =>
    match readContainer (readValue level) marker.toNat with
    | some read => read raw
    | none => readScalar marker.toNat raw

/-- The value at the front of the bytes; what follows it is ignored. -/
def decode? (bytes : Bytes) : Option Value := (readValue levels bytes).map (·.1)

end MessagePack

namespace MessagePack.Written

def byte (n : UInt8) : Bytes := if n < 0x80 then [n] else [0xCC, n]

def bool (flag : Bool) : Bytes := [if flag then 0xC3 else 0xC2]

def textHeader (size : Nat) : Bytes :=
  if size < 32 then [UInt8.ofNat (0xA0 + size)]
  else if size < 0x100 then 0xD9 :: Wire.BigEndian.encode 1 size
  else if size < 0x10000 then 0xDA :: Wire.BigEndian.encode 2 size
  else 0xDB :: Wire.BigEndian.encode 4 size

def text (s : String) : Bytes :=
  let bytes := Text.Utf8.encodeString s
  textHeader bytes.length ++ bytes

def arrayHeader (size : Nat) : Bytes :=
  if size < 16 then [UInt8.ofNat (0x90 + size)]
  else if size < 0x10000 then 0xDC :: Wire.BigEndian.encode 2 size
  else 0xDD :: Wire.BigEndian.encode 4 size

def mapHeader (size : Nat) : Bytes :=
  if size < 16 then [UInt8.ofNat (0x80 + size)]
  else if size < 0x10000 then 0xDE :: Wire.BigEndian.encode 2 size
  else 0xDF :: Wire.BigEndian.encode 4 size

def array (items : List Bytes) : Bytes := arrayHeader items.length ++ items.flatten

def map (entries : List (Bytes × Bytes)) : Bytes :=
  mapHeader entries.length ++ entries.flatMap fun (key, value) => key ++ value

def fields (entries : List (String × Bytes)) : Bytes := map (entries.map fun (name, value) => (text name, value))

end MessagePack.Written

end ZWaveHost
