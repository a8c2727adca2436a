import Mathlib.Data.List.Forall2
import ZWaveHost.Text

/-! The texts of flat JSON objects: objects of strings, booleans, nulls and whole numbers, in every way in which they
may be written. The rules are those of the format and know nothing of how a text is read. -/
namespace ZWaveHost.Json

inductive Scalar
  | null
  | bool (flag : Bool)
  | natural (n : Nat)
  /- A number with a minus sign, `-0` among them. -/
  | negative (n : Nat)
  | text (content : String)
  deriving DecidableEq, Repr

abbrev Field := String × Scalar

namespace Grammar

def Blank (text : List Char) : Prop := ∀ c ∈ text, c ∈ [' ', '\n', '\r', '\t']

instance (text : List Char) : Decidable (Blank text) := List.decidableBAll _ text

inductive HexText (n : Nat) : Char → Prop
  | small : HexText n (Text.Hex.digit n)
  | capital : HexText n (Text.Hex.digit n).toUpper

inductive UnitText (unit : Nat) : List Char → Prop
  | escape {first second third fourth : Char} (highest : HexText (unit / 0x1000) first)
      (higher : HexText (unit / 0x100 % 0x10) second) (lower : HexText (unit / 0x10 % 0x10) third)
      (lowest : HexText (unit % 0x10) fourth) : UnitText unit ['\\', 'u', first, second, third, fourth]

def utf16 (c : Char) : List Nat :=
  if c.toNat < 0x10000 then [c.toNat]
  else [0xD800 + (c.toNat - 0x10000) / 0x400, 0xDC00 + (c.toNat - 0x10000) % 0x400]

def shortEscapes : List (Char × Char) :=
  [('"', '"'), ('\\', '\\'), ('/', '/'), ('b', '\x08'), ('f', '\x0c'), ('n', '\n'), ('r', '\r'), ('t', '\t')]

inductive CharText (c : Char) : List Char → Prop
  | plain (visible : ' ' ≤ c) (noQuote : c ≠ '"') (noBackslash : c ≠ '\\') : CharText c [c]
  | short {letter : Char} (known : (letter, c) ∈ shortEscapes) : CharText c ['\\', letter]
  | units {escapes : List (List Char)} (each : List.Forall₂ UnitText (utf16 c) escapes) : CharText c escapes.flatten

inductive CharsText : List Char → List Char → Prop
  | nil : CharsText [] []
  | cons {c : Char} {content piece rest : List Char} (first : CharText c piece) (others : CharsText content rest) :
      CharsText (c :: content) (piece ++ rest)

inductive StringText (content : String) : List Char → Prop
  | quoted {inside : List Char} (chars : CharsText content.toList inside) : StringText content ('"' :: inside ++ ['"'])

inductive ScalarText : Scalar → List Char → Prop
  | null : ScalarText .null ['n', 'u', 'l', 'l']
  | yes : ScalarText (.bool true) ['t', 'r', 'u', 'e']
  | no : ScalarText (.bool false) ['f', 'a', 'l', 's', 'e']
  | natural (n : Nat) : ScalarText (.natural n) (Nat.toDigits 10 n)
  | negative (n : Nat) : ScalarText (.negative n) ('-' :: Nat.toDigits 10 n)
  | text {content : String} {text : List Char} (quoted : StringText content text) : ScalarText (.text content) text

inductive FieldText : Field → List Char → Prop
  | pair {key : String} {value : Scalar} {before keyText after gap valueText behind : List Char}
      (ahead : Blank before) (named : StringText key keyText) (toColon : Blank after) (toValue : Blank gap)
      (holds : ScalarText value valueText) (toEnd : Blank behind) :
      FieldText (key, value) (before ++ (keyText ++ (after ++ ':' :: (gap ++ (valueText ++ behind)))))

inductive FieldsText : List Field → List Char → Prop
  | last {field : Field} {text : List Char} (written : FieldText field text) : FieldsText [field] text
  | more {field : Field} {text : List Char} {fields : List Field} {rest : List Char} (written : FieldText field text)
      (others : FieldsText fields rest) : FieldsText (field :: fields) (text ++ ',' :: rest)

inductive ObjectText : List Field → List Char → Prop
  | empty {before inside behind : List Char} (ahead : Blank before) (nothing : Blank inside) (after : Blank behind) :
      ObjectText [] (before ++ '\x7b' :: (inside ++ '\x7d' :: behind))
  | filled {fields : List Field} {before inside behind : List Char} (ahead : Blank before)
      (written : FieldsText fields inside) (after : Blank behind) :
      ObjectText fields (before ++ '\x7b' :: (inside ++ '\x7d' :: behind))

end Grammar

end ZWaveHost.Json
