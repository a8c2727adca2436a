import ZWaveHost.Json.Value
import ZWaveHost.Proofs.Json.Lexer

/-! Flat objects as values and as texts. Every text of such an object is read as its fields, in order; what the library
writes is one of these texts. -/
namespace ZWaveHost.Json
open Grammar

def Scalar.value : Scalar → Value
  | .null => .null
  | .bool flag => .bool flag
  | .natural n => .number (some n)
  | .negative _ => .number none
  | .text content => .text (some content)

def entryOf (field : Field) : Entry := (some field.1, field.2.value)

theorem readScalar (stack : List Open) (value : Scalar) :
    Reading.begin? stack value.token = some ⟨stack, .rest value.value⟩ := by
  cases value <;> rfl

theorem readField (stack : List Open) (done : List Entry) (field : Field) :
    (fieldTokens field).foldlM Reading.step ⟨stack, .key done⟩ =
      some ⟨.entries done (some field.1) :: stack, .rest field.2.value⟩ := by
  simp [fieldTokens, Reading.step, readScalar]

theorem readFields (stack : List Open) (done : List Entry) {fields : List Field} (filled : fields ≠ []) :
    (closingTokens fields).foldlM Reading.step ⟨stack, .key done⟩ =
      some ⟨stack, .rest (.object (done ++ fields.map entryOf))⟩ := by
  fun_induction closingTokens fields generalizing done with
  | case1 => exact absurd rfl filled
  | case2 field => simp [List.foldlM_append, readField, Reading.step, Reading.continue?, entryOf]
  | case3 field other rest others =>
    have further := others (done ++ [(some field.1, field.2.value)]) (by simp)
    simp [List.foldlM_append, readField, Reading.step, Reading.continue?, further, entryOf]

theorem readClosing (stack : List Open) (fields : List Field) :
    (closingTokens fields).foldlM Reading.step ⟨stack, .firstKey⟩ =
      some ⟨stack, .rest (.object (fields.map entryOf))⟩ := by
  match fields with
  | [] => rfl
  | [field] => exact readFields stack [] (List.cons_ne_nil field [])
  | field :: other :: rest => exact readFields stack [] (List.cons_ne_nil field (other :: rest))

theorem readObject {fields : List Field} {text : List Char} (written : ObjectText fields text) :
    parse? text = some (.object (fields.map entryOf)) := by
  have begins : Reading.step {} .openBrace = some ⟨[], .firstKey⟩ := rfl
  simp [parse?, tokensOf written, ofTokens?, begins, readClosing]

theorem controlText {c : Char} (control : c < ' ') :
    CharText c ['\\', 'u', '0', '0', Text.Hex.digit (c.toNat / 16), Text.Hex.digit (c.toNat % 16)] := by
  have small : c.toNat < 0x20 := control
  have single : utf16 c = [c.toNat] := if_pos (by omega)
  have zero {n : Nat} (nothing : n = 0) : HexText n '0' := nothing ▸ .small
  have sixteens : HexText (c.toNat / 0x10 % 0x10) (Text.Hex.digit (c.toNat / 16)) := by
    rw [Nat.mod_eq_of_lt (by omega)]
    exact .small
  have unit : UnitText c.toNat
      ['\\', 'u', '0', '0', Text.Hex.digit (c.toNat / 16), Text.Hex.digit (c.toNat % 16)] :=
    .escape (zero (by omega)) (zero (by omega)) sixteens .small
  have each : List.Forall₂ UnitText [c.toNat] [_] := .cons unit .nil
  rw [← single] at each
  exact .units each

theorem escapeText (c : Char) : CharText c (Written.escape c) := by
  have short {letter other : Char} (known : (letter, other) ∈ shortEscapes) (same : c = other) :
      CharText c ['\\', letter] := .short (same ▸ known)
  unfold Written.escape
  split_ifs with quote backslash backspace feed newline carriage tab control
  · exact short (by decide) quote
  · exact short (by decide) backslash
  · exact short (by decide) backspace
  · exact short (by decide) feed
  · exact short (by decide) newline
  · exact short (by decide) carriage
  · exact short (by decide) tab
  · exact controlText control
  · exact .plain (Char.not_lt.mp control) quote backslash

theorem charsText (content : List Char) : CharsText content (content.flatMap Written.escape) := by
  induction content with
  | nil => exact .nil
  | cons c content others => exact .cons (escapeText c) others

theorem stringText (content : String) : StringText content (Written.text content) := .quoted (charsText content.toList)

theorem boolText (flag : Bool) : ScalarText (.bool flag) (Written.bool flag) := by
  cases flag
  · exact .no
  · exact .yes

def Shows (field : Field) (entry : String × List Char) : Prop := field.1 = entry.1 ∧ ScalarText field.2 entry.2

theorem lineText {field : Field} {entry : String × List Char} (shows : Shows field entry) {behind : List Char}
    (blank : Blank behind) : FieldText field (Written.line entry ++ behind) := by
  obtain ⟨key, value⟩ := field
  obtain ⟨rfl, holds⟩ := shows
  have indent : Blank ['\n', ' ', ' '] := by decide
  have gap : Blank [' '] := by decide
  have nothing : Blank [] := by decide
  simpa [Written.line] using FieldText.pair indent (stringText entry.1) nothing gap holds blank

theorem linesText {fields : List Field} {entries : List (String × List Char)}
    (shown : List.Forall₂ Shows fields entries) (filled : fields ≠ []) :
    FieldsText fields ([','].intercalate (entries.map Written.line) ++ ['\n']) := by
  have newline : Blank ['\n'] := by decide
  have nothing : Blank [] := by decide
  induction shown with
  | nil => exact absurd rfl filled
  | @cons field entry fields entries first others rest =>
    cases others with
    | nil => simpa using FieldsText.last (lineText first newline)
    | cons second more =>
      have head := lineText first nothing
      rw [List.append_nil] at head
      simpa [List.intercalate_cons_cons] using FieldsText.more head (rest (List.cons_ne_nil _ _))

theorem objectText {fields : List Field} {entries : List (String × List Char)}
    (shown : List.Forall₂ Shows fields entries) : ObjectText fields (Written.object entries) := by
  have nothing : Blank [] := by decide
  cases shown with
  | nil =>
    have newline : Blank ['\n'] := by decide
    exact .empty nothing newline nothing
  | cons first others =>
    have lines := linesText (.cons first others) (List.cons_ne_nil _ _)
    simpa [Written.object] using ObjectText.filled nothing lines nothing

end ZWaveHost.Json
