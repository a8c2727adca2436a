import ZWaveHost.Json.Token
import ZWaveHost.Text

/-!
JSON values, read from tokens one by one, and the text of strings and flat objects. What is still open while reading stands
on a stack, so that nesting has no limit.
-/
namespace ZWaveHost

namespace Json

/-- Values as far as reading settings needs them: of a number only whether it is natural, and which. -/
inductive Value
  | null
  | bool (flag : Bool)
  | number (value : Option Nat)
  | text (content : Option String)
  | array (items : List Value)
  | object (entries : List (Option String × Value))
  deriving Repr

abbrev Entry := Option String × Value

inductive Open
  | items (done : List Value)
  | entries (done : List Entry) (key : Option String)
  deriving Repr

inductive Awaiting
  | value
  | firstItem
  | firstKey
  | key (done : List Entry)
  | colon (done : List Entry) (key : Option String)
  | rest (complete : Value)
  deriving Repr

structure Reading where
  stack : List Open := []
  awaiting : Awaiting := .value
  deriving Repr

namespace Reading

def begin? (stack : List Open) : Token → Option Reading
  | .null => some ⟨stack, .rest .null⟩
  | .bool flag => some ⟨stack, .rest (.bool flag)⟩
  | .number value => some ⟨stack, .rest (.number value)⟩
  | .text content => some ⟨stack, .rest (.text content)⟩
  | .openBracket => some ⟨stack, .firstItem⟩
  | .openBrace => some ⟨stack, .firstKey⟩
  | _ => none

def continue? (value : Value) : List Open → Token → Option Reading
  | .items done :: stack, .comma => some ⟨.items (done ++ [value]) :: stack, .value⟩
  | .items done :: stack, .closeBracket => some ⟨stack, .rest (.array (done ++ [value]))⟩
  | .entries done key :: stack, .comma => some ⟨stack, .key (done ++ [(key, value)])⟩
  | .entries done key :: stack, .closeBrace => some ⟨stack, .rest (.object (done ++ [(key, value)]))⟩
  | _, _ => none

def step (reading : Reading) (token : Token) : Option Reading :=
  match reading.awaiting, token with
  | .value, token => begin? reading.stack token
  | .firstItem, .closeBracket => some ⟨reading.stack, .rest (.array [])⟩
  | .firstItem, token => begin? (.items [] :: reading.stack) token
  | .firstKey, .closeBrace => some ⟨reading.stack, .rest (.object [])⟩
  | .firstKey, .text key => some ⟨reading.stack, .colon [] key⟩
  | .key done, .text key => some ⟨reading.stack, .colon done key⟩
  | .colon done key, .colon => some ⟨.entries done key :: reading.stack, .value⟩
  | .rest value, token => continue? value reading.stack token
  | _, _ => none

end Reading

def ofTokens? (tokens : List Token) : Option Value := do
  match ← tokens.foldlM Reading.step {} with
  | ⟨[], .rest value⟩ => some value
  | _ => none

def parse? (text : List Char) : Option Value := do ofTokens? (← tokens text)

end Json

namespace Json.Written

def escape (c : Char) : List Char :=
  if c = '"' then ['\\', '"']
  else if c = '\\' then ['\\', '\\']
  else if c = '\x08' then ['\\', 'b']
  else if c = '\x0c' then ['\\', 'f']
  else if c = '\n' then ['\\', 'n']
  else if c = '\r' then ['\\', 'r']
  else if c = '\t' then ['\\', 't']
  else if c < ' ' then
    ['\\', 'u', '0', '0', Text.Hex.digit (c.toNat / 16), Text.Hex.digit (c.toNat % 16)]
  else [c]

def text (content : String) : List Char := '"' :: content.toList.flatMap escape ++ ['"']

def natural (n : Nat) : List Char := Nat.toDigits 10 n

def bool (flag : Bool) : List Char :=
  if flag then ['t', 'r', 'u', 'e'] else ['f', 'a', 'l', 's', 'e']

def line (entry : String × List Char) : List Char := '\n' :: ' ' :: ' ' :: text entry.1 ++ ':' :: ' ' :: entry.2

def object (entries : List (String × List Char)) : List Char :=
  '\x7b' :: [','].intercalate (entries.map line) ++ ['\n', '\x7d']

end Json.Written

end ZWaveHost
