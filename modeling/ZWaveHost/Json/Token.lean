/-!
JSON text as tokens. The lexer is one pass over the characters with a mode for what it is in the middle of, so that
lexing a text in two pieces is lexing each of them. What the tokens mean together is not decided here.
-/
namespace ZWaveHost.Json

inductive TextUnit
  | char (c : Char)
  | code (unit : Nat)
  deriving DecidableEq, Repr

inductive Token
  | openBrace
  | closeBrace
  | openBracket
  | closeBracket
  | colon
  | comma
  | text (content : Option String)
  | number (value : Option Nat)
  | bool (flag : Bool)
  | null
  deriving DecidableEq, Repr

def isHighSurrogate (unit : Nat) : Bool := 0xD800 ≤ unit && unit < 0xDC00

def isLowSurrogate (unit : Nat) : Bool := 0xDC00 ≤ unit && unit < 0xE000

def joinSurrogates (high low : Nat) : Char :=
  Char.ofNat (0x10000 + (high - 0xD800) * 0x400 + (low - 0xDC00))

/-- The text of a string; a surrogate counts only as half of a pair of escapes side by side. -/
def joinUnits : List TextUnit → Option (List Char)
  | [] => some []
  | .char c :: rest => (joinUnits rest).map (c :: ·)
  | .code unit :: rest =>
    if isLowSurrogate unit then none
    else if isHighSurrogate unit then
      match rest with
      | .code low :: rest =>
        if isLowSurrogate low then (joinUnits rest).map (joinSurrogates unit low :: ·) else none
      | _ => none
    else (joinUnits rest).map (Char.ofNat unit :: ·)

def afterDigits? : List Char → Option (List Char)
  | [] => none
  | c :: rest => if c.isDigit then some (rest.dropWhile Char.isDigit) else none

def isExponent : List Char → Bool
  | [] => true
  | mark :: rest =>
    let digits := match rest with
      | '+' :: rest | '-' :: rest => rest
      | _ => rest
    (mark = 'e' || mark = 'E') && afterDigits? digits = some []

def isFraction : List Char → Bool
  | '.' :: rest => (afterDigits? rest).any isExponent
  | rest => isExponent rest

def isUnsigned : List Char → Bool
  | '0' :: rest => isFraction rest
  | rest => (afterDigits? rest).any isFraction

def isNumber : List Char → Bool
  | '-' :: rest => isUnsigned rest
  | rest => isUnsigned rest

def digitsValue (digits : List Char) : Nat := digits.foldl (fun n c => n * 10 + (c.toNat - 48)) 0

def wordToken (word : List Char) : Option Token :=
  if word = ['t', 'r', 'u', 'e'] then some (.bool true)
  else if word = ['f', 'a', 'l', 's', 'e'] then some (.bool false)
  else if word = ['n', 'u', 'l', 'l'] then some .null
  else if isNumber word then
    some (.number (if word.all Char.isDigit then some (digitsValue word) else none))
  else none

inductive Mode
  | between
  | word (read : List Char)
  | text (read : List TextUnit)
  | escape (read : List TextUnit)
  | code (read : List TextUnit) (digits : List Nat)
  deriving DecidableEq, Repr

def isBlank (c : Char) : Bool := c = ' ' || c = '\n' || c = '\r' || c = '\t'

def isWordChar (c : Char) : Bool := c.isAlphanum || c = '-' || c = '+' || c = '.'

def escaped? (c : Char) : Option Char :=
  if c = '"' || c = '\\' || c = '/' then some c
  else if c = 'b' then some '\x08'
  else if c = 'f' then some '\x0c'
  else if c = 'n' then some '\n'
  else if c = 'r' then some '\r'
  else if c = 't' then some '\t'
  else none

def hexValue? (c : Char) : Option Nat :=
  if '0' ≤ c && c ≤ '9' then some (c.toNat - 48)
  else if 'a' ≤ c && c ≤ 'f' then some (c.toNat - 87)
  else if 'A' ≤ c && c ≤ 'F' then some (c.toNat - 55)
  else none

def start (c : Char) : Option (Mode × List Token) :=
  if isBlank c then some (.between, [])
  else if c = '\x7b' then some (.between, [.openBrace])
  else if c = '\x7d' then some (.between, [.closeBrace])
  else if c = '[' then some (.between, [.openBracket])
  else if c = ']' then some (.between, [.closeBracket])
  else if c = ':' then some (.between, [.colon])
  else if c = ',' then some (.between, [.comma])
  else if c = '"' then some (.text [], [])
  else if isWordChar c then some (.word [c], [])
  else none

def advance (mode : Mode) (c : Char) : Option (Mode × List Token) :=
  match mode with
  | .between => start c
  | .word read =>
    if isWordChar c then some (.word (read ++ [c]), [])
    else do
      let token ← wordToken read
      let (next, found) ← start c
      some (next, token :: found)
  | .text read =>
    if c = '"' then some (.between, [.text ((joinUnits read).map String.ofList)])
    else if c = '\\' then some (.escape read, [])
    else if c < ' ' then none
    else some (.text (read ++ [.char c]), [])
  | .escape read =>
    if c = 'u' then some (.code read [], [])
    else (escaped? c).map fun plain => (.text (read ++ [.char plain]), [])
  | .code read digits => do
    let digits := digits ++ [← hexValue? c]
    if digits.length < 4 then some (.code read digits, [])
    else some (.text (read ++ [.code (digits.foldl (fun n d => n * 16 + d) 0)]), [])

def lex (mode : Mode) : List Char → Option (Mode × List Token)
  | [] => some (mode, [])
  | c :: rest => do
    let (next, found) ← advance mode c
    let (last, later) ← lex next rest
    some (last, found ++ later)

def tokens (text : List Char) : Option (List Token) := do
  let (last, found) ← lex .between text
  match last with
  | .between => some found
  | .word read => return found ++ [← wordToken read]
  | _ => none

end ZWaveHost.Json
