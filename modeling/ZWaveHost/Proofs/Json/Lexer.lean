import Mathlib.Data.List.TakeWhile
import ZWaveHost.Json.Token
import ZWaveHost.Proofs.Json.Grammar

/-! The lexer takes every text of a flat object for the tokens of its fields, in whatever way the text is written. A
lemma about a piece of text says from which mode to which mode the piece leads, and which tokens it ends; pieces then
follow one another by `lexBoth`. -/
namespace ZWaveHost.Json
open Grammar

theorem lexBoth {mode next last : Mode} {text rest : List Char} {found later : List Token}
    (first : lex mode text = some (next, found)) (second : lex next rest = some (last, later)) :
    lex mode (text ++ rest) = some (last, found ++ later) := by
  induction text generalizing mode found with
  | nil =>
    obtain ⟨rfl, rfl⟩ : mode = next ∧ [] = found := by simpa [lex] using first
    exact second
  | cons c text others =>
    simp only [lex, Option.bind_eq_bind, Option.bind_eq_some_iff, Option.some.injEq, Prod.exists] at first
    obtain ⟨middle, ended, advanced, stop, behind, lexed, same⟩ := first
    obtain ⟨rfl, rfl⟩ : stop = next ∧ ended ++ behind = found := by simpa using same
    simp only [List.cons_append, lex, advanced, others lexed, Option.bind_eq_bind, Option.bind_some,
      List.append_assoc]

theorem lexOne {mode next : Mode} {c : Char} {found : List Token} (advanced : advance mode c = some (next, found)) :
    lex mode [c] = some (next, found) := by
  simp [lex, advanced]

theorem lexCons {mode next last : Mode} {c : Char} {rest : List Char} {found later : List Token}
    (advanced : advance mode c = some (next, found)) (second : lex next rest = some (last, later)) :
    lex mode (c :: rest) = some (last, found ++ later) :=
  lexBoth (lexOne advanced) second

theorem lexBlank {text : List Char} (blank : Blank text) : lex .between text = some (.between, []) := by
  induction text with
  | nil => rfl
  | cons c text others =>
    have first : isBlank c = true := by simpa [isBlank, or_assoc] using blank c (by simp)
    have skips : advance .between c = some (.between, []) := by simp [advance, start, first]
    exact lexCons skips (others fun other there => blank other (by simp [there]))

theorem hexRead {n : Nat} {c : Char} (written : HexText n c) (small : n < 16) : hexValue? c = some n := by
  have both : ∀ n < 16, hexValue? (Text.Hex.digit n) = some n ∧ hexValue? (Text.Hex.digit n).toUpper = some n := by
    decide
  cases written with
  | small => exact (both n small).1
  | capital => exact (both n small).2

theorem lexDigits {first second third fourth : Char} {n₁ n₂ n₃ n₄ : Nat} (highest : hexValue? first = some n₁)
    (higher : hexValue? second = some n₂) (lower : hexValue? third = some n₃) (lowest : hexValue? fourth = some n₄)
    (read : List TextUnit) :
    lex (.code read []) [first, second, third, fourth] =
      some (.text (read ++ [.code (((n₁ * 16 + n₂) * 16 + n₃) * 16 + n₄)]), []) := by
  simp [lex, advance, highest, higher, lower, lowest]

theorem lexUnit {unit : Nat} {piece : List Char} (written : UnitText unit piece) (small : unit < 0x10000)
    (read : List TextUnit) : lex (.text read) piece = some (.text (read ++ [.code unit]), []) := by
  obtain ⟨highest, higher, lower, lowest⟩ := written
  have begins : lex (.text read) ['\\', 'u'] = some (.code read [], []) := rfl
  have digits := lexDigits (hexRead highest (by omega)) (hexRead higher (by omega)) (hexRead lower (by omega))
    (hexRead lowest (by omega)) read
  have whole : ((unit / 0x1000 * 16 + unit / 0x100 % 0x10) * 16 + unit / 0x10 % 0x10) * 16 + unit % 0x10 = unit := by
    omega
  rw [whole] at digits
  exact lexBoth begins digits

theorem lexUnits {units : List Nat} {escapes : List (List Char)} (written : List.Forall₂ UnitText units escapes)
    (small : ∀ unit ∈ units, unit < 0x10000) (read : List TextUnit) :
    lex (.text read) escapes.flatten = some (.text (read ++ units.map .code), []) := by
  induction written generalizing read with
  | nil => simp [lex]
  | @cons unit piece units escapes first others rest =>
    have head := lexUnit first (small unit (by simp)) read
    have tail := rest (fun unit there => small unit (by simp [there])) (read ++ [.code unit])
    simpa using lexBoth head tail

theorem utf16Small (c : Char) : ∀ unit ∈ utf16 c, unit < 0x10000 := by
  have valid : c.toNat < 0xD800 ∨ 0xDFFF < c.toNat ∧ c.toNat < 0x110000 := c.valid
  intro unit there
  unfold utf16 at there
  split at there <;> simp at there <;> omega

def StandFor (c : Char) (units : List TextUnit) : Prop :=
  ∀ more, joinUnits (units ++ more) = (joinUnits more).map (c :: ·)

/- A character in one unit is no surrogate; the two units of another character are a pair. -/
theorem utf16StandFor (c : Char) : StandFor c ((utf16 c).map .code) := by
  intro more
  have valid : c.toNat < 0xD800 ∨ 0xDFFF < c.toNat ∧ c.toNat < 0x110000 := c.valid
  unfold utf16
  split
  · have alone : isLowSurrogate c.toNat = false ∧ isHighSurrogate c.toNat = false := by
      simp [isLowSurrogate, isHighSurrogate]; omega
    rw [List.map_singleton, List.singleton_append, joinUnits.eq_def]
    simp [alone]
  · have high : isHighSurrogate (0xD800 + (c.toNat - 0x10000) / 0x400) = true ∧
        isLowSurrogate (0xD800 + (c.toNat - 0x10000) / 0x400) = false := by
      simp [isLowSurrogate, isHighSurrogate]; omega
    have low : isLowSurrogate (0xDC00 + (c.toNat - 0x10000) % 0x400) = true := by
      simp [isLowSurrogate]; omega
    have joined : joinSurrogates (0xD800 + (c.toNat - 0x10000) / 0x400) (0xDC00 + (c.toNat - 0x10000) % 0x400) = c := by
      have whole : 0x10000 + (0xD800 + (c.toNat - 0x10000) / 0x400 - 0xD800) * 0x400 +
          (0xDC00 + (c.toNat - 0x10000) % 0x400 - 0xDC00) = c.toNat := by omega
      rw [joinSurrogates, whole, Char.ofNat_toNat]
    simp [joinUnits, high, low, joined]

theorem lexChar {c : Char} {piece : List Char} (written : CharText c piece) :
    ∃ units, StandFor c units ∧ ∀ read, lex (.text read) piece = some (.text (read ++ units), []) := by
  have alone : StandFor c [.char c] := fun more => rfl
  cases written with
  | plain visible noQuote noBackslash =>
    exact ⟨[.char c], alone, fun read => lexOne (by simp [advance, noQuote, noBackslash, visible])⟩
  | @short letter known =>
    have means : shortEscapes.all (fun pair => pair.1 ≠ 'u' && escaped? pair.1 = some pair.2) = true := by decide
    obtain ⟨noUnit, stands⟩ : letter ≠ 'u' ∧ escaped? letter = some c := by
      simpa using List.all_eq_true.mp means _ known
    have begins (read : List TextUnit) : advance (.text read) '\\' = some (.escape read, []) := rfl
    have ends (read : List TextUnit) : advance (.escape read) letter = some (.text (read ++ [.char c]), []) := by
      simp [advance, noUnit, stands]
    exact ⟨[.char c], alone, fun read => lexCons (begins read) (lexOne (ends read))⟩
  | units each => exact ⟨(utf16 c).map .code, utf16StandFor c, lexUnits each (utf16Small c)⟩

theorem lexChars {content inside : List Char} (written : CharsText content inside) :
    ∃ units, joinUnits units = some content ∧ ∀ read, lex (.text read) inside = some (.text (read ++ units), []) := by
  induction written with
  | nil => exact ⟨[], rfl, fun read => by simp [lex]⟩
  | @cons c content piece rest first _ others =>
    obtain ⟨head, stand, firstLexed⟩ := lexChar first
    obtain ⟨tail, joined, restLexed⟩ := others
    refine ⟨head ++ tail, by rw [stand tail, joined]; rfl, fun read => ?_⟩
    simpa using lexBoth (firstLexed read) (restLexed (read ++ head))

theorem lexString {content : String} {text : List Char} (written : StringText content text) :
    lex .between text = some (.between, [.text (some content)]) := by
  obtain ⟨chars⟩ := written
  obtain ⟨units, joined, lexed⟩ := lexChars chars
  have opens : advance .between '"' = some (.text [], []) := by decide
  have closes : advance (.text units) '"' = some (.between, [.text (some content)]) := by
    simp [advance, joined]
  exact lexBoth (lexCons opens (lexed [])) (lexOne closes)

theorem digitsLead {n : Nat} (positive : 0 < n) : (Nat.toDigits 10 n).head? ≠ some '0' := by
  induction n using Nat.strongRecOn with
  | ind n smaller =>
    rcases Nat.lt_or_ge n 10 with one | more
    · rw [Nat.toDigits_of_lt_base one]
      simpa using Nat.pos_iff_ne_zero.mp positive
    · rw [Nat.toDigits_of_base_le (by decide) more, List.head?_append_of_ne_nil _ Nat.toDigits_ne_nil]
      exact smaller (n / 10) (by omega) (by omega)

theorem digitsCons (n : Nat) : ∃ c rest, Nat.toDigits 10 n = c :: rest :=
  List.exists_cons_of_ne_nil Nat.toDigits_ne_nil

theorem allDigits (n : Nat) : ∀ c ∈ Nat.toDigits 10 n, c.isDigit = true :=
  fun _ there => Nat.isDigit_of_mem_toDigits (by decide) (by decide) there

theorem unsignedRun {c : Char} {rest : List Char} (noZero : c ≠ '0') (digits : ∀ d ∈ c :: rest, d.isDigit = true) :
    isUnsigned (c :: rest) = true := by
  have first : c.isDigit = true := digits c (by simp)
  have nothing : rest.dropWhile Char.isDigit = [] :=
    List.dropWhile_eq_nil_iff.mpr fun d there => digits d (by simp [there])
  have ends : isFraction [] = true := rfl
  simp [isUnsigned, noZero, afterDigits?, first, nothing, ends]

theorem unsignedDigits (n : Nat) : isUnsigned (Nat.toDigits 10 n) = true := by
  rcases Nat.eq_zero_or_pos n with rfl | positive
  · rfl
  obtain ⟨c, rest, shape⟩ := digitsCons n
  have lead := digitsLead positive
  have digits := allDigits n
  rw [shape] at lead digits ⊢
  exact unsignedRun (by simpa using lead) digits

theorem digitsValueOf (n : Nat) : digitsValue (Nat.toDigits 10 n) = n := by
  have value : Nat.ofDigitChars 10 (Nat.toDigits 10 n) 0 = n := Nat.ofDigitChars_ten_toDigits
  rw [Nat.ofDigitChars_eq_foldl] at value
  simpa only [digitsValue, Nat.mul_comm, show '0'.toNat = 48 from rfl] using value

theorem numberToken {word : List Char} (number : isNumber word = true) :
    wordToken word = some (.number (if word.all Char.isDigit then some (digitsValue word) else none)) := by
  have noName : ∀ name ∈ [['t', 'r', 'u', 'e'], ['f', 'a', 'l', 's', 'e'], ['n', 'u', 'l', 'l']],
      isNumber name = false := by decide
  have other {name : List Char} (noNumber : isNumber name = false) : word ≠ name := by
    rintro rfl
    exact Bool.noConfusion (noNumber.symm.trans number)
  simp [wordToken, other (noName _ (.head _)), other (noName _ (.tail _ (.head _))),
    other (noName _ (.tail _ (.tail _ (.head _)))), number]

theorem naturalToken (n : Nat) : wordToken (Nat.toDigits 10 n) = some (.number (some n)) := by
  have digits : (Nat.toDigits 10 n).all Char.isDigit = true := List.all_eq_true.mpr (allDigits n)
  have number : isNumber (Nat.toDigits 10 n) = true := by
    obtain ⟨c, rest, shape⟩ := digitsCons n
    have noSign : c ≠ '-' := by
      rintro rfl
      exact absurd (allDigits n '-' (by simp [shape])) (by decide)
    have unsigned := unsignedDigits n
    rw [shape] at unsigned ⊢
    simp [isNumber, noSign, unsigned]
  rw [numberToken number, if_pos digits, digitsValueOf]

theorem negativeToken (n : Nat) : wordToken ('-' :: Nat.toDigits 10 n) = some (.number none) := by
  have number : isNumber ('-' :: Nat.toDigits 10 n) = true := unsignedDigits n
  rw [numberToken number]
  rfl

theorem lexWord {read word : List Char} (chars : word.all isWordChar = true) :
    lex (.word read) word = some (.word (read ++ word), []) := by
  induction word generalizing read with
  | nil => simp [lex]
  | cons c word others =>
    obtain ⟨first, rest⟩ := Bool.and_eq_true_iff.mp chars
    have goesOn : advance (.word read) c = some (.word (read ++ [c]), []) := by simp [advance, first]
    simpa using lexCons goesOn (others rest)

theorem noWordChar {marks : List Char} (apart : marks.all (!isWordChar ·) = true) {c : Char} (there : c ∈ marks) :
    isWordChar c = false := by
  simpa using List.all_eq_true.mp apart c there

theorem wordBegins {c : Char} (wordChar : isWordChar c = true) : advance .between c = some (.word [c], []) := by
  have others (d : Char) (there : d ∈ [' ', '\n', '\r', '\t', '\x7b', '\x7d', '[', ']', ':', ',', '"']) : c ≠ d := by
    rintro rfl
    exact Bool.noConfusion ((noWordChar (by decide) there).symm.trans wordChar)
  simp only [List.forall_mem_cons] at others
  simp [advance, start, isBlank, others, wordChar]

theorem wordEnds {word : List Char} {token : Token} {c : Char} {rest : List Char} {last : Mode} {later : List Token}
    (means : wordToken word = some token) (stops : isWordChar c = false)
    (further : lex .between (c :: rest) = some (last, later)) :
    lex (.word word) (c :: rest) = some (last, token :: later) := by
  simp only [lex, advance, Option.bind_eq_bind, Option.bind_eq_some_iff, Option.some.injEq, Prod.exists,
    Prod.mk.injEq] at further
  obtain ⟨next, ended, begins, stop, behind, lexed, rfl, rfl⟩ := further
  simp [lex, advance, stops, means, begins, lexed]

theorem lexName {word : List Char} {token : Token} {c : Char} {rest : List Char} {last : Mode} {later : List Token}
    (chars : word.all isWordChar = true) (means : wordToken word = some token) (stops : isWordChar c = false)
    (further : lex .between (c :: rest) = some (last, later)) :
    lex .between (word ++ c :: rest) = some (last, token :: later) := by
  match word with
  | [] => simp [wordToken, isNumber, isUnsigned, afterDigits?] at means
  | first :: others =>
    obtain ⟨opens, goesOn⟩ := Bool.and_eq_true_iff.mp chars
    have lasts : lex (.word [first]) others = some (.word (first :: others), []) := lexWord goesOn
    exact lexBoth (lexCons (wordBegins opens) lasts) (wordEnds means stops further)

def Scalar.token : Scalar → Token
  | .null => .null
  | .bool flag => .bool flag
  | .natural n => .number (some n)
  | .negative _ => .number none
  | .text content => .text (some content)

theorem lexScalar {value : Scalar} {text : List Char} {c : Char} {rest : List Char} {last : Mode} {later : List Token}
    (written : ScalarText value text) (stops : isWordChar c = false)
    (further : lex .between (c :: rest) = some (last, later)) :
    lex .between (text ++ c :: rest) = some (last, value.token :: later) := by
  have wordDigits (n : Nat) : (Nat.toDigits 10 n).all isWordChar = true :=
    List.all_eq_true.mpr fun c there => by simp [isWordChar, Char.isAlphanum, allDigits n c there]
  cases written with
  | null => exact lexName (by decide) rfl stops further
  | yes => exact lexName (by decide) rfl stops further
  | no => exact lexName (by decide) rfl stops further
  | natural n => exact lexName (wordDigits n) (naturalToken n) stops further
  | negative n => exact lexName (wordDigits n) (negativeToken n) stops further
  | text quoted => exact lexBoth (lexString quoted) further

def fieldTokens (field : Field) : List Token := [.text (some field.1), .colon, field.2.token]

def closingTokens : List Field → List Token
  | [] => [.closeBrace]
  | [field] => fieldTokens field ++ [.closeBrace]
  | field :: other :: rest => fieldTokens field ++ .comma :: closingTokens (other :: rest)

theorem lexBehind {behind : List Char} {c : Char} {token : Token} (blank : Blank behind)
    (separates : start c = some (.between, [token])) : lex .between (behind ++ [c]) = some (.between, [token]) :=
  lexBoth (lexBlank blank) (lexOne separates)

theorem lexHeld {value : Scalar} {text behind : List Char} {c : Char} {token : Token} (written : ScalarText value text)
    (blank : Blank behind) (stops : isWordChar c = false) (separates : start c = some (.between, [token])) :
    lex .between (text ++ (behind ++ [c])) = some (.between, [value.token, token]) := by
  have further := lexBehind blank separates
  match behind with
  | [] => exact lexScalar written stops further
  | first :: others => exact lexScalar written (noWordChar (by decide) (blank first (by simp))) further

theorem lexField {field : Field} {text : List Char} {c : Char} {token : Token} (written : FieldText field text)
    (stops : isWordChar c = false) (separates : start c = some (.between, [token])) :
    lex .between (text ++ [c]) = some (.between, fieldTokens field ++ [token]) := by
  obtain ⟨ahead, named, toColon, toValue, holds, toEnd⟩ := written
  have divides : advance .between ':' = some (.between, [.colon]) := by decide
  have held := lexBoth (lexBlank toValue) (lexHeld holds toEnd stops separates)
  have colon := lexBoth (lexBlank toColon) (lexCons divides held)
  have key := lexBoth (lexBlank ahead) (lexBoth (lexString named) colon)
  simpa [fieldTokens] using key

theorem lexFields {fields : List Field} {text : List Char} (written : FieldsText fields text) :
    lex .between (text ++ ['\x7d']) = some (.between, closingTokens fields) := by
  induction written with
  | last written => exact lexField written (by decide) (by decide)
  | @more field text fields rest written others closing =>
    have separates : start ',' = some (.between, [.comma]) := by decide
    have first := lexField written (by decide) separates
    obtain ⟨next, later, rfl⟩ : ∃ next later, fields = next :: later := by
      cases others <;> exact ⟨_, _, rfl⟩
    simpa [closingTokens] using lexBoth first closing

theorem tokensOf {fields : List Field} {text : List Char} (written : ObjectText fields text) :
    tokens text = some (.openBrace :: closingTokens fields) := by
  have enclosed {before inside behind : List Char} (ahead : Blank before)
      (closing : lex .between (inside ++ ['\x7d']) = some (.between, closingTokens fields)) (after : Blank behind) :
      tokens (before ++ '\x7b' :: (inside ++ '\x7d' :: behind)) = some (.openBrace :: closingTokens fields) := by
    have begins : advance .between '\x7b' = some (.between, [.openBrace]) := by decide
    have opens := lexBoth (lexBlank ahead) (lexCons begins (lexBoth closing (lexBlank after)))
    simp only [List.append_assoc, List.singleton_append] at opens
    simp [tokens, opens]
  cases written with
  | empty ahead nothing after => exact enclosed ahead (lexBehind nothing (by decide)) after
  | filled ahead written after => exact enclosed ahead (lexFields written) after

end ZWaveHost.Json
