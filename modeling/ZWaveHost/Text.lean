import ZWaveHost.Wire

/-!
Text as bytes, and bytes as text for people. `units` reads any byte string; ill-formed input shows up as one gap per maximal
prefix of a well-formed sequence, so that reading with a replacement character and reading strictly are two views of it.
-/
namespace ZWaveHost

namespace Text.Utf8

def encodeChar (c : Char) : Bytes :=
  let n := c.toNat
  if n < 0x80 then [UInt8.ofNat n]
  else if n < 0x800 then [UInt8.ofNat (0xC0 + n / 0x40), UInt8.ofNat (0x80 + n % 0x40)]
  else if n < 0x10000 then
    [UInt8.ofNat (0xE0 + n / 0x1000), UInt8.ofNat (0x80 + n / 0x40 % 0x40), UInt8.ofNat (0x80 + n % 0x40)]
  else
    [UInt8.ofNat (0xF0 + n / 0x40000), UInt8.ofNat (0x80 + n / 0x1000 % 0x40),
      UInt8.ofNat (0x80 + n / 0x40 % 0x40), UInt8.ofNat (0x80 + n % 0x40)]

def encode (text : List Char) : Bytes := text.flatMap encodeChar

def encodeString (text : String) : Bytes := encode text.toList

def isContinuation (byte : UInt8) : Bool := 0x80 ≤ byte && byte ≤ 0xBF

/-- How many bytes follow a lead byte, and the range of the first of them. The narrow ranges keep out
overlong forms, surrogates and code points above U+10FFFF. -/
def followers (lead : UInt8) : Option (Nat × UInt8 × UInt8) :=
  if 0xC2 ≤ lead && lead ≤ 0xDF then some (1, 0x80, 0xBF)
  else if lead = 0xE0 then some (2, 0xA0, 0xBF)
  else if lead = 0xED then some (2, 0x80, 0x9F)
  else if 0xE1 ≤ lead && lead ≤ 0xEF then some (2, 0x80, 0xBF)
  else if lead = 0xF0 then some (3, 0x90, 0xBF)
  else if 0xF1 ≤ lead && lead ≤ 0xF3 then some (3, 0x80, 0xBF)
  else if lead = 0xF4 then some (3, 0x80, 0x8F)
  else none

def combine (high : Nat) (tail : Bytes) : Char :=
  Char.ofNat (tail.foldl (fun n byte => n * 0x40 + byte.toNat % 0x40) high)

def units : Bytes → List (Option Char)
  | [] => []
  | lead :: rest =>
    if lead < 0x80 then some (Char.ofNat lead.toNat) :: units rest
    else match followers lead with
      | none => none :: units rest
      | some (count, low, high) =>
        match rest with
        | [] => [none]
        | first :: rest =>
          if low ≤ first && first ≤ high then
            if count = 1 then some (combine (lead.toNat % 0x20) [first]) :: units rest
            else match rest with
              | [] => [none]
              | second :: rest =>
                if isContinuation second then
                  if count = 2 then some (combine (lead.toNat % 0x10) [first, second]) :: units rest
                  else match rest with
                    | [] => [none]
                    | third :: rest =>
                      if isContinuation third then
                        some (combine (lead.toNat % 0x08) [first, second, third]) :: units rest
                      else none :: units (third :: rest)
                else none :: units (second :: rest)
          else none :: units (first :: rest)

def replacement : Char := Char.ofNat 0xFFFD

def decodeLossy (bytes : Bytes) : List Char := (units bytes).map (·.getD replacement)

def decode? (bytes : Bytes) : Option (List Char) := (units bytes).mapM id

end Text.Utf8

namespace Text.Hex

def digit (n : Nat) : Char := if n < 10 then Char.ofNat (48 + n) else Char.ofNat (87 + n)

def byte (value : UInt8) : String :=
  String.ofList ['0', 'x', digit (value.toNat / 16), digit (value.toNat % 16)]

end Text.Hex

end ZWaveHost
