import ZWaveHost.Fault

/-!
The serial line to a Z-Wave stick: its vocabulary of bytes, node ids, instants and function ids, numbers in big-endian
order, and one frame: type, function id and payload between a start byte, a length byte and a checksum. A frame is a value
first; only `encode` knows the bytes, and it alone refuses a long payload.
-/
namespace ZWaveHost

abbrev Bytes := List UInt8

abbrev NodeId := UInt8

abbrev Time := Nat

def maxNodeId : NodeId := 232

namespace Wire

@[match_pattern] abbrev sof : UInt8 := 0x01

@[match_pattern] abbrev ack : UInt8 := 0x06

@[match_pattern] abbrev nak : UInt8 := 0x15

@[match_pattern] abbrev can : UInt8 := 0x18

/-- Bytes counted by the length byte that are not payload: type, function id and checksum. -/
def overhead : Nat := 3

def maxPayload : Nat := 255 - overhead

def checksum (bytes : Bytes) : UInt8 :=
  bytes.foldl (· ^^^ ·) 0xFF

end Wire

namespace FunctionId

@[match_pattern] abbrev initData : UInt8 := 0x02
@[match_pattern] abbrev applicationCommand : UInt8 := 0x04
@[match_pattern] abbrev sendData : UInt8 := 0x13
@[match_pattern] abbrev version : UInt8 := 0x15
@[match_pattern] abbrev memoryId : UInt8 := 0x20
@[match_pattern] abbrev protocolInfo : UInt8 := 0x41
@[match_pattern] abbrev setDefault : UInt8 := 0x42
@[match_pattern] abbrev applicationUpdate : UInt8 := 0x49
@[match_pattern] abbrev addNode : UInt8 := 0x4A
@[match_pattern] abbrev removeNode : UInt8 := 0x4B
@[match_pattern] abbrev nodeInfo : UInt8 := 0x60

end FunctionId

namespace Wire.BigEndian

def encode : Nat → Nat → Bytes
  | 0, _ => []
  | width + 1, n => encode width (n / 256) ++ [UInt8.ofNat (n % 256)]

def decode (bytes : Bytes) : Nat := bytes.foldl (fun n byte => n * 256 + byte.toNat) 0

theorem encodeLength (width n : Nat) : (encode width n).length = width := by
  induction width generalizing n with
  | zero => rfl
  | succ width ih => simp [encode, ih]

theorem decodeSnoc (bytes : Bytes) (byte : UInt8) :
    decode (bytes ++ [byte]) = decode bytes * 256 + byte.toNat := by
  simp [decode]

def bound : Nat → Nat
  | 0 => 1
  | width + 1 => 256 * bound width

theorem decodeEncode {width n : Nat} (fits : n < bound width) : decode (encode width n) = n := by
  induction width generalizing n with
  | zero =>
    have : n = 0 := by simpa [bound] using fits
    subst this; rfl
  | succ width ih =>
    have small : n / 256 < bound width := Nat.div_lt_of_lt_mul fits
    rw [encode, decodeSnoc, ih small, UInt8.toNat_ofNat']
    omega

end Wire.BigEndian

inductive FrameKind
  | request
  | response
  deriving DecidableEq, Repr

namespace FrameKind

def toByte : FrameKind → UInt8
  | request => 0
  | response => 1

def ofByte? (byte : UInt8) : Option FrameKind :=
  if byte = 0 then some request else if byte = 1 then some response else none

theorem ofByteToByte (kind : FrameKind) : ofByte? kind.toByte = some kind := by
  cases kind <;> rfl

end FrameKind

structure Frame where
  kind : FrameKind
  function : UInt8
  payload : Bytes
  deriving DecidableEq, Repr

namespace Frame

abbrev request (function : UInt8) (payload : Bytes) : Frame := ⟨.request, function, payload⟩

abbrev response (function : UInt8) (payload : Bytes) : Frame := ⟨.response, function, payload⟩

def isResponse (frame : Frame) : Bool := frame.kind = .response

def lengthByte (frame : Frame) : Except Fault UInt8 :=
  if frame.payload.length + Wire.overhead ≤ 255 then
    .ok (UInt8.ofNat (frame.payload.length + Wire.overhead))
  else .error (.payloadTooLong frame.payload.length)

def encodedSize (frame : Frame) : Nat := frame.payload.length + Wire.overhead + 2

def covered (frame : Frame) (length : UInt8) : Bytes :=
  length :: frame.kind.toByte :: frame.function :: frame.payload

def body (frame : Frame) (length : UInt8) : Bytes :=
  frame.covered length ++ [Wire.checksum (frame.covered length)]

def encode (frame : Frame) : Except Fault Bytes := do
  let length ← frame.lengthByte
  return Wire.sof :: frame.body length

end Frame

end ZWaveHost
