/-!
Everything that can go wrong for a caller, as causes. The wording is in `Fault.message` alone.
-/
namespace ZWaveHost

inductive LengthField
  | sendData
  | command
  | nodeInfo
  deriving DecidableEq, Repr

def LengthField.label : LengthField → String
  | sendData => "SendData payload"
  | command => "application command"
  | nodeInfo => "node info"

inductive IoCause
  | notFound
  | isADirectory
  | brokenPipe
  | invalidData
  | writeZero
  | timedOut
  | other
  deriving DecidableEq, Repr

inductive Fault
  | payloadTooLong (size : Nat)
  | fieldTooLong (field : LengthField) (size : Nat)
  | breach (text : String)
  | missingStore
  | queueFull (pending : Nat)
  | connectionClosed
  | io (cause : IoCause) (detail : String)
  | serialPort (detail : String)
  | settingsUnreadable
  | archiveUnreadable
  | archiveUnwritable
  deriving DecidableEq, Repr

namespace Fault

def message : Fault → String
  | payloadTooLong size => s!"Protocol error: payload of {size} bytes exceeds the 252 byte frame limit"
  | fieldTooLong field size => s!"Protocol error: {field.label} of {size} bytes does not fit a frame"
  | breach text => s!"Protocol error: {text}"
  | missingStore => "No persistent store available"
  | queueFull pending => s!"Outbound frame queue is full ({pending} pending)"
  | connectionClosed => "Connection closed"
  | io _ detail => s!"I/O error: {detail}"
  | serialPort detail => s!"Serial port error: {detail}"
  | settingsUnreadable => "JSON error"
  | archiveUnreadable => "MsgPack decode error"
  | archiveUnwritable => "MsgPack encode error"

end Fault

end ZWaveHost
