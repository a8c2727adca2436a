import ZWaveHost.Archive.File
import ZWaveHost.Json.Value
import ZWaveHost.Link.Handshake
import ZWaveHost.Text

/-!
The host's settings, and their JSON form: an object of the settings that differ from the usual ones, or an array of
them in order. Times are whole milliseconds.
-/
namespace ZWaveHost

structure Settings where
  serialPort : String := "/dev/ttyACM0"
  baudRate : UInt32 := 115200
  ackTimeout : UInt64 := 1600
  responseTimeout : UInt64 := 10000
  maxRetries : UInt8 := 3
  retryBase : UInt64 := 100
  retryStep : UInt64 := 1000
  receiveTimeout : UInt64 := 1500
  queueCapacity : UInt64 := 256
  writerCapacity : UInt64 := 64
  closesStore : Bool := true
  deriving DecidableEq, Repr

inductive Setting
  | serialPort
  | baudRate
  | ackTimeout
  | responseTimeout
  | maxRetries
  | retryBase
  | retryStep
  | receiveTimeout
  | queueCapacity
  | writerCapacity
  | closesStore
  deriving DecidableEq, Repr

namespace Setting

def all : List Setting :=
  [serialPort, baudRate, ackTimeout, responseTimeout, maxRetries, retryBase, retryStep, receiveTimeout,
    queueCapacity, writerCapacity, closesStore]

def name : Setting → String
  | serialPort => "serial_port"
  | baudRate => "baud_rate"
  | ackTimeout => "ack_timeout_ms"
  | responseTimeout => "response_timeout_ms"
  | maxRetries => "max_retries"
  | retryBase => "retry_delay_base_ms"
  | retryStep => "retry_delay_step_ms"
  | receiveTimeout => "frame_receive_timeout_ms"
  | queueCapacity => "queue_capacity"
  | writerCapacity => "writer_channel_capacity"
  | closesStore => "auto_close_store"

def ofName? (name : String) : Option Setting := all.find? (·.name = name)

end Setting

namespace Settings

def written (settings : Settings) : Setting → List Char
  | .serialPort => Json.Written.text settings.serialPort
  | .baudRate => Json.Written.natural settings.baudRate.toNat
  | .ackTimeout => Json.Written.natural settings.ackTimeout.toNat
  | .responseTimeout => Json.Written.natural settings.responseTimeout.toNat
  | .maxRetries => Json.Written.natural settings.maxRetries.toNat
  | .retryBase => Json.Written.natural settings.retryBase.toNat
  | .retryStep => Json.Written.natural settings.retryStep.toNat
  | .receiveTimeout => Json.Written.natural settings.receiveTimeout.toNat
  | .queueCapacity => Json.Written.natural settings.queueCapacity.toNat
  | .writerCapacity => Json.Written.natural settings.writerCapacity.toNat
  | .closesStore => Json.Written.bool settings.closesStore

def printOnly (settings : Settings) (chosen : List Setting) : List Char :=
  Json.Written.object (chosen.map fun setting => (setting.name, settings.written setting))

def print (settings : Settings) : String := String.ofList (settings.printOnly Setting.all)

def below (limit : Nat) : Json.Value → Option Nat
  | .number (some n) => if n < limit then some n else none
  | _ => none

def word32 (value : Json.Value) : Option UInt32 := (below UInt32.size value).map UInt32.ofNat

def word64 (value : Json.Value) : Option UInt64 := (below UInt64.size value).map UInt64.ofNat

def textOf : Json.Value → Option String
  | .text content => content
  | _ => none

def boolOf : Json.Value → Option Bool
  | .bool flag => some flag
  | _ => none

def put (settings : Settings) (setting : Setting) (value : Json.Value) : Option Settings :=
  match setting with
  | .serialPort => return { settings with serialPort := ← textOf value }
  | .baudRate => return { settings with baudRate := ← word32 value }
  | .ackTimeout => return { settings with ackTimeout := ← word64 value }
  | .responseTimeout => return { settings with responseTimeout := ← word64 value }
  | .maxRetries => return { settings with maxRetries := UInt8.ofNat (← below UInt8.size value) }
  | .retryBase => return { settings with retryBase := ← word64 value }
  | .retryStep => return { settings with retryStep := ← word64 value }
  | .receiveTimeout => return { settings with receiveTimeout := ← word64 value }
  | .queueCapacity => return { settings with queueCapacity := ← word64 value }
  | .writerCapacity => return { settings with writerCapacity := ← word64 value }
  | .closesStore => return { settings with closesStore := ← boolOf value }

/-- Entries in any order. A setting may be named once; other keys are skipped. -/
def ofEntries (settings : Settings) (seen : List Setting) : List Json.Entry → Option Settings
  | [] => some settings
  | (key, value) :: rest => do
    match Setting.ofName? (← key) with
    | none => ofEntries settings seen rest
    | some setting =>
      if seen.contains setting then none
      else ofEntries (← settings.put setting value) (setting :: seen) rest

def ofItems (settings : Settings) : List Setting → List Json.Value → Option Settings
  | _, [] => some settings
  | [], _ :: _ => none
  | setting :: others, value :: rest => do ofItems (← settings.put setting value) others rest

def ofValue? : Json.Value → Option Settings
  | .object entries => ofEntries {} [] entries
  | .array items => ofItems {} Setting.all items
  | _ => none

def parse (text : List Char) : Except Fault Settings :=
  match (Json.parse? text).bind ofValue? with
  | some settings => .ok settings
  | none => .error .settingsUnreadable

def ofDisk (disk : Disk) : Except Fault Settings := do
  match Text.Utf8.decode? (← disk.read) with
  | some text => parse text
  | none => throw (.io .invalidData "stream did not contain valid UTF-8")

def timing (settings : Settings) : Timing where
  ackTimeout := settings.ackTimeout.toNat
  responseTimeout := settings.responseTimeout.toNat
  maxRetries := settings.maxRetries.toNat
  retryBase := settings.retryBase.toNat
  retryStep := settings.retryStep.toNat

end Settings

end ZWaveHost
