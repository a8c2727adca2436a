import ZWaveHost.Wire

/-!
What is reported about a device: its class, the command classes it supports, and the controller's own summary; and what is
kept of a node between sessions.
-/
namespace ZWaveHost

structure DeviceClass where
  basic : UInt8
  generic : UInt8
  specific : UInt8
  deriving DecidableEq, Repr

namespace CommandClass

def wakeUp : UInt8 := 0x84

def wakeUpNotification : UInt8 := 0x07

def noMoreInformation : UInt8 := 0x08

end CommandClass

structure NodeInfo where
  nodeId : NodeId
  deviceClass : DeviceClass
  commandClasses : Bytes := []
  deriving DecidableEq, Repr

namespace NodeInfo

def supports (info : NodeInfo) (commandClass : UInt8) : Bool := info.commandClasses.contains commandClass

def block (info : NodeInfo) : Bytes :=
  info.deviceClass.basic :: info.deviceClass.generic :: info.deviceClass.specific :: info.commandClasses

def ofBlock? (nodeId : NodeId) : Bytes → Option NodeInfo
  | basic :: generic :: specific :: commandClasses =>
    some ⟨nodeId, ⟨basic, generic, specific⟩, commandClasses⟩
  | _ => none

theorem ofBlockOfBlock (info : NodeInfo) : ofBlock? info.nodeId info.block = some info := rfl

end NodeInfo

structure ProtocolInfo where
  capability : UInt8
  security : UInt8
  deviceClass : DeviceClass
  deriving DecidableEq, Repr

namespace ProtocolInfo

/-- The top bit of the capability byte tells a node that always listens from one that sleeps. -/
def isListening (info : ProtocolInfo) : Bool := info.capability &&& 0x80 ≠ 0

def toNodeInfo (info : ProtocolInfo) (nodeId : NodeId) : NodeInfo := { nodeId, deviceClass := info.deviceClass }

end ProtocolInfo

structure NodeRecord where
  info : NodeInfo
  listening : Bool
  kind : String
  deriving DecidableEq, Repr

def NodeRecord.nodeId (record : NodeRecord) : NodeId := record.info.nodeId

end ZWaveHost
