import ZWaveHost.Device.Info
import ZWaveHost.Wire

/-!
The typed view of a frame. A function id alone does not settle the layout: requests of the host and callbacks of
the controller share ids, so each message also has a side that sends it.
-/
namespace ZWaveHost

inductive Side
  | host
  | controller
  deriving DecidableEq, Repr

structure InitData where
  apiVersion : UInt8
  capabilities : UInt8
  nodeIds : List NodeId
  chipType : UInt8
  chipVersion : UInt8
  deriving DecidableEq, Repr

structure NodeCommand where
  rxStatus : UInt8
  source : NodeId
  command : Bytes
  deriving DecidableEq, Repr

structure NodeUpdate where
  status : UInt8
  nodeId : NodeId
  info : Option NodeInfo
  deriving DecidableEq, Repr

namespace NodeUpdate

/-- Id 0 names no node; a failed info request carries it. -/
def target (update : NodeUpdate) : Option NodeId :=
  if update.nodeId = 0 then none else some update.nodeId

def isRequestFailure (update : NodeUpdate) : Bool := update.status = 0x81

def isNodeInfo (update : NodeUpdate) : Bool := update.status = 0x84

end NodeUpdate

structure NetworkUpdate where
  callbackId : UInt8
  status : UInt8
  source : NodeId
  info : Option NodeInfo
  deriving DecidableEq, Repr

inductive Message
  | versionRequest
  | version (library : String) (libraryType : UInt8)
  | memoryIdRequest
  | memoryId (homeId : UInt32) (nodeId : NodeId)
  | initDataRequest
  | initData (data : InitData)
  | protocolInfoRequest (nodeId : NodeId)
  | protocolInfo (info : ProtocolInfo)
  | sendData (nodeId : NodeId) (data : Bytes) (txOptions callbackId : UInt8)
  | sendDataResponse (accepted : Bool)
  | sendDataCallback (callbackId txStatus : UInt8)
  | nodeInfoRequest (nodeId : NodeId)
  | nodeInfoResponse (accepted : Bool)
  | nodeCommand (command : NodeCommand)
  | nodeUpdate (update : NodeUpdate)
  | addNode (mode callbackId : UInt8)
  | addNodeStatus (update : NetworkUpdate)
  | removeNode (mode callbackId : UInt8)
  | removeNodeStatus (update : NetworkUpdate)
  | setDefault (callbackId : UInt8)
  | setDefaultCallback (callbackId : UInt8)
  | unknown (frame : Frame)
  deriving DecidableEq, Repr

def TxStatus.ok : UInt8 := 0x00

def TxOptions.usual : UInt8 := 0x01 ||| 0x04 ||| 0x20

namespace Message

def send (nodeId : NodeId) (data : Bytes) : Message := .sendData nodeId data TxOptions.usual 0

def name : Message → String
  | versionRequest | version .. => "GetVersion"
  | memoryIdRequest | memoryId .. => "MemoryGetId"
  | initDataRequest | initData _ => "SerialApiGetInitData"
  | protocolInfoRequest _ | protocolInfo _ => "GetNodeProtocolInfo"
  | sendData .. => "SendData"
  | sendDataResponse _ => "SendDataResponse"
  | sendDataCallback .. => "SendDataCallback"
  | nodeInfoRequest _ | nodeInfoResponse _ => "RequestNodeInfo"
  | nodeCommand _ => "ApplicationCommandHandler"
  | nodeUpdate _ => "ApplicationUpdate"
  | addNode .. | addNodeStatus _ => "AddNodeToNetwork"
  | removeNode .. | removeNodeStatus _ => "RemoveNodeFromNetwork"
  | setDefault _ | setDefaultCallback _ => "SetDefault"
  | unknown _ => "Unknown"

def function : Message → UInt8
  | versionRequest | version .. => FunctionId.version
  | memoryIdRequest | memoryId .. => FunctionId.memoryId
  | initDataRequest | initData _ => FunctionId.initData
  | protocolInfoRequest _ | protocolInfo _ => FunctionId.protocolInfo
  | sendData .. | sendDataResponse _ | sendDataCallback .. => FunctionId.sendData
  | nodeInfoRequest _ | nodeInfoResponse _ => FunctionId.nodeInfo
  | nodeCommand _ => FunctionId.applicationCommand
  | nodeUpdate _ => FunctionId.applicationUpdate
  | addNode .. | addNodeStatus _ => FunctionId.addNode
  | removeNode .. | removeNodeStatus _ => FunctionId.removeNode
  | setDefault _ | setDefaultCallback _ => FunctionId.setDefault
  | unknown frame => frame.function

/-- The side that sends this message; a frame without a typed view counts as the controller's. -/
def side : Message → Side
  | versionRequest | memoryIdRequest | initDataRequest | protocolInfoRequest _ | sendData ..
  | nodeInfoRequest _ | addNode .. | removeNode .. | setDefault _ => .host
  | _ => .controller

def isResponse : Message → Bool
  | version .. | memoryId .. | initData _ | protocolInfo _ | sendDataResponse _ | nodeInfoResponse _ => true
  | unknown frame => frame.isResponse
  | _ => false

def target : Message → Option NodeId
  | sendData nodeId .. | nodeInfoRequest nodeId | protocolInfoRequest nodeId => some nodeId
  | _ => none

def callbackId : Message → Option UInt8
  | sendData _ _ _ id | sendDataCallback id _ | addNode _ id | removeNode _ id
  | setDefault id | setDefaultCallback id => some id
  | addNodeStatus update | removeNodeStatus update => some update.callbackId
  | _ => none

def withCallbackId (id : UInt8) : Message → Message
  | sendData nodeId data options _ => sendData nodeId data options id
  | addNode mode _ => addNode mode id
  | removeNode mode _ => removeNode mode id
  | setDefault _ => setDefault id
  | message => message

end Message

end ZWaveHost
