import ZWaveHost.Message
import ZWaveHost.Text

/-!
How a message is laid out as a frame, and the typed view of a frame that one side sent. Written, only a length-prefixed field
can refuse; the limit on the whole payload is the frame's own. Each reader takes a payload and answers `none` when it is too
short for the layout; bytes behind the layout are ignored. What no reader takes stays a frame.
-/
namespace ZWaveHost

def nodeMaskSize : Nat := 29

def byteOfBits (bit : Nat → Bool) : UInt8 :=
  UInt8.ofNat ((List.range 8).foldr (fun i n => 2 * n + (bit i).toNat) 0)

/-- Bit `i` of byte `j` stands for node `8 j + i + 1`; ids that are no node's have no bit. -/
def nodeMask (ids : List NodeId) : Bytes :=
  (List.range nodeMaskSize).map fun j => byteOfBits fun i => ids.contains (UInt8.ofNat (8 * j + i + 1))

def LengthField.sizeByte (field : LengthField) (size : Nat) : Except Fault UInt8 :=
  if size ≤ 255 then .ok (UInt8.ofNat size) else .error (.fieldTooLong field size)

def infoBlock (info : Option NodeInfo) : Except Fault Bytes := do
  let block := info.elim [] NodeInfo.block
  let length ← LengthField.nodeInfo.sizeByte block.length
  return length :: block

def NetworkUpdate.payload (update : NetworkUpdate) : Except Fault Bytes := do
  let block ← infoBlock update.info
  return update.callbackId :: update.status :: update.source :: block

namespace Message

def toFrame : Message → Except Fault Frame
  | versionRequest => .ok (.request FunctionId.version [])
  | version library libraryType =>
    .ok (.response FunctionId.version (Text.Utf8.encodeString library ++ [0, libraryType]))
  | memoryIdRequest => .ok (.request FunctionId.memoryId [])
  | memoryId homeId nodeId =>
    .ok (.response FunctionId.memoryId (Wire.BigEndian.encode 4 homeId.toNat ++ [nodeId]))
  | initDataRequest => .ok (.request FunctionId.initData [])
  | initData data =>
    .ok (.response FunctionId.initData
      (data.apiVersion :: data.capabilities :: UInt8.ofNat nodeMaskSize ::
        (nodeMask data.nodeIds ++ [data.chipType, data.chipVersion])))
  | protocolInfoRequest nodeId => .ok (.request FunctionId.protocolInfo [nodeId])
  | protocolInfo info =>
    .ok (.response FunctionId.protocolInfo
      [info.capability, info.security, 0, info.deviceClass.basic, info.deviceClass.generic,
        info.deviceClass.specific])
  | sendData nodeId data options id => do
    let length ← LengthField.sendData.sizeByte data.length
    return .request FunctionId.sendData (nodeId :: length :: (data ++ [options, id]))
  | sendDataResponse accepted => .ok (.response FunctionId.sendData [accepted.toUInt8])
  | sendDataCallback id status => .ok (.request FunctionId.sendData [id, status])
  | nodeInfoRequest nodeId => .ok (.request FunctionId.nodeInfo [nodeId])
  | nodeInfoResponse accepted => .ok (.response FunctionId.nodeInfo [accepted.toUInt8])
  | nodeCommand command => do
    let length ← LengthField.command.sizeByte command.command.length
    return .request FunctionId.applicationCommand
      (command.rxStatus :: command.source :: length :: command.command)
  | nodeUpdate update => do
    let block ← infoBlock update.info
    return .request FunctionId.applicationUpdate (update.status :: update.nodeId :: block)
  | addNode mode id => .ok (.request FunctionId.addNode [mode, id])
  | addNodeStatus update => do return .request FunctionId.addNode (← update.payload)
  | removeNode mode id => .ok (.request FunctionId.removeNode [mode, id])
  | removeNodeStatus update => do return .request FunctionId.removeNode (← update.payload)
  | setDefault id => .ok (.request FunctionId.setDefault [id])
  | setDefaultCallback id => .ok (.request FunctionId.setDefault [id])
  | unknown frame => .ok frame

def encode (message : Message) : Except Fault Bytes := do (← message.toFrame).encode

def validate (message : Message) : Except Fault Unit := do
  let _ ← (← message.toFrame).lengthByte
  return ()

end Message

/-- The text up to the first zero byte and the type byte behind it; without a zero byte the last byte is the
type. -/
def readVersion (payload : Bytes) : Option Message :=
  let text := payload.takeWhile (· ≠ 0)
  match payload.dropWhile (· ≠ 0) with
  | _ :: libraryType :: _ => some (.version (String.ofList (Text.Utf8.decodeLossy text)) libraryType)
  | [_] => some (.version (String.ofList (Text.Utf8.decodeLossy text)) 0)
  | [] => payload.getLast?.map fun libraryType =>
      .version (String.ofList (Text.Utf8.decodeLossy payload.dropLast)) libraryType

def readMemoryId (payload : Bytes) : Option Message :=
  payload[4]?.map fun nodeId => .memoryId (UInt32.ofNat (Wire.BigEndian.decode (payload.take 4))) nodeId

/-- Ids of the set bits of byte `j`, ascending. Ids are bytes, so a mask longer than any network wraps. -/
def maskedIds (j : Nat) (byte : UInt8) : List NodeId :=
  ((List.range 8).filter byte.toNat.testBit).map fun i => UInt8.ofNat (8 * j + i + 1)

def readMask (mask : Bytes) : List NodeId := mask.zipIdx.flatMap fun (byte, j) => maskedIds j byte

def readInitData : Bytes → Option InitData
  | apiVersion :: capabilities :: length :: rest =>
    if length.toNat ≤ rest.length then
      let chip := rest.drop length.toNat
      some ⟨apiVersion, capabilities, readMask (rest.take length.toNat), chip.getD 0 0, chip.getD 1 0⟩
    else none
  | _ => none

def readProtocolInfo : Bytes → Option ProtocolInfo
  | capability :: security :: _ :: basic :: generic :: specific :: _ =>
    some ⟨capability, security, ⟨basic, generic, specific⟩⟩
  | _ => none

def readSendData : Bytes → Option Message
  | nodeId :: length :: rest =>
    match rest.drop length.toNat with
    | options :: id :: _ => some (.sendData nodeId (rest.take length.toNat) options id)
    | _ => none
  | _ => none

def readCommand : Bytes → Option NodeCommand
  | rxStatus :: source :: length :: rest =>
    if length.toNat ≤ rest.length then some ⟨rxStatus, source, rest.take length.toNat⟩ else none
  | _ => none

def readUpdate : Bytes → Option NodeUpdate
  | status :: nodeId :: length :: rest =>
    if length.toNat ≤ rest.length then
      some ⟨status, nodeId, NodeInfo.ofBlock? nodeId (rest.take length.toNat)⟩
    else none
  | _ => none

/-- The info block may be missing or cut short; then the update carries no info. -/
def readNetworkUpdate : Bytes → Option NetworkUpdate
  | id :: status :: source :: rest =>
    let info := match rest with
      | [] => none
      | length :: block =>
        if length.toNat ≤ block.length then NodeInfo.ofBlock? source (block.take length.toNat) else none
    some ⟨id, status, source, info⟩
  | _ => none

def readPair (make : UInt8 → UInt8 → Message) : Bytes → Option Message
  | first :: second :: _ => some (make first second)
  | _ => none

def readResponse (function : UInt8) (payload : Bytes) : Option Message :=
  match function with
  | FunctionId.version => readVersion payload
  | FunctionId.memoryId => readMemoryId payload
  | FunctionId.initData => (readInitData payload).map .initData
  | FunctionId.protocolInfo => (readProtocolInfo payload).map .protocolInfo
  | FunctionId.sendData => payload.head?.map fun flag => .sendDataResponse (flag ≠ 0)
  | FunctionId.nodeInfo => payload.head?.map fun flag => .nodeInfoResponse (flag ≠ 0)
  | _ => none

def readHostRequest (function : UInt8) (payload : Bytes) : Option Message :=
  match function with
  | FunctionId.version => some .versionRequest
  | FunctionId.memoryId => some .memoryIdRequest
  | FunctionId.initData => some .initDataRequest
  | FunctionId.protocolInfo => payload.head?.map .protocolInfoRequest
  | FunctionId.sendData => readSendData payload
  | FunctionId.nodeInfo => payload.head?.map .nodeInfoRequest
  | FunctionId.addNode => readPair .addNode payload
  | FunctionId.removeNode => readPair .removeNode payload
  | FunctionId.setDefault => payload.head?.map .setDefault
  | _ => none

def readControllerRequest (function : UInt8) (payload : Bytes) : Option Message :=
  match function with
  | FunctionId.sendData => readPair .sendDataCallback payload
  | FunctionId.applicationCommand => (readCommand payload).map .nodeCommand
  | FunctionId.applicationUpdate => (readUpdate payload).map .nodeUpdate
  | FunctionId.addNode => (readNetworkUpdate payload).map .addNodeStatus
  | FunctionId.removeNode => (readNetworkUpdate payload).map .removeNodeStatus
  | FunctionId.setDefault => payload.head?.map .setDefaultCallback
  | _ => none

def Frame.view? (frame : Frame) (sender : Side) : Option Message :=
  match frame.kind, sender with
  | .response, _ => readResponse frame.function frame.payload
  | .request, .host => readHostRequest frame.function frame.payload
  | .request, .controller => readControllerRequest frame.function frame.payload

def Message.ofFrame (frame : Frame) (sender : Side) : Message :=
  (frame.view? sender).getD (.unknown frame)

end ZWaveHost
