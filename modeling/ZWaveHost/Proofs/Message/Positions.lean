import ZWaveHost.Message.Layout

/-! The layouts once more, by position in the payload. An access that may find nothing asks first; every other relies on
what was asked before, and would overrun the payload if that were too little. None does, and what is read is the view. -/
namespace ZWaveHost

inductive Access (α : Type)
  | found (value : α)
  /- A byte that was asked for is not there: the payload is too short for the layout. -/
  | absent
  /- A byte that was relied on is not there. -/
  | overrun (stop size : Nat)
  deriving DecidableEq, Repr

namespace Access
variable {α β : Type}

def andThen : Access α → (α → Access β) → Access β
  | found value, next => next value
  | absent, _ => absent
  | overrun stop size, _ => overrun stop size

instance : Monad Access where
  pure := found
  bind := andThen

def ofOption : Option α → Access α
  | some value => found value
  | none => absent

def orElse : Access α → α → Access α
  | absent, default => found default
  | access, _ => access

def ask (bytes : Bytes) (position : Nat) : Access UInt8 := ofOption bytes[position]?

def askFor (bytes : Bytes) (start stop : Nat) : Access Bytes :=
  if start ≤ stop ∧ stop ≤ bytes.length then found ((bytes.take stop).drop start) else absent

def take (bytes : Bytes) (position : Nat) : Access UInt8 :=
  match bytes[position]? with
  | some byte => found byte
  | none => overrun (position + 1) bytes.length

def takeFrom (bytes : Bytes) (start stop : Nat) : Access Bytes :=
  if start ≤ stop ∧ stop ≤ bytes.length then found ((bytes.take stop).drop start) else overrun stop bytes.length

@[simp]
theorem pureFound (value : α) : (pure value : Access α) = found value := rfl

@[simp]
theorem foundThen (value : α) (next : α → Access β) : found value >>= next = next value := rfl

@[simp]
theorem absentThen (next : α → Access β) : absent >>= next = absent := rfl

@[simp]
theorem ofSome (value : α) : ofOption (some value) = found value := rfl

@[simp]
theorem ofNone : ofOption (none : Option α) = absent := rfl

section
variable (guard : Prop) [Decidable guard] (value : α)

@[simp]
theorem guardedThen (next : α → Access β) :
    (if guard then found value else absent) >>= next = if guard then next value else absent := by
  split <;> rfl

@[simp]
theorem guardedOption :
    ofOption (if guard then some value else none) = if guard then found value else absent := by
  split <;> rfl

@[simp]
theorem guardedElse (default : α) :
    orElse (if guard then found value else absent) default = found (if guard then value else default) := by
  split <;> rfl

end

end Access

open Access

def versionAt (payload : Bytes) : Access Message := do
  let last ← ask payload (payload.length - 1)
  match payload.findIdx? (· = 0) with
  | some stop =>
    let text ← takeFrom payload 0 stop
    return .version (String.ofList (Text.Utf8.decodeLossy text)) (payload.getD (stop + 1) 0)
  | none => return .version (String.ofList (Text.Utf8.decodeLossy payload.dropLast)) last

def memoryIdAt (payload : Bytes) : Access Message := do
  let home ← askFor payload 0 4
  let first ← take home 0
  let second ← take home 1
  let third ← take home 2
  let fourth ← take home 3
  let nodeId ← ask payload 4
  return .memoryId (UInt32.ofNat (Wire.BigEndian.decode [first, second, third, fourth])) nodeId

def initDataAt (payload : Bytes) : Access Message := do
  let length ← ask payload 2
  let mask ← askFor payload 3 (3 + length.toNat)
  let apiVersion ← take payload 0
  let capabilities ← take payload 1
  return .initData ⟨apiVersion, capabilities, readMask mask, payload.getD (3 + length.toNat) 0,
    payload.getD (4 + length.toNat) 0⟩

def protocolInfoAt (payload : Bytes) : Access Message := do
  let fields ← askFor payload 0 6
  let capability ← take fields 0
  let security ← take fields 1
  let basic ← take fields 3
  let generic ← take fields 4
  let specific ← take fields 5
  return .protocolInfo ⟨capability, security, ⟨basic, generic, specific⟩⟩

def sendDataAt (payload : Bytes) : Access Message := do
  let nodeId ← ask payload 0
  let length ← ask payload 1
  let data ← askFor payload 2 (2 + length.toNat)
  let options ← ask payload (2 + length.toNat)
  let id ← ask payload (3 + length.toNat)
  return .sendData nodeId data options id

def infoAt (nodeId : NodeId) (block : Bytes) : Access (Option NodeInfo) :=
  if block.length < 3 then return none
  else do
    let basic ← take block 0
    let generic ← take block 1
    let specific ← take block 2
    let commandClasses ← takeFrom block 3 block.length
    return some ⟨nodeId, ⟨basic, generic, specific⟩, commandClasses⟩

def commandAt (payload : Bytes) : Access Message := do
  let length ← ask payload 2
  let command ← askFor payload 3 (3 + length.toNat)
  let rxStatus ← take payload 0
  let source ← take payload 1
  return .nodeCommand ⟨rxStatus, source, command⟩

def updateAt (payload : Bytes) : Access Message := do
  let length ← ask payload 2
  let block ← askFor payload 3 (3 + length.toNat)
  let status ← take payload 0
  let nodeId ← take payload 1
  let info ← infoAt nodeId block
  return .nodeUpdate ⟨status, nodeId, info⟩

def networkUpdateAt (make : NetworkUpdate → Message) (payload : Bytes) : Access Message := do
  let source ← ask payload 2
  let length := payload.getD 3 0
  let info ← orElse (askFor payload 4 (4 + length.toNat) >>= infoAt source) none
  let id ← take payload 0
  let status ← take payload 1
  return make ⟨id, status, source, info⟩

def byteAt (make : UInt8 → Message) (payload : Bytes) : Access Message := do
  let byte ← ask payload 0
  return make byte

def pairAt (make : UInt8 → UInt8 → Message) (payload : Bytes) : Access Message := do
  let first ← ask payload 0
  let second ← ask payload 1
  return make first second

def responseAt (function : UInt8) (payload : Bytes) : Access Message :=
  match function with
  | FunctionId.version => versionAt payload
  | FunctionId.memoryId => memoryIdAt payload
  | FunctionId.initData => initDataAt payload
  | FunctionId.protocolInfo => protocolInfoAt payload
  | FunctionId.sendData => byteAt (fun flag => .sendDataResponse (flag ≠ 0)) payload
  | FunctionId.nodeInfo => byteAt (fun flag => .nodeInfoResponse (flag ≠ 0)) payload
  | _ => absent

def hostRequestAt (function : UInt8) (payload : Bytes) : Access Message :=
  match function with
  | FunctionId.version => return .versionRequest
  | FunctionId.memoryId => return .memoryIdRequest
  | FunctionId.initData => return .initDataRequest
  | FunctionId.protocolInfo => byteAt .protocolInfoRequest payload
  | FunctionId.sendData => sendDataAt payload
  | FunctionId.nodeInfo => byteAt .nodeInfoRequest payload
  | FunctionId.addNode => pairAt .addNode payload
  | FunctionId.removeNode => pairAt .removeNode payload
  | FunctionId.setDefault => byteAt .setDefault payload
  | _ => absent

def controllerRequestAt (function : UInt8) (payload : Bytes) : Access Message :=
  match function with
  | FunctionId.sendData => pairAt .sendDataCallback payload
  | FunctionId.applicationCommand => commandAt payload
  | FunctionId.applicationUpdate => updateAt payload
  | FunctionId.addNode => networkUpdateAt .addNodeStatus payload
  | FunctionId.removeNode => networkUpdateAt .removeNodeStatus payload
  | FunctionId.setDefault => byteAt .setDefaultCallback payload
  | _ => absent

def Frame.viewAt (frame : Frame) (sender : Side) : Access Message :=
  match frame.kind, sender with
  | .response, _ => responseAt frame.function frame.payload
  | .request, .host => hostRequestAt frame.function frame.payload
  | .request, .controller => controllerRequestAt frame.function frame.payload

theorem askForBehind (head rest : Bytes) (count : Nat) :
    askFor (head ++ rest) head.length (head.length + count) =
      if count ≤ rest.length then found (rest.take count) else absent := by
  by_cases enough : count ≤ rest.length
  · simp [askFor, enough, List.drop_take]
  · simp [askFor, enough]

theorem byteBehind (head rest : Bytes) (count : Nat) : (head ++ rest)[head.length + count]? = rest[count]? := by
  rw [List.getElem?_append_right (Nat.le_add_right _ _), Nat.add_sub_cancel_left]

theorem infoReads (nodeId : NodeId) (block : Bytes) : infoAt nodeId block = found (NodeInfo.ofBlock? nodeId block) := by
  match block with
  | [] | [_] | [_, _] => rfl
  | basic :: generic :: specific :: commandClasses =>
    simp [infoAt, takeFrom, take, NodeInfo.ofBlock?]

theorem versionReads (payload : Bytes) : versionAt payload = ofOption (readVersion payload) := by
  have text : payload.takeWhile (· ≠ 0) = payload.take (payload.findIdx (· = 0)) := by
    simp [List.takeWhile_eq_take_findIdx_not]
  have behind : payload.dropWhile (· ≠ 0) = payload.drop (payload.findIdx (· = 0)) := by
    simp [List.dropWhile_eq_drop_findIdx_not]
  unfold versionAt readVersion
  rw [text, behind]
  cases zero : payload.findIdx? (· = 0) with
  | some stop =>
    obtain ⟨within, first⟩ := List.findIdx?_eq_some_iff_findIdx_eq.mp zero
    have last : payload.length - 1 < payload.length := by omega
    have type : payload.getD (stop + 1) 0 = (payload.drop (stop + 1)).headD 0 := by
      rw [List.headD_eq_head?_getD, List.head?_drop, List.getD_eq_getElem?_getD]
    rw [first, List.drop_eq_getElem_cons within]
    simp only [ask, takeFrom, List.getElem?_eq_getElem last, type]
    cases payload.drop (stop + 1) <;> simp [Nat.le_of_lt within]
  | none =>
    have nowhere : payload.findIdx (· = 0) = payload.length :=
      List.findIdx_eq_length.mpr (List.findIdx?_eq_none_iff.mp zero)
    rw [nowhere, List.drop_length, List.getLast?_eq_getElem?]
    cases last : payload[payload.length - 1]? <;> simp [ask, last]

theorem memoryIdReads (payload : Bytes) : memoryIdAt payload = ofOption (readMemoryId payload) := by
  match payload with
  | [] | [_] | [_, _] | [_, _, _] | [_, _, _, _] => rfl
  | first :: second :: third :: fourth :: nodeId :: rest => rfl

theorem initDataReads (payload : Bytes) : initDataAt payload = ofOption ((readInitData payload).map .initData) := by
  match payload with
  | [] | [_] | [_, _] => rfl
  | apiVersion :: capabilities :: length :: rest =>
    have mask : askFor (apiVersion :: capabilities :: length :: rest) 3 (3 + length.toNat) = _ :=
      askForBehind [apiVersion, capabilities, length] rest length.toNat
    have chipType : (apiVersion :: capabilities :: length :: rest)[3 + length.toNat]? = _ :=
      byteBehind [apiVersion, capabilities, length] rest length.toNat
    have chipVersion : (apiVersion :: capabilities :: length :: rest)[4 + length.toNat]? = rest[length.toNat + 1]? := by
      rw [Nat.add_right_comm 3 1 length.toNat]
      exact byteBehind [apiVersion, capabilities, length] rest (length.toNat + 1)
    simp [initDataAt, ask, take, mask, chipType, chipVersion, readInitData]

theorem sendDataReads (payload : Bytes) : sendDataAt payload = ofOption (readSendData payload) := by
  match payload with
  | [] | [_] => rfl
  | nodeId :: length :: rest =>
    have data : askFor (nodeId :: length :: rest) 2 (2 + length.toNat) = _ :=
      askForBehind [nodeId, length] rest length.toNat
    have options : (nodeId :: length :: rest)[2 + length.toNat]? = (rest.drop length.toNat)[0]? := by
      rw [List.getElem?_drop]
      exact byteBehind [nodeId, length] rest length.toNat
    have id : (nodeId :: length :: rest)[3 + length.toNat]? = (rest.drop length.toNat)[1]? := by
      rw [List.getElem?_drop, Nat.add_right_comm 2 1 length.toNat]
      exact byteBehind [nodeId, length] rest (length.toNat + 1)
    by_cases enough : length.toNat ≤ rest.length
    · rcases behind : rest.drop length.toNat with _ | ⟨_, _ | _⟩ <;>
        simp [sendDataAt, ask, data, options, id, readSendData, enough, behind]
    · have nothing : rest.drop length.toNat = [] := List.drop_eq_nil_of_le (Nat.le_of_not_le enough)
      simp [sendDataAt, ask, data, readSendData, enough, nothing]

theorem commandReads (payload : Bytes) : commandAt payload = ofOption ((readCommand payload).map .nodeCommand) := by
  match payload with
  | [] | [_] | [_, _] => rfl
  | rxStatus :: source :: length :: rest =>
    have command : askFor (rxStatus :: source :: length :: rest) 3 (3 + length.toNat) = _ :=
      askForBehind [rxStatus, source, length] rest length.toNat
    simp [commandAt, ask, take, command, readCommand]

theorem updateReads (payload : Bytes) : updateAt payload = ofOption ((readUpdate payload).map .nodeUpdate) := by
  match payload with
  | [] | [_] | [_, _] => rfl
  | status :: nodeId :: length :: rest =>
    have block : askFor (status :: nodeId :: length :: rest) 3 (3 + length.toNat) = _ :=
      askForBehind [status, nodeId, length] rest length.toNat
    simp [updateAt, ask, take, block, infoReads, readUpdate]

theorem networkUpdateReads (make : NetworkUpdate → Message) (payload : Bytes) :
    networkUpdateAt make payload = ofOption ((readNetworkUpdate payload).map make) := by
  match payload with
  | [] | [_] | [_, _] | [_, _, _] => rfl
  | id :: status :: source :: length :: rest =>
    have block : askFor (id :: status :: source :: length :: rest) 4 (4 + length.toNat) = _ :=
      askForBehind [id, status, source, length] rest length.toNat
    simp [networkUpdateAt, ask, take, block, infoReads, readNetworkUpdate]

theorem protocolInfoReads (payload : Bytes) :
    protocolInfoAt payload = ofOption ((readProtocolInfo payload).map .protocolInfo) := by
  match payload with
  | [] | [_] | [_, _] | [_, _, _] | [_, _, _, _] | [_, _, _, _, _] => rfl
  | capability :: security :: reserved :: basic :: generic :: specific :: rest => rfl

theorem byteReads (make : UInt8 → Message) (payload : Bytes) : byteAt make payload = ofOption (payload.head?.map make) := by
  match payload with
  | [] | _ :: _ => rfl

theorem pairReads (make : UInt8 → UInt8 → Message) (payload : Bytes) :
    pairAt make payload = ofOption (readPair make payload) := by
  match payload with
  | [] | [_] | _ :: _ :: _ => rfl

theorem responseReads (function : UInt8) (payload : Bytes) :
    responseAt function payload = ofOption (readResponse function payload) := by
  unfold responseAt
  split
  · exact versionReads payload
  · exact memoryIdReads payload
  · exact initDataReads payload
  · exact protocolInfoReads payload
  · exact byteReads _ payload
  · exact byteReads _ payload
  · simp [readResponse, *]

theorem hostRequestReads (function : UInt8) (payload : Bytes) :
    hostRequestAt function payload = ofOption (readHostRequest function payload) := by
  unfold hostRequestAt
  split
  · rfl
  · rfl
  · rfl
  · exact byteReads .protocolInfoRequest payload
  · exact sendDataReads payload
  · exact byteReads .nodeInfoRequest payload
  · exact pairReads .addNode payload
  · exact pairReads .removeNode payload
  · exact byteReads .setDefault payload
  · simp [readHostRequest, *]

theorem controllerRequestReads (function : UInt8) (payload : Bytes) :
    controllerRequestAt function payload = ofOption (readControllerRequest function payload) := by
  unfold controllerRequestAt
  split
  · exact pairReads .sendDataCallback payload
  · exact commandReads payload
  · exact updateReads payload
  · exact networkUpdateReads .addNodeStatus payload
  · exact networkUpdateReads .removeNodeStatus payload
  · exact byteReads .setDefaultCallback payload
  · simp [readControllerRequest, *]

theorem viewReads (frame : Frame) (sender : Side) : frame.viewAt sender = ofOption (frame.view? sender) := by
  obtain ⟨kind, function, payload⟩ := frame
  cases kind with
  | response => exact responseReads function payload
  | request =>
    cases sender with
    | host => exact hostRequestReads function payload
    | controller => exact controllerRequestReads function payload

end ZWaveHost
