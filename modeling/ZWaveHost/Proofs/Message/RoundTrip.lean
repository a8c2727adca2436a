import ZWaveHost.Proofs.Decoder.RoundTrip
import ZWaveHost.Proofs.Message.NodeMask
import ZWaveHost.Proofs.Text.Utf8

/-! A message that can be put on the line is read from it as it was. Only what the layout has no room for is asked of
the message: no zero character in a library name, node ids in order, and no second node id in an info block. -/
namespace ZWaveHost

namespace Message

def Canonical : Message → Prop
  | version library _ => ∀ c ∈ library.toList, c.toNat ≠ 0
  | initData data => data.nodeIds.Pairwise (· < ·) ∧ ∀ id ∈ data.nodeIds, 1 ≤ id ∧ id ≤ maxNodeId
  | nodeUpdate update => ∀ info, update.info = some info → info.nodeId = update.nodeId
  | addNodeStatus update | removeNodeStatus update => ∀ info, update.info = some info → info.nodeId = update.source
  | unknown frame => Message.ofFrame frame .controller = .unknown frame
  | _ => True

end Message

theorem bothDone {α β : Type} {first : Except Fault α} {next : α → Except Fault β} {result : β}
    (done : first >>= next = .ok result) : ∃ value, first = .ok value ∧ next value = .ok result := by
  cases first with
  | error fault => contradiction
  | ok value => exact ⟨value, rfl, done⟩

theorem sizeByteCounts {field : LengthField} {size : Nat} {length : UInt8} (fits : field.sizeByte size = .ok length) :
    length.toNat = size := by
  unfold LengthField.sizeByte at fits
  split at fits
  · cases fits
    rw [UInt8.toNat_ofNat']
    omega
  · contradiction

theorem versionReadBack {library : String} (free : ∀ c ∈ library.toList, c.toNat ≠ 0) (libraryType : UInt8) :
    readVersion (Text.Utf8.encodeString library ++ [0, libraryType]) = some (.version library libraryType) := by
  have text : ∀ byte ∈ Text.Utf8.encodeString library, decide (byte ≠ 0) = true := fun byte there =>
    decide_eq_true (Text.Utf8.zeroFree free byte there)
  have taken : (Text.Utf8.encodeString library ++ [0, libraryType]).takeWhile (· ≠ 0) =
      Text.Utf8.encodeString library := by
    rw [List.takeWhile_append_of_pos text]
    exact List.append_nil _
  have left : (Text.Utf8.encodeString library ++ [0, libraryType]).dropWhile (· ≠ 0) = [0, libraryType] :=
    List.dropWhile_append_of_pos text
  simp only [readVersion, taken, left]
  rw [Text.Utf8.encodeString, Text.Utf8.decodeLossyEncode, String.ofList_toList]

theorem memoryIdReadBack (homeId : UInt32) (nodeId : NodeId) :
    readMemoryId (Wire.BigEndian.encode 4 homeId.toNat ++ [nodeId]) = some (.memoryId homeId nodeId) := by
  have size := Wire.BigEndian.encodeLength 4 homeId.toNat
  have last : (Wire.BigEndian.encode 4 homeId.toNat ++ [nodeId])[4]? = some nodeId := by
    rw [List.getElem?_append_right (by omega), size]
    rfl
  have number : (Wire.BigEndian.encode 4 homeId.toNat ++ [nodeId]).take 4 = Wire.BigEndian.encode 4 homeId.toNat :=
    List.take_left' size
  rw [readMemoryId, last, Option.map_some, number, Wire.BigEndian.decodeEncode homeId.toNat_lt, UInt32.ofNat_toNat]

theorem initDataRead (data : InitData) :
    readInitData (data.apiVersion :: data.capabilities :: UInt8.ofNat nodeMaskSize ::
      (nodeMask data.nodeIds ++ [data.chipType, data.chipVersion])) =
        some { data with nodeIds := readMask (nodeMask data.nodeIds) } := by
  have size : (nodeMask data.nodeIds).length = (UInt8.ofNat nodeMaskSize).toNat := nodeMaskLength data.nodeIds
  simp only [readInitData, ← size, List.take_left, List.drop_left]
  simp

theorem initDataReadBack {data : InitData} (ascending : data.nodeIds.Pairwise (· < ·))
    (real : ∀ id ∈ data.nodeIds, 1 ≤ id ∧ id ≤ maxNodeId) :
    readInitData (data.apiVersion :: data.capabilities :: UInt8.ofNat nodeMaskSize ::
      (nodeMask data.nodeIds ++ [data.chipType, data.chipVersion])) = some data := by
  rw [initDataRead, maskReadBack ascending real]

theorem sendDataReadBack {nodeId length options id : UInt8} {data : Bytes} (counted : length.toNat = data.length) :
    readSendData (nodeId :: length :: (data ++ [options, id])) = some (.sendData nodeId data options id) := by
  simp [readSendData, counted]

theorem commandReadBack {command : NodeCommand} {length : UInt8} (counted : length.toNat = command.command.length) :
    readCommand (command.rxStatus :: command.source :: length :: command.command) = some command := by
  simp [readCommand, counted]

theorem infoReadBack {info : Option NodeInfo} {bytes : Bytes} {nodeId : NodeId} (written : infoBlock info = .ok bytes)
    (own : ∀ known, info = some known → known.nodeId = nodeId) :
    ∃ length block, bytes = length :: block ∧ length.toNat = block.length ∧ NodeInfo.ofBlock? nodeId block = info := by
  obtain ⟨length, fits, ⟨⟩⟩ := bothDone written
  refine ⟨length, _, rfl, sizeByteCounts fits, ?_⟩
  cases info with
  | none => rfl
  | some known => rw [← own known rfl]; exact known.ofBlockOfBlock

theorem nodeUpdateReadBack {update : NodeUpdate} {bytes : Bytes} (written : infoBlock update.info = .ok bytes)
    (own : ∀ info, update.info = some info → info.nodeId = update.nodeId) :
    readUpdate (update.status :: update.nodeId :: bytes) = some update := by
  obtain ⟨length, block, rfl, counted, read⟩ := infoReadBack written own
  simp [readUpdate, counted, read]

theorem networkUpdateReadBack {update : NetworkUpdate} {bytes : Bytes} (written : update.payload = .ok bytes)
    (own : ∀ info, update.info = some info → info.nodeId = update.source) :
    readNetworkUpdate bytes = some update := by
  obtain ⟨rest, info, ⟨⟩⟩ := bothDone written
  obtain ⟨length, block, rfl, counted, read⟩ := infoReadBack info own
  simp [readNetworkUpdate, counted, read]

theorem viewed {frame : Frame} {sender : Side} {message : Message} (view : frame.view? sender = some message) :
    Message.ofFrame frame sender = message := by
  rw [Message.ofFrame, view]
  rfl

theorem laidOutReadBack {message : Message} {frame : Frame} (canonical : message.Canonical)
    (laidOut : message.toFrame = .ok frame) : Message.ofFrame frame message.side = message := by
  cases message with
  | versionRequest | memoryIdRequest | initDataRequest | protocolInfoRequest | nodeInfoRequest | addNode | removeNode
  | setDefault | sendDataCallback | setDefaultCallback | protocolInfo =>
    cases laidOut
    rfl
  | version library libraryType =>
    cases laidOut
    exact viewed (versionReadBack canonical libraryType)
  | memoryId homeId nodeId =>
    cases laidOut
    exact viewed (memoryIdReadBack homeId nodeId)
  | initData data =>
    cases laidOut
    exact viewed (congrArg (Option.map Message.initData) (initDataReadBack canonical.1 canonical.2))
  | sendDataResponse accepted | nodeInfoResponse accepted =>
    cases laidOut
    cases accepted <;> rfl
  | sendData nodeId data options id =>
    obtain ⟨length, fits, ⟨⟩⟩ := bothDone laidOut
    exact viewed (sendDataReadBack (sizeByteCounts fits))
  | nodeCommand command =>
    obtain ⟨length, fits, ⟨⟩⟩ := bothDone laidOut
    exact viewed (congrArg (Option.map Message.nodeCommand) (commandReadBack (sizeByteCounts fits)))
  | nodeUpdate update =>
    obtain ⟨block, written, ⟨⟩⟩ := bothDone laidOut
    exact viewed (congrArg (Option.map Message.nodeUpdate) (nodeUpdateReadBack written canonical))
  | addNodeStatus update =>
    obtain ⟨payload, written, ⟨⟩⟩ := bothDone laidOut
    exact viewed (congrArg (Option.map Message.addNodeStatus) (networkUpdateReadBack written canonical))
  | removeNodeStatus update =>
    obtain ⟨payload, written, ⟨⟩⟩ := bothDone laidOut
    exact viewed (congrArg (Option.map Message.removeNodeStatus) (networkUpdateReadBack written canonical))
  | unknown frame_ =>
    cases laidOut
    exact canonical

theorem validFits {message : Message} (valid : message.validate = .ok ()) :
    ∃ frame : Frame, message.toFrame = .ok frame ∧ frame.payload.length ≤ Wire.maxPayload := by
  obtain ⟨frame, laidOut, checked⟩ := bothDone valid
  obtain ⟨length, counted, _⟩ := bothDone checked
  refine ⟨frame, laidOut, ?_⟩
  unfold Frame.lengthByte at counted
  split at counted
  · rename_i small
    exact Nat.le_sub_of_add_le small
  · contradiction

/-- A canonical message that passes the check has a frame, and its bytes can be written. However they are cut and
whenever the parts arrive, that frame is the one thing read from them, and read by the other side it is the message. -/
theorem messageSurvives (message : Message) (canonical : message.Canonical) (valid : message.validate = .ok ()) :
    ∃ frame bytes, message.toFrame = .ok frame ∧ message.encode = .ok bytes ∧
      (∀ parts : List (Time × Bytes), (parts.map (·.2)).flatten = bytes →
        let (decoder, items) := ({} : Decoder).run (deliveries parts)
        items.flatten = [.frame frame] ∧ decoder = {}) ∧
      Message.ofFrame frame message.side = message := by
  obtain ⟨frame, laidOut, fits⟩ := validFits valid
  obtain ⟨length, _, encoded, _⟩ := Token.frameWire fits
  have bytes : message.encode = .ok (Token.frame frame fits).wire := by
    rw [Message.encode, laidOut]
    exact encoded
  refine ⟨frame, _, laidOut, bytes, fun parts cut => ?_, laidOutReadBack canonical laidOut⟩
  have tokens : (parts.map (·.2)).flatten = [Token.frame frame fits].flatMap Token.wire := by
    rw [cut, List.flatMap_singleton]
  have fresh : Decoder.Asks Decoder.frameBehind ({} : Decoder).pending := nofun
  exact Token.runReads fresh tokens

theorem inclusionSurvives :
    let message : Message := .addNodeStatus
      { callbackId := 3, status := 3, source := 6
        info := some { nodeId := 6, deviceClass := ⟨0x04, 0x10, 0x01⟩, commandClasses := [0x25, 0x01, 0x06] } }
    let parts : List (Time × Bytes) :=
      [(0, [0x01, 0x0D, 0x00, 0x4A, 0x03, 0x03, 0x06, 0x06, 0x04, 0x10, 0x01]), (7, [0x25, 0x01]), (9, [0x06, 0x8F])]
    message.Canonical ∧ message.validate = .ok () ∧ message.encode = .ok (parts.map (·.2)).flatten ∧
      ∃ frame, (({} : Decoder).run (deliveries parts)).2.flatten = [.frame frame] ∧
        Message.ofFrame frame .controller = message := by
  intro message parts
  have canonical : message.Canonical := by
    intro info known
    cases known
    rfl
  have valid : message.validate = .ok () := rfl
  have encoded : message.encode = .ok (parts.map (·.2)).flatten := rfl
  obtain ⟨frame, bytes, _, encoded_, reads, view⟩ := messageSurvives message canonical valid
  cases encoded.symm.trans encoded_
  exact ⟨canonical, valid, encoded, frame, (reads parts rfl).1, view⟩

end ZWaveHost
