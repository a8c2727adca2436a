import ZWaveHost.Proofs.Message.Reading
import ZWaveHost.Proofs.Message.RoundTrip

/-! What was read from a frame can be written, and is read from what was written. A reader forgives much: bytes behind the
layout, a missing end, text that is not well formed. None of this comes back when the message is laid out, and nothing
else changes. Only a list of ids that are not in order or no node's has no mask of its own. -/
namespace ZWaveHost

namespace Message

def Ordered (message : Message) : Prop :=
  ∀ data, message = .initData data →
    data.nodeIds.Pairwise (· < ·) ∧ ∀ id ∈ data.nodeIds, 1 ≤ id ∧ id ≤ maxNodeId

structure Normal (message : Message) : Prop where
  laidOut : ∃ frame, message.toFrame = .ok frame
  canonical : message.Ordered → message.Canonical

end Message

theorem sizeByteFits (field : LengthField) {size : Nat} (small : size ≤ 255) :
    ∃ length, field.sizeByte size = .ok length :=
  ⟨_, if_pos small⟩

theorem takenSmall (length : UInt8) (rest : Bytes) : (rest.take length.toNat).length ≤ 255 :=
  Nat.le_trans (List.length_take_le _ _) (Nat.le_of_lt_succ length.toNat_lt)

theorem goesOn {α β : Type} {first : Except Fault α} {next : α → Except Fault β} {value : α} {result : β}
    (done : first = .ok value) (later : next value = .ok result) : first >>= next = .ok result := by
  rw [done]
  exact later

theorem infoKept (nodeId : NodeId) {block : Bytes} (small : block.length ≤ 255) :
    (∃ bytes, infoBlock (NodeInfo.ofBlock? nodeId block) = .ok bytes) ∧
      ∀ info, NodeInfo.ofBlock? nodeId block = some info → info.nodeId = nodeId := by
  unfold NodeInfo.ofBlock?
  split
  · obtain ⟨length, fits⟩ := sizeByteFits .nodeInfo small
    refine ⟨⟨_, goesOn fits rfl⟩, fun info same => ?_⟩
    cases same
    rfl
  · exact ⟨⟨_, rfl⟩, nofun⟩

theorem readVersionNormal {payload : Bytes} {message : Message} (read : readVersion payload = some message) :
    message.Normal := by
  obtain ⟨text, libraryType, rfl, free⟩ := readVersionShape read
  refine ⟨⟨_, rfl⟩, fun _ c there => ?_⟩
  rw [String.toList_ofList] at there
  exact Text.Utf8.decodedZeroFree free c there

example : readVersion [0x5A, 0xFF, 0xE2, 0x82, 0x01] = some (.version "Z\uFFFD\uFFFD" 0x01) ∧
    (Message.version "Z\uFFFD\uFFFD" 0x01).toFrame =
      .ok (.response FunctionId.version [0x5A, 0xEF, 0xBF, 0xBD, 0xEF, 0xBF, 0xBD, 0x00, 0x01]) := by
  decide +kernel

theorem readSendDataNormal {payload : Bytes} {message : Message} (read : readSendData payload = some message) :
    message.Normal := by
  obtain ⟨nodeId, data, options, id, rfl, small⟩ := readSendDataShape read
  obtain ⟨length, fits⟩ := sizeByteFits .sendData small
  exact ⟨⟨_, goesOn fits rfl⟩, fun _ => trivial⟩

theorem readCommandNormal {payload : Bytes} {command : NodeCommand} (read : readCommand payload = some command) :
    (Message.nodeCommand command).Normal := by
  unfold readCommand at read
  split at read
  · rename_i length rest
    split at read
    · cases read
      obtain ⟨own, fits⟩ := sizeByteFits .command (takenSmall length rest)
      exact ⟨⟨_, goesOn fits rfl⟩, fun _ => trivial⟩
    · contradiction
  · contradiction

theorem readUpdateNormal {payload : Bytes} {update : NodeUpdate} (read : readUpdate payload = some update) :
    (Message.nodeUpdate update).Normal := by
  unfold readUpdate at read
  split at read
  · rename_i status nodeId length rest
    split at read
    · cases read
      obtain ⟨⟨bytes, written⟩, own⟩ := infoKept nodeId (takenSmall length rest)
      exact ⟨⟨_, goesOn written rfl⟩, fun _ => own⟩
    · contradiction
  · contradiction

theorem readNetworkUpdateInfo {payload : Bytes} {update : NetworkUpdate}
    (read : readNetworkUpdate payload = some update) :
    ∃ block, update.info = NodeInfo.ofBlock? update.source block ∧ block.length ≤ 255 := by
  unfold readNetworkUpdate at read
  split at read
  · cases read
    dsimp only
    split
    · exact ⟨[], rfl, Nat.zero_le _⟩
    · rename_i length block
      split
      · exact ⟨_, rfl, takenSmall length block⟩
      · exact ⟨[], rfl, Nat.zero_le _⟩
  · contradiction

theorem networkUpdateKept {payload : Bytes} {update : NetworkUpdate} (read : readNetworkUpdate payload = some update) :
    (∃ bytes, update.payload = .ok bytes) ∧ ∀ info, update.info = some info → info.nodeId = update.source := by
  obtain ⟨block, same, small⟩ := readNetworkUpdateInfo read
  obtain ⟨⟨bytes, written⟩, own⟩ := infoKept update.source small
  rw [← same] at written own
  exact ⟨⟨_, goesOn written rfl⟩, own⟩

theorem readResponseNormal {function : UInt8} {payload : Bytes} {message : Message}
    (read : readResponse function payload = some message) : message.Normal := by
  unfold readResponse at read
  split at read
  · exact readVersionNormal read
  · exact madeHas read fun _ => ⟨⟨_, rfl⟩, fun _ => trivial⟩
  · exact madeHas read fun data => ⟨⟨_, rfl⟩, fun ordered => ordered data rfl⟩
  · exact madeHas read fun _ => ⟨⟨_, rfl⟩, fun _ => trivial⟩
  · exact madeHas read fun _ => ⟨⟨_, rfl⟩, fun _ => trivial⟩
  · exact madeHas read fun _ => ⟨⟨_, rfl⟩, fun _ => trivial⟩
  · contradiction

theorem readHostRequestNormal {function : UInt8} {payload : Bytes} {message : Message}
    (read : readHostRequest function payload = some message) : message.Normal := by
  unfold readHostRequest at read
  split at read
  · exact Option.some.inj read ▸ ⟨⟨_, rfl⟩, fun _ => trivial⟩
  · exact Option.some.inj read ▸ ⟨⟨_, rfl⟩, fun _ => trivial⟩
  · exact Option.some.inj read ▸ ⟨⟨_, rfl⟩, fun _ => trivial⟩
  · exact madeHas read fun _ => ⟨⟨_, rfl⟩, fun _ => trivial⟩
  · exact readSendDataNormal read
  · exact madeHas read fun _ => ⟨⟨_, rfl⟩, fun _ => trivial⟩
  · exact pairHas read fun _ _ => ⟨⟨_, rfl⟩, fun _ => trivial⟩
  · exact pairHas read fun _ _ => ⟨⟨_, rfl⟩, fun _ => trivial⟩
  · exact madeHas read fun _ => ⟨⟨_, rfl⟩, fun _ => trivial⟩
  · contradiction

theorem readControllerRequestNormal {function : UInt8} {payload : Bytes} {message : Message}
    (read : readControllerRequest function payload = some message) : message.Normal := by
  unfold readControllerRequest at read
  split at read
  · exact pairHas read fun _ _ => ⟨⟨_, rfl⟩, fun _ => trivial⟩
  · obtain ⟨command, taken, rfl⟩ := Option.map_eq_some_iff.mp read
    exact readCommandNormal taken
  · obtain ⟨update, taken, rfl⟩ := Option.map_eq_some_iff.mp read
    exact readUpdateNormal taken
  · obtain ⟨update, taken, rfl⟩ := Option.map_eq_some_iff.mp read
    obtain ⟨⟨bytes, written⟩, own⟩ := networkUpdateKept taken
    exact ⟨⟨_, goesOn written rfl⟩, fun _ => own⟩
  · obtain ⟨update, taken, rfl⟩ := Option.map_eq_some_iff.mp read
    obtain ⟨⟨bytes, written⟩, own⟩ := networkUpdateKept taken
    exact ⟨⟨_, goesOn written rfl⟩, fun _ => own⟩
  · exact madeHas read fun _ => ⟨⟨_, rfl⟩, fun _ => trivial⟩
  · contradiction

theorem viewNormal {frame : Frame} {sender : Side} {message : Message} (view : frame.view? sender = some message) :
    message.Normal := by
  obtain ⟨kind, function, payload⟩ := frame
  cases kind with
  | response => exact readResponseNormal view
  | request =>
    cases sender with
    | host => exact readHostRequestNormal view
    | controller => exact readControllerRequestNormal view

theorem laidOutKeeps {message : Message} {frame : Frame} (laidOut : message.toFrame = .ok frame) :
    frame.isResponse = message.isResponse ∧ frame.function = message.function := by
  cases message with
  | sendData | nodeCommand | nodeUpdate | addNodeStatus | removeNodeStatus =>
    obtain ⟨_, _, ⟨⟩⟩ := bothDone laidOut
    exact ⟨rfl, rfl⟩
  | _ =>
    cases laidOut
    exact ⟨rfl, rfl⟩

theorem sameKind {frame other : Frame} (same : frame.isResponse = other.isResponse) : frame.kind = other.kind := by
  obtain ⟨kind, _, _⟩ := frame
  obtain ⟨kind_, _, _⟩ := other
  cases kind <;> cases kind_ <;> first | rfl | contradiction

theorem ofResponse {frame : Frame} (response : frame.isResponse = true) (sender other : Side) :
    Message.ofFrame frame sender = Message.ofFrame frame other := by
  obtain ⟨kind, _, _⟩ := frame
  cases kind with
  | response => rfl
  | request => contradiction

/-- Whatever a frame holds and whoever sent it: a frame without a typed view stays as it is. Any other is a message that
can be laid out, in a frame of the same kind and function, and the message is what is read from that frame, too; only node
ids that are not in order or no node's are not. -/
theorem readNormalised (frame : Frame) (sender : Side) :
    let message := Message.ofFrame frame sender
    (∀ other, message = .unknown other → other = frame) ∧
      ((∀ other, message ≠ .unknown other) →
        ∃ written, message.toFrame = .ok written ∧ written.kind = frame.kind ∧ written.function = frame.function ∧
          ((∀ data, message = .initData data →
              data.nodeIds.Pairwise (· < ·) ∧ ∀ id ∈ data.nodeIds, 1 ≤ id ∧ id ≤ maxNodeId) →
            Message.ofFrame written sender = message)) := by
  intro message
  rcases ofFrameView frame sender with ⟨-, own⟩ | view
  · refine ⟨fun other same => ?_, fun known => absurd own (known frame)⟩
    cases own.symm.trans same
    rfl
  · obtain ⟨response, function, side, known⟩ := viewKeeps view
    refine ⟨fun other same => absurd same (known other), fun _ => ?_⟩
    obtain ⟨⟨written, laidOut⟩, canonical⟩ := viewNormal view
    obtain ⟨response_, function_⟩ := laidOutKeeps laidOut
    refine ⟨written, laidOut, sameKind (response_.trans response), function_.trans function, fun ordered => ?_⟩
    have readBack := laidOutReadBack (canonical ordered) laidOut
    cases kind : frame.isResponse with
    | true => exact (ofResponse (response_.trans (response.trans kind)) _ _).trans readBack
    | false => rw [side kind] at readBack; exact readBack

theorem shortMaskNormalised :
    let frame : Frame := .response FunctionId.initData [0x05, 0x08, 0x01, 0x11]
    let data : InitData := ⟨0x05, 0x08, [1, 5], 0x00, 0x00⟩
    let message := Message.ofFrame frame .controller
    message = .initData data ∧ (∀ other, message ≠ .unknown other) ∧
      (data.nodeIds.Pairwise (· < ·) ∧ ∀ id ∈ data.nodeIds, 1 ≤ id ∧ id ≤ maxNodeId) ∧
      ∃ written, message.toFrame = .ok written ∧ written.kind = .response ∧ written.function = FunctionId.initData ∧
        written.payload = 0x05 :: 0x08 :: 0x1D :: 0x11 :: List.replicate 30 0x00 ∧
        Message.ofFrame written .controller = message := by
  intro frame data message
  have read : message = .initData data := by decide +kernel
  have known (other) : message ≠ .unknown other := read ▸ nofun
  have ordered : data.nodeIds.Pairwise (· < ·) ∧ ∀ id ∈ data.nodeIds, 1 ≤ id ∧ id ≤ maxNodeId := by decide +kernel
  obtain ⟨written, laidOut, kind, function, readBack⟩ := (readNormalised frame .controller).2 known
  have payload : message.toFrame.toOption.map Frame.payload =
      some (0x05 :: 0x08 :: 0x1D :: 0x11 :: List.replicate 30 0x00) := by decide +kernel
  rw [laidOut] at payload
  refine ⟨read, known, ordered, written, laidOut, kind, function, Option.some.inj payload, readBack fun other same => ?_⟩
  cases read.symm.trans same
  exact ordered

end ZWaveHost
