import ZWaveHost.Proofs.Message.Positions
import ZWaveHost.Proofs.Message.Reading

/-! Which frames have a typed view. How far each layout reaches is said here apart from the readers. A layout asks for
bytes and never for their absence, so a longer payload fits where a shorter one does. -/
namespace ZWaveHost

inductive Extent
  | fixed (least : Nat)
  | counted (position others : Nat)
  deriving DecidableEq, Repr

def Extent.Fits : Extent → Bytes → Prop
  | fixed least, payload => least ≤ payload.length
  | counted position others, payload =>
    ∃ length, payload[position]? = some length ∧ others + length.toNat ≤ payload.length

def responseExtent : UInt8 → Option Extent
  | FunctionId.version | FunctionId.sendData | FunctionId.nodeInfo => some (.fixed 1)
  | FunctionId.memoryId => some (.fixed 5)
  | FunctionId.protocolInfo => some (.fixed 6)
  | FunctionId.initData => some (.counted 2 3)
  | _ => none

def hostRequestExtent : UInt8 → Option Extent
  | FunctionId.version | FunctionId.memoryId | FunctionId.initData => some (.fixed 0)
  | FunctionId.protocolInfo | FunctionId.nodeInfo | FunctionId.setDefault => some (.fixed 1)
  | FunctionId.addNode | FunctionId.removeNode => some (.fixed 2)
  | FunctionId.sendData => some (.counted 1 4)
  | _ => none

def controllerRequestExtent : UInt8 → Option Extent
  | FunctionId.sendData => some (.fixed 2)
  | FunctionId.setDefault => some (.fixed 1)
  | FunctionId.addNode | FunctionId.removeNode => some (.fixed 3)
  | FunctionId.applicationCommand | FunctionId.applicationUpdate => some (.counted 2 3)
  | _ => none

def Frame.extent? (frame : Frame) (sender : Side) : Option Extent :=
  match frame.kind, sender with
  | .response, _ => responseExtent frame.function
  | .request, .host => hostRequestExtent frame.function
  | .request, .controller => controllerRequestExtent frame.function

def Frame.LaidOut (frame : Frame) (sender : Side) : Prop :=
  ∃ extent, frame.extent? sender = some extent ∧ extent.Fits frame.payload

def Message.Typed (message : Message) : Prop := ∀ other, message ≠ .unknown other

theorem fitsLonger {extent : Extent} {payload : Bytes} (fits : extent.Fits payload) (more : Bytes) :
    extent.Fits (payload ++ more) := by
  have longer : payload.length ≤ (payload ++ more).length := List.length_append ▸ Nat.le_add_right _ _
  cases extent with
  | fixed least => exact Nat.le_trans fits longer
  | counted position others =>
    obtain ⟨length, there, enough⟩ := fits
    have within : position < payload.length := (List.getElem?_eq_some_iff.mp there).1
    exact ⟨length, (List.getElem?_append_left within).trans there, Nat.le_trans enough longer⟩

theorem countedFits (before : Bytes) (length : UInt8) (rest : Bytes) (behind : Nat) :
    (Extent.counted before.length (before.length + 1 + behind)).Fits (before ++ length :: rest) ↔
      length.toNat + behind ≤ rest.length := by
  simp [Extent.Fits]
  omega

theorem guardedFits {α : Type} (first second length : UInt8) (rest : Bytes) (value : α) :
    (if length.toNat ≤ rest.length then some value else none).isSome ↔
      (Extent.counted 2 3).Fits (first :: second :: length :: rest) :=
  Option.isSome_ite.trans (countedFits [first, second] length rest 0).symm

theorem madeFits {α : Type} {value : Option α} {extent : Extent} {payload : Bytes} (make : α → Message)
    (fits : value.isSome ↔ extent.Fits payload) : (value.map make).isSome ↔ extent.Fits payload := by
  rw [Option.isSome_map]
  exact fits

theorem byteFits (payload : Bytes) : payload.head?.isSome ↔ (Extent.fixed 1).Fits payload := by
  cases payload <;> simp [Extent.Fits]

theorem pairFits (make : UInt8 → UInt8 → Message) (payload : Bytes) :
    (readPair make payload).isSome ↔ (Extent.fixed 2).Fits payload := by
  match payload with
  | [] | [_] | _ :: _ :: _ => simp [readPair, Extent.Fits]

theorem versionFits (payload : Bytes) : (readVersion payload).isSome ↔ (Extent.fixed 1).Fits payload := by
  cases payload with
  | nil => simp [readVersion, Extent.Fits]
  | cons first rest =>
    unfold readVersion
    dsimp only
    split <;> simp [Extent.Fits]

theorem memoryIdFits (payload : Bytes) : (readMemoryId payload).isSome ↔ (Extent.fixed 5).Fits payload := by
  match payload with
  | [] | [_] | [_, _] | [_, _, _] | [_, _, _, _] | _ :: _ :: _ :: _ :: _ :: _ => simp [readMemoryId, Extent.Fits]

theorem protocolInfoFits (payload : Bytes) : (readProtocolInfo payload).isSome ↔ (Extent.fixed 6).Fits payload := by
  match payload with
  | [] | [_] | [_, _] | [_, _, _] | [_, _, _, _] | [_, _, _, _, _] | _ :: _ :: _ :: _ :: _ :: _ :: _ =>
    simp [readProtocolInfo, Extent.Fits]

theorem initDataFits (payload : Bytes) : (readInitData payload).isSome ↔ (Extent.counted 2 3).Fits payload := by
  match payload with
  | [] | [_] | [_, _] => simp [readInitData, Extent.Fits]
  | apiVersion :: capabilities :: length :: rest => exact guardedFits apiVersion capabilities length rest _

theorem commandFits (payload : Bytes) : (readCommand payload).isSome ↔ (Extent.counted 2 3).Fits payload := by
  match payload with
  | [] | [_] | [_, _] => simp [readCommand, Extent.Fits]
  | rxStatus :: source :: length :: rest => exact guardedFits rxStatus source length rest _

theorem updateFits (payload : Bytes) : (readUpdate payload).isSome ↔ (Extent.counted 2 3).Fits payload := by
  match payload with
  | [] | [_] | [_, _] => simp [readUpdate, Extent.Fits]
  | status :: nodeId :: length :: rest => exact guardedFits status nodeId length rest _

theorem sendDataFits (payload : Bytes) : (readSendData payload).isSome ↔ (Extent.counted 1 4).Fits payload := by
  match payload with
  | [] | [_] => simp [readSendData, Extent.Fits]
  | nodeId :: length :: rest =>
    have fits := countedFits [nodeId] length rest 2
    have tail : (readSendData (nodeId :: length :: rest)).isSome ↔ 2 ≤ (rest.drop length.toNat).length := by
      rcases behind : rest.drop length.toNat with _ | ⟨_, _ | _⟩ <;> simp [readSendData, behind]
    rw [List.length_drop] at tail
    exact tail.trans (Iff.trans (by omega) fits.symm)

theorem networkUpdateFits (payload : Bytes) : (readNetworkUpdate payload).isSome ↔ (Extent.fixed 3).Fits payload := by
  match payload with
  | [] | [_] | [_, _] | _ :: _ :: _ :: _ => simp [readNetworkUpdate, Extent.Fits]

theorem ownExtent {typed : Prop} {extent : Extent} {payload : Bytes} (fits : typed ↔ extent.Fits payload) :
    typed ↔ ∃ own, some extent = some own ∧ own.Fits payload := by
  simpa using fits

theorem responseFits (function : UInt8) (payload : Bytes) :
    (readResponse function payload).isSome ↔
      ∃ extent, responseExtent function = some extent ∧ extent.Fits payload := by
  unfold responseExtent
  split
  · exact ownExtent (versionFits payload)
  · exact ownExtent (madeFits _ (byteFits payload))
  · exact ownExtent (madeFits _ (byteFits payload))
  · exact ownExtent (memoryIdFits payload)
  · exact ownExtent (madeFits _ (protocolInfoFits payload))
  · exact ownExtent (madeFits _ (initDataFits payload))
  · simp [readResponse, *]

theorem hostRequestFits (function : UInt8) (payload : Bytes) :
    (readHostRequest function payload).isSome ↔
      ∃ extent, hostRequestExtent function = some extent ∧ extent.Fits payload := by
  unfold hostRequestExtent
  split
  · exact ownExtent (iff_of_true rfl (Nat.zero_le _))
  · exact ownExtent (iff_of_true rfl (Nat.zero_le _))
  · exact ownExtent (iff_of_true rfl (Nat.zero_le _))
  · exact ownExtent (madeFits _ (byteFits payload))
  · exact ownExtent (madeFits _ (byteFits payload))
  · exact ownExtent (madeFits _ (byteFits payload))
  · exact ownExtent (pairFits _ payload)
  · exact ownExtent (pairFits _ payload)
  · exact ownExtent (sendDataFits payload)
  · simp [readHostRequest, *]

theorem controllerRequestFits (function : UInt8) (payload : Bytes) :
    (readControllerRequest function payload).isSome ↔
      ∃ extent, controllerRequestExtent function = some extent ∧ extent.Fits payload := by
  unfold controllerRequestExtent
  split
  · exact ownExtent (pairFits _ payload)
  · exact ownExtent (madeFits _ (byteFits payload))
  · exact ownExtent (madeFits _ (networkUpdateFits payload))
  · exact ownExtent (madeFits _ (networkUpdateFits payload))
  · exact ownExtent (madeFits _ (commandFits payload))
  · exact ownExtent (madeFits _ (updateFits payload))
  · simp [readControllerRequest, *]

theorem viewFits (frame : Frame) (sender : Side) : (frame.view? sender).isSome ↔ frame.LaidOut sender := by
  obtain ⟨kind, function, payload⟩ := frame
  cases kind with
  | response => exact responseFits function payload
  | request =>
    cases sender with
    | host => exact hostRequestFits function payload
    | controller => exact controllerRequestFits function payload

theorem typedView (frame : Frame) (sender : Side) :
    (Message.ofFrame frame sender).Typed ↔ (frame.view? sender).isSome := by
  rcases ofFrameView frame sender with ⟨none, own⟩ | view
  · rw [none, own]
    exact iff_of_false (fun typed => typed frame rfl) nofun
  · rw [view]
    exact iff_of_true (viewKeeps view).known rfl

/-- Whatever a frame holds and whoever sent it: no byte is looked for outside the payload. The frame has a typed view if
and only if there is a layout for it that its payload is long enough for; any other frame stays as it is. So bytes behind a
payload never take a view away. -/
theorem viewExact (frame : Frame) (sender : Side) :
    (∀ stop size, frame.viewAt sender ≠ .overrun stop size) ∧
      frame.viewAt sender = .ofOption (frame.view? sender) ∧
      ((Message.ofFrame frame sender).Typed ↔ frame.LaidOut sender) ∧
      (¬ frame.LaidOut sender → Message.ofFrame frame sender = .unknown frame) ∧
      ∀ more, (Message.ofFrame frame sender).Typed →
        (Message.ofFrame { frame with payload := frame.payload ++ more } sender).Typed := by
  have typed (frame : Frame) : (Message.ofFrame frame sender).Typed ↔ frame.LaidOut sender :=
    (typedView frame sender).trans (viewFits frame sender)
  refine ⟨fun stop size => ?_, viewReads frame sender, typed frame, fun short => ?_, fun more there => ?_⟩
  · rw [viewReads]
    cases frame.view? sender <;> nofun
  · rcases ofFrameView frame sender with ⟨-, own⟩ | view
    · exact own
    · exact absurd ((typed frame).mp (viewKeeps view).known) short
  · obtain ⟨extent, layout, fits⟩ := (typed frame).mp there
    exact (typed _).mpr ⟨extent, layout, fitsLonger fits more⟩

theorem sendDataOneShort :
    let short : Frame := .request FunctionId.sendData [0x05, 0x02, 0x20, 0x01, 0x25]
    let whole : Frame := .request FunctionId.sendData [0x05, 0x02, 0x20, 0x01, 0x25, 0x07]
    Message.ofFrame short .host = .unknown short ∧
      ∀ more, (Message.ofFrame { whole with payload := whole.payload ++ more } .host).Typed := by
  intro short whole
  have lacking : ¬ short.LaidOut .host := by
    rintro ⟨_, ⟨⟩, _, ⟨⟩, enough⟩
    exact absurd enough (by decide)
  have laidOut : whole.LaidOut .host := ⟨.counted 1 4, rfl, 0x02, rfl, by decide⟩
  obtain ⟨-, -, -, unknown, -⟩ := viewExact short .host
  obtain ⟨-, -, typed, -, longer⟩ := viewExact whole .host
  exact ⟨unknown lacking, fun more => longer more (typed.mpr laidOut)⟩

end ZWaveHost
