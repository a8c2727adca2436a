import Mathlib.Data.List.TakeWhile
import ZWaveHost.Message.Layout

/-! What the typed view of a frame keeps of the frame: whether it is a response, its function id, and the side that sent
a request. A view is never taken for another function, and a frame without a view says of itself what it is. -/
namespace ZWaveHost

theorem readVersionShape {payload : Bytes} {message : Message} (read : readVersion payload = some message) :
    ∃ text libraryType, message = .version (String.ofList (Text.Utf8.decodeLossy text)) libraryType ∧
      ∀ byte ∈ text, byte ≠ 0 := by
  have before (byte) (there : byte ∈ payload.takeWhile (· ≠ 0)) : byte ≠ 0 := by
    simpa using List.mem_takeWhile_imp there
  unfold readVersion at read
  dsimp only at read
  split at read
  · exact ⟨_, _, (Option.some.inj read).symm, before⟩
  · exact ⟨_, _, (Option.some.inj read).symm, before⟩
  · rename_i none
    obtain ⟨libraryType, _, rfl⟩ := Option.map_eq_some_iff.mp read
    refine ⟨_, _, rfl, fun byte there => ?_⟩
    exact of_decide_eq_true (List.dropWhile_eq_nil_iff.mp none byte (List.dropLast_subset _ there))

theorem madeHas {α : Type} {value : Option α} {make : α → Message} {message : Message} {Has : Message → Prop}
    (made : value.map make = some message) (has : ∀ value, Has (make value)) : Has message := by
  obtain ⟨read, _, rfl⟩ := Option.map_eq_some_iff.mp made
  exact has read

theorem pairHas {make : UInt8 → UInt8 → Message} {payload : Bytes} {message : Message} {Has : Message → Prop}
    (made : readPair make payload = some message) (has : ∀ first second, Has (make first second)) : Has message := by
  unfold readPair at made
  split at made
  · exact Option.some.inj made ▸ has _ _
  · contradiction

theorem readSendDataShape {payload : Bytes} {message : Message} (read : readSendData payload = some message) :
    ∃ nodeId data options id, message = .sendData nodeId data options id ∧ data.length ≤ 255 := by
  unfold readSendData at read
  split at read
  · rename_i nodeId length rest
    split at read
    · refine ⟨nodeId, rest.take length.toNat, _, _, (Option.some.inj read).symm, ?_⟩
      exact Nat.le_trans (List.length_take_le _ _) (Nat.le_of_lt_succ length.toNat_lt)
    · contradiction
  · contradiction

structure Message.Keeps (frame : Frame) (sender : Side) (message : Message) : Prop where
  response : message.isResponse = frame.isResponse
  function : message.function = frame.function
  side : frame.isResponse = false → message.side = sender
  known : ∀ other, message ≠ .unknown other

theorem readResponseKeeps {function : UInt8} {payload : Bytes} {message : Message} (sender : Side)
    (read : readResponse function payload = some message) : message.Keeps (.response function payload) sender := by
  unfold readResponse at read
  split at read
  · obtain ⟨_, _, rfl, -⟩ := readVersionShape read
    exact ⟨rfl, rfl, nofun, nofun⟩
  · exact madeHas read fun _ => ⟨rfl, rfl, nofun, nofun⟩
  · exact madeHas read fun _ => ⟨rfl, rfl, nofun, nofun⟩
  · exact madeHas read fun _ => ⟨rfl, rfl, nofun, nofun⟩
  · exact madeHas read fun _ => ⟨rfl, rfl, nofun, nofun⟩
  · exact madeHas read fun _ => ⟨rfl, rfl, nofun, nofun⟩
  · contradiction

theorem readHostRequestKeeps {function : UInt8} {payload : Bytes} {message : Message}
    (read : readHostRequest function payload = some message) : message.Keeps (.request function payload) .host := by
  unfold readHostRequest at read
  split at read
  · exact Option.some.inj read ▸ ⟨rfl, rfl, fun _ => rfl, nofun⟩
  · exact Option.some.inj read ▸ ⟨rfl, rfl, fun _ => rfl, nofun⟩
  · exact Option.some.inj read ▸ ⟨rfl, rfl, fun _ => rfl, nofun⟩
  · exact madeHas read fun _ => ⟨rfl, rfl, fun _ => rfl, nofun⟩
  · obtain ⟨_, _, _, _, rfl, -⟩ := readSendDataShape read
    exact ⟨rfl, rfl, fun _ => rfl, nofun⟩
  · exact madeHas read fun _ => ⟨rfl, rfl, fun _ => rfl, nofun⟩
  · exact pairHas read fun _ _ => ⟨rfl, rfl, fun _ => rfl, nofun⟩
  · exact pairHas read fun _ _ => ⟨rfl, rfl, fun _ => rfl, nofun⟩
  · exact madeHas read fun _ => ⟨rfl, rfl, fun _ => rfl, nofun⟩
  · contradiction

theorem readControllerRequestKeeps {function : UInt8} {payload : Bytes} {message : Message}
    (read : readControllerRequest function payload = some message) :
    message.Keeps (.request function payload) .controller := by
  unfold readControllerRequest at read
  split at read
  · exact pairHas read fun _ _ => ⟨rfl, rfl, fun _ => rfl, nofun⟩
  · exact madeHas read fun _ => ⟨rfl, rfl, fun _ => rfl, nofun⟩
  · exact madeHas read fun _ => ⟨rfl, rfl, fun _ => rfl, nofun⟩
  · exact madeHas read fun _ => ⟨rfl, rfl, fun _ => rfl, nofun⟩
  · exact madeHas read fun _ => ⟨rfl, rfl, fun _ => rfl, nofun⟩
  · exact madeHas read fun _ => ⟨rfl, rfl, fun _ => rfl, nofun⟩
  · contradiction

theorem viewKeeps {frame : Frame} {sender : Side} {message : Message} (view : frame.view? sender = some message) :
    message.Keeps frame sender := by
  obtain ⟨kind, function, payload⟩ := frame
  cases kind with
  | response => exact readResponseKeeps sender view
  | request =>
    cases sender with
    | host => exact readHostRequestKeeps view
    | controller => exact readControllerRequestKeeps view

theorem ofFrameView (frame : Frame) (sender : Side) :
    (frame.view? sender = none ∧ Message.ofFrame frame sender = .unknown frame) ∨
      frame.view? sender = some (Message.ofFrame frame sender) := by
  unfold Message.ofFrame
  cases view : frame.view? sender with
  | none => exact .inl ⟨rfl, rfl⟩
  | some message => exact .inr rfl

theorem ofFrameKeeps (frame : Frame) :
    (Message.ofFrame frame .controller).isResponse = frame.isResponse ∧
      (Message.ofFrame frame .controller).function = frame.function := by
  rcases ofFrameView frame .controller with ⟨-, own⟩ | view
  · rw [own]
    exact ⟨rfl, rfl⟩
  · exact ⟨(viewKeeps view).response, (viewKeeps view).function⟩

end ZWaveHost
