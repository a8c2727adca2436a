import ZWaveHost.Link

/-! The outputs of a link, read in order by somebody who knows nothing of its state. A request is told from the
lone bytes that answer frames by its bytes, and belongs to the exchange started last and not ended yet. -/
namespace ZWaveHost

theorem encodedStart {request : Message} {bytes} (encoded : request.encode = .ok bytes) :
    bytes ≠ [Wire.ack] ∧ bytes ≠ [Wire.nak] := by
  have start : ∃ body, bytes = Wire.sof :: body := by
    simp only [Message.encode, Frame.encode, bind, Except.bind] at encoded
    split at encoded <;> try contradiction
    split at encoded <;> try contradiction
    cases encoded
    exact ⟨_, rfl⟩
  obtain ⟨body, rfl⟩ := start
  simp [Wire.sof, Wire.ack, Wire.nak]

def LinkEvent.ends? : LinkEvent → Option Nat
  | .completed id .. | .failed id .. => some id
  | _ => none

namespace Output

def IsAside : Output → Prop
  | .write bytes => bytes = [Wire.ack] ∨ bytes = [Wire.nak]
  | .event (.received ..) => True
  | .event _ => False

def followed (flight : Option Nat) : Output → Option Nat
  | .event (.started id _) => some id
  | .event (.completed ..) | .event (.failed ..) => none
  | _ => flight

theorem followedAside {output : Output} (aside : output.IsAside) (flight : Option Nat) :
    output.followed flight = flight := by
  unfold IsAside at aside
  split at aside
  · rfl
  · rfl
  · contradiction

end Output

namespace Transcript

def flightAfter (flight : Option Nat) (outputs : List Output) : Option Nat := outputs.foldl Output.followed flight

/-- The bytes written for one exchange; `flight` is the exchange in flight before the outputs. -/
def requestsOf (id : Nat) : Option Nat → List Output → List Bytes
  | _, [] => []
  | flight, .write bytes :: rest =>
    if flight = some id ∧ bytes ≠ [Wire.ack] ∧ bytes ≠ [Wire.nak] then bytes :: requestsOf id flight rest
    else requestsOf id flight rest
  | flight, .event event :: rest => requestsOf id ((Output.event event).followed flight) rest

def writesOf (id : Nat) (outputs : List Output) : List Bytes := requestsOf id none outputs

def endingsOf (id : Nat) (outputs : List Output) : List LinkEvent :=
  outputs.filterMap fun
    | .event event => if event.ends? = some id then some event else none
    | .write _ => none

theorem requestsAppend (id : Nat) (flight : Option Nat) (before later : List Output) :
    requestsOf id flight (before ++ later) =
      requestsOf id flight before ++ requestsOf id (flightAfter flight before) later := by
  induction before generalizing flight with
  | nil => rfl
  | cons output rest ih =>
    cases output with
    | write bytes =>
      simp only [List.cons_append, requestsOf]
      split
      · rw [ih]; rfl
      · rw [ih]; rfl
    | event event => exact ih _

theorem endingsAppend (id : Nat) (before later : List Output) :
    endingsOf id (before ++ later) = endingsOf id before ++ endingsOf id later := by
  simp [endingsOf]

theorem requestsAside {outputs : List Output} (aside : ∀ output ∈ outputs, output.IsAside) (id : Nat)
    (flight : Option Nat) : requestsOf id flight outputs = [] := by
  induction outputs with
  | nil => rfl
  | cons output rest ih =>
    obtain ⟨first, others⟩ := List.forall_mem_cons.mp aside
    cases output with
    | write bytes =>
      have answer : ¬ (flight = some id ∧ bytes ≠ [Wire.ack] ∧ bytes ≠ [Wire.nak]) := by
        rcases first with same | same <;> simp [same]
      simpa only [requestsOf, if_neg answer] using ih others
    | event event =>
      simpa only [requestsOf, Output.followedAside first] using ih others

theorem requestWritten {request : Message} {bytes} (encoded : request.encode = .ok bytes) (id : Nat)
    (flight : Option Nat) (rest : List Output) :
    requestsOf id flight (.write bytes :: rest) =
      if flight = some id then bytes :: requestsOf id flight rest else requestsOf id flight rest := by
  simp only [requestsOf, encodedStart encoded, ne_eq, not_false_eq_true, and_true]

theorem requestsOnce {request : Message} {bytes} (encoded : request.encode = .ok bytes) (id : Nat)
    (flight : Option Nat) : requestsOf id flight [.write bytes] = if flight = some id then [bytes] else [] :=
  requestWritten encoded id flight []

theorem requestsRepeated {request : Message} {bytes} (encoded : request.encode = .ok bytes) (id count : Nat)
    (rest : List Output) :
    requestsOf id (some id) (List.replicate count (.write bytes) ++ rest) =
      List.replicate count bytes ++ requestsOf id (some id) rest := by
  induction count with
  | zero => rfl
  | succ count ih =>
    simp only [List.replicate_succ, List.cons_append]
    rw [requestWritten encoded, if_pos rfl, ih]

theorem endingsRepeated (id count : Nat) (bytes : Bytes) (rest : List Output) :
    endingsOf id (List.replicate count (.write bytes) ++ rest) = endingsOf id rest := by
  rw [endingsAppend]
  simp [endingsOf]

end Transcript

end ZWaveHost
