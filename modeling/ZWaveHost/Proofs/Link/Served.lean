import ZWaveHost.Proofs.Link.Planned
import ZWaveHost.Proofs.Link.Turn

/-! The requests of a run, in the order in which they were started. Everything that a link puts out tells of one of them:
what it writes is a request, what it publishes as a reply was called for by a request. As they leave the outbox, the
requests that have a callback id get the ids from 1 to 255 in turn, over and over. -/
namespace ZWaveHost

def Numbered (requests : List Message) (id : Nat) (request : Message) : Prop :=
  ∃ index, id = index + 1 ∧ requests[index]? = some request

theorem Numbered.more {requests : List Message} {id request} (numbered : Numbered requests id request)
    (later : List Message) : Numbered (requests ++ later) id request := by
  obtain ⟨index, number, found⟩ := numbered
  exact ⟨index, number, (List.getElem?_append_left (List.getElem?_eq_some_iff.mp found).1).trans found⟩

theorem numberedLast (requests : List Message) (request : Message) :
    Numbered (requests ++ [request]) (requests.length + 1) request :=
  ⟨requests.length, rfl, List.getElem?_concat_length⟩

def Output.TellsOf (requests : List Message) (flight : Option Nat) : Output → Prop
  | .write bytes => bytes = [Wire.ack] ∨ bytes = [Wire.nak] ∨
      ∃ id request, flight = some id ∧ Numbered requests id request ∧ request.encode = .ok bytes
  | .event (.started id node) => ∃ request, Numbered requests id request ∧ node = request.target
  | .event (.completed id node request) | .event (.failed id node request _) =>
    Numbered requests id request ∧ node = request.target
  | .event (.received message context) => ∀ own, context = some own →
      ∃ request, Numbered requests own.id request ∧ ∃ reply ∈ Reply.plan request, reply.admits message

theorem Output.TellsOf.more {requests : List Message} {flight} {output : Output}
    (tells : output.TellsOf requests flight) (later : List Message) : output.TellsOf (requests ++ later) flight := by
  cases output with
  | write bytes =>
    rcases tells with ack | nak | ⟨id, request, flying, numbered, encoded⟩
    · exact .inl ack
    · exact .inr (.inl nak)
    · exact .inr (.inr ⟨id, request, flying, numbered.more later, encoded⟩)
  | event event =>
    cases event with
    | started id node =>
      obtain ⟨request, numbered, same⟩ := tells
      exact ⟨request, numbered.more later, same⟩
    | completed | failed => exact ⟨tells.1.more later, tells.2⟩
    | received message context =>
      intro own context
      obtain ⟨request, numbered, reply⟩ := tells own context
      exact ⟨request, numbered.more later, reply⟩

namespace Transcript

def TellsOf (requests : List Message) : Option Nat → List Output → Prop
  | _, [] => True
  | flight, output :: rest => output.TellsOf requests flight ∧ TellsOf requests (output.followed flight) rest

variable {requests : List Message}

theorem TellsOf.more {flight} {outputs : List Output} (tells : TellsOf requests flight outputs)
    (later : List Message) : TellsOf (requests ++ later) flight outputs := by
  induction outputs generalizing flight with
  | nil => trivial
  | cons output rest ih => exact ⟨tells.1.more later, ih tells.2⟩

theorem TellsOf.append {flight} {before later : List Output} (tells : TellsOf requests flight before)
    (next : TellsOf requests (flightAfter flight before) later) : TellsOf requests flight (before ++ later) := by
  induction before generalizing flight with
  | nil => exact next
  | cons output rest ih => exact ⟨tells.1, ih tells.2 next⟩

theorem flightAppend (flight : Option Nat) (before later : List Output) :
    flightAfter flight (before ++ later) = flightAfter (flightAfter flight before) later := List.foldl_append

theorem startsAppend (before later : List Output) : startsOf (before ++ later) = startsOf before ++ startsOf later :=
  List.filterMap_append

theorem TellsOf.written {flight} {outputs : List Output} (tells : TellsOf requests flight outputs) {id bytes}
    (written : bytes ∈ requestsOf id flight outputs) :
    ∃ request, Numbered requests id request ∧ request.encode = .ok bytes := by
  induction outputs generalizing flight with
  | nil => contradiction
  | cons output rest ih =>
    cases output with
    | event event => exact ih tells.2 written
    | write own =>
      simp only [requestsOf] at written
      split at written
      · rename_i request
        obtain ⟨flying, notAck, notNak⟩ := request
        rcases List.mem_cons.mp written with rfl | later
        · rcases tells.1 with ack | nak | ⟨other, request, same, numbered, encoded⟩
          · exact absurd ack notAck
          · exact absurd nak notNak
          · cases Option.some.inj (flying.symm.trans same)
            exact ⟨request, numbered, encoded⟩
        · exact ih tells.2 later
      · exact ih tells.2 written

theorem TellsOf.member {flight} {outputs : List Output} (tells : TellsOf requests flight outputs) {output}
    (member : output ∈ outputs) : ∃ flying, output.TellsOf requests flying := by
  induction outputs generalizing flight with
  | nil => contradiction
  | cons first rest ih =>
    rcases List.mem_cons.mp member with rfl | later
    · exact ⟨flight, tells.1⟩
    · exact ih tells.2 later

theorem straysTell {outputs : List Output} (stray : ∀ output ∈ outputs, output.IsStray) (requests : List Message)
    (flight : Option Nat) :
    TellsOf requests flight outputs ∧ flightAfter flight outputs = flight ∧ startsOf outputs = [] := by
  induction outputs with
  | nil => exact ⟨trivial, rfl, rfl⟩
  | cons output rest ih =>
    obtain ⟨first, others⟩ := List.forall_mem_cons.mp stray
    obtain ⟨tells, flying, none⟩ := ih others
    unfold Output.IsStray at first
    split at first
    · exact ⟨⟨first.imp_right .inl, tells⟩, flying, none⟩
    · subst first
      exact ⟨⟨nofun, tells⟩, flying, none⟩
    · contradiction

end Transcript

def Message.IsHostMade (message : Message) : Prop := message.callbackId.isSome → message.side = .host

structure Outbox.Only (P : Message → Prop) (outbox : Outbox) : Prop where
  ready : ∀ message ∈ outbox.ready, P message
  held : ∀ entry ∈ outbox.held, P entry.2

namespace Outbox

variable {P : Message → Prop} {outbox : Outbox}

theorem onlyAccept (only : outbox.Only P) {outbound : Outbound} (fits : P outbound.message) :
    (outbox.accept outbound).Only P := by
  obtain ⟨ready, held⟩ := only
  have readied : ∀ message ∈ outbox.ready ++ [outbound.message], P message :=
    List.forall_mem_append.mpr ⟨ready, List.forall_mem_singleton.mpr fits⟩
  unfold accept
  split
  · split
    · exact ⟨readied, held⟩
    · exact ⟨ready, List.forall_mem_append.mpr ⟨held, List.forall_mem_singleton.mpr fits⟩⟩
  · exact ⟨readied, held⟩

theorem onlyEnqueue (only : outbox.Only P) {outbound : Outbound}
    (fits : outbound.message.validate = .ok () → P outbound.message) :
    (outbox.step (.enqueue outbound)).1.Only P := by
  rcases enqueueCases outbox outbound with ⟨_, -, refused⟩ | ⟨-, -, full⟩ | ⟨valid, -, taken⟩
  · simpa [step, refused, Except.toOption] using only
  · simpa [step, full, Except.toOption] using only
  · have reserved : { outbox with slots.reserved := outbox.slots.reserved + 1 }.Only P := ⟨only.ready, only.held⟩
    simpa only [step, taken, Except.toOption, Option.getD_some] using onlyAccept reserved (fits valid)

theorem onlyWake (only : outbox.Only P) (node : NodeId) : (outbox.wake node).Only P := by
  obtain ⟨ready, held⟩ := only
  refine ⟨List.forall_mem_append.mpr ⟨ready, fun message woken => ?_⟩, fun entry left => ?_⟩
  · obtain ⟨entry, member, rfl⟩ := List.mem_map.mp woken
    exact held entry (List.mem_filter.mp member).1
  · exact held entry (List.mem_filter.mp left).1

theorem onlyNext (only : outbox.Only P) {message : Message} {rest : Outbox}
    (next : outbox.next? = some (message, rest)) : P message ∧ rest.Only P := by
  obtain ⟨ready, held⟩ := only
  unfold next? at next
  split at next
  · contradiction
  · rename_i first others front
    cases Option.some.inj next
    rw [front] at ready
    obtain ⟨fits, later⟩ := List.forall_mem_cons.mp ready
    exact ⟨fits, later, held⟩

theorem onlyExit (only : outbox.Only P) (call : Op) (leaves : call.IsExit) : (outbox.step call).1.Only P := by
  cases call with
  | next =>
    simp only [step]
    split
    · exact only
    · rename_i next
      exact (onlyNext only next).2
  | clear => exact ⟨List.forall_mem_nil P, List.forall_mem_nil _⟩
  | enqueue | accept | wake | sleep => contradiction

theorem onlyExits (only : outbox.Only P) {calls : List Op} (leave : ∀ call ∈ calls, call.IsExit) :
    (outbox.run calls).1.Only P := by
  induction calls generalizing outbox with
  | nil => exact only
  | cons call rest ih =>
    obtain ⟨exit, exits⟩ := List.forall_mem_cons.mp leave
    exact ih (onlyExit only call exit) exits

end Outbox

namespace Link
open Transcript

theorem onlyStep {P : Message → Prop} {link : Link} (only : link.outbox.Only P) (now : Time) {op : Op}
    (brings : ∀ outbound, op = .enqueue outbound ∧ outbound.message.validate = .ok () ∨ op = .accept outbound →
      P outbound.message) :
    (link.step now op).1.outbox.Only P := by
  have emptied {after : Link} (empties : Empties link after) : after.outbox.Only P := by
    obtain ⟨calls, leave, same⟩ := empties
    exact same ▸ Outbox.onlyExits only leave
  cases op with
  | enqueue outbound =>
    have same : (link.step now (.enqueue outbound)).1.outbox = (link.outbox.step (.enqueue outbound)).1 := by
      rcases Outbox.enqueueCases link.outbox outbound with ⟨_, -, answer⟩ | ⟨-, -, answer⟩ | ⟨-, -, answer⟩ <;>
        simp [step, enqueue, Outbox.step, answer, Except.toOption, bind, Except.bind, pure, Except.pure]
    exact same ▸ Outbox.onlyEnqueue only fun valid => brings outbound (.inl ⟨rfl, valid⟩)
  | accept outbound => exact Outbox.onlyAccept only (brings outbound (.inr rfl))
  | wake node => exact Outbox.onlyWake only node
  | sleep => exact ⟨only.ready, only.held⟩
  | inbound item => exact (inboundOutbox link item now).symm ▸ only
  | expire => exact (expireOutbox link now).symm ▸ only
  | transmit => exact emptied (transmitEmpties link now)
  | abort => exact emptied (abortEmpties link)

end Link

end ZWaveHost
