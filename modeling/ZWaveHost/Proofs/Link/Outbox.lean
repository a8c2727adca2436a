import ZWaveHost.Proofs.Link.Move

/-! What calls do to an outbox, and which of them a link makes when it works. Requests leave it one by one or all at
once, each with its slot. Who takes a slot, and when, is not known here. -/
namespace ZWaveHost

namespace Outbox

def contents (outbox : Outbox) : Outbox := { outbox with slots := {} }

def Op.adds : Op → Bool
  | enqueue _ | accept _ => true
  | _ => false

def Op.IsExit : Op → Prop
  | next | clear => True
  | _ => False

def Received (outbox : Outbox) (requests : List Outbound) : Prop :=
  ∃ calls : List Op, calls.filter Op.adds = requests.map .accept ∧
    outbox.contents = (({} : Outbox).run calls).1.contents

theorem acceptSlots (outbox : Outbox) (outbound : Outbound) : (outbox.accept outbound).slots = outbox.slots := by
  unfold accept
  split
  · split <;> rfl
  · rfl

theorem acceptSize (outbox : Outbox) (outbound : Outbound) : (outbox.accept outbound).size = outbox.size + 1 := by
  unfold accept size
  split
  · split
    · simp
      omega
    · simp
      omega
  · simp
    omega

theorem wakeSize (outbox : Outbox) (node : NodeId) : (outbox.wake node).size = outbox.size := by
  have parts := @List.length_eq_countP_add_countP _ (fun entry => decide (entry.1 = node)) outbox.held
  simp only [List.countP_eq_length_filter, decide_not, decide_eq_true_eq] at parts
  simp only [wake, heldFor, size, List.length_append, List.length_map, decide_not, ne_eq]
  omega

theorem isAwakeAccept (outbox : Outbox) (outbound : Outbound) (slots : Slots) (node : NodeId) :
    ({ outbox with slots }.accept outbound).isAwake node = outbox.isAwake node := by
  unfold accept
  split
  · split <;> rfl
  · rfl

theorem isAwakeWake (outbox : Outbox) (node other : NodeId) :
    (outbox.wake node).isAwake other = (decide (other = node) || outbox.isAwake other) := by
  show (if outbox.isAwake node = true then outbox.awake else node :: outbox.awake).contains other = _
  by_cases awake : outbox.isAwake node = true
  · rw [if_pos awake]
    by_cases same : other = node
    · simpa [isAwake, same] using awake
    · simp [isAwake, same]
  · rw [if_neg awake]
    simp [isAwake]

theorem isAwakeSleep (outbox : Outbox) (node other : NodeId) :
    (outbox.sleep node).isAwake other = (outbox.isAwake other && other ≠ node) := by
  simp [sleep, isAwake]

theorem enqueueCases (outbox : Outbox) (outbound : Outbound) :
    (∃ fault, outbound.message.validate = .error fault ∧ outbox.enqueue outbound = .error fault) ∨
      (outbound.message.validate = .ok () ∧ outbox.slots.limit ≤ outbox.slots.reserved ∧
        outbox.enqueue outbound = .error (.queueFull outbox.slots.reserved)) ∨
      (outbound.message.validate = .ok () ∧ outbox.slots.reserved < outbox.slots.limit ∧
        outbox.enqueue outbound =
          .ok ({ outbox with slots.reserved := outbox.slots.reserved + 1 }.accept outbound)) := by
  unfold enqueue
  cases valid : outbound.message.validate with
  | error fault => exact .inl ⟨fault, rfl, rfl⟩
  | ok _ =>
    by_cases full : outbox.slots.limit ≤ outbox.slots.reserved
    · exact .inr (.inl ⟨rfl, full, by simp [Slots.reserve, Slots.isFull, full, bind, Except.bind]⟩)
    · exact .inr (.inr ⟨rfl, Nat.lt_of_not_le full,
        by simp [Slots.reserve, Slots.isFull, full, bind, Except.bind, pure, Except.pure]⟩)

theorem stepContents {op : Op} (reserved : ∀ outbound, op ≠ .enqueue outbound) (outbox : Outbox) :
    (outbox.contents.step op).1.contents = (outbox.step op).1.contents := by
  cases op with
  | enqueue outbound => exact absurd rfl (reserved outbound)
  | accept outbound =>
    cases waits : outbound.waitsFor with
    | none => simp [step, accept, waits, contents]
    | some node =>
      by_cases awake : outbox.isAwake node = true
      · have same : outbox.contents.isAwake node = true := awake
        simp only [step, accept, waits, awake, same, if_true]
        rfl
      · have same : ¬ outbox.contents.isAwake node = true := awake
        simp only [step, accept, waits, awake, same]
        rfl
  | wake node => rfl
  | sleep node => rfl
  | next =>
    cases ready : outbox.ready with
    | nil => simp [step, next?, contents, ready]
    | cons message rest => simp [step, next?, contents, ready]
  | clear => rfl

theorem runContents {calls : List Op} (reserved : ∀ outbound, .enqueue outbound ∉ calls) (outbox : Outbox) :
    (outbox.contents.run calls).1.contents = (outbox.run calls).1.contents := by
  induction calls generalizing outbox with
  | nil => rfl
  | cons call rest ih =>
    have first : ∀ outbound, call ≠ .enqueue outbound := fun outbound same =>
      reserved outbound (same ▸ List.mem_cons_self)
    have others : ∀ outbound, .enqueue outbound ∉ rest := fun outbound member =>
      reserved outbound (List.mem_cons_of_mem _ member)
    simp only [run]
    rw [← ih others (outbox.contents.step call).1, stepContents first, ih others]

theorem runAppend (outbox : Outbox) (calls later : List Op) :
    (outbox.run (calls ++ later)).1 = ((outbox.run calls).1.run later).1 := by
  induction calls generalizing outbox with
  | nil => rfl
  | cons call rest ih => exact ih _

theorem runLeft (outbox : Outbox) (calls later : List Op) :
    (outbox.run (calls ++ later)).2 = (outbox.run calls).2 ++ ((outbox.run calls).1.run later).2 := by
  induction calls generalizing outbox with
  | nil => rfl
  | cons call rest ih => exact congrArg (List.cons (outbox.step call).2) (ih (outbox.step call).1)

theorem runCounts (outbox : Outbox) (calls : List Op) : (outbox.run calls).2.length = calls.length := by
  induction calls generalizing outbox with
  | nil => rfl
  | cons call rest ih => exact congrArg (· + 1) (ih (outbox.step call).1)

theorem acceptsOnly {calls : List Op} {requests : List Outbound} (adds : calls.filter Op.adds = requests.map .accept) :
    ∀ outbound, .enqueue outbound ∉ calls := by
  intro outbound member
  have kept : Op.enqueue outbound ∈ calls.filter Op.adds := List.mem_filter.mpr ⟨member, rfl⟩
  simp [adds] at kept

theorem Received.more {outbox after : Outbox} {requests others : List Outbound} {calls : List Op}
    (received : outbox.Received requests) (adds : calls.filter Op.adds = others.map .accept)
    (same : after.contents = (outbox.run calls).1.contents) : after.Received (requests ++ others) := by
  obtain ⟨before, added, contents⟩ := received
  have reserved := acceptsOnly adds
  refine ⟨before ++ calls, by simp [added, adds], ?_⟩
  rw [same, ← runContents reserved, contents, runContents reserved, runAppend]

theorem Received.unchanged {outbox after : Outbox} {requests : List Outbound} (received : outbox.Received requests)
    (same : after.contents = outbox.contents) : after.Received requests := by
  simpa using @Received.more _ _ _ [] [] received rfl same

structure Gives (before after : Outbox) : Prop where
  fewer : after.size ≤ before.size
  slots : after.slots = before.slots.release (before.size - after.size)

theorem Gives.nothing (outbox : Outbox) : Gives outbox outbox := ⟨Nat.le_refl _, by simp [Slots.release]⟩

theorem Gives.trans {before mid after : Outbox} (first : Gives before mid) (later : Gives mid after) :
    Gives before after := by
  obtain ⟨fewer, slots⟩ := first
  obtain ⟨fewest, rest⟩ := later
  refine ⟨Nat.le_trans fewest fewer, ?_⟩
  simp only [rest, slots, Slots.release, Slots.mk.injEq, true_and]
  omega

theorem exitGives {call : Op} (leaves : call.IsExit) (outbox : Outbox) : Gives outbox (outbox.step call).1 := by
  cases call with
  | next =>
    cases ready : outbox.ready with
    | nil => simpa [step, next?, ready] using Gives.nothing outbox
    | cons message rest =>
      refine ⟨?_, ?_⟩
      · simp [step, next?, ready, size]
      · have one : rest.length + 1 + outbox.held.length - (rest.length + outbox.held.length) = 1 := by omega
        simp [step, next?, ready, size, one]
  | clear => exact ⟨Nat.zero_le _, rfl⟩
  | enqueue _ | accept _ | wake _ | sleep _ => contradiction

theorem exitsGive {calls : List Op} (leave : ∀ call ∈ calls, call.IsExit) (outbox : Outbox) :
    Gives outbox (outbox.run calls).1 := by
  induction calls generalizing outbox with
  | nil => exact .nothing outbox
  | cons call rest ih =>
    obtain ⟨first, others⟩ := List.forall_mem_cons.mp leave
    exact (exitGives first outbox).trans (ih others _)

theorem exitsAdd {calls : List Op} (leave : ∀ call ∈ calls, call.IsExit) : calls.filter Op.adds = [] := by
  refine List.filter_eq_nil_iff.mpr fun call member => ?_
  have exit := leave call member
  cases call <;> simp_all [Op.IsExit, Op.adds]

theorem stepSize {op : Op} (reserved : ∀ outbound, op ≠ .enqueue outbound) (outbox : Outbox) :
    (outbox.step op).1.size ≤ outbox.size + ([op].filter Op.adds).length := by
  cases op with
  | enqueue outbound => exact absurd rfl (reserved outbound)
  | accept outbound => exact Nat.le_of_eq (acceptSize outbox outbound)
  | wake node => exact Nat.le_of_eq (wakeSize outbox node)
  | sleep node => exact Nat.le_refl _
  | next => exact (@exitGives .next trivial outbox).fewer
  | clear => exact Nat.zero_le _

theorem runSize {calls : List Op} (reserved : ∀ outbound, .enqueue outbound ∉ calls) (outbox : Outbox) :
    (outbox.run calls).1.size ≤ outbox.size + (calls.filter Op.adds).length := by
  induction calls generalizing outbox with
  | nil => exact Nat.le_refl _
  | cons call rest ih =>
    have first := stepSize (fun outbound same => reserved outbound (same ▸ List.mem_cons_self)) outbox
    have later := ih (fun outbound member => reserved outbound (List.mem_cons_of_mem _ member)) (outbox.step call).1
    have both : (call :: rest).filter Op.adds = [call].filter Op.adds ++ rest.filter Op.adds :=
      List.filter_append [call] rest
    rw [both, List.length_append]
    exact Nat.le_trans later (by omega)

theorem Received.size {outbox : Outbox} {requests : List Outbound} (received : outbox.Received requests) :
    outbox.size ≤ requests.length := by
  obtain ⟨calls, added, same⟩ := received
  have bounded := runSize (acceptsOnly added) {}
  have equal : outbox.contents.size = (({} : Outbox).run calls).1.contents.size := congrArg Outbox.size same
  rw [added, List.length_map] at bounded
  calc outbox.size = (({} : Outbox).run calls).1.size := equal
    _ ≤ ({} : Outbox).size + requests.length := bounded
    _ = requests.length := Nat.zero_add _

end Outbox

namespace Link

def Empties (before after : Link) : Prop :=
  ∃ calls : List Outbox.Op, (∀ call ∈ calls, call.IsExit) ∧ after.outbox = (before.outbox.run calls).1

theorem Empties.gives {before after : Link} (empties : Empties before after) :
    before.outbox.Gives after.outbox := by
  obtain ⟨calls, leave, same⟩ := empties
  exact same ▸ Outbox.exitsGive leave before.outbox

theorem Empties.same {before after : Link} (same : after.outbox = before.outbox) : Empties before after :=
  ⟨[], by simp, same⟩

theorem concludeOutbox (link : Link) : link.conclude.1.outbox = link.outbox := by
  unfold conclude
  split
  · split <;> rfl
  · rfl

theorem inboundOutbox (link : Link) (item : Item) (now : Time) : (link.inbound item now).1.outbox = link.outbox := by
  have control (byte : Control) : (link.onControl byte now).1.outbox = link.outbox := concludeOutbox _
  cases item with
  | ack => exact control .ack
  | nak => exact control .nak
  | can => exact control .can
  | frame frame =>
    simp only [inbound, onMessage]
    rw [concludeOutbox]
    cases { link with handshake := link.handshake.countReceived }.addressee (.ofFrame frame .controller) <;> rfl
  | rejected reason => rfl

theorem expireOutbox (link : Link) (now : Time) : (link.expire now).1.outbox = link.outbox := concludeOutbox _

theorem beginsNothing {link : Link} (nothing : link.begin? = none) : link.outbox.ready = [] := by
  unfold begin? Outbox.next? at nothing
  split at nothing
  · rename_i none_
    split at none_
    · assumption
    · contradiction
  · contradiction

theorem beginNext {link after : Link} {exchange} (begun : link.begin? = some (after, exchange)) :
    after.outbox = (link.outbox.step .next).1 := by
  unfold begin? at begun
  split at begun
  · contradiction
  · rename_i message outbox taken
    cases Option.some.inj begun
    simp [Outbox.step, taken]

theorem startNextEmpties (link : Link) (now : Time) : Empties link (link.startNext now).1 := by
  fun_induction startNext link now with
  | case1 link nothing => exact .same rfl
  | case2 link after exchange begins started sent outputs writes =>
    obtain ⟨_, _, _, same⟩ := written writes
    have next := beginNext begins
    have kept : sent.outbox = after.outbox := by rw [same]
    exact ⟨[.next], by simp [Outbox.Op.IsExit], kept.trans next⟩
  | case3 link after exchange begins started refused last later recursion ih =>
    obtain ⟨calls, leave, same⟩ := ih
    rw [recursion] at same
    refine ⟨.next :: calls, List.forall_mem_cons.mpr ⟨trivial, leave⟩, ?_⟩
    simpa only [Outbox.run, ← beginNext begins] using same

theorem transmitEmpties (link : Link) (now : Time) : Empties link (link.transmit now).1 := by
  unfold transmit
  split
  · exact .same rfl
  · split
    · exact startNextEmpties link now
    · split
      · split
        · rename_i writes
          obtain ⟨_, _, _, same⟩ := written writes
          exact .same (by rw [same])
        · exact startNextEmpties { link with active := none } now
      · exact .same rfl

theorem abortEmpties (link : Link) : Empties link link.abort.1 :=
  ⟨[.clear], by simp [Outbox.Op.IsExit], by simp [abort, concludeOutbox, Outbox.run, Outbox.step]⟩

end Link

end ZWaveHost
