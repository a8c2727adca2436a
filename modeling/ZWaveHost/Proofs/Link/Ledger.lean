import Mathlib.Data.List.Induction
import ZWaveHost.Proofs.Link.Outbox

/-! An outbox with a ledger beside it. A request that is accepted is entered under the number of the call that brought
it, so that two equal requests are told apart, and from then on the ledger says where it is or how it left. The ledger
only watches: it agrees with the outbox at every moment, and nothing is asked of it. -/
namespace ZWaveHost.Outbox

structure Parcel where
  number : Nat
  outbound : Outbound
  deriving DecidableEq, Repr

namespace Parcel

def message (parcel : Parcel) : Message := parcel.outbound.message

def waitsFor (parcel : Parcel) : Option NodeId := parcel.outbound.waitsFor

def entry? (parcel : Parcel) : Option (NodeId × Message) := parcel.waitsFor.map (·, parcel.message)

end Parcel

inductive Way
  | returned
  | dropped
  deriving DecidableEq, Repr

structure Departure where
  call : Nat
  way : Way
  parcel : Parcel
  deriving DecidableEq, Repr

structure Ledger where
  ready : List Parcel := []
  held : List Parcel := []
  gone : List Departure := []
  deriving DecidableEq, Repr

def brought? (outbox : Outbox) : Op → Option Outbound
  | .enqueue outbound => if (outbox.enqueue outbound).isOk then some outbound else none
  | .accept outbound => some outbound
  | _ => none

def parcels (outbox : Outbox) (call : Nat) (op : Op) : List Parcel := (outbox.brought? op).toList.map (Parcel.mk call)

def acceptedFrom (outbox : Outbox) (number : Nat) : List Op → List Parcel
  | [] => []
  | op :: rest => outbox.parcels number op ++ acceptedFrom (outbox.step op).1 (number + 1) rest

def accepted (outbox : Outbox) (calls : List Op) : List Parcel := outbox.acceptedFrom 0 calls

def returns (left : List (Option Message)) : List (Nat × Message) :=
  left.zipIdx.filterMap fun (message, call) => message.map (call, ·)

namespace Ledger

def all (ledger : Ledger) : List Parcel := ledger.gone.map Departure.parcel ++ ledger.ready ++ ledger.held

def add (ledger : Ledger) (outbox : Outbox) (parcel : Parcel) : Ledger :=
  if parcel.waitsFor.any (!outbox.isAwake ·) then { ledger with held := ledger.held ++ [parcel] }
  else { ledger with ready := ledger.ready ++ [parcel] }

def note (ledger : Ledger) (outbox : Outbox) (call : Nat) (op : Op) : Ledger :=
  match op with
  | .enqueue _ | .accept _ => (outbox.parcels call op).foldl (·.add outbox ·) ledger
  | .wake node =>
    { ledger with
      ready := ledger.ready ++ ledger.held.filter (·.waitsFor = some node)
      held := ledger.held.filter (·.waitsFor ≠ some node) }
  | .sleep _ => ledger
  | .next =>
    match ledger.ready with
    | [] => ledger
    | parcel :: rest => { ledger with ready := rest, gone := ledger.gone ++ [⟨call, .returned, parcel⟩] }
  | .clear =>
    { ready := [], held := [], gone := ledger.gone ++ (ledger.ready ++ ledger.held).map (⟨call, .dropped, ·⟩) }

def noteAll (ledger : Ledger) (outbox : Outbox) (number : Nat) : List Op → Ledger
  | [] => ledger
  | op :: rest => (ledger.note outbox number op).noteAll (outbox.step op).1 (number + 1) rest

end Ledger

def ledger (outbox : Outbox) (calls : List Op) : Ledger := ({} : Ledger).noteAll outbox 0 calls

def AwakeBetween (outbox : Outbox) (calls : List Op) (node : NodeId) (first last : Nat) : Prop :=
  ∃ count, first < count ∧ count ≤ last ∧ (outbox.run (calls.take count)).1.isAwake node = true

theorem AwakeBetween.longer {outbox : Outbox} {calls : List Op} {node : NodeId} {first last later : Nat}
    (awake : outbox.AwakeBetween calls node first last) (after : last ≤ later) :
    outbox.AwakeBetween calls node first later := by
  obtain ⟨count, behind, before, marked⟩ := awake
  exact ⟨count, behind, Nat.le_trans before after, marked⟩

theorem AwakeBetween.more {outbox : Outbox} {calls : List Op} {node : NodeId} {first last : Nat}
    (awake : outbox.AwakeBetween calls node first last) (within : last ≤ calls.length) (later : List Op) :
    outbox.AwakeBetween (calls ++ later) node first last := by
  obtain ⟨count, behind, before, marked⟩ := awake
  refine ⟨count, behind, before, ?_⟩
  rw [List.take_append_of_le_length (Nat.le_trans before within)]
  exact marked

theorem noteAdds {op : Op} (adds : op.adds = true) (ledger : Ledger) (outbox : Outbox) (call : Nat) :
    (ledger.note outbox call op = ledger ∧ outbox.step op = (outbox, none) ∧ outbox.parcels call op = []) ∨
      ∃ outbound slots, ledger.note outbox call op = ledger.add outbox ⟨call, outbound⟩ ∧
        outbox.step op = ({ outbox with slots }.accept outbound, none) ∧
        outbox.parcels call op = [⟨call, outbound⟩] := by
  cases op with
  | enqueue outbound =>
    have refused {fault : Fault} (answer : outbox.enqueue outbound = .error fault) :
        ledger.note outbox call (.enqueue outbound) = ledger ∧ outbox.step (.enqueue outbound) = (outbox, none) ∧
          outbox.parcels call (.enqueue outbound) = [] := by
      have nothing : outbox.brought? (.enqueue outbound) = none := by
        simp [brought?, answer, Except.isOk, Except.toBool]
      have stays : outbox.step (.enqueue outbound) = (outbox, none) := by simp [step, answer, Except.toOption]
      exact ⟨by simp [Ledger.note, parcels, nothing], stays, by simp [parcels, nothing]⟩
    rcases enqueueCases outbox outbound with ⟨fault, -, answer⟩ | ⟨-, -, answer⟩ | ⟨-, -, answer⟩
    · exact .inl (refused answer)
    · exact .inl (refused answer)
    · have brought : outbox.brought? (.enqueue outbound) = some outbound := by
        simp [brought?, answer, Except.isOk, Except.toBool]
      have taken : outbox.step (.enqueue outbound) =
          ({ outbox with slots.reserved := outbox.slots.reserved + 1 }.accept outbound, none) := by
        simp only [step, answer, Except.toOption, Option.getD_some]
      exact .inr ⟨outbound, _, by simp [Ledger.note, parcels, brought], taken, by simp [parcels, brought]⟩
  | accept outbound => exact .inr ⟨outbound, outbox.slots, rfl, rfl, rfl⟩
  | wake | sleep | next | clear => contradiction

structure Ledger.Agrees (ledger : Ledger) (outbox : Outbox) : Prop where
  ready : outbox.ready = ledger.ready.map Parcel.message
  held : outbox.held = ledger.held.filterMap Parcel.entry?
  asleep : ∀ parcel ∈ ledger.held, ∃ node, parcel.waitsFor = some node ∧ outbox.isAwake node = false

theorem entriesFor (parcels : List Parcel) (node : NodeId) :
    ((parcels.filterMap Parcel.entry?).filter (·.1 = node)).map (·.2) =
      (parcels.filter (·.waitsFor = some node)).map Parcel.message := by
  induction parcels with
  | nil => rfl
  | cons parcel rest ih =>
    cases waits : parcel.waitsFor with
    | none => simpa [Parcel.entry?, waits] using ih
    | some own =>
      by_cases same : own = node
      · simpa [Parcel.entry?, waits, same] using ih
      · simpa [Parcel.entry?, waits, same] using ih

theorem entriesWithout (parcels : List Parcel) (node : NodeId) :
    (parcels.filterMap Parcel.entry?).filter (·.1 ≠ node) =
      (parcels.filter (·.waitsFor ≠ some node)).filterMap Parcel.entry? := by
  induction parcels with
  | nil => rfl
  | cons parcel rest ih =>
    cases waits : parcel.waitsFor with
    | none => simpa [Parcel.entry?, waits] using ih
    | some own =>
      by_cases same : own = node
      · simpa [Parcel.entry?, waits, same] using ih
      · simpa [Parcel.entry?, waits, same] using ih

namespace Ledger.Agrees

variable {ledger : Ledger} {outbox : Outbox}

theorem adds (agrees : ledger.Agrees outbox) (parcel : Parcel) (slots : Slots) :
    (ledger.add outbox parcel).Agrees ({ outbox with slots }.accept parcel.outbound) := by
  obtain ⟨ready, held, asleep⟩ := agrees
  unfold Ledger.add Outbox.accept
  cases waits : parcel.outbound.waitsFor with
  | none =>
    have free : parcel.waitsFor = none := waits
    simp only [free, Option.any_none, Bool.false_eq_true, if_false]
    exact ⟨by simp [ready, Parcel.message], held, asleep⟩
  | some node =>
    have bound : parcel.waitsFor = some node := waits
    cases awake : outbox.isAwake node with
    | true =>
      have same : { outbox with slots }.isAwake node = true := awake
      simp only [bound, Option.any_some, awake, same, Bool.not_true, Bool.false_eq_true, if_false, if_true]
      exact ⟨by simp [ready, Parcel.message], held, asleep⟩
    | false =>
      have same : { outbox with slots }.isAwake node = false := awake
      simp only [bound, Option.any_some, awake, same, Bool.not_false, Bool.false_eq_true, if_false, if_true]
      refine ⟨ready, by simp [held, Parcel.entry?, bound, Parcel.message], ?_⟩
      exact List.forall_mem_append.mpr ⟨asleep, by simpa using ⟨node, bound, awake⟩⟩

theorem wakes (agrees : ledger.Agrees outbox) (node : NodeId) (call : Nat) :
    (ledger.note outbox call (.wake node)).Agrees (outbox.wake node) := by
  obtain ⟨ready, held, asleep⟩ := agrees
  refine ⟨?_, ?_, fun parcel member => ?_⟩
  · simp only [Ledger.note, wake, heldFor, ready, held, List.map_append, entriesFor]
  · simp only [Ledger.note, wake, held, entriesWithout]
  · obtain ⟨inside, other⟩ := List.mem_filter.mp member
    obtain ⟨own, waits, sleeps⟩ := asleep parcel inside
    have differ : own ≠ node := by simpa [waits] using other
    exact ⟨own, waits, by simp [isAwakeWake, differ, sleeps]⟩

theorem leaves (agrees : ledger.Agrees outbox) (call : Nat) :
    (ledger.note outbox call .next).Agrees (outbox.step .next).1 := by
  obtain ⟨ready, held, asleep⟩ := agrees
  cases first : ledger.ready with
  | nil =>
    have empty : outbox.ready = [] := by simp [ready, first]
    simpa [Ledger.note, first, step, next?, empty] using ⟨ready, held, asleep⟩
  | cons parcel rest =>
    have front : outbox.ready = parcel.message :: rest.map Parcel.message := by simp [ready, first]
    simp only [Ledger.note, first, step, next?, front]
    exact ⟨rfl, held, asleep⟩

theorem note (agrees : ledger.Agrees outbox) (call : Nat) (op : Op) :
    (ledger.note outbox call op).Agrees (outbox.step op).1 := by
  by_cases adding : op.adds = true
  · rcases noteAdds adding ledger outbox call with ⟨noted, stays, -⟩ | ⟨outbound, slots, noted, accepts, -⟩
    · rwa [noted, stays]
    · rw [noted, accepts]
      exact agrees.adds ⟨call, outbound⟩ slots
  cases op with
  | enqueue | accept => exact absurd rfl adding
  | wake node => exact agrees.wakes node call
  | sleep node =>
    obtain ⟨ready, held, asleep⟩ := agrees
    refine ⟨ready, held, fun parcel member => ?_⟩
    obtain ⟨own, waits, sleeps⟩ := asleep parcel member
    exact ⟨own, waits, by simp [step, isAwakeSleep, sleeps]⟩
  | next => exact agrees.leaves call
  | clear => exact ⟨rfl, rfl, by simp [Ledger.note]⟩

theorem addInOrder (agrees : ledger.Agrees outbox) (parcel : Parcel) (target : Option NodeId) :
    (ledger.add outbox parcel).all.filter (·.waitsFor = target) =
      (ledger.all ++ [parcel]).filter (·.waitsFor = target) := by
  unfold Ledger.add
  split
  · simp [Ledger.all]
  · rename_i free
    by_cases own : parcel.waitsFor = target
    · -- A request that need not wait finds nothing held for its target, so it does not pass anybody.
      have none : ledger.held.filter (·.waitsFor = target) = [] := by
        refine List.filter_eq_nil_iff.mpr fun other member waiting => free ?_
        obtain ⟨node, waits, sleeps⟩ := agrees.asleep other member
        have bound : parcel.waitsFor = some node := own.trans ((of_decide_eq_true waiting).symm.trans waits)
        simp [bound, sleeps]
      simp [Ledger.all, none, own]
    · simp [Ledger.all, own]

theorem wakeInOrder (ledger : Ledger) (outbox : Outbox) (call : Nat) (node : NodeId) (target : Option NodeId) :
    (ledger.note outbox call (.wake node)).all.filter (·.waitsFor = target) =
      ledger.all.filter (·.waitsFor = target) := by
  have moved : (ledger.held.filter (·.waitsFor = some node)).filter (·.waitsFor = target) ++
      (ledger.held.filter (·.waitsFor ≠ some node)).filter (·.waitsFor = target) =
        ledger.held.filter (·.waitsFor = target) := by
    simp only [List.filter_filter]
    by_cases own : target = some node
    · simp [own]
    · have others : ∀ parcel : Parcel, parcel.waitsFor = target → parcel.waitsFor ≠ some node :=
        fun _ same => same ▸ own
      have away : ledger.held.filter (fun parcel => parcel.waitsFor = target && parcel.waitsFor = some node) = [] :=
        List.filter_eq_nil_iff.mpr fun parcel _ => by simpa using others parcel
      have kept : ledger.held.filter (fun parcel => parcel.waitsFor = target && parcel.waitsFor ≠ some node) =
          ledger.held.filter (·.waitsFor = target) :=
        List.filter_congr fun parcel _ => by simpa using others parcel
      rw [away, kept, List.nil_append]
  simp only [Ledger.note, Ledger.all, List.filter_append, List.append_assoc, moved]

/- Nobody is passed: what has left for a target, then what is ready for it, then what is held for it stays in order. -/
theorem inOrder (agrees : ledger.Agrees outbox) (call : Nat) (op : Op) (target : Option NodeId) :
    (ledger.note outbox call op).all.filter (·.waitsFor = target) =
      (ledger.all ++ outbox.parcels call op).filter (·.waitsFor = target) := by
  by_cases adding : op.adds = true
  · rcases noteAdds adding ledger outbox call with ⟨noted, -, nothing⟩ | ⟨outbound, -, noted, -, one⟩
    · rw [noted, nothing, List.append_nil]
    · rw [noted, one]
      exact agrees.addInOrder ⟨call, outbound⟩ target
  cases op with
  | enqueue | accept => exact absurd rfl adding
  | wake node => simpa [parcels, brought?] using wakeInOrder ledger outbox call node target
  | sleep => simp [Ledger.note, parcels, brought?]
  | next =>
    cases first : ledger.ready with
    | nil => simp [Ledger.note, first, parcels, brought?]
    | cons parcel rest => simp [Ledger.note, Ledger.all, first, parcels, brought?]
  | clear => simp [Ledger.note, Ledger.all, parcels, brought?, Function.comp_def]

theorem noteGone (agrees : ledger.Agrees outbox) (call : Nat) (op : Op) :
    ∃ left, (ledger.note outbox call op).gone = ledger.gone ++ left ∧
      (left.filter (·.way = .returned)).map (fun gone => (gone.call, gone.parcel.message)) =
        ((outbox.step op).2.map (call, ·)).toList ∧
      ∀ gone ∈ left, gone.call = call ∧ (gone.way = .dropped → op = .clear) ∧
        (gone.way = .returned → gone.parcel ∈ ledger.ready) := by
  by_cases adding : op.adds = true
  · refine ⟨[], ?_⟩
    rcases noteAdds adding ledger outbox call with ⟨noted, stays, -⟩ | ⟨outbound, slots, noted, accepts, -⟩
    · exact ⟨by rw [noted, List.append_nil], by rw [stays]; rfl, List.forall_mem_nil _⟩
    · refine ⟨?_, by rw [accepts]; rfl, List.forall_mem_nil _⟩
      rw [noted, List.append_nil, Ledger.add]
      split <;> rfl
  cases op with
  | enqueue | accept => exact absurd rfl adding
  | wake | sleep => exact ⟨[], (List.append_nil _).symm, rfl, List.forall_mem_nil _⟩
  | next =>
    cases first : ledger.ready with
    | nil =>
      have empty : outbox.ready = [] := by simp [agrees.ready, first]
      exact ⟨[], by simp [Ledger.note, first], by simp [step, next?, empty], List.forall_mem_nil _⟩
    | cons parcel rest =>
      have front : outbox.ready = parcel.message :: rest.map Parcel.message := by simp [agrees.ready, first]
      exact ⟨[⟨call, .returned, parcel⟩], by simp [Ledger.note, first], by simp [step, next?, front], by simp⟩
  | clear =>
    refine ⟨(ledger.ready ++ ledger.held).map (⟨call, .dropped, ·⟩), rfl, ?_, ?_⟩
    · simp [step, List.filter_map, Function.comp_def]
    · intro gone member
      obtain ⟨parcel, -, rfl⟩ := List.mem_map.mp member
      exact ⟨rfl, fun _ => rfl, by simp⟩

end Ledger.Agrees

theorem noteReady {ledger : Ledger} {outbox : Outbox} {call : Nat} {op : Op} {parcel : Parcel}
    (member : parcel ∈ (ledger.note outbox call op).ready) :
    parcel ∈ ledger.ready ∨ ∀ node, parcel.waitsFor = some node → (outbox.step op).1.isAwake node = true := by
  by_cases adding : op.adds = true
  · rcases noteAdds adding ledger outbox call with ⟨noted, -, -⟩ | ⟨outbound, slots, noted, accepts, -⟩
    · exact .inl (noted ▸ member)
    · rw [noted, Ledger.add] at member
      split at member
      · exact .inl member
      · rename_i free
        rcases List.mem_append.mp member with before | new
        · exact .inl before
        · cases List.mem_singleton.mp new
          refine .inr fun node waits => ?_
          rw [accepts, isAwakeAccept]
          simpa [waits] using free
  cases op with
  | enqueue | accept => exact absurd rfl adding
  | wake node =>
    rcases List.mem_append.mp member with before | woken
    · exact .inl before
    · have own : parcel.waitsFor = some node := by simpa using (List.mem_filter.mp woken).2
      refine .inr fun other waits => ?_
      cases own.symm.trans waits
      simp [step, isAwakeWake]
  | sleep => exact .inl member
  | next =>
    cases first : ledger.ready with
    | nil => simp [Ledger.note, first] at member
    | cons parcel rest =>
      simp only [Ledger.note, first] at member
      exact .inl (List.mem_cons_of_mem _ member)
  | clear => contradiction

section Histories

variable {start : Outbox} {calls : List Op}

theorem runOne (outbox : Outbox) (calls : List Op) (op : Op) :
    (outbox.run (calls ++ [op])).1 = ((outbox.run calls).1.step op).1 := runAppend outbox calls [op]

theorem noteAllOne (ledger : Ledger) (outbox : Outbox) (number : Nat) (calls : List Op) (op : Op) :
    ledger.noteAll outbox number (calls ++ [op]) =
      (ledger.noteAll outbox number calls).note (outbox.run calls).1 (number + calls.length) op := by
  induction calls generalizing ledger outbox number with
  | nil => rfl
  | cons call rest ih =>
    have next := ih (ledger.note outbox number call) (outbox.step call).1 (number + 1)
    rwa [Nat.add_right_comm] at next

theorem ledgerOne (outbox : Outbox) (calls : List Op) (op : Op) :
    outbox.ledger (calls ++ [op]) = (outbox.ledger calls).note (outbox.run calls).1 calls.length op := by
  have noted := noteAllOne {} outbox 0 calls op
  rwa [Nat.zero_add] at noted

theorem acceptedFromOne (outbox : Outbox) (number : Nat) (calls : List Op) (op : Op) :
    outbox.acceptedFrom number (calls ++ [op]) =
      outbox.acceptedFrom number calls ++ (outbox.run calls).1.parcels (number + calls.length) op := by
  induction calls generalizing outbox number with
  | nil => simp [acceptedFrom, run]
  | cons call rest ih =>
    have next := ih (outbox.step call).1 (number + 1)
    rw [Nat.add_right_comm] at next
    simp only [List.cons_append, acceptedFrom, next, List.append_assoc]
    rfl

theorem acceptedOne (outbox : Outbox) (calls : List Op) (op : Op) :
    outbox.accepted (calls ++ [op]) = outbox.accepted calls ++ (outbox.run calls).1.parcels calls.length op := by
  have added := acceptedFromOne outbox 0 calls op
  rwa [Nat.zero_add] at added

theorem returnsOne (left : List (Option Message)) (last : Option Message) :
    returns (left ++ [last]) = returns left ++ (last.map (left.length, ·)).toList := by
  cases last <;> simp [returns, List.zipIdx_append]

theorem acceptedNumbered (outbox : Outbox) (calls : List Op) :
    (∀ parcel ∈ outbox.accepted calls, parcel.number < calls.length) ∧
      (outbox.accepted calls).Pairwise (·.number < ·.number) := by
  induction calls using List.reverseRecOn with
  | nil => exact ⟨nofun, .nil⟩
  | append_singleton calls op ih =>
    obtain ⟨earlier, ascending⟩ := ih
    have own : ∀ parcel ∈ (outbox.run calls).1.parcels calls.length op, parcel.number = calls.length := by
      simp [parcels]
    have single : ((outbox.run calls).1.parcels calls.length op).Pairwise (·.number < ·.number) := by
      unfold parcels
      cases (outbox.run calls).1.brought? op <;> simp
    rw [acceptedOne]
    constructor
    · intro parcel member
      rw [List.length_append, List.length_singleton]
      rcases List.mem_append.mp member with before | here
      · exact Nat.lt_succ_of_lt (earlier parcel before)
      · exact Nat.lt_succ_of_le (Nat.le_of_eq (own parcel here))
    · refine List.pairwise_append.mpr ⟨ascending, single, fun parcel before other here => ?_⟩
      rw [own other here]
      exact earlier parcel before

theorem permOfTargets {parcels others : List Parcel}
    (same : ∀ target, parcels.filter (·.waitsFor = target) = others.filter (·.waitsFor = target)) :
    parcels.Perm others := by
  refine List.perm_iff_count.mpr fun parcel => ?_
  have own : (fun other : Parcel => decide (other.waitsFor = parcel.waitsFor)) parcel = true := decide_eq_true rfl
  have filtered := congrArg (List.count parcel) (same parcel.waitsFor)
  rwa [@List.count_filter _ _ _ _ parcel parcels own, @List.count_filter _ _ _ _ parcel others own] at filtered

structure Kept (start : Outbox) (calls : List Op) : Prop where
  agrees : (start.ledger calls).Agrees (start.run calls).1
  inOrder : ∀ target, (start.ledger calls).all.filter (·.waitsFor = target) =
    (start.accepted calls).filter (·.waitsFor = target)
  returned : ((start.ledger calls).gone.filter (·.way = .returned)).map (fun gone => (gone.call, gone.parcel.message)) =
    returns (start.run calls).2
  dropped : ∀ gone ∈ (start.ledger calls).gone, gone.way = .dropped → calls[gone.call]? = some .clear
  past : ∀ gone ∈ (start.ledger calls).gone, gone.call < calls.length
  chronological : (start.ledger calls).gone.Pairwise (·.call ≤ ·.call)
  released : ∀ parcel ∈ (start.ledger calls).ready, ∀ node, parcel.waitsFor = some node →
    start.AwakeBetween calls node parcel.number calls.length
  departed : ∀ gone ∈ (start.ledger calls).gone, gone.way = .returned → ∀ node, gone.parcel.waitsFor = some node →
    start.AwakeBetween calls node gone.parcel.number gone.call

namespace Kept

theorem nothing (slots : Slots) : Kept { slots } [] where
  agrees := ⟨rfl, rfl, List.forall_mem_nil _⟩
  inOrder _ := rfl
  returned := rfl
  dropped := List.forall_mem_nil _
  past := List.forall_mem_nil _
  chronological := .nil
  released := List.forall_mem_nil _
  departed := List.forall_mem_nil _

theorem one (kept : Kept start calls) (op : Op) : Kept start (calls ++ [op]) := by
  obtain ⟨left, goes, returned, parted⟩ := kept.agrees.noteGone calls.length op
  have agrees : (start.ledger (calls ++ [op])).Agrees (start.run (calls ++ [op])).1 := by
    rw [ledgerOne, runOne]
    exact kept.agrees.note calls.length op
  have inOrder : ∀ target, (start.ledger (calls ++ [op])).all.filter (·.waitsFor = target) =
      (start.accepted (calls ++ [op])).filter (·.waitsFor = target) := by
    intro target
    rw [ledgerOne, acceptedOne, kept.agrees.inOrder, List.filter_append, List.filter_append, kept.inOrder]
  rw [← ledgerOne] at goes
  refine
    { agrees, inOrder, returned := ?returned, dropped := ?dropped, past := ?past, chronological := ?chronological,
      released := ?released, departed := ?departed }
  case returned =>
    rw [goes, runLeft, List.filter_append, List.map_append, kept.returned, returned]
    exact (runCounts start calls ▸ returnsOne (start.run calls).2 ((start.run calls).1.step op).2).symm
  case dropped =>
    intro gone member dropped
    rcases List.mem_append.mp (goes ▸ member) with before | now
    · have cleared := kept.dropped gone before dropped
      rw [List.getElem?_append_left (List.getElem?_eq_some_iff.mp cleared).1]
      exact cleared
    · obtain ⟨here, cleared, -⟩ := parted gone now
      rw [here, List.getElem?_concat_length, cleared dropped]
  case past =>
    intro gone member
    rw [List.length_append, List.length_singleton]
    rcases List.mem_append.mp (goes ▸ member) with before | now
    · exact Nat.lt_succ_of_lt (kept.past gone before)
    · exact (parted gone now).1 ▸ Nat.lt_succ_self _
  case chronological =>
    rw [goes]
    refine List.pairwise_append.mpr ⟨kept.chronological, ?_, fun first before gone now => ?_⟩
    · refine List.pairwise_of_forall_mem_list fun first here gone now => ?_
      exact Nat.le_of_eq ((parted first here).1.trans (parted gone now).1.symm)
    · rw [(parted gone now).1]
      exact Nat.le_of_lt (kept.past first before)
  case released =>
    intro parcel member node waits
    have early : parcel.number < calls.length + 1 := by
      have known : parcel ∈ (start.ledger (calls ++ [op])).all := by simp [Ledger.all, member]
      simpa using (acceptedNumbered start (calls ++ [op])).1 parcel ((permOfTargets inOrder).mem_iff.mp known)
    rw [ledgerOne] at member
    rw [List.length_append, List.length_singleton]
    rcases noteReady member with before | woken
    · exact ((kept.released parcel before node waits).more (Nat.le_refl _) [op]).longer (Nat.le_succ _)
    · refine ⟨calls.length + 1, early, Nat.le_refl _, ?_⟩
      rw [List.take_of_length_le (by simp), runOne]
      exact woken node waits
  case departed =>
    intro gone member back node waits
    rcases List.mem_append.mp (goes ▸ member) with before | now
    · exact (kept.departed gone before back node waits).more (Nat.le_of_lt (kept.past gone before)) [op]
    · obtain ⟨here, -, ready⟩ := parted gone now
      rw [here]
      exact (kept.released gone.parcel (ready back) node waits).more (Nat.le_refl _) [op]

end Kept

theorem kept (slots : Slots) (calls : List Op) : Kept { slots } calls := by
  induction calls using List.reverseRecOn with
  | nil => exact .nothing slots
  | append_singleton calls op ih => exact ih.one op

end Histories

end ZWaveHost.Outbox
