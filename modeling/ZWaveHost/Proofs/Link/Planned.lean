import ZWaveHost.Proofs.Link.Outbox
import ZWaveHost.Proofs.Link.SingleFlight

/-! Requests that reach a link in an order known beforehand. The link begins them in this order, whatever happens to each
of them, and what comes later waits behind the last. -/
namespace ZWaveHost

namespace Transcript

theorem Orderly.ownEnding {count : Nat} {request : Message} {outputs last}
    (orderly : Orderly ⟨count, some request⟩ outputs last) :
    ∀ event ∈ endingsOf count outputs, Ends count request event := by
  by_cases flight : last.flight = some count
  · rw [orderly.unended flight]
    exact List.forall_mem_nil _
  · obtain ⟨ending, one, ends⟩ := orderly.lands flight
    rw [one]
    intro event member
    cases List.mem_singleton.mp member
    exact ends

theorem Orderly.startedBetween {first last : Standing} {before id node later}
    (orderly : Orderly first (before ++ .event (.started id node) :: later) last) :
    first.started < id ∧ id ≤ last.started := by
  obtain ⟨mid, request, head, unborn, -, own⟩ := orderly.behindStart
  exact ⟨Nat.lt_of_le_of_lt head.grows unborn, own.grows⟩

theorem Orderly.starts {first last : Standing} {outputs} (orderly : Orderly first outputs last) {id : Nat}
    (new : first.started < id) (begun : id ≤ last.started) :
    ∃ before node later, outputs = before ++ .event (.started id node) :: later := by
  induction orderly with
  | done => exact absurd begun (Nat.not_le_of_lt new)
  | answer _ _ ih | received _ ih | written _ _ ih | ended _ _ ih =>
    obtain ⟨before, node, later, rfl⟩ := ih new begun
    exact ⟨_ :: before, node, later, rfl⟩
  | @started count _ _ _ _ ih =>
    by_cases same : count + 1 = id
    · subst same
      exact ⟨[], _, _, rfl⟩
    · have further : count + 1 < id := Nat.lt_of_le_of_ne new same
      obtain ⟨before, node, later, rfl⟩ := ih further begun
      exact ⟨_ :: before, node, later, rfl⟩

theorem Orderly.passed {first last : Standing} {outputs} (orderly : Orderly first outputs last) {id : Nat}
    (new : first.started < id) (begun : id ≤ last.started) (ended : last.flight ≠ some id) :
    endingsOf id outputs ≠ [] := by
  obtain ⟨before, node, later, rfl⟩ := orderly.starts new begun
  obtain ⟨mid, request, -, -, -, own⟩ := orderly.behindStart
  obtain ⟨ending, ends, -⟩ := own.lands ended
  intro none
  rw [endingsAppend] at none
  have noneLater : endingsOf _ later = [] := (List.append_eq_nil_iff.mp none).2
  simp [ends] at noneLater

def startsOf (outputs : List Output) : List Nat :=
  outputs.filterMap fun
    | .event (.started id _) => some id
    | _ => none

theorem Orderly.numbered {first last : Standing} {outputs} (orderly : Orderly first outputs last) :
    startsOf outputs = List.range' (first.started + 1) (last.started - first.started) := by
  induction orderly with
  | done => simp [startsOf]
  | answer _ _ ih | received _ ih | written _ _ ih => exact ih
  | @started count _ _ last later ih =>
    have grows : count + 1 ≤ last.started := later.grows
    have some_ : last.started - count = (last.started - (count + 1)) + 1 := by omega
    show (count + 1) :: startsOf _ = List.range' (count + 1) (last.started - count)
    rw [ih, some_, List.range'_succ]
  | ended ends _ ih => rcases ends with rfl | ⟨_, rfl⟩ <;> exact ih

variable {plan : List Message} {outputs later : List Output} {first mid last : Standing}

def Carries (plan : List Message) (outputs : List Output) (last : Standing) : Prop :=
  ∀ before index node later request, outputs = before ++ .event (.started (index + 1) node) :: later →
    plan[index]? = some request →
    ∃ bytes rest, request.encode = .ok bytes ∧ later = .write bytes :: rest ∧
      Orderly ⟨index + 1, some request⟩ rest last

theorem Carries.unplanned (orderly : Orderly first outputs last)
    (unplanned : ∀ index, first.started ≤ index → index < last.started → plan[index]? = none) :
    Carries plan outputs last := by
  intro before index node later request split due
  obtain ⟨new, begun⟩ := (split ▸ orderly).startedBetween
  simp [unplanned index (Nat.le_of_lt_succ new) begun] at due

theorem Carries.nothing : Carries plan [] last := by simp [Carries]

theorem Carries.single {output : Output} (other : ∀ id node, output ≠ .event (.started id node)) :
    Carries plan [output] last := by
  intro before index node later request split
  cases before with
  | nil =>
    obtain ⟨same, _⟩ := List.cons.inj split
    exact absurd same (other _ _)
  | cons first rest => simp at split

theorem Carries.begins {request : Message} {bytes : Bytes} {id count : Nat} {node : Option NodeId} (next : id = count + 1)
    (due : plan[count]? = some request) (encoded : request.encode = .ok bytes) :
    Carries plan [.event (.started id node), .write bytes] ⟨count + 1, some request⟩ := by
  intro before index other later planned split own
  cases before with
  | nil =>
    obtain ⟨same, rfl⟩ := List.cons.inj split
    cases same
    cases Nat.succ.inj next
    cases due.symm.trans own
    exact ⟨bytes, [], encoded, rfl, .done _⟩
  | cons first rest =>
    cases rest with
    | nil => simp at split
    | cons second more => simp at split

theorem Carries.append (carries : Carries plan outputs mid) (orderly : Orderly mid later last)
    (carriesLater : Carries plan later last) : Carries plan (outputs ++ later) last := by
  intro before index node after request split due
  rcases List.append_eq_append_iff.mp split with ⟨between, rfl, behind⟩ | ⟨between, rfl, behind⟩
  · exact carriesLater between index node after request behind due
  · cases between with
    | nil => exact carriesLater [] index node after request behind.symm due
    | cons start between =>
      obtain ⟨rfl, rfl⟩ := List.cons.inj behind
      obtain ⟨bytes, rest, encoded, rfl, own⟩ := carries before index node between request rfl due
      exact ⟨bytes, rest ++ later, encoded, rfl, own.append orderly⟩

theorem Carries.planned (carries : Carries plan outputs last) (orderly : Orderly ⟨0, none⟩ outputs last) {index : Nat}
    {request : Message} (due : plan[index]? = some request) :
    (∀ bytes ∈ writesOf (index + 1) outputs, request.encode = .ok bytes) ∧
      ∀ event ∈ endingsOf (index + 1) outputs, Ends (index + 1) request event := by
  by_cases begun : index + 1 ≤ last.started
  · obtain ⟨before, node, later, rfl⟩ := orderly.starts (Nat.succ_pos index) begun
    obtain ⟨bytes, rest, encoded, rfl, own⟩ := carries before index node later request rfl due
    obtain ⟨mid, -, head, earlier, -, -⟩ := orderly.behindStart
    have noneEnded := head.unreached earlier
    have noneWritten : writesOf (index + 1) before = [] := head.unborn earlier
    constructor
    · obtain ⟨other, same, _, all⟩ := own.oneRequest (index + 1)
      cases same rfl
      rw [writesOf, requestsAppend, ← writesOf, noneWritten, List.nil_append]
      show ∀ written ∈ requestsOf (index + 1) (some (index + 1)) (.write bytes :: rest), _
      rw [requestWritten encoded, if_pos rfl]
      exact List.forall_mem_cons.mpr ⟨encoded, all⟩
    · rw [endingsAppend, noneEnded, List.nil_append]
      exact own.ownEnding
  · have unborn : last.started < index + 1 := Nat.lt_of_not_le begun
    have noneWritten : writesOf (index + 1) outputs = [] := orderly.unborn unborn
    rw [noneWritten, orderly.unreached unborn]
    exact ⟨List.forall_mem_nil _, List.forall_mem_nil _⟩

theorem Carries.inFlight (carries : Carries plan outputs last) (orderly : Orderly ⟨0, none⟩ outputs last) {index : Nat}
    {request : Message} (flight : last.flight = some (index + 1)) (due : plan[index]? = some request) :
    last.request = some request := by
  have begun : index + 1 ≤ last.started := by
    simp only [Standing.flight, Option.map_eq_some_iff] at flight
    obtain ⟨_, _, same⟩ := flight
    exact Nat.le_of_eq same.symm
  obtain ⟨before, node, later, split⟩ := orderly.starts (Nat.succ_pos index) begun
  obtain ⟨bytes, rest, -, -, own⟩ := carries before index node later request split due
  obtain ⟨other, same, still, -⟩ := own.oneRequest (index + 1)
  cases same rfl
  exact still flight

theorem Carries.alone {before : List Output} (carries : Carries plan (before ++ later) last)
    (orderly : Orderly ⟨0, none⟩ (before ++ later) last) (some_ : 0 < plan.length)
    (unended : endingsOf plan.length before = []) {bytes : Bytes} (member : .write bytes ∈ before) :
    bytes = [Wire.ack] ∨ bytes = [Wire.nak] ∨ ∃ request ∈ plan, request.encode = .ok bytes := by
  obtain ⟨earlier, others, rfl⟩ := List.append_of_mem member
  rw [List.append_assoc] at orderly carries
  obtain ⟨mid, head, tail⟩ := orderly.split
  cases tail with
  | answer lone => rcases lone with rfl | rfl <;> simp
  | @written count request _ _ _ encoded rest =>
    have begun : 0 < count := (head.origin rfl).resolve_left nofun
    have within : count ≤ plan.length := by
      refine Nat.le_of_not_lt fun beyond => ?_
      have other : (⟨count, some request⟩ : Standing).flight ≠ some plan.length := by
        simpa [Standing.flight] using Nat.ne_of_gt beyond
      have ended := head.passed some_ (Nat.le_of_lt beyond) other
      rw [endingsAppend] at unended
      exact ended (List.append_eq_nil_iff.mp unended).1
    obtain ⟨index, rfl⟩ : ∃ index, count = index + 1 := Nat.exists_eq_add_one.mpr begun
    have due : plan[index]? = some plan[index] := List.getElem?_eq_getElem within
    have written : bytes ∈ writesOf (index + 1) (earlier ++ (.write bytes :: others ++ later)) := by
      have flight : flightAfter none earlier = some (index + 1) := head.flight
      rw [writesOf, requestsAppend, flight, List.cons_append, requestWritten encoded, if_pos rfl]
      exact List.mem_append_right _ List.mem_cons_self
    exact .inr (.inr ⟨plan[index], List.getElem_mem within, (carries.planned orderly due).1 bytes written⟩)

end Transcript

variable {plan : List Message} {count begun : Nat} {outbox : Outbox}

/- Of the plan, the first requests have arrived. Those of them that were not begun are ready, and while more are to come
nothing waits behind them. -/
structure Lined (plan : List Message) (arrived begun : Nat) (outbox : Outbox) : Prop where
  ready : ∃ rest, outbox.ready = (plan.take arrived).drop begun ++ rest ∧ (arrived < plan.length → rest = [])
  unheld : arrived < plan.length → outbox.held = []
  bounded : arrived < plan.length → begun ≤ arrived

namespace Lined

theorem start (plan : List Message) {outbox : Outbox} (ready : outbox.ready = []) (held : outbox.held = []) :
    Lined plan 0 0 outbox := ⟨⟨[], by simp [ready], fun _ => rfl⟩, fun _ => held, fun _ => Nat.le_refl 0⟩

theorem past (arrived : plan.length ≤ count) (allBegun : plan.length ≤ begun) (outbox : Outbox) :
    Lined plan count begun outbox := by
  have none : (plan.take count).drop begun = [] := List.drop_eq_nil_of_le (by simp; omega)
  exact ⟨⟨outbox.ready, by rw [none, List.nil_append], by omega⟩, by omega, by omega⟩

theorem complete (lined : Lined plan count begun outbox) (allBegun : plan.length ≤ begun) : plan.length ≤ count :=
  Nat.le_of_not_lt fun more => Nat.not_lt_of_le (Nat.le_trans allBegun (lined.bounded more)) more

theorem next (lined : Lined plan count begun outbox) {request message : Message} {rest : List Message}
    (due : plan[begun]? = some request) (ready : outbox.ready = message :: rest) :
    message = request ∧ ∀ after : Outbox, after.ready = rest → after.held = outbox.held →
      Lined plan count (begun + 1) after := by
  obtain ⟨⟨others, queue, alone⟩, unheld, bounded⟩ := lined
  obtain ⟨within, here⟩ := List.getElem?_eq_some_iff.mp due
  by_cases arrived : begun < count
  · have split : (plan.take count).drop begun = request :: (plan.take count).drop (begun + 1) := by
      rw [List.drop_eq_getElem_cons (by simp; omega), List.getElem_take, here]
    rw [ready, split] at queue
    obtain ⟨same, behind⟩ := List.cons.inj queue
    exact ⟨same, fun after left held => ⟨⟨others, left.trans behind, alone⟩, fun more => held.trans (unheld more),
      fun _ => arrived⟩⟩
  · have none : (plan.take count).drop begun = [] := List.drop_eq_nil_of_le (by simp; omega)
    rw [ready, none, alone (by omega)] at queue
    contradiction

theorem arrives (lined : Lined plan count begun outbox) {outbound : Outbound}
    (due : plan[count]? = some outbound.message) (listens : outbound.listening = true) :
    Lined plan (count + 1) begun (outbox.accept outbound) := by
  obtain ⟨⟨others, queue, alone⟩, unheld, bounded⟩ := lined
  obtain ⟨within, here⟩ := List.getElem?_eq_some_iff.mp due
  have accepts : outbox.accept outbound = { outbox with ready := outbox.ready ++ [outbound.message] } := by
    simp [Outbox.accept, Outbound.waitsFor, listens]
  have arrived : plan.take (count + 1) = plan.take count ++ [outbound.message] := by
    rw [List.take_succ_eq_append_getElem within, here]
  have short : begun ≤ (plan.take count).length := by
    have := bounded within
    simp
    omega
  rw [accepts]
  refine ⟨⟨[], ?_, fun _ => rfl⟩, fun _ => unheld within, fun _ => Nat.le_succ_of_le (bounded within)⟩
  rw [queue, alone within, arrived, List.drop_append_of_le_length short, List.append_nil, List.append_nil]

theorem later (lined : Lined plan count begun outbox) (complete : plan.length ≤ count) {after : Outbox}
    (grows : ∃ more, after.ready = outbox.ready ++ more) : Lined plan (count + 1) begun after := by
  obtain ⟨⟨others, queue, -⟩, -, -⟩ := lined
  obtain ⟨more, same⟩ := grows
  have all : plan.take (count + 1) = plan.take count := by
    rw [List.take_of_length_le complete, List.take_of_length_le (Nat.le_succ_of_le complete)]
  exact ⟨⟨others ++ more, by rw [same, queue, all, List.append_assoc], by omega⟩, by omega, by omega⟩

end Lined

namespace Link
open Transcript

def Plain (request : Message) : Prop := (∃ bytes, request.encode = .ok bytes) ∧ request.callbackId = none

theorem beginsNext {link after : Link} {exchange} (begun : link.begin? = some (after, exchange)) :
    ∃ message, link.outbox.ready = message :: after.outbox.ready ∧ after.outbox.held = link.outbox.held ∧
      (message.callbackId = none → exchange.request = message) := by
  simp only [begin?, Outbox.next?] at begun
  split at begun
  · contradiction
  · rename_i message outbox taken
    split at taken
    · contradiction
    · rename_i ready
      cases taken
      cases begun
      exact ⟨message, ready, rfl, fun plain => by simp [plain]⟩

theorem startsNext {link : Link} {now : Time} {request : Message} (plain : Plain request)
    (lined : Lined plan count link.standing.started link.outbox) (due : plan[link.standing.started]? = some request)
    (sound : link.Sound) :
    Carries plan (link.startNext now).2 (link.startNext now).1.standing ∧
      Lined plan count (link.startNext now).1.standing.started (link.startNext now).1.outbox := by
  obtain ⟨⟨own, encodes⟩, unstamped⟩ := plain
  have nextId : link.nextId = link.standing.started + 1 := (Nat.sub_add_cancel sound.positive).symm
  fun_cases startNext link now with
  | case1 nothing => exact ⟨.nothing, lined⟩
  | case2 after exchange begins started sent outputs writes =>
    obtain ⟨message, ready, held, asItIs⟩ := beginsNext begins
    obtain ⟨rfl, lined⟩ := lined.next due ready
    have begun := begun begins
    obtain ⟨bytes, encoded, rfl, rfl⟩ := written writes
    have standing : { after with
        handshake := (if exchange.retries = 0 then after.handshake else after.handshake.countRetransmission).sent
          after.timing.ackTimeout now
        active := some exchange.onSent }.standing = ⟨link.standing.started + 1, some message⟩ := by
      simp only [Link.standing, Option.map_some, sentCreated begun.phase, asItIs unstamped, begun.nextId,
        Nat.add_sub_cancel, Nat.sub_add_cancel sound.positive]
    rw [standing]
    exact ⟨.begins (begun.id.trans nextId) due (asItIs unstamped ▸ encoded), lined _ rfl held⟩
  | case3 after exchange begins started refused =>
    obtain ⟨message, ready, -, asItIs⟩ := beginsNext begins
    obtain ⟨rfl, -⟩ := lined.next due ready
    obtain ⟨fault, unencodable⟩ := unwritten refused
    rw [asItIs unstamped, encodes] at unencodable
    contradiction

theorem startsPlanned {link : Link} (sound : link.Sound) (idle : link.active = none)
    (lined : Lined plan count link.standing.started link.outbox) (plain : ∀ request ∈ plan, Plain request) (now : Time) :
    Carries plan (link.startNext now).2 (link.startNext now).1.standing ∧
      Lined plan count (link.startNext now).1.standing.started (link.startNext now).1.outbox := by
  cases due : plan[link.standing.started]? with
  | some request => exact startsNext (plain request (List.mem_of_getElem? due)) lined due sound
  | none =>
    have allBegun := List.getElem?_eq_none_iff.mp due
    have orderly := (startNextPath sound idle now).orderly sound
    have unplanned : ∀ index, link.standing.started ≤ index → index < (link.startNext now).1.standing.started →
        plan[index]? = none := fun index beyond _ => List.getElem?_eq_none (Nat.le_trans allBegun beyond)
    exact ⟨.unplanned orderly unplanned, .past (lined.complete allBegun) (Nat.le_trans allBegun orderly.grows) _⟩

theorem transmitsPlanned {link : Link} (sound : link.Sound) (lined : Lined plan count link.standing.started link.outbox)
    (plain : ∀ request ∈ plan, Plain request) (now : Time) :
    Carries plan (link.transmit now).2 (link.transmit now).1.standing ∧
      Lined plan count (link.transmit now).1.standing.started (link.transmit now).1.outbox := by
  unfold transmit
  split
  · exact ⟨.nothing, lined⟩
  · split
    · rename_i idle
      exact startsPlanned sound idle lined plain now
    · rename_i exchange active
      split
      · split
        · rename_i writes
          obtain ⟨bytes, -, outputs, after⟩ := written writes
          rw [outputs, after]
          exact ⟨.single (by simp), lined⟩
        · rename_i refused
          obtain ⟨bytes, encoded⟩ := (sound.underway exchange active).encodes
          obtain ⟨fault, unencodable⟩ := unwritten refused
          cases encoded.symm.trans unencodable
      · exact ⟨.nothing, lined⟩

theorem concludeStarted (link : Link) : link.conclude.1.nextId = link.nextId := by
  unfold conclude
  split
  · split <;> rfl
  · rfl

theorem inboundStarted (link : Link) (item : Item) (now : Time) : (link.inbound item now).1.nextId = link.nextId := by
  have control (byte : Control) : (link.onControl byte now).1.nextId = link.nextId := concludeStarted _
  cases item with
  | ack => exact control .ack
  | nak => exact control .nak
  | can => exact control .can
  | frame frame =>
    simp only [inbound, onMessage]
    rw [concludeStarted]
    cases { link with handshake := link.handshake.countReceived }.addressee (.ofFrame frame .controller) <;> rfl
  | rejected reason => rfl

theorem expireStarted (link : Link) (now : Time) : (link.expire now).1.nextId = link.nextId := concludeStarted _

theorem abortStarted (link : Link) : link.abort.1.nextId = link.nextId := concludeStarted _

end Link

end ZWaveHost
