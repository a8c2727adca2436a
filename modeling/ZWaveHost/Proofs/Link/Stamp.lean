import ZWaveHost.Proofs.Link.Grounds
import ZWaveHost.Proofs.Link.Served
import ZWaveHost.Proofs.Link.SingleFlight
import ZWaveHost.Proofs.Message.RoundTrip

/-! The callback ids of a run. They are handed out in turn to the requests that have one, as these are started, and
what is written for a request carries its id each time. So a callback belongs to one request among any 255 that follow
each other, and no other of these takes it for its own. -/
namespace ZWaveHost

def stampOf (count : Nat) : UInt8 := UInt8.ofNat (count % 255 + 1)

def stamps (requests : List Message) : Nat := requests.countP (·.callbackId.isSome)

theorem stampNumber (count : Nat) : (stampOf count).toNat = count % 255 + 1 := by
  rw [stampOf, UInt8.toNat_ofNat']
  omega

theorem stampNotZero (count : Nat) : stampOf count ≠ 0 := by
  intro zero
  have number := stampNumber count
  rw [zero] at number
  exact absurd number (Nat.succ_ne_zero _).symm

theorem stampFollows (count : Nat) : Link.followingCallbackId (stampOf count) = stampOf (count + 1) := by
  have number := stampNumber count
  have next := stampNumber (count + 1)
  refine UInt8.toNat_inj.mp ?_
  unfold Link.followingCallbackId
  split
  · rename_i last
    have full : (stampOf count).toNat = 255 := congrArg UInt8.toNat last
    rw [next]
    show 1 = _
    omega
  · rename_i more
    have below : (stampOf count).toNat ≠ 255 := fun full => more (UInt8.toNat_inj.mp full)
    rw [UInt8.toNat_add, next, number]
    show (count % 255 + 1 + 1) % 256 = _
    omega

theorem stampsDiffer {first second : Nat} (apart : first < second) (near : second < first + 255) :
    stampOf first ≠ stampOf second := by
  intro same
  have equal := congrArg UInt8.toNat same
  rw [stampNumber, stampNumber] at equal
  omega

theorem stampsAscend {requests : List Message} {first second : Nat} {request : Message} (apart : first < second)
    (found : requests[first]? = some request) (carries : request.callbackId.isSome) :
    stamps (requests.take first) < stamps (requests.take second) := by
  have longer : requests.take (first + 1) = requests.take first ++ [request] := by
    rw [List.take_add_one, found]
    rfl
  have counted : stamps (requests.take (first + 1)) = stamps (requests.take first) + 1 := by
    simp [stamps, longer, List.countP_append, carries]
  have grows : stamps (requests.take (first + 1)) ≤ stamps (requests.take second) :=
    List.Sublist.countP_le (List.take_sublist_take_left apart)
  omega

namespace Message

theorem stampedHas (id : UInt8) (message : Message) :
    (message.withCallbackId id).callbackId.isSome = message.callbackId.isSome := by
  cases message <;> rfl

theorem stampedCarries {message : Message} (host : message.side = .host) (has : message.callbackId.isSome)
    (id : UInt8) : (message.withCallbackId id).callbackId = some id ∧ (message.withCallbackId id).side = .host := by
  cases message <;> first | exact ⟨rfl, rfl⟩ | contradiction

theorem hostWritten {message : Message} (host : message.side = .host) {bytes} (written : message.encode = .ok bytes) :
    ∃ frame : Frame, frame.encode = .ok bytes ∧ Message.ofFrame frame .host = message := by
  obtain ⟨frame, laidOut, encoded⟩ := bothDone written
  have canonical : message.Canonical := by
    cases message <;> trivial
  exact ⟨frame, encoded, host ▸ laidOutReadBack canonical laidOut⟩

def outcomeOf? : Message → Option UInt8
  | sendDataCallback id _ | setDefaultCallback id => some id
  | _ => none

theorem plannedCarries {request : Message} {function id : UInt8}
    (planned : .callback function id ∈ Reply.plan request) : request.callbackId = some id := by
  cases request <;> simp_all [Reply.plan, callbackId]

theorem outcomeCalledFor {request message : Message} {id : UInt8} (outcome : message.outcomeOf? = some id)
    {reply} (planned : reply ∈ Reply.plan request) (admits : reply.admits message) :
    request.callbackId = some id := by
  have unannounced : message.isResponse = false ∧ message.callbackId = some id ∧
      ∀ update, message ≠ .nodeUpdate update := by
    unfold outcomeOf? at outcome
    split at outcome
    · exact ⟨rfl, outcome, nofun⟩
    · exact ⟨rfl, outcome, nofun⟩
    · contradiction
  obtain ⟨response, same, update⟩ := unannounced
  cases reply with
  | response => simp [Reply.admits, response] at admits
  | callback function own =>
    simp only [Reply.admits, Bool.and_eq_true, beq_iff_eq] at admits
    rw [plannedCarries planned, ← admits.2, same]
  | nodeUpdate node =>
    obtain ⟨other, news, -⟩ := admitsUpdate admits
    exact absurd news (update other)

end Message

theorem Exchange.Changes.expected {timing : Timing} {now : Time} {exchange next : Exchange} {heard}
    (changes : Changes timing now exchange heard next) : next.expected <:+ exchange.expected := by
  have advances (exchange : Exchange) : (exchange.advance timing now).expected = exchange.expected := by
    rcases exchange.advanced timing now with ⟨-, same⟩ | ⟨-, same⟩ <;> rw [same]
  cases changes with
  | acknowledged sent =>
    have same : exchange.onAck timing now = exchange.advance timing now := by simp [onAck, sent]
    exact (same ▸ advances exchange) ▸ List.suffix_rfl
  | undelivered sent =>
    rcases undeliveredSent sent timing now with ⟨-, same⟩ | ⟨-, same⟩ <;> exact same ▸ List.suffix_rfl
  | replied next =>
    rcases repliedNext next timing now with ⟨_, -, same⟩ | ⟨-, same⟩
    · exact same ▸ List.tail_suffix _
    · rw [same, advances]
      exact List.tail_suffix _
  | late awaiting passed => exact lateAwaiting awaiting passed ▸ List.suffix_rfl
  | cancelled => exact List.suffix_rfl

namespace Link
open Transcript

structure Served (link : Link) (outputs : List Output) (requests : List Message) : Prop where
  tells : TellsOf requests none outputs
  starts : startsOf outputs = List.range' 1 requests.length
  flight : flightAfter none outputs = link.active.map Exchange.id
  active : ∀ exchange, link.active = some exchange →
    Numbered requests exchange.id exchange.request ∧ exchange.expected <:+ Reply.plan exchange.request
  count : link.nextId = requests.length + 1
  next : link.nextCallbackId = stampOf (stamps requests)
  stamped : ∀ index request, requests[index]? = some request → request.callbackId.isSome →
    request.side = .host ∧ request.callbackId = some (stampOf (stamps (requests.take index)))

theorem stampedBegun {link after : Link} {exchange} (waiting : link.outbox.Only Message.IsHostMade)
    (begins : link.begin? = some (after, exchange)) :
    (exchange.request.callbackId.isSome →
        exchange.request.side = .host ∧ exchange.request.callbackId = some link.nextCallbackId) ∧
      after.nextCallbackId = if exchange.request.callbackId.isSome = true then followingCallbackId link.nextCallbackId
        else link.nextCallbackId := by
  unfold begin? at begins
  split at begins
  · contradiction
  · rename_i message outbox taken
    have made : message.IsHostMade := (Outbox.onlyNext waiting taken).1
    cases Option.some.inj begins
    by_cases has : message.callbackId.isSome = true
    · have carries := Message.stampedCarries (made has) has link.nextCallbackId
      simp only [if_pos has, Message.stampedHas]
      exact ⟨fun _ => carries.symm, trivial⟩
    · simp only [if_neg has]
      exact ⟨fun own => absurd own has, trivial⟩

namespace Served

variable {link after : Link} {outputs : List Output} {requests : List Message}

theorem fresh (timing : Timing) (slots : Slots) : Served (fresh timing slots) [] [] :=
  ⟨trivial, rfl, rfl, nofun, rfl, rfl, nofun⟩

theorem goOn (served : Served link outputs requests) {more : List Output}
    (tells : TellsOf requests (link.active.map Exchange.id) more) (none : startsOf more = [])
    (flight : flightAfter (link.active.map Exchange.id) more = after.active.map Exchange.id)
    (active : ∀ next, after.active = some next → ∃ exchange, link.active = some exchange ∧ next.id = exchange.id ∧
      next.request = exchange.request ∧ next.expected <:+ exchange.expected)
    (counters : after.nextId = link.nextId ∧ after.nextCallbackId = link.nextCallbackId) :
    Served after (outputs ++ more) requests where
  tells := served.tells.append (served.flight.symm ▸ tells)
  starts := by rw [startsAppend, none, List.append_nil, served.starts]
  flight := by rw [flightAppend, served.flight, flight]
  active next found := by
    obtain ⟨exchange, before, id, request, expected⟩ := active next found
    obtain ⟨numbered, planned⟩ := served.active exchange before
    rw [id, request]
    exact ⟨numbered, expected.trans planned⟩
  count := counters.1.trans served.count
  next := counters.2.trans served.next
  stamped := served.stamped

theorem rewrites (served : Served link outputs requests) {exchange bytes handshake}
    (active : link.active = some exchange) (same : after = { link with handshake, active := some exchange.onSent })
    (encoded : exchange.request.encode = .ok bytes) :
    Served after (outputs ++ [.write bytes]) requests := by
  subst same
  have sent : exchange.onSent.id = exchange.id ∧ exchange.onSent.request = exchange.request ∧
      exchange.onSent.expected = exchange.expected := by
    unfold Exchange.onSent
    split <;> exact ⟨rfl, rfl, rfl⟩
  have numbered := (served.active exchange active).1
  refine served.goOn ⟨.inr (.inr ⟨_, _, congrArg _ active, numbered, encoded⟩), trivial⟩ rfl ?_ ?_ ⟨rfl, rfl⟩
  · simp only [active, Option.map_some, sent.1]
    rfl
  · intro next found
    cases Option.some.inj found
    exact ⟨exchange, active, sent.1, sent.2.1, sent.2.2 ▸ List.suffix_rfl⟩

theorem closes (served : Served link outputs requests) {exchange event} (active : link.active = some exchange)
    (idle : after.active = none) (counters : after.nextId = link.nextId ∧ after.nextCallbackId = link.nextCallbackId)
    (ends : Ends exchange.id exchange.request event) : Served after (outputs ++ [.event event]) requests := by
  have numbered := (served.active exchange active).1
  have tells : TellsOf requests (link.active.map Exchange.id) [.event event] := by
    rcases ends with rfl | ⟨why, rfl⟩ <;> exact ⟨⟨numbered, rfl⟩, trivial⟩
  refine served.goOn tells ?_ ?_ (by simp [idle]) counters
  · rcases ends with rfl | ⟨why, rfl⟩ <;> rfl
  · rw [flightEnded ends, idle]
    rfl

theorem turns (served : Served link outputs requests) {now op heard exchange next handshake} (outbox : Outbox)
    (active : link.active = some exchange) (turns : Turns link now exchange op heard next) :
    Served { link with handshake, outbox, active := some next }.conclude.1
      (outputs ++ (heard ++ { link with handshake, outbox, active := some next }.conclude.2)) requests := by
  obtain ⟨numbered, planned⟩ := served.active exchange active
  obtain ⟨answer, later, _, _, changes⟩ := turns.changes
  have goes : TellsOf requests (link.active.map Exchange.id) heard ∧ startsOf heard = [] ∧
      flightAfter (link.active.map Exchange.id) heard = link.active.map Exchange.id := by
    cases turns with
    | replied next =>
      obtain ⟨reply, left, expected, admits⟩ := nextExpected next
      have called : reply ∈ Reply.plan exchange.request := planned.subset (expected ▸ List.mem_cons_self)
      refine ⟨⟨.inl rfl, fun own context => ?_, trivial⟩, rfl, rfl⟩
      cases Option.some.inj context
      exact ⟨exchange.request, numbered, reply, called, admits⟩
    | _ => exact ⟨trivial, rfl, rfl⟩
  have turned : Served { link with handshake, outbox, active := some next } (outputs ++ heard) requests := by
    refine served.goOn goes.1 goes.2.1 ?_ (fun other found => ?_) ⟨rfl, rfl⟩
    · rw [goes.2.2, active]
      exact congrArg some changes.changed.id.symm
    · cases Option.some.inj found
      exact ⟨exchange, active, changes.changed.id, changes.changed.request, changes.expected⟩
  rw [← List.append_assoc]
  cases ends : next.isTerminal with
  | false => simpa [conclude, ends] using turned
  | true =>
    have closed : Served { link with handshake, outbox, active := none } (outputs ++ heard ++ [.event (ending next)])
        requests := turned.closes rfl rfl ⟨rfl, rfl⟩ (endingEnds next)
    simpa [conclude, ends] using closed

theorem begins (served : Served link outputs requests) {exchange}
    (waiting : link.outbox.Only Message.IsHostMade) (begins : link.begin? = some (after, exchange)) :
    Served { after with active := some exchange }
      (outputs ++ [.event (.started exchange.id exchange.node)]) (requests ++ [exchange.request]) := by
  have begun := begun begins
  have id : exchange.id = requests.length + 1 := begun.id.trans served.count
  have numbered : Numbered (requests ++ [exchange.request]) exchange.id exchange.request := id ▸ numberedLast _ _
  obtain ⟨carries, next⟩ := stampedBegun waiting begins
  have total : stamps (requests ++ [exchange.request]) =
      stamps requests + if exchange.request.callbackId.isSome = true then 1 else 0 := by
    simp [stamps, List.countP_append, List.countP_singleton]
  constructor
  · refine (served.tells.more _).append ⟨⟨exchange.request, numbered, rfl⟩, trivial⟩
  · rw [startsAppend, served.starts, List.length_append, List.length_singleton, List.range'_concat, id, Nat.one_mul,
      Nat.add_comm 1]
    rfl
  · rw [flightAppend]
    rfl
  · intro other found
    cases Option.some.inj found
    exact ⟨numbered, begun.expected ▸ List.suffix_rfl⟩
  · simp [begun.nextId, served.count]
  · show after.nextCallbackId = _
    rw [next, total, served.next]
    split
    · exact stampFollows _
    · rfl
  · intro index request found has
    rcases Nat.lt_or_ge index requests.length with early | last
    · rw [List.getElem?_append_left early] at found
      rw [List.take_append_of_le_length (Nat.le_of_lt early)]
      exact served.stamped index request found has
    · have here : index = requests.length := by
        have bound := (List.getElem?_eq_some_iff.mp found).1
        rw [List.length_append, List.length_singleton] at bound
        omega
      subst here
      cases Option.some.inj (List.getElem?_concat_length.symm.trans found)
      rw [List.take_left, ← served.next]
      exact carries has

theorem startNext (served : Served link outputs requests) (idle : link.active = none)
    (waiting : link.outbox.Only Message.IsHostMade) (now : Time) :
    ∃ later, Served (link.startNext now).1 (outputs ++ (link.startNext now).2) (requests ++ later) := by
  fun_induction Link.startNext link now generalizing outputs requests with
  | case1 link nothing => exact ⟨[], by simpa using served⟩
  | case2 link after exchange begins started sent more =>
    rename_i writes
    obtain ⟨bytes, encoded, rfl, same⟩ := written writes
    have begun := served.begins waiting begins
    exact ⟨_, by simpa using begun.rewrites rfl same encoded⟩
  | case3 link after exchange begins started refused last later recursion =>
    rename_i ih
    have begun := served.begins waiting begins
    have ended : Served { after with active := none } _ _ := begun.closes rfl rfl ⟨rfl, rfl⟩ (.inr ⟨.rejected, rfl⟩)
    have left : { after with active := none }.outbox.Only Message.IsHostMade :=
      beginNext begins ▸ Outbox.onlyExit waiting .next trivial
    obtain ⟨others, rest⟩ := ih ended rfl left
    rw [recursion] at rest
    exact ⟨_, by simpa [started, rejectedEnding (Link.begun begins).phase, Exchange.node] using rest⟩

theorem step (served : Served link outputs requests) (sound : link.Sound)
    (waiting : link.outbox.Only Message.IsHostMade) (now : Time) (op : Op) :
    ∃ later, Served (link.step now op).1 (outputs ++ (link.step now op).2) (requests ++ later) := by
  have same {after : Link} {more : List Output} (known : Served after (outputs ++ more) requests) :
      ∃ later, Served after (outputs ++ more) (requests ++ later) := ⟨[], (List.append_nil requests).symm ▸ known⟩
  generalize stepped : link.step now op = last
  have call := stepCall sound now op
  rw [stepped] at call
  obtain ⟨after, more⟩ := last
  cases call with
  | aside outbox _ _ stray =>
    obtain ⟨tells, flight, none⟩ := straysTell stray requests (link.active.map Exchange.id)
    exact same (served.goOn tells none flight (fun next found => ⟨next, found, rfl, rfl, List.suffix_rfl⟩) ⟨rfl, rfl⟩)
  | turned outbox active turns settled => exact same (served.turns outbox active turns)
  | repeated active _ _ encoded => exact same (served.rewrites active rfl encoded)
  | released idle => exact served.startNext idle waiting now

theorem run (served : Served link outputs requests) (sound : link.Sound) (waiting : link.outbox.Only Message.IsHostMade)
    {history : List (Time × Op)} (made : ∀ now outbound,
      (now, .enqueue outbound) ∈ history ∨ (now, .accept outbound) ∈ history → outbound.message.IsHostMade) :
    ∃ later, Served (link.run history).1 (outputs ++ (link.run history).2.flatten) (requests ++ later) := by
  induction history generalizing link outputs requests with
  | nil => exact ⟨[], by simpa [Link.run] using served⟩
  | cons call rest ih =>
    obtain ⟨now, op⟩ := call
    obtain ⟨first, next⟩ := served.step sound waiting now op
    have brings : ∀ outbound, op = .enqueue outbound ∧ outbound.message.validate = .ok () ∨ op = .accept outbound →
        outbound.message.IsHostMade := by
      rintro outbound (⟨rfl, -⟩ | rfl)
      · exact made now outbound (.inl List.mem_cons_self)
      · exact made now outbound (.inr List.mem_cons_self)
    have others : ∀ now outbound, (now, .enqueue outbound) ∈ rest ∨ (now, .accept outbound) ∈ rest →
        outbound.message.IsHostMade := fun now outbound member =>
      made now outbound (member.imp (List.mem_cons_of_mem _) (List.mem_cons_of_mem _))
    obtain ⟨later, last⟩ := ih next ((stepPath sound now op).sound sound) (onlyStep waiting now brings) others
    exact ⟨first ++ later, by simpa only [Link.run, List.flatten_cons, List.append_assoc] using last⟩

theorem notTaken (served : Served link outputs requests) {message context id} (outcome : message.outcomeOf? = some id)
    (received : .event (.received message (some context)) ∈ outputs) {index request}
    (found : requests[index]? = some request) (other : request.callbackId ≠ some id) : context.id ≠ index + 1 := by
  intro same
  obtain ⟨_, told⟩ := served.tells.member received
  obtain ⟨own, ⟨place, number, known⟩, reply, planned, admits⟩ := told context rfl
  cases Nat.succ.inj (number.symm.trans same)
  cases Option.some.inj (known.symm.trans found)
  exact other (Message.outcomeCalledFor outcome planned admits)

theorem written (served : Served link outputs requests) {index request} (found : requests[index]? = some request)
    (has : request.callbackId.isSome) {bytes} (written : bytes ∈ writesOf (index + 1) outputs) :
    ∃ frame : Frame, frame.encode = .ok bytes ∧ Message.ofFrame frame .host = request := by
  obtain ⟨other, ⟨same, number, known⟩, encoded⟩ := served.tells.written written
  cases Nat.succ.inj number
  cases Option.some.inj (found.symm.trans known)
  exact Message.hostWritten (served.stamped index request found has).1 encoded

end Served

/-- Whatever the callers put in: the requests that have a callback id get the ids from 1 to 255 in turn, in the order in
which they are started, and each transmission of such a request carries its id. Two of them that are fewer than 255
starts apart have different ids, and neither takes the callback of the other for its own. -/
theorem callbackIdsCorrelate (timing : Timing) (slots : Slots) {history : List (Time × Op)}
    (hostMade : ∀ now outbound, (now, .enqueue outbound) ∈ history ∨ (now, .accept outbound) ∈ history →
      outbound.message.callbackId.isSome → outbound.message.side = .host) :
    let outputs := ((fresh timing slots).run history).2.flatten
    ∃ requests : List Message, startsOf outputs = List.range' 1 requests.length ∧ TellsOf requests none outputs ∧
      (∀ index request, requests[index]? = some request → request.callbackId.isSome →
        let id := stampOf (stamps (requests.take index))
        id ≠ 0 ∧ request.callbackId = some id ∧
        ∀ bytes ∈ writesOf (index + 1) outputs, ∃ frame : Frame, frame.encode = .ok bytes ∧
          Message.ofFrame frame .host = request) ∧
      ∀ first second one other, first < second →
        requests[first]? = some one → one.callbackId.isSome →
        requests[second]? = some other → other.callbackId.isSome →
        stamps (requests.take second) < stamps (requests.take first) + 255 →
          one.callbackId ≠ other.callbackId ∧
          ∀ message context, .event (.received message (some context)) ∈ outputs →
            (message.outcomeOf? = one.callbackId → context.id ≠ second + 1) ∧
            (message.outcomeOf? = other.callbackId → context.id ≠ first + 1) := by
  intro outputs
  have waiting : (fresh timing slots).outbox.Only Message.IsHostMade := ⟨nofun, nofun⟩
  obtain ⟨requests, served⟩ := (Served.fresh timing slots).run (freshSound timing slots) waiting hostMade
  rw [List.nil_append, List.nil_append] at served
  refine ⟨requests, served.starts, served.tells, fun index request found has => ?_, ?_⟩
  · exact ⟨stampNotZero _, (served.stamped index request found has).2, fun bytes member =>
      served.written found has member⟩
  · intro first second one other apart found has located carries near
    have differ : one.callbackId ≠ other.callbackId := by
      rw [(served.stamped first one found has).2, (served.stamped second other located carries).2]
      exact fun same => stampsDiffer (stampsAscend apart found has) near (Option.some.inj same)
    refine ⟨differ, fun message context received => ⟨fun own => ?_, fun own => ?_⟩⟩
    · obtain ⟨id, mine⟩ := Option.isSome_iff_exists.mp has
      exact served.notTaken (own.trans mine) received located fun same => differ (mine.trans same.symm)
    · obtain ⟨id, mine⟩ := Option.isSome_iff_exists.mp carries
      exact served.notTaken (own.trans mine) received found fun same => differ (same.trans mine.symm)

theorem callbackIdsOfTwo :
    let history := [(0, .enqueue { message := .sendData 3 [0x20, 0x02] TxOptions.usual 77 }), (0, .transmit),
      (1, .inbound .nak), (101, .transmit), (102, .inbound .ack),
      (103, .inbound (.frame (.response FunctionId.sendData [0x01]))),
      (104, .inbound (.frame (.request FunctionId.sendData [0x01, 0x00]))),
      (105, .accept { message := .setDefault 77 }), (105, .transmit), (106, .inbound .ack),
      (107, .inbound (.frame (.request FunctionId.setDefault [0x02])))]
    let outputs := ((fresh {} {}).run history).2.flatten
    (∀ now outbound, (now, .enqueue outbound) ∈ history ∨ (now, .accept outbound) ∈ history →
      outbound.message.callbackId.isSome → outbound.message.side = .host) ∧
    (writesOf 1 outputs).length = 2 ∧ (writesOf 2 outputs).length = 1 ∧
    (∀ bytes ∈ writesOf 1 outputs, ∃ frame : Frame, frame.encode = .ok bytes ∧
      Message.ofFrame frame .host = .sendData 3 [0x20, 0x02] TxOptions.usual 1) ∧
    (∀ bytes ∈ writesOf 2 outputs, ∃ frame : Frame, frame.encode = .ok bytes ∧
      Message.ofFrame frame .host = .setDefault 2) ∧
    ∀ status context, .event (.received (.sendDataCallback 1 status) (some context)) ∈ outputs → context.id ≠ 2 := by
  intro history outputs
  have hostMade : ∀ now outbound, (now, .enqueue outbound) ∈ history ∨ (now, .accept outbound) ∈ history →
      outbound.message.callbackId.isSome → outbound.message.side = .host := by
    intro now outbound member _
    have known : outbound.message = .sendData 3 [0x20, 0x02] TxOptions.usual 77 ∨
        outbound.message = .setDefault 77 := by
      simp only [history, List.mem_cons, Prod.mk.injEq, reduceCtorEq, and_false, false_or, or_false, List.not_mem_nil,
        Op.enqueue.injEq, Op.accept.injEq] at member
      rcases member with ⟨-, same⟩ | ⟨-, same⟩
      · exact .inl (same ▸ rfl)
      · exact .inr (same ▸ rfl)
    rcases known with same | same <;> rw [same] <;> rfl
  have first : .event (.completed 1 (some 3) (.sendData 3 [0x20, 0x02] TxOptions.usual 1)) ∈ outputs := by
    decide +kernel +zetaReduce
  have second : .event (.completed 2 none (.setDefault 2)) ∈ outputs := by decide +kernel +zetaReduce
  obtain ⟨requests, -, tells, written, apart⟩ := callbackIdsCorrelate {} {} hostMade
  obtain ⟨_, ⟨one, number, found⟩, -⟩ := tells.member first
  obtain ⟨_, ⟨two, place, located⟩, -⟩ := tells.member second
  cases Nat.succ.inj number
  cases Nat.succ.inj place
  have near : stamps (requests.take 1) < stamps (requests.take 0) + 255 :=
    Nat.lt_of_le_of_lt (Nat.le_trans List.countP_le_length (List.length_take_le 1 requests)) (by omega)
  refine ⟨hostMade, by decide +kernel +zetaReduce, by decide +kernel +zetaReduce, (written 0 _ found rfl).2.2,
    (written 1 _ located rfl).2.2, fun status context received => ?_⟩
  exact ((apart 0 1 _ _ Nat.zero_lt_one found rfl located rfl near).2 _ context received).1 rfl

end Link

end ZWaveHost
