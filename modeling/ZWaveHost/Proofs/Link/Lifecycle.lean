import ZWaveHost.Proofs.Link.Answers

/-! The life of one exchange under any calls at all, in any order and at any instants. Beside its phase an exchange is
shown in fields that are written one by one. Both say the same after every call, so what the fields have to do with
each other is read off the phase. -/
namespace ZWaveHost.Exchange

/- Where the fields say that an exchange stands. It is acknowledged only while a call is under way. -/
inductive Stage
  | created
  | sent
  | acknowledged
  | awaiting
  | completed
  | failed
  deriving DecidableEq, Repr

structure Fields where
  id : Nat
  request : Message
  stage : Stage := .created
  retries : Nat := 0
  expected : List Reply := Reply.plan request
  deadline : Option Time := none
  failure : Option Failure := none
  deriving DecidableEq, Repr

namespace Fields

def isTerminal (fields : Fields) : Bool := fields.stage = .completed || fields.stage = .failed

def fail (fields : Fields) (why : Failure) : Fields :=
  { fields with stage := .failed, deadline := none, failure := some why }

def advance (fields : Fields) (timing : Timing) (now : Time) : Fields :=
  if fields.expected.isEmpty then { fields with stage := .completed, deadline := none }
  else { fields with stage := .awaiting, deadline := some (now + timing.responseTimeout) }

def onSent (fields : Fields) : Fields :=
  if fields.stage = .created then { fields with stage := .sent, deadline := none } else fields

def onAck (fields : Fields) (timing : Timing) (now : Time) : Fields :=
  if fields.stage = .sent then { fields with stage := .acknowledged }.advance timing now else fields

def onUndelivered (fields : Fields) (timing : Timing) (now : Time) : Fields :=
  if fields.stage = .sent then
    if fields.retries < timing.maxRetries then
      { fields with
        retries := fields.retries + 1
        stage := .created
        deadline := some (now + timing.retransmitDelay (fields.retries + 1)) }
    else fields.fail (.link (fields.retries + 1))
  else fields

def isNextReply (fields : Fields) (message : Message) : Bool :=
  (fields.stage = .sent || fields.stage = .acknowledged || fields.stage = .awaiting) &&
    fields.expected.head?.any (·.admits message)

def onReply (fields : Fields) (message : Message) (timing : Timing) (now : Time) : Fields :=
  if fields.isNextReply message then
    let rest := { fields with expected := fields.expected.tail }
    match reportedFailure message with
    | some why => rest.fail why
    | none => rest.advance timing now
  else fields

def expire (fields : Fields) (now : Time) : Fields :=
  if fields.stage = .awaiting ∧ fields.deadline.any (· ≤ now) then
    fields.fail (.timeout (!fields.expected.head?.any Reply.isResponse))
  else fields

def stop (fields : Fields) (why : Failure) : Fields := if fields.isTerminal then fields else fields.fail why

def step (timing : Timing) (fields : Fields) (now : Time) : Op → Fields
  | .sent => fields.onSent
  | .ack => fields.onAck timing now
  | .undelivered => fields.onUndelivered timing now
  | .message message => fields.onReply message timing now
  | .expire => fields.expire now
  | .refuse => fields.stop .rejected
  | .abort => fields.stop .cancelled

def run (timing : Timing) (fields : Fields) (history : List (Time × Op)) : Fields :=
  history.foldl (fun state (now, op) => state.step timing now op) fields

end Fields

def stage (exchange : Exchange) : Stage :=
  match exchange.phase with
  | .created _ => .created
  | .sent => .sent
  | .awaiting _ => .awaiting
  | .completed => .completed
  | .failed _ => .failed

def fields (exchange : Exchange) : Fields :=
  { id := exchange.id
    request := exchange.request
    stage := exchange.stage
    retries := exchange.retries
    expected := exchange.expected
    deadline := exchange.deadline
    failure := exchange.failure }

inductive Becomes (timing : Timing) (now : Time) (exchange : Exchange) : Op → Exchange → Prop
  | unmoved {op} : Becomes timing now exchange op exchange
  | written {due} (created : exchange.phase = .created due) :
      Becomes timing now exchange .sent { exchange with phase := .sent }
  | acknowledged (sent : exchange.phase = .sent) : Becomes timing now exchange .ack (exchange.advance timing now)
  | again (sent : exchange.phase = .sent) (left : exchange.retries < timing.maxRetries) :
      Becomes timing now exchange .undelivered
        { exchange with
          phase := .created (some (now + timing.retransmitDelay (exchange.retries + 1)))
          retries := exchange.retries + 1 }
  | replied {message} (isNext : exchange.isNextReply message) :
      Becomes timing now exchange (.message message)
        ({ exchange with expected := exchange.expected.tail }.advance timing now)
  | failed {op why expected} (goes : exchange.isTerminal = false) (left : expected <:+ exchange.expected) :
      Becomes timing now exchange op { exchange with phase := .failed why, expected }

structure Consistent (timing : Timing) (exchange : Exchange) : Prop where
  patient : exchange.retries ≤ timing.maxRetries
  scheduled : exchange.deadline.isSome ↔
    exchange.stage = .awaiting ∨ exchange.stage = .created ∧ 1 ≤ exchange.retries
  suffix : exchange.expected <:+ Reply.plan exchange.request
  unanswered : exchange.stage = .created ∨ exchange.stage = .sent → exchange.expected = Reply.plan exchange.request
  waits : exchange.stage = .awaiting → exchange.expected ≠ []
  served : exchange.stage = .completed → exchange.expected = []

variable {timing : Timing} {now : Time} {exchange next : Exchange} {op : Op}

theorem advanceFields (unfailed : exchange.failure = none) (stage : Stage) :
    (exchange.advance timing now).fields = { exchange.fields with stage }.advance timing now := by
  rcases exchange.advanced timing now with ⟨done, same⟩ | ⟨more, same⟩
  · rw [same]
    simp only [Fields.advance, fields, unfailed, done, List.isEmpty_nil, if_true]
    rfl
  · rw [same]
    simp only [Fields.advance, fields, unfailed, List.isEmpty_iff, more, if_false]
    rfl

theorem isTerminalFields (exchange : Exchange) : exchange.fields.isTerminal = exchange.isTerminal := by
  unfold Fields.isTerminal fields Exchange.stage isTerminal
  cases exchange.phase <;> rfl

theorem isNextReplyFields (exchange : Exchange) (message : Message) :
    exchange.fields.isNextReply message = exchange.isNextReply message := by
  unfold Fields.isNextReply fields Exchange.stage isNextReply
  cases exchange.phase <;> simp

theorem nextReplyUnfailed {message} (isNext : exchange.isNextReply message) : exchange.failure = none := by
  unfold isNextReply at isNext
  unfold failure
  cases phase : exchange.phase <;> simp_all

theorem onSentFields (exchange : Exchange) : exchange.onSent.fields = exchange.fields.onSent := by
  unfold Fields.onSent onSent
  cases phase : exchange.phase <;> simp [fields, Exchange.stage, deadline, failure, phase]

theorem onAckFields (timing : Timing) (now : Time) (exchange : Exchange) :
    (exchange.onAck timing now).fields = exchange.fields.onAck timing now := by
  cases phase : exchange.phase with
  | sent =>
    have unfailed : exchange.failure = none := by simp [failure, phase]
    have stage : exchange.fields.stage = .sent := by simp [fields, Exchange.stage, phase]
    simp only [onAck, phase, Fields.onAck, if_pos stage, advanceFields unfailed .acknowledged]
  | _ => simp [onAck, Fields.onAck, fields, Exchange.stage, phase]

theorem onUndeliveredFields (timing : Timing) (now : Time) (exchange : Exchange) :
    (exchange.onUndelivered timing now).fields = exchange.fields.onUndelivered timing now := by
  cases phase : exchange.phase with
  | sent =>
    have stage : exchange.fields.stage = .sent := by simp [fields, Exchange.stage, phase]
    unfold Fields.onUndelivered
    rw [if_pos stage]
    rcases undeliveredSent phase timing now with ⟨left, same⟩ | ⟨spent, same⟩
    · simp [same, fields, Exchange.stage, deadline, failure, phase, left]
    · simp [same, fields, Exchange.stage, deadline, failure, fail, Fields.fail, Nat.not_lt.mpr spent]
  | _ => simp [onUndelivered, Fields.onUndelivered, fields, Exchange.stage, phase]

theorem onReplyFields (message : Message) (timing : Timing) (now : Time) (exchange : Exchange) :
    (exchange.onReply message timing now).fields = exchange.fields.onReply message timing now := by
  unfold Fields.onReply
  rw [isNextReplyFields]
  split
  · rename_i isNext
    rcases repliedNext isNext timing now with ⟨why, reported, same⟩ | ⟨clean, same⟩
    · rw [same, reported]
      rfl
    · have unfailed := nextReplyUnfailed isNext
      rw [same, clean, @advanceFields _ _ { exchange with expected := exchange.expected.tail } unfailed exchange.stage]
      rfl
  · rename_i other
    simp [onReply, other]

theorem expireFields (now : Time) (exchange : Exchange) :
    (exchange.expire now).fields = exchange.fields.expire now := by
  cases phase : exchange.phase with
  | awaiting deadline =>
    by_cases passed : deadline ≤ now
    · rw [lateAwaiting phase passed]
      simp [Fields.expire, fields, Exchange.stage, Exchange.deadline, phase, passed, fail, failure, Fields.fail]
    · simp [expire, Fields.expire, fields, Exchange.stage, Exchange.deadline, phase, passed]
  | _ => simp [expire, Fields.expire, fields, Exchange.stage, phase]

theorem stopFields (why : Failure) (exchange : Exchange) : (exchange.stop why).fields = exchange.fields.stop why := by
  unfold Fields.stop
  rw [isTerminalFields]
  by_cases ended : exchange.isTerminal
  · simp [stop, ended]
  · simp only [stop, ended]
    rfl

theorem stepFields (timing : Timing) (exchange : Exchange) (now : Time) (op : Op) :
    (exchange.step timing now op).fields = exchange.fields.step timing now op := by
  cases op with
  | sent => exact exchange.onSentFields
  | ack => exact exchange.onAckFields timing now
  | undelivered => exact exchange.onUndeliveredFields timing now
  | message message => exact exchange.onReplyFields message timing now
  | expire => exact exchange.expireFields now
  | refuse => exact exchange.stopFields .rejected
  | abort => exact exchange.stopFields .cancelled

theorem runFields (timing : Timing) (exchange : Exchange) (history : List (Time × Op)) :
    (exchange.run timing history).fields = exchange.fields.run timing history := by
  induction history generalizing exchange with
  | nil => rfl
  | cons call rest ih =>
    have later := ih (exchange.step timing call.1 call.2)
    rwa [stepFields] at later

theorem nextReplyGoes {message} (isNext : exchange.isNextReply message) : exchange.isTerminal = false := by
  unfold isNextReply at isNext
  unfold isTerminal
  cases phase : exchange.phase <;> simp_all

theorem failBecomes (goes : exchange.isTerminal = false) (why : Failure) :
    Becomes timing now exchange op (exchange.fail why) :=
  .failed goes (List.suffix_refl exchange.expected)

theorem stopBecomes (timing : Timing) (now : Time) (exchange : Exchange) (op : Op) (why : Failure) :
    Becomes timing now exchange op (exchange.stop why) := by
  cases ended : exchange.isTerminal with
  | true => simpa [stop, ended] using Becomes.unmoved
  | false => simpa [stop, ended] using failBecomes ended why

theorem stepBecomes (timing : Timing) (exchange : Exchange) (now : Time) (op : Op) :
    Becomes timing now exchange op (exchange.step timing now op) := by
  cases op with
  | sent =>
    cases phase : exchange.phase with
    | created due => simpa [step, onSent, phase] using Becomes.written phase
    | _ => simpa [step, onSent, phase] using Becomes.unmoved
  | ack =>
    cases phase : exchange.phase with
    | sent => simpa [step, onAck, phase] using Becomes.acknowledged phase
    | _ => simpa [step, onAck, phase] using Becomes.unmoved
  | undelivered =>
    cases phase : exchange.phase with
    | sent =>
      rcases undeliveredSent phase timing now with ⟨left, same⟩ | ⟨_, same⟩
      · simpa only [step, same] using Becomes.again phase left
      · simpa only [step, same] using failBecomes (by simp [isTerminal, phase]) _
    | _ => simpa [step, onUndelivered, phase] using Becomes.unmoved
  | message message =>
    by_cases isNext : exchange.isNextReply message
    · rcases repliedNext isNext timing now with ⟨why, _, same⟩ | ⟨_, same⟩
      · simpa only [step, same] using Becomes.failed (nextReplyGoes isNext) (List.tail_suffix exchange.expected)
      · simpa only [step, same] using Becomes.replied isNext
    · simpa [step, onReply, isNext] using Becomes.unmoved
  | expire =>
    rcases exchange.expired now with same | ⟨deadline, awaiting, passed⟩
    · simpa only [step, same] using Becomes.unmoved
    · simpa only [step, lateAwaiting awaiting passed] using failBecomes (by simp [isTerminal, awaiting]) _
  | refuse => exact stopBecomes timing now exchange .refuse .rejected
  | abort => exact stopBecomes timing now exchange .abort .cancelled

theorem freshConsistent (timing : Timing) (id : Nat) (request : Message) :
    Consistent timing ({ id, request } : Exchange) :=
  ⟨Nat.zero_le _, by simp [deadline, stage], List.suffix_refl _, fun _ => rfl, by simp [stage], by simp [stage]⟩

theorem advanceConsistent (patient : exchange.retries ≤ timing.maxRetries)
    (suffix : exchange.expected <:+ Reply.plan exchange.request) (now : Time) :
    Consistent timing (exchange.advance timing now) := by
  rcases exchange.advanced timing now with ⟨done, same⟩ | ⟨more, same⟩
  · rw [same]
    exact ⟨patient, by simp [deadline, stage], suffix, by simp [stage], by simp [stage], fun _ => done⟩
  · rw [same]
    exact ⟨patient, by simp [deadline, stage], suffix, by simp [stage], fun _ => more, by simp [stage]⟩

theorem Becomes.consistent (becomes : Becomes timing now exchange op next) (consistent : Consistent timing exchange) :
    Consistent timing next := by
  have ⟨patient, _, suffix, unanswered, _, _⟩ := consistent
  cases becomes with
  | unmoved => exact consistent
  | written created =>
    have whole := unanswered (.inl (by simp [stage, created]))
    exact ⟨patient, by simp [deadline, stage], suffix, fun _ => whole, by simp [stage], by simp [stage]⟩
  | acknowledged => exact advanceConsistent patient suffix now
  | again sent left =>
    have whole := unanswered (.inr (by simp [stage, sent]))
    exact ⟨left, by simp [deadline, stage], suffix, fun _ => whole, by simp [stage], by simp [stage]⟩
  | replied =>
    have rest : exchange.expected.tail <:+ Reply.plan exchange.request := (List.tail_suffix _).trans suffix
    exact @advanceConsistent _ { exchange with expected := exchange.expected.tail } patient rest now
  | failed _ left =>
    exact ⟨patient, by simp [deadline, stage], left.trans suffix, by simp [stage], by simp [stage], by simp [stage]⟩

theorem failureShown (exchange : Exchange) : exchange.failure.isSome ↔ exchange.stage = .failed := by
  unfold failure Exchange.stage
  cases exchange.phase <;> simp

theorem advanceKeeps (exchange : Exchange) (timing : Timing) (now : Time) :
    (exchange.advance timing now).request = exchange.request ∧
      (exchange.advance timing now).expected = exchange.expected := by
  rcases exchange.advanced timing now with ⟨_, same⟩ | ⟨_, same⟩ <;> simp [same]

theorem Becomes.request (becomes : Becomes timing now exchange op next) : next.request = exchange.request := by
  cases becomes with
  | acknowledged => exact (exchange.advanceKeeps timing now).1
  | replied => exact (advanceKeeps _ timing now).1
  | _ => rfl

theorem Becomes.stays (becomes : Becomes timing now exchange op next) (ended : exchange.isTerminal = true) :
    next = exchange := by
  cases becomes with
  | unmoved => rfl
  | written created => simp [isTerminal, created] at ended
  | acknowledged sent | again sent => simp [isTerminal, sent] at ended
  | replied isNext => simp [nextReplyGoes isNext] at ended
  | failed goes => simp [goes] at ended

theorem runConsistent (consistent : Consistent timing exchange) (history : List (Time × Op)) :
    Consistent timing (exchange.run timing history) := by
  induction history generalizing exchange with
  | nil => exact consistent
  | cons call rest ih => exact ih ((stepBecomes timing exchange call.1 call.2).consistent consistent)

theorem runRequest (timing : Timing) (exchange : Exchange) (history : List (Time × Op)) :
    (exchange.run timing history).request = exchange.request := by
  induction history generalizing exchange with
  | nil => rfl
  | cons call rest ih => exact (ih _).trans (stepBecomes timing exchange call.1 call.2).request

theorem runOver (ended : exchange.isTerminal = true) (timing : Timing) (history : List (Time × Op)) :
    exchange.run timing history = exchange := by
  induction history with
  | nil => rfl
  | cons call rest ih =>
    have still := (stepBecomes timing exchange call.1 call.2).stays ended
    simpa only [run, List.foldl_cons, still] using ih

theorem onReplyTakes (exchange : Exchange) (message : Message) (timing : Timing) (now : Time) :
    (exchange.onReply message timing now).expected = exchange.expected ∨
      ∃ reply, exchange.expected = reply :: (exchange.onReply message timing now).expected ∧ reply.admits message := by
  by_cases isNext : exchange.isNextReply message
  · have taken : (exchange.onReply message timing now).expected = exchange.expected.tail := by
      rcases repliedNext isNext timing now with ⟨why, _, same⟩ | ⟨_, same⟩
      · rw [same]
      · rw [same]
        exact (advanceKeeps _ timing now).2
    have admitted : exchange.expected.head?.any (·.admits message) := nextReplyExpected isNext
    cases expected : exchange.expected with
    | nil => simp [expected] at admitted
    | cons reply rest => exact .inr ⟨reply, by simp [taken, expected], by simpa [expected] using admitted⟩
  · exact .inl (by simp [onReply, isNext])

/-- Whatever happens to an exchange, in any order and at any instants: it stays ended once it has ended, and only a
failed one has a failure; it is never transmitted again more often than allowed; it has a deadline just while it waits
for a reply or for its next retransmission. Until its first reply it expects all that its request calls for, then what
is left of that in order, and nothing when it is complete. A message takes at most the first reply that is expected. -/
theorem fieldsConsistent (timing : Timing) (id : Nat) (request : Message) (history : List (Time × Op)) :
    let fields := ({ id, request } : Fields).run timing history
    fields = (({ id, request } : Exchange).run timing history).fields ∧
    (fields.isTerminal → ∀ later, fields.run timing later = fields) ∧
    (fields.failure.isSome ↔ fields.stage = .failed) ∧
    fields.retries ≤ timing.maxRetries ∧
    (fields.deadline.isSome ↔ fields.stage = .awaiting ∨ fields.stage = .created ∧ 1 ≤ fields.retries) ∧
    (fields.stage = .created ∨ fields.stage = .sent → fields.expected = Reply.plan request) ∧
    (fields.stage = .awaiting → fields.expected ≠ [] ∧ fields.expected <:+ Reply.plan request) ∧
    (fields.stage = .completed → fields.expected = []) ∧
    ∀ message now, (fields.onReply message timing now).expected = fields.expected ∨
      ∃ reply, fields.expected = reply :: (fields.onReply message timing now).expected ∧ reply.admits message := by
  have consistent := runConsistent (freshConsistent timing id request) history
  have same := runRequest timing { id, request } history
  have shown : _ = ({ id, request } : Fields).run timing history := runFields timing { id, request } history
  rw [← shown]
  generalize ({ id, request } : Exchange).run timing history = exchange at consistent same
  have plan : Reply.plan request = Reply.plan exchange.request := congrArg Reply.plan same.symm
  rw [plan]
  refine ⟨rfl, fun ended later => ?_, exchange.failureShown, consistent.patient, consistent.scheduled,
    consistent.unanswered, fun awaiting => ⟨consistent.waits awaiting, consistent.suffix⟩, consistent.served,
    fun message now => ?_⟩
  · rw [isTerminalFields] at ended
    rw [← runFields, runOver ended]
  · rw [← onReplyFields]
    exact exchange.onReplyTakes message timing now

end ZWaveHost.Exchange
