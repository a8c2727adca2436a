import ZWaveHost.Proofs.Link.Transcript

/-! The elementary moves of a link, and the paths made of them. A move says when it can happen, what it puts out and
which link it leaves; what holds of every run is proved move by move. Of the outbox and the counters a move only says
that they may change. -/
namespace ZWaveHost

namespace Exchange

def AtRest (exchange : Exchange) : Prop :=
  match exchange.phase with
  | .created due => due.isSome ∧ 0 < exchange.retries
  | .sent => True
  | .awaiting _ => exchange.expected ≠ []
  | .completed | .failed _ => False

theorem AtRest.waits {exchange : Exchange} (rests : exchange.AtRest) :
    (∃ due, exchange.phase = .created (some due) ∧ 0 < exchange.retries) ∨ exchange.phase = .sent ∨
      ∃ late, exchange.phase = .awaiting late ∧ exchange.expected ≠ [] := by
  unfold AtRest at rests
  split at rests
  · rename_i due created
    obtain ⟨time, rfl⟩ := Option.isSome_iff_exists.mp rests.1
    exact .inl ⟨time, created, rests.2⟩
  · rename_i sent
    exact .inr (.inl sent)
  · rename_i late awaiting
    exact .inr (.inr ⟨late, awaiting, rests⟩)
  · contradiction
  · contradiction

theorem AtRest.goesOn {exchange : Exchange} (rests : exchange.AtRest) : exchange.isTerminal = false := by
  rcases rests.waits with ⟨_, phase, _⟩ | phase | ⟨_, phase, _⟩ <;> simp [isTerminal, phase]

inductive Changes (timing : Timing) (now : Time) (exchange : Exchange) : List Output → Exchange → Prop
  | acknowledged (sent : exchange.phase = .sent) : Changes timing now exchange [] (exchange.onAck timing now)
  | undelivered (sent : exchange.phase = .sent) :
      Changes timing now exchange [] (exchange.onUndelivered timing now)
  | replied {message} (next : exchange.isNextReply message) :
      Changes timing now exchange [.event (.received message (some (Link.contextOf exchange)))]
        (exchange.onReply message timing now)
  | late {deadline} (awaiting : exchange.phase = .awaiting deadline) (passed : deadline ≤ now) :
      Changes timing now exchange [] (exchange.expire now)
  | cancelled : Changes timing now exchange [] (exchange.fail .cancelled)

theorem advanced (exchange : Exchange) (timing : Timing) (now : Time) :
    (exchange.expected = [] ∧ exchange.advance timing now = { exchange with phase := .completed }) ∨
    (exchange.expected ≠ [] ∧
      exchange.advance timing now = { exchange with phase := .awaiting (now + timing.responseTimeout) }) := by
  cases expected : exchange.expected with
  | nil => exact .inl ⟨rfl, by simp [advance, expected]⟩
  | cons reply rest => exact .inr ⟨by simp, by simp [advance, expected]⟩

theorem undeliveredSent {exchange : Exchange} (sent : exchange.phase = .sent) (timing : Timing) (now : Time) :
    (exchange.retries < timing.maxRetries ∧ exchange.onUndelivered timing now =
      { exchange with
        phase := .created (some (now + timing.retransmitDelay (exchange.retries + 1)))
        retries := exchange.retries + 1 }) ∨
    (timing.maxRetries ≤ exchange.retries ∧
      exchange.onUndelivered timing now = exchange.fail (.link (exchange.retries + 1))) := by
  by_cases left : exchange.retries < timing.maxRetries
  · exact .inl ⟨left, by simp [onUndelivered, sent, left]⟩
  · exact .inr ⟨by omega, by simp [onUndelivered, sent, left]⟩

theorem repliedNext {exchange : Exchange} {message} (next : exchange.isNextReply message) (timing : Timing)
    (now : Time) :
    (∃ why, reportedFailure message = some why ∧ exchange.onReply message timing now =
      { exchange with phase := .failed why, expected := exchange.expected.tail }) ∨
    (reportedFailure message = none ∧ exchange.onReply message timing now =
      { exchange with expected := exchange.expected.tail }.advance timing now) := by
  cases reported : reportedFailure message with
  | none => exact .inr ⟨rfl, by simp [onReply, next, reported]⟩
  | some why => exact .inl ⟨why, rfl, by simp [onReply, next, reported, fail]⟩

theorem lateAwaiting {exchange : Exchange} {deadline now} (awaiting : exchange.phase = .awaiting deadline)
    (passed : deadline ≤ now) :
    exchange.expire now = exchange.fail (.timeout (!exchange.expected.head?.any Reply.isResponse)) := by
  simp [expire, awaiting, passed]

theorem expired (exchange : Exchange) (now : Time) :
    exchange.expire now = exchange ∨ ∃ deadline, exchange.phase = .awaiting deadline ∧ deadline ≤ now := by
  unfold expire
  split
  · rename_i deadline awaiting
    by_cases passed : deadline ≤ now
    · exact .inr ⟨deadline, awaiting, passed⟩
    · simp [passed]
  · exact .inl rfl

structure Changed (timing : Timing) (exchange next : Exchange) : Prop where
  id : next.id = exchange.id
  request : next.request = exchange.request
  rests : next.isTerminal = false → next.AtRest ∧ next.phase ≠ .sent
  written : next.isTerminal = false → ∀ due, exchange.phase ≠ .created due
  again : ∀ due, next.phase = .created due →
    exchange.phase = .sent ∧ exchange.retries < timing.maxRetries ∧ next.retries = exchange.retries + 1
  retries : (∀ due, next.phase ≠ .created due) → next.retries = exchange.retries

theorem advanceChanged {exchange : Exchange} (written : ∀ due, exchange.phase ≠ .created due) (timing : Timing)
    (now : Time) : Changed timing exchange (exchange.advance timing now) := by
  rcases exchange.advanced timing now with ⟨_, same⟩ | ⟨more, same⟩
  · rw [same]; exact ⟨rfl, rfl, by simp [isTerminal], fun _ => written, by simp, fun _ => rfl⟩
  · rw [same]; exact ⟨rfl, rfl, fun _ => ⟨more, by simp⟩, fun _ => written, by simp, fun _ => rfl⟩

theorem failChanged (timing : Timing) (exchange : Exchange) (why : Failure) :
    Changed timing exchange (exchange.fail why) :=
  ⟨rfl, rfl, by simp [fail, isTerminal], by simp [fail, isTerminal], by simp [fail], fun _ => rfl⟩

theorem nextReplyWritten {exchange : Exchange} {message} (next : exchange.isNextReply message) :
    ∀ due, exchange.phase ≠ .created due := by
  intro due created
  simp [isNextReply, created] at next

theorem Changes.changed {timing now} {exchange next : Exchange} {heard}
    (changes : Changes timing now exchange heard next) : Changed timing exchange next := by
  cases changes with
  | acknowledged sent =>
    have same : exchange.onAck timing now = exchange.advance timing now := by simp [onAck, sent]
    exact same ▸ advanceChanged (by simp [sent]) timing now
  | undelivered sent =>
    rcases undeliveredSent sent timing now with ⟨left, same⟩ | ⟨_, same⟩
    · rw [same]
      exact ⟨rfl, rfl, fun _ => ⟨⟨rfl, Nat.succ_pos _⟩, by simp⟩, by simp [sent], fun _ _ => ⟨sent, left, rfl⟩,
        by simp⟩
    · rw [same]; exact failChanged timing exchange _
  | replied next =>
    have written := nextReplyWritten next
    rcases repliedNext next timing now with ⟨why, _, same⟩ | ⟨_, same⟩
    · rw [same]; exact ⟨rfl, rfl, by simp [isTerminal], fun _ => written, by simp, fun _ => rfl⟩
    · have changed := @advanceChanged { exchange with expected := exchange.expected.tail } written timing now
      rw [same]
      exact ⟨changed.id, changed.request, changed.rests, changed.written, changed.again, changed.retries⟩
  | late awaiting passed => exact lateAwaiting awaiting passed ▸ failChanged timing exchange _
  | cancelled => exact failChanged timing exchange _

theorem Changed.patient {timing : Timing} {exchange next : Exchange} (changed : Changed timing exchange next)
    (patient : exchange.retries ≤ timing.maxRetries) : next.retries ≤ timing.maxRetries := by
  by_cases created : ∃ due, next.phase = .created due
  · obtain ⟨due, created⟩ := created
    obtain ⟨_, left, same⟩ := changed.again due created
    omega
  · exact changed.retries (by simpa using created) ▸ patient

theorem Changes.heardAside {timing now} {exchange next : Exchange} {heard}
    (changes : Changes timing now exchange heard next) : ∀ output ∈ heard, output.IsAside := by
  cases changes <;> simp [Output.IsAside]

end Exchange

namespace Link

inductive Move (now : Time) : Link → List Output → Link → Prop
  | aside (link : Link) {outputs handshake outbox} (same : handshake.deadline = link.handshake.deadline)
      (aside : ∀ output ∈ outputs, output.IsAside) :
      Move now link outputs { link with handshake, outbox }
  | start {link after exchange bytes} (idle : link.active = none) (begun : link.begin? = some (after, exchange))
      (encoded : exchange.request.encode = .ok bytes) :
      Move now link [.event (.started exchange.id exchange.node), .write bytes]
        { after with
          handshake := after.handshake.sent link.timing.ackTimeout now
          active := some exchange.onSent }
  | refuse {link after exchange fault} (idle : link.active = none)
      (begun : link.begin? = some (after, exchange)) (unencodable : exchange.request.encode = .error fault) :
      Move now link [.event (.started exchange.id exchange.node),
        .event (.failed exchange.id exchange.node exchange.request .rejected)] { after with active := none }
  | rewrite {link exchange due handshake bytes} (active : link.active = some exchange)
      (created : exchange.phase = .created due) (outstanding : handshake.deadline.isSome)
      (encoded : exchange.request.encode = .ok bytes) :
      Move now link [.write bytes] { link with handshake, active := some exchange.onSent }
  | goOn {link exchange next heard handshake} (active : link.active = some exchange)
      (changes : exchange.Changes link.timing now heard next) (settled : handshake.deadline = none)
      (goes : next.isTerminal = false) :
      Move now link heard { link with handshake, active := some next }
  | finish {link exchange next heard handshake} (active : link.active = some exchange)
      (changes : exchange.Changes link.timing now heard next) (settled : handshake.deadline = none)
      (ends : next.isTerminal = true) :
      Move now link (heard ++ [.event (ending next)]) { link with handshake, active := none }

inductive Path : Link → List Output → Link → Prop
  | stay (link) : Path link [] link
  | move {link outputs mid later last} {now : Time} (first : Move now link outputs mid)
      (rest : Path mid later last) : Path link (outputs ++ later) last

theorem Path.one {link after : Link} {outputs} (now : Time) (move : Move now link outputs after) :
    Path link outputs after := by
  simpa using Path.move move (.stay after)

theorem Path.append {link mid last : Link} {before later} (first : Path link before mid)
    (second : Path mid later last) : Path link (before ++ later) last := by
  induction first with
  | stay => exact second
  | move head _ ih => simpa only [List.append_assoc] using Path.move head (ih second)

/- What is known of an exchange in flight. That its request could be encoded when it was started is why no
retransmission is ever refused. -/
structure Underway (link : Link) (exchange : Exchange) : Prop where
  rests : exchange.AtRest
  encodes : ∃ bytes, exchange.request.encode = .ok bytes
  numbered : exchange.id + 1 = link.nextId
  patient : exchange.retries ≤ link.timing.maxRetries

/- What every call finds and leaves: the handshake and the exchange agree on whether an acknowledgement is
outstanding. -/
structure Sound (link : Link) : Prop where
  gates : link.handshake.isAwaiting = true ↔ ∃ exchange, link.active = some exchange ∧ exchange.phase = .sent
  underway : ∀ exchange, link.active = some exchange → link.Underway exchange
  positive : 0 < link.nextId

theorem Sound.idle {link : Link} (idle : link.active = none) (settled : link.handshake.deadline = none)
    (positive : 0 < link.nextId) : link.Sound :=
  ⟨by simp [idle, settled, Handshake.isAwaiting], by simp [idle], positive⟩

theorem Sound.busy {link : Link} {exchange} (active : link.active = some exchange)
    (gates : link.handshake.isAwaiting = true ↔ exchange.phase = .sent) (underway : link.Underway exchange) :
    link.Sound := by
  refine ⟨by simpa [active] using gates, ?_, underway.numbered ▸ Nat.succ_pos _⟩
  intro other found
  exact Option.some.inj (active.symm.trans found) ▸ underway

theorem Sound.settled {link : Link} (sound : link.Sound)
    (unsent : ∀ exchange, link.active = some exchange → exchange.phase ≠ .sent) :
    link.handshake.deadline = none := by
  cases deadline : link.handshake.deadline with
  | none => rfl
  | some late =>
    obtain ⟨exchange, active, sent⟩ := sound.gates.mp (by simp [Handshake.isAwaiting, deadline])
    exact absurd sent (unsent exchange active)

theorem Sound.rests {link : Link} (sound : link.Sound) :
    ∀ exchange, link.active = some exchange → exchange.AtRest :=
  fun exchange active => (sound.underway exchange active).rests

theorem freshSound (timing : Timing) (slots : Slots) : (fresh timing slots).Sound :=
  .idle rfl rfl Nat.one_pos

structure Begun (link after : Link) (exchange : Exchange) : Prop where
  id : exchange.id = link.nextId
  phase : exchange.phase = .created none
  retries : exchange.retries = 0
  expected : exchange.expected = Reply.plan exchange.request
  nextId : after.nextId = link.nextId + 1
  timing : after.timing = link.timing
  handshake : after.handshake = link.handshake

theorem begun {link after : Link} {exchange} (begun : link.begin? = some (after, exchange)) :
    Begun link after exchange := by
  unfold begin? at begun
  split at begun
  · contradiction
  · cases Option.some.inj begun
    exact ⟨rfl, rfl, rfl, rfl, rfl, rfl, rfl⟩

theorem sentCreated {exchange : Exchange} {due} (created : exchange.phase = .created due) :
    exchange.onSent = { exchange with phase := .sent } := by
  simp [Exchange.onSent, created]

theorem Move.sound {link after : Link} {now outputs} (move : Move now link outputs after) (sound : link.Sound) :
    after.Sound := by
  cases move with
  | aside same =>
    refine ⟨?_, fun exchange active => ?_, sound.positive⟩
    · simpa only [Handshake.isAwaiting, same] using sound.gates
    · have underway := sound.underway exchange active
      exact ⟨underway.rests, underway.encodes, underway.numbered, underway.patient⟩
  | start idle begins encoded =>
    have begun := begun begins
    rw [sentCreated begun.phase]
    refine .busy rfl (by simp [Handshake.isAwaiting, Handshake.sent]) ⟨trivial, ⟨_, encoded⟩, ?_, ?_⟩
    · simp [begun.id, begun.nextId]
    · simp [begun.retries]
  | refuse idle begins =>
    have begun := begun begins
    have settled : link.handshake.deadline = none := sound.settled (by simp [idle])
    exact .idle rfl (begun.handshake ▸ settled) (begun.nextId ▸ Nat.succ_pos _)
  | rewrite active created outstanding encoded =>
    have underway := sound.underway _ active
    rw [sentCreated created]
    exact .busy rfl (by simpa [Handshake.isAwaiting] using outstanding)
      ⟨trivial, ⟨_, encoded⟩, underway.numbered, underway.patient⟩
  | goOn active changes settled goes =>
    have underway := sound.underway _ active
    have changed := changes.changed
    obtain ⟨rests, unsent⟩ := changed.rests goes
    refine .busy rfl (by simp [settled, unsent, Handshake.isAwaiting])
      ⟨rests, changed.request ▸ underway.encodes, changed.id ▸ underway.numbered, ?_⟩
    exact changed.patient underway.patient
  | finish _ _ settled => exact .idle rfl settled sound.positive

theorem Path.sound {link last : Link} {outputs} (path : Path link outputs last) (sound : link.Sound) :
    last.Sound := by
  induction path with
  | stay => exact sound
  | move first _ ih => exact ih (first.sound sound)

theorem Path.keeps {P : List Output → Link → Prop}
    (step : ∀ {before link outputs after} {now : Time}, link.Sound → P before link →
      Move now link outputs after → P (before ++ outputs) after)
    {link last : Link} {before outputs} (path : Path link outputs last) (sound : link.Sound)
    (holds : P before link) : P (before ++ outputs) last := by
  induction path generalizing before with
  | stay => simpa using holds
  | move first _ ih => simpa using ih (first.sound sound) (step sound holds first)

theorem concludeRests {link : Link} (rests : ∀ exchange, link.active = some exchange → exchange.AtRest) :
    link.conclude = (link, []) := by
  unfold conclude
  split
  · rename_i exchange active
    simp [(rests exchange active).goesOn]
  · rfl

theorem expireLate {link : Link} (sound : link.Sound) {now} (isLate : link.handshake.isLate now = true) :
    ∃ exchange, link.active = some exchange ∧ exchange.phase = .sent ∧
      link.expire now = { link with
        handshake := (link.handshake.expire now).1
        active := some (exchange.onUndelivered link.timing now) }.conclude := by
  have awaiting : link.handshake.isAwaiting = true := by
    cases deadline : link.handshake.deadline <;> simp_all [Handshake.isLate, Handshake.isAwaiting]
  obtain ⟨exchange, active, sent⟩ := sound.gates.mp awaiting
  -- The second look at the clock finds no reply to wait for.
  have still : (exchange.onUndelivered link.timing now).expire now = exchange.onUndelivered link.timing now := by
    rcases Exchange.undeliveredSent sent link.timing now with ⟨_, same⟩ | ⟨_, same⟩ <;>
      simp [same, Exchange.expire, Exchange.fail]
  exact ⟨exchange, active, sent, by simp [expire, Handshake.expire, isLate, active, still]⟩

theorem expireInTime {link : Link} {now} (inTime : link.handshake.isLate now = false) :
    link.expire now = { link with active := link.active.map (Exchange.expire · now) }.conclude := by
  simp [expire, Handshake.expire, inTime]

theorem unwritten {link : Link} {exchange now} (unwritten : link.write? exchange now = none) :
    ∃ fault, exchange.request.encode = .error fault := by
  cases encoded : exchange.request.encode with
  | error fault => exact ⟨fault, rfl⟩
  | ok bytes => simp [write?, encoded] at unwritten

theorem written {link after : Link} {exchange now outputs}
    (written : link.write? exchange now = some (after, outputs)) :
    ∃ bytes, exchange.request.encode = .ok bytes ∧ outputs = [.write bytes] ∧
      after = { link with
        handshake := (if exchange.retries = 0 then link.handshake else link.handshake.countRetransmission).sent
          link.timing.ackTimeout now
        active := some exchange.onSent } := by
  cases encoded : exchange.request.encode with
  | error fault => simp [write?, encoded] at written
  | ok bytes =>
    simp only [write?, encoded, Option.some.injEq, Prod.mk.injEq] at written
    exact ⟨bytes, rfl, written.2.symm, written.1.symm⟩

theorem rejectedEnding {exchange : Exchange} {due} (created : exchange.phase = .created due) :
    ending (exchange.stop .rejected) = .failed exchange.id exchange.node exchange.request .rejected := by
  simp [Exchange.stop, Exchange.isTerminal, created, ending, Exchange.fail, Exchange.failure, Exchange.node]

theorem dueCreated {exchange : Exchange} {now} (due : exchange.isDue now = true) :
    ∃ at_, exchange.phase = .created at_ ∧ ∀ time, at_ = some time → time ≤ now := by
  unfold Exchange.isDue at due
  split at due
  · rename_i at_ created
    exact ⟨at_, created, by simpa [Option.all_eq_true] using due⟩
  · contradiction

theorem startNextPath {link : Link} (sound : link.Sound) (idle : link.active = none) (now : Time) :
    Path link (link.startNext now).2 (link.startNext now).1 := by
  fun_induction startNext link now with
  | case1 link nothing => exact .stay link
  | case2 link after exchange begins started sent outputs writes =>
    obtain ⟨bytes, encoded, rfl, rfl⟩ := written writes
    have begun := begun begins
    simpa [started, begun.retries, begun.timing] using Path.one now (.start idle begins encoded)
  | case3 link after exchange begins started refused last later recursion ih =>
    obtain ⟨fault, unencodable⟩ := unwritten refused
    have move : Move now link _ _ := .refuse idle begins unencodable
    have rest := ih (move.sound sound) rfl
    rw [recursion] at rest
    simpa [started, rejectedEnding (begun begins).phase] using Path.move move rest

end Link

end ZWaveHost
