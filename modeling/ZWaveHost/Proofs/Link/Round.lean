import ZWaveHost.Proofs.Link.SingleFlight

/-! What one round does to an exchange that nobody answers, by what the exchange waits for. The next deadline of a
link is that of its exchange, so a round always finds something to do. -/
namespace ZWaveHost

def Exchange.roundsLeft (exchange : Exchange) (timing : Timing) : Nat :=
  match exchange.phase with
  | .created _ => 2 * (timing.maxRetries - exchange.retries) + 2
  | .sent => 2 * (timing.maxRetries - exchange.retries) + 1
  | .awaiting _ => 1
  | .completed | .failed _ => 0

namespace Link

theorem roundAt {link : Link} {now} (deadline : link.deadline = some now) :
    link.nextRound = some (now, ((link.expire now).1.transmit now).1,
      (link.expire now).2 ++ ((link.expire now).1.transmit now).2) := by
  simp only [nextRound, deadline, Option.map_some]

theorem roundPath {link after : Link} {now outputs} (sound : link.Sound)
    (round : link.nextRound = some (now, after, outputs)) : Path link outputs after := by
  obtain ⟨_, _, same⟩ := Option.map_eq_some_iff.mp round
  cases same
  have late := stepPath sound now .expire
  exact late.append (transmitPath (late.sound sound) now)

theorem Sound.deadline {link : Link} (sound : link.Sound) {exchange} (active : link.active = some exchange) :
    (exchange.phase = .sent ∧ ∃ late, link.handshake.deadline = some late ∧ link.deadline = some late) ∨
    (exchange.phase ≠ .sent ∧ link.handshake.deadline = none ∧
      ∃ late, exchange.deadline = some late ∧ link.deadline = some late) := by
  by_cases sent : exchange.phase = .sent
  · have awaiting := sound.gates.mpr ⟨exchange, active, sent⟩
    obtain ⟨late, outstanding⟩ := Option.isSome_iff_exists.mp awaiting
    exact .inl ⟨sent, late, outstanding, by simp [Link.deadline, outstanding, active, Exchange.deadline, sent]⟩
  · have settled : link.handshake.deadline = none :=
      sound.settled fun other found => Option.some.inj (active.symm.trans found) ▸ sent
    have waits : ∃ late, exchange.deadline = some late := by
      rcases (sound.rests exchange active).waits with ⟨due, created, _⟩ | unsettled | ⟨late, awaiting, _⟩
      · exact ⟨due, by simp [Exchange.deadline, created]⟩
      · contradiction
      · exact ⟨late, by simp [Exchange.deadline, awaiting]⟩
    obtain ⟨late, waits⟩ := waits
    exact .inr ⟨sent, settled, late, waits, by simp [Link.deadline, settled, active, waits]⟩

theorem Sound.deadlineIdle {link : Link} (sound : link.Sound) (idle : link.active = none) :
    link.deadline = none := by
  have settled : link.handshake.deadline = none := sound.settled (by simp [idle])
  simp [Link.deadline, settled, idle]

theorem concludeFailed (link : Link) (handshake : Handshake) (exchange : Exchange) (why : Failure) :
    { link with handshake, active := some (exchange.fail why) }.conclude =
      ({ link with handshake, active := none },
        [.event (.failed exchange.id exchange.node exchange.request why)]) := by
  simp [conclude, Exchange.fail, Exchange.isTerminal, ending, Exchange.failure, Exchange.node]

theorem sentDeadline {link : Link} {exchange} (sound : link.Sound) (active : link.active = some exchange)
    (sent : exchange.phase = .sent) :
    ∃ now, link.deadline = some now ∧ (link.handshake.expire now).1.deadline = none ∧
      link.expire now = { link with
        handshake := (link.handshake.expire now).1
        active := some (exchange.onUndelivered link.timing now) }.conclude := by
  rcases sound.deadline active with ⟨_, now, outstanding, deadline⟩ | ⟨unsent, _⟩
  · have isLate : link.handshake.isLate now = true := by simp [Handshake.isLate, outstanding]
    obtain ⟨other, found, _, expires⟩ := expireLate sound isLate
    cases Option.some.inj (active.symm.trans found)
    exact ⟨now, deadline, by simp [Handshake.expire, isLate], expires⟩
  · contradiction

theorem transmitIdle {link : Link} (sound : link.Sound) (idle : link.active = none) (now : Time) :
    link.transmit now = link.startNext now := by
  have settled : link.handshake.deadline = none := sound.settled (by simp [idle])
  simp [transmit, Handshake.isAwaiting, settled, idle]

theorem transmitEarly {link : Link} {exchange now} (active : link.active = some exchange)
    (early : exchange.isDue now = false) : link.transmit now = (link, []) := by
  simp [transmit, active, early]

theorem transmitDue {link : Link} {exchange now bytes} (settled : link.handshake.deadline = none)
    (active : link.active = some exchange) (due : exchange.isDue now = true)
    (encoded : exchange.request.encode = .ok bytes) :
    ∃ handshake, link.transmit now =
      ({ link with handshake, active := some { exchange with phase := .sent } }, [.write bytes]) := by
  obtain ⟨_, created, _⟩ := dueCreated due
  refine ⟨(if exchange.retries = 0 then link.handshake else link.handshake.countRetransmission).sent
    link.timing.ackTimeout now, ?_⟩
  simp [transmit, Handshake.isAwaiting, settled, active, due, write?, encoded, sentCreated created]

theorem roundCreated {link : Link} {exchange due bytes} (sound : link.Sound) (active : link.active = some exchange)
    (created : exchange.phase = .created due) (encoded : exchange.request.encode = .ok bytes) :
    ∃ now handshake, link.nextRound =
      some (now, { link with handshake, active := some { exchange with phase := .sent } }, [.write bytes]) := by
  rcases sound.deadline active with ⟨sent, _⟩ | ⟨_, settled, now, waits, deadline⟩
  · simp [created] at sent
  · have isDue : exchange.isDue now = true := by
      simp only [Exchange.deadline, created] at waits
      simp [Exchange.isDue, created, waits]
    have inTime : link.expire now = (link, []) := by
      have same : exchange.expire now = exchange := by simp [Exchange.expire, created]
      rw [expireInTime (by simp [Handshake.isLate, settled]), active, Option.map_some, same, ← active,
        concludeRests sound.rests]
    obtain ⟨handshake, writes⟩ := transmitDue settled active isDue encoded
    refine ⟨now, handshake, ?_⟩
    rw [roundAt deadline, inTime, writes]
    rfl

theorem roundAwaiting {link : Link} {exchange late} (sound : link.Sound) (active : link.active = some exchange)
    (awaiting : exchange.phase = .awaiting late) :
    ∃ now after why later, link.nextRound = some (now, after,
      .event (.failed exchange.id exchange.node exchange.request why) :: later) := by
  rcases sound.deadline active with ⟨sent, _⟩ | ⟨_, settled, now, waits, deadline⟩
  · simp [awaiting] at sent
  · have passed : late = now := by simpa [Exchange.deadline, awaiting] using waits
    have fails := Exchange.lateAwaiting awaiting (Nat.le_of_eq passed)
    have ends : link.expire now = _ := expireInTime (by simp [Handshake.isLate, settled])
    rw [active, Option.map_some, fails] at ends
    rw [roundAt deadline, ends, concludeFailed link link.handshake]
    exact ⟨now, _, _, _, rfl⟩

theorem roundRetries {link : Link} {exchange bytes} (sound : link.Sound) (active : link.active = some exchange)
    (sent : exchange.phase = .sent) (left : exchange.retries < link.timing.maxRetries)
    (encoded : exchange.request.encode = .ok bytes) :
    ∃ now handshake, (∃ due, link.nextRound = some (now, { link with
        handshake
        active := some { exchange with phase := .created (some due), retries := exchange.retries + 1 } }, [])) ∨
      link.nextRound = some (now, { link with
        handshake
        active := some { exchange with phase := .sent, retries := exchange.retries + 1 } }, [.write bytes]) := by
  obtain ⟨now, deadline, settled, expires⟩ := sentDeadline sound active sent
  rcases Exchange.undeliveredSent sent link.timing now with ⟨_, same⟩ | ⟨spent, _⟩
  · rw [same, concludeRests (by simp [Exchange.AtRest])] at expires
    refine ⟨now, ?_⟩
    rw [roundAt deadline, expires]
    generalize now + link.timing.retransmitDelay (exchange.retries + 1) = due
    by_cases passed : due ≤ now
    · obtain ⟨handshake, writes⟩ := @transmitDue { link with
        handshake := (link.handshake.expire now).1
        active := some { exchange with phase := .created (some due), retries := exchange.retries + 1 } }
        _ now bytes settled rfl (by simp [Exchange.isDue, passed]) encoded
      exact ⟨handshake, .inr (by rw [writes]; rfl)⟩
    · have early := @transmitEarly { link with
        handshake := (link.handshake.expire now).1
        active := some { exchange with phase := .created (some due), retries := exchange.retries + 1 } }
        _ now rfl (by simp [Exchange.isDue, passed])
      exact ⟨_, .inl ⟨due, by rw [early]; rfl⟩⟩
  · omega

theorem roundExhausted {link : Link} {exchange} (sound : link.Sound) (active : link.active = some exchange)
    (sent : exchange.phase = .sent) (spent : link.timing.maxRetries ≤ exchange.retries) :
    ∃ now after later, link.nextRound = some (now, after,
      .event (.failed exchange.id exchange.node exchange.request (.link (exchange.retries + 1))) :: later) := by
  obtain ⟨now, deadline, _, expires⟩ := sentDeadline sound active sent
  rcases Exchange.undeliveredSent sent link.timing now with ⟨left, _⟩ | ⟨_, same⟩
  · omega
  · rw [same] at expires
    rw [roundAt deadline, expires, concludeFailed]
    exact ⟨now, _, _, rfl⟩

theorem roundShortens {link : Link} {exchange} (sound : link.Sound) (active : link.active = some exchange) :
    ∃ now after outputs, link.nextRound = some (now, after, outputs) ∧
      ∀ next, after.active = some next → next.id = exchange.id →
        next.roundsLeft link.timing < exchange.roundsLeft link.timing := by
  have underway := sound.underway exchange active
  obtain ⟨bytes, encoded⟩ := underway.encodes
  rcases underway.rests.waits with ⟨due, created, _⟩ | sent | ⟨late, awaiting, _⟩
  · obtain ⟨now, handshake, round⟩ := roundCreated sound active created encoded
    refine ⟨now, _, _, round, fun next found _ => ?_⟩
    cases Option.some.inj found
    simp [Exchange.roundsLeft, created]
  · by_cases left : exchange.retries < link.timing.maxRetries
    · obtain ⟨now, handshake, ⟨due, round⟩ | round⟩ := roundRetries sound active sent left encoded
      · refine ⟨now, _, _, round, fun next found _ => ?_⟩
        cases Option.some.inj found
        simp only [Exchange.roundsLeft, sent]
        omega
      · refine ⟨now, _, _, round, fun next found _ => ?_⟩
        cases Option.some.inj found
        simp only [Exchange.roundsLeft, sent]
        omega
    · obtain ⟨now, after, later, round⟩ := roundExhausted sound active sent (Nat.le_of_not_lt left)
      refine ⟨now, after, _, round, fun next found same => ?_⟩
      exact absurd same ((roundPath sound round).ended sound rfl next found)
  · obtain ⟨now, after, why, later, round⟩ := roundAwaiting sound active awaiting
    refine ⟨now, after, _, round, fun next found same => ?_⟩
    exact absurd same ((roundPath sound round).ended sound rfl next found)

/-- The handshake and the exchange never disagree on what is outstanding, and a link with an exchange never waits
without a deadline: at the next one the exchange ends, or has less rounds to go than before. -/
theorem neverWedged (timing : Timing) (slots : Slots) (history : List (Time × Op)) :
    let link := ((fresh timing slots).run history).1
    (link.handshake.isAwaiting = true ↔ ∃ exchange, link.active = some exchange ∧ exchange.phase = .sent) ∧
    (∀ exchange, link.active = some exchange → exchange.AtRest) ∧
    (link.deadline.isSome ↔ link.active.isSome) ∧
    ∀ exchange, link.active = some exchange →
      ∃ now after outputs, link.nextRound = some (now, after, outputs) ∧
        ∀ next, after.active = some next → next.id = exchange.id →
          next.roundsLeft link.timing < exchange.roundsLeft link.timing := by
  have sound := runSound (freshSound timing slots) history
  refine ⟨sound.gates, sound.rests, ?_, fun exchange active => roundShortens sound active⟩
  cases active : ((fresh timing slots).run history).1.active with
  | none => simp [sound.deadlineIdle active]
  | some exchange =>
    rcases sound.deadline active with ⟨_, late, _, deadline⟩ | ⟨_, _, late, _, deadline⟩
    · simp [deadline]
    · simp [deadline]

end Link

end ZWaveHost
