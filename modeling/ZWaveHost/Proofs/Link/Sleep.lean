import ZWaveHost.Proofs.Link.Release

/-! Sleeping until the next deadline against looking at the clock all the time. Before the deadline a look changes
nothing and puts nothing out, at the deadline and later it always does something. -/
namespace ZWaveHost.Link

def looks (instants : List Time) : List (Time × Op) :=
  instants.flatMap fun now => [(now, .expire), (now, .transmit)]

def Early (link : Link) (now : Time) : Prop := ∀ deadline, link.deadline = some deadline → now < deadline

theorem expireUntouched {link : Link} (sound : link.Sound) {now} (inTime : link.handshake.isLate now = false)
    (waits : ∀ exchange, link.active = some exchange → exchange.expire now = exchange) :
    link.expire now = (link, []) := by
  have same : link.active.map (Exchange.expire · now) = link.active := by
    cases active : link.active with
    | none => rfl
    | some exchange => rw [Option.map_some, waits exchange active]
  rw [expireInTime inTime, same]
  exact concludeRests sound.rests

theorem expireBefore {link : Link} (sound : link.Sound) {now} (early : link.Early now) :
    link.expire now = (link, []) := by
  refine expireUntouched sound ?_ fun exchange active => ?_
  · cases outstanding : link.handshake.deadline with
    | none => simp [Handshake.isLate, outstanding]
    | some late =>
      obtain ⟨exchange, active, sent⟩ := sound.gates.mp (by simp [Handshake.isAwaiting, outstanding])
      rcases sound.deadline active with ⟨_, other, same, deadline⟩ | ⟨unsent, _⟩
      · have before := early other deadline
        cases outstanding.symm.trans same
        simpa [Handshake.isLate, outstanding] using before
      · contradiction
  · rcases exchange.expired now with same | ⟨late, awaiting, passed⟩
    · exact same
    · rcases sound.deadline active with ⟨sent, _⟩ | ⟨_, _, other, waits, deadline⟩
      · simp [awaiting] at sent
      · have before : now < other := early other deadline
        have same : late = other := by simpa [Exchange.deadline, awaiting] using waits
        exact absurd (same ▸ passed) (Nat.not_le_of_lt before)

theorem transmitBefore {link : Link} (sound : link.Sound) {now} (early : link.Early now)
    (drained : link.active.isSome ∨ link.outbox.ready = []) : link.transmit now = (link, []) := by
  cases active : link.active with
  | none =>
    have settled : link.handshake.deadline = none := sound.settled (by simp [active])
    have empty : link.outbox.ready = [] := by simpa [active] using drained
    have nothing : link.begin? = none := by simp [begin?, Outbox.next?, empty]
    have rests : link.startNext now = (link, []) := by
      unfold startNext
      split
      · rfl
      · simp_all
    simp [transmit, Handshake.isAwaiting, settled, active, rests]
  | some exchange =>
    refine transmitEarly active ?_
    rcases (sound.rests exchange active).waits with ⟨due, created, _⟩ | sent | ⟨late, awaiting, _⟩
    · rcases sound.deadline active with ⟨sent, _⟩ | ⟨_, _, other, waits, deadline⟩
      · simp [created] at sent
      · have before := early other deadline
        have same : due = other := by simpa [Exchange.deadline, created] using waits
        simp [Exchange.isDue, created, same, before]
    · simp [Exchange.isDue, sent]
    · simp [Exchange.isDue, awaiting]

theorem looksBefore {link : Link} (sound : link.Sound) (drained : link.active.isSome ∨ link.outbox.ready = [])
    {instants : List Time} (early : ∀ now ∈ instants, link.Early now) :
    link.run (looks instants) = (link, List.replicate (looks instants).length []) := by
  induction instants with
  | nil => rfl
  | cons now rest ih =>
    obtain ⟨first, others⟩ := List.forall_mem_cons.mp early
    have quiet : link.run [(now, .expire), (now, .transmit)] = (link, [[], []]) := by
      simp only [run, step, expireBefore sound first, transmitBefore sound first drained]
    have split : looks (now :: rest) = [(now, .expire), (now, .transmit)] ++ looks rest := rfl
    rw [split, runAppend, quiet, ih others]
    rfl

theorem sentWakes {link : Link} {exchange now} (sound : link.Sound) (active : link.active = some exchange)
    (sent : exchange.phase = .sent) (isLate : link.handshake.isLate now = true)
    (expires : (link.expire now).2 = []) (transmits : ((link.expire now).1.transmit now).2 = []) :
    ((link.expire now).1.transmit now).1 ≠ link := by
  obtain ⟨other, found, _, expired⟩ := expireLate sound isLate
  cases Option.some.inj (active.symm.trans found)
  rcases Exchange.undeliveredSent sent link.timing now with ⟨_, retried⟩ | ⟨_, failed⟩
  · obtain ⟨bytes, encoded⟩ := (sound.underway exchange active).encodes
    rw [retried, concludeRests (by simp [Exchange.AtRest])] at expired
    rw [expired] at transmits ⊢
    generalize now + link.timing.retransmitDelay (exchange.retries + 1) = at_ at transmits ⊢
    intro same
    by_cases passed : at_ ≤ now
    · obtain ⟨_, writes⟩ := @transmitDue { link with
        handshake := (link.handshake.expire now).1
        active := some { exchange with phase := .created (some at_), retries := exchange.retries + 1 } }
        _ now bytes (by simp [Handshake.expire, isLate]) rfl (by simp [Exchange.isDue, passed]) encoded
      simp [writes] at transmits
    · have early := @transmitEarly { link with
        handshake := (link.handshake.expire now).1
        active := some { exchange with phase := .created (some at_), retries := exchange.retries + 1 } }
        _ now rfl (by simp [Exchange.isDue, passed])
      rw [early] at same
      have phase := congrArg (fun after => after.active.map Exchange.phase) same
      simp [active, sent] at phase
  · rw [failed, concludeFailed] at expired
    simp [expired] at expires

theorem createdWakes {link : Link} {exchange due now} (sound : link.Sound) (active : link.active = some exchange)
    (created : exchange.phase = .created (some due)) (settled : link.handshake.deadline = none) (passed : due ≤ now) :
    ((link.expire now).1.transmit now).2 ≠ [] := by
  have still : ∀ other, link.active = some other → other.expire now = other := by
    intro other found
    cases Option.some.inj (active.symm.trans found)
    simp [Exchange.expire, created]
  have isDue : exchange.isDue now = true := by simpa [Exchange.isDue, created] using passed
  obtain ⟨bytes, encoded⟩ := (sound.underway exchange active).encodes
  obtain ⟨handshake, writes⟩ := transmitDue settled active isDue encoded
  rw [expireUntouched sound (by simp [Handshake.isLate, settled]) still, writes]
  exact List.cons_ne_nil _ _

theorem awaitingWakes {link : Link} {exchange late now} (active : link.active = some exchange)
    (awaiting : exchange.phase = .awaiting late) (settled : link.handshake.deadline = none) (passed : late ≤ now) :
    (link.expire now).2 ≠ [] := by
  have fails := Exchange.lateAwaiting awaiting passed
  have inTime : link.handshake.isLate now = false := by simp [Handshake.isLate, settled]
  have expired := expireInTime inTime
  rw [active, Option.map_some, fails, concludeFailed link link.handshake] at expired
  rw [expired]
  exact List.cons_ne_nil _ _

theorem lookWakes {link : Link} (sound : link.Sound) {now} (quiet : link.run (looks [now]) = (link, [[], []])) :
    link.Early now := by
  have calls : link.run (looks [now]) = (((link.expire now).1.transmit now).1,
      [(link.expire now).2, ((link.expire now).1.transmit now).2]) := rfl
  rw [calls] at quiet
  simp only [Prod.mk.injEq, List.cons.injEq, and_true] at quiet
  obtain ⟨same, expires, transmits⟩ := quiet
  refine fun deadline waits => Nat.lt_of_not_le fun passed => ?_
  cases active : link.active with
  | none => simp [sound.deadlineIdle active] at waits
  | some exchange =>
    rcases sound.deadline active with ⟨sent, late, outstanding, at_⟩ | ⟨unsent, settled, late, phase, at_⟩
    · cases waits.symm.trans at_
      have isLate : link.handshake.isLate now = true := by simpa [Handshake.isLate, outstanding] using passed
      exact sentWakes sound active sent isLate expires transmits same
    · cases waits.symm.trans at_
      rcases (sound.rests exchange active).waits with ⟨due, created, _⟩ | sent | ⟨late, awaiting, _⟩
      · have same : due = deadline := by simpa [Exchange.deadline, created] using phase
        exact createdWakes sound active created settled (same ▸ passed) transmits
      · contradiction
      · have same : late = deadline := by simpa [Exchange.deadline, awaiting] using phase
        exact awaitingWakes active awaiting settled (same ▸ passed) expires

/- Behind a transmission the link is busy, or nothing is ready to be sent. From then on a look at the clock has no
effect exactly if no deadline has passed, and any number of such looks are as good as sleeping. -/
theorem sleepingIsWatching (timing : Timing) (slots : Slots) (history : List (Time × Op)) (start : Time) :
    let link := (((fresh timing slots).run history).1.transmit start).1
    (link.active.isSome ∨ link.outbox.ready = []) ∧
    (∀ now, link.run (looks [now]) = (link, [[], []]) ↔ ∀ deadline, link.deadline = some deadline → now < deadline) ∧
    ∀ instants later, (∀ now ∈ instants, ∀ deadline, link.deadline = some deadline → now < deadline) →
      (link.run (looks instants ++ later)).1 = (link.run later).1 ∧
      (link.run (looks instants ++ later)).2.flatten = (link.run later).2.flatten := by
  have before := runSound (freshSound timing slots) history
  have sound := (transmitPath before start).sound before
  have drained := (transmits before start).drains
  refine ⟨drained, fun now => ⟨lookWakes sound, fun early => ?_⟩, fun instants later early => ?_⟩
  · exact looksBefore sound drained (List.forall_mem_singleton.mpr early)
  · have quiet := looksBefore sound drained early
    have silent (count : Nat) : (List.replicate count ([] : List Output)).flatten = [] := by simp
    rw [runAppend, quiet, List.flatten_append, silent]
    exact ⟨rfl, rfl⟩

theorem retransmissionAwaited :
    let history := [(0, .enqueue { message := .versionRequest }), (0, .transmit), (1600, .expire)]
    let link := (((fresh {} {}).run history).1.transmit 1600).1
    link.deadline = some 1700 ∧ link.run (looks [1699]) = (link, [[], []]) ∧
      link.run (looks [1700]) ≠ (link, [[], []]) := by
  intro history link
  obtain ⟨_, exact_, _⟩ := sleepingIsWatching {} {} history 1600
  have deadline : link.deadline = some 1700 := by decide +kernel +zetaReduce
  refine ⟨deadline, (exact_ 1699).mpr ?_, fun quiet => ?_⟩
  · intro late waits
    cases deadline.symm.trans waits
    decide
  · exact absurd ((exact_ 1700).mp quiet 1700 deadline) (by decide)

end ZWaveHost.Link
