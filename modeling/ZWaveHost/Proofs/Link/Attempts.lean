import ZWaveHost.Proofs.Link.SingleFlight

/-! How often a request is on the line. The retries of an exchange in flight count its transmissions so far, and
what was transmitted for an exchange stays within one transmission and the retries allowed. -/
namespace ZWaveHost

def Exchange.attempts (exchange : Exchange) : Nat :=
  match exchange.phase with
  | .created _ => exchange.retries
  | _ => exchange.retries + 1

theorem Exchange.Changed.attempts {timing : Timing} {exchange next : Exchange}
    (changed : Changed timing exchange next) (goes : next.isTerminal = false) : next.attempts = exchange.attempts := by
  have written := changed.written goes
  by_cases created : ∃ due, next.phase = .created due
  · obtain ⟨due, created⟩ := created
    obtain ⟨sent, _, retried⟩ := changed.again due created
    simp [Exchange.attempts, created, sent, retried]
  · have same := changed.retries (by simpa using created)
    unfold Exchange.attempts
    grind

theorem Link.Underway.attempts {link : Link} {exchange} (underway : link.Underway exchange) :
    exchange.attempts ≤ link.timing.maxRetries + 1 := by
  have patient := underway.patient
  unfold Exchange.attempts
  split <;> omega

namespace Link
open Transcript

theorem Move.writes {link after : Link} {now outputs} (move : Move now link outputs after) (sound : link.Sound)
    (id : Nat) :
    (requestsOf id link.standing.flight outputs = [] ∧
      ∀ next, after.active = some next → next.id = id →
        ∃ exchange, link.active = some exchange ∧ exchange.id = id ∧ next.attempts = exchange.attempts) ∨
    ∃ bytes next, requestsOf id link.standing.flight outputs = [bytes] ∧ after.active = some next ∧ next.id = id ∧
      ((link.nextId = id ∧ next.attempts = 1) ∨
        ∃ exchange due, link.active = some exchange ∧ exchange.id = id ∧ exchange.phase = .created due ∧
          next.attempts = exchange.attempts + 1) := by
  cases move with
  | aside _ aside =>
    exact .inl ⟨requestsAside aside id _, fun next active same => ⟨next, active, same, rfl⟩⟩
  | @start _ exchange bytes idle begins encoded =>
    have begun := begun begins
    have writes : requestsOf id link.standing.flight [.event (.started exchange.id exchange.node), .write bytes] =
        if some exchange.id = some id then [bytes] else [] := requestsOnce encoded id (some exchange.id)
    rw [sentCreated begun.phase]
    by_cases own : exchange.id = id
    · subst own
      rw [if_pos rfl] at writes
      exact .inr ⟨bytes, _, writes, rfl, rfl, .inl ⟨begun.id.symm, by simp [Exchange.attempts, begun.retries]⟩⟩
    · rw [if_neg (by simpa using own)] at writes
      refine .inl ⟨writes, fun next active same => ?_⟩
      cases Option.some.inj active
      exact absurd same own
  | refuse => exact .inl ⟨rfl, by simp⟩
  | @rewrite exchange due _ bytes active created _ encoded =>
    have writes := requestsOnce encoded id link.standing.flight
    rw [sound.flight active] at writes ⊢
    rw [sentCreated created]
    by_cases own : exchange.id = id
    · subst own
      rw [if_pos rfl] at writes
      exact .inr ⟨bytes, _, writes, rfl, rfl,
        .inr ⟨exchange, due, active, rfl, created, by simp [Exchange.attempts, created]⟩⟩
    · rw [if_neg (by simpa using own)] at writes
      refine .inl ⟨writes, fun next active same => ?_⟩
      cases Option.some.inj active
      exact absurd same own
  | goOn active changes _ goes =>
    refine .inl ⟨requestsAside changes.heardAside id _, fun next found same => ?_⟩
    cases Option.some.inj found
    exact ⟨_, active, changes.changed.id ▸ same, changes.changed.attempts goes⟩
  | finish active changes =>
    refine .inl ⟨?_, by simp⟩
    rw [requestsAppend, requestsAside changes.heardAside, requestsEnded (endingEnds _)]
    rfl

structure Told (before : List Output) (link : Link) : Prop where
  orderly : Orderly ⟨0, none⟩ before link.standing
  attempts : ∀ exchange, link.active = some exchange → (writesOf exchange.id before).length = exchange.attempts
  bounded : ∀ id, (writesOf id before).length ≤ link.timing.maxRetries + 1

theorem Told.append {before outputs : List Output} {link} (told : Told before link) (id : Nat) :
    writesOf id (before ++ outputs) = writesOf id before ++ requestsOf id link.standing.flight outputs := by
  have flight : flightAfter none before = link.standing.flight := told.orderly.flight
  rw [writesOf, requestsAppend, flight]
  rfl

theorem Told.unborn {before : List Output} {link} (told : Told before link) (sound : link.Sound) {id : Nat}
    (unborn : link.nextId ≤ id) : writesOf id before = [] :=
  told.orderly.unborn (Nat.lt_of_lt_of_le (Nat.sub_one_lt_of_lt sound.positive) unborn)

theorem Told.repeated {before : List Output} {link} (told : Told before link) (sound : link.Sound) {exchange bytes}
    (active : link.active = some exchange) (encoded : exchange.request.encode = .ok bytes) :
    writesOf exchange.id before = List.replicate exchange.attempts bytes := by
  obtain ⟨request, _, same, all⟩ := told.orderly.oneRequest exchange.id
  have own : exchange.request = request := by simpa [standing, active] using same (sound.flight active)
  refine List.eq_replicate_iff.mpr ⟨told.attempts exchange active, fun written member => ?_⟩
  cases encoded.symm.trans (own ▸ all written member)
  rfl

theorem Move.timing {link after : Link} {now outputs} (move : Move now link outputs after) :
    after.timing = link.timing := by
  cases move with
  | aside => rfl
  | start _ begins => exact (begun begins).timing
  | refuse _ begins => exact (begun begins).timing
  | rewrite => rfl
  | goOn => rfl
  | finish => rfl

theorem Path.timing {link last : Link} {outputs} (path : Path link outputs last) : last.timing = link.timing := by
  induction path with
  | stay => rfl
  | move first _ ih => exact ih.trans first.timing

theorem runTiming (timing : Timing) (slots : Slots) (history : List (Time × Op)) :
    ((fresh timing slots).run history).1.timing = timing :=
  (runPath (freshSound timing slots) history).timing

theorem Told.move {before outputs : List Output} {link after : Link} {now} (told : Told before link)
    (sound : link.Sound) (move : Move now link outputs after) : Told (before ++ outputs) after := by
  have attempts (next) (active : after.active = some next) :
      (writesOf next.id (before ++ outputs)).length = next.attempts := by
    rw [told.append, List.length_append]
    -- The first request of an exchange finds nothing written under its number, and a retry one attempt less.
    rcases move.writes sound next.id with ⟨silent, kept⟩ | ⟨bytes, other, once, found, _, started | again⟩
    · obtain ⟨exchange, found, same, kept⟩ := kept next active rfl
      rw [silent, kept, ← same, told.attempts exchange found]
      rfl
    · cases Option.some.inj (active.symm.trans found)
      rw [told.unborn sound (Nat.le_of_eq started.1), once, started.2]
      rfl
    · cases Option.some.inj (active.symm.trans found)
      obtain ⟨exchange, _, active, same, _, more⟩ := again
      rw [once, more, ← same, told.attempts exchange active]
      rfl
  refine ⟨told.orderly.append (move.orderly sound), attempts, fun id => ?_⟩
  rcases move.writes sound id with ⟨silent, _⟩ | ⟨bytes, next, _, active, rfl, _⟩
  · rw [told.append, silent, List.append_nil, move.timing]
    exact told.bounded id
  · rw [attempts next active]
    exact ((move.sound sound).underway next active).attempts

theorem runTold (timing : Timing) (slots : Slots) (history : List (Time × Op)) :
    Told ((fresh timing slots).run history).2.flatten ((fresh timing slots).run history).1 := by
  have start : Told [] (fresh timing slots) := ⟨.done _, by simp [fresh], fun _ => Nat.zero_le _⟩
  exact (runPath (freshSound timing slots) history).keeps
    (fun sound told move => told.move sound move) (freshSound timing slots) start

end Link

end ZWaveHost
