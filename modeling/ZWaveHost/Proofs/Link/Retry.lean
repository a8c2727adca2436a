import ZWaveHost.Proofs.Link.Attempts
import ZWaveHost.Proofs.Link.Round

/-! An exchange that nobody answers. Rounds alone write its request as often as is allowed and then give it up,
whatever is queued behind it in the meantime. -/
namespace ZWaveHost.Link
open Transcript

def Op.IsQueueing : Op → Prop
  | .enqueue _ | .accept _ | .wake _ | .sleep _ => True
  | _ => False

def rounds (link : Link) (calls : Nat → List (Time × Op)) : Nat → Link × List Output
  | 0 => (link, [])
  | count + 1 =>
    let (queued, heard) := link.run (calls 0)
    match queued.nextRound with
    | none => (queued, heard.flatten)
    | some (_, after, outputs) =>
      let (last, later) := after.rounds (fun index => calls (index + 1)) count
      (last, heard.flatten ++ outputs ++ later)

theorem roundsNext {link after : Link} {calls : Nat → List (Time × Op)} {now outputs}
    (round : (link.run (calls 0)).1.nextRound = some (now, after, outputs)) (count : Nat) :
    link.rounds calls (count + 1) =
      ((after.rounds (fun index => calls (index + 1)) count).1,
        (link.run (calls 0)).2.flatten ++ outputs ++ (after.rounds (fun index => calls (index + 1)) count).2) := by
  simp only [rounds, round]

theorem roundsPath {link : Link} (sound : link.Sound) (calls : Nat → List (Time × Op)) (count : Nat) :
    Path link (link.rounds calls count).2 (link.rounds calls count).1 := by
  induction count generalizing link calls with
  | zero => exact .stay link
  | succ count ih =>
    have called := runPath sound (calls 0)
    cases round : (link.run (calls 0)).1.nextRound with
    | none =>
      simp only [rounds, round]
      exact called
    | some found =>
      obtain ⟨now, after, outputs⟩ := found
      have path := called.append (roundPath (called.sound sound) round)
      rw [roundsNext round]
      exact path.append (ih (path.sound sound) _)

theorem queueingRun (link : Link) {calls : List (Time × Op)} (queueing : ∀ call ∈ calls, call.2.IsQueueing) :
    ∃ outbox, (link.run calls).1 = { link with outbox } ∧ (link.run calls).2.flatten = [] := by
  induction calls generalizing link with
  | nil => exact ⟨link.outbox, rfl, rfl⟩
  | cons call rest ih =>
    obtain ⟨first, others⟩ := List.forall_mem_cons.mp queueing
    have step : ∃ outbox, link.step call.1 call.2 = ({ link with outbox }, []) := by
      obtain ⟨now, op⟩ := call
      cases op with
      | enqueue outbound =>
        simp only [step, enqueue]
        cases link.outbox.enqueue outbound with
        | error fault => exact ⟨link.outbox, rfl⟩
        | ok outbox => exact ⟨outbox, rfl⟩
      | accept outbound => exact ⟨_, rfl⟩
      | wake node => exact ⟨_, rfl⟩
      | sleep node => exact ⟨_, rfl⟩
      | inbound item => contradiction
      | expire => contradiction
      | transmit => contradiction
      | abort => contradiction
    obtain ⟨outbox, step⟩ := step
    obtain ⟨last, state, silent⟩ := ih { link with outbox } others
    refine ⟨last, ?_, ?_⟩
    · simp only [run, step, state]
    · simpa only [run, step, List.flatten_cons, List.nil_append] using silent

theorem roundsStep {link : Link} (sound : link.Sound) {calls : Nat → List (Time × Op)}
    (queueing : ∀ call ∈ calls 0, call.2.IsQueueing) :
    ∃ outbox, { link with outbox }.Sound ∧
      ∀ {now after outputs}, { link with outbox }.nextRound = some (now, after, outputs) →
        after.Sound ∧ ∀ count, (link.rounds calls (count + 1)).2 =
          outputs ++ (after.rounds (fun index => calls (index + 1)) count).2 := by
  obtain ⟨outbox, state, silent⟩ := queueingRun link queueing
  have called := runSound sound (calls 0)
  rw [state] at called
  refine ⟨outbox, called, fun {now after outputs} round => ⟨(roundPath called round).sound called, fun count => ?_⟩⟩
  rw [← state] at round
  rw [roundsNext round, silent]
  rfl

theorem unanswered {link : Link} (sound : link.Sound) {calls : Nat → List (Time × Op)} {exchange bytes}
    (active : link.active = some exchange) (sent : exchange.phase = .sent)
    (encoded : exchange.request.encode = .ok bytes)
    (queueing : ∀ index, ∀ call ∈ calls index, call.2.IsQueueing) {left : Nat}
    (budget : exchange.retries + left = link.timing.maxRetries) :
    ∃ count, count ≤ 2 * left + 1 ∧ ∃ later, (link.rounds calls count).2 =
      List.replicate left (.write bytes) ++
        .event (.failed exchange.id exchange.node exchange.request (.link (link.timing.maxRetries + 1))) :: later := by
  induction left generalizing link calls exchange with
  | zero =>
    obtain ⟨outbox, queued, next⟩ := roundsStep sound (queueing 0)
    obtain ⟨now, after, later, round⟩ := roundExhausted queued active sent (Nat.le_of_eq budget.symm)
    obtain ⟨_, rounds⟩ := next round
    refine ⟨1, Nat.le_refl 1, later, ?_⟩
    rw [rounds, ← budget]
    exact List.append_nil _
  | succ left ih =>
    obtain ⟨outbox, queued, next⟩ := roundsStep sound (queueing 0)
    have others (shift index) : ∀ call ∈ calls (index + shift), call.2.IsQueueing := queueing _
    obtain ⟨now, handshake, ⟨due, round⟩ | round⟩ :=
      roundRetries queued active sent (by simp only; omega) encoded
    · -- The retry waits for its time, so the request is written a round later.
      obtain ⟨first, rounds⟩ := next round
      obtain ⟨outbox, queued, next⟩ := @roundsStep _ first (fun index => calls (index + 1)) (others 1 0)
      obtain ⟨now, handshake, round⟩ := roundCreated queued rfl rfl encoded
      obtain ⟨second, more⟩ := next round
      obtain ⟨count, bound, later, written⟩ := ih second rfl rfl encoded (others 2) (by simp only; omega)
      refine ⟨count + 2, by omega, later, ?_⟩
      rw [rounds, more, written]
      rfl
    · obtain ⟨first, rounds⟩ := next round
      obtain ⟨count, bound, later, written⟩ := ih first rfl rfl encoded (others 1) (by simp only; omega)
      refine ⟨count + 1, by omega, later, ?_⟩
      rw [rounds, written]
      rfl

theorem givenUp {link : Link} (sound : link.Sound) {calls : Nat → List (Time × Op)} {exchange bytes}
    (active : link.active = some exchange) (open_ : ∀ late, exchange.phase ≠ .awaiting late)
    (encoded : exchange.request.encode = .ok bytes)
    (queueing : ∀ index, ∀ call ∈ calls index, call.2.IsQueueing) :
    ∃ count, count ≤ 2 * link.timing.maxRetries + 1 ∧ ∃ later, (link.rounds calls count).2 =
      List.replicate (link.timing.maxRetries + 1 - exchange.attempts) (.write bytes) ++
        .event (.failed exchange.id exchange.node exchange.request (.link (link.timing.maxRetries + 1))) :: later := by
  have underway := sound.underway exchange active
  obtain ⟨left, budget⟩ := Nat.exists_eq_add_of_le underway.patient
  rcases underway.rests.waits with ⟨due, created, retried⟩ | sent | ⟨late, awaiting, _⟩
  · have more : link.timing.maxRetries + 1 - exchange.attempts = left + 1 := by
      simp only [Exchange.attempts, created]
      omega
    obtain ⟨outbox, queued, next⟩ := roundsStep sound (queueing 0)
    obtain ⟨now, handshake, round⟩ := roundCreated queued active created encoded
    obtain ⟨first, rounds⟩ := next round
    obtain ⟨count, bound, later, written⟩ :=
      unanswered first rfl rfl encoded (fun index => queueing (index + 1)) budget.symm
    refine ⟨count + 1, by omega, later, ?_⟩
    rw [rounds, written, more]
    rfl
  · have more : link.timing.maxRetries + 1 - exchange.attempts = left := by
      simp only [Exchange.attempts, sent]
      omega
    obtain ⟨count, bound, later, written⟩ := unanswered sound active sent encoded queueing budget.symm
    exact ⟨count, by omega, later, more ▸ written⟩
  · exact absurd awaiting (open_ late)

/-- Whatever happens, what is written for an exchange is one request, and not more often than the retries allow. With
nobody to answer it, it is written exactly that often, and then the exchange fails. -/
theorem retriesBounded (timing : Timing) (slots : Slots) (history : List (Time × Op)) :
    let (link, outputs) := (fresh timing slots).run history
    (∀ id, ∃ count bytes, count ≤ timing.maxRetries + 1 ∧
      writesOf id outputs.flatten = List.replicate count bytes) ∧
    ∀ exchange calls, link.active = some exchange → (∀ late, exchange.phase ≠ .awaiting late) →
      (∀ index, ∀ call ∈ calls index, call.2.IsQueueing) →
      ∃ count bytes later, count ≤ 2 * timing.maxRetries + 1 ∧ exchange.request.encode = .ok bytes ∧
        let failed := .failed exchange.id exchange.node exchange.request (.link (timing.maxRetries + 1))
        let unheard := (link.rounds calls count).2
        unheard = List.replicate (timing.maxRetries + 1 - exchange.attempts) (.write bytes) ++
          .event failed :: later ∧
        writesOf exchange.id (outputs.flatten ++ unheard) = List.replicate (timing.maxRetries + 1) bytes ∧
        endingsOf exchange.id (outputs.flatten ++ unheard) = [failed] := by
  have sound := runSound (freshSound timing slots) history
  have told := runTold timing slots history
  have same := runTiming timing slots history
  refine ⟨fun id => ?_, fun exchange calls active open_ queueing => ?_⟩
  · obtain ⟨bytes, all⟩ := told.orderly.sameBytes id
    have bounded := told.bounded id
    rw [same] at bounded
    exact ⟨_, bytes, bounded, List.eq_replicate_iff.mpr ⟨rfl, all⟩⟩
  · obtain ⟨bytes, encoded⟩ := (sound.underway exchange active).encodes
    obtain ⟨count, bound, later, unheard⟩ := givenUp sound active open_ encoded queueing
    have spent := (sound.underway exchange active).attempts
    rw [same] at bound unheard spent
    have orderly := told.orderly.append ((roundsPath sound calls count).orderly sound)
    rw [unheard, ← List.append_assoc] at orderly
    obtain ⟨before, after, quiet, _⟩ := orderly.endsOnce rfl
    rw [endingsAppend] at before
    refine ⟨count, bytes, later, bound, encoded, unheard, ?_, ?_⟩
    · rw [told.append, told.repeated sound active encoded, sound.flight active, unheard, requestsRepeated encoded]
      simp only [requestsOf, Output.followed, quiet, List.append_nil, List.replicate_append_replicate]
      congr 1
      omega
    · rw [endingsAppend, unheard, endingsRepeated, (List.append_eq_nil_iff.mp before).1, List.nil_append]
      simpa [endingsOf, LinkEvent.ends?] using after

theorem versionGivenUp :
    let (link, outputs) := (fresh {} {}).run [(0, .enqueue { message := .versionRequest }), (0, .transmit)]
    ∃ count bytes, count ≤ 7 ∧
      let unheard := (link.rounds (fun _ => []) count).2
      writesOf 1 (outputs.flatten ++ unheard) = List.replicate 4 bytes ∧
      endingsOf 1 (outputs.flatten ++ unheard) = [.failed 1 none .versionRequest (.link 4)] := by
  have active : ((fresh {} {}).run [(0, .enqueue { message := .versionRequest }), (0, .transmit)]).1.active =
      some { id := 1, request := .versionRequest, phase := .sent } := by decide +kernel
  obtain ⟨count, bytes, _, bound, _, _, writes, endings⟩ :=
    (retriesBounded {} {} _).2 _ (fun _ => []) active nofun nofun
  exact ⟨count, bytes, bound, writes, endings⟩

end ZWaveHost.Link
