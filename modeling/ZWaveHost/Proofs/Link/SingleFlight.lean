import ZWaveHost.Proofs.Link.Turn

/-! One exchange at a time, read off the outputs alone. Exchanges are numbered from one, each ends exactly once
before the next starts, and no request is on the line outside its own exchange. -/
namespace ZWaveHost

namespace Transcript

structure Standing where
  started : Nat
  request : Option Message
  deriving DecidableEq, Repr

def Ends (id : Nat) (request : Message) (event : LinkEvent) : Prop :=
  event = .completed id request.target request ∨ ∃ why, event = .failed id request.target request why

inductive Orderly : Standing → List Output → Standing → Prop
  | done (standing) : Orderly standing [] standing
  | answer {standing rest last byte} (lone : byte = Wire.ack ∨ byte = Wire.nak)
      (later : Orderly standing rest last) : Orderly standing (.write [byte] :: rest) last
  | received {standing rest last message context} (later : Orderly standing rest last) :
      Orderly standing (.event (.received message context) :: rest) last
  | started {count request rest last} (later : Orderly ⟨count + 1, some request⟩ rest last) :
      Orderly ⟨count, none⟩ (.event (.started (count + 1) request.target) :: rest) last
  | written {count request bytes rest last} (encoded : request.encode = .ok bytes)
      (later : Orderly ⟨count, some request⟩ rest last) :
      Orderly ⟨count, some request⟩ (.write bytes :: rest) last
  | ended {count request event rest last} (ends : Ends count request event)
      (later : Orderly ⟨count, none⟩ rest last) : Orderly ⟨count, some request⟩ (.event event :: rest) last

def Standing.flight (standing : Standing) : Option Nat := standing.request.map fun _ => standing.started

theorem Ends.ends {id request event} (ends : Ends id request event) : event.ends? = some id := by
  rcases ends with rfl | ⟨why, rfl⟩ <;> rfl

theorem flightEnded {count request event} (ends : Ends count request event) (flight : Option Nat)
    (rest : List Output) : flightAfter flight (.event event :: rest) = flightAfter none rest := by
  rcases ends with rfl | ⟨why, rfl⟩ <;> rfl

theorem requestsEnded {count request event} (ends : Ends count request event) (id : Nat) (flight : Option Nat)
    (rest : List Output) : requestsOf id flight (.event event :: rest) = requestsOf id none rest := by
  rcases ends with rfl | ⟨why, rfl⟩ <;> rfl

theorem requestsAnswer {byte : UInt8} (lone : byte = Wire.ack ∨ byte = Wire.nak) (id : Nat)
    (flight : Option Nat) (rest : List Output) :
    requestsOf id flight (.write [byte] :: rest) = requestsOf id flight rest := by
  rcases lone with rfl | rfl <;> simp [requestsOf]

theorem Orderly.append {first mid last : Standing} {before later} (head : Orderly first before mid)
    (tail : Orderly mid later last) : Orderly first (before ++ later) last := by
  induction head with
  | done => exact tail
  | answer lone _ ih => exact .answer lone (ih tail)
  | received _ ih => exact .received (ih tail)
  | started _ ih => exact .started (ih tail)
  | written encoded _ ih => exact .written encoded (ih tail)
  | ended ends _ ih => exact .ended ends (ih tail)

theorem orderlyAside {outputs : List Output} (aside : ∀ output ∈ outputs, output.IsAside) (standing : Standing) :
    Orderly standing outputs standing := by
  induction outputs with
  | nil => exact .done standing
  | cons output rest ih =>
    obtain ⟨first, others⟩ := List.forall_mem_cons.mp aside
    unfold Output.IsAside at first
    split at first
    · rcases first with rfl | rfl
      · exact .answer (.inl rfl) (ih others)
      · exact .answer (.inr rfl) (ih others)
    · exact .received (ih others)
    · contradiction

theorem Orderly.flight {first last : Standing} {outputs} (orderly : Orderly first outputs last) :
    flightAfter first.flight outputs = last.flight := by
  induction orderly with
  | done => rfl
  | answer _ _ ih => exact ih
  | received _ ih => exact ih
  | started _ ih => exact ih
  | written _ _ ih => exact ih
  | ended ends _ ih => rw [flightEnded ends]; exact ih

theorem Orderly.grows {first last : Standing} {outputs} (orderly : Orderly first outputs last) :
    first.started ≤ last.started := by
  induction orderly with
  | done => exact Nat.le_refl _
  | answer _ _ ih => exact ih
  | received _ ih => exact ih
  | started _ ih => exact Nat.le_of_succ_le ih
  | written _ _ ih => exact ih
  | ended _ _ ih => exact ih

theorem Orderly.origin {first last : Standing} {outputs} (orderly : Orderly first outputs last) {id : Nat}
    (flight : last.flight = some id) : first.flight = some id ∨ first.started < id := by
  induction orderly with
  | done => exact .inl flight
  | answer _ _ ih => exact ih flight
  | received _ ih => exact ih flight
  | started _ ih =>
    rcases ih flight with same | older
    · exact .inr (Option.some.inj same ▸ Nat.lt_succ_self _)
    · exact .inr (Nat.lt_of_succ_lt older)
  | written _ _ ih => exact ih flight
  | ended _ _ ih => exact .inr ((ih flight).resolve_left nofun)

theorem Orderly.closed {first last : Standing} {outputs} (orderly : Orderly first outputs last) {id : Nat}
    (begun : id ≤ first.started) (closed : first.flight ≠ some id) :
    requestsOf id first.flight outputs = [] ∧ endingsOf id outputs = [] := by
  induction orderly with
  | done => exact ⟨rfl, rfl⟩
  | answer lone _ ih => exact ⟨by rw [requestsAnswer lone]; exact (ih begun closed).1, (ih begun closed).2⟩
  | received _ ih => exact ih begun closed
  | @started count _ _ _ _ ih =>
    refine ih (Nat.le_succ_of_le begun) fun same => ?_
    cases Option.some.inj same
    exact Nat.not_succ_le_self count begun
  | written encoded _ ih =>
    rw [requestWritten encoded, if_neg closed]
    exact ih begun closed
  | @ended count _ _ _ _ ends _ ih =>
    have other : ¬ count = id := fun same => closed (congrArg some same)
    obtain ⟨requests, endings⟩ := ih begun nofun
    exact ⟨by rw [requestsEnded ends]; exact requests, by simpa [endingsOf, ends.ends, other] using endings⟩

theorem Orderly.unborn {first last : Standing} {outputs} (orderly : Orderly first outputs last) {id : Nat}
    (unborn : last.started < id) : requestsOf id first.flight outputs = [] := by
  induction orderly with
  | done => rfl
  | answer lone _ ih => rw [requestsAnswer lone]; exact ih unborn
  | received _ ih => exact ih unborn
  | started _ ih => exact ih unborn
  | @written count request _ _ _ encoded rest ih =>
    have other : ¬ (⟨count, some request⟩ : Standing).flight = some id := fun same =>
      Nat.lt_irrefl id (Nat.lt_of_le_of_lt (Option.some.inj same ▸ rest.grows) unborn)
    rw [requestWritten encoded, if_neg other]
    exact ih unborn
  | ended ends _ ih => rw [requestsEnded ends]; exact ih unborn

theorem Orderly.unended {first last : Standing} {outputs} (orderly : Orderly first outputs last) {id : Nat}
    (flight : last.flight = some id) : endingsOf id outputs = [] := by
  induction orderly with
  | done => rfl
  | answer _ _ ih => exact ih flight
  | received _ ih => exact ih flight
  | started _ ih => exact ih flight
  | written _ _ ih => exact ih flight
  | @ended count _ _ _ _ ends rest ih =>
    have older : count < id := (rest.origin flight).resolve_left nofun
    simpa [endingsOf, ends.ends, Nat.ne_of_lt older] using ih flight

theorem Orderly.split {first last : Standing} {before later} (orderly : Orderly first (before ++ later) last) :
    ∃ mid, Orderly first before mid ∧ Orderly mid later last := by
  induction before generalizing first with
  | nil => exact ⟨first, .done first, orderly⟩
  | cons output rest ih =>
    cases orderly with
    | answer lone orderly =>
      obtain ⟨mid, head, tail⟩ := ih orderly
      exact ⟨mid, .answer lone head, tail⟩
    | received orderly =>
      obtain ⟨mid, head, tail⟩ := ih orderly
      exact ⟨mid, .received head, tail⟩
    | started orderly =>
      obtain ⟨mid, head, tail⟩ := ih orderly
      exact ⟨mid, .started head, tail⟩
    | written encoded orderly =>
      obtain ⟨mid, head, tail⟩ := ih orderly
      exact ⟨mid, .written encoded head, tail⟩
    | ended ends orderly =>
      obtain ⟨mid, head, tail⟩ := ih orderly
      exact ⟨mid, .ended ends head, tail⟩

theorem Orderly.behindStart {first last : Standing} {before id node later}
    (orderly : Orderly first (before ++ .event (.started id node) :: later) last) :
    ∃ mid request, Orderly first before mid ∧ mid.started < id ∧ node = request.target ∧
      Orderly ⟨id, some request⟩ later last := by
  obtain ⟨mid, head, tail⟩ := orderly.split
  cases tail with
  | @started _ request _ _ rest => exact ⟨_, request, head, Nat.lt_succ_self _, rfl, rest⟩
  | ended ends => rcases ends with same | ⟨_, same⟩ <;> cases same

theorem Orderly.unreached {first last : Standing} {outputs} (orderly : Orderly first outputs last) {id : Nat}
    (later : last.started < id) : endingsOf id outputs = [] := by
  induction orderly with
  | done => rfl
  | answer _ _ ih => exact ih later
  | received _ ih => exact ih later
  | started _ ih => exact ih later
  | written _ _ ih => exact ih later
  | @ended count _ _ _ _ ends rest ih =>
    have other : count ≠ id := Nat.ne_of_lt (Nat.lt_of_le_of_lt rest.grows later)
    simpa [endingsOf, ends.ends, other] using ih later

theorem Orderly.lands {count : Nat} {request : Message} {outputs last}
    (orderly : Orderly ⟨count, some request⟩ outputs last) (landed : last.flight ≠ some count) :
    ∃ ending, endingsOf count outputs = [ending] ∧ Ends count request ending := by
  generalize same : (⟨count, some request⟩ : Standing) = first at orderly
  induction orderly with
  | done => simp [← same, Standing.flight] at landed
  | answer _ _ ih => exact ih landed same
  | received _ ih => exact ih landed same
  | started => cases same
  | written _ _ ih => exact ih landed same
  | @ended _ _ event _ _ ends rest =>
    cases same
    have closed := (rest.closed (Nat.le_refl count) (by simp [Standing.flight])).2
    exact ⟨event, by simpa [endingsOf, ends.ends] using closed, ends⟩

theorem Orderly.endsOnce {first last : Standing} {before event later} {id : Nat}
    (orderly : Orderly first (before ++ .event event :: later) last) (ends : event.ends? = some id) :
    endingsOf id before = [] ∧ endingsOf id later = [] ∧ requestsOf id none later = [] ∧
      last.flight ≠ some id := by
  obtain ⟨mid, head, tail⟩ := orderly.split
  cases tail with
  | received => contradiction
  | started => contradiction
  | @ended count _ _ _ _ own rest =>
    cases Option.some.inj (own.ends.symm.trans ends)
    obtain ⟨requests, endings⟩ := rest.closed (Nat.le_refl _) nofun
    refine ⟨head.unended rfl, endings, requests, fun flight => ?_⟩
    rcases rest.origin flight with none | older
    · contradiction
    · exact Nat.lt_irrefl _ older

theorem Orderly.oneRequest {first last : Standing} {outputs} (orderly : Orderly first outputs last) (id : Nat) :
    ∃ request, (first.flight = some id → first.request = some request) ∧
      (last.flight = some id → last.request = some request) ∧
      ∀ bytes ∈ requestsOf id first.flight outputs, request.encode = .ok bytes := by
  induction orderly with
  | done standing =>
    cases same : standing.request with
    | none => exact ⟨.versionRequest, by simp [Standing.flight, same], by simp [Standing.flight, same], nofun⟩
    | some request => exact ⟨request, fun _ => rfl, fun _ => rfl, nofun⟩
  | answer lone _ ih => simpa only [requestsAnswer lone] using ih
  | received _ ih => exact ih
  | started _ ih =>
    obtain ⟨request, _, open_, encoded⟩ := ih
    exact ⟨request, nofun, open_, encoded⟩
  | @written count request bytes rest last encoded _ ih =>
    obtain ⟨other, same, open_, others⟩ := ih
    refine ⟨other, same, open_, ?_⟩
    rw [requestWritten encoded]
    split
    · rename_i flight
      cases Option.some.inj (same flight)
      exact List.forall_mem_cons.mpr ⟨encoded, others⟩
    · exact others
  | @ended count request event rest last ends later ih =>
    obtain ⟨other, _, open_, others⟩ := ih
    rw [requestsEnded ends]
    -- Nothing is written for an exchange behind its end, so the request it ended with will do.
    by_cases same : count = id
    · have closed := (later.closed (Nat.le_of_eq same.symm) nofun).1
      refine ⟨request, fun _ => rfl, fun flight => ?_, closed ▸ List.forall_mem_nil _⟩
      have older := (later.origin flight).resolve_left nofun
      exact absurd same (Nat.ne_of_lt older)
    · exact ⟨other, fun flight => absurd (Option.some.inj flight) same, open_, others⟩

theorem Orderly.sameBytes {first last : Standing} {outputs} (orderly : Orderly first outputs last) (id : Nat) :
    ∃ bytes, ∀ written ∈ requestsOf id first.flight outputs, written = bytes := by
  obtain ⟨request, _, _, all⟩ := orderly.oneRequest id
  cases encoded : request.encode with
  | ok bytes =>
    refine ⟨bytes, fun written member => ?_⟩
    cases encoded.symm.trans (all written member)
    rfl
  | error fault =>
    refine ⟨[], fun written member => ?_⟩
    cases encoded.symm.trans (all written member)

end Transcript

namespace Link
open Transcript

def standing (link : Link) : Standing := ⟨link.nextId - 1, link.active.map Exchange.request⟩

theorem Sound.flight {link : Link} (sound : link.Sound) {exchange} (active : link.active = some exchange) :
    link.standing.flight = some exchange.id := by
  have numbered := (sound.underway exchange active).numbered
  simp only [standing, Standing.flight, active, Option.map_some, Option.some.injEq]
  omega

theorem endingEnds (exchange : Exchange) : Ends exchange.id exchange.request (ending exchange) := by
  unfold ending
  split
  · exact .inl rfl
  · rename_i why _
    exact .inr ⟨why, rfl⟩

theorem Move.orderly {link after : Link} {now outputs} (move : Move now link outputs after) (sound : link.Sound) :
    Orderly link.standing outputs after.standing := by
  cases move with
  | aside _ aside => exact orderlyAside aside _
  | start idle begins encoded =>
    have begun := begun begins
    obtain ⟨count, next⟩ := Nat.exists_eq_add_one.mpr sound.positive
    simp only [standing, idle, Option.map_none, Option.map_some, sentCreated begun.phase, begun.nextId, begun.id,
      next, Nat.add_sub_cancel]
    exact .started (.written encoded (.done _))
  | refuse idle begins =>
    have begun := begun begins
    obtain ⟨count, next⟩ := Nat.exists_eq_add_one.mpr sound.positive
    simp only [standing, idle, Option.map_none, begun.nextId, begun.id, next, Nat.add_sub_cancel]
    exact .started (.ended (.inr ⟨_, rfl⟩) (.done _))
  | rewrite active created _ encoded =>
    simp only [standing, active, Option.map_some, sentCreated created]
    exact .written encoded (.done _)
  | goOn active changes =>
    simp only [standing, active, Option.map_some, changes.changed.request]
    exact orderlyAside changes.heardAside _
  | @finish exchange next _ _ active changes =>
    have numbered : next.id = link.nextId - 1 := by
      rw [changes.changed.id, ← (sound.underway _ active).numbered, Nat.add_sub_cancel]
    simp only [standing, active, Option.map_some, Option.map_none, ← numbered, ← changes.changed.request]
    exact (orderlyAside changes.heardAside _).append (.ended (endingEnds next) (.done _))

theorem Path.orderly {link last : Link} {outputs} (path : Path link outputs last) (sound : link.Sound) :
    Orderly link.standing outputs last.standing := by
  induction path with
  | stay => exact .done _
  | move first _ ih => exact (first.orderly sound).append (ih (first.sound sound))

theorem Path.ended {link last : Link} {event later} (path : Path link (.event event :: later) last)
    (sound : link.Sound) {id} (ends : event.ends? = some id) : ∀ next, last.active = some next → next.id ≠ id := by
  intro next active same
  have gone := (@Orderly.endsOnce _ _ [] _ _ _ (path.orderly sound) ends).2.2.2
  exact gone (same ▸ (path.sound sound).flight active)

/-- Whatever is called and heard, at whatever instants: the exchanges of a link follow each other. The last one is
open exactly while it is the active one. -/
theorem exchangesFollowEachOther (timing : Timing) (slots : Slots) (history : List (Time × Op)) :
    let (link, outputs) := (fresh timing slots).run history
    ∃ count, Orderly ⟨0, none⟩ outputs.flatten ⟨count, link.active.map Exchange.request⟩ ∧
      ∀ exchange, link.active = some exchange → exchange.id = count := by
  have sound := freshSound timing slots
  refine ⟨_, (runPath sound history).orderly sound, fun exchange active => ?_⟩
  have numbered := ((runSound sound history).underway exchange active).numbered
  omega

end Link

end ZWaveHost
