import ZWaveHost.Proofs.Station.Balance

/-! What is left of a station that has ended. Its outbox is empty and nothing takes from its mailbox, so every later
call fails. A slot stays taken for each request that was in the mailbox when it was closed. -/
namespace ZWaveHost

theorem Station.endedCall {station : Station} {message} (ended : station.isRunning = false)
    (valid : message.validate = .ok ()) (listening : Bool) :
    station.call (.send message listening) =
      .error (if station.link.outbox.slots.limit ≤ station.pending then .queueFull station.pending
        else .connectionClosed) := by
  cases full : station.reserve with
  | error fault =>
    obtain ⟨none, rfl⟩ := unreserved full
    simp [call, valid, full, none, bind, Except.bind]
  | ok taken =>
    obtain ⟨room, rfl⟩ := reserved full
    have closed (order : Order) : (station.withSlots { station.link.outbox.slots with
        reserved := station.pending + 1 }).post order = .error .connectionClosed := by
      have still : (station.withSlots { station.link.outbox.slots with
        reserved := station.pending + 1 }).isRunning = false := ended
      simp [post, still]
    simp [call, valid, full, closed, Nat.not_le.mpr room, bind, Except.bind]

namespace Office

structure Cleared (office : Office) : Prop where
  outbox : office.leaving = true → office.station.link.outbox.size = 0
  ended : office.station.isRunning = false → office.leaving = true ∧ office.station.mailbox = []

theorem openedCleared (timing : Timing) (capacity writerCapacity : Nat) (port : Port) :
    Cleared (opened timing capacity writerCapacity port) := ⟨nofun, nofun⟩

theorem attending {office : Office} (attends : office.attends = true) :
    office.station.isRunning = true ∧ office.leaving = false := by
  simpa [Office.attends] using attends

theorem Cleared.deed {office after : Office} {notes} (cleared : Cleared office) (deed : Deed office notes after) :
    Cleared after := by
  obtain ⟨outbox, ended⟩ := cleared
  -- While the station works or leaves, what was said of its end has no subject.
  have runs {P : Prop} {station : Station} (running : office.station.isRunning = true)
      (same : station.state = office.station.state) (stopped : station.isRunning = false) : P := by
    simp [Station.isRunning, same] at stopped running
    contradiction
  cases deed with
  | aside | refused => exact ⟨outbox, ended⟩
  | givenBack => exact ⟨outbox, ended⟩
  | reserved reserves =>
    obtain ⟨_, rfl⟩ := Station.reserved reserves
    exact ⟨outbox, ended⟩
  | handedOver held posts =>
    obtain ⟨running, rfl⟩ := Station.posted posts
    exact ⟨outbox, runs running rfl⟩
  | told other posts =>
    obtain ⟨running, rfl⟩ := Station.posted posts
    exact ⟨outbox, runs running rfl⟩
  | took attends waits =>
    obtain ⟨running, present⟩ := attending attends
    exact ⟨by simp [present], runs running rfl⟩
  | worked attends empties =>
    obtain ⟨running, present⟩ := attending attends
    exact ⟨by simp [present], runs running rfl⟩
  | left attends =>
    obtain ⟨running, _⟩ := attending attends
    exact ⟨fun _ => rfl, runs running rfl⟩
  | closed running leaving => exact ⟨outbox, fun _ => ⟨leaving, rfl⟩⟩

theorem runCleared {office : Office} (cleared : Cleared office) (history : List Op) :
    Cleared (office.run history).1 := runKeeps Cleared.deed cleared history

theorem Deed.final {office after : Office} {notes} (ended : office.station.isRunning = false)
    (deed : Deed office notes after) : after.station.isRunning = false ∧ after.lost = office.lost := by
  have working {P : Prop} (running : office.station.isRunning = true) : P := by simp [ended] at running
  cases deed with
  | aside | refused | givenBack => exact ⟨ended, rfl⟩
  | reserved reserves =>
    obtain ⟨_, rfl⟩ := Station.reserved reserves
    exact ⟨ended, rfl⟩
  | handedOver held posts => exact working (Station.posted posts).1
  | told other posts => exact working (Station.posted posts).1
  | took attends | worked attends | left attends => exact working (attending attends).1
  | closed running => exact working running

theorem runFinal {office : Office} (ended : office.station.isRunning = false) (history : List Op) :
    (office.run history).1.station.isRunning = false ∧ (office.run history).1.lost = office.lost := by
  let Final (after : Office) := after.station.isRunning = false ∧ after.lost = office.lost
  have keeps {before after : Office} {notes} (final : Final before) (deed : Deed before notes after) : Final after := by
    obtain ⟨still, kept⟩ := deed.final final.1
    exact ⟨still, kept.trans final.2⟩
  exact runKeeps keeps ⟨ended, rfl⟩ history

theorem endedPending {capacity : Nat} {office : Office} (balanced : Balanced capacity office) (cleared : Cleared office)
    (ended : office.station.isRunning = false) :
    office.station.pending = (requestsOf office.lost).length + office.holding.length + office.refused.length := by
  obtain ⟨leaving, mailbox⟩ := cleared.ended ended
  have empty := cleared.outbox leaving
  have none : requestsOf office.station.mailbox = [] := by rw [mailbox]; rfl
  have shares := balanced.shares
  rw [empty, none, List.length_nil] at shares
  omega

theorem Deed.fails {office after : Office} {notes outbound result} (deed : Deed office notes after)
    (ended : office.station.isRunning = false) (valid : outbound.message.validate = .ok ())
    (told : .returned outbound result ∈ notes) :
    result = some .connectionClosed ∨
      office.station.link.outbox.slots.limit ≤ office.station.pending ∧
        result = some (.queueFull office.station.pending) := by
  cases deed with
  | aside failures =>
    obtain ⟨_, fault, same, invalid | full⟩ := failures _ told
    · cases same
      simp [valid] at invalid
    · cases same
      obtain ⟨none, rfl⟩ := Station.unreserved full
      exact .inr ⟨none, rfl⟩
  | givenBack =>
    cases List.mem_singleton.mp told
    exact .inl rfl
  | handedOver held posts =>
    have running := (Station.posted posts).1
    simp [ended] at running
  | reserved | refused | worked | left | closed => contradiction
  | told | took => simp at told

theorem failsClosed {capacity : Nat} {office : Office} {op outbound result} (balanced : Balanced capacity office)
    (cleared : Cleared office) (ended : office.station.isRunning = false) (valid : outbound.message.validate = .ok ())
    (told : .returned outbound result ∈ (office.step op).2) :
    result = some .connectionClosed ∨
      result = some (.queueFull capacity) ∧
        (requestsOf office.lost).length + office.holding.length + office.refused.length = capacity := by
  rcases (stepDeed office op).fails ended valid told with closed | ⟨none, full⟩
  · exact .inl closed
  · have all : office.station.pending = capacity := Nat.le_antisymm balanced.bounded (balanced.limit ▸ none)
    exact .inr ⟨all ▸ full, (endedPending balanced cleared ended).symm.trans all⟩

/-- Once a station has ended and no call is under way, exactly the requests that were in its mailbox when it was closed
have kept their slots. Every later call fails; it finds no slot when these requests, and the calls beside it, have taken
all of them. -/
theorem leftoverSlots (timing : Timing) (capacity writerCapacity : Nat) (port : Port) (history : List Op) :
    let office := ((opened timing capacity writerCapacity port).run history).1
    let left := (requestsOf office.lost).length
    office.station.isRunning = false → office.holding = [] → office.refused = [] →
      office.station.pending = left ∧
      (∀ message listening, message.validate = .ok () →
        office.station.call (.send message listening) =
          .error (if capacity ≤ left then .queueFull left else .connectionClosed)) ∧
      ∀ later op outbound result, let after := (office.run later).1
        outbound.message.validate = .ok () → .returned outbound result ∈ (after.step op).2 →
          result = some .connectionClosed ∨
            result = some (.queueFull capacity) ∧ left + after.holding.length + after.refused.length = capacity := by
  intro office left ended noneHeld noneRefused
  have balanced : Balanced capacity office := runBalanced (openedBalanced timing capacity writerCapacity port) history
  have cleared : Cleared office := runCleared (openedCleared timing capacity writerCapacity port) history
  have pending : office.station.pending = left := by
    have shares := endedPending balanced cleared ended
    rwa [noneHeld, noneRefused] at shares
  refine ⟨pending, fun message listening valid => ?_, fun later op outbound result => ?_⟩
  · rw [Station.endedCall ended valid, pending, balanced.limit]
  · intro after valid told
    obtain ⟨still, same⟩ := runFinal ended later
    have fails := failsClosed (runBalanced balanced later) (runCleared cleared later) still valid told
    rwa [same] at fails

/- A request is accepted, and the station is asked to end before it takes the request. -/
def parting : List Op :=
  [.ask ⟨.versionRequest, true⟩, .reserve ⟨.versionRequest, true⟩, .post ⟨.versionRequest, true⟩, .abort, .close none]

theorem partingLeavesSlot :
    let office := ((opened {} 1 16 .sound).run parting).1
    office.station.isRunning = false ∧ office.holding = [] ∧ office.refused = [] ∧
      office.station.pending = 1 := by
  have ended : ((opened {} 1 16 .sound).run parting).1.station.isRunning = false := rfl
  exact ⟨ended, rfl, rfl, (leftoverSlots {} 1 16 .sound parting ended rfl rfl).1⟩

end Office

namespace Station

def unserved : Station :=
  ((fresh {} 1 16 .sound).run [.reserve, .post (.accept ⟨.versionRequest, true⟩), .cancel, .turn 0 128]).station

theorem slotStaysTaken :
    unserved.isRunning = false ∧ unserved.pending = 1 ∧ Message.versionRequest.validate = .ok () ∧
      unserved.call (.send .versionRequest true) = .error (.queueFull 1) := by
  refine ⟨rfl, rfl, rfl, ?_⟩
  rfl

end Station

end ZWaveHost
