import ZWaveHost.Proofs.Network.Reuse

/-! Which node an event of the link is about. Only the node that is addressed can change, or the one that the store has a
record of where that of the addressee is due; an outcome, a command or an update that is for a node nobody has registered
changes nothing at all. -/
namespace ZWaveHost

namespace LinkEvent

def addressee? : LinkEvent → Option NodeId
  | completed _ node (.sendData ..) | failed _ node (.sendData ..) _ => node
  | received (.nodeCommand command) _ => some command.source
  | received (.nodeUpdate update) context => update.target.or (context.bind Context.node)
  | received (.protocolInfo _) context => context.bind Context.node
  | received (.addNodeStatus update) _ => if update.namesNode then update.info.map NodeInfo.nodeId else none
  | received (.removeNodeStatus update) _ => if update.namesNode then some (Network.infoOf update).nodeId else none
  | _ => none

def isForNode : LinkEvent → Bool
  | completed _ _ (.sendData ..) | failed _ _ (.sendData ..) _ => true
  | received (.nodeCommand _) _ | received (.nodeUpdate _) _ => true
  | _ => false

theorem hearerAddressed {event : LinkEvent} {id : NodeId} {stimulus : Stimulus}
    (hears : (NetworkInput.event event).stimulus? = some (id, stimulus)) : event.addressee? = some id := by
  cases event with
  | started => cases hears
  | completed _ node request | failed _ node request _ =>
    obtain ⟨key, commanded, same⟩ := Option.map_eq_some_iff.mp hears
    cases same
    cases request with
    | sendData => exact commanded
    | _ => cases commanded
  | received message context =>
    cases message with
    | nodeCommand =>
      cases hears
      rfl
    | nodeUpdate =>
      obtain ⟨key, target, same⟩ := Option.map_eq_some_iff.mp hears
      cases same
      exact target
    | _ => cases hears

theorem leaverAddressed {event : LinkEvent} {id : NodeId} (leaves : (NetworkInput.event event).leaver? = some id) :
    event.addressee? = some id := by
  cases event with
  | received message =>
    cases message with
    | removeNodeStatus => exact leaves
    | _ => cases leaves
  | _ => cases leaves

end LinkEvent

def Lookup.Faithful (lookup : Lookup) : Prop := ∀ id record, lookup id = .ok (some record) → record.nodeId = id

def Table.Own (table : Table) : Prop := ∀ id record, table.get? id = some record → record.nodeId = id

theorem Table.Own.save {table : Table} (own : table.Own) (saved : NodeRecord) : (table.save saved).Own := by
  intro id record found
  rw [Table.saved] at found
  split at found
  · rename_i same
    cases found
    exact same.symm
  · exact own id record found

theorem Table.ofRecordsOwn (records : List NodeRecord) : (ofRecords records).Own :=
  ofRecordsHolds (fun _ _ found => nomatch found) (fun _ record own => own.save record) records

namespace Collaborators

variable {world : Collaborators}

theorem performOwn (own : world.store.Own) (effect : Effect) : (world.perform effect).1.store.Own := by
  cases effect with
  | store call =>
    cases call with
    | save record =>
      cases refused : world.refusals.save with
      | none => simpa only [perform, refused] using own.save record
      | some fault => simpa only [perform, refused] using own
    | _ => exact own
  | _ => exact own

theorem performAllOwn (own : world.store.Own) (effects : List Effect) : (world.performAll effects).store.Own := by
  induction effects generalizing world with
  | nil => exact own
  | cons effect rest ih => exact ih (performOwn own effect)

theorem lookupFaithful (own : world.store.Own) : world.lookup.Faithful := by
  intro id record found
  unfold lookup at found
  cases answered : answer world.refusals.get with
  | error fault =>
    rw [answered] at found
    cases found
  | ok =>
    rw [answered] at found
    exact own id record (Except.ok.inj found)

end Collaborators

namespace Household

theorem runOwn {home : Household} (own : home.world.store.Own) (inputs : List NetworkInput) :
    (home.run inputs).1.world.store.Own := by
  induction inputs generalizing home with
  | nil => exact own
  | cons input rest ih => exact ih (Collaborators.performAllOwn own _)

end Household

namespace Network

variable {network : Network} {lookup : Lookup} {id : NodeId}

/- The node that comes in when the store answers for the addressee with a record of another. -/
def stranger? (network : Network) (lookup : Lookup) : LinkEvent → Option Node
  | .received (.protocolInfo reported) context =>
    (context.bind Context.node).bind fun key => (network.restored (lookup key) reported).1.filter (·.id ≠ key)
  | _ => none

theorem strangerRestored {event : LinkEvent} {node : Node} (comes : network.stranger? lookup event = some node) :
    ∃ reported context key, event = .received (.protocolInfo reported) context ∧ context.bind Context.node = some key ∧
      (network.restored (lookup key) reported).1 = some node ∧ node.id ≠ key := by
  unfold stranger? at comes
  split at comes
  · obtain ⟨key, requester, comes⟩ := Option.bind_eq_some_iff.mp comes
    obtain ⟨recalled, other⟩ := Option.filter_eq_some_iff.mp comes
    exact ⟨_, _, key, rfl, requester, recalled, of_decide_eq_true other⟩
  · cases comes

theorem strangerStored {event : LinkEvent} {node : Node} (comes : network.stranger? lookup event = some node) :
    ∃ key record, event.addressee? = some key ∧ lookup key = .ok (some record) ∧ record.nodeId = node.id ∧
      node.id ≠ key := by
  obtain ⟨reported, context, key, rfl, requester, recalled, other⟩ := strangerRestored comes
  obtain ⟨record, kind, stored, rfl⟩ := restoredMade recalled
  exact ⟨key, record, requester, stored, rfl, other⟩

theorem strangerComes {event : LinkEvent} {node : Node} (comes : network.stranger? lookup event = some node) :
    network.newcomer? lookup (.event event) = some node := by
  obtain ⟨reported, context, key, rfl, requester, recalled, -⟩ := strangerRestored comes
  simp only [newcomer?, requester, Option.bind_some, reported?, recalled, Option.some_or]

theorem newcomerAddressed {event : LinkEvent} {new : Node} (comes : network.newcomer? lookup (.event event) = some new) :
    event.addressee? = some new.id ∨ network.stranger? lookup event = some new := by
  cases newcomerOrigin comes with
  | @restored reported _ key _ _ requester =>
    rw [newcomer?, requester, Option.bind_some, reported?] at comes
    generalize (Catalogue.made _ _ _).1 = new at comes ⊢
    by_cases own : new.id = key
    · exact .inl (own ▸ requester)
    · cases recalled : (network.restored (lookup key) reported).1 with
      | none =>
        rw [recalled, Option.none_or] at comes
        obtain ⟨kind, rfl⟩ := createdMade comes
        exact absurd rfl own
      | some node =>
        rw [recalled, Option.some_or] at comes
        cases comes
        exact .inr (by simp [stranger?, requester, recalled, own])
  | reported _ requester => exact .inl requester
  | added _ _ names told => exact .inl (by simp [LinkEvent.addressee?, names, told, Node.id, Catalogue.made])

theorem othersPassed {event : LinkEvent} (other : event.addressee? ≠ some id)
    (noStranger : ∀ node, network.stranger? lookup event = some node → node.id ≠ id) :
    (network.step lookup (.event event)).1.roster.find? id = network.roster.find? id := by
  refine (network.stepChange lookup (.event event)).passes (fun new comes same => ?_) ?_ ?_
  · rcases newcomerAddressed comes with addressed | stranger
    · exact other (same ▸ addressed)
    · exact noStranger new stranger same
  · exact fun leaves => other (LinkEvent.leaverAddressed leaves)
  · exact fun stimulus hears => other (LinkEvent.hearerAddressed hears)

theorem othersAfter {event : LinkEvent} (other : event.addressee? ≠ some id) :
    (network.step lookup (.event event)).1.roster.find? id =
      ((network.stranger? lookup event).filter (·.id = id)).or (network.roster.find? id) := by
  cases stranger : network.stranger? lookup event with
  | none => exact othersPassed other fun node comes => nomatch stranger.symm.trans comes
  | some node =>
    by_cases same : node.id = id
    · have enters := (network.stepChange lookup (.event event)).enters (strangerComes stranger)
      simpa [same, Option.filter] using enters
    · have passed := @othersPassed network lookup id event other fun new comes => by
        cases stranger.symm.trans comes
        exact same
      simpa [same, Option.filter] using passed

theorem faithfulPassed {event : LinkEvent} (faithful : lookup.Faithful) (other : event.addressee? ≠ some id) :
    (network.step lookup (.event event)).1.roster.find? id = network.roster.find? id := by
  refine othersPassed other fun node comes => ?_
  obtain ⟨key, record, -, stored, named, differs⟩ := strangerStored comes
  exact absurd (named ▸ faithful key record stored) differs

theorem addressedNobody (absent : network.roster.find? id = none) (asUpdate : Bool) (stimulus : Stimulus) :
    network.address id asUpdate stimulus = (network, []) := by
  simp only [address, absent]

theorem strayDropped (lookup : Lookup) {event : LinkEvent} (forNode : event.isForNode = true)
    (absent : ∀ id, event.addressee? = some id → network.roster.find? id = none) :
    network.step lookup (.event event) = (network, []) := by
  cases event with
  | started => cases forNode
  | completed _ node request | failed _ node request _ =>
    cases request with
    | sendData =>
      cases node with
      | none => rfl
      | some id =>
        simp only [step, onEvent, onEnded]
        exact addressedNobody (absent id rfl) false _
    | _ => cases forNode
  | received message context =>
    cases message with
    | nodeCommand command =>
      simp only [step, onEvent, onMessage]
      exact addressedNobody (absent command.source rfl) true _
    | nodeUpdate update =>
      simp only [step, onEvent, onMessage]
      cases target : update.target.or (context.bind Context.node) with
      | none => rfl
      | some id => exact addressedNobody (absent id target) true _
    | _ => cases forNode

/-- Whatever an event of the link is, whoever is registered and whatever the store answers: of all but the addressee, the
only one that changes, comes or goes is the node that the store has a record of where that of the addressee is due. Over a
store that keeps each record under the id of its node there is none. Where what a command came to, a command or an update is
for a node that is not registered, or an update names no node and nobody has asked for it, everything stays as it is, and
nothing is asked or told. -/
theorem onlyAddresseeConcerned (network : Network) (lookup : Lookup) (event : LinkEvent) :
    let (next, effects) := network.step lookup (.event event)
    (∀ id, event.addressee? ≠ some id →
      next.roster.find? id = ((network.stranger? lookup event).filter (·.id = id)).or (network.roster.find? id)) ∧
    (∀ node, network.stranger? lookup event = some node → ∃ key record, event.addressee? = some key ∧
      lookup key = .ok (some record) ∧ record.nodeId = node.id ∧ node.id ≠ key) ∧
    (lookup.Faithful → ∀ id, event.addressee? ≠ some id → next.roster.find? id = network.roster.find? id) ∧
    (event.isForNode = true → (∀ id, event.addressee? = some id → network.roster.find? id = none) →
      next = network ∧ effects = []) := by
  refine ⟨fun id => othersAfter, fun node => strangerStored, fun faithful id => faithfulPassed faithful,
    fun forNode absent => ?_⟩
  have dropped := network.strayDropped lookup forNode absent
  exact ⟨congrArg Prod.fst dropped, congrArg Prod.snd dropped⟩

theorem neighbourUnconcerned :
    let switch : NodeRecord := ⟨⟨6, ⟨0x04, 0x10, 0x01⟩, [0x25]⟩, true, "generic"⟩
    let home := ((Household.mk {} { store := .ofRecords [switch] }).run [nodeReported]).1
    let (network, lookup) := (home.network, home.world.lookup)
    let reported : LinkEvent :=
      .received (.protocolInfo ⟨0x80, 0, ⟨0x04, 0x10, 0x01⟩⟩) (some ⟨5, some 6, FunctionId.protocolInfo⟩)
    let stray : LinkEvent := .received (.nodeCommand ⟨0, 42, [0x20, 0x03, 0x00]⟩) none
    (network.roster.find? 2).isSome = true ∧
      (network.step lookup (.event reported)).1.roster.find? 2 = network.roster.find? 2 ∧
      (network.step lookup (.event stray)).1 = network ∧ (network.step lookup (.event stray)).2 = [] := by
  intro switch home
  have faithful : home.world.lookup.Faithful :=
    Collaborators.lookupFaithful (Household.runOwn (Table.ofRecordsOwn [switch]) [nodeReported])
  obtain ⟨-, -, others, -⟩ := onlyAddresseeConcerned home.network home.world.lookup
    (.received (.protocolInfo ⟨0x80, 0, ⟨0x04, 0x10, 0x01⟩⟩) (some ⟨5, some 6, FunctionId.protocolInfo⟩))
  obtain ⟨-, -, -, dropped⟩ := onlyAddresseeConcerned home.network home.world.lookup
    (.received (.nodeCommand ⟨0, 42, [0x20, 0x03, 0x00]⟩) none)
  exact ⟨rfl, others faithful 2 (by decide), dropped rfl (by rintro _ ⟨⟩; rfl)⟩

/- A file holds a record of node 2 under the key 6. Node 2 has been added as another, sleeping device; a report on the device
with the id 6 replaces it, and registers nobody under the id 6. -/
theorem foreignRecordReplaces :
    let foreign : NodeRecord := ⟨⟨2, ⟨0x04, 0x10, 0x01⟩, []⟩, true, "generic"⟩
    let disk : Disk := { target := .file (Archive.writeTable ⟨[(6, foreign)]⟩) }
    let added : LinkEvent :=
      .received (.addNodeStatus ⟨1, InclusionStatus.slave, 2, some ⟨2, ⟨0x04, 0x20, 0x01⟩, [CommandClass.wakeUp]⟩⟩) none
    let reported : LinkEvent :=
      .received (.protocolInfo ⟨0x80, 0, ⟨0x04, 0x10, 0x01⟩⟩) (some ⟨5, some 6, FunctionId.protocolInfo⟩)
    ∃ archive, FileArchive.opened disk = .ok archive ∧
      let before := ((Estate.mk {} (.file archive disk)).run [.event added]).1
      let after := (before.step (.event reported)).1
      reported.addressee? = some 6 ∧
        before.network.roster.find? 2 =
          some { info := ⟨2, ⟨0x04, 0x20, 0x01⟩, [CommandClass.wakeUp]⟩, listening := false } ∧
        after.network.roster.find? 2 = some (.ofRecord foreign) ∧ after.network.roster.find? 6 = none := by
  intro foreign disk added reported
  have sorted : Table.Sorted ⟨[(6, foreign)]⟩ := List.pairwise_singleton _ _
  have fits : Table.Fits ⟨[(6, foreign)]⟩ := List.forall_mem_singleton.mpr ⟨by decide, by decide⟩
  exact ⟨_, FileArchive.openedWritten sorted fits, rfl, by decide +kernel, by decide +kernel, by decide +kernel⟩

end Network

namespace Household

/- Over a store in memory nobody but the addressee is concerned, whatever happened before. -/
theorem othersKept {home : Household} (own : home.world.store.Own) (inputs : List NetworkInput) {event : LinkEvent}
    {id : NodeId} (other : event.addressee? ≠ some id) :
    let home := (home.run inputs).1
    (home.step (.event event)).1.network.roster.find? id = home.network.roster.find? id :=
  Network.faithfulPassed (Collaborators.lookupFaithful (runOwn own inputs)) other

end Household

end ZWaveHost
