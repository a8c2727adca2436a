import ZWaveHost.Proofs.Network.Reuse

/-! What becomes of a device that the controller reports. Whatever was registered or stored before, its node is the device as
it is reported now: restored and started where its record says the same, new and waiting for its interview where there is no
such record. -/
namespace ZWaveHost

def NodeRecord.Matches (record : NodeRecord) (reported : ProtocolInfo) : Prop :=
  record.kind = "generic" ∧ record.info.deviceClass = reported.deviceClass ∧ record.listening = reported.isListening

instance (record : NodeRecord) (reported : ProtocolInfo) : Decidable (record.Matches reported) := by
  unfold NodeRecord.Matches
  infer_instance

theorem Node.describesIff {node : Node} {reported : ProtocolInfo} :
    node.describes reported = true ↔ node.listening = reported.isListening ∧ node.info.deviceClass = reported.deviceClass := by
  simp only [describes, Bool.and_eq_true, beq_iff_eq, decide_eq_true_iff]

theorem NodeRecord.matchesIff {record : NodeRecord} {reported : ProtocolInfo} :
    record.Matches reported ↔ record.kind = Node.recordKind ∧ (Node.ofRecord record).describes reported = true := by
  rw [Node.describesIff, and_comm (a := (Node.ofRecord record).listening = _)]
  rfl

namespace NodeInfo

theorem ofDeviceIff {info : NodeInfo} : info.ofDevice = true ↔ 1 ≤ info.nodeId.toNat ∧ info.nodeId.toNat ≤ 232 := by
  simp only [ofDevice, Bool.and_eq_true, decide_eq_true_iff]

theorem ofDeviceSame {info other : NodeInfo} (same : info.nodeId = other.nodeId) : info.ofDevice = other.ofDevice := by
  simp only [ofDevice, same]

end NodeInfo

namespace Catalogue

theorem restoredOnly {record : NodeRecord} {restored : Node × List Effect}
    (restores : ({} : Catalogue).restore record = .ok restored) :
    record.info.ofDevice = true ∧ record.kind = Node.recordKind ∧ restored = (.ofRecord record, []) := by
  cases device : record.info.ofDevice with
  | false =>
    simp only [restore, kindFor, record.info.deviceValid, device] at restores
    cases restores
  | true =>
    by_cases kind : record.kind = Node.recordKind
    · rw [restoredPlain device kind] at restores
      cases restores
      exact ⟨rfl, kind, rfl⟩
    · have other : Kind.generic.name ≠ record.kind := fun same => kind same.symm
      have mismatch : ({} : Catalogue).restore record = .error (.kindMismatch record.nodeId record.kind) := by
        simp only [restore, kindFor, record.info.deviceValid, device]
        exact if_neg other
      cases mismatch.symm.trans restores

end Catalogue

namespace Network

variable {network : Network} {lookup : Lookup} {id : NodeId} {reported : ProtocolInfo}

theorem restoredStale (plain : network.catalogue = {})
    (stale : ∀ record, lookup id = .ok (some record) → record.info.ofDevice = true → ¬ record.Matches reported) :
    network.restored (lookup id) reported = (none, []) := by
  cases answer : lookup id with
  | error fault => rfl
  | ok found =>
    cases found with
    | none => rfl
    | some record =>
      cases restores : ({} : Catalogue).restore record with
      | error fault => simp only [restored, plain, restores]
      | ok made =>
        obtain ⟨device, kind, rfl⟩ := Catalogue.restoredOnly restores
        have differs : (Node.ofRecord record).describes reported = false := by
          rw [← Bool.not_eq_true]
          exact fun same => stale record answer device (NodeRecord.matchesIff.mpr ⟨kind, same⟩)
        simp only [restored, plain, restores, differs]
        rfl

theorem reportedAnew (plain : network.catalogue = {}) (device : (reported.toNodeInfo id).ofDevice = true)
    (stale : ∀ record, lookup id = .ok (some record) → ¬ record.Matches reported) :
    network.onProtocolInfo lookup id reported =
      ({ network with
          roster := (network.roster.insert { info := reported.toNodeInfo id, listening := reported.isListening }).1 },
        [.store (.get id), .link (.send (.nodeInfoRequest id) reported.isListening)]) := by
  have passed : network.restored (lookup id) reported = (none, []) :=
    restoredStale plain fun record stored _ => stale record stored
  have created := Catalogue.createdPlain (reported.toNodeInfo id) reported.isListening
  rw [device, if_pos rfl] at created
  simp only [onProtocolInfo, passed, plain, created, registered]
  rfl

theorem reportedNobody (plain : network.catalogue = {}) (nobody : (reported.toNodeInfo id).ofDevice = false)
    (own : ∀ record, lookup id = .ok (some record) → record.nodeId = id) :
    network.onProtocolInfo lookup id reported = (network, [.store (.get id)]) := by
  have passed : network.restored (lookup id) reported = (none, []) := by
    refine restoredStale plain fun record stored device _ => ?_
    have same : record.info.ofDevice = (reported.toNodeInfo id).ofDevice := NodeInfo.ofDeviceSame (own record stored)
    simp [same, nobody] at device
  have refused := Catalogue.createdPlain (reported.toNodeInfo id) reported.isListening
  rw [nobody] at refused
  simp only [onProtocolInfo, passed, plain, refused]
  rfl

theorem newcomerJoins (roster : Roster) (node : Node) (same : node.id = id) :
    (roster.insert node).1.ids = roster.ids.filter (· ≠ id) ++ [id] ∧
      (∀ other, other ≠ id → (roster.insert node).1.find? other = roster.find? other) ∧
      (roster.insert node).1.find? id = some node := by
  subst same
  refine ⟨Roster.insertIds roster node, fun other differ => ?_, ?_⟩
  · rw [Roster.foundInserted, if_neg differ]
  · rw [Roster.foundInserted, if_pos rfl]

/-- Whoever is registered and whatever the store answers about the node: a report on a device leaves its node last in the
roster, of the class and as awake as it is reported, and everybody else as they were. The node is started, with the command
classes of its record, saved and announced once and sent nothing, just when there is a record that says what is reported.
Else it waits, knows no command class, and is asked for its info once, which waits for the node if it sleeps. With an id
that no device has, nothing happens but the look-up. -/
theorem deviceReported (network : Network) (plain : network.catalogue = {}) (lookup : Lookup) (id : NodeId)
    (reported : ProtocolInfo) (context : Option Context) (requested : context.bind Context.node = some id)
    (own : ∀ record, lookup id = .ok (some record) → record.nodeId = id) :
    let (next, effects) := network.step lookup (.event (.received (.protocolInfo reported) context))
    if 1 ≤ id.toNat ∧ id.toNat ≤ 232 then
      next.roster.ids = network.roster.ids.filter (· ≠ id) ++ [id] ∧
      (∀ other, other ≠ id → next.roster.find? other = network.roster.find? other) ∧
      ∃ node, next.roster.find? id = some node ∧ node.info.deviceClass = reported.deviceClass ∧
        node.listening = reported.isListening ∧
        ((∃ record, lookup id = .ok (some record) ∧ record.Matches reported ∧ node.started = true ∧
            node.info.commandClasses = record.info.commandClasses ∧
            effects = [.store (.get id), .store (.save record), .notify (.nodeAdded record)]) ∨
          (∀ record, lookup id = .ok (some record) → ¬ record.Matches reported) ∧ node.started = false ∧
            node.info.commandClasses = [] ∧
            effects = [.store (.get id), .link (.send (.nodeInfoRequest id) reported.isListening)])
    else next = network ∧ effects = [.store (.get id)] := by
  have step : network.step lookup (.event (.received (.protocolInfo reported) context)) =
      network.onProtocolInfo lookup id reported := by
    simp only [Network.step, onEvent, onMessage, requested]
  have valid : (reported.toNodeInfo id).ofDevice = true ↔ 1 ≤ id.toNat ∧ id.toNat ≤ 232 := NodeInfo.ofDeviceIff
  rw [step]
  by_cases device : (reported.toNodeInfo id).ofDevice = true
  · simp only [if_pos (valid.mp device)]
    by_cases known : ∃ record, lookup id = .ok (some record) ∧ record.Matches reported
    · obtain ⟨record, stored, fits⟩ := known
      have same : record.nodeId = id := own record stored
      have recorded : record.info.ofDevice = true := (NodeInfo.ofDeviceSame same).trans device
      obtain ⟨kind, describes⟩ := NodeRecord.matchesIff.mp fits
      obtain ⟨last, others, found⟩ := newcomerJoins network.roster (.ofRecord record) same
      rw [reportedAgain plain stored recorded kind describes]
      exact ⟨last, others, _, found, fits.2.1, fits.2.2, .inl ⟨record, stored, fits, rfl, rfl, rfl⟩⟩
    · have stale : ∀ record, lookup id = .ok (some record) → ¬ record.Matches reported :=
        fun record stored fits => known ⟨record, stored, fits⟩
      let new : Node := { info := reported.toNodeInfo id, listening := reported.isListening }
      obtain ⟨last, others, found⟩ := newcomerJoins network.roster new rfl
      rw [reportedAnew plain device stale]
      exact ⟨last, others, new, found, rfl, rfl, .inr ⟨stale, rfl, rfl, rfl⟩⟩
  · simp only [if_neg (mt valid.mpr device)]
    rw [reportedNobody plain (Bool.eq_false_iff.mpr device) own]
    exact ⟨rfl, rfl⟩

theorem staleNodeReplaced :
    let switch : NodeRecord := ⟨⟨6, ⟨0x04, 0x10, 0x01⟩, [0x25]⟩, true, "generic"⟩
    let network : Network :=
      { roster := ⟨[{ info := ⟨6, ⟨0x04, 0x20, 0x01⟩, []⟩, listening := false },
        { info := ⟨9, ⟨0x04, 0x10, 0x01⟩, []⟩, listening := true }]⟩ }
    let (next, effects) := network.step (Shelf.memory (.ofRecords [switch])).lookup
      (.event (.received (.protocolInfo ⟨0x80, 0, ⟨0x04, 0x10, 0x01⟩⟩) (some ⟨4, some 6, FunctionId.protocolInfo⟩)))
    next.roster.ids = [9, 6] ∧ effects = [.store (.get 6), .store (.save switch), .notify (.nodeAdded switch)] ∧
      ∃ node, next.roster.find? 6 = some node ∧ node.started = true ∧ node.info.commandClasses = [0x25] := by
  intro switch network
  have own : ∀ record, (Shelf.memory (.ofRecords [switch])).lookup 6 = .ok (some record) → record.nodeId = 6 := by
    rintro record ⟨⟩
    rfl
  obtain ⟨last, -, node, found, -, -, known | ⟨stale, -⟩⟩ := deviceReported network rfl
    (Shelf.memory (.ofRecords [switch])).lookup 6 ⟨0x80, 0, ⟨0x04, 0x10, 0x01⟩⟩
    (some ⟨4, some 6, FunctionId.protocolInfo⟩) rfl own
  · obtain ⟨record, stored, -, started, classes, effects⟩ := known
    cases stored
    exact ⟨last, effects, node, found, started, classes⟩
  · exact absurd (by decide) (stale switch rfl)

end Network

end ZWaveHost
