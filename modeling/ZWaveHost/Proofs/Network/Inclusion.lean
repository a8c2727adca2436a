import ZWaveHost.Proofs.Network.Change

/-! What the application hears of inclusion and exclusion: the controller's status reports, one by one, and nothing else.
The roster follows them: a node that was included is registered with its info, a node that was excluded is not registered. -/
namespace ZWaveHost

def Notice.ofInclusion : Notice → Bool
  | inclusionStarted | inclusion .. | inclusionStopped | exclusionStarted | exclusion .. | exclusionStopped => true
  | _ => false

def tidings (effects : List Effect) : List Notice := (Effect.notices effects).filter Notice.ofInclusion

def NodeInfo.ofDevice (info : NodeInfo) : Bool := 1 ≤ info.nodeId.toNat && info.nodeId.toNat ≤ 232

namespace NetworkUpdate

def addingNotice? (update : NetworkUpdate) : Option Notice :=
  match update.status with
  | InclusionStatus.ready => some .inclusionStarted
  | InclusionStatus.slave | InclusionStatus.controller =>
    (update.info.filter NodeInfo.ofDevice).map (.inclusion · true)
  | InclusionStatus.protocolDone => none
  | InclusionStatus.done => some .inclusionStopped
  | InclusionStatus.failed => some (.inclusion (Network.infoOf update) false)
  | _ => none

def removingNotice? (update : NetworkUpdate) : Option Notice :=
  match update.status with
  | InclusionStatus.ready => some .exclusionStarted
  | InclusionStatus.slave | InclusionStatus.controller => some (.exclusion (Network.infoOf update) true)
  | InclusionStatus.done => some .exclusionStopped
  | InclusionStatus.failed => some (.exclusion (Network.infoOf update) false)
  | _ => none

end NetworkUpdate

namespace NetworkInput

def tiding? : NetworkInput → Option Notice
  | event (.received (.addNodeStatus update) _) => update.addingNotice?
  | event (.received (.removeNodeStatus update) _) => update.removingNotice?
  | _ => none

def concernsRoster : NetworkInput → Bool
  | event (.received (.protocolInfo _) context) => (context.bind Context.node).isSome
  | event (.received (.addNodeStatus update) _) | event (.received (.removeNodeStatus update) _) => update.namesNode
  | _ => false

theorem nobodyComes {input : NetworkInput} (unconcerned : input.concernsRoster = false) (network : Network)
    (lookup : Lookup) : network.newcomer? lookup input = none := by
  unfold concernsRoster at unconcerned
  split at unconcerned
  · rw [Option.isSome_eq_false_iff, Option.isNone_iff_eq_none] at unconcerned
    simp only [Network.newcomer?, unconcerned, Option.bind_none]
  · simp [Network.newcomer?, unconcerned]
  · rfl
  · rename_i reported added _
    unfold Network.newcomer?
    split
    · exact absurd rfl (reported _ _)
    · exact absurd rfl (added _ _)
    · rfl

theorem nobodyLeaves {input : NetworkInput} (unconcerned : input.concernsRoster = false) : input.leaver? = none := by
  unfold concernsRoster at unconcerned
  split at unconcerned
  · rfl
  · rfl
  · simp [leaver?, unconcerned]
  · rename_i removed
    unfold leaver?
    split
    · exact absurd rfl (removed _ _)
    · rfl

theorem includes {input : NetworkInput} {info : NodeInfo} (tells : input.tiding? = some (.inclusion info true)) :
    ∃ update context, input = .event (.received (.addNodeStatus update) context) ∧ update.namesNode = true ∧
      update.info = some info ∧ info.ofDevice = true := by
  simp only [tiding?] at tells
  split at tells
  · rename_i update context
    refine ⟨update, context, rfl, ?_⟩
    simp only [NetworkUpdate.addingNotice?] at tells
    split at tells
    case h_2 status | h_3 status =>
      obtain ⟨told, given, same⟩ := Option.map_eq_some_iff.mp tells
      cases same
      exact ⟨by rw [NetworkUpdate.namesNode, status]; rfl, Option.filter_eq_some_iff.mp given⟩
    all_goals simp at tells
  · simp only [NetworkUpdate.removingNotice?] at tells
    split at tells <;> simp at tells
  · contradiction

theorem excludes {input : NetworkInput} {info : NodeInfo} (tells : input.tiding? = some (.exclusion info true)) :
    input.leaver? = some info.nodeId := by
  simp only [tiding?] at tells
  split at tells
  · simp only [NetworkUpdate.addingNotice?] at tells
    split at tells <;> simp at tells
  · rename_i update context
    simp only [NetworkUpdate.removingNotice?] at tells
    split at tells
    case h_2 status | h_3 status =>
      have names : update.namesNode = true := by
        rw [NetworkUpdate.namesNode, status]
        rfl
      cases tells
      exact if_pos names
    all_goals simp at tells
  · contradiction

end NetworkInput

theorem tidingsAppend (before later : List Effect) : tidings (before ++ later) = tidings before ++ tidings later := by
  simp [tidings, Effect.notices]

theorem Inward.silent {effects : List Effect} (inward : Inward effects) : tidings effects = [] := by
  induction effects with
  | nil => rfl
  | cons effect rest ih =>
    obtain ⟨first, others⟩ := List.forall_mem_cons.mp inward
    rw [← List.singleton_append, tidingsAppend, ih others]
    cases effect with
    | link | journal => rfl
    | store | notify => contradiction

theorem NodeInfo.deviceValid (info : NodeInfo) :
    (info.nodeId = 0 || maxNodeId < info.nodeId : Bool) = !info.ofDevice := by
  simp [NodeInfo.ofDevice, maxNodeId, UInt8.lt_iff_toNat_lt, ← UInt8.toNat_inj]
  grind

theorem Catalogue.createdPlain (info : NodeInfo) (listening : Bool) :
    ({} : Catalogue).create info listening =
      if info.ofDevice then .ok ({ info, listening }, []) else .error (.invalidId info.nodeId) := by
  cases device : info.ofDevice with
  | true => simp only [create, kindFor, info.deviceValid, device, if_true]; rfl
  | false => simp only [create, kindFor, info.deviceValid, device]; rfl

namespace Network

theorem reportSilent (before after : Node) (asUpdate : Bool) : tidings (report before after asUpdate) = [] := by
  unfold report
  split
  · rfl
  · split <;> rfl

theorem addressSilent (network : Network) (id : NodeId) (asUpdate : Bool) (stimulus : Stimulus) :
    tidings (network.address id asUpdate stimulus).2 = [] := by
  cases found : network.roster.find? id with
  | none => simp [address, found, tidings, Effect.notices]
  | some node => rw [addressed network found, tidingsAppend, (reactInward _ _ _).silent, reportSilent, List.nil_append]

theorem registerSilent (network : Network) (node : Node) : tidings (network.register node).2 = [] := by
  rw [registered, tidingsAppend, (reactInward _ _ _).silent]
  split <;> rfl

theorem protocolInfoSilent (network : Network) (lookup : Lookup) (id : NodeId) (reported : ProtocolInfo) :
    tidings (network.onProtocolInfo lookup id reported).2 = [] := by
  have asked : tidings (.store (.get id) :: (network.restored (lookup id) reported).2) = [] :=
    (restoredInward network (lookup id) reported).silent
  unfold onProtocolInfo
  split
  rename_i recalled before restores
  rw [restores] at asked
  split
  · rw [tidingsAppend, asked, registerSilent, List.nil_append]
  · split
    · exact asked
    · rename_i created
      rw [tidingsAppend, tidingsAppend, asked, (madeInward created).silent, registerSilent]
      rfl

theorem endedSilent (network : Network) (node : Option NodeId) (request : Message) (stimulus : Stimulus) :
    tidings (network.onEnded node request stimulus).2 = [] := by
  unfold onEnded
  split
  · exact addressSilent ..
  · rfl

section Plain

variable {network : Network} (plain : network.catalogue = {})

include plain

theorem enrollTidings (info : NodeInfo) :
    tidings (network.enroll info).2 = if info.ofDevice then [.inclusion info true] else [] := by
  rw [enroll, plain, Catalogue.createdPlain]
  cases info.ofDevice with
  | true =>
    simp only [if_true, List.nil_append, tidingsAppend, registerSilent]
    rfl
  | false => rfl

theorem addingTidings (update : NetworkUpdate) :
    tidings (network.onAddStatus update).2 = update.addingNotice?.toList := by
  have enrolled (info : NodeInfo) :
      tidings (network.enroll info).2 = (((some info).filter NodeInfo.ofDevice).map (.inclusion · true)).toList := by
    rw [enrollTidings plain]
    cases device : info.ofDevice <;> simp [Option.filter, device]
  unfold NetworkUpdate.addingNotice?
  fun_cases onAddStatus network update with
  | case1 status | case6 status | case7 status | case8 status =>
    simp only [status]
    rfl
  | case2 status unknown | case4 status unknown =>
    simp only [status, unknown]
    rfl
  | case3 status info known | case5 status info known => simpa only [status, known] using enrolled info
  | case9 => split <;> first | contradiction | rfl

omit plain in
theorem removingTidings (update : NetworkUpdate) :
    tidings (network.onRemoveStatus update).2 = update.removingNotice?.toList := by
  unfold onRemoveStatus NetworkUpdate.removingNotice?
  generalize update.status = status
  split
  case h_6 => simp only [Option.toList_none]; rfl
  all_goals rfl

theorem stepTidings (lookup : Lookup) (input : NetworkInput) :
    tidings (network.step lookup input).2 = input.tiding?.toList := by
  cases input with
  | event event =>
    cases event with
    | started => rfl
    | completed => exact endedSilent ..
    | failed => exact endedSilent ..
    | received message context =>
      cases message with
      | addNodeStatus update => exact addingTidings plain update
      | removeNodeStatus update => exact removingTidings update
      | nodeCommand => exact addressSilent ..
      | protocolInfo =>
        simp only [step, onEvent, onMessage, NetworkInput.tiding?]
        split
        · exact protocolInfoSilent ..
        · rfl
      | nodeUpdate =>
        simp only [step, onEvent, onMessage, NetworkInput.tiding?]
        split
        · exact addressSilent ..
        · rfl
      | version | memoryId =>
        simp only [step, onEvent, onMessage, identified, controllerInfo, NetworkInput.tiding?]
        split <;> rfl
      | initData data =>
        have asks : Inward (data.nodeIds.map fun id => ask (.protocolInfoRequest id)) := by
          simp [Inward, ask, Effect.isInward]
        exact asks.silent
      | _ => rfl
  | _ => rfl

end Plain

section Changes

variable {network after : Network} {lookup : Lookup} {input : NetworkInput} {effects : List Effect}

theorem Change.catalogue (change : Change network lookup input after effects) : after.catalogue = network.catalogue := by
  cases change <;> rfl

theorem Change.ids (change : Change network lookup input after effects) :
    (∀ node, network.newcomer? lookup input = some node →
      after.roster.ids = network.roster.ids.filter (· ≠ node.id) ++ [node.id]) ∧
    (∀ id, input.leaver? = some id → after.roster.ids = network.roster.ids.filter (· ≠ id)) ∧
    (network.newcomer? lookup input = none → input.leaver? = none → after.roster.ids = network.roster.ids) := by
  cases change with
  | aside nobodyComes nobodyLeaves => simp [nobodyComes, nobodyLeaves]
  | arrives comes nobodyLeaves => simp [comes, nobodyLeaves, Roster.insertIds]
  | leaves nobodyComes leaves => simp [nobodyComes, leaves, Roster.remove, Roster.withoutIds]
  | hears nobodyComes nobodyLeaves => simp [nobodyComes, nobodyLeaves, Roster.updateIds]

end Changes

theorem runPlain {network : Network} (plain : network.catalogue = {}) (history : List (Lookup × NetworkInput)) :
    (network.run history).1.catalogue = {} := by
  induction history generalizing network with
  | nil => exact plain
  | cons first rest ih => exact ih ((network.stepChange first.1 first.2).catalogue.trans plain)

theorem runTidings {network : Network} (plain : network.catalogue = {}) (history : List (Lookup × NetworkInput)) :
    tidings (network.run history).2.flatten = history.filterMap (·.2.tiding?) := by
  induction history generalizing network with
  | nil => rfl
  | cons first rest ih =>
    obtain ⟨lookup, input⟩ := first
    have later := ih ((network.stepChange lookup input).catalogue.trans plain)
    simp only [run, List.flatten_cons, tidingsAppend, stepTidings plain, later, List.filterMap_cons]
    cases input.tiding? <;> rfl

theorem tidingTold {network : Network} (plain : network.catalogue = {}) {lookup : Lookup} {input : NetworkInput}
    {notice : Notice} (ours : notice.ofInclusion = true)
    (told : notice ∈ Effect.notices (network.step lookup input).2) : input.tiding? = some notice := by
  have member : notice ∈ tidings (network.step lookup input).2 := List.mem_filter.mpr ⟨told, ours⟩
  rw [stepTidings plain] at member
  exact Option.mem_toList.mp member

theorem includedRegistered {network : Network} (plain : network.catalogue = {}) {lookup : Lookup} {input : NetworkInput}
    {info : NodeInfo} (told : .inclusion info true ∈ Effect.notices (network.step lookup input).2) :
    ∃ node, (network.step lookup input).1.roster.find? info.nodeId = some node ∧ node.info = info := by
  obtain ⟨update, context, rfl, names, given, device⟩ := NetworkInput.includes (tidingTold plain rfl told)
  have comes : network.newcomer? lookup (.event (.received (.addNodeStatus update) context)) =
      some { info, listening := !info.supports CommandClass.wakeUp } := by
    simp [newcomer?, names, given, included?, plain, Catalogue.createdPlain, device, Except.toOption]
  exact ⟨_, (network.stepChange lookup _).enters comes, rfl⟩

theorem excludedAbsent {network : Network} (plain : network.catalogue = {}) {lookup : Lookup} {input : NetworkInput}
    {info : NodeInfo} (told : .exclusion info true ∈ Effect.notices (network.step lookup input).2) :
    info.nodeId ∉ (network.step lookup input).1.roster.ids := by
  have leaves := NetworkInput.excludes (tidingTold plain rfl told)
  simp [(network.stepChange lookup input).ids.2.1 info.nodeId leaves]

/-- The application hears of inclusion and exclusion exactly what the controller's reports say, in their order. A node that
is told as included is registered with that info, a node that is told as excluded is not registered, and the end of the
protocol is answered by one request to stop. Only such reports, and a report on a device that was asked for, change who is
registered: a newcomer stands last, one who leaves is gone, and everybody else keeps the place. -/
theorem inclusionReported (history : List (Lookup × NetworkInput)) :
    let (network, told) := ({} : Network).run history
    tidings told.flatten = history.filterMap (·.2.tiding?) ∧
    ∀ lookup input, let (next, effects) := network.step lookup input
      tidings effects = input.tiding?.toList ∧
      (∀ info, .inclusion info true ∈ Effect.notices effects →
        ∃ node, next.roster.find? info.nodeId = some node ∧ node.info = info) ∧
      (∀ info, .exclusion info true ∈ Effect.notices effects → info.nodeId ∉ next.roster.ids) ∧
      (∀ update context, input = .event (.received (.addNodeStatus update) context) →
        update.status = InclusionStatus.protocolDone →
        effects = [.link (.send (.addNode InclusionMode.stop 0) true)]) ∧
      (∀ node, network.newcomer? lookup input = some node →
        next.roster.ids = network.roster.ids.filter (· ≠ node.id) ++ [node.id]) ∧
      (∀ id, input.leaver? = some id → next.roster.ids = network.roster.ids.filter (· ≠ id)) ∧
      (network.newcomer? lookup input = none → input.leaver? = none → next.roster.ids = network.roster.ids) ∧
      (input.concernsRoster = false → next.roster.ids = network.roster.ids) := by
  have plain : (({} : Network).run history).1.catalogue = {} := runPlain rfl history
  refine ⟨runTidings rfl history, fun lookup input => ?_⟩
  have change := (({} : Network).run history).1.stepChange lookup input
  obtain ⟨comes, leaves, stays⟩ := change.ids
  refine ⟨stepTidings plain lookup input, fun info => includedRegistered plain, fun info => excludedAbsent plain, ?_, comes,
    leaves, stays, fun unconcerned => stays ?_ ?_⟩
  · rintro update context rfl done
    simp only [onEvent, onMessage, onAddStatus, done]
    rfl
  · exact input.nobodyComes unconcerned _ lookup
  · exact NetworkInput.nobodyLeaves unconcerned

def switchFound : NetworkInput :=
  .event (.received (.addNodeStatus ⟨0, InclusionStatus.slave, 5, some ⟨5, ⟨0x04, 0x10, 0x01⟩, [0x25]⟩⟩) none)

theorem switchIncluded :
    let (next, effects) := ({} : Network).step (fun _ => .ok none) switchFound
    tidings effects = [.inclusion ⟨5, ⟨0x04, 0x10, 0x01⟩, [0x25]⟩ true] ∧ next.roster.ids = [5] ∧
      ∃ node, next.roster.find? 5 = some node ∧ node.info = ⟨5, ⟨0x04, 0x10, 0x01⟩, [0x25]⟩ := by
  obtain ⟨told, included, -, -, comes, -⟩ := (inclusionReported []).2 (fun _ => .ok none) switchFound
  exact ⟨told, comes ⟨⟨5, ⟨0x04, 0x10, 0x01⟩, [0x25]⟩, true, false, none, none, false⟩ rfl,
    included ⟨5, ⟨0x04, 0x10, 0x01⟩, [0x25]⟩ (by decide)⟩

end Network

end ZWaveHost
