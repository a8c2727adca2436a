import ZWaveHost.Network
import ZWaveHost.Proofs.Network.Roster

/-! What one input does to a network, said once: a node arrives, a node leaves, a registered node hears of something, or
no node is concerned. Which of these it is can be read off the input; only whether a stored record still fits takes the
store's answer. -/
namespace ZWaveHost

def Effect.isNews : Effect → Bool
  | store (.save _) | notify (.nodeAdded _) | notify (.nodeUpdated _) => true
  | _ => false

def Quiet (effects : List Effect) : Prop := ∀ effect ∈ effects, effect.isNews = false

def Effect.isInward : Effect → Bool
  | link _ | journal _ => true
  | _ => false

def Inward (effects : List Effect) : Prop := ∀ effect ∈ effects, effect.isInward = true

theorem Quiet.nothing : Quiet [] := List.forall_mem_nil _

theorem Inward.quiet {effects : List Effect} (inward : Inward effects) : Quiet effects := by
  intro effect member
  have own := inward effect member
  cases effect with
  | link | journal => rfl
  | store | notify => contradiction

theorem Inward.append {before later : List Effect} (inward : Inward before) (inwardLater : Inward later) :
    Inward (before ++ later) := List.forall_mem_append.mpr ⟨inward, inwardLater⟩

theorem Quiet.append {before later : List Effect} (quiet : Quiet before) (quietLater : Quiet later) :
    Quiet (before ++ later) := List.forall_mem_append.mpr ⟨quiet, quietLater⟩

def latest {α β : Type} (tells : α → Option β) (history : List α) : Option β := (history.filterMap tells).getLast?

theorem latestCons {α β : Type} (tells : α → Option β) (first : α) (rest : List α) (before : Option β) :
    (latest tells (first :: rest)).or before = (latest tells rest).or ((tells first).or before) := by
  unfold latest
  cases told : tells first with
  | none => simp only [List.filterMap_cons, told, Option.none_or]
  | some value =>
    simp only [List.filterMap_cons, told, List.getLast?_cons, Option.some_or]
    cases (rest.filterMap tells).getLast? <;> rfl

def NetworkUpdate.namesNode (update : NetworkUpdate) : Bool :=
  update.status = InclusionStatus.slave || update.status = InclusionStatus.controller

namespace NetworkInput

def leaver? : NetworkInput → Option NodeId
  | event (.received (.removeNodeStatus update) _) =>
    if update.namesNode then some (Network.infoOf update).nodeId else none
  | _ => none

def source? : NetworkInput → Option NodeId
  | event (.received (.nodeCommand command) _) => some command.source
  | event (.received (.nodeUpdate update) context) => update.target.or (context.bind Context.node)
  | _ => none

def commanded? (request : Message) (node : Option NodeId) : Option NodeId :=
  match request with
  | .sendData .. => node
  | _ => none

def stimulus? : NetworkInput → Option (NodeId × Stimulus)
  | event (.received (.nodeCommand command) _) => some (command.source, .command command)
  | event (.received (.nodeUpdate update) context) =>
    (update.target.or (context.bind Context.node)).map (·, .update update)
  | event (.completed _ node request) => (commanded? request node).map (·, .delivery true)
  | event (.failed _ node request why) =>
    (commanded? request node).map (·, if why.blamesNode then .delivery false else .linkFailure)
  | _ => none

end NetworkInput

namespace Catalogue

theorem createdAs {catalogue : Catalogue} {info : NodeInfo} {listening : Bool} {pair : Node × List Effect}
    (creates : catalogue.create info listening = .ok pair) : ∃ kind, pair = made kind { info, listening } .create := by
  simp only [create, bind, Except.bind, pure, Except.pure] at creates
  split at creates
  · cases creates
  · cases creates
    exact ⟨_, rfl⟩

theorem restoredAs {catalogue : Catalogue} {record : NodeRecord} {pair : Node × List Effect}
    (restores : catalogue.restore record = .ok pair) : ∃ kind, pair = made kind (.ofRecord record) .restore := by
  simp only [restore, bind, Except.bind, pure, Except.pure] at restores
  split at restores
  · cases restores
  · split at restores
    · cases restores
      exact ⟨_, rfl⟩
    · cases restores

end Catalogue

namespace Network

def reported? (network : Network) (lookup : Lookup) (reported : ProtocolInfo) (id : NodeId) : Option Node :=
  (network.restored (lookup id) reported).1.or
    ((network.catalogue.create (reported.toNodeInfo id) reported.isListening).toOption.map (·.1))

def included? (network : Network) (info : NodeInfo) : Option Node :=
  (network.catalogue.create info (!info.supports CommandClass.wakeUp)).toOption.map (·.1)

def newcomer? (network : Network) (lookup : Lookup) : NetworkInput → Option Node
  | .event (.received (.protocolInfo reported) context) =>
    (context.bind Context.node).bind (network.reported? lookup reported)
  | .event (.received (.addNodeStatus update) _) =>
    if update.namesNode then update.info.bind network.included? else none
  | _ => none

inductive Origin (lookup : Lookup) : NetworkInput → Node → Prop
  | restored {reported context key record} (kind) (requester : context.bind Context.node = some key)
      (stored : lookup key = .ok (some record)) :
      Origin lookup (.event (.received (.protocolInfo reported) context)) (Catalogue.made kind (.ofRecord record) .restore).1
  | reported {reported context key} (kind) (requester : context.bind Context.node = some key) :
      Origin lookup (.event (.received (.protocolInfo reported) context))
        (Catalogue.made kind { info := reported.toNodeInfo key, listening := reported.isListening } .create).1
  | added {update context info} (kind listening) (names : update.namesNode = true) (told : update.info = some info) :
      Origin lookup (.event (.received (.addNodeStatus update) context)) (Catalogue.made kind { info, listening } .create).1

inductive Change (network : Network) (lookup : Lookup) (input : NetworkInput) : Network → List Effect → Prop
  | aside {identity effects} (nobodyComes : network.newcomer? lookup input = none) (nobodyLeaves : input.leaver? = none)
      (nobodyHears : ∀ id stimulus, input.stimulus? = some (id, stimulus) → network.roster.find? id = none)
      (quiet : Quiet effects) : Change network lookup input { network with identity } effects
  | arrives {node before later} (comes : network.newcomer? lookup input = some node) (nobodyLeaves : input.leaver? = none)
      (nobodyHears : input.stimulus? = none) (quietBefore : Quiet before) (quietLater : Quiet later) :
      Change network lookup input { network with roster := (network.roster.insert node).1 }
        (before ++ (if node.started then announce node else []) ++ later)
  | leaves {id effects} (nobodyComes : network.newcomer? lookup input = none) (leaves : input.leaver? = some id)
      (nobodyHears : input.stimulus? = none) (quiet : Quiet effects) :
      Change network lookup input { network with roster := (network.roster.remove id).1 } effects
  | hears {id stimulus node} (nobodyComes : network.newcomer? lookup input = none) (nobodyLeaves : input.leaver? = none)
      (hears : input.stimulus? = some (id, stimulus)) (found : network.roster.find? id = some node) :
      Change network lookup input
        { network with roster := network.roster.update (node.react network.identity.nodeId stimulus).1 }
        ((node.react network.identity.nodeId stimulus).2 ++
          report node (node.react network.identity.nodeId stimulus).1 input.source?.isSome)

theorem journalInward (node : Node) (deed : Deed) : Inward (node.journal deed) := by
  unfold Node.journal
  split <;> simp [Inward, Effect.isInward]

theorem reactInward (node : Node) (controller : Option NodeId) (stimulus : Stimulus) :
    Inward (node.react controller stimulus).2 := by
  cases stimulus with
  | interview =>
    refine (journalInward node _).append ?_
    unfold Node.interview
    split <;> simp [Inward, Effect.isInward]
  | command command =>
    refine (journalInward node _).append ?_
    unfold Node.commandEffects
    split <;> split <;> simp [Inward, Effect.isInward]
  | update | delivery | linkFailure => exact journalInward node _

theorem madeInward {catalogue : Catalogue} {info listening node effects}
    (creates : catalogue.create info listening = .ok (node, effects)) : Inward effects := by
  obtain ⟨kind, made⟩ := Catalogue.createdAs creates
  cases made
  exact journalInward _ _

theorem restoredInward (network : Network) (answer : Except Fault (Option NodeRecord)) (reported : ProtocolInfo) :
    Inward (network.restored answer reported).2 := by
  unfold restored
  split
  · split
    · rename_i record node effects restores
      obtain ⟨kind, made⟩ := Catalogue.restoredAs restores
      cases made
      exact (journalInward _ _).append (journalInward _ _)
    · simp [Inward]
  · simp [Inward]

theorem createdMade {catalogue : Catalogue} {info listening node}
    (creates : (catalogue.create info listening).toOption.map (·.1) = some node) :
    ∃ kind, node = (Catalogue.made kind { info, listening } .create).1 := by
  cases created : catalogue.create info listening with
  | error => simp [created, Except.toOption] at creates
  | ok pair =>
    obtain ⟨kind, rfl⟩ := Catalogue.createdAs created
    rw [created] at creates
    cases creates
    exact ⟨kind, rfl⟩

theorem restoredMade {network : Network} {answer : Except Fault (Option NodeRecord)} {reported : ProtocolInfo} {node : Node}
    (recalled : (network.restored answer reported).1 = some node) :
    ∃ record kind, answer = .ok (some record) ∧ node = (Catalogue.made kind (.ofRecord record) .restore).1 := by
  unfold restored at recalled
  split at recalled
  · rename_i record
    split at recalled
    · rename_i restores
      obtain ⟨kind, made⟩ := Catalogue.restoredAs restores
      cases made
      simp only [Option.ite_none_right_eq_some, Option.some.injEq] at recalled
      exact ⟨record, kind, rfl, recalled.2.symm⟩
    · cases recalled
  · cases recalled

theorem newcomerOrigin {network : Network} {lookup : Lookup} {input : NetworkInput} {new : Node}
    (comes : network.newcomer? lookup input = some new) : Origin lookup input new := by
  unfold newcomer? at comes
  split at comes
  · rename_i reported context
    obtain ⟨key, requester, comes⟩ := Option.bind_eq_some_iff.mp comes
    cases recalled : (network.restored (lookup key) reported).1 with
    | none =>
      simp only [reported?, recalled, Option.none_or] at comes
      obtain ⟨kind, rfl⟩ := createdMade comes
      exact .reported kind requester
    | some node =>
      simp only [reported?, recalled, Option.some_or] at comes
      cases comes
      obtain ⟨record, kind, stored, rfl⟩ := restoredMade recalled
      exact .restored kind requester stored
  · simp only [Option.ite_none_right_eq_some] at comes
    obtain ⟨names, comes⟩ := comes
    obtain ⟨info, told, comes⟩ := Option.bind_eq_some_iff.mp comes
    obtain ⟨kind, rfl⟩ := createdMade comes
    exact .added kind _ names told
  · cases comes

theorem addressed (network : Network) {id : NodeId} {node : Node} (found : network.roster.find? id = some node)
    (asUpdate : Bool) (stimulus : Stimulus) :
    network.address id asUpdate stimulus =
      ({ network with roster := network.roster.update (node.react network.identity.nodeId stimulus).1 },
        (node.react network.identity.nodeId stimulus).2 ++
          report node (node.react network.identity.nodeId stimulus).1 asUpdate) := by
  simp only [address, found]

theorem registered (network : Network) (node : Node) :
    network.register node =
      ({ network with roster := (network.roster.insert node).1 },
        (if node.started then announce node else []) ++ (node.react network.identity.nodeId .interview).2) := by
  have found : (network.roster.insert node).1.find? node.id = some node := by simp [Roster.foundInserted]
  have silent : report node node false = [] := by simp [report]
  simp only [register, addressed { network with roster := _ } found, Node.react, Roster.updateInserted, silent,
    List.append_nil]

variable (network : Network) (lookup : Lookup)

theorem addressChange {input : NetworkInput} {id : NodeId} {stimulus : Stimulus}
    (nobodyComes : network.newcomer? lookup input = none) (nobodyLeaves : input.leaver? = none)
    (hears : input.stimulus? = some (id, stimulus)) :
    Change network lookup input (network.address id input.source?.isSome stimulus).1
      (network.address id input.source?.isSome stimulus).2 := by
  cases found : network.roster.find? id with
  | none =>
    have nobody : ∀ other told, input.stimulus? = some (other, told) → network.roster.find? other = none := by
      intro other told same
      cases hears.symm.trans same
      exact found
    simp only [address, found]
    exact .aside nobodyComes nobodyLeaves nobody (by simp [Quiet])
  | some node =>
    rw [addressed network found]
    exact .hears nobodyComes nobodyLeaves hears found

theorem arrivalChange {input : NetworkInput} {node : Node} {before later : List Effect}
    (comes : network.newcomer? lookup input = some node) (nobodyLeaves : input.leaver? = none)
    (nobodyHears : input.stimulus? = none) (quiet : Quiet before) (quietLater : Quiet later) :
    Change network lookup input (network.register node).1 (before ++ (network.register node).2 ++ later) := by
  rw [registered, ← List.append_assoc, List.append_assoc (before ++ _)]
  exact .arrives comes nobodyLeaves nobodyHears quiet ((reactInward node _ _).quiet.append quietLater)

theorem asideChange {input : NetworkInput} {effects : List Effect} (identity : Identity)
    (nobodyComes : network.newcomer? lookup input = none) (nobodyLeaves : input.leaver? = none)
    (nobodyHears : input.stimulus? = none) (quiet : Quiet effects) :
    Change network lookup input { network with identity } effects :=
  .aside nobodyComes nobodyLeaves (by simp [nobodyHears]) quiet

theorem protocolInfoChange {input : NetworkInput} {id : NodeId} {reported : ProtocolInfo}
    (comes : network.newcomer? lookup input = network.reported? lookup reported id) (nobodyLeaves : input.leaver? = none)
    (nobodyHears : input.stimulus? = none) :
    Change network lookup input (network.onProtocolInfo lookup id reported).1
      (network.onProtocolInfo lookup id reported).2 := by
  have asked : Quiet (.store (.get id) :: (network.restored (lookup id) reported).2) :=
    List.forall_mem_cons.mpr ⟨rfl, (restoredInward network _ reported).quiet⟩
  cases recalled : (network.restored (lookup id) reported).1 with
  | some node =>
    have fits : network.reported? lookup reported id = some node := by simp [reported?, recalled]
    have change := network.arrivalChange lookup (comes.trans fits) nobodyLeaves nobodyHears asked .nothing
    simpa [onProtocolInfo, recalled] using change
  | none =>
    cases created : network.catalogue.create (reported.toNodeInfo id) reported.isListening with
    | error fault =>
      have nobody : network.reported? lookup reported id = none := by simp [reported?, recalled, created, Except.toOption]
      simpa [onProtocolInfo, recalled, created] using
        network.asideChange lookup network.identity (comes.trans nobody) nobodyLeaves nobodyHears asked
    | ok made =>
      have new : network.reported? lookup reported id = some made.1 := by
        simp [reported?, recalled, created, Except.toOption]
      have change := network.arrivalChange lookup (comes.trans new) nobodyLeaves nobodyHears
        (asked.append (madeInward created).quiet) .nothing
      simpa [onProtocolInfo, recalled, created] using change

theorem includedChange {update : NetworkUpdate} (context : Option Context) (names : update.namesNode = true) :
    let including := match update.info with
      | none => (network, [])
      | some info => network.enroll info
    Change network lookup (.event (.received (.addNodeStatus update) context)) including.1 including.2 := by
  cases told : update.info with
  | none => exact network.asideChange lookup network.identity (by simp [newcomer?, told]) rfl rfl .nothing
  | some info =>
    cases created : network.catalogue.create info (!info.supports CommandClass.wakeUp) with
    | error fault =>
      have nobody : network.included? info = none := by simp [included?, created, Except.toOption]
      simpa [enroll, created] using
        network.asideChange lookup network.identity (by simp [newcomer?, told, nobody]) rfl rfl .nothing
    | ok made =>
      have new : network.included? info = some made.1 := by simp [included?, created, Except.toOption]
      have last : Quiet [.notify (.inclusion info true)] := by simp [Quiet, Effect.isNews]
      simpa [enroll, created] using
        network.arrivalChange lookup (by simp [newcomer?, names, told, new]) rfl rfl (madeInward created).quiet last

theorem addStatusChange (update : NetworkUpdate) (context : Option Context) :
    Change network lookup (.event (.received (.addNodeStatus update) context)) (network.onAddStatus update).1
      (network.onAddStatus update).2 := by
  have aside {effects : List Effect} (unnamed : update.namesNode = false) (quiet : Quiet effects) :
      Change network lookup (.event (.received (.addNodeStatus update) context)) network effects :=
    network.asideChange lookup network.identity (by simp [newcomer?, unnamed]) rfl rfl quiet
  unfold onAddStatus
  split
  case h_2 _ status => exact network.includedChange lookup context (by rw [NetworkUpdate.namesNode, status]; rfl)
  case h_3 _ status => exact network.includedChange lookup context (by rw [NetworkUpdate.namesNode, status]; rfl)
  case h_7 _ _ slave controller _ _ _ => exact aside (by simpa [NetworkUpdate.namesNode] using ⟨slave, controller⟩) .nothing
  all_goals
    rename_i status
    exact aside (by rw [NetworkUpdate.namesNode, status]; rfl) (by simp [Quiet, Effect.isNews, endInclusionRequest, ask])

theorem removeStatusChange (update : NetworkUpdate) (context : Option Context) :
    Change network lookup (.event (.received (.removeNodeStatus update) context)) (network.onRemoveStatus update).1
      (network.onRemoveStatus update).2 := by
  have aside {effects : List Effect} (unnamed : update.namesNode = false) (quiet : Quiet effects) :
      Change network lookup (.event (.received (.removeNodeStatus update) context)) network effects :=
    network.asideChange lookup network.identity rfl (by simp [NetworkInput.leaver?, unnamed]) rfl quiet
  have removed (names : update.namesNode = true) :
      Change network lookup (.event (.received (.removeNodeStatus update) context))
        { network with roster := (network.roster.remove (infoOf update).nodeId).1 }
        [.notify (.exclusion (infoOf update) true)] :=
    .leaves rfl (by simp [NetworkInput.leaver?, names]) rfl (by simp [Quiet, Effect.isNews])
  unfold onRemoveStatus
  split
  case h_2 _ status => exact removed (by rw [NetworkUpdate.namesNode, status]; rfl)
  case h_3 _ status => exact removed (by rw [NetworkUpdate.namesNode, status]; rfl)
  case h_6 _ _ slave controller _ _ => exact aside (by simpa [NetworkUpdate.namesNode] using ⟨slave, controller⟩) .nothing
  all_goals
    rename_i status
    exact aside (by rw [NetworkUpdate.namesNode, status]; rfl) (by simp [Quiet, Effect.isNews])

theorem messageChange (message : Message) (context : Option Context) :
    Change network lookup (.event (.received message context))
      (network.onMessage lookup message (context.bind Context.node)).1
      (network.onMessage lookup message (context.bind Context.node)).2 := by
  have aside {effects : List Effect} (identity : Identity)
      (nobodyComes : network.newcomer? lookup (.event (.received message context)) = none)
      (nobodyLeaves : (NetworkInput.event (.received message context)).leaver? = none)
      (nobodyHears : (NetworkInput.event (.received message context)).stimulus? = none) (quiet : Quiet effects) :
      Change network lookup (.event (.received message context)) { network with identity } effects :=
    network.asideChange lookup identity nobodyComes nobodyLeaves nobodyHears quiet
  have identified (identity : Identity) : Quiet (controllerInfo identity) := by
    unfold controllerInfo
    split <;> simp [Quiet, Effect.isNews]
  cases message with
  | version library kind => exact aside _ rfl rfl rfl (identified _)
  | memoryId homeId nodeId => exact aside _ rfl rfl rfl (identified _)
  | initData data =>
    have asks : Quiet (data.nodeIds.map fun id => ask (.protocolInfoRequest id)) := by simp [Quiet, ask, Effect.isNews]
    exact aside network.identity rfl rfl rfl asks
  | protocolInfo info =>
    cases requester : context.bind Context.node with
    | none => exact aside network.identity (by simp [newcomer?, requester]) rfl rfl .nothing
    | some id => exact network.protocolInfoChange lookup (by simp [newcomer?, requester]) rfl rfl
  | nodeCommand command => exact network.addressChange lookup rfl rfl rfl
  | nodeUpdate update =>
    cases target : update.target.or (context.bind Context.node) with
    | none =>
      simp only [onMessage, target]
      exact aside network.identity rfl rfl (by simp [NetworkInput.stimulus?, target]) .nothing
    | some id =>
      have change := @addressChange network lookup (.event (.received (.nodeUpdate update) context)) id
        (.update update) rfl rfl (by simp [NetworkInput.stimulus?, target])
      simpa [onMessage, target, NetworkInput.source?] using change
  | addNodeStatus update => exact network.addStatusChange lookup update context
  | removeNodeStatus update => exact network.removeStatusChange lookup update context
  | _ => exact aside network.identity rfl rfl rfl .nothing

theorem endedChange {event : LinkEvent} {node : Option NodeId} {request : Message} {stimulus : Stimulus}
    (nobodyComes : network.newcomer? lookup (.event event) = none)
    (nobodyLeaves : (NetworkInput.event event).leaver? = none) (noSource : (NetworkInput.event event).source? = none)
    (hears : (NetworkInput.event event).stimulus? = (NetworkInput.commanded? request node).map (·, stimulus)) :
    Change network lookup (.event event) (network.onEnded node request stimulus).1
      (network.onEnded node request stimulus).2 := by
  have same : network.onEnded node request stimulus =
      (NetworkInput.commanded? request node).elim (network, []) (network.address · false stimulus) := by
    cases request <;> cases node <;> rfl
  cases commanded : NetworkInput.commanded? request node with
  | none =>
    simp only [same, commanded]
    exact network.asideChange lookup network.identity nobodyComes nobodyLeaves (by simp [hears, commanded]) .nothing
  | some id =>
    have change := network.addressChange lookup nobodyComes nobodyLeaves (hears.trans (by rw [commanded]; rfl))
    simpa [same, commanded, noSource] using change

theorem stepChange (input : NetworkInput) :
    Change network lookup input (network.step lookup input).1 (network.step lookup input).2 := by
  cases input with
  | event event =>
    cases event with
    | started id node => exact network.asideChange lookup network.identity rfl rfl rfl .nothing
    | received message context => exact network.messageChange lookup message context
    | completed id node request => exact network.endedChange lookup rfl rfl rfl rfl
    | failed id node request why => exact network.endedChange lookup rfl rfl rfl rfl
  | _ =>
    exact network.asideChange lookup network.identity rfl rfl rfl
      (by simp [Quiet, Effect.isNews, step, ask, endInclusionRequest])

theorem Change.enters {network after : Network} {lookup : Lookup} {input : NetworkInput} {effects : List Effect}
    {node : Node} (change : Change network lookup input after effects)
    (comes : network.newcomer? lookup input = some node) : after.roster.find? node.id = some node := by
  cases change with
  | aside nobodyComes | leaves nobodyComes | hears nobodyComes => simp [nobodyComes] at comes
  | arrives same =>
    cases same.symm.trans comes
    simp [Roster.foundInserted]

end Network

end ZWaveHost
