import ZWaveHost.Archive.Layout
import ZWaveHost.Device.Node
import ZWaveHost.Link

/-!
The network as the host sees it: who the controller is, which nodes are registered, and what the application is told. It
consumes link events and answers with effects; the store's answer to a look-up is its only other input. Its collaborators, a
store in memory, a listener and a way to the link, carry the effects out; each of them may refuse, and a refusal stays there.
-/
namespace ZWaveHost

structure Roster where
  nodes : List Node := []
  deriving DecidableEq, Repr

namespace Roster

def ids (roster : Roster) : List NodeId := roster.nodes.map Node.id

def find? (roster : Roster) (id : NodeId) : Option Node := roster.nodes.find? (Node.id · = id)

def without (roster : Roster) (id : NodeId) : Roster := ⟨roster.nodes.filter (Node.id · ≠ id)⟩

/-- Registers a node at the end; a node with the same id is replaced and returned. -/
def insert (roster : Roster) (node : Node) : Roster × Option Node :=
  (⟨(roster.without node.id).nodes ++ [node]⟩, roster.find? node.id)

def remove (roster : Roster) (id : NodeId) : Roster × Option Node := (roster.without id, roster.find? id)

def update (roster : Roster) (node : Node) : Roster :=
  ⟨roster.nodes.map fun old => if old.id = node.id then node else old⟩

end Roster

structure Identity where
  library : Option String := none
  homeId : Option UInt32 := none
  nodeId : Option NodeId := none
  deriving DecidableEq, Repr

structure Network where
  catalogue : Catalogue := {}
  roster : Roster := {}
  identity : Identity := {}
  deriving DecidableEq, Repr

abbrev Lookup := NodeId → Except Fault (Option NodeRecord)

namespace InclusionStatus

@[match_pattern] abbrev ready : UInt8 := 1
@[match_pattern] abbrev slave : UInt8 := 3
@[match_pattern] abbrev controller : UInt8 := 4
@[match_pattern] abbrev protocolDone : UInt8 := 5
@[match_pattern] abbrev done : UInt8 := 6
@[match_pattern] abbrev failed : UInt8 := 7

end InclusionStatus

namespace InclusionMode

def any : UInt8 := 0x01 ||| 0x80

def stop : UInt8 := 0x05

end InclusionMode

inductive NetworkInput
  | connected
  | connectionLost (fault : Fault)
  | event (event : LinkEvent)
  | beginInclusion
  | endInclusion
  | beginExclusion
  | endExclusion
  | resetToDefault
  deriving DecidableEq, Repr

namespace Network

def ask (message : Message) : Effect := .link (.send message true)

def announce (node : Node) : List Effect := [.store (.save node.record), .notify (.nodeAdded node.record)]

def report (before after : Node) (asUpdate : Bool) : List Effect :=
  if !before.started && after.started then announce after
  else if asUpdate && after.started then [.notify (.nodeUpdated after.record)]
  else []

def address (network : Network) (id : NodeId) (asUpdate : Bool) (stimulus : Stimulus) :
    Network × List Effect :=
  match network.roster.find? id with
  | none => (network, [])
  | some node =>
    let (after, effects) := node.react network.identity.nodeId stimulus
    ({ network with roster := network.roster.update after }, effects ++ report node after asUpdate)

def register (network : Network) (node : Node) : Network × List Effect :=
  let registered := { network with roster := (network.roster.insert node).1 }
  let (after, effects) := registered.address node.id false .interview
  (after, (if node.started then announce node else []) ++ effects)

def restored (network : Network) (answer : Except Fault (Option NodeRecord)) (reported : ProtocolInfo) :
    Option Node × List Effect :=
  match answer with
  | .ok (some record) =>
    match network.catalogue.restore record with
    | .ok (node, effects) =>
      let same := node.describes reported
      (if same then some node else none, effects ++ node.journal (.compare node.id same))
    | .error _ => (none, [])
  | _ => (none, [])

def onProtocolInfo (network : Network) (lookup : Lookup) (id : NodeId) (reported : ProtocolInfo) :
    Network × List Effect :=
  let (recalled, before) := network.restored (lookup id) reported
  let before := .store (.get id) :: before
  match recalled with
  | some node =>
    let (after, effects) := network.register node
    (after, before ++ effects)
  | none =>
    match network.catalogue.create (reported.toNodeInfo id) reported.isListening with
    | .error _ => (network, before)
    | .ok (node, made) =>
      let (after, effects) := network.register node
      (after, before ++ made ++ effects)

/-- Told as soon as version, home id and node id are all known, and again with every further report. -/
def controllerInfo (identity : Identity) : List Effect :=
  match identity with
  | ⟨some library, some homeId, some nodeId⟩ => [.notify (.controllerInfo library homeId nodeId)]
  | _ => []

def identified (network : Network) (identity : Identity) : Network × List Effect :=
  ({ network with identity }, controllerInfo identity)

def infoOf (update : NetworkUpdate) : NodeInfo :=
  update.info.getD { nodeId := update.source, deviceClass := ⟨0, 0, 0⟩ }

def endInclusionRequest : Effect := ask (.addNode InclusionMode.stop 0)

/-- A new node listens unless it speaks the wake-up class. -/
def enroll (network : Network) (info : NodeInfo) : Network × List Effect :=
  match network.catalogue.create info (!info.supports CommandClass.wakeUp) with
  | .error _ => (network, [])
  | .ok (node, made) =>
    let (after, effects) := network.register node
    (after, made ++ effects ++ [.notify (.inclusion info true)])

def onAddStatus (network : Network) (update : NetworkUpdate) : Network × List Effect :=
  match update.status with
  | InclusionStatus.ready => (network, [.notify .inclusionStarted])
  | InclusionStatus.slave | InclusionStatus.controller =>
    match update.info with
    | none => (network, [])
    | some info => network.enroll info
  | InclusionStatus.protocolDone => (network, [endInclusionRequest])
  | InclusionStatus.done => (network, [.notify .inclusionStopped])
  | InclusionStatus.failed => (network, [.notify (.inclusion (infoOf update) false)])
  | _ => (network, [])

def onRemoveStatus (network : Network) (update : NetworkUpdate) : Network × List Effect :=
  match update.status with
  | InclusionStatus.ready => (network, [.notify .exclusionStarted])
  | InclusionStatus.slave | InclusionStatus.controller =>
    let info := infoOf update
    ({ network with roster := (network.roster.remove info.nodeId).1 }, [.notify (.exclusion info true)])
  | InclusionStatus.done => (network, [.notify .exclusionStopped])
  | InclusionStatus.failed => (network, [.notify (.exclusion (infoOf update) false)])
  | _ => (network, [])

def onMessage (network : Network) (lookup : Lookup) (message : Message) (requester : Option NodeId) :
    Network × List Effect :=
  match message with
  | .version library _ => network.identified { network.identity with library := some library }
  | .memoryId homeId nodeId =>
    network.identified { network.identity with homeId := some homeId, nodeId := some nodeId }
  | .initData data => (network, data.nodeIds.map fun id => ask (.protocolInfoRequest id))
  | .protocolInfo info =>
    match requester with
    | some id => network.onProtocolInfo lookup id info
    | none => (network, [])
  | .nodeCommand command => network.address command.source true (.command command)
  | .nodeUpdate update =>
    -- A failed info request names no node: it is for the node that was asked.
    match update.target.or requester with
    | some id => network.address id true (.update update)
    | none => (network, [])
  | .addNodeStatus update => network.onAddStatus update
  | .removeNodeStatus update => network.onRemoveStatus update
  | _ => (network, [])

def onEnded (network : Network) (node : Option NodeId) (request : Message) (stimulus : Stimulus) :
    Network × List Effect :=
  match request, node with
  | .sendData .., some id => network.address id false stimulus
  | _, _ => (network, [])

def onEvent (network : Network) (lookup : Lookup) : LinkEvent → Network × List Effect
  | .started _ _ => (network, [])
  | .completed _ node request => network.onEnded node request (.delivery true)
  | .failed _ node request why =>
    network.onEnded node request (if why.blamesNode then .delivery false else .linkFailure)
  | .received message context => network.onMessage lookup message (context.bind Context.node)

def step (network : Network) (lookup : Lookup) : NetworkInput → Network × List Effect
  | .connected => (network, [ask .versionRequest, ask .memoryIdRequest, ask .initDataRequest])
  | .connectionLost fault => (network, [.notify (.connectionFailure fault.message)])
  | .event event => network.onEvent lookup event
  | .beginInclusion => (network, [ask (.addNode InclusionMode.any 0)])
  | .endInclusion => (network, [endInclusionRequest])
  | .beginExclusion => (network, [ask (.removeNode InclusionMode.any 0)])
  | .endExclusion => (network, [ask (.removeNode InclusionMode.stop 0)])
  | .resetToDefault => (network, [ask (.setDefault 0)])

def run (network : Network) : List (Lookup × NetworkInput) → Network × List (List Effect)
  | [] => (network, [])
  | (lookup, input) :: rest =>
    let (after, effects) := network.step lookup input
    let (last, later) := after.run rest
    (last, effects :: later)

end Network

structure Refusals where
  link : Option Fault := none
  get : Option Fault := none
  save : Option Fault := none
  close : Option Fault := none
  deriving DecidableEq, Repr

structure Collaborators where
  store : Table := {}
  listener : Bool := true
  refusals : Refusals := {}
  deriving DecidableEq, Repr

namespace Collaborators

def answer (refusal : Option Fault) : Except Fault Unit :=
  match refusal with
  | some fault => .error fault
  | none => .ok ()

def lookup (world : Collaborators) : Lookup := fun id => do
  answer world.refusals.get
  return world.store.get? id

def perform (world : Collaborators) : Effect → Collaborators × Except Fault Unit
  | .link _ => (world, answer world.refusals.link)
  | .store (.get _) => (world, answer world.refusals.get)
  | .store (.save record) =>
    match world.refusals.save with
    | some fault => (world, .error fault)
    | none => ({ world with store := world.store.save record }, .ok ())
  | .store .close => (world, answer world.refusals.close)
  | .notify _ | .journal _ => (world, .ok ())

def performAll (world : Collaborators) (effects : List Effect) : Collaborators :=
  effects.foldl (fun state effect => (state.perform effect).1) world

def heard (world : Collaborators) (effects : List Effect) : List Notice :=
  if world.listener then Effect.notices effects else []

end Collaborators

structure Household where
  network : Network := {}
  world : Collaborators := {}
  deriving DecidableEq, Repr

namespace Household

def step (home : Household) (input : NetworkInput) : Household × List Effect :=
  let (network, effects) := home.network.step home.world.lookup input
  ({ home with network, world := home.world.performAll effects }, effects)

def run (home : Household) : List NetworkInput → Household × List (List Effect)
  | [] => (home, [])
  | input :: rest =>
    let (after, effects) := home.step input
    let (last, later) := after.run rest
    (last, effects :: later)

end Household

end ZWaveHost
