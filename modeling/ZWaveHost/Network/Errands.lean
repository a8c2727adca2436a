import ZWaveHost.Network

/-!
The network at work, call by call. A call to the link or to the store is answered before the next one is made. Nothing
can be done about a refusal up here: it is written into the log, or the caller is told.
-/
namespace ZWaveHost

abbrev Refusal := List Effect → Effect → Option Fault

structure Desk where
  network : Network
  refusal : Refusal
  attempts : List Effect := []
  log : List String := []

abbrev Errand := StateM Desk

inductive Task
  | input (input : NetworkInput)
  | pass (call : LinkCall)
  | closeStore
  deriving DecidableEq, Repr

namespace Errand

def network : Errand Network := Desk.network <$> get

def become (network : Network) : Errand Unit := modify ({ · with network })

def note (effect : Effect) : Errand Unit := modify fun desk => { desk with attempts := desk.attempts ++ [effect] }

def noteAll (effects : List Effect) : Errand Unit := effects.forM note

def warn (text : String) : Errand Unit := modify fun desk => { desk with log := desk.log ++ [text] }

def call (effect : Effect) : Errand (Except Fault Unit) := do
  let desk ← get
  note effect
  match desk.refusal desk.attempts effect with
  | some fault => return .error fault
  | none => return .ok ()

def attempt (effect : Effect) (warning : Fault → String) : Errand Unit := do
  match ← call effect with
  | .ok () => return ()
  | .error fault => warn (warning fault)

def send (message : Message) : Errand Unit :=
  attempt (Network.ask message) fun fault => s!"Unable to queue {message.name}: {fault.message}"

def journal (node : Node) (deed : Deed) : Errand Unit := if node.watched then note (.journal deed) else return ()

def interview (node : Node) : Errand Unit :=
  if node.started then return ()
  else attempt (.link (.send (.nodeInfoRequest node.id) node.listening)) fun fault =>
    s!"Unable to start interview: {fault.message}"

def retire (node : Node) (command : Bytes) : Errand Unit :=
  if node.watched && Node.isNoMoreInformation command then do
    -- A watched node does not care about the answer.
    let _ ← call (.link (.sleep node.id))
    return ()
  else return ()

def rouse (node : Node) (command : Bytes) : Errand Unit :=
  if Node.isWakeUp command then
    attempt (.link (.wake node.id)) fun fault => s!"Unable to release held frames: {fault.message}"
  else return ()

def react (node : Node) : Stimulus → Errand Node
  | .interview => do
    journal node (.interview node.id (← network).identity.nodeId)
    interview node
    return node
  | .command command => do
    journal node (.command node.id command.command)
    retire node command.command
    rouse node command.command
    return { node with lastCommand := some command.command }
  | .update update => do
    journal node (.update node.id update.status)
    if update.isRequestFailure then
      warn "node info request failed"
      return node
    else return node.learn update
  | .delivery acknowledged => do
    journal node (.delivery node.id (some acknowledged))
    return { node with reachable := some acknowledged }
  | .linkFailure => do
    journal node (.linkFailure node.id node.reachable)
    return node

def announce (id : NodeId) : Errand Unit := do
  match (← network).roster.find? id with
  | none => return ()
  | some node =>
    attempt (.store (.save node.record)) fun fault => s!"Unable to save node: {fault.message}"
    note (.notify (.nodeAdded node.record))

def report (before after : Node) (asUpdate : Bool) : Errand Unit :=
  if !before.started && after.started then announce after.id
  else if asUpdate && after.started then note (.notify (.nodeUpdated after.record))
  else return ()

def address (id : NodeId) (asUpdate : Bool) (stimulus : Stimulus) : Errand Unit := do
  match (← network).roster.find? id with
  | none => warn "Unable to find node"
  | some node =>
    let after ← react node stimulus
    let state ← network
    become { state with roster := state.roster.update after }
    report node after asUpdate

def welcome (node : Node) : Errand Unit := if node.started then announce node.id else return ()

def register (node : Node) : Errand Unit := do
  let state ← network
  become { state with roster := (state.roster.insert node).1 }
  welcome node
  address node.id false .interview

def restored (lookup : Lookup) (id : NodeId) (reported : ProtocolInfo) : Errand (Option Node) := do
  note (.store (.get id))
  match lookup id with
  | .error fault =>
    warn s!"Unable to read node store: {fault.message}"
    return none
  | .ok none => return none
  | .ok (some record) =>
    match (← network).catalogue.restore record with
    | .error fault =>
      warn s!"Unable to restore node: {fault.message}"
      return none
    | .ok (node, made) =>
      noteAll made
      journal node (.compare node.id (node.describes reported))
      return if node.describes reported then some node else none

def enter (info : NodeInfo) (listening : Bool) (rest : Errand Unit) : Errand Unit := do
  match (← network).catalogue.create info listening with
  | .error fault => warn s!"Unable to create node: {fault.message}"
  | .ok (node, made) =>
    noteAll made
    register node
    rest

def onProtocolInfo (lookup : Lookup) (id : NodeId) (reported : ProtocolInfo) : Errand Unit := do
  match ← restored lookup id reported with
  | some node => register node
  | none => enter (reported.toNodeInfo id) reported.isListening (return ())

def tell (notice : Notice) : Errand Unit := note (.notify notice)

def controllerInfo (identity : Identity) : Errand Unit :=
  match identity with
  | ⟨some library, some homeId, some nodeId⟩ => tell (.controllerInfo library homeId nodeId)
  | _ => return ()

def identified (identity : Identity) : Errand Unit := do
  become { ← network with identity }
  controllerInfo identity

def endInclusion : Errand Unit := send (.addNode InclusionMode.stop 0)

def onAddStatus (update : NetworkUpdate) : Errand Unit :=
  match update.status with
  | InclusionStatus.ready => tell .inclusionStarted
  | InclusionStatus.slave | InclusionStatus.controller =>
    match update.info with
    | none => warn "inclusion status without node info"
    | some info => enter info (!info.supports CommandClass.wakeUp) (tell (.inclusion info true))
  | InclusionStatus.protocolDone => endInclusion
  | InclusionStatus.done => tell .inclusionStopped
  | InclusionStatus.failed => tell (.inclusion (Network.infoOf update) false)
  | _ => return ()

def expel (info : NodeInfo) : Errand Unit := do
  let state ← network
  become { state with roster := (state.roster.remove info.nodeId).1 }
  tell (.exclusion info true)

def onRemoveStatus (update : NetworkUpdate) : Errand Unit :=
  match update.status with
  | InclusionStatus.ready => tell .exclusionStarted
  | InclusionStatus.slave | InclusionStatus.controller =>
    expel (Network.infoOf update)
  | InclusionStatus.done => tell .exclusionStopped
  | InclusionStatus.failed => tell (.exclusion (Network.infoOf update) false)
  | _ => return ()

def onMessage (lookup : Lookup) (message : Message) (requester : Option NodeId) : Errand Unit :=
  match message with
  | .version library _ => do identified { (← network).identity with library := some library }
  | .memoryId homeId nodeId => do
    identified { (← network).identity with homeId := some homeId, nodeId := some nodeId }
  | .initData data => data.nodeIds.forM fun id => send (.protocolInfoRequest id)
  | .protocolInfo info =>
    match requester with
    | some id => onProtocolInfo lookup id info
    | none => warn "node protocol info without a requesting transaction"
  | .nodeCommand command => address command.source true (.command command)
  | .nodeUpdate update =>
    match update.target.or requester with
    | some id => address id true (.update update)
    | none => warn "Unable to determine node to route ApplicationUpdate to"
  | .addNodeStatus update => onAddStatus update
  | .removeNodeStatus update => onRemoveStatus update
  | _ => return ()

def onEnded (node : Option NodeId) (request : Message) (stimulus : Stimulus) : Errand Unit :=
  match request, node with
  | .sendData .., some id => address id false stimulus
  | _, _ => return ()

def onEvent (lookup : Lookup) : LinkEvent → Errand Unit
  | .started _ _ => return ()
  | .completed _ node request => onEnded node request (.delivery true)
  | .failed _ node request why => do
    warn s!"{request.name} failed: {why.text}"
    onEnded node request (if why.blamesNode then .delivery false else .linkFailure)
  | .received message context => onMessage lookup message (context.bind Context.node)

def step (lookup : Lookup) : NetworkInput → Errand Unit
  | .connected => [.versionRequest, .memoryIdRequest, .initDataRequest].forM send
  | .connectionLost fault => tell (.connectionFailure fault.message)
  | .event event => onEvent lookup event
  | .beginInclusion => send (.addNode InclusionMode.any 0)
  | .endInclusion => endInclusion
  | .beginExclusion => send (.removeNode InclusionMode.any 0)
  | .endExclusion => send (.removeNode InclusionMode.stop 0)
  | .resetToDefault => send (.setDefault 0)

def attend (lookup : Lookup) : Task → Errand (Except Fault Unit)
  | .input input => do
    step lookup input
    return .ok ()
  | .pass linkCall => call (.link linkCall)
  | .closeStore => call (.store .close)

def work : List (Lookup × Task) → Errand (List (Except Fault Unit))
  | [] => return []
  | (lookup, task) :: rest => do
    let answer ← attend lookup task
    let later ← work rest
    return answer :: later

end Errand

end ZWaveHost
