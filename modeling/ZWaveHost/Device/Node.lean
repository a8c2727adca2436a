import ZWaveHost.Message
import ZWaveHost.Text

/-!
A node as the host keeps it: identity, whether its interview is over, and whether it answered last time. The interview is
one request for node info; the node is started when its info arrives. What a node asks of the world around it is an effect,
and whether a call to the link or a save succeeds is not reported back. Which kind of node serves a device class is looked
up first by the exact class, then by its generic part, then in the fallback.
-/
namespace ZWaveHost

inductive LinkCall
  | send (message : Message) (listening : Bool)
  | wake (node : NodeId)
  | sleep (node : NodeId)
  deriving DecidableEq, Repr

inductive Notice
  | connectionFailure (text : String)
  | controllerInfo (library : String) (homeId : UInt32) (nodeId : NodeId)
  | inclusionStarted
  | inclusion (info : NodeInfo) (success : Bool)
  | inclusionStopped
  | exclusionStarted
  | exclusion (info : NodeInfo) (success : Bool)
  | exclusionStopped
  | nodeAdded (record : NodeRecord)
  | nodeUpdated (record : NodeRecord)
  deriving DecidableEq, Repr

inductive Deed
  | create (kind : String) (node : NodeId)
  | restore (kind : String) (node : NodeId)
  | compare (node : NodeId) (same : Bool)
  | interview (node : NodeId) (controller : Option NodeId)
  | command (node : NodeId) (command : Bytes)
  | update (node : NodeId) (status : UInt8)
  | delivery (node : NodeId) (reachable : Option Bool)
  | linkFailure (node : NodeId) (reachable : Option Bool)
  deriving DecidableEq, Repr

inductive StoreCall
  | get (node : NodeId)
  | save (record : NodeRecord)
  | close
  deriving DecidableEq, Repr

inductive Effect
  | link (call : LinkCall)
  | store (call : StoreCall)
  | notify (notice : Notice)
  | journal (deed : Deed)
  deriving DecidableEq, Repr

namespace Effect

def linkCalls (effects : List Effect) : List LinkCall :=
  effects.filterMap fun | link call => some call | _ => none

def storeCalls (effects : List Effect) : List StoreCall :=
  effects.filterMap fun | store call => some call | _ => none

def notices (effects : List Effect) : List Notice :=
  effects.filterMap fun | notify notice => some notice | _ => none

def deeds (effects : List Effect) : List Deed :=
  effects.filterMap fun | journal deed => some deed | _ => none

end Effect

structure Node where
  info : NodeInfo
  listening : Bool
  started : Bool := false
  /-- Outcome of the last command sent to the node that tells something about the node. -/
  reachable : Option Bool := none
  lastCommand : Option Bytes := none
  /-- A watched node writes down what it is asked to do, and lets itself be put to sleep. -/
  watched : Bool := false
  deriving DecidableEq, Repr

inductive Stimulus
  | interview
  | command (command : NodeCommand)
  | update (update : NodeUpdate)
  | delivery (acknowledged : Bool)
  | linkFailure
  deriving DecidableEq, Repr

namespace Node

def id (node : Node) : NodeId := node.info.nodeId

def recordKind : String := "generic"

def record (node : Node) : NodeRecord := ⟨node.info, node.listening, recordKind⟩

def ofRecord (record : NodeRecord) : Node :=
  { info := record.info, listening := record.listening, started := true }

def describes (node : Node) (reported : ProtocolInfo) : Bool :=
  node.listening == reported.isListening && node.info.deviceClass = reported.deviceClass

def journal (node : Node) (deed : Deed) : List Effect := if node.watched then [.journal deed] else []

def interview (node : Node) : List Effect :=
  if node.started then [] else [.link (.send (.nodeInfoRequest node.id) node.listening)]

def isWakeUp (command : Bytes) : Bool :=
  command[0]? = some CommandClass.wakeUp && command[1]? = some CommandClass.wakeUpNotification

def isNoMoreInformation (command : Bytes) : Bool :=
  command = [CommandClass.wakeUp, CommandClass.noMoreInformation]

def commandEffects (node : Node) (command : Bytes) : List Effect :=
  (if node.watched && isNoMoreInformation command then [.link (.sleep node.id)] else []) ++
    (if isWakeUp command then [.link (.wake node.id)] else [])

def learn (node : Node) (update : NodeUpdate) : Node :=
  if update.isNodeInfo then
    match update.info with
    | some info => { node with info.commandClasses := info.commandClasses, started := true }
    | none => node
  else node

def react (node : Node) (controller : Option NodeId) : Stimulus → Node × List Effect
  | .interview => (node, node.journal (.interview node.id controller) ++ node.interview)
  | .command command =>
    ({ node with lastCommand := some command.command },
      node.journal (.command node.id command.command) ++ node.commandEffects command.command)
  | .update update => (node.learn update, node.journal (.update node.id update.status))
  | .delivery acknowledged =>
    ({ node with reachable := some acknowledged }, node.journal (.delivery node.id (some acknowledged)))
  | .linkFailure => (node, node.journal (.linkFailure node.id node.reachable))

end Node

structure Kind where
  name : String
  watched : Bool := false
  deriving DecidableEq, Repr

def Kind.generic : Kind := { name := Node.recordKind }

inductive CreationFault
  | invalidId (node : NodeId)
  | unsupportedClass (deviceClass : DeviceClass)
  | kindMismatch (node : NodeId) (kind : String)
  deriving DecidableEq, Repr

namespace CreationFault

def classText (c : DeviceClass) : String :=
  s!"{Text.Hex.byte c.basic}/{Text.Hex.byte c.generic}/{Text.Hex.byte c.specific}"

def message : CreationFault → String
  | invalidId node => s!"invalid node id {node.toNat}"
  | unsupportedClass c => s!"no node kind for device class {classText c}"
  | kindMismatch node kind => s!"record for node {node.toNat} was written by kind '{kind}'"

end CreationFault

structure Catalogue where
  exact : List (DeviceClass × Kind) := []
  byGeneric : List (UInt8 × Kind) := []
  fallback : Option Kind := some .generic
  deriving DecidableEq, Repr

namespace Catalogue

def withClass (catalogue : Catalogue) (c : DeviceClass) (kind : Kind) : Catalogue :=
  { catalogue with exact := (c, kind) :: catalogue.exact }

def withGeneric (catalogue : Catalogue) (generic : UInt8) (kind : Kind) : Catalogue :=
  { catalogue with byGeneric := (generic, kind) :: catalogue.byGeneric }

def select (catalogue : Catalogue) (c : DeviceClass) : Option Kind :=
  (catalogue.exact.lookup c).or ((catalogue.byGeneric.lookup c.generic).or catalogue.fallback)

def kindFor (catalogue : Catalogue) (info : NodeInfo) : Except CreationFault Kind :=
  if info.nodeId = 0 || maxNodeId < info.nodeId then .error (.invalidId info.nodeId)
  else match catalogue.select info.deviceClass with
    | some kind => .ok kind
    | none => .error (.unsupportedClass info.deviceClass)

def made (kind : Kind) (node : Node) (deed : String → NodeId → Deed) : Node × List Effect :=
  let node := { node with watched := kind.watched }
  (node, node.journal (deed kind.name node.id))

def create (catalogue : Catalogue) (info : NodeInfo) (listening : Bool) :
    Except CreationFault (Node × List Effect) := do
  let kind ← catalogue.kindFor info
  return made kind { info, listening } .create

/-- A record restores only to the kind that its device class selects now. -/
def restore (catalogue : Catalogue) (record : NodeRecord) : Except CreationFault (Node × List Effect) := do
  let kind ← catalogue.kindFor record.info
  if kind.name = record.kind then return made kind (.ofRecord record) .restore
  else throw (.kindMismatch record.nodeId record.kind)

end Catalogue

end ZWaveHost
