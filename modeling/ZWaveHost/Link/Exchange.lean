import ZWaveHost.Link.Handshake
import ZWaveHost.Message.Layout
import ZWaveHost.Text

/-!
One request from its release to its end: transmissions until it is acknowledged, then the replies its kind of
request calls for, in order.
-/
namespace ZWaveHost

inductive Failure
  | link (attempts : Nat)
  | network (txStatus : UInt8)
  | rejected
  | timeout (awaitingCallback : Bool)
  | cancelled
  deriving DecidableEq, Repr

namespace Failure

def text : Failure → String
  | link attempts => s!"no ACK from controller after {attempts} attempts"
  | network txStatus => s!"target node did not acknowledge (tx status {Text.Hex.byte txStatus})"
  | rejected => "request rejected by controller"
  | timeout false => "timed out waiting for response"
  | timeout true => "timed out waiting for callback"
  | cancelled => "cancelled"

def blamesNode : Failure → Bool
  | network _ | timeout true => true
  | _ => false

end Failure

inductive Reply
  | response (function : UInt8)
  | callback (function callbackId : UInt8)
  | nodeUpdate (nodeId : NodeId)
  deriving DecidableEq, Repr

namespace Reply

def isResponse : Reply → Bool
  | response _ => true
  | _ => false

/-- Whether a message from the controller is this reply. A failed info request answers for any node. -/
def admits : Reply → Message → Bool
  | response function, message => message.isResponse && message.function == function
  | callback function id, message =>
    !message.isResponse && message.side == .controller && message.function == function &&
      message.callbackId == some id
  | nodeUpdate nodeId, .nodeUpdate update => update.target == some nodeId || update.isRequestFailure
  | nodeUpdate _, _ => false

def plan : Message → List Reply
  | .versionRequest => [response FunctionId.version]
  | .memoryIdRequest => [response FunctionId.memoryId]
  | .initDataRequest => [response FunctionId.initData]
  | .protocolInfoRequest _ => [response FunctionId.protocolInfo]
  | .sendData _ _ _ id => [response FunctionId.sendData, callback FunctionId.sendData id]
  | .nodeInfoRequest nodeId => [response FunctionId.nodeInfo, nodeUpdate nodeId]
  | .setDefault id => [callback FunctionId.setDefault id]
  | _ => []

end Reply

inductive Phase
  /-- To be transmitted: at once, or when the retransmission is due. -/
  | created (due : Option Time)
  | sent
  | awaiting (deadline : Time)
  | completed
  | failed (why : Failure)
  deriving DecidableEq, Repr

structure Exchange where
  id : Nat
  request : Message
  phase : Phase := .created none
  retries : Nat := 0
  expected : List Reply := Reply.plan request
  deriving DecidableEq, Repr

namespace Exchange

def node (exchange : Exchange) : Option NodeId := exchange.request.target

def deadline (exchange : Exchange) : Option Time :=
  match exchange.phase with
  | .created due => due
  | .awaiting deadline => some deadline
  | _ => none

def failure (exchange : Exchange) : Option Failure :=
  match exchange.phase with
  | .failed why => some why
  | _ => none

def isTerminal (exchange : Exchange) : Bool :=
  match exchange.phase with
  | .completed | .failed _ => true
  | _ => false

def isDue (exchange : Exchange) (now : Time) : Bool :=
  match exchange.phase with
  | .created due => due.all (· ≤ now)
  | _ => false

def fail (exchange : Exchange) (why : Failure) : Exchange := { exchange with phase := .failed why }

def advance (exchange : Exchange) (timing : Timing) (now : Time) : Exchange :=
  if exchange.expected.isEmpty then { exchange with phase := .completed }
  else { exchange with phase := .awaiting (now + timing.responseTimeout) }

def onSent (exchange : Exchange) : Exchange :=
  match exchange.phase with
  | .created _ => { exchange with phase := .sent }
  | _ => exchange

def onAck (exchange : Exchange) (timing : Timing) (now : Time) : Exchange :=
  match exchange.phase with
  | .sent => exchange.advance timing now
  | _ => exchange

def onUndelivered (exchange : Exchange) (timing : Timing) (now : Time) : Exchange :=
  match exchange.phase with
  | .sent =>
    if exchange.retries < timing.maxRetries then
      let retries := exchange.retries + 1
      { exchange with phase := .created (some (now + timing.retransmitDelay retries)), retries }
    else exchange.fail (.link (exchange.retries + 1))
  | _ => exchange

/-- Whether a message is the next reply. A reply may overtake the acknowledgement. -/
def isNextReply (exchange : Exchange) (message : Message) : Bool :=
  match exchange.phase with
  | .sent | .awaiting _ => exchange.expected.head?.any (·.admits message)
  | _ => false

def reportedFailure : Message → Option Failure
  | .sendDataResponse false | .nodeInfoResponse false => some .rejected
  | .sendDataCallback _ status => if status = TxStatus.ok then none else some (.network status)
  | _ => none

def onReply (exchange : Exchange) (message : Message) (timing : Timing) (now : Time) : Exchange :=
  if exchange.isNextReply message then
    let rest := { exchange with expected := exchange.expected.tail }
    match reportedFailure message with
    | some why => rest.fail why
    | none => rest.advance timing now
  else exchange

def expire (exchange : Exchange) (now : Time) : Exchange :=
  match exchange.phase with
  | .awaiting deadline =>
    if deadline ≤ now then exchange.fail (.timeout (!exchange.expected.head?.any Reply.isResponse))
    else exchange
  | _ => exchange

def stop (exchange : Exchange) (why : Failure) : Exchange :=
  if exchange.isTerminal then exchange else exchange.fail why

inductive Op
  | sent
  | ack
  | undelivered
  | message (message : Message)
  | expire
  | refuse
  | abort
  deriving DecidableEq, Repr

def step (timing : Timing) (exchange : Exchange) (now : Time) : Op → Exchange
  | .sent => exchange.onSent
  | .ack => exchange.onAck timing now
  | .undelivered => exchange.onUndelivered timing now
  | .message message => exchange.onReply message timing now
  | .expire => exchange.expire now
  | .refuse => exchange.stop .rejected
  | .abort => exchange.stop .cancelled

def run (timing : Timing) (exchange : Exchange) (history : List (Time × Op)) : Exchange :=
  history.foldl (fun state (now, op) => state.step timing now op) exchange

end Exchange

end ZWaveHost
