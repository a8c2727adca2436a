import ZWaveHost.Settings
import ZWaveHost.Station
import ZWaveHost.Wire.Decoder

/-!
Those who work during a session: the reader, the station, its line and the audience. They take turns in the order in
which they were woken. A worker that has spent its effort is postponed until nobody else wants a turn, or until so
many turns were taken. All turns up to the last one happen at one instant.
-/
namespace ZWaveHost

class Audience (α : Type) where
  hear : α → Time → StationEvent → α × List LinkCall

inductive Worker
  | reader
  | station
  | line
  | audience
  deriving DecidableEq, Repr

structure Session (α : Type) where
  now : Time := 0
  receiveTimeout : Time
  decoder : Decoder := {}
  arriving : List Item := []
  reading : Bool := true
  station : Station
  unheard : List StationEvent := []
  sent : List (Time × Bytes) := []
  audience : α
  /-- Of two deadlines at one instant the one that was set first comes first; whether that is the decoder's. -/
  decoderFirst : Bool := true
  queue : List Worker := [.line, .reader, .station, .audience]
  postponed : List Worker := []
  awaitsItem : Bool := false
  awaitsOrder : Bool := false
  awaitsRoom : Bool := false

namespace Session

variable {α : Type}

def fresh (settings : Settings) (port : Port) (audience : α) : Session α where
  receiveTimeout := settings.receiveTimeout.toNat
  station := Station.fresh settings.timing settings.queueCapacity.toNat settings.writerCapacity.toNat port
  audience

def wake (session : Session α) (worker : Worker) : Session α :=
  if worker ∈ session.queue then session else { session with queue := session.queue ++ [worker] }

def wakeIf (session : Session α) (wanted : Bool) (worker : Worker) : Session α :=
  if wanted then session.wake worker else session

def postpone (session : Session α) (worker : Worker) : Session α :=
  { session with postponed := worker :: session.postponed }

def resume (session : Session α) : Session α :=
  session.postponed.foldl wake { session with postponed := [] }

def deliver (session : Session α) : Session α :=
  let (station, rest) := session.station.deliverAll session.arriving
  let delivered := rest.length < session.arriving.length
  { session with
    station
    arriving := if station.isRunning then rest else []
    awaitsItem := session.awaitsItem && !delivered }.wakeIf (delivered && session.awaitsItem) .station

def abandon (decoder : Decoder) (now receiveTimeout : Time) : Nat → Decoder × List Item
  | 0 => (decoder, [])
  | rounds + 1 =>
    if decoder.partialSince.any (· + receiveTimeout ≤ now) then
      let (first, items) := decoder.abandon now
      let (last, later) := abandon first now receiveTimeout rounds
      (last, items ++ later)
    else (decoder, [])

def takeOverdue (session : Session α) : Session α :=
  if session.reading then
    let (decoder, items) := abandon session.decoder session.now session.receiveTimeout (session.decoder.size + 1)
    { session with decoder, arriving := items }.deliver
  else session

def readerTurn (session : Session α) : Session α :=
  let after := session.deliver
  if after.arriving = [] then after.takeOverdue else after

def absorb (session : Session α) (turn : Turn) : Session α :=
  { session with
    station := turn.station
    unheard := session.unheard ++ turn.events
    sent := session.sent ++ turn.pieces.map (session.now, ·) }

def effortLimit : Nat := 128

def lookAround (session : Session α) : Session α :=
  let station := session.station
  let free := station.unreleased.isEmpty && station.inbox.isEmpty
  { session with
    awaitsItem := session.awaitsItem || free
    awaitsOrder := session.awaitsOrder || (free && station.mailbox.isEmpty) }

def operate (session : Session α) (effort : Nat) : Session α × Nat :=
  if effort = 0 then (session, 0)
  else
    let turn := session.station.turn session.now effort
    let after := session.lookAround.absorb turn
    if _worked : turn.effort < effort then { after with decoderFirst := true }.operate turn.effort
    else (after, effort)
termination_by effort

def stationTurn (session : Session α) : Session α :=
  let (after, left) := session.operate effortLimit
  let ended := !after.station.isRunning
  let made := after.station.inbox.length < session.station.inbox.length
  let after := { after with awaitsRoom := 0 < left && !after.station.unreleased.isEmpty }
  let after := if left = 0 ∧ !ended then after.postpone .station else after
  after.wakeIf ((made || ended) && !after.arriving.isEmpty) .reader
    |>.wakeIf (ended || !after.station.line.waiting.isEmpty) .line
    |>.wakeIf (!after.unheard.isEmpty && !after.postponed.contains .audience) .audience

def lineTurn (session : Session α) : Session α :=
  { session.absorb session.station.write with awaitsRoom := false }.wakeIf session.awaitsRoom .station

def posted (session : Session α) (station : Station) : Session α :=
  { session with station, awaitsOrder := false }.wakeIf session.awaitsOrder .station

def call? (session : Session α) (call : LinkCall) : Except Fault (Session α) := do
  return session.posted (← session.station.call call)

def call (session : Session α) (call : LinkCall) : Session α := (session.call? call).toOption.getD session

def tell [Audience α] (session : Session α) (event : StationEvent) : Session α :=
  let (audience, calls) := Audience.hear session.audience session.now event
  calls.foldl call { session with audience }

def hearingLimit : Nat := effortLimit / 2

def audienceTurn [Audience α] (session : Session α) : Session α :=
  let heard := session.unheard.take hearingLimit
  let after := heard.foldl tell { session with unheard := session.unheard.drop hearingLimit }
  if heard.length = hearingLimit then after.postpone .audience else after

def turnOf [Audience α] (session : Session α) : Worker → Session α
  | .reader => session.readerTurn
  | .station => session.stationTurn
  | .line => session.lineTurn
  | .audience => session.audienceTurn

def patienceLimit : Nat := 61

def settleWithin [Audience α] (session : Session α) (patience : Nat) : Nat → Session α
  | 0 => session
  | turns + 1 =>
    match patience, session.queue with
    | left + 1, worker :: rest => ({ session with queue := rest }.turnOf worker).settleWithin left turns
    | _, [] =>
      if session.postponed = [] then session else session.resume.settleWithin patienceLimit turns
    | 0, _ :: _ => session.resume.settleWithin patienceLimit turns

def requestsPerItem : Nat := 2048

/-- Far more turns than one instant takes: each is for something that was delivered, taken, written or heard, and all
of that comes from items and requests. A request is written once and then so many times again, each time with an
acknowledgement and a delay that can run out, and waits for at most two replies. -/
def turnLimit (session : Session α) : Nat :=
  let items := session.arriving.length + session.station.inbox.length + session.decoder.size
  let requests := session.station.link.outbox.size + session.station.mailbox.length + requestsPerItem * items + 1
  64 * (items + requests + 1) * (session.station.link.timing.maxRetries + 4)

def settle [Audience α] (session : Session α) : Session α := session.settleWithin patienceLimit session.turnLimit

end Session

end ZWaveHost
