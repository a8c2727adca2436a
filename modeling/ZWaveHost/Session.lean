import ZWaveHost.Session.Workers

/-!
A session: reader, station, line and an audience on one clock. Between two calls of the session all that can happen
without time passing has happened; time passes in `advance` alone, from deadline to deadline.
-/
namespace ZWaveHost

namespace Session

variable {α : Type}

def readLimit : Nat := 256

def read (decoder : Decoder) (now : Time) (bytes : Bytes) : Decoder × List Item :=
  if _some : bytes = [] then (decoder, [])
  else
    let (first, items) := decoder.push (bytes.take readLimit) now
    let (last, later) := read first now (bytes.drop readLimit)
    (last, items ++ later)
termination_by bytes.length
decreasing_by
  have := List.length_pos_iff.mpr _some
  simp only [List.length_drop, readLimit]
  omega

def decoderDeadline (session : Session α) : Option Time :=
  if session.reading then session.decoder.partialSince.map (· + session.receiveTimeout) else none

def receive [Audience α] (session : Session α) (bytes : Bytes) : Session α :=
  if session.reading ∧ bytes ≠ [] then
    let (decoder, items) := read session.decoder session.now bytes
    ({ session with decoder, arriving := session.arriving ++ items, decoderFirst := false }.wake .reader).settle
  else session

def endReading [Audience α] (session : Session α) (why : Fault) : Session α :=
  if session.reading then
    ({ session with reading := false, station := session.station.endReading why }.wake .station).settle
  else session

def cancel [Audience α] (session : Session α) : Session α :=
  ({ session with reading := false, station := session.station.cancel }.wake .station).settle

def request [Audience α] (session : Session α) (call : LinkCall) : Session α × Except Fault Unit :=
  match session.call? call with
  | .ok after => (after.settle, .ok ())
  | .error fault => (session, .error fault)

def stats [Audience α] (session : Session α) : Session α × Except Fault LinkStats :=
  match session.station.post .report with
  | .ok station =>
    let after := (session.posted station).settle
    (after, .ok after.station.link.handshake.stats)
  | .error fault => (session, .error fault)

def withPort (session : Session α) (port : Port) : Session α := { session with station.line.port := port }

def nextDeadline (session : Session α) : Option Time :=
  match session.station.deadline, session.decoderDeadline with
  | some a, some b => some (min a b)
  | some a, none => some a
  | none, b => b

/-- The clock stands at a deadline, which takes effect: whose time has come is woken, in the order in which the
deadlines were set. -/
def ring [Audience α] (session : Session α) (now : Time) : Session α :=
  let decoderDue := session.decoderDeadline.any (· ≤ now)
  let session := { session with now }.wakeIf (session.decoderFirst && decoderDue) .reader
  (session.wakeIf (session.station.deadline.any (· ≤ now)) .station |>.wakeIf decoderDue .reader).settle

def advanceFrom [Audience α] (session : Session α) (start target : Time) : Session α :=
  match session.nextDeadline with
  | none => { session with now := target }
  | some next =>
    if _ahead : start < next ∧ next ≤ target then (session.ring next).advanceFrom next target
    else { session with now := target }
termination_by target - start
decreasing_by exact Nat.sub_lt_sub_left (Nat.lt_of_lt_of_le _ahead.1 _ahead.2) _ahead.1

def advance [Audience α] (session : Session α) (duration : Time) : Session α :=
  session.advanceFrom session.now (session.now + duration)

def stationOutcome (session : Session α) : Except Fault Unit :=
  match session.station.state with
  | .lost _ => .error .connectionClosed
  | _ => .ok ()

def lineOutcome (session : Session α) : Except Fault Unit :=
  match session.station.line.state with
  | .failed fault => .error fault
  | _ => .ok ()

def byInstant : List (Time × Bytes) → List (Time × Bytes)
  | [] => []
  | (now, bytes) :: rest =>
    match byInstant rest with
    | [] => [(now, bytes)]
    | (next, others) :: later =>
      if now = next then (now, bytes ++ others) :: later else (now, bytes) :: (next, others) :: later

end Session

structure Transcript where
  events : List (Time × StationEvent) := []
  deriving DecidableEq, Repr

instance : Audience Transcript where
  hear transcript now event := (⟨transcript.events ++ [(now, event)]⟩, [])

end ZWaveHost
