import ZWaveHost.Wire

/-!
Deadlines and retries of the link, and the one-byte handshake: a written frame is outstanding until a control byte, a reply
or the clock settles it. The counters of the link live here, since every byte of the link passes by.
-/
namespace ZWaveHost

structure Timing where
  ackTimeout : Time := 1600
  responseTimeout : Time := 10000
  maxRetries : Nat := 3
  retryBase : Time := 100
  retryStep : Time := 1000
  deriving DecidableEq, Repr

/-- The delay before a retransmission, the first of which is number 1. -/
def Timing.retransmitDelay (timing : Timing) (attempt : Nat) : Time :=
  timing.retryBase + timing.retryStep * (attempt - 1)

inductive Control
  | ack
  | nak
  | can
  deriving DecidableEq, Repr

inductive Undelivered
  | nak
  | can
  | ackTimeout
  deriving DecidableEq, Repr

structure LinkStats where
  framesSent : Nat := 0
  framesReceived : Nat := 0
  retransmissions : Nat := 0
  acks : Nat := 0
  naks : Nat := 0
  cans : Nat := 0
  ackTimeouts : Nat := 0
  invalidFrames : Nat := 0
  unexpectedControl : Nat := 0
  deriving DecidableEq, Repr

structure Handshake where
  deadline : Option Time := none
  stats : LinkStats := {}
  deriving DecidableEq, Repr

namespace Handshake

inductive Outcome
  | delivered
  | failed (why : Undelivered)
  | unexpected
  deriving DecidableEq, Repr

def isAwaiting (handshake : Handshake) : Bool := handshake.deadline.isSome

def sent (handshake : Handshake) (timeout now : Time) : Handshake :=
  { handshake with
    deadline := some (now + timeout)
    stats.framesSent := handshake.stats.framesSent + 1 }

def count (stats : LinkStats) : Control → LinkStats
  | .ack => { stats with acks := stats.acks + 1 }
  | .nak => { stats with naks := stats.naks + 1 }
  | .can => { stats with cans := stats.cans + 1 }

def outcome : Control → Outcome
  | .ack => .delivered
  | .nak => .failed .nak
  | .can => .failed .can

def control (handshake : Handshake) (byte : Control) : Handshake × Outcome :=
  let stats := count handshake.stats byte
  match handshake.deadline with
  | none => (⟨none, { stats with unexpectedControl := stats.unexpectedControl + 1 }⟩, .unexpected)
  | some _ => (⟨none, stats⟩, outcome byte)

def isLate (handshake : Handshake) (now : Time) : Bool := handshake.deadline.any (· ≤ now)

def expire (handshake : Handshake) (now : Time) : Handshake × Option Undelivered :=
  if handshake.isLate now then
    ({ handshake with
        deadline := none
        stats.ackTimeouts := handshake.stats.ackTimeouts + 1 }, some .ackTimeout)
  else (handshake, none)

def settle (handshake : Handshake) : Handshake := { handshake with deadline := none }

def countReceived (handshake : Handshake) : Handshake :=
  { handshake with stats.framesReceived := handshake.stats.framesReceived + 1 }

def countInvalid (handshake : Handshake) : Handshake :=
  { handshake with stats.invalidFrames := handshake.stats.invalidFrames + 1 }

def countRetransmission (handshake : Handshake) : Handshake :=
  { handshake with stats.retransmissions := handshake.stats.retransmissions + 1 }

end Handshake

end ZWaveHost
