import ZWaveHost.Wire.Decoder

/-! What a decoder keeps between two deliveries, as bytes of the stream. A delivery is a scan of the backlog and the
new bytes, so what is said of scans holds of every delivery. -/
namespace ZWaveHost

namespace Decoder

def unfinished (pending : Option Partial) : Bytes :=
  pending.elim [] fun started => Wire.sof :: started.bytes

def backlog (decoder : Decoder) : Bytes := unfinished decoder.pending

/- Nothing but more bytes settles an unfinished frame. -/
def Asks (resume : Bytes → Bool) (pending : Option Partial) : Prop :=
  ∀ started, pending = some started → verdict resume started.bytes = none

theorem unfinishedNil {pending : Option Partial} (nothing : unfinished pending = []) : pending = none := by
  cases pending with
  | none => rfl
  | some started => contradiction

theorem scanControl {byte : UInt8} {item : Item} (control : Item.ofControl? byte = some item)
    (resume : Bytes → Bool) (now : Time) (rest : Bytes) :
    scan resume now (byte :: rest) =
      { scan resume now rest with items := item :: (scan resume now rest).items } := by
  rw [scan]
  split
  · rename_i found
    cases control.symm.trans found
    rfl
  · rename_i found
    cases control.symm.trans found

theorem scanNoise {byte : UInt8} (lone : Item.ofControl? byte = none) (noise : byte ≠ Wire.sof)
    (resume : Bytes → Bool) (now : Time) (rest : Bytes) :
    scan resume now (byte :: rest) =
      { scan resume now rest with discarded := (scan resume now rest).discarded + 1 } := by
  rw [scan]
  split
  · rename_i found
    cases lone.symm.trans found
  · rw [if_neg noise]

theorem scanSettled {resume : Bytes → Bool} {bytes : Bytes} {v : Verdict} (found : verdict resume bytes = some v)
    (now : Time) :
    scan resume now (Wire.sof :: bytes) =
      { scan resume now v.rest with
        items := v.item :: (scan resume now v.rest).items
        discarded := (scan resume now v.rest).discarded + v.dropped } := by
  rw [scan]
  split
  · contradiction
  · rw [if_pos rfl]
    split
    · rename_i asked
      cases found.symm.trans asked
    · rename_i same
      cases found.symm.trans same
      rfl

theorem scanAsked {resume : Bytes → Bool} {bytes : Bytes} (asks : verdict resume bytes = none) (now : Time) :
    scan resume now (Wire.sof :: bytes) = { pending := some ⟨now, bytes⟩ } := by
  rw [scan]
  split
  · contradiction
  · rw [if_pos rfl]
    split
    · rfl
    · rename_i found
      cases asks.symm.trans found

theorem scanAsks (resume : Bytes → Bool) (now : Time) (bytes : Bytes) :
    Asks resume (scan resume now bytes).pending := by
  fun_induction scan resume now bytes with
  | case1 => exact nofun
  | case2 byte rest item control later ih => exact ih
  | case3 rest asks lone =>
    intro started same
    cases Option.some.inj same
    exact asks
  | case4 rest v found later lone ih => exact ih
  | case5 byte rest lone noise later ih => exact ih

theorem pushScans (decoder : Decoder) (bytes : Bytes) (now : Time) :
    (decoder.push bytes now).2 = (scan frameBehind now (decoder.backlog ++ bytes)).items ∧
    (decoder.push bytes now).1.discarded =
      decoder.discarded + (scan frameBehind now (decoder.backlog ++ bytes)).discarded ∧
    (decoder.push bytes now).1.backlog = unfinished (scan frameBehind now (decoder.backlog ++ bytes)).pending := by
  cases pending : decoder.pending with
  | none => simp [push, settle, backlog, unfinished, pending]
  | some started =>
    have bytes_ : decoder.backlog ++ bytes = Wire.sof :: (started.bytes ++ bytes) := by
      simp [backlog, unfinished, pending]
    cases found : verdict frameBehind (started.bytes ++ bytes) with
    | none =>
      rw [bytes_, scanAsked found]
      simp [push, pending, found, backlog, unfinished]
    | some v =>
      rw [bytes_, scanSettled found]
      simp [push, pending, found, settle, backlog, unfinished]

theorem pushAsks {decoder : Decoder} (bytes : Bytes) (now : Time) :
    Asks frameBehind (decoder.push bytes now).1.pending := by
  cases pending : decoder.pending with
  | none =>
    simp only [push, pending, settle]
    exact scanAsks frameBehind now bytes
  | some started =>
    cases found : verdict frameBehind (started.bytes ++ bytes) with
    | none =>
      simp only [push, pending, found]
      intro other same
      cases Option.some.inj same
      exact found
    | some v =>
      simp only [push, pending, found, settle]
      exact scanAsks frameBehind now v.rest

end Decoder

end ZWaveHost
