import Mathlib.Data.List.Induction
import ZWaveHost.Proofs.Decoder.Confinement

/-! Where the decoder rests between two calls: between two frames with nothing kept, or behind one start byte with fewer
bytes than its length byte asks for. The instant kept with it is that of the call that came upon the start byte. Giving up
start bytes one by one always leads back to the first. -/
namespace ZWaveHost.Decoder
open Wire

def AwaitsStart (decoder : Decoder) : Prop :=
  ∀ now, decoder.push [sof] now = ({ decoder with pending := some ⟨now, []⟩ }, []) ∧
    ∀ byte item, Item.ofControl? byte = some item → decoder.push [byte] now = (decoder, [item])

/- The call scans a start byte and leaves it pending, with these bytes behind it. The start byte of a frame that was
pending before was scanned by an earlier call, so a delivery must settle that frame first. -/
inductive Opens (decoder : Decoder) (now : Time) : Op → Bytes → Prop
  | push {bytes segments behind} (scans : Scans frameBehind (decoder.backlog ++ bytes) segments (sof :: behind))
      (own : decoder.pending = none ∨ segments ≠ [])
      (rests : (decoder.push bytes now).1.backlog = sof :: behind) : Opens decoder now (.push bytes) behind
  | abandon {started segments behind} (pending : decoder.pending = some started)
      (scans : Scans frameBehind started.bytes segments (sof :: behind))
      (rests : (decoder.abandon now).1.backlog = sof :: behind) : Opens decoder now .abandon behind

def OpenedAt (history : List (Time × Op)) (since : Time) (behind : Bytes) : Prop :=
  ∃ before op first parts, history = before ++ (since, op) :: deliveries parts ∧
    Opens (({} : Decoder).run before).1 since op first ∧ behind = first ++ (parts.map (·.2)).flatten

def Short (behind : Bytes) : Prop :=
  behind = [] ∨ ∃ (length : UInt8) (rest : Bytes),
    behind = length :: rest ∧ overhead ≤ length.toNat ∧ behind.length ≤ length.toNat

theorem shortIff (resume : Bytes → Bool) (behind : Bytes) : verdict resume behind = none ↔ Short behind := by
  cases behind with
  | nil => simp [verdict, Short]
  | cons length rest =>
    by_cases small : length.toNat < overhead
    · rw [verdictSmall small]
      simp [Short, Nat.not_le_of_lt small]
    · have counted : (length :: rest).length < length.toNat + 1 ↔ (length :: rest).length ≤ length.toNat :=
        Nat.lt_succ_iff
      simp only [verdict, Short, if_neg small, counted]
      simp [Nat.le_of_not_lt small]

theorem Short.bounded {behind : Bytes} (short : Short behind) : behind.length ≤ 255 := by
  rcases short with rfl | ⟨length, rest, rfl, -, below⟩
  · exact Nat.zero_le _
  · exact Nat.le_trans below (Nat.le_of_lt_succ length.toNat_lt)

theorem awaitsIff (decoder : Decoder) : decoder.AwaitsStart ↔ decoder.pending = none := by
  constructor
  · intro awaits
    cases pending : decoder.pending with
    | none => rfl
    | some started =>
      -- A start byte behind the one that is pending is its length byte or comes later, so it opens no frame.
      have opened := (awaits 0).1
      cases found : verdict frameBehind (started.bytes ++ [sof]) with
      | none => simp [push, pending, found] at opened
      | some v => simp [push, pending, found, settle] at opened
  · intro rests now
    have settled (bytes) : decoder.push bytes now = settle decoder.discarded (scan frameBehind now bytes) := by
      simp [push, rests]
    obtain ⟨pending, discarded⟩ := decoder
    cases rests
    refine ⟨?_, fun byte item control => ?_⟩
    · rw [settled, scanAsked rfl]
      rfl
    · rw [settled, scanControl control, show scan frameBehind now [] = {} by simp [scan]]
      rfl

theorem settledAwaits (decoder : Decoder) :
    decoder.partialSince = none ↔ decoder.size = 0 ∧ decoder.AwaitsStart := by
  rw [awaitsIff]
  constructor
  · intro none
    have rests : decoder.pending = Option.none := Option.map_eq_none_iff.mp none
    exact ⟨((restsIff decoder).mpr rests).1, rests⟩
  · exact fun ⟨_, rests⟩ => ((restsIff decoder).mpr rests).2

theorem runSnoc (decoder : Decoder) (history : List (Time × Op)) (now : Time) (op : Op) :
    (decoder.run (history ++ [(now, op)])).1 = ((decoder.run history).1.step now op).1 := by
  induction history generalizing decoder with
  | nil => rfl
  | cons entry rest ih => exact ih (decoder.step entry.1 entry.2).1

theorem backlogPending {decoder : Decoder} {started : Partial} (pending : decoder.pending = some started) :
    decoder.backlog = sof :: started.bytes := by
  simp [backlog, unfinished, pending]

theorem scanPending {bytes : Bytes} {now : Time} {started : Partial}
    (pending : (scan frameBehind now bytes).pending = some started) :
    started.since = now ∧ ∃ segments, Scans frameBehind bytes segments (sof :: started.bytes) := by
  obtain ⟨segments, scans⟩ := scanSplits frameBehind now bytes
  rw [pending, unfinished, Option.elim_some] at scans
  exact ⟨scanSince pending, segments, scans⟩

theorem pushPending {decoder : Decoder} {bytes : Bytes} {now : Time} {later : Partial}
    (pending : (decoder.push bytes now).1.pending = some later) :
    (later.since = now ∧ Opens decoder now (.push bytes) later.bytes) ∨
      ∃ started, decoder.pending = some started ∧ later = ⟨started.since, started.bytes ++ bytes⟩ := by
  have rests := backlogPending pending
  cases before : decoder.pending with
  | none =>
    simp only [push, before, settle] at pending
    obtain ⟨since, segments, scans⟩ := scanPending pending
    have whole : decoder.backlog ++ bytes = bytes := by simp [backlog, unfinished, before]
    exact .inl ⟨since, .push (whole.symm ▸ scans) (.inl before) rests⟩
  | some started =>
    cases found : verdict frameBehind (started.bytes ++ bytes) with
    | none =>
      simp only [push, before, found] at pending
      exact .inr ⟨started, rfl, (Option.some.inj pending).symm⟩
    | some v =>
      simp only [push, before, found, settle] at pending
      obtain ⟨since, segments, scans⟩ := scanPending pending
      obtain ⟨segment, cut⟩ := verdictCuts found scans
      have whole : decoder.backlog ++ bytes = sof :: (started.bytes ++ bytes) := by rw [backlogPending before]; rfl
      exact .inl ⟨since, .push (whole.symm ▸ cut) (.inr (List.cons_ne_nil _ _)) rests⟩

theorem abandonPending {decoder : Decoder} {now : Time} {later : Partial}
    (pending : (decoder.abandon now).1.pending = some later) :
    later.since = now ∧ Opens decoder now .abandon later.bytes := by
  have rests := backlogPending pending
  cases before : decoder.pending with
  | none => simp [abandon, before] at pending
  | some started =>
    simp only [abandon, before, settle] at pending
    obtain ⟨since, segments, scans⟩ := scanPending pending
    exact ⟨since, .abandon before scans rests⟩

theorem OpenedAt.extended {history : List (Time × Op)} {since : Time} {behind : Bytes}
    (opened : OpenedAt history since behind) (now : Time) (bytes : Bytes) :
    OpenedAt (history ++ [(now, .push bytes)]) since (behind ++ bytes) := by
  obtain ⟨before, op, first, parts, rfl, opens, rfl⟩ := opened
  exact ⟨before, op, first, parts ++ [(now, bytes)], by simp [deliveries], opens, by simp⟩

theorem OpenedAt.last {history : List (Time × Op)} {now : Time} {op : Op} {behind : Bytes}
    (opens : Opens (({} : Decoder).run history).1 now op behind) : OpenedAt (history ++ [(now, op)]) now behind :=
  ⟨history, op, behind, [], by simp [deliveries], opens, by simp⟩

/- By induction on the history from its end: the last call opened what is pending, or only added to it. -/
theorem runOpened {history : List (Time × Op)} {started : Partial}
    (pending : (({} : Decoder).run history).1.pending = some started) :
    OpenedAt history started.since started.bytes := by
  induction history using List.reverseRecOn generalizing started with
  | nil => contradiction
  | append_singleton history entry ih =>
    obtain ⟨now, op⟩ := entry
    rw [runSnoc] at pending
    cases op with
    | push bytes =>
      rcases pushPending pending with ⟨rfl, opens⟩ | ⟨earlier, before, rfl⟩
      · exact .last opens
      · exact (ih before).extended now bytes
    | abandon =>
      obtain ⟨rfl, opens⟩ := abandonPending pending
      exact .last opens
    | clear => contradiction

theorem abandonSettles {decoder : Decoder} (rests : decoder.pending = none) (now : Time) :
    decoder.abandon now = (decoder, []) := by
  simp [abandon, rests]

theorem abandonFirst {decoder : Decoder} {started : Partial} (pending : decoder.pending = some started) (now : Time) :
    ∃ later, (decoder.abandon now).2 = .rejected .incomplete :: later := by
  simp [abandon, pending, settle]

theorem abandonShrinks {decoder : Decoder} {started : Partial} (pending : decoder.pending = some started) (now : Time) :
    (decoder.abandon now).1.backlog.length < decoder.backlog.length := by
  obtain ⟨segments, scans⟩ := scanSplits frameBehind now started.bytes
  have fewer := congrArg List.length scans.bytes
  rw [List.length_append] at fewer
  have rests : (decoder.abandon now).1.backlog = unfinished (scan frameBehind now started.bytes).pending := by
    simp [abandon, pending, settle, backlog]
  rw [rests, backlogPending pending, List.length_cons]
  omega

theorem abandonedAll {decoder : Decoder} {times : List Time} (enough : decoder.backlog.length ≤ times.length) :
    (decoder.run (times.map (·, .abandon))).1.pending = none := by
  induction times generalizing decoder with
  | nil => exact unfinishedNil (List.eq_nil_of_length_eq_zero (Nat.le_zero.mp enough))
  | cons now rest ih =>
    have fewer : (decoder.abandon now).1.backlog.length ≤ rest.length := by
      cases pending : decoder.pending with
      | none =>
        rw [abandonSettles pending]
        simp [backlog, unfinished, pending]
      | some started =>
        have shrinks := abandonShrinks pending now
        rw [List.length_cons] at enough
        omega
    exact ih fewer

theorem pushFrame {decoder : Decoder} (rests : decoder.pending = none) (frame : Frame) (fits) (now : Time) :
    decoder.push (Token.frame frame fits).wire now = (decoder, [.frame frame]) := by
  obtain ⟨pending, discarded⟩ := decoder
  cases rests
  simp [push, frameScan, settle]

theorem sizePending {decoder : Decoder} {started : Partial} (pending : decoder.pending = some started) :
    decoder.size = started.bytes.length := by
  simp [size, pending]

/-- After whatever calls: without a pending frame nothing is kept and a start byte is awaited. A pending frame is dated
with the call that scanned its start byte, whatever came since, and fewer bytes are kept than its length byte asks for.
Giving it up again and again reports each time what was given up, and after one call more than there are bytes the decoder
is empty and reads the next frame. -/
theorem alwaysRecovers (history : List (Time × Op)) :
    let decoder := (({} : Decoder).run history).1
    (decoder.partialSince = none ↔ decoder.size = 0 ∧ decoder.AwaitsStart) ∧
    (∀ since, decoder.partialSince = some since → ∃ behind, decoder.backlog = sof :: behind ∧
      decoder.size = behind.length ∧ Short behind ∧ OpenedAt history since behind) ∧
    decoder.size ≤ 255 ∧
    ∀ times : List Time,
      let reached := (decoder.run (times.map (·, .abandon))).1
      (∀ now, reached.partialSince ≠ none → ∃ later, (reached.abandon now).2 = .rejected .incomplete :: later) ∧
      (decoder.size < times.length → reached.size = 0 ∧ reached.partialSince = none ∧ reached.AwaitsStart ∧
        ∀ (frame : Frame) (now : Time), frame.payload.length ≤ maxPayload →
          ∃ wire, frame.encode = .ok wire ∧ reached.push wire now = (reached, [.frame frame])) := by
  intro decoder
  have fresh : Asks frameBehind ({} : Decoder).pending := nofun
  have asks : Asks frameBehind decoder.pending := runAsks fresh history
  have short (started) (pending : decoder.pending = some started) : Short started.bytes :=
    (shortIff frameBehind _).mp (asks started pending)
  have room : decoder.backlog.length ≤ decoder.size + 1 := by
    cases pending : decoder.pending <;> simp [backlog, unfinished, size, pending]
  refine ⟨settledAwaits decoder, fun since kept => ?_, ?_, fun times => ⟨fun now kept => ?_, fun enough => ?_⟩⟩
  · obtain ⟨started, pending, rfl⟩ := Option.map_eq_some_iff.mp kept
    exact ⟨started.bytes, backlogPending pending, sizePending pending, short started pending, runOpened pending⟩
  · cases pending : decoder.pending with
    | none => simp [size, pending]
    | some started => exact sizePending pending ▸ (short started pending).bounded
  · obtain ⟨since, there⟩ := Option.ne_none_iff_exists'.mp kept
    obtain ⟨started, pending, -⟩ := Option.map_eq_some_iff.mp there
    exact abandonFirst pending now
  · have calls : decoder.backlog.length ≤ times.length := Nat.le_trans room enough
    have rests := abandonedAll calls
    obtain ⟨empty, none⟩ := (restsIff _).mpr rests
    refine ⟨empty, none, (awaitsIff _).mpr rests, fun frame now fits => ?_⟩
    obtain ⟨_, _, encoded, _⟩ := Token.frameWire fits
    exact ⟨_, encoded, pushFrame rests frame fits now⟩

theorem stalledFramesGivenUp :
    let history : List (Time × Op) :=
      [(0, .push [0xFF, 0x01, 0x08]), (3, .push [0x01, 0x20, 0x01]), (1500, .abandon), (1510, .push [0x15])]
    let times : List Time := [3000, 4500, 6000, 7500]
    let next : Frame := .request FunctionId.version []
    let decoder := (({} : Decoder).run history).1
    let (reached, items) := decoder.run (times.map (·, .abandon))
    decoder.partialSince = some 1500 ∧ decoder.backlog = [sof, 0x20, 0x01, 0x15] ∧
      OpenedAt history 1500 [0x20, 0x01, 0x15] ∧ decoder.size < times.length ∧
      items = [[.rejected .incomplete], [.rejected .incomplete, .nak], [], []] ∧
      next.payload.length ≤ maxPayload ∧ next.encode = .ok [0x01, 0x03, 0x00, 0x15, 0xE9] ∧
      reached.push [0x01, 0x03, 0x00, 0x15, 0xE9] 8000 = (reached, [.frame next]) := by
  intro history times next decoder
  have since : decoder.partialSince = some 1500 := by decide +kernel
  have kept : decoder.backlog = [sof, 0x20, 0x01, 0x15] := by decide +kernel
  have enough : decoder.size < times.length := by decide +kernel
  obtain ⟨-, dated, -, leads⟩ := alwaysRecovers history
  obtain ⟨behind, same, -, -, opened⟩ := dated 1500 since
  cases kept.symm.trans same
  obtain ⟨-, -, -, reads⟩ := (leads times).2 enough
  obtain ⟨wire, encoded, read⟩ := reads next 8000 (by decide)
  have written : next.encode = .ok [0x01, 0x03, 0x00, 0x15, 0xE9] := by simp only [next]; rfl
  cases written.symm.trans encoded
  exact ⟨since, kept, opened, enough, by decide +kernel, by decide, encoded, read⟩

end ZWaveHost.Decoder
