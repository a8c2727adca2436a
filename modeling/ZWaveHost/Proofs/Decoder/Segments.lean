import ZWaveHost.Proofs.Decoder.Block
import ZWaveHost.Proofs.Decoder.RoundTrip

/-! Where the bytes of a stream go. Each is part of a token, part of a block that is rejected as a whole, a start byte
that is given up, or part of the unfinished frame at the end; none is used twice, although a given up start byte lets
the bytes behind it be scanned again. -/
namespace ZWaveHost

inductive Block.Refused (block : Block) : Reject → Prop
  | damaged (wrong : block.expected ≠ block.sum) : block.Refused (.checksum block.expected block.sum)
  | alien (sound : block.expected = block.sum) (unknown : 1 < block.kind) : block.Refused (.kind block.kind)

inductive Reject.Resumes : Reject → Prop
  | short {length : UInt8} (small : length.toNat < Wire.overhead) : Resumes (.length length)
  | damaged {expected actual : UInt8} (wrong : expected ≠ actual) : Resumes (.checksum expected actual)
  | late : Resumes .incomplete

inductive Segment
  | sound (token : Token)
  | refused (block : Block) (why : Reject) (grounds : block.Refused why)
  | start (why : Reject) (resumes : why.Resumes)

namespace Segment

def bytes : Segment → Bytes
  | sound token => token.wire
  | refused block .. => block.bytes
  | start .. => [Wire.sof]

def item? : Segment → Option Item
  | sound token => token.item?
  | refused _ why _ | start why _ => some (.rejected why)

def isDropped : Segment → Bool
  | sound token => token.isNoise
  | refused .. => false
  | start .. => true

end Segment

namespace Decoder

/- Scanning cuts segments off the front of the bytes and has the last bytes still before it. -/
inductive Scans (resume : Bytes → Bool) : Bytes → List Segment → Bytes → Prop
  | here (bytes) : Scans resume bytes [] bytes
  | token {segments rest last} (token : Token) (later : Scans resume rest segments last) :
      Scans resume (token.wire ++ rest) (.sound token :: segments) last
  | alien {segments rest last} (block : Block) (sound : block.expected = block.sum) (unknown : 1 < block.kind)
      (later : Scans resume rest segments last) :
      Scans resume (block.bytes ++ rest) (.refused block _ (.alien sound unknown) :: segments) last
  | damaged {segments rest last} (block : Block) (wrong : block.expected ≠ block.sum)
      (alone : resume (block.behind ++ rest) = false) (later : Scans resume rest segments last) :
      Scans resume (block.bytes ++ rest) (.refused block _ (.damaged wrong) :: segments) last
  | resumed {segments rest last} (block : Block) (wrong : block.expected ≠ block.sum)
      (followed : resume (block.behind ++ rest) = true) (later : Scans resume (block.behind ++ rest) segments last) :
      Scans resume (block.bytes ++ rest) (.start _ (.damaged wrong) :: segments) last
  | short {segments rest last} {length : UInt8} (small : length.toNat < Wire.overhead)
      (later : Scans resume (length :: rest) segments last) :
      Scans resume (Wire.sof :: length :: rest) (.start _ (.short small) :: segments) last

def Scan.after (segments : List Segment) (later : Scan) : Scan :=
  { later with
    items := segments.filterMap Segment.item? ++ later.items
    discarded := later.discarded + segments.countP Segment.isDropped }

theorem Scans.bytes {resume bytes segments last} (scans : Scans resume bytes segments last) :
    bytes = segments.flatMap Segment.bytes ++ last := by
  induction scans with
  | here => rfl
  | token _ _ ih => rw [List.flatMap_cons, List.append_assoc, ← ih]; rfl
  | alien _ _ _ _ ih => rw [List.flatMap_cons, List.append_assoc, ← ih]; rfl
  | damaged _ _ _ _ ih => rw [List.flatMap_cons, List.append_assoc, ← ih]; rfl
  | resumed _ _ _ _ ih => rw [List.flatMap_cons, List.append_assoc, ← ih]; rfl
  | short _ _ ih => rw [List.flatMap_cons, List.append_assoc, ← ih]; rfl

theorem Scan.afterCons (segment : Segment) (segments : List Segment) (later : Scan) :
    later.after (segment :: segments) =
      { later.after segments with
        items := segment.item?.toList ++ (later.after segments).items
        discarded := (later.after segments).discarded + segment.isDropped.toNat } := by
  cases item : segment.item? <;> cases dropped : segment.isDropped <;>
    simp [after, item, dropped, Nat.add_assoc]

theorem scanWhole {resume : Bytes → Bool} {block : Block} {rest : Bytes}
    (whole : ¬ (block.expected ≠ block.sum ∧ resume (block.behind ++ rest))) (now : Time) :
    scan resume now (block.bytes ++ rest) =
      { scan resume now rest with items := block.item :: (scan resume now rest).items } := by
  have found := block.verdictBlock resume rest
  rw [if_neg whole] at found
  exact scanSettled found now

theorem scanResumed {resume : Bytes → Bool} {block : Block} {rest : Bytes} (wrong : block.expected ≠ block.sum)
    (followed : resume (block.behind ++ rest)) (now : Time) :
    scan resume now (block.bytes ++ rest) =
      { scan resume now (block.behind ++ rest) with
        items := block.item :: (scan resume now (block.behind ++ rest)).items
        discarded := (scan resume now (block.behind ++ rest)).discarded + 1 } := by
  have found := block.verdictBlock resume rest
  rw [if_pos ⟨wrong, followed⟩] at found
  exact scanSettled found now

theorem itemDamaged {block : Block} (wrong : block.expected ≠ block.sum) :
    block.item = .rejected (.checksum block.expected block.sum) := by
  simp [Block.item, wrong]

theorem itemAlien {block : Block} (sound : block.expected = block.sum) (unknown : 1 < block.kind) :
    block.item = .rejected (.kind block.kind) := by
  have none : FrameKind.ofByte? block.kind = none := by
    simp only [FrameKind.ofByte?]
    grind
  simp [Block.item, sound, none]

theorem Scans.scanned {resume bytes segments last} (scans : Scans resume bytes segments last) (now : Time) :
    scan resume now bytes = (scan resume now last).after segments := by
  induction scans with
  | here => simp [Scan.after]
  | token token _ ih =>
    rw [token.scanned, ih, Scan.afterCons]
    rfl
  | alien block sound unknown _ ih =>
    rw [scanWhole (by simp [sound]), itemAlien sound unknown, ih, Scan.afterCons]
    rfl
  | damaged block wrong alone _ ih =>
    rw [scanWhole (by simp [alone]), itemDamaged wrong, ih, Scan.afterCons]
    rfl
  | resumed block wrong followed _ ih =>
    rw [scanResumed wrong followed, itemDamaged wrong, ih, Scan.afterCons]
    rfl
  | short small _ ih =>
    rw [scanSettled (verdictSmall small resume _), ih, Scan.afterCons]
    rfl

theorem controlToken {byte : UInt8} {item : Item} (control : Item.ofControl? byte = some item) :
    ∃ token : Token, token.wire = [byte] := by
  unfold Item.ofControl? at control
  split at control
  · rename_i same
    exact ⟨.ack, by rw [same]; rfl⟩
  · split at control
    · rename_i same
      exact ⟨.nak, by rw [same]; rfl⟩
    · split at control
      · rename_i same
        exact ⟨.can, by rw [same]; rfl⟩
      · contradiction

theorem noiseToken {byte : UInt8} (lone : Item.ofControl? byte = none) (noise : byte ≠ Wire.sof) :
    ∃ token : Token, token.wire = [byte] := by
  have stray : byte ∉ [Wire.sof, Wire.ack, Wire.nak, Wire.can] := by
    simp only [Item.ofControl?] at lone
    grind
  exact ⟨.noise byte stray, rfl⟩

theorem frameToken {block : Block} {kind : FrameKind} (sound : block.expected = block.sum)
    (known : FrameKind.ofByte? block.kind = some kind) : ∃ token : Token, token.wire = block.bytes := by
  have same : block.kind = kind.toByte := by
    simp only [FrameKind.ofByte?] at known
    grind [FrameKind.toByte]
  let frame : Frame := ⟨kind, block.function, block.payload⟩
  have fits : frame.payload.length ≤ Wire.maxPayload := block.fits
  obtain ⟨length, counted, _, wire⟩ := Token.frameWire fits
  have counts : length = block.length := UInt8.toNat_inj.mp (counted.trans block.counted.symm)
  refine ⟨.frame frame fits, ?_⟩
  rw [wire, counts, Block.bytes, Block.behind, ← sound, Block.expected, Block.covered, same]
  rfl

theorem verdictCuts {resume : Bytes → Bool} {behind : Bytes} {v : Verdict} (found : verdict resume behind = some v)
    {segments last} (later : Scans resume v.rest segments last) :
    ∃ segment, Scans resume (Wire.sof :: behind) (segment :: segments) last := by
  rcases lookBehind behind with asks | ⟨length, rest, rfl, small⟩ | ⟨block, rest, rfl⟩
  · cases found.symm.trans (asks resume)
  · cases found.symm.trans (verdictSmall small resume rest)
    exact ⟨_, .short small later⟩
  · have judged := found.symm.trans (block.verdictBlock resume rest)
    by_cases sound : block.expected = block.sum
    · rw [if_neg (by simp [sound])] at judged
      cases judged
      cases known : FrameKind.ofByte? block.kind with
      | some kind =>
        obtain ⟨token, wire⟩ := frameToken sound known
        exact ⟨_, by simpa [wire, Block.bytes] using Scans.token token later⟩
      | none =>
        have unknown : 1 < block.kind := by
          simp only [FrameKind.ofByte?] at known
          grind
        exact ⟨_, .alien block sound unknown later⟩
    · cases followed : resume (block.behind ++ rest) with
      | true =>
        rw [if_pos ⟨sound, followed⟩] at judged
        cases judged
        exact ⟨_, .resumed block sound followed later⟩
      | false =>
        rw [if_neg (by simp [followed])] at judged
        cases judged
        exact ⟨_, .damaged block sound followed later⟩

theorem scanSplits (resume : Bytes → Bool) (now : Time) (bytes : Bytes) :
    ∃ segments, Scans resume bytes segments (unfinished (scan resume now bytes).pending) := by
  fun_induction scan resume now bytes with
  | case1 => exact ⟨[], .here []⟩
  | case2 byte rest item control later ih =>
    obtain ⟨segments, scans⟩ := ih
    obtain ⟨token, wire⟩ := controlToken control
    exact ⟨.sound token :: segments, by simpa [wire] using Scans.token token scans⟩
  | case3 rest asks lone => exact ⟨[], .here _⟩
  | case4 rest v found later lone ih =>
    obtain ⟨segments, scans⟩ := ih
    obtain ⟨segment, scans⟩ := verdictCuts found scans
    exact ⟨segment :: segments, scans⟩
  | case5 byte rest lone noise later ih =>
    obtain ⟨segments, scans⟩ := ih
    obtain ⟨token, wire⟩ := noiseToken lone noise
    exact ⟨.sound token :: segments, by simpa [wire] using Scans.token token scans⟩

theorem scanSince {resume : Bytes → Bool} {now : Time} {bytes : Bytes} {started : Partial}
    (pending : (scan resume now bytes).pending = some started) : started.since = now := by
  fun_induction scan resume now bytes with
  | case1 => contradiction
  | case2 byte rest item control later ih => exact ih pending
  | case3 rest asks lone =>
    cases pending
    rfl
  | case4 rest v found later lone ih => exact ih pending
  | case5 byte rest lone noise later ih => exact ih pending

theorem scanRests (resume : Bytes → Bool) (now : Time) (bytes : Bytes) :
    scan resume now (unfinished (scan resume now bytes).pending) = { pending := (scan resume now bytes).pending } := by
  cases pending : (scan resume now bytes).pending with
  | none => simp [unfinished, scan]
  | some started =>
    have asks := scanAsks resume now bytes started pending
    have since := scanSince pending
    rw [unfinished, Option.elim_some, scanAsked asks, ← since]

theorem scanAccounted (now : Time) (bytes : Bytes) :
    ∃ segments : List Segment,
      bytes = segments.flatMap Segment.bytes ++ unfinished (scan frameBehind now bytes).pending ∧
      (scan frameBehind now bytes).items = segments.filterMap Segment.item? ∧
      (scan frameBehind now bytes).discarded = segments.countP Segment.isDropped := by
  obtain ⟨segments, scans⟩ := scanSplits frameBehind now bytes
  have scanned := scans.scanned now
  rw [scanRests] at scanned
  refine ⟨segments, scans.bytes, ?_, ?_⟩
  · rw [scanned]
    exact List.append_nil _
  · rw [scanned]
    exact Nat.zero_add _

def Op.bytes : Op → Bytes
  | push bytes => bytes
  | abandon | clear => []

theorem stepAccounted (decoder : Decoder) (now : Time) {op : Op} (kept : op ≠ .clear) :
    ∃ segments : List Segment,
      decoder.backlog ++ op.bytes = segments.flatMap Segment.bytes ++ (decoder.step now op).1.backlog ∧
      (decoder.step now op).2 = segments.filterMap Segment.item? ∧
      (decoder.step now op).1.discarded = decoder.discarded + segments.countP Segment.isDropped := by
  cases op with
  | push bytes =>
    obtain ⟨segments, split, items, discarded⟩ := scanAccounted now (decoder.backlog ++ bytes)
    obtain ⟨published, counted, backlog⟩ := decoder.pushScans bytes now
    refine ⟨segments, ?_, published.trans items, ?_⟩
    · exact backlog ▸ split
    · exact discarded ▸ counted
  | abandon =>
    cases pending : decoder.pending with
    | none => exact ⟨[], by simp [Op.bytes, step, abandon, pending], by simp [step, abandon, pending],
        by simp [step, abandon, pending]⟩
    | some started =>
      obtain ⟨segments, split, items, discarded⟩ := scanAccounted now started.bytes
      refine ⟨.start .incomplete .late :: segments, ?_, ?_, ?_⟩
      · simp only [backlog, unfinished, pending, Option.elim_some, Op.bytes, List.append_nil, step, abandon, settle]
        rw [List.flatMap_cons, List.append_assoc]
        exact congrArg (Wire.sof :: ·) split
      · simp only [step, abandon, pending, settle, items]
        rfl
      · simp only [step, abandon, pending, settle, discarded]
        rw [List.countP_cons_of_pos rfl]
  | clear => contradiction

theorem runAccounted (decoder : Decoder) {history : List (Time × Op)} (kept : ∀ entry ∈ history, entry.2 ≠ .clear) :
    ∃ segments : List Segment,
      decoder.backlog ++ history.flatMap (·.2.bytes) =
        segments.flatMap Segment.bytes ++ (decoder.run history).1.backlog ∧
      (decoder.run history).2.flatten = segments.filterMap Segment.item? ∧
      (decoder.run history).1.discarded = decoder.discarded + segments.countP Segment.isDropped := by
  induction history generalizing decoder with
  | nil => exact ⟨[], by simp [run], rfl, rfl⟩
  | cons entry rest ih =>
    obtain ⟨now, op⟩ := entry
    obtain ⟨first, others⟩ := List.forall_mem_cons.mp kept
    obtain ⟨here, split, items, discarded⟩ := decoder.stepAccounted now first
    obtain ⟨later, split_, items_, discarded_⟩ := ih (decoder.step now op).1 others
    refine ⟨here ++ later, ?_, ?_, ?_⟩
    · rw [List.flatMap_cons, ← List.append_assoc, split, List.append_assoc, split_, List.flatMap_append,
        List.append_assoc]
      rfl
    · rw [List.filterMap_append, ← items, ← items_]
      rfl
    · rw [List.countP_append, ← Nat.add_assoc, ← discarded]
      exact discarded_

/-- However a stream is cut and whatever it holds, and whenever unfinished frames are given up: what was taken in is
the segments of the items and of the dropped bytes, in order, and then the unfinished frame. -/
theorem everyByteOnce (history : List (Time × Op)) (kept : ∀ entry ∈ history, entry.2 ≠ .clear) :
    (∀ (sent : Frame) fits, sent.encode = .ok (Token.frame sent fits).wire) ∧
    (∀ block : Block, block.bytes.length = block.length.toNat + 2) ∧
    let (decoder, items) := ({} : Decoder).run history
    ∃ (segments : List Segment) (waiting : Bytes),
      history.flatMap (·.2.bytes) = segments.flatMap Segment.bytes ++
        (if decoder.partialSince.isSome then [Wire.sof] else []) ++ waiting ∧
      waiting.length = decoder.size ∧
      items.flatten = segments.filterMap Segment.item? ∧
      decoder.discarded = segments.countP Segment.isDropped := by
  refine ⟨fun _ fits => ?_, fun block => by simp [Block.bytes, Block.behindLength], ?_⟩
  · obtain ⟨_, _, encoded, _⟩ := Token.frameWire fits
    exact encoded
  · obtain ⟨segments, split, items, discarded⟩ := ({} : Decoder).runAccounted kept
    refine ⟨segments, (({} : Decoder).run history).1.pending.elim [] (·.bytes), ?_, rfl, items, ?_⟩
    · rw [List.append_assoc]
      refine split.trans (congrArg _ ?_)
      cases pending : (({} : Decoder).run history).1.pending <;> simp [backlog, unfinished, partialSince, pending]
    · exact discarded.trans (Nat.zero_add _)

theorem garbageAccounted :
    let history : List (Time × Op) :=
      [(0, .push [0xFF, 0x06, 0x01, 0x02, 0x01]), (3, .push [0x03, 0x07, 0x15, 0xEE, 0x01]),
        (4, .push [0x20, 0x00, 0x15]), (1504, .abandon),
        (1600, .push [0x01, 0x03, 0x00, 0x20, 0x00, 0x01, 0x03, 0x00, 0x15, 0xE9, 0x01, 0x03, 0x00, 0x20, 0x01])]
    (∀ entry ∈ history, entry.2 ≠ .clear) ∧
    let (decoder, items) := ({} : Decoder).run history
    (decoder, items) = ({ discarded := 11 }, [[.ack, .rejected (.length 2)], [.rejected (.kind 7)], [],
      [.rejected .incomplete, .nak],
      [.rejected (.checksum 0xDC 0x00), .frame (.request FunctionId.version []), .rejected (.checksum 0xDC 0x01)]]) ∧
    ∃ (segments : List Segment) (waiting : Bytes),
      history.flatMap (·.2.bytes) = segments.flatMap Segment.bytes ++
        (if decoder.partialSince.isSome then [Wire.sof] else []) ++ waiting ∧
      waiting.length = decoder.size ∧
      items.flatten = segments.filterMap Segment.item? ∧
      decoder.discarded = segments.countP Segment.isDropped := by
  intro history
  have kept : ∀ entry ∈ history, entry.2 ≠ .clear := by decide
  exact ⟨kept, by decide +kernel, (everyByteOnce history kept).2.2⟩

end Decoder

end ZWaveHost
