import ZWaveHost.Proofs.Decoder.Damage

/-! What a damaged frame costs the frame behind it. A scan that gives up only the start byte of the damaged frame goes on in
its remains, and these can hold start bytes of their own. -/
namespace ZWaveHost.Decoder
open Wire

def Reaches (bytes last : Bytes) : Prop := ∃ segments, Scans frameBehind bytes segments last

theorem frameSegment {segment : Segment} {frame : Frame} (shows : segment.item? = some (.frame frame)) :
    ∃ fits, segment.bytes = (Token.frame frame fits).wire := by
  cases segment with
  | refused | start => simp [Segment.item?] at shows
  | sound token =>
    cases token with
    | frame own fits =>
      cases shows
      exact ⟨fits, rfl⟩
    | ack | nak | can | noise => simp [Segment.item?, Token.item?] at shows

theorem silentBytes {segments : List Segment} (silent : segments.filterMap Segment.item? = []) :
    sof ∉ segments.flatMap Segment.bytes := by
  intro start
  obtain ⟨segment, member, start⟩ := List.mem_flatMap.mp start
  have unsaid := List.filterMap_eq_nil_iff.mp silent segment member
  cases segment with
  | refused | start => simp [Segment.item?] at unsaid
  | sound token =>
    cases token with
    | noise byte stray => exact stray (List.mem_singleton.mp start ▸ List.mem_cons_self)
    | ack | nak | can | frame => simp [Segment.item?, Token.item?] at unsaid

theorem frameLast {bytes : Bytes} {now : Time} {before : List Item} {frame : Frame}
    (ends : (scan frameBehind now bytes).items = before ++ [.frame frame]) :
    ∃ fits left, sof ∉ left ∧
      Reaches bytes ((Token.frame frame fits).wire ++ left ++ unfinished (scan frameBehind now bytes).pending) := by
  obtain ⟨segments, scans⟩ := scanSplits frameBehind now bytes
  rw [scanItems scans now] at ends
  obtain ⟨head, others, rfl, -, more⟩ := List.filterMap_eq_append_iff.mp ends
  obtain ⟨noise, segment, last, rfl, -, shows, silent⟩ := List.filterMap_eq_cons_iff.mp more
  obtain ⟨fits, own⟩ := frameSegment shows
  rw [← List.append_assoc] at scans
  obtain ⟨mid, path, tail⟩ := scans.split
  have split := tail.bytes
  rw [List.flatMap_cons, own] at split
  exact ⟨fits, _, silentBytes silent, _, split ▸ path⟩

theorem startLast {before behind rest left : Bytes} (same : before ++ sof :: rest = behind ++ (sof :: rest ++ left))
    (absent : sof ∉ left) : left = [] := by
  -- Counted from the end, the last start byte of both is that of the same bytes.
  have last := congrArg (fun bytes => bytes.reverse.idxOf sof) same
  simpa [List.idxOf_append, absent, eq_comm] using last

theorem frameScan (frame : Frame) (fits) (now : Time) :
    scan frameBehind now (Token.frame frame fits).wire = { items := [.frame frame] } := by
  have scanned := (Token.frame frame fits).scanned frameBehind now []
  rw [List.append_nil] at scanned
  rw [scanned]
  simp [scan, Token.item?, Token.isNoise]

theorem reachesIff {bytes : Bytes} (before : Bytes) (now : Time) {frame : Frame} {fits}
    (whole : bytes = before ++ (Token.frame frame fits).wire) :
    Reaches bytes (Token.frame frame fits).wire ↔
      (∃ others, (scan frameBehind now bytes).items = others ++ [.frame frame]) ∧
        (scan frameBehind now bytes).pending = none := by
  constructor
  · rintro ⟨segments, scans⟩
    rw [scans.scanned now, frameScan]
    exact ⟨⟨_, rfl⟩, rfl⟩
  · rintro ⟨⟨others, ends⟩, settled⟩
    obtain ⟨fits, left, absent, segments, scans⟩ := frameLast ends
    obtain ⟨_, _, _, start⟩ := Token.frameWire fits
    rw [settled, unfinished, Option.elim_none, List.append_nil] at scans
    have split := whole.symm.trans scans.bytes
    rw [start] at split
    cases startLast split absent
    exact ⟨segments, by simpa using scans⟩

theorem restsIff (decoder : Decoder) : decoder.size = 0 ∧ decoder.partialSince = none ↔ decoder.pending = none := by
  cases pending : decoder.pending <;> simp [size, partialSince, pending]

theorem damagedBefore {block : Block} (wrong : block.expected ≠ block.sum) (next : Frame) (fits) (now : Time)
    (inside : frameBehind (block.behind ++ (Token.frame next fits).wire) →
      Reaches (block.behind ++ (Token.frame next fits).wire) (Token.frame next fits).wire) :
    (scan frameBehind now (block.bytes ++ (Token.frame next fits).wire)).items.getLast? = some (.frame next) ∧
      (scan frameBehind now (block.bytes ++ (Token.frame next fits).wire)).pending = none := by
  cases followed : frameBehind (block.behind ++ (Token.frame next fits).wire) with
  | false =>
    rw [scanWhole (by simp [followed]), frameScan]
    exact ⟨rfl, rfl⟩
  | true =>
    obtain ⟨⟨others, ends⟩, settled⟩ := (reachesIff block.behind now rfl).mp (inside followed)
    rw [scanResumed wrong followed]
    simp [ends, settled, List.getLast?_cons]

theorem damagedWaits {block : Block} (wrong : block.expected ≠ block.sum) {rest behind : Bytes} (now : Time)
    (followed : frameBehind (block.behind ++ rest)) (reaches : Reaches (block.behind ++ rest) (sof :: behind))
    (asks : verdict frameBehind behind = none) :
    (scan frameBehind now (block.bytes ++ rest)).pending = some ⟨now, behind⟩ := by
  obtain ⟨segments, scans⟩ := reaches
  rw [scanResumed wrong followed, scans.scanned now, scanAsked asks]
  rfl

/-- A frame of which one payload byte is changed is rejected first. The frame behind it is read last, and nothing is left,
unless a frame is seen behind the damaged start byte and a block that begins in the remains goes beyond them. Where such a
block asks for more bytes than there are, nothing from its start byte on is lost. -/
theorem damageConfined (sent next : Frame) (fits : sent.payload.length ≤ maxPayload)
    (fits_ : next.payload.length ≤ maxPayload) :
    ∃ wire wire_, sent.encode = .ok wire ∧ next.encode = .ok wire_ ∧
      ∀ (position : Nat) (mask : UInt8) (now : Time), 4 ≤ position → position < 4 + sent.payload.length → mask ≠ 0 →
        let damaged := garbled wire position mask
        let (decoder, items) := ({} : Decoder).push (damaged ++ wire_) now
        (∃ expected actual later, items = .rejected (.checksum expected actual) :: later) ∧
        ((frameBehind (damaged.tail ++ wire_) → Reaches (damaged.tail ++ wire_) wire_) →
          items.getLast? = some (.frame next) ∧ decoder.size = 0 ∧ decoder.partialSince = none) ∧
        ∀ between, frameBehind (damaged.tail ++ wire_) → Reaches (damaged.tail ++ wire_) (sof :: (between ++ wire_)) →
          verdict frameBehind (between ++ wire_) = none →
          decoder.backlog = sof :: (between ++ wire_) ∧ decoder.partialSince = some now := by
  obtain ⟨length, counted, encoded⟩ := frameEncoded fits
  obtain ⟨_, _, encoded_, _⟩ := Token.frameWire fits_
  refine ⟨_, _, encoded, encoded_, fun position mask now payload inside turned => ?_⟩
  have within : position < (sof :: sent.body length).length := by
    rw [List.length_cons, bodyLength, overhead]
    omega
  obtain ⟨block, same, residue⟩ := garbledBlock encoded fits (by omega) within mask
  have wrong := residueWrong residue turned
  rw [same]
  refine ⟨⟨_, _, damagedFirst wrong _ now⟩, fun inside => ?_, fun between followed reaches asks => ?_⟩
  · rw [restsIff]
    exact damagedBefore wrong next fits_ now inside
  · have waits := damagedWaits wrong now followed reaches asks
    exact ⟨congrArg unfinished waits, congrArg (Option.map Partial.since) waits⟩

theorem damagedVersionPassed :
    let sent : Frame := .request FunctionId.version [0x41, 0x02]
    let wire := [0x01, 0x05, 0x00, 0x15, 0x41, 0x02, 0xAC]
    let next : Frame := .response FunctionId.memoryId [0x01, 0x02, 0x03, 0x04, 0x01]
    let wire_ := [0x01, 0x08, 0x01, 0x20, 0x01, 0x02, 0x03, 0x04, 0x01, 0xD3]
    let (decoder, items) := ({} : Decoder).push (garbled wire 4 0x10 ++ wire_) 0
    sent.payload.length ≤ maxPayload ∧ next.payload.length ≤ maxPayload ∧
      sent.encode = .ok wire ∧ next.encode = .ok wire_ ∧
      items.getLast? = some (.frame next) ∧ decoder.size = 0 ∧ decoder.partialSince = none := by
  intro sent wire next wire_
  have fits : sent.payload.length ≤ maxPayload := by decide
  have fits_ : next.payload.length ≤ maxPayload := by decide
  have encoded : sent.encode = .ok wire := by simp only [sent, wire]; rfl
  have encoded_ : next.encode = .ok wire_ := by simp only [next, wire_]; rfl
  obtain ⟨_, _, same, same_, confined⟩ := damageConfined sent next fits fits_
  cases encoded.symm.trans same
  cases encoded_.symm.trans same_
  have reached : Reaches ((garbled wire 4 0x10).tail ++ wire_) wire_ := by
    have own : (Token.frame next fits_).wire = wire_ := by simp only [Token.wire, encoded_]; rfl
    have split : (garbled wire 4 0x10).tail ++ wire_ = (garbled wire 4 0x10).tail ++ (Token.frame next fits_).wire := by
      rw [own]
    exact own ▸ (reachesIff _ 0 split).mpr ⟨⟨[.nak], by decide +kernel⟩, by decide +kernel⟩
  obtain ⟨-, read, -⟩ := confined 4 0x10 0 (by decide) (by decide) (by decide)
  exact ⟨fits, fits_, encoded, encoded_, read fun _ => reached⟩

/- The remains hold a frame, and behind it a start byte with a length byte that counts more than there is. The next frame is
not read before this is given up. -/
theorem nextFrameWaits :
    let sent : Frame := .request FunctionId.applicationCommand
      [0x00, 0x05, 0x07, 0x01, 0x03, 0x00, 0x15, 0xE9, 0x01, 0x20]
    let next : Frame := .response FunctionId.memoryId [0x01, 0x02, 0x03, 0x04, 0x01]
    ∃ wire wire_, sent.encode = .ok wire ∧ next.encode = .ok wire_ ∧
      let (decoder, items) := ({} : Decoder).push (garbled wire 4 0x40 ++ wire_) 0
      items = [.rejected (.checksum 0x6B 0x2B), .frame (.request FunctionId.version [])] ∧
        ¬ (items.getLast? = some (.frame next) ∧ decoder.size = 0 ∧ decoder.partialSince = none) ∧
        decoder.backlog = sof :: 0x20 :: 0x2B :: wire_ ∧ decoder.partialSince = some 0 ∧
        (decoder.abandon 1500).2 = [.rejected .incomplete, .frame next] := by
  refine ⟨_, _, rfl, rfl, ?_⟩
  decide +kernel

end ZWaveHost.Decoder
