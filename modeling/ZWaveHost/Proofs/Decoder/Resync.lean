import ZWaveHost.Proofs.Decoder.Cuts

/-! What is made of a block with a wrong checksum. The look behind its start byte drops every such block as a whole, the
scan itself looks behind each of them. So the two read the same bytes differently, and yet a start byte is given up only
where the scan goes on to a sound frame. -/
namespace ZWaveHost.Decoder

theorem scanItems {resume : Bytes → Bool} {now : Time} {bytes : Bytes} {segments : List Segment}
    (scans : Scans resume bytes segments (unfinished (scan resume now bytes).pending)) (later : Time) :
    (scan resume later bytes).items = segments.filterMap Segment.item? := by
  have silent : (scan resume later (unfinished (scan resume now bytes).pending)).items = [] := by
    cases pending : (scan resume now bytes).pending with
    | none => simp [unfinished, scan]
    | some started => rw [unfinished, Option.elim_some, scanAsked (scanAsks resume now bytes started pending)]
  rw [scans.scanned later, Scan.after, silent, List.append_nil]

theorem frameBehindIff {behind : Bytes} (now : Time) :
    frameBehind behind ↔ ∃ frame, .frame frame ∈ (scan (fun _ => false) now behind).items := by
  obtain ⟨segments, scans⟩ := scanSplits (fun _ => false) 0 behind
  rw [frameBehind, scanItems scans 0, scanItems scans now, List.any_eq_true]
  constructor
  · rintro ⟨item, found, isFrame⟩
    cases item with
    | frame frame => exact ⟨frame, found⟩
    | ack | nak | can | rejected => contradiction
  · rintro ⟨frame, found⟩
    exact ⟨.frame frame, found, rfl⟩

theorem Scans.finds {behind segments last frame} (scans : Scans (fun _ => false) behind segments last)
    (found : .frame frame ∈ segments.filterMap Segment.item?) : frameBehind behind :=
  (frameBehindIff 0).mpr ⟨frame, by rw [scans.scanned 0]; exact List.mem_append_left _ found⟩

theorem Scans.delivers {bytes segments rest frame} (scans : Scans frameBehind bytes segments rest) (now : Time)
    (found : .frame frame ∈ (scan frameBehind now rest).items) : .frame frame ∈ (scan frameBehind now bytes).items := by
  rw [scans.scanned now]
  exact List.mem_append_right _ found

/- By induction on the number of bytes: where both drop a block they go on alike, and where only the scan looks behind it,
the bytes that it goes on with are fewer and hold a frame for the look, too. -/
theorem rescanDelivers {bytes : Bytes} (finds : frameBehind bytes) (now : Time) :
    ∃ frame, .frame frame ∈ (scan frameBehind now bytes).items := by
  induction size : bytes.length using Nat.strongRecOn generalizing bytes with
  | _ length ih =>
    subst size
    obtain ⟨segments, scans⟩ := scanSplits (fun _ => false) 0 bytes
    obtain ⟨frame, found⟩ := (frameBehindIff 0).mp finds
    rw [scanItems scans 0] at found
    obtain ⟨segment, member, shows⟩ := List.mem_filterMap.mp found
    have goesOn {rest segments last} (later : Scans (fun _ => false) rest segments last)
        (fewer : rest.length < bytes.length) (member : segment ∈ segments) :
        ∃ frame, .frame frame ∈ (scan frameBehind now rest).items :=
      ih _ fewer (later.finds (List.mem_filterMap.mpr ⟨segment, member, shows⟩)) rfl
    have behind {head : Segment} {others : List Segment} (rejects : head.item? ≠ some (.frame frame))
        (member : segment ∈ head :: others) : segment ∈ others :=
      (List.mem_cons.mp member).resolve_left fun same => rejects (same ▸ shows)
    generalize unfinished _ = last at scans
    cases scans with
    | here => contradiction
    | token token later =>
      rcases List.mem_cons.mp member with rfl | member
      · rw [token.scanned]
        exact ⟨frame, List.mem_append_left _ (Option.mem_toList.mpr shows)⟩
      · exact (goesOn later (token.shorter _) member).imp fun _ => (Scans.token token (.here _)).delivers now
    | alien block sound unknown later =>
      exact (goesOn later (block.shorter _) (behind (by simp [Segment.item?]) member)).imp fun _ =>
        (Scans.alien block sound unknown (.here _)).delivers now
    | @damaged _ rest _ block wrong _ later =>
      cases followed : frameBehind (block.behind ++ rest) with
      | false =>
        exact (goesOn later (block.shorter _) (behind (by simp [Segment.item?]) member)).imp fun _ =>
          (Scans.damaged block wrong followed (.here _)).delivers now
      | true =>
        exact (ih _ (by simp [Block.bytes]) followed rfl).imp fun _ =>
          (Scans.resumed block wrong followed (.here _)).delivers now
    | resumed block wrong followed later => contradiction
    | short small later =>
      exact (goesOn later (by simp) (behind (by simp [Segment.item?]) member)).imp fun _ =>
        (Scans.short small (.here _)).delivers now

inductive Cost (now : Time) (block : Block) (rest : Bytes) : List Item → Prop
  | start (given : verdict frameBehind (block.behind ++ rest) = some ⟨block.item, block.behind ++ rest, 1⟩)
      (pays : ∃ frame, .frame frame ∈ (scan frameBehind now (block.behind ++ rest)).items) :
      Cost now block rest (scan frameBehind now (block.behind ++ rest)).items
  | whole (dropped : verdict frameBehind (block.behind ++ rest) = some ⟨block.item, rest, 0⟩)
      (alone : ∀ frame, .frame frame ∉ (scan (fun _ => false) now (block.behind ++ rest)).items) :
      Cost now block rest (scan frameBehind now rest).items

theorem scanCharged {now : Time} {stream : Bytes} {before later : List Item} {expected actual : UInt8}
    (told : (scan frameBehind now stream).items = before ++ .rejected (.checksum expected actual) :: later) :
    ∃ (segments : List Segment) (block : Block) (rest : Bytes),
      Scans frameBehind stream segments (block.bytes ++ rest) ∧ before = segments.filterMap Segment.item? ∧
      block.expected = expected ∧ block.sum = actual ∧ expected ≠ actual ∧ Cost now block rest later := by
  obtain ⟨segments, scans⟩ := scanSplits frameBehind now stream
  have waits := scanRests frameBehind now stream
  rw [scanItems scans now] at told
  obtain ⟨head, others, rfl, here, more⟩ := List.filterMap_eq_append_iff.mp told
  obtain ⟨noise, segment, last, rfl, quiet, shows, behind⟩ := List.filterMap_eq_cons_iff.mp more
  have unsaid : noise.filterMap Segment.item? = [] := List.filterMap_eq_nil_iff.mpr quiet
  have first : before = (head ++ noise).filterMap Segment.item? := by
    rw [List.filterMap_append, unsaid, List.append_nil, here]
  rw [← List.append_assoc] at scans
  obtain ⟨mid, path, tail⟩ := scans.split
  generalize unfinished _ = left at waits tail
  have goesOn {rest : Bytes} (scans : Scans frameBehind rest last left) : (scan frameBehind now rest).items = later := by
    rw [scans.scanned now, Scan.after, waits, List.append_nil, behind]
  cases tail with
  | token token tail => cases token <;> simp [Segment.item?, Token.item?] at shows
  | alien block sound unknown tail => simp [Segment.item?] at shows
  | short small tail => simp [Segment.item?] at shows
  | @damaged _ rest _ block wrong alone tail =>
    obtain ⟨rfl, rfl⟩ : block.expected = expected ∧ block.sum = actual := by simpa [Segment.item?] using shows
    have judged := block.verdictBlock frameBehind rest
    rw [if_neg (by simp [alone])] at judged
    have unseen : ∀ frame, .frame frame ∉ (scan (fun _ => false) now (block.behind ++ rest)).items := fun frame seen => by
      rw [(frameBehindIff now).mpr ⟨frame, seen⟩] at alone
      contradiction
    exact ⟨_, block, rest, path, first, rfl, rfl, wrong, goesOn tail ▸ .whole judged unseen⟩
  | @resumed _ rest _ block wrong followed tail =>
    obtain ⟨rfl, rfl⟩ : block.expected = expected ∧ block.sum = actual := by simpa [Segment.item?] using shows
    have judged := block.verdictBlock frameBehind rest
    rw [if_pos ⟨wrong, followed⟩] at judged
    exact ⟨_, block, rest, path, first, rfl, rfl, wrong, goesOn tail ▸ .start judged (rescanDelivers followed now)⟩

inductive Comes (decoder : Decoder) : Op → List Segment → Bytes → Prop
  | push {bytes segments left} (scans : Scans frameBehind (decoder.backlog ++ bytes) segments left) :
      Comes decoder (.push bytes) segments left
  | abandon {started segments left} (pending : decoder.pending = some started)
      (scans : Scans frameBehind started.bytes segments left) :
      Comes decoder .abandon (.start .incomplete .late :: segments) left

/- Whatever a decoder holds and whatever comes: a block with a wrong checksum costs its start byte alone only if the same
call goes on to deliver a frame, and is dropped as a whole only if no frame is seen behind its start byte by a decoder that
drops every such block. -/
theorem resyncPaysOff (decoder : Decoder) (now : Time) (op : Op) (before : List Item) (expected actual : UInt8)
    (later : List Item) (told : (decoder.step now op).2 = before ++ .rejected (.checksum expected actual) :: later) :
    ∃ (segments : List Segment) (block : Block) (rest : Bytes),
      decoder.Comes op segments (block.bytes ++ rest) ∧ before = segments.filterMap Segment.item? ∧
      block.expected = expected ∧ block.sum = actual ∧ expected ≠ actual ∧ Cost now block rest later := by
  cases op with
  | push bytes =>
    obtain ⟨segments, block, rest, scans, charged⟩ := scanCharged ((decoder.pushScans bytes now).1.symm.trans told)
    exact ⟨segments, block, rest, .push scans, charged⟩
  | clear => simp [step] at told
  | abandon =>
    cases pending : decoder.pending with
    | none => simp [step, abandon, pending] at told
    | some started =>
      simp only [step, abandon, pending, settle] at told
      cases before with
      | nil => simp at told
      | cons first others =>
        rw [List.cons_append, List.cons.injEq] at told
        obtain ⟨rfl, told⟩ := told
        obtain ⟨segments, block, rest, scans, same, charged⟩ := scanCharged told
        exact ⟨_, block, rest, .abandon pending scans, congrArg (_ :: ·) same, charged⟩

theorem versionBehindDamage :
    let decoder := (({} : Decoder).push [0x15, 0x01, 0x03, 0x00] 0).1
    let op : Op := .push [0x20, 0x00, 0x01, 0x03, 0x00, 0x15, 0xE9]
    let later := [.frame (.request FunctionId.version [])]
    (decoder.step 5 op).2 = .rejected (.checksum 0xDC 0x00) :: later ∧
      ∃ (segments : List Segment) (block : Block) (rest : Bytes),
        decoder.Comes op segments (block.bytes ++ rest) ∧ [] = segments.filterMap Segment.item? ∧
        block.expected = 0xDC ∧ block.sum = 0x00 ∧ (0xDC : UInt8) ≠ 0x00 ∧ Cost 5 block rest later := by
  intro decoder op later
  have told : (decoder.step 5 op).2 = [] ++ .rejected (.checksum 0xDC 0x00) :: later := by decide +kernel +zetaReduce
  exact ⟨told, resyncPaysOff decoder 5 op [] 0xDC 0x00 later told⟩

end ZWaveHost.Decoder
