import ZWaveHost.Proofs.Decoder.Segments

/-! A stream cut into parts, and the stream in one piece. Nearly all that a scan settles stays settled whatever comes
behind it. Only the look behind a damaged block sees as much as has arrived: a block that was dropped as a whole might
have given up its start byte, had the next part been there. -/
namespace ZWaveHost.Decoder

def Settled (resume : Bytes → Bool) (bytes more : Bytes) : Prop :=
  ∀ {segments : List Segment} {block : Block} {rest : Bytes}, Scans resume bytes segments (block.bytes ++ rest) →
    block.expected ≠ block.sum → resume (block.behind ++ rest ++ more) = resume (block.behind ++ rest)

/- No damaged block that the delivery comes to has a sound frame behind it that shows only with the later bytes. -/
def Foresees (decoder : Decoder) (bytes later : Bytes) : Prop :=
  ∀ (segments : List Segment) (block : Block) (rest : Bytes),
    Scans frameBehind (decoder.backlog ++ bytes) segments (block.bytes ++ rest) → block.expected ≠ block.sum →
      frameBehind (block.behind ++ rest ++ later) → frameBehind (block.behind ++ rest)

def ForeseesAll (decoder : Decoder) (now : Time) : List Bytes → Prop
  | [] => True
  | bytes :: later => decoder.Foresees bytes later.flatten ∧ (decoder.push bytes now).1.ForeseesAll now later

theorem Scans.more {resume bytes segments last} (scans : Scans resume bytes segments last) {more : Bytes}
    (settled : Settled resume bytes more) : Scans resume (bytes ++ more) segments (last ++ more) := by
  induction scans with
  | here => exact .here _
  | token token _ ih =>
    rw [List.append_assoc]
    exact .token token (ih fun path => settled (.token token path))
  | alien block sound unknown _ ih =>
    rw [List.append_assoc]
    exact .alien block sound unknown (ih fun path => settled (.alien block sound unknown path))
  | damaged block wrong alone _ ih =>
    have same := settled (.here _) wrong
    rw [alone, List.append_assoc] at same
    rw [List.append_assoc]
    exact .damaged block wrong same (ih fun path => settled (.damaged block wrong alone path))
  | resumed block wrong followed _ ih =>
    have same := settled (.here _) wrong
    rw [followed, List.append_assoc] at same
    rw [List.append_assoc] at ih ⊢
    exact .resumed block wrong same (ih fun path => settled (.resumed block wrong followed path))
  | short small _ ih => exact .short small (ih fun path => settled (.short small path))

theorem scanMore {resume : Bytes → Bool} {bytes more : Bytes} (settled : Settled resume bytes more) (now : Time) :
    ∃ segments,
      scan resume now bytes = Scan.after segments { pending := (scan resume now bytes).pending } ∧
      scan resume now (bytes ++ more) =
        (scan resume now (unfinished (scan resume now bytes).pending ++ more)).after segments := by
  obtain ⟨segments, scans⟩ := scanSplits resume now bytes
  have whole := scans.scanned now
  rw [scanRests] at whole
  exact ⟨segments, whole, (scans.more settled).scanned now⟩

theorem frameBehindKeeps {behind : Bytes} (shows : frameBehind behind) (more : Bytes) :
    frameBehind (behind ++ more) := by
  obtain ⟨segments, before, after⟩ := @scanMore (fun _ => false) behind more (fun _ _ => rfl) 0
  rw [frameBehind, before] at shows
  rw [frameBehind, after]
  simp only [Scan.after, List.any_append, List.append_nil, Bool.or_eq_true] at shows ⊢
  exact .inl shows

theorem Foresees.settled {decoder : Decoder} {bytes later : Bytes} (foresees : decoder.Foresees bytes later) :
    Settled frameBehind (decoder.backlog ++ bytes) later := by
  intro segments block rest scans wrong
  cases shows : frameBehind (block.behind ++ rest) with
  | true => exact frameBehindKeeps shows later
  | false =>
    rw [← Bool.not_eq_true]
    intro shows_
    cases shows.symm.trans (foresees segments block rest scans wrong shows_)

theorem verdictStays {resume : Bytes → Bool} {behind : Bytes} (settles : verdict resume behind ≠ none) (more : Bytes) :
    verdict resume (behind ++ more) ≠ none := by
  rcases lookBehind behind with asks | ⟨length, rest, rfl, small⟩ | ⟨block, rest, rfl⟩
  · exact absurd (asks resume) settles
  · rw [List.cons_append, verdictSmall small]
    exact Option.some_ne_none _
  · rw [List.append_assoc, block.verdictBlock]
    exact Option.some_ne_none _

theorem pushSettles {decoder : Decoder} {bytes : Bytes} (now : Time)
    (settles : ∀ started, decoder.pending = some started → verdict frameBehind (started.bytes ++ bytes) ≠ none) :
    decoder.push bytes now = settle decoder.discarded (scan frameBehind now (decoder.backlog ++ bytes)) := by
  cases pending : decoder.pending with
  | none => simp [push, pending, backlog, unfinished]
  | some started =>
    obtain ⟨v, found⟩ := Option.ne_none_iff_exists'.mp (settles started pending)
    have bytes_ : decoder.backlog ++ bytes = Wire.sof :: (started.bytes ++ bytes) := by
      simp [backlog, unfinished, pending]
    rw [bytes_, scanSettled found]
    simp only [push, pending, found]

theorem pushSameInstant {pending : Option Partial} {now : Time}
    (since : ∀ started, pending = some started → started.since = now) (discarded : Nat) (bytes : Bytes) :
    push ⟨pending, discarded⟩ bytes now = settle discarded (scan frameBehind now (unfinished pending ++ bytes)) := by
  cases pending with
  | none => rfl
  | some started =>
    cases found : verdict frameBehind (started.bytes ++ bytes) with
    | none =>
      rw [unfinished, Option.elim_some, List.cons_append, scanAsked found, ← since started rfl]
      simp [push, found, settle]
    | some v =>
      refine pushSettles now fun other same => ?_
      cases same
      simp [found]

theorem settleAfter (before : Nat) (segments : List Segment) (later : Scan) :
    settle before (later.after segments) =
      ((settle (before + segments.countP Segment.isDropped) later).1,
        segments.filterMap Segment.item? ++ (settle before later).2) := by
  simp [settle, Scan.after, Nat.add_comm, Nat.add_left_comm]

theorem pushTwice {decoder : Decoder} {bytes later : Bytes} (foresees : decoder.Foresees bytes later) (now : Time) :
    decoder.push (bytes ++ later) now =
      (((decoder.push bytes now).1.push later now).1,
        (decoder.push bytes now).2 ++ ((decoder.push bytes now).1.push later now).2) := by
  by_cases settles : ∀ started, decoder.pending = some started → verdict frameBehind (started.bytes ++ bytes) ≠ none
  · obtain ⟨segments, first, whole⟩ := scanMore foresees.settled now
    have since := fun started => @scanSince frameBehind now (decoder.backlog ++ bytes) started
    have settles_ (started) (pending : decoder.pending = some started) :
        verdict frameBehind (started.bytes ++ (bytes ++ later)) ≠ none := by
      rw [← List.append_assoc]
      exact verdictStays (settles started pending) later
    rw [pushSettles now settles, pushSettles now settles_, ← List.append_assoc, whole, settleAfter]
    generalize (scan frameBehind now (decoder.backlog ++ bytes)).pending = pending at *
    rw [first]
    simp only [settle, Scan.after]
    rw [pushSameInstant since]
    simp [settle]
  · -- The delivery only adds to the unfinished frame, whose instant stays.
    simp only [Classical.not_forall, Decidable.not_not] at settles
    obtain ⟨started, pending, asks⟩ := settles
    simp [push, pending, asks, List.append_assoc]

theorem abandonAsks (decoder : Decoder) (now : Time) : Asks frameBehind (decoder.abandon now).1.pending := by
  cases pending : decoder.pending with
  | none =>
    simp only [abandon, pending]
    intro started absent
    contradiction
  | some started =>
    simp only [abandon, pending, settle]
    exact scanAsks frameBehind now started.bytes

theorem runAsks {decoder : Decoder} (asks : Asks frameBehind decoder.pending) (history : List (Time × Op)) :
    Asks frameBehind (decoder.run history).1.pending := by
  induction history generalizing decoder with
  | nil => exact asks
  | cons entry rest ih =>
    obtain ⟨now, op⟩ := entry
    cases op with
    | push bytes => exact ih (pushAsks bytes now)
    | abandon => exact ih (decoder.abandonAsks now)
    | clear => exact ih nofun

theorem pushNothing {decoder : Decoder} (asks : Asks frameBehind decoder.pending) (now : Time) :
    decoder.push [] now = (decoder, []) := by
  obtain ⟨pending, discarded⟩ := decoder
  cases pending with
  | none => simp [push, settle, scan]
  | some started => simp [push, asks started rfl]

theorem runWhole {decoder : Decoder} (asks : Asks frameBehind decoder.pending) {now : Time} {parts : List Bytes}
    (foresees : decoder.ForeseesAll now parts) :
    ((decoder.run (deliveries (parts.map (now, ·)))).1, (decoder.run (deliveries (parts.map (now, ·)))).2.flatten) =
      decoder.push parts.flatten now := by
  induction parts generalizing decoder with
  | nil => exact (pushNothing asks now).symm
  | cons bytes later ih =>
    obtain ⟨here, rest⟩ := foresees
    rw [List.flatten_cons, pushTwice here, ← ih (pushAsks bytes now) rest]
    rfl

theorem Scans.append {resume bytes before mid later last} (head : Scans resume bytes before mid)
    (tail : Scans resume mid later last) : Scans resume bytes (before ++ later) last := by
  induction head with
  | here => exact tail
  | token token _ ih => exact .token token (ih tail)
  | alien block sound unknown _ ih => exact .alien block sound unknown (ih tail)
  | damaged block wrong alone _ ih => exact .damaged block wrong alone (ih tail)
  | resumed block wrong followed _ ih => exact .resumed block wrong followed (ih tail)
  | short small _ ih => exact .short small (ih tail)

theorem Scans.split {resume bytes last} {before later : List Segment}
    (scans : Scans resume bytes (before ++ later) last) :
    ∃ mid, Scans resume bytes before mid ∧ Scans resume mid later last := by
  induction before generalizing bytes with
  | nil => exact ⟨bytes, .here bytes, scans⟩
  | cons segment others ih =>
    cases scans with
    | token token tail => exact (ih tail).imp fun _ => .imp_left (.token token)
    | alien block sound unknown tail => exact (ih tail).imp fun _ => .imp_left (.alien block sound unknown)
    | damaged block wrong alone tail => exact (ih tail).imp fun _ => .imp_left (.damaged block wrong alone)
    | resumed block wrong followed tail => exact (ih tail).imp fun _ => .imp_left (.resumed block wrong followed)
    | short small tail => exact (ih tail).imp fun _ => .imp_left (.short small)

/- The condition is exact: a delivery foresees the later bytes just when the whole is cut into segments as it is. -/
theorem foreseesIff (decoder : Decoder) (bytes later : Bytes) (now : Time) :
    decoder.Foresees bytes later ↔
      ∀ segments, Scans frameBehind (decoder.backlog ++ bytes) segments (decoder.push bytes now).1.backlog →
        Scans frameBehind (decoder.backlog ++ bytes ++ later) segments
          ((decoder.push bytes now).1.backlog ++ later) := by
  constructor
  · intro foresees segments scans
    exact scans.more foresees.settled
  · intro alike segments block rest scans wrong shows
    cases alone : frameBehind (block.behind ++ rest) with
    | true => rfl
    | false =>
      obtain ⟨others, behind⟩ := scanSplits frameBehind now rest
      have path := scans.append (.damaged block wrong alone behind)
      have waits : unfinished (scan frameBehind now rest).pending = (decoder.push bytes now).1.backlog := by
        have scanned := path.scanned now
        rw [scanRests] at scanned
        rw [(decoder.pushScans bytes now).2.2, scanned]
        rfl
      rw [waits] at path
      obtain ⟨mid, head, tail⟩ := (alike _ path).split
      have split := head.bytes
      have mid_ : mid = block.bytes ++ rest ++ later := by
        rw [scans.bytes, List.append_assoc, List.append_assoc] at split
        rw [List.append_assoc]
        exact (List.append_cancel_left split).symm
      cases tail with
      | damaged _ _ alone_ _ =>
        rw [List.append_assoc] at mid_ shows
        rw [List.append_cancel_left mid_] at alone_
        exact alone_.symm.trans shows

theorem blockSettles {block : Block} {behind rest : Bytes} (start : Wire.sof :: behind = block.bytes ++ rest)
    (resume : Bytes → Bool) : verdict resume behind ≠ none := by
  rw [Block.bytes, List.cons_append, List.cons.injEq] at start
  rw [start.2, block.verdictBlock]
  exact Option.some_ne_none _

theorem foreseesAsking {decoder : Decoder} {bytes : Bytes} {started : Partial}
    (pending : decoder.pending = some started) (asks : verdict frameBehind (started.bytes ++ bytes) = none)
    (later : Bytes) : decoder.Foresees bytes later := by
  intro segments block rest scans _ _
  have start : decoder.backlog ++ bytes = Wire.sof :: (started.bytes ++ bytes) := by
    simp [backlog, unfinished, pending]
  rw [start] at scans
  generalize whole : Wire.sof :: (started.bytes ++ bytes) = stream, left : block.bytes ++ rest = last at scans
  cases scans with
  | here => exact absurd asks (blockSettles (whole.trans left.symm) frameBehind)
  | token token _ => exact absurd asks (token.wireSettles whole)
  | alien _ _ _ _ => exact absurd asks (blockSettles whole frameBehind)
  | damaged _ _ _ _ => exact absurd asks (blockSettles whole frameBehind)
  | resumed _ _ _ _ => exact absurd asks (blockSettles whole frameBehind)
  | short small _ =>
    rw [(List.cons.inj whole).2, verdictSmall small] at asks
    contradiction

theorem foreseesNothing (decoder : Decoder) (bytes : Bytes) : decoder.Foresees bytes [] := by
  intro segments block rest _ _ shows
  simpa using shows

/-- Where every part of a stream foresees what follows it, from whatever state and however often it is cut: the items,
the count of dropped bytes and the unfinished frame are those of the stream in one piece, and so of any other such
cut. -/
theorem cutsAgree (history : List (Time × Op)) (now : Time) {parts others : List Bytes}
    (same : parts.flatten = others.flatten)
    (foresees : (({} : Decoder).run history).1.ForeseesAll now parts)
    (foresees_ : (({} : Decoder).run history).1.ForeseesAll now others) :
    let decoder := (({} : Decoder).run history).1
    let (last, items) := decoder.run (deliveries (parts.map (now, ·)))
    let (last_, items_) := decoder.run (deliveries (others.map (now, ·)))
    decoder.push parts.flatten now = (last, items.flatten) ∧ last = last_ ∧ items.flatten = items_.flatten := by
  have fresh : Asks frameBehind ({} : Decoder).pending := nofun
  have asks := runAsks fresh history
  have whole := runWhole asks foresees
  have whole_ := runWhole asks foresees_
  rw [← same, ← whole] at whole_
  obtain ⟨last, items⟩ := Prod.mk.inj whole_
  exact ⟨whole.symm, last.symm, items.symm⟩

theorem strayStartCut :
    let history : List (Time × Op) := [(0, .push [0x15, 0x01])]
    let parts : List Bytes := [[0x06, 0x01, 0x08, 0x01, 0x20, 0x01], [0x02, 0x03, 0x04, 0x01, 0xD3]]
    let decoder := (({} : Decoder).run history).1
    decoder.ForeseesAll 5 parts ∧ decoder.ForeseesAll 5 [parts.flatten] ∧
      let (last, items) := decoder.run (deliveries (parts.map (5, ·)))
      (last, items) = ({ discarded := 1 },
        [[], [.rejected (.checksum 0xD0 0x02), .ack, .frame (.response FunctionId.memoryId [1, 2, 3, 4, 1])]]) ∧
      decoder.push parts.flatten 5 = (last, items.flatten) := by
  intro history parts decoder
  have pending : decoder.pending = some ⟨0, []⟩ := by decide +kernel
  have foresees : decoder.ForeseesAll 5 parts :=
    ⟨foreseesAsking pending (by decide +kernel) _, foreseesNothing _ _, trivial⟩
  have foresees_ : decoder.ForeseesAll 5 [parts.flatten] := ⟨foreseesNothing _ _, trivial⟩
  have agree := cutsAgree history 5 (by simp) foresees foresees_
  exact ⟨foresees, foresees_, by decide +kernel, agree.1⟩

/- The same bytes from a fresh decoder, cut one byte later: the block behind the stray start byte is complete, the frame
in it is not, and so both the lone byte and the frame are lost. -/
theorem strayStartSwallows :
    let first : Bytes := [0x01, 0x06, 0x01, 0x08, 0x01, 0x20, 0x01, 0x02]
    let second : Bytes := [0x03, 0x04, 0x01, 0xD3]
    ({} : Decoder).run (deliveries [(0, first ++ second)]) =
      ({ discarded := 1 },
        [[.rejected (.checksum 0xD0 0x02), .ack, .frame (.response FunctionId.memoryId [1, 2, 3, 4, 1])]]) ∧
    ({} : Decoder).run (deliveries [(0, first), (0, second)]) =
      ({ pending := some ⟨0, [0xD3]⟩, discarded := 2 }, [[.rejected (.checksum 0xD0 0x02)], []]) := by
  decide +kernel

end ZWaveHost.Decoder
