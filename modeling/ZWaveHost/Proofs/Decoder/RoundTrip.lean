import ZWaveHost.Proofs.Decoder.Backlog
import ZWaveHost.Proofs.Decoder.Block

/-! A stream that is sound, noise between its frames apart, is read back as it was written, wherever it is cut. The
bytes of a frame may look like start bytes and control bytes: only the length byte of the frame tells its end. -/
namespace ZWaveHost

inductive Token
  | ack
  | nak
  | can
  | frame (frame : Frame) (fits : frame.payload.length ≤ Wire.maxPayload)
  | noise (byte : UInt8) (stray : byte ∉ [Wire.sof, Wire.ack, Wire.nak, Wire.can])

namespace Token

def wire : Token → Bytes
  | ack => [Wire.ack]
  | nak => [Wire.nak]
  | can => [Wire.can]
  | .frame sent _ => sent.encode.toOption.getD []
  | noise byte _ => [byte]

def item? : Token → Option Item
  | ack => some .ack
  | nak => some .nak
  | can => some .can
  | .frame sent _ => some (.frame sent)
  | noise .. => none

def isNoise : Token → Bool
  | noise .. => true
  | _ => false

end Token

namespace Decoder

theorem frameEncoded {frame : Frame} (fits : frame.payload.length ≤ Wire.maxPayload) :
    ∃ length : UInt8, length.toNat = frame.payload.length + Wire.overhead ∧
      frame.encode = .ok (Wire.sof :: frame.body length) := by
  have small : frame.payload.length + Wire.overhead ≤ 255 := by
    simp only [Wire.maxPayload, Wire.overhead] at fits ⊢
    omega
  refine ⟨UInt8.ofNat (frame.payload.length + Wire.overhead), ?_, ?_⟩
  · rw [UInt8.toNat_ofNat']
    omega
  · simp [Frame.encode, Frame.lengthByte, small, bind, Except.bind, pure, Except.pure]

theorem bodyLength (frame : Frame) (length : UInt8) :
    (frame.body length).length = frame.payload.length + Wire.overhead + 1 := by
  simp [Frame.body, Frame.covered, Wire.overhead]

theorem frameBlock {frame : Frame} {length : UInt8} (counted : length.toNat = frame.payload.length + Wire.overhead) :
    ∃ block : Block, frame.body length = block.behind ∧ block.expected = block.sum ∧ block.item = .frame frame := by
  have fits : frame.payload.length ≤ Wire.maxPayload := by
    have small := length.toNat_lt
    simp only [Wire.maxPayload, Wire.overhead] at counted ⊢
    omega
  let block : Block :=
    ⟨frame.kind.toByte, frame.function, frame.payload, Wire.checksum (frame.covered length), fits⟩
  have counts : length = block.length := UInt8.toNat_inj.mp (counted.trans block.counted.symm)
  have covered : frame.covered length = block.covered := congrArg frame.covered counts
  have sound : block.expected = block.sum := congrArg Wire.checksum covered.symm
  refine ⟨block, congrArg (· ++ [block.sum]) covered, sound, ?_⟩
  simp [Block.item, sound, block, FrameKind.ofByteToByte]

theorem verdictFrame {frame : Frame} {length : UInt8} (counted : length.toNat = frame.payload.length + Wire.overhead)
    (resume : Bytes → Bool) (rest : Bytes) :
    verdict resume (frame.body length ++ rest) = some ⟨.frame frame, rest, 0⟩ := by
  obtain ⟨block, same, sound, shown⟩ := frameBlock counted
  rw [same, block.verdictBlock, if_neg (by simp [sound]), shown]

theorem verdictShort {frame : Frame} {length : UInt8} (counted : length.toNat = frame.payload.length + Wire.overhead)
    (resume : Bytes → Bool) {bytes more : Bytes} (cut : bytes ++ more = frame.body length) (short : more ≠ []) :
    verdict resume bytes = none := by
  obtain ⟨block, same, -, -⟩ := frameBlock counted
  exact block.verdictShort resume (cut.trans same) short

end Decoder

def deliveries (parts : List (Time × Bytes)) : List (Time × Decoder.Op) :=
  parts.map fun (now, bytes) => (now, .push bytes)

namespace Token
open Decoder

theorem frameWire {frame : Frame} (fits : frame.payload.length ≤ Wire.maxPayload) :
    ∃ length : UInt8, length.toNat = frame.payload.length + Wire.overhead ∧
      frame.encode = .ok (Token.frame frame fits).wire ∧
      (Token.frame frame fits).wire = Wire.sof :: frame.body length := by
  obtain ⟨length, counted, encoded⟩ := frameEncoded fits
  have same : (Token.frame frame fits).wire = Wire.sof :: frame.body length := by simp [wire, encoded, Except.toOption]
  exact ⟨length, counted, same ▸ encoded, same⟩

theorem scanned (token : Token) (resume : Bytes → Bool) (now : Time) (rest : Bytes) :
    scan resume now (token.wire ++ rest) =
      { scan resume now rest with
        items := token.item?.toList ++ (scan resume now rest).items
        discarded := (scan resume now rest).discarded + token.isNoise.toNat } := by
  cases token with
  | ack => exact scanControl rfl resume now rest
  | nak => exact scanControl rfl resume now rest
  | can => exact scanControl rfl resume now rest
  | frame sent fits =>
    obtain ⟨length, counted, _, same⟩ := frameWire fits
    rw [same, List.cons_append, scanSettled (verdictFrame counted resume rest)]
    rfl
  | noise byte stray =>
    have lone : Item.ofControl? byte = none := by
      simp only [List.mem_cons, List.not_mem_nil, or_false, not_or] at stray
      simp [Item.ofControl?, stray]
    exact scanNoise lone (fun same => stray (same ▸ List.mem_cons_self)) resume now rest

theorem unsettled (token : Token) (resume : Bytes → Bool) (now : Time) {bytes more : Bytes}
    (cut : bytes ++ more = token.wire) (short : more ≠ []) :
    (scan resume now bytes).items = [] ∧ (scan resume now bytes).discarded = 0 ∧
      unfinished (scan resume now bytes).pending = bytes := by
  cases bytes with
  | nil => simp [scan, unfinished]
  | cons first rest =>
    have single (byte : UInt8) (cut : first :: rest ++ more = [byte]) : False := by
      simp only [List.cons_append, List.cons.injEq, List.append_eq_nil_iff] at cut
      exact short cut.2.2
    cases token with
    | ack => exact (single _ cut).elim
    | nak => exact (single _ cut).elim
    | can => exact (single _ cut).elim
    | noise byte stray => exact (single _ cut).elim
    | frame sent fits =>
      obtain ⟨length, counted, _, same⟩ := frameWire fits
      rw [same, List.cons_append, List.cons.injEq] at cut
      obtain ⟨rfl, cut⟩ := cut
      rw [scanAsked (verdictShort counted resume cut short)]
      exact ⟨rfl, rfl, rfl⟩

theorem cutWhere {bytes more first rest : Bytes} (cut : bytes ++ more = first ++ rest) :
    (∃ missing, missing ≠ [] ∧ bytes ++ missing = first) ∨
      ∃ behind, bytes = first ++ behind ∧ behind ++ more = rest := by
  rcases List.append_eq_append_iff.mp cut with ⟨missing, whole, tail⟩ | ⟨behind, whole, tail⟩
  · by_cases complete : missing = []
    · subst complete
      exact .inr ⟨[], by simpa using whole.symm, by simpa using tail⟩
    · exact .inl ⟨missing, complete, whole.symm⟩
  · exact .inr ⟨behind, whole, tail.symm⟩

theorem scanCut {tokens : List Token} (resume : Bytes → Bool) (now : Time) {bytes more : Bytes}
    (cut : bytes ++ more = tokens.flatMap wire) :
    ∃ done left, tokens = done ++ left ∧
      unfinished (scan resume now bytes).pending ++ more = left.flatMap wire ∧
      (scan resume now bytes).items = done.filterMap item? ∧
      (scan resume now bytes).discarded = done.countP isNoise := by
  induction tokens generalizing bytes with
  | nil =>
    obtain ⟨rfl, rfl⟩ := List.append_eq_nil_iff.mp cut
    exact ⟨[], [], rfl, by simp [scan, unfinished], by simp [scan], by simp [scan]⟩
  | cons token rest ih =>
    rw [List.flatMap_cons] at cut
    rcases cutWhere cut with ⟨missing, short, whole⟩ | ⟨behind, rfl, tail⟩
    · obtain ⟨items, discarded, waits⟩ := unsettled token resume now whole short
      refine ⟨[], token :: rest, rfl, ?_, items, discarded⟩
      rw [waits, List.flatMap_cons]
      exact cut
    · obtain ⟨done, left, rfl, waits, items, discarded⟩ := ih tail
      rw [scanned]
      refine ⟨token :: done, left, rfl, waits, ?_, ?_⟩
      · rw [items]
        cases item : token.item? <;> simp [item]
      · rw [discarded]
        cases noise : token.isNoise <;> simp [noise]

theorem wireStarts (token : Token) : ∃ byte rest, token.wire = byte :: rest := by
  cases token with
  | ack => exact ⟨_, _, rfl⟩
  | nak => exact ⟨_, _, rfl⟩
  | can => exact ⟨_, _, rfl⟩
  | frame sent fits =>
    obtain ⟨length, _, _, same⟩ := frameWire fits
    exact ⟨_, _, same⟩
  | noise byte stray => exact ⟨_, _, rfl⟩

theorem shorter (token : Token) (rest : Bytes) : rest.length < (token.wire ++ rest).length := by
  obtain ⟨_, _, start⟩ := token.wireStarts
  rw [start, List.length_append]
  exact Nat.lt_add_of_pos_left (Nat.succ_pos _)

theorem wireSettles (token : Token) {bytes rest : Bytes} (start : Wire.sof :: bytes = token.wire ++ rest) :
    verdict frameBehind bytes ≠ none := by
  cases token with
  | ack => simp [wire, Wire.sof, Wire.ack] at start
  | nak => simp [wire, Wire.sof, Wire.nak] at start
  | can => simp [wire, Wire.sof, Wire.can] at start
  | frame sent fits =>
    obtain ⟨length, counted, _, same⟩ := frameWire fits
    rw [same, List.cons_append, List.cons.injEq] at start
    rw [start.2, verdictFrame counted]
    exact nofun
  | noise byte stray =>
    simp only [wire, List.cons_append, List.cons.injEq] at start
    exact absurd (start.1 ▸ List.mem_cons_self) stray

theorem nothingLeft {tokens : List Token} {pending : Option Partial} (asks : Asks frameBehind pending)
    (rest : unfinished pending = tokens.flatMap wire) : tokens = [] ∧ pending = none := by
  cases tokens with
  | nil => exact ⟨rfl, unfinishedNil rest⟩
  | cons token others =>
    rw [List.flatMap_cons] at rest
    cases pending with
    | none =>
      obtain ⟨byte, tail, same⟩ := token.wireStarts
      rw [same] at rest
      contradiction
    | some started => exact absurd (asks started rfl) (token.wireSettles rest)

theorem runReads {decoder : Decoder} {tokens : List Token} {parts : List (Time × Bytes)}
    (asks : Asks frameBehind decoder.pending)
    (cut : decoder.backlog ++ (parts.map (·.2)).flatten = tokens.flatMap wire) :
    (decoder.run (deliveries parts)).2.flatten = tokens.filterMap item? ∧
      (decoder.run (deliveries parts)).1 =
        { pending := none, discarded := decoder.discarded + tokens.countP isNoise } := by
  induction parts generalizing decoder tokens with
  | nil =>
    obtain ⟨rfl, settled⟩ := nothingLeft asks (by simpa [backlog] using cut)
    exact ⟨rfl, by simp [deliveries, run, ← settled]⟩
  | cons part rest ih =>
    obtain ⟨now, bytes⟩ := part
    simp only [List.map_cons, List.flatten_cons] at cut
    rw [← List.append_assoc] at cut
    obtain ⟨items, discarded, backlog⟩ := decoder.pushScans bytes now
    obtain ⟨done, left, rfl, waits, settled, noise⟩ := scanCut frameBehind now cut
    rw [← backlog] at waits
    obtain ⟨later, last⟩ := ih (pushAsks bytes now) waits
    simp only [deliveries, List.map_cons, run, step, List.flatten_cons] at later last ⊢
    rw [items, settled, later, last, discarded, noise, List.filterMap_append, List.countP_append, Nat.add_assoc]
    exact ⟨rfl, rfl⟩

/- However a sound stream is cut and whenever its parts arrive: its frames and control bytes are read in order and
nothing else is, noise is counted, and nothing is left over. -/
theorem soundStreamReadBack (tokens : List Token) (parts : List (Time × Bytes))
    (cut : (parts.map (·.2)).flatten = tokens.flatMap wire) :
    (∀ (sent : Frame) fits, sent.encode = .ok (Token.frame sent fits).wire) ∧
    let (decoder, items) := ({} : Decoder).run (deliveries parts)
    items.flatten = tokens.filterMap item? ∧
      decoder = { pending := none, discarded := tokens.countP isNoise } := by
  have encodes : ∀ (sent : Frame) fits, sent.encode = .ok (Token.frame sent fits).wire := fun _ fits =>
    have ⟨_, _, encoded, _⟩ := frameWire fits
    encoded
  have asks : Asks frameBehind ({} : Decoder).pending := nofun
  have whole : ({} : Decoder).backlog ++ (parts.map (·.2)).flatten = tokens.flatMap wire := cut
  obtain ⟨items, last⟩ := runReads asks whole
  exact ⟨encodes, items, by simpa using last⟩

theorem lookalikesReadBack :
    let sent : Frame := .request FunctionId.sendData [0x01, 0x06, 0x15, 0x18]
    let parts : List (Time × Bytes) :=
      [(0, [0xFF, 0x06, 0x01]), (5, [0x07, 0x00, 0x13, 0x01, 0x06]), (9, []), (9, [0x15, 0x18, 0xE1, 0x18])]
    let tokens : List Token := [.noise 0xFF (by decide), .ack, .frame sent (by decide), .can]
    let (decoder, items) := ({} : Decoder).run (deliveries parts)
    (parts.map (·.2)).flatten = tokens.flatMap wire ∧
      items.flatten = [.ack, .frame sent, .can] ∧ decoder = { pending := none, discarded := 1 } := by
  intro sent parts tokens
  have cut : (parts.map (·.2)).flatten = tokens.flatMap wire := by decide +kernel +zetaReduce
  exact ⟨cut, (soundStreamReadBack tokens parts cut).2⟩

end Token

end ZWaveHost
