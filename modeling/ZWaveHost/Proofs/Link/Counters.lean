import ZWaveHost.Proofs.Link.Answers
import ZWaveHost.Proofs.Link.Release
import ZWaveHost.Proofs.Link.Timers

/-! The counters of a link against its calls and its outputs. Every transmission is counted once when it is written
and once when it is settled, unless a reply or the end of the link settles it without a count. -/
namespace ZWaveHost

def Item.isRejected : Item → Bool
  | rejected _ => true
  | _ => false

def Control.item : Control → Item
  | ack => .ack
  | nak => .nak
  | can => .can

def LinkStats.controls (stats : LinkStats) : Nat := stats.acks + stats.naks + stats.cans

namespace Output

def isRequest : Output → Bool
  | .write bytes => bytes ≠ [Wire.ack] ∧ bytes ≠ [Wire.nak]
  | .event _ => false

def isStart : Output → Bool
  | .event (.started ..) => true
  | _ => false

def isRefusal : Output → Bool
  | .event (.failed _ _ request .rejected) => !request.encode.isOk
  | _ => false

def IsUncounted (output : Output) : Prop :=
  output.isRequest = false ∧ output.isStart = false ∧ output.isRefusal = false

end Output

namespace Link
open Transcript

/- The call ends the wait for an acknowledgement, but not with an outcome: a reply proves the delivery, or nothing
matters any more. -/
def waives (link : Link) (op : Op) : Bool :=
  link.handshake.isAwaiting && match op with
    | .inbound (.frame frame) => (link.addressee (.ofFrame frame .controller)).isSome
    | .abort => true
    | _ => false

def waivers (link : Link) : List (Time × Op) → Nat
  | [] => 0
  | (now, op) :: rest => (link.waives op).toNat + (link.step now op).1.waivers rest

theorem asideUncounted {output : Output} (aside : output.IsAside) : output.IsUncounted := by
  unfold Output.IsAside at aside
  split at aside
  · rcases aside with rfl | rfl <;> simp [Output.IsUncounted, Output.isRequest, Output.isStart, Output.isRefusal]
  · exact ⟨rfl, rfl, rfl⟩
  · contradiction

theorem endingUncounted {exchange : Exchange} {bytes} (encoded : exchange.request.encode = .ok bytes) :
    (Output.event (ending exchange)).IsUncounted := by
  unfold ending
  split
  · exact ⟨rfl, rfl, rfl⟩
  · rename_i why _
    refine ⟨rfl, rfl, ?_⟩
    cases why <;> simp [Output.isRefusal, encoded, Except.isOk, Except.toBool]

theorem concludeUncounted {link : Link}
    (encodes : ∀ exchange, link.active = some exchange → ∃ bytes, exchange.request.encode = .ok bytes) :
    ∀ output ∈ link.conclude.2, output.IsUncounted := by
  unfold conclude
  split
  · rename_i exchange active
    obtain ⟨bytes, encoded⟩ := encodes exchange active
    split
    · simpa using endingUncounted encoded
    · simp
  · simp

theorem stepUncounted {link : Link} (sound : link.Sound) (now : Time) {op : Op} (other : op ≠ .transmit) :
    ∀ output ∈ (link.step now op).2, output.IsUncounted := by
  have call := stepCall sound now op
  generalize (link.step now op).1 = after at call
  generalize (link.step now op).2 = outputs at call ⊢
  cases call with
  | aside _ _ _ stray => exact fun output member => asideUncounted (strayAside (stray output member))
  | turned outbox active turns settled =>
    obtain ⟨answer, later, rfl, aside, changes⟩ := turns.changes
    obtain ⟨bytes, encoded⟩ := (sound.underway _ active).encodes
    have answered : ∀ output ∈ answer, output.IsUncounted := fun output member =>
      asideUncounted (aside output member)
    have shown : ∀ output ∈ later, output.IsUncounted := fun output member =>
      asideUncounted (changes.heardAside output member)
    refine List.forall_mem_append.mpr ⟨List.forall_mem_append.mpr ⟨answered, shown⟩, concludeUncounted ?_⟩
    intro exchange found
    cases Option.some.inj found
    exact ⟨bytes, changes.changed.request ▸ encoded⟩
  | repeated => contradiction
  | released => contradiction

structure Counts (outputs : List Output) (requests starts refusals : Nat) : Prop where
  requests : outputs.countP Output.isRequest = requests
  starts : outputs.countP Output.isStart = starts
  refusals : outputs.countP Output.isRefusal = refusals

theorem uncountedCounts {outputs : List Output} (uncounted : ∀ output ∈ outputs, output.IsUncounted) :
    Counts outputs 0 0 0 :=
  ⟨List.countP_eq_zero.mpr fun output member => by simp [(uncounted output member).1],
    List.countP_eq_zero.mpr fun output member => by simp [(uncounted output member).2.1],
    List.countP_eq_zero.mpr fun output member => by simp [(uncounted output member).2.2]⟩

theorem requestCounts {request : Message} {bytes} (encoded : request.encode = .ok bytes) :
    Counts [.write bytes] 1 0 0 := by
  have own := encodedStart encoded
  exact ⟨by simp [Output.isRequest, own], by simp [Output.isStart], by simp [Output.isRefusal]⟩

theorem Releases.counts {id stamp ready outputs left last} (releases : Releases id stamp ready outputs left last) :
    ∃ refusals, Counts outputs last.isSome.toNat (refusals + last.isSome.toNat) refusals := by
  induction releases with
  | drained => exact ⟨0, rfl, rfl, rfl⟩
  | written encoded =>
    have own := encodedStart encoded
    exact ⟨0, by simp [Output.isRequest, own], by simp [List.countP_cons, Output.isStart],
      by simp [Output.isRefusal]⟩
  | @refused _ stamp message _ _ _ _ _ unencodable _ ih =>
    obtain ⟨refusals, requests, starts, refused⟩ := ih
    have own := (Message.stampedFails message stamp _).mpr unencodable
    refine ⟨refusals + 1, ?_, ?_, ?_⟩
    · simp [Output.isRequest, requests]
    · simp [List.countP_cons, Output.isStart, starts]
      omega
    · simp [Output.isRefusal, refused, own, Except.isOk, Except.toBool]

theorem startNextHandshake (link : Link) (now : Time) (idle : link.active = none) :
    (link.startNext now).1.handshake =
      if (link.startNext now).1.active.isSome then link.handshake.sent link.timing.ackTimeout now
      else link.handshake := by
  fun_induction startNext link now with
  | case1 link => simp [idle]
  | case2 link after exchange begins started sent outputs writes =>
    obtain ⟨bytes, _, _, rfl⟩ := written writes
    have begun := begun begins
    simp [begun.retries, begun.handshake, begun.timing]
  | case3 link after exchange begins started refused last later recursion ih =>
    have begun := begun begins
    rw [recursion] at ih
    simpa [begun.handshake, begun.timing] using ih rfl

theorem transmitCounts {link : Link} (sound : link.Sound) (now : Time) :
    ∃ refusals,
      ((link.transmit now).1.handshake = link.handshake ∧ Counts (link.transmit now).2 0 refusals refusals) ∨
      link.handshake.isAwaiting = false ∧
        ((link.transmit now).1.handshake = link.handshake.sent link.timing.ackTimeout now ∧
          Counts (link.transmit now).2 1 (refusals + 1) refusals ∨
        (link.transmit now).1.handshake = link.handshake.countRetransmission.sent link.timing.ackTimeout now ∧
          Counts (link.transmit now).2 1 0 0) := by
  cases active : link.active with
  | none =>
    have settled : link.handshake.deadline = none := sound.settled (by simp [active])
    obtain ⟨refusals, counts⟩ := (startNextReleases active now).counts
    rw [transmitIdle sound active, startNextHandshake link now active]
    refine ⟨refusals, ?_⟩
    cases last : (link.startNext now).1.active with
    | none => exact .inl ⟨rfl, by simpa [last] using counts⟩
    | some exchange =>
      exact .inr ⟨by simp [Handshake.isAwaiting, settled], .inl ⟨rfl, by simpa [last] using counts⟩⟩
  | some exchange =>
    have nothing : Counts [] 0 0 0 := ⟨rfl, rfl, rfl⟩
    by_cases outstanding : link.handshake.isAwaiting = true
    · exact ⟨0, .inl (by simpa [transmit, outstanding] using nothing)⟩
    · cases due : exchange.isDue now with
      | false => exact ⟨0, .inl (by simpa [transmitEarly active due] using nothing)⟩
      | true =>
        obtain ⟨bytes, encoded⟩ := (sound.underway exchange active).encodes
        obtain ⟨_, created, _⟩ := dueCreated due
        have retried : exchange.retries ≠ 0 := by
          have rests := sound.rests exchange active
          simp only [Exchange.AtRest, created] at rests
          omega
        refine ⟨0, .inr ⟨by simpa using outstanding, .inr ?_⟩⟩
        simpa [transmit, outstanding, active, due, write?, encoded, retried] using requestCounts encoded

structure Tallied (items : List Item) (stats : LinkStats) : Prop where
  acks : stats.acks = items.count .ack
  naks : stats.naks = items.count .nak
  cans : stats.cans = items.count .can
  received : stats.framesReceived = items.countP Item.isFrame
  invalid : stats.invalidFrames = items.countP Item.isRejected

structure Balanced (requests starts refusals waivers : Nat) (handshake : Handshake) : Prop where
  sent : handshake.stats.framesSent = requests
  started : handshake.stats.framesSent + refusals = handshake.stats.retransmissions + starts
  fewer : refusals ≤ starts
  expected : handshake.stats.unexpectedControl ≤ handshake.stats.controls
  settled : handshake.stats.controls + handshake.stats.ackTimeouts + handshake.isAwaiting.toNat + waivers =
    handshake.stats.framesSent + handshake.stats.unexpectedControl

section
variable {items : List Item} {requests starts refusals waivers : Nat} {link : Link} {handshake : Handshake}

theorem Tallied.counted {stats : LinkStats} (tallied : Tallied items stats) (byte : Control) :
    Tallied (items ++ [byte.item]) (Handshake.count stats byte) := by
  obtain ⟨acks, naks, cans, received, invalid⟩ := tallied
  cases byte <;> constructor <;>
    simp [Handshake.count, Control.item, Item.isFrame, Item.isRejected, acks, naks, cans, received, invalid]

theorem Tallied.controlled (tallied : Tallied items handshake.stats) (byte : Control) :
    Tallied (items ++ [byte.item]) (handshake.control byte).1.stats := by
  have ⟨acks, naks, cans, received, invalid⟩ := tallied.counted byte
  unfold Handshake.control
  cases handshake.deadline with
  | none => exact ⟨acks, naks, cans, received, invalid⟩
  | some late => exact ⟨acks, naks, cans, received, invalid⟩

theorem Tallied.frame (tallied : Tallied items handshake.stats) (frame : Frame) :
    Tallied (items ++ [.frame frame]) handshake.countReceived.stats := by
  obtain ⟨acks, naks, cans, received, invalid⟩ := tallied
  constructor <;> simp [Handshake.countReceived, Item.isFrame, Item.isRejected, acks, naks, cans, received, invalid]

theorem Tallied.rejected (tallied : Tallied items handshake.stats) (why : Reject) :
    Tallied (items ++ [.rejected why]) handshake.countInvalid.stats := by
  obtain ⟨acks, naks, cans, received, invalid⟩ := tallied
  constructor <;> simp [Handshake.countInvalid, Item.isFrame, Item.isRejected, acks, naks, cans, received, invalid]

theorem Tallied.expired (tallied : Tallied items handshake.stats) (now : Time) :
    Tallied items (handshake.expire now).1.stats := by
  have ⟨acks, naks, cans, received, invalid⟩ := tallied
  unfold Handshake.expire
  split
  · exact ⟨acks, naks, cans, received, invalid⟩
  · exact tallied

theorem Balanced.received (balanced : Balanced requests starts refusals waivers handshake) :
    Balanced requests starts refusals waivers handshake.countReceived :=
  ⟨balanced.sent, balanced.started, balanced.fewer, balanced.expected, balanced.settled⟩

theorem Balanced.rejected (balanced : Balanced requests starts refusals waivers handshake) :
    Balanced requests starts refusals waivers handshake.countInvalid :=
  ⟨balanced.sent, balanced.started, balanced.fewer, balanced.expected, balanced.settled⟩

theorem Balanced.controlled (balanced : Balanced requests starts refusals waivers handshake) (byte : Control) :
    Balanced requests starts refusals waivers (handshake.control byte).1 := by
  obtain ⟨sent, started, fewer, expected, settled⟩ := balanced
  unfold LinkStats.controls at expected settled
  cases deadline : handshake.deadline with
  | none =>
    simp only [Handshake.isAwaiting, deadline, Option.isSome_none, Bool.toNat_false] at settled
    simp only [Handshake.control, deadline]
    cases byte <;> refine ⟨sent, started, fewer, ?_, ?_⟩ <;>
      simp only [Handshake.count, LinkStats.controls, Handshake.isAwaiting, Option.isSome_none, Bool.toNat_false] <;>
      omega
  | some late =>
    simp only [Handshake.isAwaiting, deadline, Option.isSome_some, Bool.toNat_true] at settled
    simp only [Handshake.control, deadline]
    cases byte <;> refine ⟨sent, started, fewer, ?_, ?_⟩ <;>
      simp only [Handshake.count, LinkStats.controls, Handshake.isAwaiting, Option.isSome_none, Bool.toNat_false] <;>
      omega

theorem Balanced.expired (balanced : Balanced requests starts refusals waivers handshake) (now : Time) :
    Balanced requests starts refusals waivers (handshake.expire now).1 := by
  have ⟨sent, started, fewer, expected, settled⟩ := balanced
  unfold Handshake.expire
  split
  · rename_i late
    have awaiting : handshake.isAwaiting = true := by
      cases deadline : handshake.deadline <;> simp_all [Handshake.isLate, Handshake.isAwaiting]
    rw [awaiting, Bool.toNat_true] at settled
    refine ⟨sent, started, fewer, expected, ?_⟩
    simp only [LinkStats.controls, Handshake.isAwaiting, Option.isSome_none, Bool.toNat_false] at settled ⊢
    omega
  · exact balanced

theorem Balanced.waived (balanced : Balanced requests starts refusals waivers handshake) :
    Balanced requests starts refusals (waivers + handshake.isAwaiting.toNat) handshake.settle := by
  obtain ⟨sent, started, fewer, expected, settled⟩ := balanced
  refine ⟨sent, started, fewer, expected, ?_⟩
  simp only [Handshake.settle, Handshake.isAwaiting, Option.isSome_none, Bool.toNat_false] at settled ⊢
  omega

theorem Balanced.transmitted (balanced : Balanced requests starts refusals waivers link.handshake)
    (sound : link.Sound) (now : Time) :
    Balanced (requests + (link.transmit now).2.countP Output.isRequest)
      (starts + (link.transmit now).2.countP Output.isStart)
      (refusals + (link.transmit now).2.countP Output.isRefusal) waivers (link.transmit now).1.handshake := by
  obtain ⟨sent, started, fewer, expected, settled⟩ := balanced
  obtain ⟨more, ⟨same, counts⟩ | ⟨idle, written⟩⟩ := transmitCounts sound now
  · rw [same, counts.requests, counts.starts, counts.refusals]
    exact ⟨sent, by omega, by omega, expected, settled⟩
  · rw [idle, Bool.toNat_false] at settled
    rcases written with ⟨same, counts⟩ | ⟨same, counts⟩
    · rw [same, counts.requests, counts.starts, counts.refusals]
      refine ⟨congrArg (· + 1) sent, ?_, by omega, expected, ?_⟩
      · simp only [Handshake.sent]
        omega
      · simp only [Handshake.sent, LinkStats.controls, Handshake.isAwaiting, Option.isSome_some,
          Bool.toNat_true] at settled ⊢
        omega
    · rw [same, counts.requests, counts.starts, counts.refusals]
      refine ⟨congrArg (· + 1) sent, ?_, fewer, expected, ?_⟩
      · simp only [Handshake.sent, Handshake.countRetransmission]
        omega
      · simp only [Handshake.sent, Handshake.countRetransmission, LinkStats.controls, Handshake.isAwaiting,
          Option.isSome_some, Bool.toNat_true] at settled ⊢
        omega

end

theorem frameHandshake {link : Link} (sound : link.Sound) (frame : Frame) (now : Time) :
    (link.inbound (.frame frame) now).1.handshake =
      if link.waives (.inbound (.frame frame)) then link.handshake.countReceived.settle
      else link.handshake.countReceived := by
  have same : { link with handshake := link.handshake.countReceived }.addressee (.ofFrame frame .controller) =
      link.addressee (.ofFrame frame .controller) := rfl
  rcases expecting : link.addressee (.ofFrame frame .controller) with _ | exchange
  · simp [inbound, onMessage, concludeHandshake, waives, same, expecting]
  · obtain ⟨active, _⟩ := addressed expecting
    have gates : link.handshake.isAwaiting = true ↔ exchange.phase = .sent := by simpa [active] using sound.gates
    by_cases sent : exchange.phase = .sent
    · simp [inbound, onMessage, concludeHandshake, waives, same, expecting, onReply, sent, gates.mpr sent]
    · simp [inbound, onMessage, concludeHandshake, waives, same, expecting, onReply, sent, mt gates.mp sent]

theorem abortHandshake (link : Link) : link.abort.1.handshake = link.handshake.settle := by
  simp [abort, concludeHandshake]

theorem expireHandshake (link : Link) (now : Time) :
    (link.expire now).1.handshake = (link.handshake.expire now).1 := by
  simp [expire, concludeHandshake]

theorem controlHandshake (link : Link) (byte : Control) (now : Time) :
    (link.onControl byte now).1.handshake = (link.handshake.control byte).1 := by
  simp [onControl, concludeHandshake]

section
variable {items : List Item} {requests starts refusals waivers : Nat} {link : Link}

theorem stepBooked (tallied : Tallied items link.handshake.stats)
    (balanced : Balanced requests starts refusals waivers link.handshake) (sound : link.Sound) (now : Time) {op : Op}
    (other : op ≠ .transmit) :
    Tallied (items ++ op.item?.toList) (link.step now op).1.handshake.stats ∧
      Balanced requests starts refusals (waivers + (link.waives op).toNat) (link.step now op).1.handshake := by
  have quiet {op : Op} (silent : op.item? = none) (unwaived : link.waives op = false)
      (same : (link.step now op).1.handshake = link.handshake) :
      Tallied (items ++ op.item?.toList) (link.step now op).1.handshake.stats ∧
        Balanced requests starts refusals (waivers + (link.waives op).toNat) (link.step now op).1.handshake := by
    rw [same, silent, unwaived]
    exact ⟨by simpa using tallied, balanced⟩
  cases op with
  | enqueue outbound =>
    refine quiet rfl (by simp [waives]) ?_
    simp only [step, enqueue]
    cases link.outbox.enqueue outbound <;> rfl
  | accept outbound => exact quiet rfl (by simp [waives]) rfl
  | wake node => exact quiet rfl (by simp [waives]) rfl
  | sleep node => exact quiet rfl (by simp [waives]) rfl
  | inbound item =>
    cases item with
    | ack =>
      simp only [step, inbound, controlHandshake]
      exact ⟨tallied.controlled .ack, by simpa [waives] using balanced.controlled .ack⟩
    | nak =>
      simp only [step, inbound, controlHandshake]
      exact ⟨tallied.controlled .nak, by simpa [waives] using balanced.controlled .nak⟩
    | can =>
      simp only [step, inbound, controlHandshake]
      exact ⟨tallied.controlled .can, by simpa [waives] using balanced.controlled .can⟩
    | frame frame =>
      simp only [step, frameHandshake sound]
      split
      · rename_i waived
        have awaiting : link.handshake.countReceived.isAwaiting = true := (Bool.and_eq_true_iff.mp waived).1
        have settled := balanced.received.waived
        rw [awaiting] at settled
        exact ⟨tallied.frame frame, waived ▸ settled⟩
      · rename_i unwaived
        exact ⟨tallied.frame frame, by simpa [unwaived] using balanced.received⟩
    | rejected why => exact ⟨tallied.rejected why, by simpa [waives, step, inbound] using balanced.rejected⟩
  | expire =>
    simp only [step, expireHandshake]
    exact ⟨by simpa [Op.item?] using tallied.expired now, by simpa [waives] using balanced.expired now⟩
  | transmit => contradiction
  | abort =>
    have still : Tallied (items ++ []) link.handshake.stats := by simpa using tallied
    simp only [step, abortHandshake]
    exact ⟨still, by simpa [waives] using balanced.waived⟩

end

structure Booked (items : List Item) (outputs : List Output) (waivers : Nat) (handshake : Handshake) : Prop where
  tallied : Tallied items handshake.stats
  balanced : Balanced (outputs.countP Output.isRequest) (outputs.countP Output.isStart)
    (outputs.countP Output.isRefusal) waivers handshake

section
variable {items : List Item} {outputs : List Output} {waivers : Nat} {link : Link}

theorem Booked.transmitted (booked : Booked items outputs waivers link.handshake) (sound : link.Sound) (now : Time) :
    Booked items (outputs ++ (link.transmit now).2) waivers (link.transmit now).1.handshake := by
  obtain ⟨⟨acks, naks, cans, received, invalid⟩, balanced⟩ := booked
  refine ⟨?_, by simpa only [List.countP_append] using balanced.transmitted sound now⟩
  obtain ⟨_, ⟨same, _⟩ | ⟨_, ⟨same, _⟩ | ⟨same, _⟩⟩⟩ := transmitCounts sound now
  all_goals
    rw [same]
    exact ⟨acks, naks, cans, received, invalid⟩

theorem Booked.step (booked : Booked items outputs waivers link.handshake) (sound : link.Sound) (now : Time) (op : Op) :
    Booked (items ++ op.item?.toList) (outputs ++ (link.step now op).2) (waivers + (link.waives op).toNat)
      (link.step now op).1.handshake := by
  by_cases transmits : op = .transmit
  · subst transmits
    have transmitted := booked.transmitted sound now
    simpa [Op.item?, waives, Link.step] using transmitted
  · obtain ⟨tallied, balanced⟩ := stepBooked booked.tallied booked.balanced sound now transmits
    have counts := uncountedCounts (stepUncounted sound now transmits)
    refine ⟨tallied, ?_⟩
    simpa only [List.countP_append, counts.requests, counts.starts, counts.refusals, Nat.add_zero] using balanced

theorem Booked.run (booked : Booked items outputs waivers link.handshake) (sound : link.Sound)
    (history : List (Time × Op)) :
    Booked (items ++ history.filterMap (·.2.item?)) (outputs ++ (link.run history).2.flatten)
      (waivers + link.waivers history) (link.run history).1.handshake := by
  induction history generalizing link items outputs waivers with
  | nil => simpa [Link.run, Link.waivers] using booked
  | cons call rest ih =>
    obtain ⟨now, op⟩ := call
    have next := ih (booked.step sound now op) ((stepPath sound now op).sound sound)
    have all : ((now, op) :: rest).filterMap (·.2.item?) = op.item?.toList ++ rest.filterMap (·.2.item?) := by
      cases taken : op.item? <;> simp [taken]
    rw [all, ← List.append_assoc]
    simpa only [Link.run, Link.waivers, List.flatten_cons, List.append_assoc, Nat.add_assoc] using next

end

/-- Everything that came in and went out is in the counters. What was sent for the first time was started and not
refused; and every transmission is settled at most once, by a control byte that was expected or by the clock, unless
it is still outstanding or its wait was waived. -/
theorem countersBalance (timing : Timing) (slots : Slots) (history : List (Time × Op)) :
    let (link, outputs) := (fresh timing slots).run history
    let stats := link.handshake.stats
    let items := history.filterMap (·.2.item?)
    let starts := outputs.flatten.countP Output.isStart
    let refusals := outputs.flatten.countP Output.isRefusal
    let waivers := (fresh timing slots).waivers history
    let resolved := stats.acks + stats.naks + stats.cans - stats.unexpectedControl + stats.ackTimeouts +
      link.handshake.isAwaiting.toNat
    stats.framesSent = outputs.flatten.countP Output.isRequest ∧
    stats.retransmissions ≤ stats.framesSent ∧ refusals ≤ starts ∧
    stats.framesSent - stats.retransmissions = starts - refusals ∧
    stats.acks = items.count .ack ∧ stats.naks = items.count .nak ∧ stats.cans = items.count .can ∧
    stats.framesReceived = items.countP Item.isFrame ∧ stats.invalidFrames = items.countP Item.isRejected ∧
    stats.unexpectedControl ≤ stats.acks + stats.naks + stats.cans ∧
    resolved + waivers = stats.framesSent ∧ resolved ≤ stats.framesSent ∧
    (resolved = stats.framesSent ↔ waivers = 0) := by
  have begun : Booked [] [] 0 (fresh timing slots).handshake :=
    ⟨⟨rfl, rfl, rfl, rfl, rfl⟩, ⟨rfl, rfl, Nat.le_refl 0, Nat.le_refl 0, rfl⟩⟩
  have ⟨⟨acks, naks, cans, received, invalid⟩, ⟨sent, started, fewer, expected, settled⟩⟩ :=
    begun.run (freshSound timing slots) history
  simp only [List.nil_append] at acks naks cans received invalid sent started fewer
  simp only [LinkStats.controls, Nat.zero_add] at expected settled
  exact ⟨sent, by omega, fewer, by omega, acks, naks, cans, received, invalid, expected, by omega, by omega, by omega⟩

end Link
end ZWaveHost
