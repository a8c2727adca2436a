import ZWaveHost.Proofs.Link.Attempts
import ZWaveHost.Proofs.Link.Round

/-! A reply proves that its request was delivered. Taken in, it keeps the request from being written again for good;
but while a retransmission is scheduled, no reply is taken in. -/
namespace ZWaveHost.Link
open Transcript

structure Delivered (id : Nat) (link : Link) : Prop where
  started : id < link.nextId
  silent : ∀ exchange, link.active = some exchange → exchange.id = id → ∃ late, exchange.phase = .awaiting late

theorem Delivered.move {id : Nat} {link after : Link} {now outputs} (delivered : Delivered id link)
    (move : Move now link outputs after) : Delivered id after := by
  cases move with
  | aside => exact ⟨delivered.started, delivered.silent⟩
  | start _ begins =>
    have begun := begun begins
    rw [sentCreated begun.phase]
    refine ⟨begun.nextId ▸ Nat.lt_succ_of_lt delivered.started, fun exchange active same => ?_⟩
    cases Option.some.inj active
    exact absurd (begun.id.symm.trans same) (Nat.ne_of_gt delivered.started)
  | refuse _ begins => exact ⟨(begun begins).nextId ▸ Nat.lt_succ_of_lt delivered.started, by simp⟩
  | rewrite active created =>
    rw [sentCreated created]
    refine ⟨delivered.started, fun next found same => ?_⟩
    cases Option.some.inj found
    obtain ⟨late, awaiting⟩ := delivered.silent _ active same
    simp [created] at awaiting
  | @goOn exchange next _ _ active changes _ goes =>
    refine ⟨delivered.started, fun other found same => ?_⟩
    cases Option.some.inj found
    have changed := changes.changed
    obtain ⟨late, awaiting⟩ := delivered.silent exchange active (changed.id ▸ same)
    obtain ⟨rests, unsent⟩ := changed.rests goes
    rcases rests.waits with ⟨due, created, _⟩ | sent | ⟨late, waits, _⟩
    · have sent := (changed.again _ created).1
      simp [awaiting] at sent
    · contradiction
    · exact ⟨late, waits⟩
  | finish => exact ⟨delivered.started, by simp⟩

theorem Delivered.unwritten {id : Nat} {link after : Link} {now outputs} (delivered : Delivered id link)
    (sound : link.Sound) (move : Move now link outputs after) :
    requestsOf id link.standing.flight outputs = [] := by
  rcases move.writes sound id with ⟨silent, _⟩ | ⟨_, _, _, _, _, first | again⟩
  · exact silent
  · exact absurd first.1 (Nat.ne_of_gt delivered.started)
  · obtain ⟨exchange, due, active, same, created, _⟩ := again
    obtain ⟨late, awaiting⟩ := delivered.silent exchange active same
    simp [created] at awaiting

theorem Delivered.path {id : Nat} {link last : Link} {outputs} (delivered : Delivered id link)
    (sound : link.Sound) (path : Path link outputs last) : requestsOf id link.standing.flight outputs = [] := by
  induction path with
  | stay => rfl
  | move first _ ih =>
    rw [requestsAppend, (first.orderly sound).flight, delivered.unwritten sound first,
      ih (delivered.move first) (first.sound sound)]
    rfl

theorem repliedSilent {exchange : Exchange} {message timing now} (next : exchange.isNextReply message) :
    (exchange.onReply message timing now).isTerminal ∨
      ∃ late, (exchange.onReply message timing now).phase = .awaiting late := by
  rcases Exchange.repliedNext next timing now with ⟨why, _, same⟩ | ⟨_, same⟩
  · exact .inl (by simp [same, Exchange.isTerminal])
  · rcases Exchange.advanced { exchange with expected := exchange.expected.tail } timing now with
      ⟨_, advanced⟩ | ⟨_, advanced⟩
    · exact .inl (by simp [same, advanced, Exchange.isTerminal])
    · exact .inr ⟨now + timing.responseTimeout, by rw [same, advanced]⟩

theorem replyTaken {link : Link} (sound : link.Sound) {exchange frame} (active : link.active = some exchange)
    (next : exchange.isNextReply (.ofFrame frame .controller)) (now : Time) :
    Delivered exchange.id (link.inbound (.frame frame) now).1 ∧
      requestsOf exchange.id link.standing.flight (link.inbound (.frame frame) now).2 = [] := by
  have started : exchange.id < link.nextId :=
    (sound.underway exchange active).numbered ▸ Nat.lt_succ_self _
  have addressed : { link with handshake := link.handshake.countReceived }.addressee
      (.ofFrame frame .controller) = some exchange := by
    simpa [addressee, active] using next
  simp only [inbound, onMessage, addressed, Option.elim_some, onReply, conclude]
  rw [requestsAnswer (.inl rfl)]
  split
  · have ends := endingEnds (exchange.onReply (.ofFrame frame .controller) link.timing now)
    exact ⟨⟨started, by simp⟩, requestsEnded ends exchange.id link.standing.flight []⟩
  · rename_i goes
    refine ⟨⟨started, fun other found _ => ?_⟩, rfl⟩
    cases Option.some.inj found
    exact (repliedSilent next).resolve_left goes

theorem scheduledDeaf {link : Link} (sound : link.Sound) {exchange due} (active : link.active = some exchange)
    (created : exchange.phase = .created due) (frame : Frame) (now : Time) :
    link.inbound (.frame frame) now = ({ link with handshake := link.handshake.countReceived },
      [.write [Wire.ack], .event (.received (.ofFrame frame .controller) none)]) := by
  have addressed : { link with handshake := link.handshake.countReceived }.addressee
      (.ofFrame frame .controller) = none := by
    simp [addressee, active, Exchange.isNextReply, created]
  have rests : ∀ other, { link with handshake := link.handshake.countReceived }.active = some other →
      other.AtRest := sound.rests
  simp only [inbound, onMessage, addressed, Option.elim_none, concludeRests rests]
  rfl

theorem unscheduledHears {exchange : Exchange} {message} (rests : exchange.AtRest)
    (next : exchange.expected.head?.any (·.admits message)) (unscheduled : ∀ due, exchange.phase ≠ .created due) :
    exchange.isNextReply message := by
  rcases rests.waits with ⟨due, created, _⟩ | sent | ⟨late, awaiting, _⟩
  · exact absurd created (unscheduled _)
  · simpa [Exchange.isNextReply, sent] using next
  · simpa [Exchange.isNextReply, awaiting] using next

theorem scheduledRepeats {link : Link} (sound : link.Sound) {exchange due} (active : link.active = some exchange)
    (created : exchange.phase = .created due) (frame : Frame) (now : Time) :
    ∃ later, requestsOf exchange.id link.standing.flight
      (link.run ((now, .inbound (.frame frame)) :: later)).2.flatten ≠ [] := by
  obtain ⟨bytes, encoded⟩ := (sound.underway exchange active).encodes
  have isDue : exchange.isDue (due.getD 0) = true := by
    cases due with
    | none => simp [Exchange.isDue, created]
    | some time => simp [Exchange.isDue, created]
  have settled : link.handshake.deadline = none :=
    sound.settled fun other found => by simp [← Option.some.inj (active.symm.trans found), created]
  obtain ⟨handshake, writes⟩ := @transmitDue { link with handshake := link.handshake.countReceived } _ _ _
    settled active isDue encoded
  have outputs : (link.run [(now, .inbound (.frame frame)), (due.getD 0, .transmit)]).2.flatten =
      [.write [Wire.ack], .event (.received (.ofFrame frame .controller) none), .write bytes] := by
    simp only [run, step, scheduledDeaf sound active created, writes]
    rfl
  have again : requestsOf exchange.id (some exchange.id) [.write bytes] = [bytes] := by
    rw [requestsOnce encoded, if_pos rfl]
  refine ⟨[(due.getD 0, .transmit)], ?_⟩
  rw [outputs, sound.flight active, requestsAnswer (.inl rfl)]
  intro silent
  exact List.cons_ne_nil bytes [] (again.symm.trans silent)

/-- A reply is the end of the transmissions of its request exactly if no retransmission of it is scheduled. -/
theorem replyStopsRetries (timing : Timing) (slots : Slots) (history : List (Time × Op)) (now : Time)
    {exchange frame} (active : ((fresh timing slots).run history).1.active = some exchange)
    (next : exchange.expected.head?.any (·.admits (.ofFrame frame .controller))) :
    (∀ later, writesOf exchange.id
        ((fresh timing slots).run (history ++ (now, .inbound (.frame frame)) :: later)).2.flatten =
      writesOf exchange.id ((fresh timing slots).run history).2.flatten) ↔
    ∀ due, exchange.phase ≠ .created due := by
  have sound := runSound (freshSound timing slots) history
  have told := runTold timing slots history
  simp only [runAppend, List.flatten_append, told.append, List.append_right_eq_self]
  constructor
  · intro never due created
    obtain ⟨later, again⟩ := scheduledRepeats sound active created frame now
    exact again (never later)
  · intro unscheduled later
    have hears := unscheduledHears (sound.rests exchange active) next unscheduled
    have heard := inboundPath sound (.frame frame) now
    obtain ⟨delivered, silent⟩ := replyTaken sound active hears now
    have rest := delivered.path (heard.sound sound) (runPath (heard.sound sound) later)
    simp only [run, step, List.flatten_cons]
    rw [requestsAppend, (heard.orderly sound).flight, silent, rest]
    rfl

theorem memoryIdDelivered :
    let history := [(0, .enqueue { message := .memoryIdRequest }), (0, .transmit)]
    let reply := .inbound (.frame (.response FunctionId.memoryId [0xC0, 0xFF, 0xEE, 0x01, 0x01]))
    writesOf 1 ((fresh {} {}).run history).2.flatten = [[0x01, 0x03, 0x00, 0x20, 0xDC]] ∧
      ∀ later, writesOf 1 ((fresh {} {}).run (history ++ (5, reply) :: later)).2.flatten =
        writesOf 1 ((fresh {} {}).run history).2.flatten := by
  have active : ((fresh {} {}).run [(0, .enqueue { message := .memoryIdRequest }), (0, .transmit)]).1.active =
      some { id := 1, request := .memoryIdRequest, phase := .sent } := by decide +kernel
  exact ⟨by decide +kernel, (replyStopsRetries {} {} _ 5 active (by decide +kernel)).mpr nofun⟩

/- The acknowledgement was lost and the controller had the request; its response comes between the timeout and the
retransmission. -/
theorem sendDataRepeated :
    let history := [(0, .enqueue { message := .send 3 [0x20, 0x02] }), (0, .transmit), (1600, .expire)]
    let reply := .inbound (.frame (.response FunctionId.sendData [0x01]))
    let (link, outputs) := (fresh {} {}).run history
    (link.active.map fun exchange =>
      (exchange.phase, exchange.expected.head?.any (·.admits (.sendDataResponse true)))) =
        some (.created (some 1700), true) ∧
    Message.ofFrame (.response FunctionId.sendData [0x01]) .controller = .sendDataResponse true ∧
    writesOf 1 outputs.flatten = [[0x01, 0x09, 0x00, 0x13, 0x03, 0x02, 0x20, 0x02, 0x25, 0x01, 0xE2]] ∧
    writesOf 1 ((fresh {} {}).run (history ++ [(1650, reply), (1700, .transmit)])).2.flatten =
      List.replicate 2 [0x01, 0x09, 0x00, 0x13, 0x03, 0x02, 0x20, 0x02, 0x25, 0x01, 0xE2] := by
  decide +kernel

end ZWaveHost.Link
