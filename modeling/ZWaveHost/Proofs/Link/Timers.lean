import ZWaveHost.Proofs.Link.Diary
import ZWaveHost.Proofs.Link.Attempts
import ZWaveHost.Proofs.Link.Round

/-! When the clock ends a wait. The entry just before is the one that began it, so no wait is ended twice, and the time
between the two is at least what the wait is allowed. -/
namespace ZWaveHost

def Wait.span (timing : Timing) (transmissions : Nat) : Wait → Time
  | .acknowledgement => timing.ackTimeout
  | .retransmission => timing.retransmitDelay transmissions
  | .reply => timing.responseTimeout

namespace Link

def Fate.mark? : Fate → Option Mark
  | acknowledged => some .acknowledged
  | lost why => some (.undelivered why)
  | _ => none

theorem concludeHandshake (link : Link) : link.conclude.1.handshake = link.handshake := by
  unfold conclude
  split
  · split <;> rfl
  · rfl

theorem startNextTimeouts (link : Link) (now : Time) :
    (link.startNext now).1.handshake.stats.ackTimeouts = link.handshake.stats.ackTimeouts := by
  fun_induction startNext link now with
  | case1 => rfl
  | case2 link after exchange begins started sent outputs writes =>
    obtain ⟨bytes, _, _, rfl⟩ := written writes
    rw [← (begun begins).handshake]
    simp only [Handshake.sent]
    split <;> rfl
  | case3 link after exchange begins started refused last later recursion ih =>
    rw [recursion] at ih
    exact ih.trans (congrArg (·.stats.ackTimeouts) (begun begins).handshake)

theorem transmitTimeouts (link : Link) (now : Time) :
    (link.transmit now).1.handshake.stats.ackTimeouts = link.handshake.stats.ackTimeouts := by
  unfold transmit
  split
  · rfl
  · split
    · exact link.startNextTimeouts now
    · split
      · split
        · rename_i sent writes
          obtain ⟨bytes, _, _, same⟩ := written writes
          rw [same]
          simp only [Handshake.sent]
          split <;> rfl
        · exact startNextTimeouts _ now
      · rfl

theorem messageTimeouts (link : Link) (message : Message) (now : Time) :
    (link.onMessage message now).1.handshake.stats.ackTimeouts = link.handshake.stats.ackTimeouts := by
  simp only [onMessage, concludeHandshake]
  cases link.addressee message with
  | none => rfl
  | some exchange =>
    simp only [Option.elim_some, onReply]
    split <;> rfl

theorem controlTold (link : Link) (byte : Control) (now : Time) :
    (link.onControl byte now).1.handshake.stats.unexpectedControl = link.handshake.stats.unexpectedControl ↔
      link.handshake.deadline.isSome := by
  simp only [onControl, concludeHandshake, Handshake.control]
  cases link.handshake.deadline <;> cases byte <;> simp [Handshake.count]

theorem expireTold (link : Link) (now : Time) :
    (link.expire now).1.handshake.stats.ackTimeouts = link.handshake.stats.ackTimeouts ↔
      link.handshake.isLate now = false := by
  simp only [expire, concludeHandshake, Handshake.expire]
  cases link.handshake.isLate now <;> simp

theorem settlingTold (link : Link) (now : Time) (op : Op) :
    settling link.handshake.stats (link.step now op).1.handshake.stats op =
      (link.handshake.deadline.bind (Fate.settledBy · now op)).bind Fate.mark? := by
  have silent {op : Op} (unsettled : ∀ deadline, (Fate.settledBy deadline now op).bind Fate.mark? = none) :
      (link.handshake.deadline.bind (Fate.settledBy · now op)).bind Fate.mark? = none := by
    cases link.handshake.deadline with
    | none => rfl
    | some deadline => exact unsettled deadline
  have answer {mark : Mark} {byte : Control} :
      (if (link.onControl byte now).1.handshake.stats.unexpectedControl = link.handshake.stats.unexpectedControl
        then some mark else none) = link.handshake.deadline.bind fun _ => some mark := by
    simp only [controlTold]
    cases link.handshake.deadline <;> rfl
  cases op with
  | enqueue outbound =>
    rw [silent fun _ => rfl]
    simp only [step, enqueue]
    cases link.outbox.enqueue outbound <;> exact if_pos rfl
  | accept outbound => rw [silent fun _ => rfl]; exact if_pos rfl
  | wake node => rw [silent fun _ => rfl]; exact if_pos rfl
  | sleep node => rw [silent fun _ => rfl]; exact if_pos rfl
  | transmit => rw [silent fun _ => rfl]; exact if_pos (link.transmitTimeouts now)
  | abort => rw [silent fun _ => rfl]; exact if_pos (by simp [step, abort, concludeHandshake, Handshake.settle])
  | expire =>
    simp only [settling, step, expireTold]
    unfold Handshake.isLate
    cases link.handshake.deadline with
    | none => rfl
    | some deadline => by_cases passed : deadline ≤ now <;> simp [Fate.settledBy, Fate.mark?, passed]
  | inbound item =>
    cases item with
    | ack => exact answer.trans (by cases link.handshake.deadline <;> rfl)
    | nak => exact answer.trans (by cases link.handshake.deadline <;> rfl)
    | can => exact answer.trans (by cases link.handshake.deadline <;> rfl)
    | frame frame => rw [silent fun _ => rfl]; exact if_pos (messageTimeouts _ _ now)
    | rejected why => rw [silent fun _ => rfl]; exact if_pos rfl

def OnTime (timing : Timing) (page : Page) (now : Time) (wait : Wait) : Prop :=
  ∃ since begun, page.last? = some (since, begun) ∧ begun.begins = some wait ∧
    since + wait.span timing page.transmissions ≤ now

structure Due (timing : Timing) (page : Page) (entry : Time × Mark) : Prop where
  onTime : ∀ wait, entry.2.rings = some wait →
    (entry.2 = .written ∧ page.entries = []) ∨ OnTime timing page entry.1 wait
  own : ∀ id failure, entry.2 = .ended id failure → id = page.exchange
  counted : entry.2 = .written → page.failures.length = page.transmissions

theorem dueSilent {timing page now mark} (silent : mark.rings = none)
    (own : ∀ id failure, mark = .ended id failure → id = page.exchange) : Due timing page (now, mark) :=
  ⟨by simp [silent], own, fun (written : mark = .written) => by simp [written, Mark.rings] at silent⟩

def waiting (exchange : Exchange) (outstanding : Option Time) : Option (Wait × Time) :=
  match exchange.phase with
  | .created due => due.map (.retransmission, ·)
  | .sent => outstanding.map (.acknowledgement, ·)
  | .awaiting late => some (.reply, late)
  | .completed | .failed _ => none

structure Kept (timing : Timing) (page : Page) (outstanding : Option Time) (exchange : Exchange) : Prop where
  own : page.exchange = exchange.id
  failures : page.failures.length = exchange.retries
  transmissions : page.transmissions = exchange.attempts
  waits : ∃ wait since begun, waiting exchange outstanding = some (wait, since + wait.span timing page.transmissions) ∧
    page.last? = some (since, begun) ∧ begun.begins = some wait

theorem Kept.onTime {timing page outstanding exchange wait deadline now} (kept : Kept timing page outstanding exchange)
    (waits : waiting exchange outstanding = some (wait, deadline)) (passed : deadline ≤ now) :
    OnTime timing page now wait := by
  obtain ⟨other, since, begun, same, last, begins⟩ := kept.waits
  cases waits.symm.trans same
  exact ⟨since, begun, last, begins, passed⟩

structure Noted (timing : Timing) (page : Page) (now : Time) (next : Exchange) : Prop where
  goesOn : next.isTerminal = false → Kept timing page none next
  ends : next.isTerminal = true → Due timing page (now, .ended next.id next.failure)

theorem notedAdvanced {timing page now} {exchange : Exchange} {begun} (own : page.exchange = exchange.id)
    (failures : page.failures.length = exchange.retries) (transmissions : page.transmissions = exchange.retries + 1)
    (last : page.last? = some (now, begun)) (begins : begun.begins = some .reply) :
    Noted timing page now (exchange.advance timing now) := by
  rcases exchange.advanced timing now with ⟨_, same⟩ | ⟨_, same⟩
  · rw [same]
    refine ⟨nofun, fun _ => dueSilent rfl fun id failure ended => ?_⟩
    cases ended
    exact own.symm
  · rw [same]
    exact ⟨fun _ => ⟨own, failures, transmissions, .reply, now, begun, rfl, last, begins⟩, nofun⟩

theorem notedFailed {timing page now} {exchange : Exchange} {why} (own : page.exchange = exchange.id)
    (punctual : ∀ callback, why ≠ .timeout callback) : Noted timing page now (exchange.fail why) := by
  refine ⟨nofun, fun _ => dueSilent ?_ fun id failure ended => ?_⟩
  · cases why with
    | timeout callback => exact absurd rfl (punctual callback)
    | _ => rfl
  · cases ended
    exact own.symm

theorem Kept.sent {timing page outstanding exchange} (kept : Kept timing page outstanding exchange)
    (sent : exchange.phase = .sent) : page.transmissions = exchange.retries + 1 := by
  simpa [Exchange.attempts, sent] using kept.transmissions

def turnMarks (link : Link) (now : Time) (op : Op) (heard : List Output) : List Mark :=
  ((link.handshake.deadline.bind (Fate.settledBy · now op)).bind Fate.mark?).toList ++ heard.filterMap Output.mark?

theorem acknowledgedNoted {link : Link} {exchange page now} (sent : exchange.phase = .sent)
    (kept : Kept link.timing page link.handshake.deadline exchange) :
    turnMarks link now (.inbound .ack) [] = [.acknowledged] ∧
      Noted link.timing (page.add (now, .acknowledged)) now (exchange.onAck link.timing now) := by
  obtain ⟨wait, since, begun, waits, _⟩ := kept.waits
  obtain ⟨deadline, outstanding, _⟩ := Option.map_eq_some_iff.mp (by simpa only [waiting, sent] using waits)
  have same : exchange.onAck link.timing now = exchange.advance link.timing now := by simp [Exchange.onAck, sent]
  refine ⟨by simp [turnMarks, outstanding, Fate.settledBy, Fate.mark?], ?_⟩
  rw [same]
  refine notedAdvanced kept.own ?_ ?_ (Page.lastAdded _ _ _) rfl
  · simpa [Page.add, Page.failures] using kept.failures
  · simpa [Page.add, Page.transmissions] using kept.sent sent

theorem lostLate {deadline now op} (told : Fate.settledBy deadline now op = some (.lost .ackTimeout)) :
    deadline ≤ now := by
  unfold Fate.settledBy at told
  split at told <;> try contradiction
  split at told
  · assumption
  · contradiction

theorem lostNoted {link : Link} {exchange page now op deadline why} (sent : exchange.phase = .sent)
    (outstanding : link.handshake.deadline = some deadline) (told : Fate.settledBy deadline now op = some (.lost why))
    (kept : Kept link.timing page link.handshake.deadline exchange) :
    turnMarks link now op [] = [.undelivered why] ∧ Due link.timing page (now, .undelivered why) ∧
      Noted link.timing (page.add (now, .undelivered why)) now (exchange.onUndelivered link.timing now) := by
  have waits : waiting exchange link.handshake.deadline = some (.acknowledgement, deadline) := by
    simp [waiting, sent, outstanding]
  have failures : (page.add (now, .undelivered why)).failures.length = exchange.retries + 1 := by
    simpa [Page.add, Page.failures] using kept.failures
  have transmissions : (page.add (now, .undelivered why)).transmissions = exchange.retries + 1 := by
    simpa [Page.add, Page.transmissions] using kept.sent sent
  refine ⟨by simp [turnMarks, outstanding, told, Fate.mark?], ⟨fun wait rings => ?_, by simp, by simp⟩, ?_⟩
  · cases why with
    | ackTimeout =>
      cases rings
      exact .inr (kept.onTime waits (lostLate told))
    | nak => contradiction
    | can => contradiction
  · rcases Exchange.undeliveredSent sent link.timing now with ⟨_, same⟩ | ⟨_, same⟩
    · rw [same]
      refine ⟨fun _ => ⟨kept.own, failures, transmissions, .retransmission, now, .undelivered why, ?_, ?_, rfl⟩,
        by simp [Exchange.isTerminal]⟩
      · rw [transmissions]; rfl
      · exact Page.lastAdded _ _ _
    · rw [same]
      exact notedFailed kept.own (by simp)

theorem reportedPunctual {message : Message} {callback} :
    Exchange.reportedFailure message ≠ some (.timeout callback) := by
  unfold Exchange.reportedFailure
  split
  · nofun
  · nofun
  · split <;> nofun
  · nofun

theorem repliedNoted {link : Link} {exchange page now frame}
    (next : exchange.isNextReply (.ofFrame frame .controller))
    (kept : Kept link.timing page link.handshake.deadline exchange) :
    turnMarks link now (.inbound (.frame frame)) [.write [Wire.ack],
        .event (.received (.ofFrame frame .controller) (some (contextOf exchange)))] = [.replied] ∧
      Noted link.timing (page.add (now, .replied)) now
        (exchange.onReply (.ofFrame frame .controller) link.timing now) := by
  have transmissions : (page.add (now, .replied)).transmissions = exchange.retries + 1 := by
    have tried := kept.transmissions
    have written := Exchange.nextReplyWritten next
    unfold Exchange.attempts at tried
    split at tried
    · rename_i due created
      exact absurd created (written due)
    · simpa [Page.add, Page.transmissions] using tried
  have failures : (page.add (now, .replied)).failures.length = exchange.retries := by
    simpa [Page.add, Page.failures] using kept.failures
  constructor
  · cases outstanding : link.handshake.deadline <;> simp [turnMarks, outstanding, Fate.settledBy, Output.mark?]
  · rcases Exchange.repliedNext next link.timing now with ⟨why, reported, same⟩ | ⟨_, same⟩
    · have failed := @notedFailed link.timing (page.add (now, .replied)) now
        { exchange with expected := exchange.expected.tail } why kept.own
        fun callback timeout => reportedPunctual (timeout ▸ reported)
      exact same ▸ failed
    · exact same ▸ notedAdvanced kept.own failures transmissions (Page.lastAdded _ _ _) rfl

theorem lateNoted {link : Link} {exchange page now deadline} (awaiting : exchange.phase = .awaiting deadline)
    (passed : deadline ≤ now) (settled : link.handshake.deadline = none)
    (kept : Kept link.timing page link.handshake.deadline exchange) :
    turnMarks link now .expire [] = [] ∧ Noted link.timing page now (exchange.expire now) := by
  have onTime : OnTime link.timing page now .reply := kept.onTime (by simp only [waiting, awaiting]) passed
  refine ⟨by simp [turnMarks, settled], ?_⟩
  rw [Exchange.lateAwaiting awaiting passed]
  refine ⟨nofun, fun _ => ⟨fun wait rings => ?_, fun id failure ended => ?_, nofun⟩⟩
  · cases rings
    exact .inr onTime
  · cases ended
    exact kept.own.symm

theorem cancelledNoted {link : Link} {exchange page now}
    (kept : Kept link.timing page link.handshake.deadline exchange) :
    turnMarks link now .abort [] = [] ∧ Noted link.timing page now (exchange.fail .cancelled) := by
  refine ⟨?_, notedFailed kept.own (by simp)⟩
  cases outstanding : link.handshake.deadline <;> simp [turnMarks, outstanding, Fate.settledBy, Fate.mark?]

theorem turnNoted {link : Link} {exchange next page now op heard} (sound : link.Sound)
    (active : link.active = some exchange) (turns : Turns link now exchange op heard next)
    (kept : Kept link.timing page link.handshake.deadline exchange) :
    Along Page.add (Due link.timing) page ((turnMarks link now op heard).map (now, ·)) ∧
      Noted link.timing (page.addAll ((turnMarks link now op heard).map (now, ·))) now next := by
  cases turns with
  | acknowledged sent =>
    obtain ⟨marks, noted⟩ := acknowledgedNoted sent kept
    rw [marks]
    exact ⟨⟨dueSilent rfl (by simp), trivial⟩, noted⟩
  | lost sent outstanding told =>
    obtain ⟨marks, due, noted⟩ := lostNoted sent outstanding told kept
    rw [marks]
    exact ⟨⟨due, trivial⟩, noted⟩
  | replied next =>
    obtain ⟨marks, noted⟩ := repliedNoted next kept
    rw [marks]
    exact ⟨⟨dueSilent rfl (by simp), trivial⟩, noted⟩
  | late awaiting passed =>
    have settled : link.handshake.deadline = none := by
      refine sound.settled fun other found => ?_
      simp [← Option.some.inj (active.symm.trans found), awaiting]
    obtain ⟨marks, noted⟩ := lateNoted awaiting passed settled kept
    rw [marks]
    exact ⟨trivial, noted⟩
  | cancelled =>
    obtain ⟨marks, noted⟩ := cancelledNoted kept
    rw [marks]
    exact ⟨trivial, noted⟩

def Posted (page : Page) (link : Link) : Prop :=
  ∀ exchange, link.active = some exchange → Kept link.timing page link.handshake.deadline exchange

theorem strayMarks {outputs : List Output} (stray : ∀ output ∈ outputs, output.IsStray) :
    outputs.filterMap Output.mark? = [] := by
  refine List.filterMap_eq_nil_iff.mpr fun output member => ?_
  have lone := stray output member
  unfold Output.IsStray at lone
  split at lone
  · exact if_pos lone
  · subst lone; rfl
  · contradiction

theorem requestMark {request : Message} {bytes} (encoded : request.encode = .ok bytes) :
    (Output.write bytes).mark? = some .written := by
  simp [Output.mark?, encodedStart encoded]

theorem startMark (id : Nat) (node : Option NodeId) :
    (Output.event (.started id node)).mark? = some (.started id) := rfl

theorem endingMark (exchange : Exchange) :
    (Output.event (ending exchange)).mark? = some (.ended exchange.id exchange.failure) := by
  cases failure : exchange.failure <;> simp [ending, failure, Output.mark?]

theorem concludeNoted {link : Link} (after : Link) {page now next} (noted : Noted link.timing page now next)
    (active : after.active = some next) (settled : after.handshake.deadline = none)
    (same : after.timing = link.timing) :
    let entries := (after.conclude.2.filterMap Output.mark?).map (now, ·)
    Along Page.add (Due link.timing) page entries ∧ Posted (page.addAll entries) after.conclude.1 := by
  cases ends : next.isTerminal with
  | false =>
    simp only [conclude, active, ends, Bool.false_eq_true, if_false]
    refine ⟨trivial, fun other found => ?_⟩
    cases Option.some.inj (active.symm.trans found)
    rw [settled, same]
    exact noted.goesOn ends
  | true =>
    simp only [conclude, active, ends, if_true, List.filterMap_cons, endingMark, List.filterMap_nil]
    exact ⟨⟨noted.ends ends, trivial⟩, by simp [Posted]⟩

theorem repeatedNoted {link : Link} {exchange due page now} (active : link.active = some exchange)
    (created : exchange.phase = .created due) (writes : (link.transmit now).2 ≠ []) (posted : Posted page link) :
    Due link.timing page (now, .written) ∧ Kept link.timing (page.add (now, .written))
      (some (now + link.timing.ackTimeout)) exchange.onSent := by
  have kept := posted exchange active
  have tried : page.transmissions = exchange.retries := by
    simpa [Exchange.attempts, created] using kept.transmissions
  obtain ⟨wait, since, begun, waits, _⟩ := kept.waits
  simp only [waiting, created] at waits
  obtain ⟨deadline, rfl, same⟩ := Option.map_eq_some_iff.mp waits
  have passed : deadline ≤ now := by
    cases isDue : exchange.isDue now with
    | true => simpa [Exchange.isDue, created] using isDue
    | false => simp [transmitEarly active isDue] at writes
  refine ⟨⟨fun wait rings => ?_, by simp, fun _ => kept.failures.trans tried.symm⟩, ?_⟩
  · cases rings
    exact .inr (kept.onTime (by simp only [waiting, created, Option.map_some]) passed)
  · rw [sentCreated created]
    refine ⟨kept.own, ?_, ?_, .acknowledgement, now, .written, rfl, Page.lastAdded _ _ _, rfl⟩
    · simpa [Page.add, Page.failures] using kept.failures
    · simpa [Page.add, Page.transmissions, Exchange.attempts] using tried

theorem startedNoted {timing : Timing} {exchange : Exchange} {now : Time} (page : Page)
    (phase : exchange.phase = .created none) (retries : exchange.retries = 0) :
    Along Page.add (Due timing) page [(now, .started exchange.id), (now, .written)] ∧
      Kept timing (page.addAll [(now, .started exchange.id), (now, .written)])
        (some (now + timing.ackTimeout)) exchange.onSent := by
  have first : Due timing ⟨exchange.id, []⟩ (now, .written) := ⟨fun _ _ => .inl ⟨rfl, rfl⟩, by simp, fun _ => rfl⟩
  refine ⟨⟨dueSilent rfl (by simp), first, trivial⟩, ?_⟩
  rw [sentCreated phase]
  refine ⟨rfl, retries.symm, ?_, .acknowledgement, now, .written, rfl, rfl, rfl⟩
  simp [Exchange.attempts, retries, Page.addAll, Page.add, Page.transmissions]

theorem releasedNoted {link : Link} {timing : Timing} (same : link.timing = timing) (idle : link.active = none)
    (page : Page) (now : Time) :
    let entries := ((link.startNext now).2.filterMap Output.mark?).map (now, ·)
    Along Page.add (Due timing) page entries ∧ Posted (page.addAll entries) (link.startNext now).1 := by
  fun_induction startNext link now generalizing page with
  | case1 link nothing => exact ⟨trivial, by simp [Posted, idle]⟩
  | case2 link after exchange begins started sent outputs writes =>
    obtain ⟨bytes, encoded, rfl, rfl⟩ := written writes
    have begun := begun begins
    obtain ⟨along, kept⟩ := @startedNoted timing exchange now page begun.phase begun.retries
    simp only [started, List.filterMap_cons, startMark, requestMark encoded, List.filterMap_nil]
    refine ⟨along, fun other found => ?_⟩
    cases Option.some.inj found
    have own : after.timing = timing := begun.timing.trans same
    simpa [own, Handshake.sent] using kept
  | case3 link after exchange begins started refused last later recursion ih =>
    have begun := begun begins
    have stopped : (exchange.stop .rejected).id = exchange.id ∧
        (exchange.stop .rejected).failure = some .rejected := by
      simp [Exchange.stop, Exchange.isTerminal, begun.phase, Exchange.fail, Exchange.failure]
    have rest := ih (begun.timing.trans same) rfl
      ((page.add (now, .started exchange.id)).add (now, .ended exchange.id (some .rejected)))
    rw [recursion] at rest
    have ended : Due timing (page.add (now, .started exchange.id)) (now, .ended exchange.id (some .rejected)) := by
      refine dueSilent rfl fun id failure same => ?_
      cases same
      rfl
    simp only [started, List.filterMap_cons, startMark, endingMark, stopped]
    exact ⟨⟨dueSilent rfl (by simp), ended, rest.1⟩, rest.2⟩

theorem turnMarksAppend (link : Link) (now : Time) (op : Op) (heard later : List Output) :
    turnMarks link now op (heard ++ later) = turnMarks link now op heard ++ later.filterMap Output.mark? := by
  simp [turnMarks]

theorem unsettledMarks {link : Link} {now op} (outputs : List Output)
    (unsettled : ∀ deadline, link.handshake.deadline = some deadline → Fate.settledBy deadline now op = none) :
    turnMarks link now op outputs = outputs.filterMap Output.mark? := by
  cases outstanding : link.handshake.deadline with
  | none => simp [turnMarks, outstanding]
  | some deadline => simp [turnMarks, outstanding, unsettled deadline outstanding]

theorem callNoted {link after : Link} {page now op outputs} (sound : link.Sound)
    (call : Call link now op outputs after) (writes : op = .transmit → outputs ≠ [] → (link.transmit now).2 ≠ [])
    (posted : Posted page link) :
    let entries := (turnMarks link now op outputs).map (now, ·)
    Along Page.add (Due link.timing) page entries ∧ Posted (page.addAll entries) after := by
  cases call with
  | aside outbox same unsettled stray =>
    rw [unsettledMarks _ unsettled, strayMarks stray]
    refine ⟨trivial, fun exchange active => ?_⟩
    have kept := posted exchange active
    rwa [← same] at kept
  | turned outbox active turns settled =>
    obtain ⟨along, noted⟩ := turnNoted sound active turns (posted _ active)
    obtain ⟨ending, after⟩ := concludeNoted { link with handshake := _, outbox, active := some _ } noted rfl settled rfl
    rw [turnMarksAppend, List.map_append]
    exact ⟨alongAppend.mpr ⟨along, ending⟩, by simpa only [Page.addAll, List.foldl_append] using after⟩
  | repeated active created outstanding encoded =>
    obtain ⟨due, kept⟩ := repeatedNoted active created (writes rfl (List.cons_ne_nil _ _)) posted
    rw [unsettledMarks _ fun _ _ => rfl]
    simp only [List.filterMap_cons, requestMark encoded, List.filterMap_nil]
    refine ⟨⟨due, trivial⟩, fun other found => ?_⟩
    cases Option.some.inj found
    exact outstanding ▸ kept
  | released idle =>
    rw [unsettledMarks _ fun _ _ => rfl]
    exact releasedNoted rfl idle page now

theorem stepNoted {link : Link} {page} (sound : link.Sound) (posted : Posted page link) (now : Time) (op : Op) :
    let entries := (link.marks now op).map (now, ·)
    Along Page.add (Due link.timing) page entries ∧ Posted (page.addAll entries) (link.step now op).1 := by
  have told : link.marks now op = turnMarks link now op (link.step now op).2 := by
    simp only [marks, settlingTold, turnMarks]
  rw [told]
  refine callNoted sound (stepCall sound now op) (fun transmits outputs => ?_) posted
  rwa [transmits] at outputs

theorem diaryNoted {link : Link} {page} (sound : link.Sound) (posted : Posted page link)
    (history : List (Time × Op)) : Along Page.add (Due link.timing) page (link.diary history) := by
  induction history generalizing link page with
  | nil => trivial
  | cons call rest ih =>
    obtain ⟨now, op⟩ := call
    have path := stepPath sound now op
    obtain ⟨along, after⟩ := stepNoted sound posted now op
    have later := ih (path.sound sound) after
    rw [path.timing] at later
    exact alongAppend.mpr ⟨along, later⟩

theorem begunWritten {mark : Mark} (begins : mark.begins = some .acknowledgement) : mark = .written := by
  cases mark <;> simp_all [Mark.begins]

theorem begunUndelivered {mark : Mark} (begins : mark.begins = some .retransmission) :
    ∃ why, mark = .undelivered why := by
  cases mark <;> simp_all [Mark.begins]

theorem lastLatest {diary : List (Time × Mark)} (ordered : diary.Pairwise (·.1 ≤ ·.1)) {last}
    (isLast : (Page.behind diary).last? = some last) : ∀ entry ∈ (Page.behind diary).entries, entry.1 ≤ last.1 := by
  have own := ordered.sublist (Page.behindSuffix diary).sublist
  obtain ⟨earlier, entries⟩ := List.getLast?_eq_some_iff.mp isLast
  rw [entries] at own ⊢
  intro entry member
  rcases List.mem_append.mp member with before | same
  · exact (List.pairwise_append.mp own).2.2 entry before last (List.mem_singleton.mpr rfl)
  · exact Nat.le_of_eq (congrArg Prod.fst (List.mem_singleton.mp same))

/- A wait that the clock ended is over: for the clock to end another of its kind, that has to begin. -/
theorem Due.once {timing page entry} (due : Due timing page entry) {wait earlier first between}
    (rings : entry.2.rings = some wait) (split : page.entries = earlier ++ first :: between)
    (before : first.2.rings = some wait) : ∃ begun ∈ between, begun.2.begins = some wait := by
  rcases due.onTime wait rings with ⟨_, empty⟩ | ⟨since, begun, last, begins, _⟩
  · simp [split] at empty
  · have isLast : (first :: between).getLast? = some (since, begun) := by
      simpa [Page.last?, split, List.getLast?_append] using last
    cases between with
    | nil =>
      cases Option.some.inj isLast
      exact absurd begins (Mark.ringsOther before)
    | cons next rest => exact ⟨_, List.mem_of_getLast? isLast, begins⟩

theorem diaryDue (timing : Timing) (slots : Slots) {history : List (Time × Op)} {before entry later}
    (seen : (fresh timing slots).diary history = before ++ entry :: later) :
    Due timing (Page.behind before) entry := by
  have posted : Posted {} (fresh timing slots) := by simp [Posted, fresh]
  have along := diaryNoted (freshSound timing slots) posted history
  rw [seen] at along
  exact along.here

/- Whatever happens while time does not run back, no timer goes off early: an acknowledgement is given up when its time
since the transmission is over, an exchange when the time for the reply is over since the delivery and since every
reply taken, and a request is repeated when the delay since the failure of the same number is over. And no timer goes
off twice: between two waits of one kind that the clock ends, the second begins. -/
theorem waitsEndOnTime (timing : Timing) (slots : Slots) {history : List (Time × Op)}
    (ordered : (history.map Prod.fst).Pairwise (· ≤ ·)) {before later now mark}
    (seen : (fresh timing slots).diary history = before ++ (now, mark) :: later) :
    let page := Page.behind before
    (mark = .undelivered .ackTimeout →
      ∃ written, page.last? = some (written, .written) ∧ written + timing.ackTimeout ≤ now) ∧
    (∀ id callback, mark = .ended id (some (.timeout callback)) → id = page.exchange ∧
      (∃ since begun, page.last? = some (since, begun) ∧ begun.begins = some .reply) ∧
      ∀ since begun, (since, begun) ∈ page.entries → begun.begins = some .reply →
        since + timing.responseTimeout ≤ now) ∧
    (mark = .written → page.entries ≠ [] → ∃ failed, page.failures[page.transmissions - 1]? = some failed ∧
      failed + (timing.retryBase + timing.retryStep * (page.transmissions - 1)) ≤ now) ∧
    ∀ wait earlier first between, mark.rings = some wait → page.entries = earlier ++ first :: between →
      first.2.rings = some wait → ∃ begun ∈ between, begun.2.begins = some wait := by
  have due := diaryDue timing slots seen
  have inTime := diaryOrdered (fresh timing slots) ordered
  rw [seen] at inTime
  have earlier := (List.pairwise_append.mp inTime).1
  refine ⟨?_, ?_, ?_, fun wait earlier first between => due.once⟩
  · rintro rfl
    obtain ⟨written, _⟩ | ⟨written, begun, last, begins, passed⟩ := due.onTime .acknowledgement rfl
    · contradiction
    · exact ⟨written, begunWritten begins ▸ last, passed⟩
  · rintro id callback rfl
    obtain ⟨written, _⟩ | ⟨since, begun, last, begins, passed⟩ := due.onTime .reply rfl
    · contradiction
    · refine ⟨due.own id _ rfl, ⟨since, begun, last, begins⟩, fun instant other member _ => ?_⟩
      exact Nat.le_trans (Nat.add_le_add_right (lastLatest earlier last _ member) _) passed
  · rintro rfl again
    obtain ⟨_, first⟩ | ⟨failed, begun, last, begins, passed⟩ := due.onTime .retransmission rfl
    · exact absurd first again
    · obtain ⟨why, rfl⟩ := begunUndelivered begins
      have same := Page.lastFailure last
      rw [due.counted rfl] at same
      exact ⟨failed, same, passed⟩

theorem thirdTransmissionDelayed :
    let history := [(0, .enqueue { message := .versionRequest }), (0, .transmit), (1600, .expire), (1700, .transmit),
      (1750, .inbound .nak), (2850, .transmit), (2900, .inbound .ack), (12900, .expire)]
    let before := [(0, .started 1), (0, .written), (1600, .undelivered .ackTimeout), (1700, .written),
      (1750, .undelivered .nak)]
    (fresh {} {}).diary history = before ++ (2850, .written) ::
      [(2900, .acknowledged), (12900, .ended 1 (some (.timeout false)))] ∧
    (Page.behind before).transmissions = 2 ∧
    ∃ failed, (Page.behind before).failures[1]? = some failed ∧ failed + (100 + 1000 * 1) ≤ 2850 := by
  intro history before
  have seen : (fresh {} {}).diary history = before ++ (2850, .written) ::
      [(2900, .acknowledged), (12900, .ended 1 (some (.timeout false)))] := by decide +kernel +zetaReduce
  have ordered : (history.map Prod.fst).Pairwise (· ≤ ·) := by decide +kernel +zetaReduce
  exact ⟨seen, rfl, (waitsEndOnTime {} {} ordered seen).2.2.1 rfl (List.cons_ne_nil _ _)⟩

end Link

end ZWaveHost
