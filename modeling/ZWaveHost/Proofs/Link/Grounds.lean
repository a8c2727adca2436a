import ZWaveHost.Proofs.Link.Attempts
import ZWaveHost.Proofs.Link.Plan

/-! Why an exchange ended, proved by its course: in every log, what is published of an exchange at its end has its
grounds in what was seen before. -/
namespace ZWaveHost.Link

inductive Grounds (timing : Timing) (op : Op) (request : Message) (course : Course) : Option Failure → Prop
  | served {replies} (delivered : course.Delivered request replies) (heard : Heard (Reply.plan request) replies []) :
      Grounds timing op request course none
  | unacknowledged {losses} (lost : course.Lost request losses) (count : losses.length = timing.maxRetries + 1) :
      Grounds timing op request course (some (.link (timing.maxRetries + 1)))
  | late {replies reply left} (delivered : course.Delivered request replies)
      (heard : Heard (Reply.plan request) replies (reply :: left)) :
      Grounds timing op request course (some (.timeout (!reply.isResponse)))
  | reported {replies reply left frame why} (delivered : course.Delivered request (replies ++ [frame]))
      (heard : Heard (Reply.plan request) replies (reply :: left)) (admits : reply.admits (.ofFrame frame .controller))
      (reported : Exchange.reportedFailure (.ofFrame frame .controller) = some why) :
      Grounds timing op request course (some why)
  | unencodable {fault} (encoded : request.encode = .error fault) (untouched : course.deeds = []) :
      Grounds timing op request course (some .rejected)
  | cancelled (aborted : op = .abort) : Grounds timing op request course (some .cancelled)

def Explained (timing : Timing) (op : Op) (course : Course) : LinkEvent → Prop
  | .completed id _ request => course.id = id ∧ Grounds timing op request course none
  | .failed id _ request why => course.id = id ∧ Grounds timing op request course (some why)
  | _ => True

def Incident.Explained (timing : Timing) (course : Course) : Incident → Prop
  | .shown _ op (.event event) => Link.Explained timing op course event
  | _ => True

/- Every ending in a log has its grounds in what comes before it; `course` is what was seen before the log. -/
def Explains (timing : Timing) : Course → List Incident → Prop
  | _, [] => True
  | course, incident :: rest =>
    incident.Explained timing course ∧ Explains timing (course.follow timing.ackTimeout incident) rest

theorem explainsAppend (timing : Timing) (course : Course) (before later : List Incident) :
    Explains timing course (before ++ later) ↔
      Explains timing course before ∧
        Explains timing (before.foldl (Course.follow timing.ackTimeout) course) later := by
  induction before generalizing course with
  | nil => simp [Explains]
  | cons incident rest ih => simp only [List.cons_append, Explains, List.foldl_cons, ih, and_assoc]

theorem Explains.here {timing : Timing} {before incident later}
    (explains : Explains timing {} (before ++ incident :: later)) :
    incident.Explained timing (Course.behind timing.ackTimeout before) :=
  ((explainsAppend timing {} before _).mp explains).2.1

def Account (exchange : Exchange) (outstanding : Option Time) (course : Course) : Prop :=
  match exchange.phase with
  | .created _ => exchange.expected = Reply.plan exchange.request ∧
      ∃ losses, course.Lost exchange.request losses ∧ losses.length = exchange.retries
  | .sent => exchange.expected = Reply.plan exchange.request ∧
      ∃ bytes losses deadline, exchange.request.encode = .ok bytes ∧ losses.length = exchange.retries ∧
        outstanding = some deadline ∧
        course.deeds = inVain bytes losses ++ [.written bytes (.outstanding deadline)]
  | .awaiting _ => ∃ replies, course.Delivered exchange.request replies ∧
      Heard (Reply.plan exchange.request) replies exchange.expected
  | .completed | .failed _ => False

def Recounted (course : Course) (link : Link) : Prop :=
  ∀ exchange, link.active = some exchange →
    course.id = exchange.id ∧ Account exchange link.handshake.deadline course

structure Turned (timing : Timing) (op : Op) (course : Course) (next : Exchange) : Prop where
  id : course.id = next.id
  goesOn : next.isTerminal = false → Account next none course
  ends : next.isTerminal = true → Grounds timing op next.request course next.failure

theorem Turned.failed {timing op course} {exchange : Exchange} {why} (id : course.id = exchange.id)
    (grounds : Grounds timing op exchange.request course (some why)) : Turned timing op course (exchange.fail why) :=
  ⟨id, nofun, fun _ => grounds⟩

theorem Turned.advanced {timing timing' op course} {exchange : Exchange} {replies now} (id : course.id = exchange.id)
    (delivered : course.Delivered exchange.request replies)
    (heard : Heard (Reply.plan exchange.request) replies exchange.expected) :
    Turned timing op course (exchange.advance timing' now) := by
  rcases exchange.advanced timing' now with ⟨complete, same⟩ | ⟨more, same⟩
  · rw [same]
    exact ⟨id, nofun, fun _ => .served delivered (complete ▸ heard)⟩
  · rw [same]
    exact ⟨id, fun _ => ⟨replies, delivered, heard⟩, nofun⟩

/- What is outstanding is settled at the call, so only the last transmission changes. -/
theorem sentFollows {course : Course} {bytes losses deadline} (ackTimeout now : Time) (op : Op)
    (deeds : course.deeds = inVain bytes losses ++ [.written bytes (.outstanding deadline)]) :
    course.follow ackTimeout (.made now op) = { course with deeds := inVain bytes losses ++
      [.written bytes ((Fate.settledBy deadline now op).getD (.outstanding deadline))] } := by
  simp only [Course.follow, deeds, List.map_append, Course.inVainSettled]
  rfl

theorem acknowledgedTurn {link : Link} {exchange course now} (sent : exchange.phase = .sent)
    (id : course.id = exchange.id) (account : Account exchange link.handshake.deadline course) :
    Turned link.timing (.inbound .ack)
      ((incidents now (.inbound .ack) []).foldl (Course.follow link.timing.ackTimeout) course)
      (exchange.onAck link.timing now) := by
  simp only [Account, sent] at account
  obtain ⟨full, bytes, losses, deadline, encoded, _, _, deeds⟩ := account
  have same : exchange.onAck link.timing now = exchange.advance link.timing now := by simp [Exchange.onAck, sent]
  simp only [incidents, List.map_nil, List.foldl_cons, List.foldl_nil, sentFollows _ _ _ deeds, same]
  have delivered : ({ course with deeds := inVain bytes losses ++ [.written bytes .acknowledged] } : Course).Delivered
      exchange.request [] := ⟨bytes, losses, .acknowledged, encoded, .inl rfl, rfl⟩
  exact Turned.advanced id delivered (full ▸ .none _)

theorem lostTurn {link : Link} {exchange course now op deadline why} (sound : link.Sound)
    (active : link.active = some exchange) (sent : exchange.phase = .sent)
    (outstanding : link.handshake.deadline = some deadline) (told : Fate.settledBy deadline now op = some (.lost why))
    (id : course.id = exchange.id) (account : Account exchange link.handshake.deadline course) :
    Turned link.timing op ((incidents now op []).foldl (Course.follow link.timing.ackTimeout) course)
      (exchange.onUndelivered link.timing now) := by
  simp only [Account, sent] at account
  obtain ⟨full, bytes, losses, late, encoded, count, waits, deeds⟩ := account
  cases outstanding.symm.trans waits
  simp only [incidents, List.map_nil, List.foldl_cons, List.foldl_nil, sentFollows _ _ _ deeds, told, Option.getD_some]
  have patient := (sound.underway exchange active).patient
  have more : inVain bytes losses ++ [Deed.written bytes (.lost why)] = inVain bytes (losses ++ [why]) := by
    simp [inVain]
  have lost : ({ course with deeds := inVain bytes losses ++ [.written bytes (.lost why)] } : Course).Lost
      exchange.request (losses ++ [why]) := ⟨bytes, encoded, more⟩
  rcases Exchange.undeliveredSent sent link.timing now with ⟨left, same⟩ | ⟨spent, same⟩
  · rw [same]
    exact ⟨id, fun _ => ⟨full, losses ++ [why], lost, by simp [count]⟩, by simp [Exchange.isTerminal]⟩
  · have all : exchange.retries = link.timing.maxRetries := Nat.le_antisymm patient spent
    rw [same, all]
    exact Turned.failed id (.unacknowledged lost (by simp [count, all]))

theorem nextExpected {exchange : Exchange} {message} (next : exchange.isNextReply message) :
    ∃ reply left, exchange.expected = reply :: left ∧ reply.admits message := by
  unfold Exchange.isNextReply at next
  split at next
  · cases expected : exchange.expected with
    | nil => simp [expected] at next
    | cons reply left => exact ⟨reply, left, rfl, by simpa [expected] using next⟩
  · cases expected : exchange.expected with
    | nil => simp [expected] at next
    | cons reply left => exact ⟨reply, left, rfl, by simpa [expected] using next⟩
  · contradiction

theorem repliedFollows {course : Course} {exchange : Exchange} (id : course.id = exchange.id)
    (ackTimeout now : Time) (frame : Frame) :
    (incidents now (.inbound (.frame frame)) [.write [Wire.ack],
      .event (.received (.ofFrame frame .controller) (some (contextOf exchange)))]).foldl
        (Course.follow ackTimeout) course =
      { course with deeds := course.deeds.map (·.meets (.shown now (.inbound (.frame frame))
          (.event (.received (.ofFrame frame .controller) (some (contextOf exchange)))))) ++ [.replied frame] } := by
  have heard : course.follow ackTimeout (.made now (.inbound (.frame frame))) = course := by
    have same (deed : Deed) : deed.meets (.made now (.inbound (.frame frame))) = deed := by
      cases deed with
      | replied frame => rfl
      | written bytes fate => cases fate <;> rfl
    simp [Course.follow, same]
  have stray : (Output.write [Wire.ack]).IsStray := Or.inl rfl
  have answered : course.follow ackTimeout (.shown now (.inbound (.frame frame)) (.write [Wire.ack])) = course :=
    Course.followStray stray course ackTimeout now _
  simp only [incidents, List.map_cons, List.map_nil, List.foldl_cons, List.foldl_nil, heard, answered]
  simp [Course.follow, Course.add, contextOf, id]

theorem repliedDelivered {exchange course outstanding} {frame : Frame} (now : Time)
    (next : exchange.isNextReply (.ofFrame frame .controller)) (account : Account exchange outstanding course) :
    ∃ replies, Heard (Reply.plan exchange.request) replies exchange.expected ∧
      ({ course with deeds := course.deeds.map (·.meets (.shown now (.inbound (.frame frame))
          (.event (.received (.ofFrame frame .controller) (some (contextOf exchange)))))) ++ [.replied frame] } :
        Course).Delivered exchange.request (replies ++ [frame]) := by
  unfold Exchange.isNextReply at next
  split at next
  · rename_i sent
    simp only [Account, sent] at account
    obtain ⟨full, bytes, losses, deadline, encoded, _, _, deeds⟩ := account
    refine ⟨[], full ▸ .none _, bytes, losses, .answered, encoded, .inr ⟨rfl, by simp⟩, ?_⟩
    rw [deeds, List.map_append, Course.inVainSettled, List.append_assoc]
    rfl
  · rename_i late awaiting
    simp only [Account, awaiting] at account
    obtain ⟨replies, delivered, heard⟩ := account
    refine ⟨replies, heard, ?_⟩
    rw [delivered.settled]
    obtain ⟨bytes, losses, fate, encoded, final, deeds⟩ := delivered
    refine ⟨bytes, losses, fate, encoded, final.imp id fun answered => ⟨answered.1, by simp⟩, ?_⟩
    simp [deeds]
  · contradiction

theorem repliedTurn {link : Link} {exchange course now frame} (next : exchange.isNextReply (.ofFrame frame .controller))
    (id : course.id = exchange.id) (account : Account exchange link.handshake.deadline course) :
    Turned link.timing (.inbound (.frame frame))
      ((incidents now (.inbound (.frame frame)) [.write [Wire.ack],
        .event (.received (.ofFrame frame .controller) (some (contextOf exchange)))]).foldl
          (Course.follow link.timing.ackTimeout) course)
      (exchange.onReply (.ofFrame frame .controller) link.timing now) := by
  obtain ⟨reply, left, expected, admits⟩ := nextExpected next
  obtain ⟨replies, heard, delivered⟩ := repliedDelivered now next account
  rw [repliedFollows id]
  rw [expected] at heard
  rcases Exchange.repliedNext next link.timing now with ⟨why, reported, same⟩ | ⟨clean, same⟩
  · rw [same]
    exact ⟨id, nofun, fun _ => .reported delivered heard admits reported⟩
  · rw [same, expected]
    exact Turned.advanced id delivered (heard.snoc admits clean)

theorem lateTurn {link : Link} {exchange course now deadline} (awaiting : exchange.phase = .awaiting deadline)
    (rests : exchange.AtRest) (passed : deadline ≤ now) (id : course.id = exchange.id)
    (account : Account exchange link.handshake.deadline course) :
    Turned link.timing .expire ((incidents now .expire []).foldl (Course.follow link.timing.ackTimeout) course)
      (exchange.expire now) := by
  simp only [Account, awaiting] at account
  obtain ⟨replies, delivered, heard⟩ := account
  simp only [incidents, List.map_nil, List.foldl_cons, List.foldl_nil, delivered.settled.followsCall]
  rw [Exchange.lateAwaiting awaiting passed]
  cases expected : exchange.expected with
  | nil => simp [Exchange.AtRest, awaiting, expected] at rests
  | cons reply left =>
    rw [expected] at heard
    exact Turned.failed id (.late delivered heard)

theorem turnTurned {link : Link} {exchange next course now op heard} (sound : link.Sound)
    (active : link.active = some exchange) (turns : Turns link now exchange op heard next)
    (id : course.id = exchange.id) (account : Account exchange link.handshake.deadline course) :
    Turned link.timing op ((incidents now op heard).foldl (Course.follow link.timing.ackTimeout) course) next := by
  cases turns with
  | acknowledged sent => exact acknowledgedTurn sent id account
  | lost sent outstanding told => exact lostTurn sound active sent outstanding told id account
  | replied next => exact repliedTurn next id account
  | late awaiting passed => exact lateTurn awaiting (sound.rests _ active) passed id account
  | cancelled => exact Turned.failed id (.cancelled rfl)

theorem explainsQuiet {timing : Timing} {quiet : List Incident} (course : Course)
    (noEnd : ∀ incident ∈ quiet, ∀ course, incident.Explained timing course) : Explains timing course quiet := by
  induction quiet generalizing course with
  | nil => trivial
  | cons incident rest ih =>
    obtain ⟨first, others⟩ := List.forall_mem_cons.mp noEnd
    exact ⟨first course, ih _ others⟩

theorem turnsQuiet {link : Link} {exchange next now op heard} (turns : Turns link now exchange op heard next)
    (timing : Timing) (course : Course) : Explains timing course (incidents now op heard) := by
  refine explainsQuiet course fun incident member course => ?_
  cases turns <;> simp [incidents] at member <;> grind [Incident.Explained, Link.Explained]

theorem followStrays {outputs : List Output} (stray : ∀ output ∈ outputs, output.IsStray) (course : Course)
    (ackTimeout now : Time) (op : Op) :
    (outputs.map (.shown now op)).foldl (Course.follow ackTimeout) course = course := by
  induction outputs with
  | nil => rfl
  | cons output rest ih =>
    obtain ⟨first, others⟩ := List.forall_mem_cons.mp stray
    rw [List.map_cons, List.foldl_cons, Course.followStray first, ih others]

theorem straysQuiet {outputs : List Output} (stray : ∀ output ∈ outputs, output.IsStray) (timing : Timing)
    (course : Course) (now : Time) (op : Op) : Explains timing course (incidents now op outputs) := by
  refine explainsQuiet course fun incident member course => ?_
  rcases List.mem_cons.mp member with rfl | shown
  · trivial
  · obtain ⟨output, among, rfl⟩ := List.mem_map.mp shown
    have lone := stray output among
    unfold Output.IsStray at lone
    split at lone
    · trivial
    · trivial
    · contradiction

theorem Account.settled {exchange : Exchange} {outstanding course} (account : Account exchange outstanding course)
    (unsent : exchange.phase ≠ .sent) : course.Settled := by
  unfold Account at account
  split at account
  · obtain ⟨_, losses, lost, _⟩ := account
    exact lost.settled
  · contradiction
  · obtain ⟨replies, delivered, _⟩ := account
    exact delivered.settled
  · contradiction
  · contradiction

theorem Account.untouched {exchange : Exchange} {outstanding course now op}
    (account : Account exchange outstanding course)
    (unsettled : ∀ deadline, outstanding = some deadline → Fate.settledBy deadline now op = none) (ackTimeout : Time) :
    course.follow ackTimeout (.made now op) = course := by
  by_cases sent : exchange.phase = .sent
  · simp only [Account, sent] at account
    obtain ⟨_, bytes, losses, deadline, _, _, waits, deeds⟩ := account
    rw [sentFollows _ _ _ deeds, unsettled deadline waits, Option.getD_none, ← deeds]
  · exact (account.settled sent).followsCall ackTimeout now op

theorem asideExplains {link : Link} {course now op outputs handshake outbox}
    (same : handshake.deadline = link.handshake.deadline)
    (unsettled : ∀ deadline, link.handshake.deadline = some deadline → Fate.settledBy deadline now op = none)
    (stray : ∀ output ∈ outputs, output.IsStray) (recounted : Recounted course link) :
    Recounted ((incidents now op outputs).foldl (Course.follow link.timing.ackTimeout) course)
      { link with handshake, outbox } := by
  intro exchange active
  obtain ⟨id, account⟩ := recounted exchange active
  rw [incidents, List.foldl_cons, account.untouched unsettled, followStrays stray, same]
  exact ⟨id, account⟩

theorem turnedExplains {link : Link} {course next now op heard} (turned : Turned link.timing op
      ((incidents now op heard).foldl (Course.follow link.timing.ackTimeout) course) next)
    (quiet : Explains link.timing course (incidents now op heard)) {after : Link} (active : after.active = some next)
    (settled : after.handshake.deadline = none) :
    Explains link.timing course (incidents now op (heard ++ after.conclude.2)) ∧
      Recounted ((incidents now op (heard ++ after.conclude.2)).foldl (Course.follow link.timing.ackTimeout) course)
        after.conclude.1 := by
  have split (outputs : List Output) :
      incidents now op (heard ++ outputs) = incidents now op heard ++ outputs.map (.shown now op) := by
    simp [incidents]
  rw [split, explainsAppend, List.foldl_append]
  cases ends : next.isTerminal with
  | false =>
    simp only [conclude, active, ends, Bool.false_eq_true, if_false, List.map_nil, List.foldl_nil]
    refine ⟨⟨quiet, trivial⟩, fun other found => ?_⟩
    cases Option.some.inj (active.symm.trans found)
    rw [settled]
    exact ⟨turned.id, turned.goesOn ends⟩
  | true =>
    simp only [conclude, active, ends, if_true, List.map_cons, List.map_nil, List.foldl_cons, List.foldl_nil]
    refine ⟨⟨quiet, ?_, trivial⟩, by simp [Recounted]⟩
    have grounds := turned.ends ends
    cases failure : next.failure with
    | none =>
      rw [failure] at grounds
      have event : ending next = .completed next.id next.node next.request := by simp [ending, failure]
      rw [event]
      exact ⟨turned.id, grounds⟩
    | some why =>
      rw [failure] at grounds
      have event : ending next = .failed next.id next.node next.request why := by simp [ending, failure]
      rw [event]
      exact ⟨turned.id, grounds⟩

theorem followRequest {request : Message} {bytes} (encoded : request.encode = .ok bytes) (course : Course)
    (ackTimeout now : Time) (op : Op) (settled : course.Settled) :
    course.follow ackTimeout (.shown now op (.write bytes)) =
      { course with deeds := course.deeds ++ [.written bytes (.outstanding (now + ackTimeout))] } := by
  have start := encodedStart encoded
  rw [settled.followsOutput]
  simp [Course.add, start.1, start.2]

theorem repeatedExplains {link : Link} {course exchange due handshake bytes now} (active : link.active = some exchange)
    (created : exchange.phase = .created due) (outstanding : handshake.deadline = some (now + link.timing.ackTimeout))
    (encoded : exchange.request.encode = .ok bytes) (recounted : Recounted course link) :
    Recounted ((incidents now .transmit [.write bytes]).foldl (Course.follow link.timing.ackTimeout) course)
      { link with handshake, active := some exchange.onSent } := by
  obtain ⟨id, account⟩ := recounted exchange active
  have settled := account.settled (by simp [created])
  simp only [Account, created] at account
  obtain ⟨full, losses, ⟨bytes', encoded', deeds⟩, count⟩ := account
  cases encoded.symm.trans encoded'
  simp only [incidents, List.map_cons, List.map_nil, List.foldl_cons, List.foldl_nil, settled.followsCall,
    followRequest encoded _ _ _ _ settled, sentCreated created]
  intro other found
  cases Option.some.inj found
  exact ⟨id, full, bytes, losses, _, encoded, count, outstanding, by rw [deeds]⟩

theorem startedFollows (course : Course) (ackTimeout now : Time) (op : Op) (id : Nat) (node : Option NodeId) :
    course.follow ackTimeout (.shown now op (.event (.started id node))) = { id, deeds := [] } := rfl

theorem releasedExplains {link : Link} {timing : Timing} (same : link.timing = timing) (idle : link.active = none)
    (course : Course) (now : Time) :
    Explains timing course ((link.startNext now).2.map (.shown now .transmit)) ∧
      Recounted (((link.startNext now).2.map (.shown now .transmit)).foldl (Course.follow timing.ackTimeout) course)
        (link.startNext now).1 := by
  fun_induction startNext link now generalizing course with
  | case1 link nothing => exact ⟨trivial, by simp [Recounted, idle]⟩
  | case2 link after exchange begins started sent outputs writes =>
    obtain ⟨bytes, encoded, rfl, rfl⟩ := written writes
    have begun := begun begins
    have settled : ({ id := exchange.id, deeds := [] } : Course).Settled := fun _ => rfl
    refine ⟨⟨trivial, trivial, trivial⟩, ?_⟩
    simp only [started, List.map_cons, List.map_nil, List.foldl_cons, List.foldl_nil, startedFollows,
      followRequest encoded _ _ _ _ settled, sentCreated begun.phase]
    intro other found
    cases Option.some.inj found
    have deadline : now + after.timing.ackTimeout = now + timing.ackTimeout := by rw [begun.timing, same]
    exact ⟨rfl, begun.expected, bytes, [], _, encoded, begun.retries.symm, congrArg some deadline, rfl⟩
  | case3 link after exchange begins started refused last later recursion ih =>
    obtain ⟨fault, unencodable⟩ := unwritten refused
    have begun := begun begins
    have rest := ih (begun.timing.trans same) rfl ({ id := exchange.id, deeds := [] } : Course)
    rw [recursion] at rest
    simp only [started, rejectedEnding begun.phase, List.map_cons, List.foldl_cons, startedFollows]
    exact ⟨⟨trivial, ⟨rfl, .unencodable unencodable rfl⟩, rest.1⟩, rest.2⟩

theorem callExplains {link after : Link} {course now op outputs} (sound : link.Sound)
    (call : Call link now op outputs after) (recounted : Recounted course link) :
    Explains link.timing course (incidents now op outputs) ∧
      Recounted ((incidents now op outputs).foldl (Course.follow link.timing.ackTimeout) course) after := by
  cases call with
  | aside outbox same unsettled stray =>
    exact ⟨straysQuiet stray link.timing course now op, asideExplains same unsettled stray recounted⟩
  | turned outbox active turns settled =>
    obtain ⟨id, account⟩ := recounted _ active
    exact turnedExplains (turnTurned sound active turns id account) (turnsQuiet turns link.timing course) rfl settled
  | repeated active created outstanding encoded =>
    refine ⟨explainsQuiet course ?_, repeatedExplains active created outstanding encoded recounted⟩
    simp [incidents, Incident.Explained]
  | released idle =>
    have released := releasedExplains rfl idle (course.follow link.timing.ackTimeout (.made now .transmit)) now
    exact ⟨⟨trivial, released.1⟩, released.2⟩

theorem freshRecounted (timing : Timing) (slots : Slots) : Recounted {} (fresh timing slots) := by
  simp [Recounted, fresh]

theorem runExplains {link : Link} {course} (sound : link.Sound) (recounted : Recounted course link)
    (history : List (Time × Op)) :
    Explains link.timing course (link.log history) ∧
      Recounted ((link.log history).foldl (Course.follow link.timing.ackTimeout) course) (link.run history).1 := by
  induction history generalizing link course with
  | nil => exact ⟨trivial, recounted⟩
  | cons call rest ih =>
    obtain ⟨now, op⟩ := call
    have path := stepPath sound now op
    obtain ⟨explains, after⟩ := callExplains sound (stepCall sound now op) recounted
    have later := ih (path.sound sound) after
    rw [path.timing] at later
    have split : link.log ((now, op) :: rest) =
        incidents now op (link.step now op).2 ++ (link.step now op).1.log rest := rfl
    rw [split, explainsAppend, List.foldl_append]
    exact ⟨⟨explains, later.1⟩, later.2⟩

theorem endingExplained (timing : Timing) (slots : Slots) {history : List (Time × Op)} {before incident later}
    (seen : (fresh timing slots).log history = before ++ incident :: later) :
    incident.Explained timing (Course.behind timing.ackTimeout before) := by
  have explains := (runExplains (freshSound timing slots) (freshRecounted timing slots) history).1
  rw [seen] at explains
  exact explains.here

theorem Account.expects {exchange : Exchange} {outstanding course replies}
    (account : Account exchange outstanding course) (rests : exchange.AtRest)
    (delivered : course.Delivered exchange.request replies) :
    replies.length < (Reply.plan exchange.request).length := by
  obtain ⟨bytes, reached⟩ := delivered.reached
  rcases rests.waits with ⟨due, created, _⟩ | sent | ⟨late, awaiting, more⟩
  · simp only [Account, created] at account
    obtain ⟨_, losses, ⟨_, _, deeds⟩, _⟩ := account
    simp [deeds, inVain] at reached
  · simp only [Account, sent] at account
    obtain ⟨_, _, losses, deadline, _, _, _, deeds⟩ := account
    simp [deeds, inVain] at reached
  · simp only [Account, awaiting] at account
    obtain ⟨others, same, heard⟩ := account
    have unique : others = replies := same.replies.symm.trans delivered.replies
    have left := List.length_pos_iff.mpr more
    rw [← unique, heard.counted]
    omega

theorem inFlightExpects (timing : Timing) (slots : Slots) (history : List (Time × Op)) {exchange replies}
    (active : ((fresh timing slots).run history).1.active = some exchange)
    (delivered : (Course.behind timing.ackTimeout ((fresh timing slots).log history)).Delivered
      exchange.request replies) : replies.length < (Reply.plan exchange.request).length := by
  have recounted := (runExplains (freshSound timing slots) (freshRecounted timing slots) history).2
  have sound := runSound (freshSound timing slots) history
  exact (recounted exchange active).2.expects (sound.rests exchange active) delivered

end ZWaveHost.Link
