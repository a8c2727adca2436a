import ZWaveHost.Proofs.Link.Course
import ZWaveHost.Proofs.Link.Move

/-! What one call does to the exchange in flight, by the call. It passes the exchange by, turns it, repeats its request,
or starts what is ready; what is outstanding is settled by the first call that says so, and by no other. So every call
is a path of moves, and a history is the path of all its calls. -/
namespace ZWaveHost.Link

inductive Turns (link : Link) (now : Time) (exchange : Exchange) : Op → List Output → Exchange → Prop
  | acknowledged (sent : exchange.phase = .sent) :
      Turns link now exchange (.inbound .ack) [] (exchange.onAck link.timing now)
  | lost {op deadline why} (sent : exchange.phase = .sent) (outstanding : link.handshake.deadline = some deadline)
      (told : Fate.settledBy deadline now op = some (.lost why)) :
      Turns link now exchange op [] (exchange.onUndelivered link.timing now)
  | replied {frame} (next : exchange.isNextReply (.ofFrame frame .controller)) :
      Turns link now exchange (.inbound (.frame frame))
        [.write [Wire.ack], .event (.received (.ofFrame frame .controller) (some (contextOf exchange)))]
        (exchange.onReply (.ofFrame frame .controller) link.timing now)
  | late {deadline} (awaiting : exchange.phase = .awaiting deadline) (passed : deadline ≤ now) :
      Turns link now exchange .expire [] (exchange.expire now)
  | cancelled : Turns link now exchange .abort [] (exchange.fail .cancelled)

inductive Call (link : Link) (now : Time) : Op → List Output → Link → Prop
  | aside {op outputs handshake} (outbox : Outbox) (same : handshake.deadline = link.handshake.deadline)
      (unsettled : ∀ deadline, link.handshake.deadline = some deadline → Fate.settledBy deadline now op = none)
      (stray : ∀ output ∈ outputs, output.IsStray) : Call link now op outputs { link with handshake, outbox }
  | turned {op exchange next heard handshake} (outbox : Outbox) (active : link.active = some exchange)
      (turns : Turns link now exchange op heard next) (settled : handshake.deadline = none) :
      Call link now op (heard ++ { link with handshake, outbox, active := some next }.conclude.2)
        { link with handshake, outbox, active := some next }.conclude.1
  | repeated {exchange due handshake bytes} (active : link.active = some exchange)
      (created : exchange.phase = .created due)
      (outstanding : handshake.deadline = some (now + link.timing.ackTimeout))
      (encoded : exchange.request.encode = .ok bytes) :
      Call link now .transmit [.write bytes] { link with handshake, active := some exchange.onSent }
  | released (idle : link.active = none) : Call link now .transmit (link.startNext now).2 (link.startNext now).1

theorem onControlCall {link : Link} (sound : link.Sound) {op byte} (now : Time)
    (means : op = .inbound (match byte with | .ack => .ack | .nak => .nak | .can => .can)) :
    Call link now op (link.onControl byte now).2 (link.onControl byte now).1 := by
  cases deadline : link.handshake.deadline with
  | none =>
    simp only [onControl, Handshake.control, deadline]
    rw [concludeRests]
    · exact .aside link.outbox deadline.symm (by simp [deadline]) (by simp)
    · exact sound.rests
  | some late =>
    obtain ⟨exchange, active, sent⟩ := sound.gates.mp (by simp [Handshake.isAwaiting, deadline])
    simp only [onControl, Handshake.control, deadline, active, Option.map_some]
    subst means
    cases byte with
    | ack => exact .turned link.outbox active (.acknowledged sent) rfl
    | nak => exact .turned link.outbox active (.lost sent deadline rfl) rfl
    | can => exact .turned link.outbox active (.lost sent deadline rfl) rfl

theorem frameCall {link : Link} (sound : link.Sound) (frame : Frame) (now : Time) :
    Call link now (.inbound (.frame frame)) (link.inbound (.frame frame) now).2
      (link.inbound (.frame frame) now).1 := by
  cases addressed : { link with handshake := link.handshake.countReceived }.addressee (.ofFrame frame .controller) with
  | none =>
    have rests : ∀ exchange, { link with handshake := link.handshake.countReceived }.active = some exchange →
        exchange.AtRest := sound.rests
    simp only [inbound, onMessage, addressed, Option.elim_none, Option.map_none, concludeRests rests]
    exact .aside link.outbox rfl (fun _ _ => rfl) (by simp [Output.IsStray])
  | some exchange =>
    obtain ⟨active, next⟩ := Option.filter_eq_some_iff.mp addressed
    have active : link.active = some exchange := active
    simp only [inbound, onMessage, addressed, Option.elim_some, Option.map_some, onReply]
    refine .turned link.outbox active (.replied next) ?_
    split
    · rfl
    · rename_i unsent
      exact sound.settled fun other found => Option.some.inj (active.symm.trans found) ▸ unsent

theorem expireCall {link : Link} (sound : link.Sound) (now : Time) :
    Call link now .expire (link.expire now).2 (link.expire now).1 := by
  cases isLate : link.handshake.isLate now with
  | true =>
    obtain ⟨exchange, active, sent, expired⟩ := expireLate sound isLate
    obtain ⟨deadline, outstanding, passed⟩ : ∃ deadline, link.handshake.deadline = some deadline ∧ deadline ≤ now := by
      simpa [Handshake.isLate, Option.any_eq_true] using isLate
    rw [expired]
    have told : Fate.settledBy deadline now .expire = some (.lost .ackTimeout) := by simp [Fate.settledBy, passed]
    exact .turned link.outbox active (.lost sent outstanding told) (by simp [Handshake.expire, isLate])
  | false =>
    have unsettled : ∀ deadline, link.handshake.deadline = some deadline →
        Fate.settledBy deadline now .expire = none := by
      intro deadline outstanding
      have inTime : now < deadline := by simpa [Handshake.isLate, outstanding] using isLate
      simp [Fate.settledBy, inTime]
    rw [expireInTime isLate]
    cases active : link.active with
    | none =>
      simp only [Option.map_none]
      rw [concludeRests (by simp), ← active]
      exact .aside link.outbox rfl unsettled (by simp)
    | some exchange =>
      simp only [Option.map_some]
      rcases exchange.expired now with same | ⟨deadline, awaiting, passed⟩
      · rw [same, ← active, concludeRests sound.rests]
        exact .aside link.outbox rfl unsettled (by simp)
      · refine .turned link.outbox active (.late awaiting passed) (sound.settled ?_)
        intro other found
        simp [← Option.some.inj (active.symm.trans found), awaiting]

theorem transmitCall {link : Link} (sound : link.Sound) (now : Time) :
    Call link now .transmit (link.transmit now).2 (link.transmit now).1 := by
  have nothing : Call link now .transmit [] link :=
    .aside link.outbox rfl (fun _ _ => rfl) (by simp)
  unfold transmit
  split
  · exact nothing
  · split
    · rename_i idle
      exact .released idle
    · rename_i exchange active
      split
      · rename_i due
        obtain ⟨bytes, encoded⟩ := (sound.underway exchange active).encodes
        split
        · rename_i sent writes
          obtain ⟨_, encoded, outputs, after⟩ := written writes
          obtain ⟨_, created, _⟩ := dueCreated due
          rw [outputs, after]
          exact .repeated active created rfl encoded
        · rename_i refused
          obtain ⟨fault, unencodable⟩ := unwritten refused
          simp [encoded] at unencodable
      · exact nothing

theorem abortCall {link : Link} (sound : link.Sound) (now : Time) : Call link now .abort link.abort.2 link.abort.1 := by
  cases active : link.active with
  | none =>
    have settled : link.handshake.deadline = none := sound.settled (by simp [active])
    simp only [abort, active, Option.map_none]
    rw [concludeRests (by simp), ← active]
    exact .aside _ settled.symm (by simp [settled]) (by simp)
  | some exchange =>
    have stopped : exchange.stop .cancelled = exchange.fail .cancelled := by
      simp [Exchange.stop, (sound.rests exchange active).goesOn]
    have terminal : (exchange.fail .cancelled).isTerminal = true := rfl
    have turns : Turns link now exchange .abort [] (exchange.fail .cancelled) := .cancelled
    have turned := Call.turned link.outbox.clear active turns (rfl : link.handshake.settle.deadline = none)
    simpa [abort, active, stopped, conclude, terminal] using turned

theorem stepCall {link : Link} (sound : link.Sound) (now : Time) (op : Op) :
    Call link now op (link.step now op).2 (link.step now op).1 := by
  have queued {op : Op} (outbox : Outbox) (unsettled : ∀ deadline, Fate.settledBy deadline now op = none) :
      Call link now op [] { link with outbox } :=
    .aside outbox rfl (fun deadline _ => unsettled deadline) (by simp)
  cases op with
  | enqueue outbound =>
    simp only [step, enqueue]
    cases link.outbox.enqueue outbound with
    | error fault => exact queued link.outbox fun _ => rfl
    | ok outbox => exact queued outbox fun _ => rfl
  | accept outbound => exact queued _ fun _ => rfl
  | wake node => exact queued _ fun _ => rfl
  | sleep node => exact queued _ fun _ => rfl
  | inbound item =>
    cases item with
    | ack => exact onControlCall sound now rfl
    | nak => exact onControlCall sound now rfl
    | can => exact onControlCall sound now rfl
    | frame frame => exact frameCall sound frame now
    | rejected _ => exact .aside link.outbox rfl (fun _ _ => rfl) (by simp [step, inbound, Output.IsStray])
  | expire => exact expireCall sound now
  | transmit => exact transmitCall sound now
  | abort => exact abortCall sound now

theorem strayAside {output : Output} (stray : output.IsStray) : output.IsAside := by
  unfold Output.IsStray at stray
  split at stray
  · exact stray
  · trivial
  · contradiction

theorem Turns.changes {link : Link} {now exchange next op heard} (turns : Turns link now exchange op heard next) :
    ∃ answer later, heard = answer ++ later ∧ (∀ output ∈ answer, output.IsAside) ∧
      exchange.Changes link.timing now later next := by
  cases turns with
  | acknowledged sent => exact ⟨[], [], rfl, by simp, .acknowledged sent⟩
  | lost sent => exact ⟨[], [], rfl, by simp, .undelivered sent⟩
  | replied next => exact ⟨[.write [Wire.ack]], _, rfl, by simp [Output.IsAside], .replied next⟩
  | late awaiting passed => exact ⟨[], [], rfl, by simp, .late awaiting passed⟩
  | cancelled => exact ⟨[], [], rfl, by simp, .cancelled⟩

theorem concludePath {link : Link} {exchange next heard handshake} (now : Time) (active : link.active = some exchange)
    (changes : exchange.Changes link.timing now heard next) (settled : handshake.deadline = none) :
    Path link (heard ++ { link with handshake, active := some next }.conclude.2)
      { link with handshake, active := some next }.conclude.1 := by
  cases ends : next.isTerminal with
  | true => simpa [conclude, ends] using Path.one now (.finish active changes settled ends)
  | false => simpa [conclude, ends] using Path.one now (.goOn active changes settled ends)

theorem Call.path {link after : Link} {now op outputs} (call : Call link now op outputs after) (sound : link.Sound) :
    Path link outputs after := by
  cases call with
  | aside outbox same _ stray => exact .one now (.aside link same fun output member => strayAside (stray output member))
  | turned outbox active turns settled =>
    obtain ⟨answer, later, rfl, aside, changes⟩ := turns.changes
    have first : Move now link answer { link with outbox } := .aside link rfl aside
    rw [List.append_assoc]
    exact .move first (concludePath now active changes settled)
  | repeated active created outstanding encoded =>
    exact .one now (.rewrite active created (by simp [outstanding]) encoded)
  | released idle => exact startNextPath sound idle now

theorem stepPath {link : Link} (sound : link.Sound) (now : Time) (op : Op) :
    Path link (link.step now op).2 (link.step now op).1 := (stepCall sound now op).path sound

theorem inboundPath {link : Link} (sound : link.Sound) (item : Item) (now : Time) :
    Path link (link.inbound item now).2 (link.inbound item now).1 := stepPath sound now (.inbound item)

theorem transmitPath {link : Link} (sound : link.Sound) (now : Time) :
    Path link (link.transmit now).2 (link.transmit now).1 := stepPath sound now .transmit

theorem runAppend (link : Link) (history later : List (Time × Op)) :
    link.run (history ++ later) =
      (((link.run history).1.run later).1, (link.run history).2 ++ ((link.run history).1.run later).2) := by
  induction history generalizing link with
  | nil => rfl
  | cons call rest ih => simp only [List.cons_append, run, ih]

theorem runPath {link : Link} (sound : link.Sound) (history : List (Time × Op)) :
    Path link (link.run history).2.flatten (link.run history).1 := by
  induction history generalizing link with
  | nil => exact .stay link
  | cons call rest ih =>
    have first := stepPath sound call.1 call.2
    exact first.append (ih (first.sound sound))

theorem runSound {link : Link} (sound : link.Sound) (history : List (Time × Op)) : (link.run history).1.Sound :=
  (runPath sound history).sound sound

end ZWaveHost.Link
