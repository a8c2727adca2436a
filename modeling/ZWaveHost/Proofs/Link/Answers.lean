import ZWaveHost.Proofs.Link.Attempts

/-! Every frame that comes in is answered and shown at once, whatever the exchange in flight makes of it. Besides the
answer and the message an item brings out at most the end of that exchange, and no other call brings out either of
the two. -/
namespace ZWaveHost

def Output.answer? : Output → Option UInt8
  | .write [byte] => if byte = Wire.ack ∨ byte = Wire.nak then some byte else none
  | _ => none

def Output.message? : Output → Option Message
  | .event (.received message _) => some message
  | _ => none

namespace Item

def answer? : Item → Option UInt8
  | frame _ => some Wire.ack
  | rejected _ => some Wire.nak
  | ack | nak | can => none

def message? : Item → Option Message
  | frame content => some (.ofFrame content .controller)
  | _ => none

def isControl : Item → Bool
  | ack | nak | can => true
  | _ => false

end Item

def Link.Op.item? : Link.Op → Option Item
  | .inbound item => some item
  | _ => none

namespace Output

theorem answerAside {output : Output} (concerns : ¬ output.IsAside) : output.answer? = none := by
  unfold answer?
  split
  · rename_i byte
    exact if_neg fun lone => concerns (by simpa [IsAside] using lone)
  · rfl

theorem messageAside {output : Output} (concerns : ¬ output.IsAside) : output.message? = none := by
  unfold message?
  split
  · exact absurd trivial concerns
  · rfl

end Output

namespace Exchange

def IsSame (exchange next : Exchange) : Prop := next.id = exchange.id ∧ next.request = exchange.request

theorem Changes.same {timing now} {exchange next : Exchange} {heard}
    (changes : Changes timing now exchange heard next) : exchange.IsSame next :=
  ⟨changes.changed.id, changes.changed.request⟩

theorem onAckSame (exchange : Exchange) (timing : Timing) (now : Time) :
    exchange.IsSame (exchange.onAck timing now) := by
  by_cases sent : exchange.phase = .sent
  · exact (Changes.acknowledged sent).same
  · simp [IsSame, onAck]

theorem onUndeliveredSame (exchange : Exchange) (timing : Timing) (now : Time) :
    exchange.IsSame (exchange.onUndelivered timing now) := by
  by_cases sent : exchange.phase = .sent
  · exact (Changes.undelivered sent).same
  · simp [IsSame, onUndelivered]

theorem nextReplyAttempted {exchange : Exchange} {message} (next : exchange.isNextReply message) :
    0 < exchange.attempts := by
  have written := nextReplyWritten next
  unfold attempts
  split
  · rename_i created
    exact absurd created (written _)
  · exact Nat.succ_pos _

theorem nextReplyExpected {exchange : Exchange} {message} (next : exchange.isNextReply message) :
    exchange.expected.head?.any (·.admits message) := by
  unfold isNextReply at next
  split at next
  · exact next
  · exact next
  · contradiction

end Exchange

namespace Link
open Transcript

def Closes (link : Link) (outputs : List Output) : Prop :=
  outputs = [] ∨ ∃ exchange event, link.active = some exchange ∧ Ends exchange.id exchange.request event ∧
    outputs = [.event event]

inductive Answered (link : Link) : Item → List Output → Prop
  | shown {frame context closing} (closes : link.Closes closing) :
      Answered link (.frame frame)
        (.write [Wire.ack] :: .event (.received (.ofFrame frame .controller) context) :: closing)
  | refused {why} : Answered link (.rejected why) [.write [Wire.nak]]
  | settled {item closing} (control : item.isControl) (closes : link.Closes closing) : Answered link item closing

def Awaits (before : List Output) (link : Link) (message : Message) (context : Context) : Prop :=
  ∃ exchange bytes, link.active = some exchange ∧ context = contextOf exchange ∧
    exchange.request.encode = .ok bytes ∧ bytes ∈ writesOf exchange.id before ∧
    exchange.expected.head?.any (·.admits message)

theorem concludeCloses {link after : Link}
    (same : ∀ next, after.active = some next → ∃ exchange, link.active = some exchange ∧ exchange.IsSame next) :
    link.Closes after.conclude.2 := by
  unfold conclude
  split
  · rename_i next found
    obtain ⟨exchange, active, id, request⟩ := same next found
    split
    · exact .inr ⟨exchange, ending next, active, id ▸ request ▸ endingEnds next, rfl⟩
    · exact .inl rfl
  · exact .inl rfl

theorem onControlCloses (link : Link) (byte : Control) (now : Time) : link.Closes (link.onControl byte now).2 := by
  have turned {turn : Exchange → Exchange} (keeps : ∀ exchange : Exchange, exchange.IsSame (turn exchange))
      (next : Exchange) (found : link.active.map turn = some next) :
      ∃ exchange, link.active = some exchange ∧ exchange.IsSame next := by
    obtain ⟨exchange, active, rfl⟩ := Option.map_eq_some_iff.mp found
    exact ⟨exchange, active, keeps exchange⟩
  unfold onControl
  generalize link.handshake.control byte = settled
  obtain ⟨handshake, outcome⟩ := settled
  refine concludeCloses ?_
  cases outcome with
  | delivered => exact turned (Exchange.onAckSame · link.timing now)
  | failed why => exact turned (Exchange.onUndeliveredSame · link.timing now)
  | unexpected => exact fun exchange active => ⟨exchange, active, rfl, rfl⟩

theorem addressed {link : Link} {message exchange} (found : link.addressee message = some exchange) :
    link.active = some exchange ∧ exchange.isNextReply message :=
  Option.filter_eq_some_iff.mp found

theorem frameShown (link : Link) (frame : Frame) (now : Time) :
    ∃ closing, link.Closes closing ∧
      (link.inbound (.frame frame) now).2 = .write [Wire.ack] :: .event (.received (.ofFrame frame .controller)
        ((link.addressee (.ofFrame frame .controller)).map contextOf)) :: closing := by
  refine ⟨_, concludeCloses ?_, rfl⟩
  intro next found
  have same : { link with handshake := link.handshake.countReceived }.addressee (.ofFrame frame .controller) =
      link.addressee (.ofFrame frame .controller) := rfl
  rw [same] at found
  cases expecting : link.addressee (.ofFrame frame .controller) with
  | none => exact ⟨next, by simpa [expecting] using found, rfl, rfl⟩
  | some exchange =>
    obtain ⟨active, isNext⟩ := addressed expecting
    rw [expecting] at found
    cases Option.some.inj found
    exact ⟨exchange, active, (Exchange.Changes.replied isNext).same⟩

theorem inboundAnswered (link : Link) (item : Item) (now : Time) : Answered link item (link.inbound item now).2 := by
  cases item with
  | ack => exact .settled rfl (link.onControlCloses .ack now)
  | nak => exact .settled rfl (link.onControlCloses .nak now)
  | can => exact .settled rfl (link.onControlCloses .can now)
  | frame frame =>
    obtain ⟨closing, closes, shown⟩ := link.frameShown frame now
    exact shown ▸ .shown closes
  | rejected why => exact .refused

theorem endsOwn {id request event} (ends : Ends id request event) : ¬ (Output.event event).IsAside := by
  rcases ends with rfl | ⟨why, rfl⟩ <;> simp [Output.IsAside]

theorem concludeOwn (link : Link) : ∀ output ∈ link.conclude.2, ¬ output.IsAside := by
  unfold conclude
  split
  · split
    · simp [endsOwn (endingEnds _)]
    · simp
  · simp

theorem writtenOwn {link : Link} {exchange now sent outputs}
    (writes : link.write? exchange now = some (sent, outputs)) : ∀ output ∈ outputs, ¬ output.IsAside := by
  obtain ⟨bytes, encoded, rfl, _⟩ := written writes
  simpa [Output.IsAside] using encodedStart encoded

theorem startNextOwn (link : Link) (now : Time) : ∀ output ∈ (link.startNext now).2, ¬ output.IsAside := by
  fun_induction startNext link now with
  | case1 => simp
  | case2 link after exchange _ started sent outputs writes =>
    exact List.forall_mem_cons.mpr ⟨by simp [started, Output.IsAside], writtenOwn writes⟩
  | case3 link after exchange _ started _ last later recursion ih =>
    rw [recursion] at ih
    have refused : ¬ (Output.event (ending (exchange.stop .rejected))).IsAside := endsOwn (endingEnds _)
    exact List.forall_mem_cons.mpr ⟨by simp [started, Output.IsAside], List.forall_mem_cons.mpr ⟨refused, ih⟩⟩

theorem transmitOwn (link : Link) (now : Time) : ∀ output ∈ (link.transmit now).2, ¬ output.IsAside := by
  unfold transmit
  split
  · simp
  · split
    · exact startNextOwn link now
    · split
      · split
        · rename_i sent writes
          exact writtenOwn writes
        · exact List.forall_mem_cons.mpr ⟨endsOwn (endingEnds _), startNextOwn _ now⟩
      · simp

theorem stepOwn (link : Link) (now : Time) {op : Op} (nothing : op.item? = none) :
    ∀ output ∈ (link.step now op).2, ¬ output.IsAside := by
  cases op with
  | enqueue | accept | wake | sleep => simp [step]
  | inbound => contradiction
  | expire => exact concludeOwn _
  | transmit => exact link.transmitOwn now
  | abort => exact concludeOwn _

theorem runPicks {α : Type} {pick : Output → Option α} {due : Item → Option α}
    (silent : ∀ {output : Output}, ¬ output.IsAside → pick output = none)
    (answers : ∀ {link : Link} {item outputs}, Answered link item outputs → outputs.filterMap pick = (due item).toList)
    (link : Link) (history : List (Time × Op)) :
    (link.run history).2.flatten.filterMap pick = (history.filterMap (·.2.item?)).filterMap due := by
  induction history generalizing link with
  | nil => rfl
  | cons call rest ih =>
    obtain ⟨now, op⟩ := call
    simp only [run, List.flatten_cons, List.filterMap_append, ih]
    cases taken : op.item? with
    | none =>
      have none : (link.step now op).2.filterMap pick = [] :=
        List.filterMap_eq_nil_iff.mpr fun output member => silent (link.stepOwn now taken output member)
      simp [none, taken]
    | some item =>
      cases op with
      | inbound =>
        cases Option.some.inj taken
        have own := answers (link.inboundAnswered item now)
        cases owed : due item <;> simp [step, own, owed, Op.item?]
      | _ => contradiction

theorem Closes.own {link : Link} {closing} (closes : link.Closes closing) : ∀ output ∈ closing, ¬ output.IsAside := by
  rcases closes with rfl | ⟨exchange, event, _, ends, rfl⟩
  · simp
  · simpa using endsOwn ends

theorem Answered.picks {link : Link} {item outputs} (answered : Answered link item outputs) :
    outputs.filterMap Output.answer? = item.answer?.toList ∧
      outputs.filterMap Output.message? = item.message?.toList := by
  have silent {closing} (closes : link.Closes closing) :
      closing.filterMap Output.answer? = [] ∧ closing.filterMap Output.message? = [] :=
    ⟨List.filterMap_eq_nil_iff.mpr fun output member => Output.answerAside (closes.own output member),
      List.filterMap_eq_nil_iff.mpr fun output member => Output.messageAside (closes.own output member)⟩
  cases answered with
  | shown closes =>
    obtain ⟨unanswered, unshown⟩ := silent closes
    exact ⟨congrArg (List.cons Wire.ack) unanswered, congrArg (List.cons _) unshown⟩
  | refused => exact ⟨rfl, rfl⟩
  | settled control closes =>
    cases item with
    | ack | nak | can => exact silent closes
    | frame | rejected => contradiction

theorem shownTo {link : Link} {item now message context}
    (shown : .event (.received message context) ∈ (link.inbound item now).2) :
    context = (link.addressee message).map contextOf := by
  have unclosed {closing} (closes : link.Closes closing) : .event (.received message context) ∉ closing :=
    fun member => closes.own _ member trivial
  cases item with
  | ack => exact absurd shown (unclosed (link.onControlCloses .ack now))
  | nak => exact absurd shown (unclosed (link.onControlCloses .nak now))
  | can => exact absurd shown (unclosed (link.onControlCloses .can now))
  | rejected why => simp [inbound] at shown
  | frame frame =>
    obtain ⟨closing, closes, shows⟩ := link.frameShown frame now
    rw [shows] at shown
    rcases List.mem_cons.mp (List.mem_of_ne_of_mem (by simp) shown) with same | later
    · cases same
      rfl
    · exact absurd later (unclosed closes)

theorem contextAwaits {before : List Output} {link : Link} (told : Told before link) (sound : link.Sound)
    {item now message context}
    (shown : .event (.received message (some context)) ∈ (link.inbound item now).2) :
    Awaits before link message context := by
  obtain ⟨exchange, found, own⟩ := Option.map_eq_some_iff.mp (shownTo shown).symm
  obtain ⟨active, isNext⟩ := addressed found
  obtain ⟨bytes, encoded⟩ := (sound.underway exchange active).encodes
  have attempted := Exchange.nextReplyAttempted isNext
  refine ⟨exchange, bytes, active, own.symm, encoded, ?_, Exchange.nextReplyExpected isNext⟩
  -- What waits for a reply was attempted, and as often as it was attempted it was written.
  rw [told.repeated sound active encoded]
  exact List.mem_replicate.mpr ⟨Nat.ne_of_gt attempted, rfl⟩

/-- Frames that come in are acknowledged and shown and rejected ones refused, each once, at once and in their order,
whatever else happens. A frame is shown with an exchange only if that is in flight, has its request on the line and
expects just this frame next. -/
theorem itemsAnsweredOnce (timing : Timing) (slots : Slots) (history : List (Time × Op)) :
    let (link, outputs) := (fresh timing slots).run history
    let items := history.filterMap (·.2.item?)
    outputs.flatten.filterMap Output.answer? = items.filterMap Item.answer? ∧
    outputs.flatten.filterMap Output.message? = items.filterMap Item.message? ∧
    ∀ item now, Answered link item (link.inbound item now).2 ∧
      ∀ message context, .event (.received message (some context)) ∈ (link.inbound item now).2 →
        Awaits outputs.flatten link message context := by
  refine ⟨?_, ?_, fun item now => ⟨inboundAnswered _ item now, fun message context shown => ?_⟩⟩
  · exact runPicks Output.answerAside (fun answered => answered.picks.1) _ history
  · exact runPicks Output.messageAside (fun answered => answered.picks.2) _ history
  · exact contextAwaits (runTold timing slots history) (runSound (freshSound timing slots) history) shown

end Link

end ZWaveHost
