import ZWaveHost.Link

/-! The course of an exchange, read off the calls on a link and what they put out by somebody who knows nothing of its
state: how often the request was written, what became of every transmission, and which frames were taken as replies.
The course belongs to the exchange started last; exchanges do not overlap. -/
namespace ZWaveHost

def Output.IsStray : Output → Prop
  | .write bytes => bytes = [Wire.ack] ∨ bytes = [Wire.nak]
  | .event (.received _ context) => context = none
  | .event _ => False

namespace Link

inductive Incident
  | made (now : Time) (op : Op)
  | shown (now : Time) (op : Op) (output : Output)
  deriving DecidableEq, Repr

def incidents (now : Time) (op : Op) (outputs : List Output) : List Incident :=
  .made now op :: outputs.map (.shown now op)

def log (link : Link) (history : List (Time × Op)) : List Incident :=
  (history.zip (link.run history).2).flatMap fun ((now, op), outputs) => incidents now op outputs

inductive Fate
  | outstanding (deadline : Time)
  | acknowledged
  | answered
  | lost (why : Undelivered)
  | dropped
  deriving DecidableEq, Repr

namespace Fate

def settledBy (deadline now : Time) : Op → Option Fate
  | .inbound .ack => some acknowledged
  | .inbound .nak => some (lost .nak)
  | .inbound .can => some (lost .can)
  | .expire => if deadline ≤ now then some (lost .ackTimeout) else none
  | .abort => some dropped
  | _ => none

def meets (fate : Fate) (incident : Incident) : Fate :=
  match fate, incident with
  | outstanding deadline, .made now op => (settledBy deadline now op).getD fate
  | outstanding _, .shown _ _ (.event (.received _ (some _))) => answered
  | _, _ => fate

end Fate

inductive Deed
  | written (bytes : Bytes) (fate : Fate)
  | replied (frame : Frame)
  deriving DecidableEq, Repr

def Deed.meets (deed : Deed) (incident : Incident) : Deed :=
  match deed with
  | written bytes fate => written bytes (fate.meets incident)
  | replied frame => replied frame

def Deed.reply? : Deed → Option Frame
  | written .. => none
  | replied frame => some frame

def inVain (bytes : Bytes) (losses : List Undelivered) : List Deed :=
  losses.map fun why => .written bytes (.lost why)

structure Course where
  id : Nat := 0
  deeds : List Deed := []
  deriving DecidableEq, Repr

namespace Course

/- What an output adds to the course. A lone byte answers a frame and belongs to no exchange. -/
def add (ackTimeout : Time) (course : Course) (now : Time) (op : Op) (output : Output) : Course :=
  match output, op with
  | .event (.started id _), _ => ⟨id, []⟩
  | .write bytes, _ =>
    if bytes = [Wire.ack] ∨ bytes = [Wire.nak] then course
    else { course with deeds := course.deeds ++ [.written bytes (.outstanding (now + ackTimeout))] }
  | .event (.received _ (some context)), .inbound (.frame frame) =>
    if context.id = course.id then { course with deeds := course.deeds ++ [.replied frame] } else course
  | _, _ => course

def follow (ackTimeout : Time) (course : Course) (incident : Incident) : Course :=
  let met := { course with deeds := course.deeds.map (·.meets incident) }
  match incident with
  | .made _ _ => met
  | .shown now op output => met.add ackTimeout now op output

def behind (ackTimeout : Time) (log : List Incident) : Course := log.foldl (follow ackTimeout) {}

def Delivered (course : Course) (request : Message) (replies : List Frame) : Prop :=
  ∃ bytes losses fate, request.encode = .ok bytes ∧
    (fate = .acknowledged ∨ fate = .answered ∧ replies ≠ []) ∧
    course.deeds = inVain bytes losses ++ .written bytes fate :: replies.map .replied

def Lost (course : Course) (request : Message) (losses : List Undelivered) : Prop :=
  ∃ bytes, request.encode = .ok bytes ∧ course.deeds = inVain bytes losses

def Settled (course : Course) : Prop := ∀ incident, course.deeds.map (·.meets incident) = course.deeds

theorem inVainSettled (bytes : Bytes) (losses : List Undelivered) (incident : Incident) :
    (inVain bytes losses).map (·.meets incident) = inVain bytes losses := by
  simp [inVain, Deed.meets, Fate.meets]

theorem Lost.settled {course : Course} {request losses} (lost : course.Lost request losses) : course.Settled := by
  obtain ⟨bytes, _, deeds⟩ := lost
  intro incident
  rw [deeds, inVainSettled]

theorem Delivered.settled {course : Course} {request replies} (delivered : course.Delivered request replies) :
    course.Settled := by
  obtain ⟨bytes, losses, fate, _, final, deeds⟩ := delivered
  intro incident
  have stays : (Deed.written bytes fate).meets incident = .written bytes fate := by
    rcases final with rfl | ⟨rfl, _⟩
    · rfl
    · rfl
  have replied : (replies.map Deed.replied).map (·.meets incident) = replies.map Deed.replied := by
    simp [Deed.meets]
  rw [deeds, List.map_append, List.map_cons, inVainSettled, stays, replied]

theorem Delivered.replies {course : Course} {request replies} (delivered : course.Delivered request replies) :
    course.deeds.filterMap Deed.reply? = replies := by
  obtain ⟨bytes, losses, fate, _, _, deeds⟩ := delivered
  have lost : (inVain bytes losses).filterMap Deed.reply? = [] := by simp [inVain, Deed.reply?]
  have replied : (replies.map Deed.replied).filterMap Deed.reply? = replies := by
    simp [List.filterMap_map, Function.comp_def, Deed.reply?]
  rw [deeds, List.filterMap_append, lost, List.filterMap_cons, replied]
  rfl

theorem Delivered.reached {course : Course} {request replies} (delivered : course.Delivered request replies) :
    ∃ bytes, .written bytes .acknowledged ∈ course.deeds ∨ .written bytes .answered ∈ course.deeds := by
  obtain ⟨bytes, losses, fate, _, final, deeds⟩ := delivered
  rcases final with rfl | ⟨rfl, _⟩
  · exact ⟨bytes, .inl (by simp [deeds])⟩
  · exact ⟨bytes, .inr (by simp [deeds])⟩

theorem Settled.followsCall {course : Course} (settled : course.Settled) (ackTimeout now : Time) (op : Op) :
    course.follow ackTimeout (.made now op) = course := by
  simp only [follow, settled (.made now op)]

theorem Settled.followsOutput {course : Course} (settled : course.Settled) (ackTimeout now : Time) (op : Op)
    (output : Output) :
    course.follow ackTimeout (.shown now op output) = course.add ackTimeout now op output := by
  simp only [follow, settled (.shown now op output)]

theorem addStray {output : Output} (stray : output.IsStray) (course : Course) (ackTimeout now : Time) (op : Op) :
    course.add ackTimeout now op output = course := by
  unfold Output.IsStray at stray
  split at stray
  · simp [add, stray]
  · simp [add, stray]
  · contradiction

theorem meetsStray {output : Output} (stray : output.IsStray) (deed : Deed) (now : Time) (op : Op) :
    deed.meets (.shown now op output) = deed := by
  cases deed with
  | replied frame => rfl
  | written bytes fate =>
    unfold Output.IsStray at stray
    split at stray
    · cases fate <;> rfl
    · subst stray
      cases fate <;> rfl
    · contradiction

theorem followStray {output : Output} (stray : output.IsStray) (course : Course) (ackTimeout now : Time) (op : Op) :
    course.follow ackTimeout (.shown now op output) = course := by
  have same : course.deeds.map (·.meets (.shown now op output)) = course.deeds := by
    simp [meetsStray stray]
  simp only [follow, same, addStray stray]

end Course

end Link

end ZWaveHost
