import ZWaveHost.Proofs.Link.Grounds

/-! What the end of an exchange tells of its course. A failure names its cause truly, and the node is blamed only if the
controller took the request over; a completion tells that the request was served, but a response that is too short to
say whether it was accepted passes for one that says so. -/
namespace ZWaveHost.Link

def Course.TakenOver (course : Course) (request : Message) (response : Frame) (replies : List Frame) : Prop :=
  course.Delivered request (response :: replies) ∧ response.Responds request.function ∧ ¬ response.Refuses

def Course.Bears (course : Course) (timing : Timing) (op : Op) (request : Message) : Failure → Prop
  | .link attempts =>
    attempts = timing.maxRetries + 1 ∧ ∃ losses, losses.length = attempts ∧ course.Lost request losses
  | .timeout false => (∃ later, Reply.plan request = .response request.function :: later) ∧ course.Delivered request []
  | .timeout true =>
    if request.isAnnounced then ∃ response, course.TakenOver request response [] else course.Delivered request []
  | .network status => ∃ nodeId data options id response callback, request = .sendData nodeId data options id ∧
      course.TakenOver request response [callback] ∧
      Message.ofFrame callback .controller = .sendDataCallback id status ∧ status ≠ TxStatus.ok
  | .rejected => (course.deeds = [] ∧ ∃ fault, request.encode = .error fault) ∨
      ∃ response, course.Delivered request [response] ∧ response.Responds request.function ∧ response.Refuses
  | .cancelled => op = .abort

theorem lateBears {timing op} {course : Course} {request replies reply left}
    (delivered : course.Delivered request replies)
    (heard : Heard (Reply.plan request) replies (reply :: left)) :
    course.Bears timing op request (.timeout (!reply.isResponse)) := by
  cases response : reply.isResponse with
  | true =>
    obtain ⟨rfl, rfl⟩ := heard.responseAwaited response
    exact ⟨⟨left, heard.rest.symm⟩, delivered⟩
  | false =>
    cases announced : request.isAnnounced with
    | true =>
      obtain ⟨response, rfl, granted⟩ := heard.outcomeAwaited announced response
      simp only [Course.Bears, Bool.not_false, announced, if_true]
      exact ⟨response, delivered, granted⟩
    | false =>
      have alone : reply ∉ (Reply.plan request).tail := by simp [unannouncedPlan announced]
      cases heard.nothing alone
      simpa [Course.Bears, announced] using delivered

theorem reportedBears {timing op} {course : Course} {request replies reply left frame why}
    (delivered : course.Delivered request (replies ++ [frame]))
    (heard : Heard (Reply.plan request) replies (reply :: left)) (admits : reply.admits (.ofFrame frame .controller))
    (reported : Exchange.reportedFailure (.ofFrame frame .controller) = some why) :
    course.Bears timing op request why := by
  rcases reportedWhy reported with ⟨rfl, refuses⟩ | ⟨id, status, rfl, failed, callback⟩
  · obtain ⟨rfl, rfl⟩ := heard.responseAwaited (refusalResponds refuses admits)
    exact .inr ⟨frame, delivered, admitsResponse admits, refuses⟩
  · rw [callback] at admits
    cases callbackAdmitted admits
    obtain ⟨nodeId, data, options, rfl⟩ := planCallback heard.planned
    obtain ⟨response, rfl, granted⟩ := heard.outcomeAwaited rfl rfl
    exact ⟨nodeId, data, options, id, response, frame, rfl, ⟨delivered, granted⟩, callback, failed⟩

theorem groundsBear {timing op request} {course : Course} {why}
    (grounds : Grounds timing op request course (some why)) :
    course.Bears timing op request why := by
  cases grounds with
  | unacknowledged lost count => exact ⟨rfl, _, count, lost⟩
  | late delivered heard => exact lateBears delivered heard
  | reported delivered heard admits reported => exact reportedBears delivered heard admits reported
  | unencodable encoded untouched => exact .inl ⟨untouched, _, encoded⟩
  | cancelled aborted => exact aborted

theorem Course.Bears.taken {course : Course} {timing op request why} (bears : course.Bears timing op request why)
    (blames : why.blamesNode) (announced : request.isAnnounced) :
    ∃ response replies, course.TakenOver request response replies := by
  cases why with
  | network status =>
    obtain ⟨_, _, _, _, response, callback, _, taken, _⟩ := bears
    exact ⟨response, [callback], taken⟩
  | timeout callback =>
    cases callback with
    | true =>
      simp only [Bears, announced, if_true] at bears
      obtain ⟨response, taken⟩ := bears
      exact ⟨response, [], taken⟩
    | false => contradiction
  | link => contradiction
  | rejected => contradiction
  | cancelled => contradiction

/- Every failure is published for the cause that the course of its exchange shows, and no node is blamed for a request
that the controller refused or never had. -/
theorem failuresBorneOut (timing : Timing) (slots : Slots) {history : List (Time × Op)}
    {before later now op id node request} {why : Failure}
    (seen : (fresh timing slots).log history =
      before ++ .shown now op (.event (.failed id node request why)) :: later) :
    let course := Course.behind timing.ackTimeout before
    course.id = id ∧ course.Bears timing op request why ∧
      (why.blamesNode → request.isAnnounced → ∃ response replies, course.TakenOver request response replies) := by
  obtain ⟨same, grounds⟩ := endingExplained timing slots seen
  have bears := groundsBear grounds
  exact ⟨same, bears, bears.taken⟩

theorem unreachableNodeBlamed :
    let history := [(0, .enqueue { message := .send 3 [0x20, 0x02] }), (0, .transmit), (1, .inbound .nak),
      (101, .transmit), (102, .inbound .ack), (103, .inbound (.frame (.response FunctionId.sendData [0x01]))),
      (104, .inbound (.frame (.request FunctionId.sendData [0x01, 0x01])))]
    let log := (fresh {} {}).log history
    let op := .inbound (.frame (.request FunctionId.sendData [0x01, 0x01]))
    let request := .sendData 3 [0x20, 0x02] TxOptions.usual 1
    let course := Course.behind ({} : Timing).ackTimeout log.dropLast
    log = log.dropLast ++ [.shown 104 op (.event (.failed 1 (some 3) request (.network 0x01)))] ∧
      course.id = 1 ∧ course.Bears {} op request (.network 0x01) ∧
        ∃ response replies, course.TakenOver request response replies := by
  intro history log op request course
  have seen : log = log.dropLast ++ [.shown 104 op (.event (.failed 1 (some 3) request (.network 0x01)))] := by
    decide +kernel +zetaReduce
  obtain ⟨same, bears, taken⟩ := failuresBorneOut {} {} seen
  exact ⟨seen, same, bears, taken rfl rfl⟩

/- What the course of an exchange shows that is complete. The response may be too short to say that the request was
accepted. -/
def Course.Serves (course : Course) : Message → Prop
  | .sendData nodeId data options id => ∃ response callback,
      course.TakenOver (.sendData nodeId data options id) response [callback] ∧
      (Message.ofFrame response .controller = .sendDataResponse true ↔ response.payload ≠ []) ∧
      Message.ofFrame callback .controller = .sendDataCallback id TxStatus.ok
  | .nodeInfoRequest nodeId => ∃ response news update,
      course.TakenOver (.nodeInfoRequest nodeId) response [news] ∧
      (Message.ofFrame response .controller = .nodeInfoResponse true ↔ response.payload ≠ []) ∧
      Message.ofFrame news .controller = .nodeUpdate update ∧
      (update.target = some nodeId ∨ update.isRequestFailure)
  | request => ∃ replies, course.Delivered request replies ∧ Heard (Reply.plan request) replies []

theorem groundsServe {timing op request} {course : Course} (grounds : Grounds timing op request course none) :
    course.Serves request := by
  cases grounds with
  | served delivered heard =>
    cases request with
    | sendData nodeId data options id =>
      obtain ⟨response, others, outcome, rfl, responds, grants, plan, later⟩ := heard.announced rfl (by simp [Reply.plan])
      cases plan
      obtain ⟨callback, rfl, admits, clean⟩ := later.last
      obtain ⟨status, typed⟩ := admitsCallback admits
      have ok : status = TxStatus.ok := by simpa [typed, Exchange.reportedFailure] using clean
      have unrefused := fun refused => grants (.inl refused)
      have accepted := acceptedUnlessEmpty .sendDataResponse (by simp) (sendDataFlag responds) unrefused
      exact ⟨response, callback, ⟨delivered, responds, grants⟩, accepted, ok ▸ typed⟩
    | nodeInfoRequest nodeId =>
      obtain ⟨response, others, outcome, rfl, responds, grants, plan, later⟩ := heard.announced rfl (by simp [Reply.plan])
      cases plan
      obtain ⟨news, rfl, admits, clean⟩ := later.last
      obtain ⟨update, typed, about⟩ := admitsUpdate admits
      have unrefused := fun refused => grants (.inr refused)
      have accepted := acceptedUnlessEmpty .nodeInfoResponse (by simp) (nodeInfoFlag responds) unrefused
      exact ⟨response, news, update, ⟨delivered, responds, grants⟩, accepted, typed, about⟩
    | _ => exact ⟨_, delivered, heard⟩

theorem servesAll {course : Course} {request : Message} (serves : course.Serves request) :
    ∃ replies, course.Delivered request replies ∧ replies.length = (Reply.plan request).length := by
  unfold Course.Serves at serves
  split at serves
  · obtain ⟨response, callback, taken, _⟩ := serves
    exact ⟨[response, callback], taken.1, rfl⟩
  · obtain ⟨response, news, update, taken, _⟩ := serves
    exact ⟨[response, news], taken.1, rfl⟩
  · obtain ⟨replies, delivered, heard⟩ := serves
    exact ⟨replies, delivered, heard.counted.symm⟩

/- An exchange is complete only if its request was delivered and got its whole plan of replies, in order, and as soon
as that is so it is not in flight any more. -/
theorem completionServed (timing : Timing) (slots : Slots) (history : List (Time × Op)) :
    let link := fresh timing slots
    (∀ before later now op id node request,
      link.log history = before ++ .shown now op (.event (.completed id node request)) :: later →
        (Course.behind timing.ackTimeout before).id = id ∧ (Course.behind timing.ackTimeout before).Serves request) ∧
    ∀ exchange, (link.run history).1.active = some exchange →
      ¬ (Course.behind timing.ackTimeout (link.log history)).Serves exchange.request := by
  refine ⟨fun before later now op id node request seen => ?_, fun exchange active serves => ?_⟩
  · obtain ⟨same, grounds⟩ := endingExplained timing slots seen
    exact ⟨same, groundsServe grounds⟩
  · obtain ⟨replies, delivered, all⟩ := servesAll serves
    exact absurd all (Nat.ne_of_lt (inFlightExpects timing slots history active delivered))

theorem commandServed :
    let history := [(0, .enqueue { message := .send 3 [0x20, 0x02] }), (0, .transmit), (1, .inbound .ack),
      (2, .inbound (.frame (.response FunctionId.sendData [0x01]))),
      (3, .inbound (.frame (.request FunctionId.sendData [0x01, 0x00])))]
    let log := (fresh {} {}).log history
    let request := .sendData 3 [0x20, 0x02] TxOptions.usual 1
    log = log.dropLast ++ [.shown 3 (.inbound (.frame (.request FunctionId.sendData [0x01, 0x00])))
      (.event (.completed 1 (some 3) request))] ∧
    (Course.behind ({} : Timing).ackTimeout log.dropLast).Serves request := by
  intro history log request
  have seen : log = log.dropLast ++ [.shown 3 (.inbound (.frame (.request FunctionId.sendData [0x01, 0x00])))
      (.event (.completed 1 (some 3) request))] := by decide +kernel +zetaReduce
  exact ⟨seen, ((completionServed {} {} history).1 _ _ _ _ _ _ _ seen).2⟩

/- A response without a byte has no typed view, but it is a response with the right function id. -/
theorem emptyResponseAccepted :
    let frames := [.response FunctionId.sendData [], .request FunctionId.sendData [0x01, 0x00]]
    let history := [(0, .enqueue { message := .send 3 [0x20, 0x02] }), (0, .transmit), (1, .inbound .ack)] ++
      frames.map fun frame => (2, .inbound (.frame frame))
    .event (.completed 1 (some 3) (.sendData 3 [0x20, 0x02] TxOptions.usual 1)) ∈
        ((fresh {} {}).run history).2.flatten ∧
      ∀ frame ∈ frames, Message.ofFrame frame .controller ≠ .sendDataResponse true := by
  decide +kernel

end ZWaveHost.Link
