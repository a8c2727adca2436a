import ZWaveHost.Link.Exchange
import ZWaveHost.Proofs.Message.Reading

/-! The replies a request calls for, and the frames that are taken for them. Only the first reply of a plan can be a
response, and for an announced request the response comes before the reply that tells the outcome. -/
namespace ZWaveHost

def Frame.Responds (frame : Frame) (function : UInt8) : Prop := frame.kind = .response ∧ frame.function = function

def Frame.Refuses (frame : Frame) : Prop :=
  Message.ofFrame frame .controller = .sendDataResponse false ∨
    Message.ofFrame frame .controller = .nodeInfoResponse false

def Message.isAnnounced : Message → Bool
  | sendData .. | nodeInfoRequest _ => true
  | _ => false

theorem admitsResponse {function : UInt8} {frame : Frame}
    (admits : (Reply.response function).admits (.ofFrame frame .controller)) : frame.Responds function := by
  obtain ⟨kind, same⟩ := ofFrameKeeps frame
  simp only [Reply.admits, kind, same, Bool.and_eq_true, beq_iff_eq] at admits
  exact ⟨by simpa [Frame.isResponse] using admits.1, admits.2⟩

theorem admitsCallback {id : UInt8} {message : Message}
    (admits : (Reply.callback FunctionId.sendData id).admits message) :
    ∃ status, message = .sendDataCallback id status := by
  cases message with
  | sendDataCallback callbackId status =>
    simp only [Reply.admits, Message.callbackId, Bool.and_eq_true, beq_iff_eq] at admits
    exact ⟨status, by rw [Option.some.inj admits.2]⟩
  | _ => simp [Reply.admits, Message.isResponse, Message.side, Message.function, Message.callbackId,
      FunctionId.sendData, FunctionId.addNode, FunctionId.removeNode, FunctionId.setDefault] at admits

theorem admitsUpdate {nodeId : NodeId} {message : Message} (admits : (Reply.nodeUpdate nodeId).admits message) :
    ∃ update, message = .nodeUpdate update ∧ (update.target = some nodeId ∨ update.isRequestFailure) := by
  cases message with
  | nodeUpdate update => exact ⟨update, rfl, by simpa [Reply.admits] using admits⟩
  | _ => simp [Reply.admits] at admits

theorem unreported {frame : Frame} (clean : Exchange.reportedFailure (.ofFrame frame .controller) = none) :
    ¬ frame.Refuses := by
  rintro (refused | refused)
  · simp [refused, Exchange.reportedFailure] at clean
  · simp [refused, Exchange.reportedFailure] at clean

theorem reportedWhy {frame : Frame} {why}
    (reported : Exchange.reportedFailure (.ofFrame frame .controller) = some why) :
    (why = .rejected ∧ frame.Refuses) ∨ ∃ id status, why = .network status ∧ status ≠ TxStatus.ok ∧
      Message.ofFrame frame .controller = .sendDataCallback id status := by
  unfold Exchange.reportedFailure at reported
  split at reported
  · rename_i refused
    exact .inl ⟨(Option.some.inj reported).symm, .inl refused⟩
  · rename_i refused
    exact .inl ⟨(Option.some.inj reported).symm, .inr refused⟩
  · rename_i id status callback
    split at reported
    · contradiction
    · rename_i failed
      exact .inr ⟨id, status, (Option.some.inj reported).symm, failed, callback⟩
  · contradiction

theorem refusalResponds {reply : Reply} {frame : Frame} (refuses : frame.Refuses)
    (admits : reply.admits (.ofFrame frame .controller)) : reply.isResponse := by
  cases reply with
  | response => rfl
  | callback => rcases refuses with refused | refused <;> simp [refused, Reply.admits, Message.isResponse] at admits
  | nodeUpdate => rcases refuses with refused | refused <;> simp [refused, Reply.admits] at admits

theorem callbackAdmitted {reply : Reply} {id status : UInt8} (admits : reply.admits (.sendDataCallback id status)) :
    reply = .callback FunctionId.sendData id := by
  cases reply with
  | response => simp [Reply.admits, Message.isResponse] at admits
  | nodeUpdate => simp [Reply.admits] at admits
  | callback function own =>
    simp only [Reply.admits, Message.callbackId, Message.function, Bool.and_eq_true, beq_iff_eq] at admits
    rw [← admits.1.2, ← Option.some.inj admits.2]

theorem sendDataFlag {frame : Frame} (responds : frame.Responds FunctionId.sendData) :
    Message.ofFrame frame .controller =
      (frame.payload.head?.map fun flag => .sendDataResponse (flag ≠ 0)).getD (.unknown frame) := by
  obtain ⟨kind, function⟩ := responds
  simp only [Message.ofFrame, Frame.view?, kind, function]
  rfl

theorem nodeInfoFlag {frame : Frame} (responds : frame.Responds FunctionId.nodeInfo) :
    Message.ofFrame frame .controller =
      (frame.payload.head?.map fun flag => .nodeInfoResponse (flag ≠ 0)).getD (.unknown frame) := by
  obtain ⟨kind, function⟩ := responds
  simp only [Message.ofFrame, Frame.view?, kind, function]
  rfl

theorem acceptedUnlessEmpty {frame : Frame} (make : Bool → Message) (distinct : ∀ flag, make flag ≠ .unknown frame)
    (flagged : Message.ofFrame frame .controller =
      (frame.payload.head?.map fun flag => make (flag ≠ 0)).getD (.unknown frame))
    (granted : Message.ofFrame frame .controller ≠ make false) :
    Message.ofFrame frame .controller = make true ↔ frame.payload ≠ [] := by
  rw [flagged] at granted ⊢
  cases payload : frame.payload with
  | nil => simpa [payload] using (distinct true).symm
  | cons flag rest =>
    rw [payload] at granted
    by_cases zero : flag = 0
    · simp [zero] at granted
    · simp [zero]

theorem planTail (request : Message) : ∀ reply ∈ (Reply.plan request).tail, reply.isResponse = false := by
  cases request with
  | sendData => simp [Reply.plan, Reply.isResponse]
  | nodeInfoRequest => simp [Reply.plan, Reply.isResponse]
  | _ => simp [Reply.plan]

theorem announcedPlan {request : Message} (announced : request.isAnnounced) :
    ∃ outcome, Reply.plan request = [.response request.function, outcome] ∧ outcome.isResponse = false := by
  unfold Message.isAnnounced at announced
  split at announced
  · exact ⟨_, rfl, rfl⟩
  · exact ⟨_, rfl, rfl⟩
  · contradiction

theorem unannouncedPlan {request : Message} (unannounced : request.isAnnounced = false) :
    (Reply.plan request).tail = [] := by
  cases request with
  | sendData => simp [Message.isAnnounced] at unannounced
  | nodeInfoRequest => simp [Message.isAnnounced] at unannounced
  | _ => rfl

theorem planResponse {request : Message} {function : UInt8} (planned : Reply.response function ∈ Reply.plan request) :
    function = request.function := by
  cases request <;> simp_all [Reply.plan, Message.function]

theorem planCallback {request : Message} {id : UInt8}
    (planned : Reply.callback FunctionId.sendData id ∈ Reply.plan request) :
    ∃ nodeId data options, request = .sendData nodeId data options id := by
  cases request with
  | sendData nodeId data options own =>
    have same : id = own := by simpa [Reply.plan] using planned
    exact ⟨nodeId, data, options, by rw [same]⟩
  | _ => simp [Reply.plan, FunctionId.sendData, FunctionId.setDefault] at planned

inductive Heard : List Reply → List Frame → List Reply → Prop
  | none (plan) : Heard plan [] plan
  | next {reply plan frame frames left} (admits : reply.admits (.ofFrame frame .controller))
      (clean : Exchange.reportedFailure (.ofFrame frame .controller) = Option.none) (later : Heard plan frames left) :
      Heard (reply :: plan) (frame :: frames) left

namespace Heard

theorem snoc {plan frames reply left frame} (heard : Heard plan frames (reply :: left))
    (admits : reply.admits (.ofFrame frame .controller))
    (clean : Exchange.reportedFailure (.ofFrame frame .controller) = Option.none) :
    Heard plan (frames ++ [frame]) left := by
  generalize same : reply :: left = expected at heard
  induction heard with
  | none plan =>
    subst same
    exact .next admits clean (.none left)
  | next first early _ ih => exact .next first early (ih same)

theorem counted {plan frames left} (heard : Heard plan frames left) :
    plan.length = frames.length + left.length := by
  induction heard with
  | none => simp
  | next _ _ _ ih => simp [ih, Nat.add_right_comm]

theorem rest {plan frames left} (heard : Heard plan frames left) : left = plan.drop frames.length := by
  induction heard with
  | none => rfl
  | next _ _ _ ih => exact ih

theorem planned {plan frames reply left} (heard : Heard plan frames (reply :: left)) : reply ∈ plan :=
  List.mem_of_mem_drop (heard.rest ▸ List.mem_cons_self)

theorem nothing {plan frames reply left} (heard : Heard plan frames (reply :: left)) (first : reply ∉ plan.tail) :
    frames = [] := by
  cases frames with
  | nil => rfl
  | cons frame frames =>
    have member : reply ∈ plan.drop (frames.length + 1) := heard.rest ▸ List.mem_cons_self
    rw [← List.drop_tail] at member
    exact absurd (List.mem_of_mem_drop member) first

theorem last {reply frames} (heard : Heard [reply] frames []) :
    ∃ frame, frames = [frame] ∧ reply.admits (.ofFrame frame .controller) ∧
      Exchange.reportedFailure (.ofFrame frame .controller) = Option.none := by
  cases heard with
  | next admits clean later =>
    cases later
    exact ⟨_, rfl, admits, clean⟩

theorem responseAwaited {request frames reply left} (heard : Heard (Reply.plan request) frames (reply :: left))
    (response : reply.isResponse) : frames = [] ∧ reply = .response request.function := by
  have first : reply ∉ (Reply.plan request).tail := fun later => by simp [planTail request reply later] at response
  refine ⟨heard.nothing first, ?_⟩
  cases reply with
  | response function => rw [planResponse heard.planned]
  | callback => contradiction
  | nodeUpdate => contradiction

theorem announced {request frames left} (announced : request.isAnnounced)
    (heard : Heard (Reply.plan request) frames left) (begun : left ≠ Reply.plan request) :
    ∃ response others outcome, frames = response :: others ∧ response.Responds request.function ∧ ¬ response.Refuses ∧
      Reply.plan request = [.response request.function, outcome] ∧ Heard [outcome] others left := by
  obtain ⟨outcome, plan, _⟩ := announcedPlan announced
  rw [plan] at heard begun
  cases heard with
  | none => exact absurd rfl begun
  | next admits clean later => exact ⟨_, _, outcome, rfl, admitsResponse admits, unreported clean, plan, later⟩

theorem outcomeAwaited {request frames reply left} (isAnnounced : request.isAnnounced)
    (heard : Heard (Reply.plan request) frames (reply :: left)) (outcome : reply.isResponse = false) :
    ∃ response, frames = [response] ∧ response.Responds request.function ∧ ¬ response.Refuses := by
  have begun : reply :: left ≠ Reply.plan request := by
    obtain ⟨_, plan, _⟩ := announcedPlan isAnnounced
    intro whole
    rw [plan, List.cons.injEq] at whole
    rw [whole.1] at outcome
    contradiction
  obtain ⟨response, others, last, rfl, responds, grants, _, later⟩ := heard.announced isAnnounced begun
  cases later.nothing (by simp)
  exact ⟨response, rfl, responds, grants⟩

end Heard

end ZWaveHost
