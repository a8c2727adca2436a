import ZWaveHost.Network.Errands
import ZWaveHost.Proofs.Network.Life

/-! Refusals stay where they are met. Whatever the link and the store refuse, an errand leaves the same network behind and
makes the same calls, in the same order: those that the network asks for when nobody is heard. -/
namespace ZWaveHost

/- Whatever is refused, this is what the errand returns, the network it leaves, and all that it does on the way. -/
def Does {α : Type} (errand : Errand α) (network : Network) (result : α) (after : Network) (effects : List Effect) :
    Prop :=
  ∀ desk : Desk, desk.network = network → ∃ log,
    errand.run desk = (result, { desk with network := after, attempts := desk.attempts ++ effects, log })

namespace Does

variable {α β : Type} {network mid after : Network} {effects more : List Effect}

theorem andThen {errand : Errand α} {rest : α → Errand β} {result : α} {last : β}
    (first : Does errand network result mid effects) (next : Does (rest result) mid last after more) :
    Does (errand >>= rest) network last after (effects ++ more) := by
  intro desk same
  obtain ⟨log, ran⟩ := first desk same
  obtain ⟨later, ranLater⟩ := next { desk with network := mid, attempts := desk.attempts ++ effects, log } rfl
  refine ⟨later, ?_⟩
  calc (errand >>= rest).run desk = (fun done : α × Desk => (rest done.1).run done.2) (errand.run desk) := rfl
    _ = (rest result).run { desk with network := mid, attempts := desk.attempts ++ effects, log } := by rw [ran]
    _ = _ := by rw [ranLater, List.append_assoc]

theorem told {errand : Errand α} {result : α} (does : Does errand network result after effects)
    (same : effects = more) : Does errand network result after more := same ▸ does

end Does

namespace Errand

theorem returns {α : Type} (network : Network) (result : α) : Does (return result) network result network [] := by
  rintro desk rfl
  exact ⟨desk.log, by rw [List.append_nil]; rfl⟩

theorem reads (network : Network) : Does Errand.network network network network [] := by
  rintro desk rfl
  exact ⟨desk.log, by rw [List.append_nil]; rfl⟩

theorem becomes (network after : Network) : Does (become after) network () after [] := by
  rintro desk rfl
  exact ⟨desk.log, by rw [List.append_nil]; rfl⟩

theorem notes (network : Network) (effect : Effect) : Does (note effect) network () network [effect] := by
  rintro desk rfl
  exact ⟨desk.log, rfl⟩

theorem warns (network : Network) (text : String) : Does (warn text) network () network [] := by
  rintro desk rfl
  exact ⟨desk.log ++ [text], by rw [List.append_nil]; rfl⟩

theorem notesAll (network : Network) (effects : List Effect) : Does (noteAll effects) network () network effects := by
  induction effects with
  | nil => exact returns network ()
  | cons effect rest ih => exact (notes network effect).andThen ih

theorem called (desk : Desk) (effect : Effect) :
    (call effect).run desk = ((desk.refusal desk.attempts effect).elim (.ok ()) .error,
      { desk with attempts := desk.attempts ++ [effect] }) := by
  simp only [call, note, StateT.run_bind, StateT.run_get, StateT.run_modify, pure_bind]
  cases desk.refusal desk.attempts effect <;> rfl

theorem attempts (network : Network) (effect : Effect) (warning : Fault → String) :
    Does (attempt effect warning) network () network [effect] := by
  rintro desk rfl
  cases answer : desk.refusal desk.attempts effect with
  | none =>
    refine ⟨desk.log, ?_⟩
    simp only [attempt, StateT.run_bind, called, answer]
    rfl
  | some fault =>
    refine ⟨desk.log ++ [warning fault], ?_⟩
    simp only [attempt, StateT.run_bind, called, answer]
    rfl

theorem sends (network : Network) (message : Message) : Does (send message) network () network [Network.ask message] :=
  attempts network _ _

theorem sendsAll {α : Type} (network : Network) (request : α → Message) (items : List α) :
    Does (items.forM fun item => send (request item)) network () network
      (items.map fun item => Network.ask (request item)) := by
  induction items with
  | nil => exact returns network ()
  | cons item rest ih => exact (sends network (request item)).andThen ih

theorem tells (network : Network) (notice : Notice) : Does (tell notice) network () network [.notify notice] :=
  notes network _

theorem journals (network : Network) (node : Node) (deed : Deed) :
    Does (journal node deed) network () network (node.journal deed) := by
  unfold journal Node.journal
  split
  · exact notes network _
  · exact returns network ()

theorem interviews (network : Network) (node : Node) : Does (interview node) network () network node.interview := by
  unfold interview Node.interview
  split
  · exact returns network ()
  · exact attempts network _ _

theorem retires (network : Network) (node : Node) (command : Bytes) :
    Does (retire node command) network () network
      (if node.watched && Node.isNoMoreInformation command then [.link (.sleep node.id)] else []) := by
  unfold retire
  split
  · rintro desk rfl
    exact ⟨desk.log, congrArg (fun done : Except Fault Unit × Desk => ((), done.2)) (called desk _)⟩
  · exact returns network ()

theorem rouses (network : Network) (node : Node) (command : Bytes) :
    Does (rouse node command) network () network (if Node.isWakeUp command then [.link (.wake node.id)] else []) := by
  unfold rouse
  split
  · exact attempts network _ _
  · exact returns network ()

theorem failureTeachesNothing (node : Node) {update : NodeUpdate} (failed : update.isRequestFailure = true) :
    node.learn update = node := by
  have status : update.status = 0x81 := by simpa [NodeUpdate.isRequestFailure] using failed
  simp [Node.learn, NodeUpdate.isNodeInfo, status]

theorem reacts (network : Network) (node : Node) (stimulus : Stimulus) :
    Does (react node stimulus) network (node.react network.identity.nodeId stimulus).1 network
      (node.react network.identity.nodeId stimulus).2 := by
  cases stimulus with
  | interview =>
    refine .told (.andThen (reads network) (.andThen (journals network node _)
      (.andThen (interviews network node) (returns network node)))) ?_
    simp [Node.react]
  | command command =>
    refine .told (.andThen (journals network node _) (.andThen (retires network node _)
      (.andThen (rouses network node _) (returns network _)))) ?_
    simp [Node.react, Node.commandEffects]
  | update update =>
    have learns : Does (if update.isRequestFailure then do warn "node info request failed"; return node
        else return node.learn update) network (node.learn update) network [] := by
      split
      · rename_i failed
        rw [failureTeachesNothing node failed]
        exact .andThen (warns network _) (returns network node)
      · exact returns network _
    exact .told (.andThen (journals network node _) learns) (List.append_nil _)
  | delivery acknowledged => exact .told (.andThen (journals network node _) (returns network _)) (List.append_nil _)
  | linkFailure => exact .told (.andThen (journals network node _) (returns network _)) (List.append_nil _)

theorem announces {network : Network} {node : Node} (registered : network.roster.find? node.id = some node) :
    Does (announce node.id) network () network (Network.announce node) := by
  refine (reads network).andThen ?_
  simp only [registered]
  exact (attempts network _ _).andThen (notes network _)

theorem reports {network : Network} {after : Node} (registered : network.roster.find? after.id = some after)
    (before : Node) (asUpdate : Bool) :
    Does (report before after asUpdate) network () network (Network.report before after asUpdate) := by
  unfold report Network.report
  split
  · exact announces registered
  · split
    · exact notes network _
    · exact returns network ()

theorem addresses (network : Network) (id : NodeId) (asUpdate : Bool) (stimulus : Stimulus) :
    Does (address id asUpdate stimulus) network () (network.address id asUpdate stimulus).1
      (network.address id asUpdate stimulus).2 := by
  refine .andThen (reads network) ?_
  unfold Network.address
  cases found : network.roster.find? id with
  | none => exact warns network _
  | some node =>
    have own : (node.react network.identity.nodeId stimulus).1.id = id :=
      (node.reactId _ stimulus).trans (Roster.foundId found)
    have standing : (network.roster.update (node.react network.identity.nodeId stimulus).1).find?
        (node.react network.identity.nodeId stimulus).1.id = some (node.react network.identity.nodeId stimulus).1 := by
      simp [Roster.foundUpdated, own, found]
    exact .andThen (reacts network node stimulus) (.andThen (reads network) (.andThen (becomes network _)
      (reports standing node asUpdate)))

theorem registers (network : Network) (node : Node) :
    Does (register node) network () (network.register node).1 (network.register node).2 := by
  obtain ⟨entered, inserted⟩ :
      ∃ entered : Network, { network with roster := (network.roster.insert node).1 } = entered :=
    ⟨_, rfl⟩
  have standing : entered.roster.find? node.id = some node := by simp [← inserted, Roster.foundInserted]
  have welcomes : Does (welcome node) entered () entered (if node.started then Network.announce node else []) := by
    unfold welcome
    split
    · exact announces standing
    · exact returns entered ()
  have meets : Does (do welcome node; address node.id false .interview) entered () (network.register node).1
      (network.register node).2 := by
    simp only [Network.register, inserted]
    exact .andThen welcomes (addresses entered node.id false .interview)
  subst inserted
  exact .told (.andThen (reads network) (.andThen (becomes network _) meets)) rfl

theorem recalls (network : Network) (lookup : Lookup) (id : NodeId) (reported : ProtocolInfo) :
    Does (restored lookup id reported) network (network.restored (lookup id) reported).1 network
      (.store (.get id) :: (network.restored (lookup id) reported).2) := by
  refine .andThen (notes network (.store (.get id))) ?_
  unfold Network.restored
  cases lookup id with
  | error fault => exact .andThen (warns network _) (returns network none)
  | ok answer =>
    cases answer with
    | none => exact returns network none
    | some record =>
      refine .andThen (reads network) ?_
      cases restored : network.catalogue.restore record with
      | error fault =>
        simp only [restored]
        exact .andThen (warns network _) (returns network none)
      | ok made =>
        simp only [restored]
        exact .andThen (notesAll network made.2) (.told (.andThen (journals network made.1 _) (returns network _))
          (List.append_nil _))

theorem entersNobody {network : Network} {info : NodeInfo} {listening : Bool} {fault}
    (impossible : network.catalogue.create info listening = .error fault) (rest : Errand Unit) :
    Does (enter info listening rest) network () network [] := by
  refine .andThen (reads network) ?_
  rw [impossible]
  exact warns network _

theorem entersNew {network : Network} {info : NodeInfo} {listening : Bool} {made : Node × List Effect}
    (created : network.catalogue.create info listening = .ok made) {rest : Errand Unit} {later : List Effect}
    (follows : ∀ entered, Does rest entered () entered later) :
    Does (enter info listening rest) network () (network.register made.1).1
      (made.2 ++ (network.register made.1).2 ++ later) := by
  refine .told (.andThen (reads network) ?_) (List.nil_append _)
  rw [created, List.append_assoc]
  exact .andThen (notesAll network made.2) (.andThen (registers network made.1) (follows _))

theorem takesProtocolInfo (network : Network) (lookup : Lookup) (id : NodeId) (reported : ProtocolInfo) :
    Does (onProtocolInfo lookup id reported) network () (network.onProtocolInfo lookup id reported).1
      (network.onProtocolInfo lookup id reported).2 := by
  have known := recalls network lookup id reported
  unfold Network.onProtocolInfo
  generalize network.restored (lookup id) reported = recalled at known ⊢
  obtain ⟨restored, before⟩ := recalled
  cases restored with
  | some node =>
    refine .andThen known ?_
    exact registers network node
  | none =>
    cases created : network.catalogue.create (reported.toNodeInfo id) reported.isListening with
    | error fault =>
      refine .told (.andThen known ?_) (List.append_nil _)
      exact entersNobody created (return ())
    | ok made =>
      refine .told (.andThen known ?_) (List.append_assoc _ _ _).symm
      exact .told (entersNew created fun entered => returns entered ()) (List.append_nil _)

theorem identifies (network : Network) (identity : Identity) :
    Does (identified identity) network () (network.identified identity).1 (network.identified identity).2 := by
  have informs (network : Network) :
      Does (controllerInfo identity) network () network (Network.controllerInfo identity) := by
    obtain ⟨library, homeId, nodeId⟩ := identity
    cases library with
    | none => exact returns network ()
    | some library =>
      cases homeId with
      | none => exact returns network ()
      | some homeId =>
        cases nodeId with
        | none => exact returns network ()
        | some nodeId => exact tells network _
  exact .andThen (reads network) (.andThen (becomes network _) (informs _))

theorem takesAddStatus (network : Network) (update : NetworkUpdate) :
    Does (onAddStatus update) network () (network.onAddStatus update).1 (network.onAddStatus update).2 := by
  have enrolls (info : NodeInfo) : Does (enter info (!info.supports CommandClass.wakeUp) (tell (.inclusion info true)))
      network () (network.enroll info).1 (network.enroll info).2 := by
    unfold Network.enroll
    cases created : network.catalogue.create info (!info.supports CommandClass.wakeUp) with
    | error fault => exact entersNobody created _
    | ok made => exact entersNew created fun entered => tells entered _
  unfold onAddStatus
  fun_cases Network.onAddStatus network update with
  | case1 ready => simpa only [ready] using tells network _
  | case2 slave unknown => simpa only [slave, unknown] using warns network _
  | case3 slave info known => simpa only [slave, known] using enrolls info
  | case4 controller unknown => simpa only [controller, unknown] using warns network _
  | case5 controller info known => simpa only [controller, known] using enrolls info
  | case6 ended =>
    simp only [ended]
    exact sends network _
  | case7 done => simpa only [done] using tells network _
  | case8 failed => simpa only [failed] using tells network _
  | case9 => split <;> first | contradiction | exact returns network ()

theorem takesRemoveStatus (network : Network) (update : NetworkUpdate) :
    Does (onRemoveStatus update) network () (network.onRemoveStatus update).1 (network.onRemoveStatus update).2 := by
  have expels (info : NodeInfo) : Does (expel info) network ()
      { network with roster := (network.roster.remove info.nodeId).1 } [.notify (.exclusion info true)] :=
    .andThen (reads network) (.andThen (becomes network _) (tells _ _))
  unfold onRemoveStatus
  fun_cases Network.onRemoveStatus network update with
  | case1 ready => simpa only [ready] using tells network _
  | case2 slave => simpa only [slave] using expels _
  | case3 controller => simpa only [controller] using expels _
  | case4 done => simpa only [done] using tells network _
  | case5 failed => simpa only [failed] using tells network _
  | case6 => split <;> first | contradiction | exact returns network ()

theorem takesMessage (network : Network) (lookup : Lookup) (message : Message) (requester : Option NodeId) :
    Does (onMessage lookup message requester) network () (network.onMessage lookup message requester).1
      (network.onMessage lookup message requester).2 := by
  cases message with
  | version library kind => exact .andThen (reads network) (identifies network _)
  | memoryId homeId nodeId => exact .andThen (reads network) (identifies network _)
  | initData data => exact sendsAll network Message.protocolInfoRequest data.nodeIds
  | protocolInfo info =>
    cases requester with
    | none => exact warns network _
    | some id => exact takesProtocolInfo network lookup id info
  | nodeCommand command => exact addresses network command.source true (.command command)
  | nodeUpdate update =>
    simp only [onMessage, Network.onMessage]
    cases update.target.or requester with
    | none => exact warns network _
    | some id => exact addresses network id true (.update update)
  | addNodeStatus update => exact takesAddStatus network update
  | removeNodeStatus update => exact takesRemoveStatus network update
  | _ => exact returns network ()

theorem takesEnd (network : Network) (node : Option NodeId) (request : Message) (stimulus : Stimulus) :
    Does (onEnded node request stimulus) network () (network.onEnded node request stimulus).1
      (network.onEnded node request stimulus).2 := by
  cases request with
  | sendData =>
    cases node with
    | none => exact returns network ()
    | some id => exact addresses network id false stimulus
  | _ => exact returns network ()

theorem takesEvent (network : Network) (lookup : Lookup) (event : LinkEvent) :
    Does (onEvent lookup event) network () (network.onEvent lookup event).1 (network.onEvent lookup event).2 := by
  cases event with
  | started => exact returns network ()
  | completed id node request => exact takesEnd network node request _
  | failed id node request why => exact .andThen (warns network _) (takesEnd network node request _)
  | received message context => exact takesMessage network lookup message _

theorem steps (network : Network) (lookup : Lookup) (input : NetworkInput) :
    Does (step lookup input) network () (network.step lookup input).1 (network.step lookup input).2 := by
  cases input with
  | connected => exact sendsAll network id [.versionRequest, .memoryIdRequest, .initDataRequest]
  | connectionLost fault => exact tells network _
  | event event => exact takesEvent network lookup event
  | beginInclusion | endInclusion | beginExclusion | endExclusion | resetToDefault => exact sends network _

end Errand

namespace Network

def take (network : Network) (lookup : Lookup) : Task → Network × List Effect
  | .input input => network.step lookup input
  | .pass call => (network, [.link call])
  | .closeStore => (network, [.store .close])

def takeAll (network : Network) : List (Lookup × Task) → Network × List Effect
  | [] => (network, [])
  | (lookup, task) :: rest =>
    let (after, effects) := network.take lookup task
    let (last, later) := after.takeAll rest
    (last, effects ++ later)

def inputsAmong (history : List (Lookup × Task)) : List (Lookup × NetworkInput) :=
  history.filterMap fun (lookup, task) =>
    match task with
    | .input input => some (lookup, input)
    | .pass _ | .closeStore => none

theorem takeAllState (network : Network) (history : List (Lookup × Task)) :
    (network.takeAll history).1 = (network.run (inputsAmong history)).1 := by
  induction history generalizing network with
  | nil => rfl
  | cons first rest ih =>
    obtain ⟨lookup, task⟩ := first
    cases task with
    | input input => exact ih (network.step lookup input).1
    | pass | closeStore => exact ih network

theorem takeAllInputs (network : Network) (inputs : List (Lookup × NetworkInput)) :
    (network.takeAll (inputs.map fun (lookup, input) => (lookup, .input input))).2 =
      (network.run inputs).2.flatten := by
  induction inputs generalizing network with
  | nil => rfl
  | cons first rest ih => exact congrArg ((network.step first.1 first.2).2 ++ ·) (ih (network.step first.1 first.2).1)

end Network

namespace Errand

def Leaves {α : Type} (errand : Errand α) (desk : Desk) (after : Network) (effects : List Effect) : Prop :=
  (errand.run desk).2.network = after ∧ (errand.run desk).2.attempts = desk.attempts ++ effects

theorem leaves {α : Type} {errand : Errand α} {result : α} {after : Network} {effects : List Effect} {desk : Desk}
    (does : Does errand desk.network result after effects) : Leaves errand desk after effects := by
  obtain ⟨log, ran⟩ := does desk rfl
  exact ⟨by rw [ran], by rw [ran]⟩

theorem leavesCalled (desk : Desk) (effect : Effect) : Leaves (call effect) desk desk.network [effect] := by
  unfold Leaves
  rw [called]
  exact ⟨rfl, rfl⟩

theorem attends (desk : Desk) (lookup : Lookup) (task : Task) :
    Leaves (attend lookup task) desk (desk.network.take lookup task).1 (desk.network.take lookup task).2 := by
  cases task with
  | input input =>
    have answered : Does (attend lookup (.input input)) desk.network (.ok ()) (desk.network.step lookup input).1
        (desk.network.step lookup input).2 :=
      .told (.andThen (steps desk.network lookup input) (returns _ _)) (List.append_nil _)
    exact leaves answered
  | pass linkCall => exact leavesCalled desk (.link linkCall)
  | closeStore => exact leavesCalled desk (.store .close)

theorem works (desk : Desk) (history : List (Lookup × Task)) :
    Leaves (work history) desk (desk.network.takeAll history).1 (desk.network.takeAll history).2 := by
  induction history generalizing desk with
  | nil => exact leaves (returns desk.network [])
  | cons first rest ih =>
    obtain ⟨network, attempted⟩ := attends desk first.1 first.2
    obtain ⟨last, later⟩ := ih ((attend first.1 first.2).run desk).2
    rw [network] at last later
    rw [attempted, List.append_assoc] at later
    exact ⟨last, later⟩

/-- Refusals stay contained. Whatever the link and the store refuse of what is asked of them, the network, the notices and
all attempted calls are the same, and they are those of a network that is never answered; an answer to a look-up is the
only one that counts. So where the controller lists its nodes, each of them is asked for, in order, also when nothing can
be queued. -/
theorem refusalsContained (network : Network) (history : List (Lookup × Task)) (refusal other : Refusal) :
    let desk := ((work history).run { network, refusal }).2
    let another := ((work history).run { network, refusal := other }).2
    desk.network = another.network ∧ desk.attempts = another.attempts ∧
      desk.network = (network.run (Network.inputsAmong history)).1 ∧
      (∀ inputs, history = inputs.map (fun (lookup, input) => (lookup, .input input)) →
        desk.attempts = (network.run inputs).2.flatten) ∧
      ∀ lookup data context,
        ((attend lookup (.input (.event (.received (.initData data) context)))).run desk).2.attempts =
          desk.attempts ++ data.nodeIds.map fun id => .link (.send (.protocolInfoRequest id) true) := by
  intro desk another
  obtain ⟨state, attempted⟩ := works { network, refusal } history
  obtain ⟨sameState, sameAttempts⟩ := works { network, refusal := other } history
  refine ⟨state.trans sameState.symm, attempted.trans sameAttempts.symm, ?_, fun inputs all => ?_, ?_⟩
  · exact state.trans (network.takeAllState history)
  · subst all
    exact attempted.trans (network.takeAllInputs inputs)
  · exact fun lookup data context => (attends desk lookup (.input (.event (.received (.initData data) context)))).2

example :
    let listed := .event (.received (.initData ⟨5, 8, [2, 3], 7, 1⟩) none)
    let desk := ((attend (fun _ => .ok none) (.input listed)).run
      { network := {}, refusal := fun _ _ => some (.queueFull 256) }).2
    desk.attempts = [.link (.send (.protocolInfoRequest 2) true), .link (.send (.protocolInfoRequest 3) true)] ∧
      desk.log.length = 2 := by
  decide

end Errand

end ZWaveHost
