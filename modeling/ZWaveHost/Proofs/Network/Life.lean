import ZWaveHost.Proofs.Network.Change

/-! The life of a node as the application hears of it. It is added once, in the input that first finds it started, directly
behind the save of its record; from then on each of its commands and reports is told as an update. A registration lasts
until the node is registered again or removed. -/
namespace ZWaveHost

def Notice.added? : Notice → Option NodeRecord
  | nodeAdded record => some record
  | _ => none

def Notice.updated? : Notice → Option NodeRecord
  | nodeUpdated record => some record
  | _ => none

def additions (effects : List Effect) : List NodeRecord := (Effect.notices effects).filterMap Notice.added?

def updates (effects : List Effect) : List NodeRecord := (Effect.notices effects).filterMap Notice.updated?

def additionsOf (id : NodeId) (effects : List Effect) : List NodeRecord := (additions effects).filter (·.nodeId = id)

inductive Announced : List Effect → Prop
  | nothing : Announced []
  | other {effect rest} (unsaved : ∀ record, effect ≠ .store (.save record))
      (unadded : ∀ record, effect ≠ .notify (.nodeAdded record)) (later : Announced rest) : Announced (effect :: rest)
  | node {record rest} (later : Announced rest) :
      Announced (.store (.save record) :: .notify (.nodeAdded record) :: rest)

theorem Announced.append {before later : List Effect} (announced : Announced before) (more : Announced later) :
    Announced (before ++ later) := by
  induction announced with
  | nothing => exact more
  | other unsaved unadded _ ih => exact .other unsaved unadded ih
  | node _ ih => exact .node ih

theorem Announced.savedBefore {effects before later : List Effect} {record : NodeRecord} (announced : Announced effects)
    (split : effects = before ++ .notify (.nodeAdded record) :: later) :
    before.getLast? = some (.store (.save record)) := by
  induction announced generalizing before with
  | nothing => simp at split
  | other unsaved unadded _ ih =>
    cases before with
    | nil =>
      obtain ⟨same, _⟩ := List.cons.inj split
      exact absurd same (unadded record)
    | cons first others =>
      have last := ih (List.cons.inj split).2
      simp [List.getLast?_cons, last]
  | node _ ih =>
    cases before with
    | nil => cases split
    | cons saved others =>
      obtain ⟨rfl, behind⟩ := List.cons.inj split
      cases others with
      | nil =>
        cases behind
        rfl
      | cons added others => simp [List.getLast?_cons, ih (List.cons.inj behind).2]

theorem Announced.addedBehind {effects before later : List Effect} {record : NodeRecord} (announced : Announced effects)
    (split : effects = before ++ .store (.save record) :: later) :
    later.head? = some (.notify (.nodeAdded record)) := by
  induction announced generalizing before with
  | nothing => simp at split
  | other unsaved unadded _ ih =>
    cases before with
    | nil =>
      obtain ⟨same, _⟩ := List.cons.inj split
      exact absurd same (unsaved record)
    | cons first others => exact ih (List.cons.inj split).2
  | node _ ih =>
    cases before with
    | nil =>
      cases split
      rfl
    | cons saved others =>
      have behind := (List.cons.inj split).2
      cases others with
      | nil => cases behind
      | cons added others => exact ih (List.cons.inj behind).2

theorem additionsAppend (before later : List Effect) :
    additions (before ++ later) = additions before ++ additions later := by
  simp [additions, Effect.notices]

theorem updatesAppend (before later : List Effect) : updates (before ++ later) = updates before ++ updates later := by
  simp [updates, Effect.notices]

theorem additionsOfAppend (id : NodeId) (before later : List Effect) :
    additionsOf id (before ++ later) = additionsOf id before ++ additionsOf id later := by
  simp [additionsOf, additionsAppend]

theorem Quiet.announced {effects : List Effect} (quiet : Quiet effects) : Announced effects := by
  induction effects with
  | nil => exact .nothing
  | cons effect rest ih =>
    obtain ⟨first, others⟩ := List.forall_mem_cons.mp quiet
    refine .other ?_ ?_ (ih others) <;> rintro record rfl <;> cases first

theorem Quiet.untold {effects : List Effect} (quiet : Quiet effects) : additions effects = [] ∧ updates effects = [] := by
  induction effects with
  | nil => exact ⟨rfl, rfl⟩
  | cons effect rest ih =>
    obtain ⟨first, others⟩ := List.forall_mem_cons.mp quiet
    obtain ⟨noneAdded, noneUpdated⟩ := ih others
    have silent : additions [effect] = [] ∧ updates [effect] = [] := by
      cases effect with
      | notify notice => cases notice <;> first | exact ⟨rfl, rfl⟩ | contradiction
      | _ => exact ⟨rfl, rfl⟩
    rw [← List.singleton_append, additionsAppend, updatesAppend, silent.1, silent.2, noneAdded, noneUpdated]
    exact ⟨rfl, rfl⟩

namespace Node

variable (node : Node) (controller : Option NodeId) (stimulus : Stimulus)

theorem reactId : (node.react controller stimulus).1.id = node.id := by
  cases stimulus with
  | update update =>
    simp only [react, learn]
    split
    · split <;> rfl
    · rfl
  | _ => rfl

theorem reactStarted (started : node.started = true) : (node.react controller stimulus).1.started = true := by
  cases stimulus with
  | update update =>
    simp only [react, learn]
    split
    · split
      · rfl
      · exact started
    · exact started
  | _ => exact started

end Node

theorem NetworkInput.sourceHears {input : NetworkInput} {id : NodeId} (source : input.source? = some id) :
    ∃ stimulus, input.stimulus? = some (id, stimulus) := by
  cases input with
  | event event =>
    cases event with
    | received message context =>
      cases message with
      | nodeCommand command =>
        cases source
        exact ⟨_, rfl⟩
      | nodeUpdate update =>
        simp only [source?] at source
        exact ⟨.update update, by simp only [stimulus?, source, Option.map_some]⟩
      | _ => cases source
    | _ => cases source
  | _ => cases source

namespace Network

theorem reportTold {before after : Node} (asUpdate : Bool) (grows : before.started = true → after.started = true) :
    Announced (report before after asUpdate) ∧
      additions (report before after asUpdate) = (if after.started && !before.started then [after.record] else []) ∧
      updates (report before after asUpdate) = (if asUpdate && before.started then [after.record] else []) := by
  have nothing : Announced [] ∧ additions [] = [] ∧ updates [] = [] := ⟨.nothing, rfl, rfl⟩
  cases was : before.started with
  | true =>
    simp only [report, was, grows was]
    cases asUpdate with
    | true => exact ⟨.other (by simp) (by simp) .nothing, rfl, rfl⟩
    | false => exact nothing
  | false =>
    cases now : after.started with
    | true =>
      simp only [report, was, now, Bool.and_false]
      exact ⟨.node .nothing, rfl, rfl⟩
    | false =>
      simp only [report, was, now, Bool.and_false]
      exact nothing

section Changes

variable {network after : Network} {lookup : Lookup} {input : NetworkInput} {effects : List Effect}

theorem Change.announced (change : Change network lookup input after effects) : Announced effects := by
  cases change with
  | aside _ _ _ quiet | leaves _ _ _ quiet => exact quiet.announced
  | @arrives node _ _ _ _ _ quiet quietLater =>
    have here : Announced (if node.started then announce node else []) := by
      split
      · exact .node .nothing
      · exact .nothing
    exact (quiet.announced.append here).append quietLater.announced
  | @hears _ stimulus node =>
    have told := reportTold input.source?.isSome (node.reactStarted network.identity.nodeId stimulus)
    exact (reactInward node _ stimulus).quiet.announced.append told.1

theorem newcomerTold {node : Node} {before later : List Effect} (quiet : Quiet before) (quietLater : Quiet later) :
    additions (before ++ (if node.started then announce node else []) ++ later) =
        (if node.started then [node.record] else []) ∧
      updates (before ++ (if node.started then announce node else []) ++ later) = [] := by
  simp only [additionsAppend, updatesAppend, quiet.untold, quietLater.untold, List.nil_append, List.append_nil]
  split
  · exact ⟨rfl, rfl⟩
  · exact ⟨rfl, rfl⟩

theorem hearerTold (node : Node) (controller : Option NodeId) (stimulus : Stimulus) (asUpdate : Bool) :
    let next := (node.react controller stimulus).1
    let effects := (node.react controller stimulus).2 ++ report node next asUpdate
    additions effects = (if next.started && !node.started then [next.record] else []) ∧
      updates effects = (if asUpdate && node.started then [next.record] else []) := by
  have told := reportTold asUpdate (node.reactStarted controller stimulus)
  simp only [additionsAppend, updatesAppend, (reactInward node controller stimulus).quiet.untold, List.nil_append]
  exact told.2

theorem newcomerForeign {id : NodeId} {node : Node} {before later : List Effect} (other : node.id ≠ id)
    (quiet : Quiet before) (quietLater : Quiet later) :
    additionsOf id (before ++ (if node.started then announce node else []) ++ later) = [] := by
  have differs : ¬ node.record.nodeId = id := other
  simp only [additionsOf, (newcomerTold quiet quietLater).1]
  split
  · simp [differs]
  · rfl

theorem hearerForeign {id : NodeId} {node : Node} (other : node.id ≠ id) (controller : Option NodeId)
    (stimulus : Stimulus) (asUpdate : Bool) :
    let next := (node.react controller stimulus).1
    additionsOf id ((node.react controller stimulus).2 ++ report node next asUpdate) = [] := by
  have differs : ¬ (node.react controller stimulus).1.record.nodeId = id :=
    fun same => other ((node.reactId controller stimulus).symm.trans same)
  simp only [additionsOf, (hearerTold node controller stimulus asUpdate).1]
  split
  · simp [differs]
  · rfl

theorem Change.comes {node : Node} (change : Change network lookup input after effects)
    (comes : network.newcomer? lookup input = some node) :
    additions effects = if node.started then [node.record] else [] := by
  cases change with
  | aside nobodyComes | leaves nobodyComes | hears nobodyComes => simp [nobodyComes] at comes
  | arrives same _ _ quiet quietLater =>
    cases same.symm.trans comes
    exact (newcomerTold quiet quietLater).1

theorem Change.keeps {id : NodeId} {node : Node} (change : Change network lookup input after effects)
    (found : network.roster.find? id = some node)
    (unreplaced : ∀ new, network.newcomer? lookup input = some new → new.id ≠ id) (unremoved : input.leaver? ≠ some id) :
    ∃ next, after.roster.find? id = some next ∧ (node.started = true → next.started = true) ∧
      additionsOf id effects = if next.started && !node.started then [next.record] else [] := by
  cases change with
  | aside _ _ _ quiet => exact ⟨node, found, fun started => started, by simp [additionsOf, quiet.untold]⟩
  | @arrives new _ _ comes _ _ quiet quietLater =>
    have other : new.id ≠ id := unreplaced new comes
    exact ⟨node, by simp [Roster.foundInserted, other.symm, found], fun started => started,
      (newcomerForeign other quiet quietLater).trans (by simp)⟩
  | @leaves key _ _ leaves _ quiet =>
    have other : key ≠ id := fun same => unremoved (same ▸ leaves)
    exact ⟨node, by simp [Roster.remove, Roster.foundWithout, other.symm, found],
      fun started => started, by simp [additionsOf, quiet.untold]⟩
  | @hears key stimulus hearer _ _ _ heard =>
    let next := (hearer.react network.identity.nodeId stimulus).1
    have own : next.id = key := (hearer.reactId _ _).trans (Roster.foundId heard)
    by_cases same : key = id
    · subst same
      cases found.symm.trans heard
      refine ⟨next, by simp [Roster.foundUpdated, next, own, found], node.reactStarted _ _, ?_⟩
      simp only [additionsOf, (hearerTold node network.identity.nodeId stimulus input.source?.isSome).1]
      split
      · have own : next.record.nodeId = key := own
        simp [own, next]
      · rfl
    · have other : hearer.id ≠ id := Roster.foundId heard ▸ same
      exact ⟨node, by simp [Roster.foundUpdated, next, own, Ne.symm same, found], fun started => started,
        (hearerForeign other _ _ _).trans (by simp)⟩

theorem Change.heard {id : NodeId} {stimulus : Stimulus} {node : Node}
    (change : Change network lookup input after effects) (hears : input.stimulus? = some (id, stimulus))
    (found : network.roster.find? id = some node) :
    let next := (node.react network.identity.nodeId stimulus).1
    after.roster.find? id = some next ∧
      additions effects = (if next.started && !node.started then [next.record] else []) ∧
      updates effects = (if input.source?.isSome && node.started then [next.record] else []) := by
  cases change with
  | aside _ _ nobodyHears => simp [nobodyHears id stimulus hears] at found
  | arrives _ _ nobodyHears | leaves _ _ nobodyHears => simp [nobodyHears] at hears
  | hears _ _ same registered =>
    cases same.symm.trans hears
    cases registered.symm.trans found
    have own := (node.reactId network.identity.nodeId stimulus).trans (Roster.foundId found)
    exact ⟨by simp [Roster.foundUpdated, own, found], hearerTold node network.identity.nodeId stimulus _⟩

theorem Change.tells {id : NodeId} {node : Node} (change : Change network lookup input after effects)
    (source : input.source? = some id) (found : network.roster.find? id = some node) :
    ∃ now, after.roster.find? id = some now ∧ updates effects = (if node.started then [now.record] else []) ∧
      additions effects = if now.started && !node.started then [now.record] else [] := by
  obtain ⟨stimulus, hears⟩ := NetworkInput.sourceHears source
  obtain ⟨foundNext, added, updated⟩ := change.heard hears found
  exact ⟨_, foundNext, by simpa [source] using updated, added⟩

theorem Change.untold (change : Change network lookup input after effects)
    (nobody : ∀ id, input.source? = some id → network.roster.find? id = none) : updates effects = [] := by
  cases change with
  | aside _ _ _ quiet | leaves _ _ _ quiet => exact quiet.untold.2
  | arrives _ _ _ quiet quietLater => exact (newcomerTold quiet quietLater).2
  | @hears key stimulus node _ _ hears found =>
    have told := (hearerTold node network.identity.nodeId stimulus input.source?.isSome).2
    cases source : input.source? with
    | none => simpa [source] using told
    | some id =>
      obtain ⟨_, heard⟩ := NetworkInput.sourceHears source
      cases hears.symm.trans heard
      simp [nobody key source] at found

theorem Change.added {record : NodeRecord} (change : Change network lookup input after effects)
    (member : record ∈ additions effects) :
    ∃ now, after.roster.find? record.nodeId = some now ∧ now.record = record ∧ now.started = true ∧
      (network.newcomer? lookup input = some now ∨
        ∃ node, network.roster.find? record.nodeId = some node ∧ node.started = false) := by
  cases change with
  | aside _ _ _ quiet | leaves _ _ _ quiet => simp [quiet.untold] at member
  | @arrives node _ _ comes _ _ quiet quietLater =>
    rw [(newcomerTold quiet quietLater).1] at member
    split at member
    · rename_i started
      cases List.mem_singleton.mp member
      have found : (network.roster.insert node).1.find? node.id = some node := by simp [Roster.foundInserted]
      exact ⟨node, found, rfl, started, .inl comes⟩
    · simp at member
  | @hears id stimulus node _ _ _ found =>
    rw [(hearerTold node network.identity.nodeId stimulus input.source?.isSome).1] at member
    split at member
    · rename_i starts
      obtain ⟨started, idle⟩ : (node.react network.identity.nodeId stimulus).1.started = true ∧ node.started = false := by
        simpa using starts
      cases List.mem_singleton.mp member
      have own : (node.react network.identity.nodeId stimulus).1.id = id := (node.reactId _ _).trans (Roster.foundId found)
      have same : (node.react network.identity.nodeId stimulus).1.record.nodeId = id := own
      exact ⟨_, by simp [same, Roster.foundUpdated, own, found], rfl, started, .inr ⟨node, by rw [same, found], idle⟩⟩
    · simp at member

theorem Change.registers {id : NodeId} {now : Node} (change : Change network lookup input after effects)
    (found : after.roster.find? id = some now) (new : network.roster.find? id = none) :
    network.newcomer? lookup input = some now := by
  cases change with
  | aside => simp [new] at found
  | arrives comes =>
    simp only [Roster.foundInserted] at found
    split at found
    · exact comes.trans found
    · simp [new] at found
  | leaves =>
    simp only [Roster.remove, Roster.foundWithout] at found
    split at found
    · contradiction
    · simp [new] at found
  | hears =>
    simp only [Roster.foundUpdated] at found
    split at found <;> simp [new] at found

theorem Change.gone {id : NodeId} (change : Change network lookup input after effects) (leaves : input.leaver? = some id) :
    after.roster.find? id = none := by
  cases change with
  | aside _ nobodyLeaves | arrives _ nobodyLeaves | hears _ nobodyLeaves => simp [nobodyLeaves] at leaves
  | leaves _ same =>
    cases same.symm.trans leaves
    simp [Roster.remove, Roster.foundWithout]

theorem Change.passes {id : NodeId} (change : Change network lookup input after effects)
    (unreplaced : ∀ new, network.newcomer? lookup input = some new → new.id ≠ id) (unremoved : input.leaver? ≠ some id)
    (unheard : ∀ stimulus, input.stimulus? ≠ some (id, stimulus)) :
    after.roster.find? id = network.roster.find? id := by
  cases change with
  | aside => rfl
  | @arrives new _ _ comes => rw [Roster.foundInserted, if_neg (unreplaced new comes).symm]
  | @leaves key _ _ leaves =>
    have other : id ≠ key := fun same => unremoved (same ▸ leaves)
    simp only [Roster.remove, Roster.foundWithout, if_neg other]
  | @hears key stimulus hearer _ _ hears heard =>
    have other : id ≠ key := fun same => unheard stimulus (same ▸ hears)
    have own : (hearer.react network.identity.nodeId stimulus).1.id = key :=
      (hearer.reactId _ _).trans (Roster.foundId heard)
    rw [Roster.foundUpdated, own, if_neg other]

end Changes

def Stays (id : NodeId) (network : Network) : List (Lookup × NetworkInput) → Prop
  | [] => True
  | (lookup, input) :: rest =>
    (∀ new, network.newcomer? lookup input = some new → new.id ≠ id) ∧ input.leaver? ≠ some id ∧
      Stays id (network.step lookup input).1 rest

/- By induction on the inputs: a node that stays is added once if it is started meanwhile, and else not at all. -/
theorem addedMeanwhile {network : Network} {id : NodeId} {node : Node} {history : List (Lookup × NetworkInput)}
    (found : network.roster.find? id = some node) (stays : network.Stays id history) :
    ∃ now, (network.run history).1.roster.find? id = some now ∧ (node.started = true → now.started = true) ∧
      (additionsOf id (network.run history).2.flatten).length = if now.started && !node.started then 1 else 0 := by
  induction history generalizing network node with
  | nil => exact ⟨node, found, fun started => started, by simp [run, additionsOf, additions, Effect.notices]⟩
  | cons first rest ih =>
    obtain ⟨lookup, input⟩ := first
    obtain ⟨unreplaced, unremoved, staysLater⟩ := stays
    obtain ⟨next, foundNext, grows, here⟩ := (network.stepChange lookup input).keeps found unreplaced unremoved
    obtain ⟨now, foundNow, growsLater, later⟩ := ih foundNext staysLater
    refine ⟨now, foundNow, growsLater ∘ grows, ?_⟩
    simp only [run, List.flatten_cons, additionsOfAppend, List.length_append, here, later]
    cases was : node.started <;> cases started : next.started <;> simp_all

theorem addedOnce {network : Network} {lookup : Lookup} {input : NetworkInput} {node : Node}
    {more : List (Lookup × NetworkInput)} (comes : network.newcomer? lookup input = some node)
    (stays : (network.step lookup input).1.Stays node.id more) :
    ∃ now, ((network.step lookup input).1.run more).1.roster.find? node.id = some now ∧
      (additionsOf node.id ((network.step lookup input).2 ++ ((network.step lookup input).1.run more).2.flatten)).length =
        if now.started then 1 else 0 := by
  have change := network.stepChange lookup input
  obtain ⟨now, foundNow, grows, meanwhile⟩ := addedMeanwhile (change.enters comes) stays
  refine ⟨now, foundNow, ?_⟩
  have own : node.record.nodeId = node.id := rfl
  rw [additionsOfAppend, List.length_append, meanwhile, additionsOf, change.comes comes]
  cases was : node.started <;> cases started : now.started <;> simp_all

theorem runAnnounced (network : Network) (history : List (Lookup × NetworkInput)) :
    Announced (network.run history).2.flatten := by
  induction history generalizing network with
  | nil => exact .nothing
  | cons first rest ih => exact (network.stepChange first.1 first.2).announced.append (ih _)

/-- Whatever happens to a network and whatever the store answers, a node is saved exactly when it is added, directly
before. From one registration to its end a node is added once, by the input that finds it started; what it sends after that
is told as an update, and nothing else is. -/
theorem livesReported (history : List (Lookup × NetworkInput)) :
    let (network, told) := ({} : Network).run history
    (∀ before record later, told.flatten = before ++ .notify (.nodeAdded record) :: later →
      before.getLast? = some (.store (.save record))) ∧
    (∀ before record later, told.flatten = before ++ .store (.save record) :: later →
      later.head? = some (.notify (.nodeAdded record))) ∧
    ∀ lookup input, let (next, effects) := network.step lookup input
      (∀ id node, input.source? = some id → network.roster.find? id = some node →
        ∃ now, next.roster.find? id = some now ∧ updates effects = (if node.started then [now.record] else []) ∧
          additions effects = if now.started && !node.started then [now.record] else []) ∧
      ((∀ id, input.source? = some id → network.roster.find? id = none) → updates effects = []) ∧
      (∀ id now, next.roster.find? id = some now → network.roster.find? id = none →
        network.newcomer? lookup input = some now) ∧
      (∀ record ∈ additions effects, ∃ now, next.roster.find? record.nodeId = some now ∧ now.record = record ∧
        now.started = true ∧ (network.newcomer? lookup input = some now ∨
          ∃ node, network.roster.find? record.nodeId = some node ∧ node.started = false)) ∧
      (∀ id node, network.roster.find? id = some node →
        (∀ new, network.newcomer? lookup input = some new → new.id ≠ id) → input.leaver? ≠ some id →
        ∃ now, next.roster.find? id = some now ∧ (node.started = true → now.started = true) ∧
          additionsOf id effects = if now.started && !node.started then [now.record] else []) ∧
      ∀ node, network.newcomer? lookup input = some node →
        next.roster.find? node.id = some node ∧ additions effects = (if node.started then [node.record] else []) ∧
        ∀ more, next.Stays node.id more → let (last, later) := next.run more
          ∃ now, last.roster.find? node.id = some now ∧
            (additionsOf node.id (effects ++ later.flatten)).length = if now.started then 1 else 0 := by
  have announced := runAnnounced {} history
  refine ⟨fun before record later => announced.savedBefore, fun before record later => announced.addedBehind,
    fun lookup input => ?_⟩
  have change := (({} : Network).run history).1.stepChange lookup input
  refine ⟨fun id node => change.tells, change.untold, fun id now => change.registers, fun record => change.added,
    fun id node => change.keeps, fun node comes => ?_⟩
  exact ⟨change.enters comes, change.comes comes, fun more stays => addedOnce comes stays⟩

def nodeReported : NetworkInput :=
  .event (.received (.protocolInfo ⟨0x80, 0, ⟨0x04, 0x10, 0x01⟩⟩) (some ⟨4, some 2, FunctionId.protocolInfo⟩))

def nodeInformed : NetworkInput :=
  .event (.received (.nodeUpdate ⟨0x84, 2, some ⟨2, ⟨0x04, 0x10, 0x01⟩, [0x25, 0x20]⟩⟩) none)

theorem newNodeAdded :
    let (network, effects) := ({} : Network).step (fun _ => .ok none) nodeReported
    let (last, later) := network.run [(fun _ => .ok none, nodeInformed), (fun _ => .ok none, nodeInformed)]
    (last.roster.find? 2).map Node.started = some true ∧ (additionsOf 2 (effects ++ later.flatten)).length = 1 := by
  obtain ⟨-, -, -, -, -, registration⟩ := (livesReported []).2.2 (fun _ => .ok none) nodeReported
  obtain ⟨-, -, tenure⟩ := registration ⟨⟨2, ⟨0x04, 0x10, 0x01⟩, []⟩, true, false, none, none, false⟩ rfl
  obtain ⟨now, found, once⟩ := tenure [(fun _ => .ok none, nodeInformed), (fun _ => .ok none, nodeInformed)]
    ⟨by rintro new ⟨⟩, by decide, by rintro new ⟨⟩, by decide, trivial⟩
  cases found
  exact ⟨rfl, once⟩

end Network

end ZWaveHost
