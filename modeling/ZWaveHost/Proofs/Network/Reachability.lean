import ZWaveHost.Proofs.Network.Life

/-! Whether a node can be reached is for the node to say. What a command to it came to counts from its registration on, and
the last one that tells something of the node decides; the controller's own troubles and everything that comes in decide
nothing. -/
namespace ZWaveHost

def Stimulus.verdict? : Stimulus → Option Bool
  | delivery acknowledged => some acknowledged
  | _ => none

def NetworkInput.verdict? (id : NodeId) : NetworkInput → Option Bool
  | event (.completed _ (some node) (.sendData ..)) => if node = id then some true else none
  | event (.failed _ (some node) (.sendData ..) why) => if node = id && why.blamesNode then some false else none
  | _ => none

inductive LinkEvent.Neutral : LinkEvent → Prop
  | started (id node) : Neutral (.started id node)
  | unacknowledged (id node request attempts) : Neutral (.failed id node request (.link attempts))
  | rejected (id node request) : Neutral (.failed id node request .rejected)
  | cancelled (id node request) : Neutral (.failed id node request .cancelled)
  | unanswered (id node request) : Neutral (.failed id node request (.timeout false))
  | otherCompleted {request} (id node) (other : ∀ target data options callbackId,
      request ≠ .sendData target data options callbackId) : Neutral (.completed id node request)
  | otherFailed {request} (id node why) (other : ∀ target data options callbackId,
      request ≠ .sendData target data options callbackId) : Neutral (.failed id node request why)
  | received (message context) : Neutral (.received message context)

namespace NetworkInput

theorem verdictFrom (input : NetworkInput) (id : NodeId) :
    input.verdict? id = input.stimulus?.bind fun (key, stimulus) => if key = id then stimulus.verdict? else none := by
  cases input with
  | event event =>
    cases event with
    | started => rfl
    | completed _ node request => cases node <;> cases request <;> rfl
    | failed _ node request why =>
      cases node with
      | none => cases request <;> rfl
      | some key =>
        cases request with
        | sendData =>
          by_cases same : key = id <;> cases blamed : why.blamesNode <;>
            simp [verdict?, stimulus?, commanded?, Stimulus.verdict?, same, blamed]
        | _ => rfl
    | received message context =>
      cases message with
      | nodeCommand => simp [verdict?, stimulus?, Stimulus.verdict?]
      | nodeUpdate update =>
        cases target : update.target.or (context.bind Context.node) <;>
          simp [verdict?, stimulus?, Stimulus.verdict?, target]
      | _ => rfl
  | _ => rfl

variable {input : NetworkInput} {id : NodeId}

theorem verdictHeard {stimulus : Stimulus} (hears : input.stimulus? = some (id, stimulus)) :
    input.verdict? id = stimulus.verdict? := by
  rw [verdictFrom, hears]
  exact if_pos rfl

theorem verdictUnheard (unheard : ∀ stimulus, input.stimulus? ≠ some (id, stimulus)) : input.verdict? id = none := by
  rw [verdictFrom]
  cases hears : input.stimulus? with
  | none => rfl
  | some heard =>
    obtain ⟨key, stimulus⟩ := heard
    have other : key ≠ id := fun same => unheard stimulus (same ▸ hears)
    exact if_neg other

end NetworkInput

theorem NetworkInput.uncommanded {request : Message}
    (other : ∀ target data options callbackId, request ≠ .sendData target data options callbackId) (node : Option NodeId) :
    commanded? request node = none := by
  cases request with
  | sendData => exact absurd rfl (other _ _ _ _)
  | _ => rfl

theorem NetworkInput.unblamed {why : Failure} (unblamed : why.blamesNode = false) (transaction : Nat) (node : Option NodeId)
    (request : Message) (id : NodeId) : (event (.failed transaction node request why)).verdict? id = none := by
  rw [verdictFrom]
  cases commanded : commanded? request node <;> simp [stimulus?, commanded, unblamed, Stimulus.verdict?]

theorem LinkEvent.Neutral.noVerdict {event : LinkEvent} (neutral : event.Neutral) (id : NodeId) :
    (NetworkInput.event event).verdict? id = none := by
  cases neutral with
  | started | received => rfl
  | unacknowledged | rejected | cancelled | unanswered => exact NetworkInput.unblamed rfl ..
  | otherCompleted _ node other | otherFailed _ node _ other =>
    rw [NetworkInput.verdictFrom]
    simp only [NetworkInput.stimulus?, NetworkInput.uncommanded other node, Option.map_none, Option.bind_none]

theorem Node.reactReachable (node : Node) (controller : Option NodeId) (stimulus : Stimulus) :
    (node.react controller stimulus).1.reachable = stimulus.verdict?.or node.reachable := by
  cases stimulus with
  | update update =>
    simp only [react, learn]
    split
    · split <;> rfl
    · rfl
  | _ => rfl

namespace Network

variable {network after : Network} {lookup : Lookup} {input : NetworkInput} {effects : List Effect} {id : NodeId}

theorem newcomerUntried {new : Node} (comes : network.newcomer? lookup input = some new) : new.reachable = none := by
  cases newcomerOrigin comes <;> rfl

theorem Change.reaches {node : Node} (change : Change network lookup input after effects)
    (found : network.roster.find? id = some node)
    (unreplaced : ∀ new, network.newcomer? lookup input = some new → new.id ≠ id) (unremoved : input.leaver? ≠ some id) :
    ∃ next, after.roster.find? id = some next ∧ next.reachable = (input.verdict? id).or node.reachable := by
  by_cases hears : ∃ stimulus, input.stimulus? = some (id, stimulus)
  · obtain ⟨stimulus, hears⟩ := hears
    refine ⟨_, (change.heard hears found).1, ?_⟩
    rw [node.reactReachable, NetworkInput.verdictHeard hears]
  · have unheard : ∀ stimulus, input.stimulus? ≠ some (id, stimulus) := fun stimulus heard => hears ⟨stimulus, heard⟩
    refine ⟨node, (change.passes unreplaced unremoved unheard).trans found, ?_⟩
    rw [NetworkInput.verdictUnheard unheard, Option.none_or]

theorem reachedMeanwhile {node : Node} {history : List (Lookup × NetworkInput)}
    (found : network.roster.find? id = some node) (stays : network.Stays id history) :
    ∃ now, (network.run history).1.roster.find? id = some now ∧
      now.reachable = (latest (·.2.verdict? id) history).or node.reachable := by
  induction history generalizing network node with
  | nil => exact ⟨node, found, rfl⟩
  | cons first rest ih =>
    obtain ⟨unreplaced, unremoved, staysLater⟩ := stays
    obtain ⟨next, foundNext, here⟩ := (network.stepChange first.1 first.2).reaches found unreplaced unremoved
    obtain ⟨now, foundNow, later⟩ := ih foundNext staysLater
    exact ⟨now, foundNow, by rw [later, here, latestCons]⟩

/- What has come in since the node with this id was last registered. -/
inductive Tenure (id : NodeId) (network : Network) (history since : List (Lookup × NetworkInput)) : Prop
  | registered (before) {lookup input node} (parts : history = before ++ (lookup, input) :: since)
      (comes : (network.run before).1.newcomer? lookup input = some node) (own : node.id = id)
      (stays : ((network.run before).1.step lookup input).1.Stays id since)

theorem runAppend (network : Network) (before later : List (Lookup × NetworkInput)) :
    (network.run (before ++ later)).1 = ((network.run before).1.run later).1 := by
  induction before generalizing network with
  | nil => rfl
  | cons first rest ih => exact ih (network.step first.1 first.2).1

theorem registeredSince {history : List (Lookup × NetworkInput)} {now : Node}
    (found : (network.run history).1.roster.find? id = some now) :
    (∃ node, network.roster.find? id = some node ∧ network.Stays id history) ∨
      ∃ since, network.Tenure id history since := by
  induction history generalizing network with
  | nil => exact .inl ⟨now, found, trivial⟩
  | cons first rest ih =>
    obtain ⟨lookup, input⟩ := first
    have change := network.stepChange lookup input
    rcases ih found with ⟨node, foundNext, stays⟩ | ⟨since, tenure⟩
    · by_cases replaced : ∃ new, network.newcomer? lookup input = some new ∧ new.id = id
      · obtain ⟨new, comes, own⟩ := replaced
        exact .inr ⟨rest, .registered [] rfl comes own stays⟩
      · have unreplaced : ∀ new, network.newcomer? lookup input = some new → new.id ≠ id :=
          fun new comes own => replaced ⟨new, comes, own⟩
        have unremoved : input.leaver? ≠ some id := by
          intro leaves
          cases (change.gone leaves).symm.trans foundNext
        cases before : network.roster.find? id with
        | none => exact absurd (Roster.foundId foundNext) (unreplaced node (change.registers foundNext before))
        | some old => exact .inl ⟨old, rfl, unreplaced, unremoved, stays⟩
    · obtain ⟨before, rfl, comes, own, stays⟩ := tenure
      exact .inr ⟨since, .registered ((lookup, input) :: before) rfl comes own stays⟩

theorem Tenure.reaches {history since : List (Lookup × NetworkInput)} (tenure : network.Tenure id history since) :
    ∃ now, (network.run history).1.roster.find? id = some now ∧ now.reachable = latest (·.2.verdict? id) since := by
  obtain ⟨before, rfl, comes, own, stays⟩ := tenure
  have enters := ((network.run before).1.stepChange _ _).enters comes
  obtain ⟨now, found, reach⟩ := reachedMeanwhile (own ▸ enters) stays
  rw [newcomerUntried comes, Option.or_none] at reach
  exact ⟨now, by rw [runAppend]; exact found, reach⟩

/-- Whatever happens to a network, its nodes' own answers alone tell whether they can be reached. Of every registered node
this is the last verdict since its registration, if there was any: that a command to it was carried out, or that one failed
because of the node. Where the controller does not acknowledge or refuses a request or is late with its response, where a
request is cancelled or is no command, and whatever is received, there is no verdict, and what was known of the node stays
known until it is registered again or removed. -/
theorem reachabilityFollows (history : List (Lookup × NetworkInput)) :
    let network := (({} : Network).run history).1
    (∀ id node, network.roster.find? id = some node → ∃ since, Tenure id {} history since) ∧
    (∀ id since, Tenure id {} history since →
      ∃ node, network.roster.find? id = some node ∧ node.reachable = latest (·.2.verdict? id) since) ∧
    ∀ lookup event id node, network.roster.find? id = some node →
      (∀ new, network.newcomer? lookup (.event event) = some new → new.id ≠ id) →
      (NetworkInput.event event).leaver? ≠ some id →
      ∃ next, (network.step lookup (.event event)).1.roster.find? id = some next ∧
        next.reachable = ((NetworkInput.event event).verdict? id).or node.reachable ∧
        (event.Neutral → next.reachable = node.reachable) := by
  refine ⟨fun id node found => ?_, fun id since tenure => tenure.reaches, ?_⟩
  · rcases registeredSince found with ⟨_, nobody, _⟩ | tenure
    · cases nobody
    · exact tenure
  · intro lookup event id node found unreplaced unremoved
    obtain ⟨next, foundNext, reach⟩ :=
      ((({} : Network).run history).1.stepChange lookup (.event event)).reaches found unreplaced unremoved
    refine ⟨next, foundNext, reach, fun neutral => ?_⟩
    rw [reach, neutral.noVerdict id, Option.none_or]

theorem silentNodeUnreachable :
    let nothing : Lookup := fun _ => .ok none
    let command := Message.send 2 [0x20, 0x02]
    let since := [(nothing, .event (.completed 5 (some 2) command)),
      (nothing, .event (.failed 6 (some 2) command (.network 1)))]
    let network := (({} : Network).run ((nothing, nodeReported) :: since)).1
    (∃ node, network.roster.find? 2 = some node ∧ node.reachable = some false) ∧
      ∃ next, (network.step nothing (.event (.failed 7 (some 2) command (.link 4)))).1.roster.find? 2 = some next ∧
        next.reachable = some false := by
  intro nothing command since network
  obtain ⟨-, tenures, steps⟩ := reachabilityFollows ((nothing, nodeReported) :: since)
  obtain ⟨node, found, reach⟩ := tenures 2 since
    (.registered [] rfl rfl rfl ⟨by rintro _ ⟨⟩, by decide, by rintro _ ⟨⟩, by decide, trivial⟩)
  obtain ⟨next, foundNext, -, unchanged⟩ :=
    steps nothing (.failed 7 (some 2) command (.link 4)) 2 node found (by rintro _ ⟨⟩) (by decide)
  exact ⟨⟨node, found, reach⟩, next, foundNext, (unchanged (.unacknowledged ..)).trans reach⟩

end Network

end ZWaveHost
