import ZWaveHost.Proofs.Network.Change

/-! Who the controller is, as the network keeps and tells it. Each part is what the controller has reported last; as soon as all
of it is known it is told, and told again with every further report. A controller that goes on to report the same is told of
as the same; one that reports something else is believed. -/
namespace ZWaveHost

def Identity.known? : Identity → Option (String × UInt32 × NodeId)
  | ⟨some library, some homeId, some nodeId⟩ => some (library, homeId, nodeId)
  | _ => none

def Notice.introduction? : Notice → Option (String × UInt32 × NodeId)
  | controllerInfo library homeId nodeId => some (library, homeId, nodeId)
  | _ => none

def introductions (effects : List Effect) : List (String × UInt32 × NodeId) :=
  (Effect.notices effects).filterMap Notice.introduction?

namespace NetworkInput

def library? : NetworkInput → Option String
  | event (.received (.version library _) _) => some library
  | _ => none

def homeId? : NetworkInput → Option UInt32
  | event (.received (.memoryId homeId _) _) => some homeId
  | _ => none

def nodeId? : NetworkInput → Option NodeId
  | event (.received (.memoryId _ nodeId) _) => some nodeId
  | _ => none

def introduces (input : NetworkInput) : Bool := input.library?.isSome || input.homeId?.isSome

def Repeats (known : String × UInt32 × NodeId) (input : NetworkInput) : Prop :=
  (∀ library, input.library? = some library → library = known.1) ∧
    (∀ homeId, input.homeId? = some homeId → homeId = known.2.1) ∧
    ∀ nodeId, input.nodeId? = some nodeId → nodeId = known.2.2

end NetworkInput

def Identity.reported (identity : Identity) (input : NetworkInput) : Identity where
  library := input.library?.or identity.library
  homeId := input.homeId?.or identity.homeId
  nodeId := input.nodeId?.or identity.nodeId

theorem NetworkInput.unreported {input : NetworkInput} (unintroduced : input.introduces = false) (identity : Identity) :
    identity.reported input = identity := by
  cases input with
  | event event =>
    cases event with
    | received message context =>
      cases message with
      | version | memoryId => cases unintroduced
      | _ => rfl
    | _ => rfl
  | _ => rfl

theorem introductionsAppend (before later : List Effect) :
    introductions (before ++ later) = introductions before ++ introductions later := by
  simp [introductions, Effect.notices]

theorem Inward.unintroduced {effects : List Effect} (inward : Inward effects) : introductions effects = [] := by
  induction effects with
  | nil => rfl
  | cons effect rest ih =>
    obtain ⟨first, others⟩ := List.forall_mem_cons.mp inward
    rw [← List.singleton_append, introductionsAppend, ih others]
    cases effect with
    | link | journal => rfl
    | store | notify => contradiction

theorem Identity.knownLater {identity : Identity} {input : NetworkInput} (known : identity.known?.isSome = true) :
    (identity.reported input).known?.isSome = true := by
  obtain ⟨library, homeId, nodeId⟩ := identity
  cases library <;> cases homeId <;> cases nodeId <;> try contradiction
  cases input.library? <;> cases input.homeId? <;> cases input.nodeId? <;> simp_all [reported, known?]

theorem Identity.repeated {identity : Identity} {input : NetworkInput} {known : String × UInt32 × NodeId}
    (all : identity.known? = some known) (repeats : input.Repeats known) : identity.reported input = identity := by
  obtain ⟨library, homeId, nodeId⟩ := identity
  cases library <;> cases homeId <;> cases nodeId <;> try contradiction
  cases all
  obtain ⟨sameLibrary, sameHome, sameNode⟩ := repeats
  cases told : input.library? <;> cases home : input.homeId? <;> cases node : input.nodeId? <;>
    simp_all [reported]

namespace Network

structure Discreet (network : Network) (result : Network × List Effect) : Prop where
  identity : result.1.identity = network.identity
  silent : introductions result.2 = []

section Discretion

variable (network : Network)

theorem addressDiscreet (id : NodeId) (asUpdate : Bool) (stimulus : Stimulus) :
    network.Discreet (network.address id asUpdate stimulus) := by
  cases found : network.roster.find? id with
  | none =>
    rw [address, found]
    exact ⟨rfl, rfl⟩
  | some node =>
    rw [addressed network found]
    refine ⟨rfl, ?_⟩
    rw [introductionsAppend, (reactInward _ _ _).unintroduced, List.nil_append, report]
    split
    · rfl
    · split <;> rfl

theorem registerDiscreet (node : Node) : network.Discreet (network.register node) := by
  rw [registered]
  refine ⟨rfl, ?_⟩
  rw [introductionsAppend, (reactInward _ _ _).unintroduced]
  split <;> rfl

theorem nothingIntroduced : introductions [] = [] := rfl

variable {network} in
theorem Discreet.amid {result : Network × List Effect} (discreet : network.Discreet result) {before later : List Effect}
    (silentBefore : introductions before = []) (silentLater : introductions later = []) :
    network.Discreet (result.1, before ++ result.2 ++ later) :=
  ⟨discreet.identity, by simp only [introductionsAppend, silentBefore, discreet.silent, silentLater, List.append_nil]⟩

theorem protocolInfoDiscreet (lookup : Lookup) (id : NodeId) (reported : ProtocolInfo) :
    network.Discreet (network.onProtocolInfo lookup id reported) := by
  have asked : introductions (.store (.get id) :: (network.restored (lookup id) reported).2) = [] :=
    (restoredInward network (lookup id) reported).unintroduced
  unfold onProtocolInfo
  split
  rename_i recalled before restores
  rw [restores] at asked
  split
  · rename_i node
    simpa using (network.registerDiscreet node).amid asked nothingIntroduced
  · split
    · exact ⟨rfl, asked⟩
    · rename_i node made created
      have silent : introductions (.store (.get id) :: before ++ made) = [] := by
        rw [introductionsAppend, asked, (madeInward created).unintroduced, List.nil_append]
      simpa using (network.registerDiscreet node).amid silent nothingIntroduced

theorem addStatusDiscreet (update : NetworkUpdate) : network.Discreet (network.onAddStatus update) := by
  have enrolls (info : NodeInfo) : network.Discreet (network.enroll info) := by
    unfold enroll
    split
    · exact ⟨rfl, rfl⟩
    · rename_i node made created
      exact (network.registerDiscreet node).amid (madeInward created).unintroduced rfl
  fun_cases onAddStatus network update with
  | case3 _ info | case5 _ info => exact enrolls info
  | _ => exact ⟨rfl, rfl⟩

theorem removeStatusDiscreet (update : NetworkUpdate) : network.Discreet (network.onRemoveStatus update) := by
  fun_cases onRemoveStatus network update with
  | _ => exact ⟨rfl, rfl⟩

theorem endedDiscreet (node : Option NodeId) (request : Message) (stimulus : Stimulus) :
    network.Discreet (network.onEnded node request stimulus) := by
  unfold onEnded
  split
  · exact network.addressDiscreet _ _ _
  · exact ⟨rfl, rfl⟩

theorem stepDiscreet (lookup : Lookup) {input : NetworkInput} (unintroduced : input.introduces = false) :
    network.Discreet (network.step lookup input) := by
  cases input with
  | event event =>
    cases event with
    | started => exact ⟨rfl, rfl⟩
    | completed _ node request => exact network.endedDiscreet node request _
    | failed _ node request why => exact network.endedDiscreet node request _
    | received message context =>
      cases message with
      | version | memoryId => cases unintroduced
      | initData data =>
        have asks : Inward (data.nodeIds.map fun id => ask (.protocolInfoRequest id)) := by
          simp [Inward, ask, Effect.isInward]
        exact ⟨rfl, asks.unintroduced⟩
      | protocolInfo reported =>
        simp only [step, onEvent, onMessage]
        split
        · exact network.protocolInfoDiscreet lookup _ reported
        · exact ⟨rfl, rfl⟩
      | nodeCommand command => exact network.addressDiscreet command.source true (.command command)
      | nodeUpdate update =>
        simp only [step, onEvent, onMessage]
        split
        · exact network.addressDiscreet _ _ _
        · exact ⟨rfl, rfl⟩
      | addNodeStatus update => exact network.addStatusDiscreet update
      | removeNodeStatus update => exact network.removeStatusDiscreet update
      | _ => exact ⟨rfl, rfl⟩
  | _ => exact ⟨rfl, rfl⟩

end Discretion

theorem identifiedTold (network : Network) (identity : Identity) :
    (network.identified identity).1.identity = identity ∧
      introductions (network.identified identity).2 = identity.known?.toList := by
  refine ⟨rfl, ?_⟩
  obtain ⟨library, homeId, nodeId⟩ := identity
  cases library <;> cases homeId <;> cases nodeId <;> rfl

theorem stepIdentity (network : Network) (lookup : Lookup) (input : NetworkInput) :
    (network.step lookup input).1.identity = network.identity.reported input ∧
      introductions (network.step lookup input).2 =
        if input.introduces then (network.step lookup input).1.identity.known?.toList else [] := by
  cases introduces : input.introduces with
  | false =>
    obtain ⟨same, silent⟩ := network.stepDiscreet lookup introduces
    exact ⟨same.trans (NetworkInput.unreported introduces network.identity).symm, silent⟩
  | true =>
    cases input with
    | event event =>
      cases event with
      | received message context =>
        cases message with
        | version | memoryId => exact network.identifiedTold _
        | _ => cases introduces
      | _ => cases introduces
    | _ => cases introduces

theorem runIdentity (network : Network) (history : List (Lookup × NetworkInput)) :
    (network.run history).1.identity =
      ⟨(latest (·.2.library?) history).or network.identity.library,
        (latest (·.2.homeId?) history).or network.identity.homeId,
        (latest (·.2.nodeId?) history).or network.identity.nodeId⟩ := by
  induction history generalizing network with
  | nil => rfl
  | cons first rest ih =>
    rw [run, ih (network.step first.1 first.2).1, (network.stepIdentity first.1 first.2).1]
    simp only [latestCons, Identity.reported]

theorem stepKnown {network : Network} (known : network.identity.known?.isSome = true) (lookup : Lookup)
    (input : NetworkInput) : (network.step lookup input).1.identity.known?.isSome = true := by
  rw [(network.stepIdentity lookup input).1]
  exact Identity.knownLater known

theorem runKnown {network : Network} (known : network.identity.known?.isSome = true)
    (history : List (Lookup × NetworkInput)) : (network.run history).1.identity.known?.isSome = true := by
  induction history generalizing network with
  | nil => exact known
  | cons first rest ih => exact ih (stepKnown known first.1 first.2)

theorem untoldUnknown {network : Network} {history : List (Lookup × NetworkInput)}
    (unknown : (network.run history).1.identity.known? = none) : introductions (network.run history).2.flatten = [] := by
  induction history generalizing network with
  | nil => rfl
  | cons first rest ih =>
    let next := (network.step first.1 first.2).1
    have unknownLast : (next.run rest).1.identity.known? = none := unknown
    have unknownNext : next.identity.known? = none := by
      rw [← Option.not_isSome_iff_eq_none]
      intro known
      have knownLast := runKnown known rest
      simp [unknownLast] at knownLast
    have here : introductions (network.step first.1 first.2).2 = [] := by
      rw [(network.stepIdentity first.1 first.2).2, unknownNext]
      split <;> rfl
    rw [run, List.flatten_cons, introductionsAppend, here, List.nil_append]
    exact ih unknownLast

theorem runRepeated {network : Network} {known : String × UInt32 × NodeId} {history : List (Lookup × NetworkInput)}
    (all : network.identity.known? = some known) (repeats : ∀ entry ∈ history, entry.2.Repeats known) :
    (network.run history).1.identity = network.identity ∧
      ∀ introduction ∈ introductions (network.run history).2.flatten, introduction = known := by
  induction history generalizing network with
  | nil => exact ⟨rfl, fun _ member => nomatch member⟩
  | cons first rest ih =>
    obtain ⟨here, others⟩ := List.forall_mem_cons.mp repeats
    obtain ⟨reported, told⟩ := network.stepIdentity first.1 first.2
    have same : (network.step first.1 first.2).1.identity = network.identity :=
      reported.trans (Identity.repeated all here)
    obtain ⟨sameLast, toldLater⟩ := ih (by rw [same, all]) others
    refine ⟨sameLast.trans same, ?_⟩
    rw [run, List.flatten_cons, introductionsAppend, told, same, all]
    intro introduction member
    rcases List.mem_append.mp member with now | later
    · split at now
      · exact List.mem_singleton.mp now
      · cases now
    · exact toldLater introduction later

/-- Whatever happens to a network, and whatever kinds of devices it knows, it takes the controller for what it has reported
last: a report on the library is about the version, one on the memory about both ids, and nothing else is about the
controller. What is known stays known. Each such report has the whole identity told, as it is then, once all of it is known,
and nothing is told before. While a controller that is known reports the same, it stays the same and is told of as the
same. -/
theorem identityReportedLast (catalogue : Catalogue) (history : List (Lookup × NetworkInput)) :
    let (network, told) := ({ catalogue } : Network).run history
    network.identity =
      ⟨latest (·.2.library?) history, latest (·.2.homeId?) history, latest (·.2.nodeId?) history⟩ ∧
    (network.identity.known? = none → introductions told.flatten = []) ∧
    (∀ lookup input, let (next, effects) := network.step lookup input
      next.identity = network.identity.reported input ∧
      (network.identity.known?.isSome = true → next.identity.known?.isSome = true) ∧
      introductions effects = if input.introduces then next.identity.known?.toList else []) ∧
    ∀ known more, network.identity.known? = some known → (∀ entry ∈ more, entry.2.Repeats known) →
      let (last, later) := network.run more
      last.identity = network.identity ∧ ∀ introduction ∈ introductions later.flatten, introduction = known := by
  refine ⟨?_, untoldUnknown, fun lookup input => ?_, fun known more all repeats => runRepeated all repeats⟩
  · simpa only [Option.or_none] using runIdentity { catalogue } history
  · obtain ⟨reported, told⟩ := (({ catalogue } : Network).run history).1.stepIdentity lookup input
    exact ⟨reported, fun known => stepKnown known lookup input, told⟩

def answered (library : String) : Lookup × NetworkInput := (fun _ => .ok none, .event (.received (.version library 1) none))

def introduced : List (Lookup × NetworkInput) :=
  [answered "Z-Wave 2.78", (fun _ => .ok none, .event (.received (.memoryId 0xC0FFEE01 1) none))]

theorem repeatedVersionKept :
    let (network, _) := ({} : Network).run introduced
    let (last, later) := network.run [answered "Z-Wave 2.78"]
    last.identity = ⟨some "Z-Wave 2.78", some 0xC0FFEE01, some 1⟩ ∧
      introductions later.flatten = [("Z-Wave 2.78", 0xC0FFEE01, 1)] := by
  obtain ⟨-, -, -, repeated⟩ := identityReportedLast {} introduced
  obtain ⟨same, told⟩ := repeated ("Z-Wave 2.78", 0xC0FFEE01, 1) [answered "Z-Wave 2.78"] rfl (by
    rintro entry member
    cases List.mem_singleton.mp member
    exact ⟨by rintro _ ⟨⟩; rfl, by rintro _ ⟨⟩, by rintro _ ⟨⟩⟩)
  exact ⟨same, rfl⟩

/- Another version that is reported later replaces the one that is known, and is told. -/
theorem versionReplaced :
    (({} : Network).run introduced).1.identity.known? = some ("Z-Wave 2.78", 0xC0FFEE01, 1) ∧
      (({} : Network).run (introduced ++ [answered "Z-Wave 4.05"])).1.identity.known? =
        some ("Z-Wave 4.05", 0xC0FFEE01, 1) ∧
      introductions (({} : Network).run (introduced ++ [answered "Z-Wave 4.05"])).2.flatten =
        [("Z-Wave 2.78", 0xC0FFEE01, 1), ("Z-Wave 4.05", 0xC0FFEE01, 1)] :=
  ⟨rfl, rfl, rfl⟩

end Network

end ZWaveHost
