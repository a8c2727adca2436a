import ZWaveHost.Proofs.Network.Inclusion
import ZWaveHost.Proofs.Network.Shelf

/-! A node whose interview is over is not interviewed again. Its record waits on the shelf, whatever else the session goes
on to do; the next session restores it as soon as the controller reports the device, and sends it nothing. -/
namespace ZWaveHost

def NetworkInput.info? : NetworkInput → Option NodeInfo
  | event (.received (.nodeUpdate update) _) => update.info
  | event (.received (.addNodeStatus update) _) => update.info
  | _ => none

theorem NetworkInput.toldInfo {input : NetworkInput} {id : NodeId} {update : NodeUpdate}
    (hears : input.stimulus? = some (id, .update update)) : input.info? = update.info := by
  cases input with
  | event event =>
    cases event with
    | received message context =>
      cases message with
      | nodeUpdate told =>
        obtain ⟨_, _, same⟩ := Option.map_eq_some_iff.mp hears
        cases same
        rfl
      | nodeCommand => cases hears
      | _ => cases hears
    | completed _ node request =>
      obtain ⟨_, _, same⟩ := Option.map_eq_some_iff.mp hears
      cases same
    | failed _ node request why =>
      obtain ⟨_, _, same⟩ := Option.map_eq_some_iff.mp hears
      split at same <;> cases same
    | started => cases hears
  | _ => cases hears

namespace Node

variable (node : Node) (controller : Option NodeId) (stimulus : Stimulus)

theorem reactIdle (idle : (node.react controller stimulus).1.started = false) :
    (node.react controller stimulus).1.info = node.info ∧
      (node.react controller stimulus).1.listening = node.listening := by
  cases stimulus with
  | update update =>
    simp only [react, learn] at idle ⊢
    split at idle
    · split at idle <;> simp_all
    · simp_all
  | _ => exact ⟨rfl, rfl⟩

def informed (info : NodeInfo) : Node := { node with info.commandClasses := info.commandClasses, started := true }

theorem reactInformed {update : NodeUpdate} {info : NodeInfo} (tellsInfo : update.isNodeInfo = true)
    (tells : update.info = some info) : (node.react controller (.update update)).1 = node.informed info := by
  simp [react, learn, tellsInfo, tells, informed]

theorem reactClasses :
    (node.react controller stimulus).1.info.commandClasses = node.info.commandClasses ∨
      ∃ update info, stimulus = .update update ∧ update.info = some info ∧
        (node.react controller stimulus).1.info.commandClasses = info.commandClasses := by
  cases stimulus with
  | update update =>
    simp only [react, learn]
    split
    · split
      · rename_i info told
        exact .inr ⟨update, info, rfl, told, rfl⟩
      · exact .inl rfl
    · exact .inl rfl
  | _ => exact .inl rfl

end Node

theorem Catalogue.restoredPlain {record : NodeRecord} (device : record.info.ofDevice = true)
    (kind : record.kind = Node.recordKind) : ({} : Catalogue).restore record = .ok (.ofRecord record, []) := by
  simp only [restore, kindFor, record.info.deviceValid, device, kind]
  rfl

namespace Network

variable {network after : Network} {lookup : Lookup} {input : NetworkInput} {effects : List Effect} {id : NodeId}

theorem newcomerInfo {new : Node} (comes : network.newcomer? lookup input = some new) :
    (∃ key record, lookup key = .ok (some record) ∧ new.info = record.info) ∨ new.info.commandClasses = [] ∨
      input.info? = some new.info := by
  cases newcomerOrigin comes with
  | restored _ _ stored => exact .inl ⟨_, _, stored, rfl⟩
  | reported => exact .inr (.inl rfl)
  | added _ _ _ told => exact .inr (.inr told)

theorem Change.classes (holds : Bytes → Prop) (change : Change network lookup input after effects)
    (nodes : ∀ id node, network.roster.find? id = some node → holds node.info.commandClasses)
    (comes : ∀ new, network.newcomer? lookup input = some new → holds new.info.commandClasses)
    (informs : ∀ info, input.info? = some info → holds info.commandClasses) (id : NodeId) (node : Node)
    (found : after.roster.find? id = some node) : holds node.info.commandClasses := by
  cases change with
  | aside => exact nodes id node found
  | @arrives new _ _ here =>
    simp only [Roster.foundInserted] at found
    split at found
    · cases found
      exact comes node here
    · exact nodes id node found
  | leaves =>
    simp only [Roster.remove, Roster.foundWithout] at found
    split at found
    · cases found
    · exact nodes id node found
  | @hears key stimulus hearer _ _ hears heard =>
    simp only [Roster.foundUpdated] at found
    split at found
    · obtain ⟨_, _, same⟩ := Option.map_eq_some_iff.mp found
      cases same
      rcases hearer.reactClasses network.identity.nodeId stimulus with kept | ⟨update, info, same, told, learnt⟩
      · exact kept ▸ nodes key hearer heard
      · cases same
        exact learnt ▸ informs info ((NetworkInput.toldInfo hears).trans told)
    · exact nodes id node found

theorem Change.idle {next : Node} (change : Change network lookup input after effects)
    (foreign : ∀ new, network.newcomer? lookup input = some new → new.id ≠ id)
    (found : after.roster.find? id = some next) (idle : next.started = false) :
    ∃ node, network.roster.find? id = some node ∧ node.started = false ∧ next.info = node.info ∧
      next.listening = node.listening ∧ additionsOf id effects = [] := by
  cases change with
  | aside _ _ _ quiet => exact ⟨next, found, idle, rfl, rfl, by simp [additionsOf, quiet.untold]⟩
  | @arrives new _ _ comes _ _ quiet quietLater =>
    have other : new.id ≠ id := foreign new comes
    simp only [Roster.foundInserted, other.symm, if_false] at found
    exact ⟨next, found, idle, rfl, rfl, newcomerForeign other quiet quietLater⟩
  | leaves _ _ _ quiet =>
    simp only [Roster.remove, Roster.foundWithout, Option.ite_none_left_eq_some] at found
    exact ⟨next, found.2, idle, rfl, rfl, by simp [additionsOf, quiet.untold]⟩
  | @hears key stimulus hearer _ _ _ heard =>
    have own : (hearer.react network.identity.nodeId stimulus).1.id = key :=
      (hearer.reactId _ _).trans (Roster.foundId heard)
    simp only [Roster.foundUpdated, own] at found
    split at found
    · rename_i same
      obtain ⟨_, _, new⟩ := Option.map_eq_some_iff.mp found
      cases new
      obtain ⟨info, listening⟩ := hearer.reactIdle network.identity.nodeId stimulus idle
      have unstarted : hearer.started = false := by
        cases was : hearer.started with
        | false => rfl
        | true => exact absurd (hearer.reactStarted network.identity.nodeId stimulus was) (by simp [idle])
      exact ⟨hearer, same ▸ heard, unstarted, info, listening, by simp [additionsOf, hearerTold, idle]⟩
    · rename_i differ
      have other : hearer.id ≠ id := fun same => differ (same.symm.trans (Roster.foundId heard))
      exact ⟨next, found, idle, rfl, rfl, hearerForeign other _ _ _⟩

theorem Change.settled (change : Change network lookup input after effects)
    (foreign : ∀ new, network.newcomer? lookup input = some new → new.id ≠ id)
    (settled : ∀ node, network.roster.find? id = some node → node.started = true) :
    (∀ node, after.roster.find? id = some node → node.started = true) ∧ additionsOf id effects = [] := by
  constructor
  · intro next found
    cases started : next.started with
    | true => rfl
    | false =>
      obtain ⟨node, registered, idle, -⟩ := change.idle foreign found started
      exact absurd (settled node registered) (by simp [idle])
  · rw [additionsOf, List.filter_eq_nil_iff]
    intro record member
    obtain ⟨now, found, own, -, comes | ⟨node, registered, idle⟩⟩ := change.added member
    · have differs : record.nodeId ≠ id := own ▸ foreign now comes
      simpa using differs
    · intro same
      have same : record.nodeId = id := by simpa using same
      exact absurd (settled node (same ▸ registered)) (by simp [idle])

theorem reportedNew {reported : ProtocolInfo} {context : Option Context} (plain : network.catalogue = {})
    (requested : context.bind Context.node = some id) (device : (reported.toNodeInfo id).ofDevice = true)
    (new : lookup id = .ok none) :
    network.newcomer? lookup (.event (.received (.protocolInfo reported) context)) =
      some { info := reported.toNodeInfo id, listening := reported.isListening } := by
  simp [newcomer?, requested, reported?, restored, new, plain, Catalogue.createdPlain, device, Except.toOption]

theorem reportedAgain {reported : ProtocolInfo} {record : NodeRecord} (plain : network.catalogue = {})
    (stored : lookup id = .ok (some record)) (device : record.info.ofDevice = true) (kind : record.kind = Node.recordKind)
    (same : (Node.ofRecord record).describes reported = true) :
    network.onProtocolInfo lookup id reported =
      ({ network with roster := (network.roster.insert (.ofRecord record)).1 },
        [.store (.get id), .store (.save record), .notify (.nodeAdded record)]) := by
  have own : (Node.ofRecord record).record = record := by
    obtain ⟨info, listening, name⟩ := record
    cases kind
    rfl
  have recalled : network.restored (lookup id) reported = (some (.ofRecord record), []) := by
    simp only [restored, stored, plain, Catalogue.restoredPlain device kind, same]
    rfl
  have silent : ((Node.ofRecord record).react network.identity.nodeId .interview).2 = [] := rfl
  simp only [onProtocolInfo, recalled, registered, silent, announce, own]
  rfl

end Network

namespace Estate

variable {estate known started last : Estate} {inputs : List NetworkInput} {effects : List Effect} {id : NodeId}

def Leads (estate : Estate) (inputs : List NetworkInput) (last : Estate) (effects : List Effect) : Prop :=
  (estate.run inputs).1 = last ∧ (estate.run inputs).2.flatten = effects

def Avoids (id : NodeId) (estate : Estate) : List NetworkInput → Prop
  | [] => True
  | input :: rest =>
    (∀ new, estate.network.newcomer? estate.shelf.lookup input = some new → new.id ≠ id) ∧
      Avoids id (estate.step input).1 rest

theorem Leads.plain (leads : estate.Leads inputs last effects) (plain : estate.network.catalogue = {}) :
    last.network.catalogue = {} := by
  obtain ⟨rfl, -⟩ := leads
  induction inputs generalizing estate with
  | nil => exact plain
  | cons input rest ih => exact ih ((estate.stepChange input).catalogue.trans plain)

theorem recordAfter (isOpen : estate.shelf.IsOpen) (input : NetworkInput) (id : NodeId) :
    (estate.step input).1.shelf.IsOpen ∧
      (estate.step input).1.shelf.get? id =
        (additionsOf id (estate.step input).2).getLast?.or (estate.shelf.get? id) := by
  rw [shelfAfter]
  exact isOpen.savedAll id

theorem Leads.settled (leads : estate.Leads inputs last effects) (isOpen : estate.shelf.IsOpen)
    (settled : ∀ node, estate.network.roster.find? id = some node → node.started = true)
    (avoids : estate.Avoids id inputs) :
    last.shelf.get? id = estate.shelf.get? id ∧ additionsOf id effects = [] := by
  obtain ⟨rfl, rfl⟩ := leads
  induction inputs generalizing estate with
  | nil => exact ⟨rfl, rfl⟩
  | cons input rest ih =>
    obtain ⟨foreign, avoidsLater⟩ := avoids
    obtain ⟨settledNext, untold⟩ := (estate.stepChange input).settled foreign settled
    obtain ⟨openNext, kept⟩ := recordAfter isOpen input id
    obtain ⟨keptLater, untoldLater⟩ := ih openNext settledNext avoidsLater
    rw [untold] at kept
    exact ⟨keptLater.trans kept, by simp [run, additionsOfAppend, untold, untoldLater]⟩

/- By induction on the inputs, from the last one back: a node that waits for its info is as it was registered. -/
theorem Leads.idle {next : Node} (leads : estate.Leads inputs last effects) (avoids : estate.Avoids id inputs)
    (found : last.network.roster.find? id = some next) (idle : next.started = false) :
    ∃ node, estate.network.roster.find? id = some node ∧ next.info = node.info ∧ next.listening = node.listening ∧
      node.started = false ∧ additionsOf id effects = [] := by
  obtain ⟨rfl, rfl⟩ := leads
  induction inputs generalizing estate with
  | nil => exact ⟨next, found, rfl, rfl, idle, rfl⟩
  | cons input rest ih =>
    obtain ⟨foreign, avoidsLater⟩ := avoids
    obtain ⟨middle, foundMiddle, info, listening, idleMiddle, untoldLater⟩ := ih avoidsLater found
    obtain ⟨node, foundFirst, idleFirst, infoFirst, listeningFirst, untold⟩ :=
      (estate.stepChange input).idle foreign foundMiddle idleMiddle
    exact ⟨node, foundFirst, info.trans infoFirst, listening.trans listeningFirst, idleFirst,
      by simp [run, additionsOfAppend, untold, untoldLater]⟩

structure Sound (start : Shelf) (estate : Estate) : Prop where
  works : estate.shelf.Works
  same : ∀ classes, estate.shelf.Holds classes ↔ start.Holds classes
  nodes : ∀ id node, estate.network.roster.find? id = some node → start.Holds node.info.commandClasses

variable {start : Shelf}

theorem Sound.step {input : NetworkInput} (sound : Sound start estate)
    (informs : ∀ info, input.info? = some info → start.Holds info.commandClasses) : Sound start (estate.step input).1 := by
  have change := estate.stepChange input
  have comes (new : Node) (here : estate.network.newcomer? estate.shelf.lookup input = some new) :
      start.Holds new.info.commandClasses := by
    rcases Network.newcomerInfo here with ⟨key, record, found, same⟩ | bare | told
    · exact same ▸ (sound.same _).mp (sound.works.holds (Except.ok.inj found))
    · exact bare ▸ start.holdsNothing
    · exact informs new.info told
  have nodes := change.classes (start.Holds ·) sound.nodes comes informs
  have records : ∀ record ∈ additions (estate.step input).2,
      estate.shelf.Holds record.info.commandClasses ∧ record.kind = Node.recordKind := by
    intro record member
    obtain ⟨now, found, own, -⟩ := change.added member
    exact own ▸ ⟨(sound.same _).mpr (nodes record.nodeId now found), rfl⟩
  obtain ⟨works, same⟩ := sound.works.saveAll records
  rw [← shelfAfter] at works same
  exact ⟨works, fun classes => (same classes).trans (sound.same classes), nodes⟩

theorem Leads.sound (leads : estate.Leads inputs last effects) (sound : Sound start estate)
    (informs : ∀ input ∈ inputs, ∀ info, input.info? = some info → start.Holds info.commandClasses) : Sound start last := by
  obtain ⟨rfl, -⟩ := leads
  induction inputs generalizing estate with
  | nil => exact sound
  | cons input rest ih =>
    obtain ⟨here, others⟩ := List.forall_mem_cons.mp informs
    exact ih (sound.step here) others

theorem Leads.reports {reported : ProtocolInfo} {context : Option Context}
    (leads : estate.Leads [.event (.received (.protocolInfo reported) context)] known effects)
    (plain : estate.network.catalogue = {}) (device : (reported.toNodeInfo id).ofDevice = true)
    (requested : context.bind Context.node = some id) (unknown : estate.shelf.get? id = none) :
    known.network.roster.find? id = some { info := reported.toNodeInfo id, listening := reported.isListening } ∧
      additionsOf id effects = [] := by
  obtain ⟨rfl, rfl⟩ := leads
  have change := estate.stepChange (.event (.received (.protocolInfo reported) context))
  have nothing : estate.shelf.lookup id = .ok none := congrArg Except.ok unknown
  have comes := Network.reportedNew plain requested device nothing
  have untold : additions (estate.step (.event (.received (.protocolInfo reported) context))).2 = [] := change.comes comes
  exact ⟨change.enters comes, by simp [run, additionsOf, untold]⟩

theorem Leads.informs {context : Option Context} {update : NodeUpdate} {info : NodeInfo} {node : Node}
    (leads : estate.Leads [.event (.received (.nodeUpdate update) context)] started effects)
    (isOpen : estate.shelf.IsOpen) (registered : estate.network.roster.find? id = some node) (idle : node.started = false)
    (source : update.target.or (context.bind Context.node) = some id) (tellsInfo : update.isNodeInfo = true)
    (tells : update.info = some info) :
    started.network.roster.find? id = some (node.informed info) ∧ additionsOf id effects = [(node.informed info).record] ∧
      started.shelf.IsOpen ∧ started.shelf.get? id = some (node.informed info).record := by
  obtain ⟨rfl, rfl⟩ := leads
  let input := NetworkInput.event (.received (.nodeUpdate update) context)
  have hears : input.stimulus? = some (id, .update update) := by simp [input, NetworkInput.stimulus?, source]
  have own : (node.informed info).record.nodeId = id := @Roster.foundId _ node id registered
  have starts : (node.informed info).started = true := rfl
  obtain ⟨found, added, -⟩ := (estate.stepChange input).heard hears registered
  rw [node.reactInformed _ tellsInfo tells] at found added
  have addedOf : additionsOf id (estate.step input).2 = [(node.informed info).record] := by
    simp [additionsOf, added, starts, idle, own]
  obtain ⟨stillOpen, kept⟩ := recordAfter isOpen input id
  rw [addedOf] at kept
  exact ⟨found, by simpa [run] using addedOf, stillOpen, kept⟩

/- A session over a shelf, in which a report registers a node that the shelf has no record of, and its info starts it. No
other input registers it from then on, and the shelf holds all infos that are told. -/
inductive Interviewed (start : Shelf) (id : NodeId) (reported : ProtocolInfo) : Bytes → Estate → List Effect → Prop
  | session {before waiting later : List NetworkInput} {asked told : Option Context} {update : NodeUpdate}
      {info : NodeInfo} {first known asleep started last : Estate} {node : Node}
      {earlier atReport meanwhile atInfo afterwards : List Effect}
      (opens : (Estate.mk {} start).Leads before first earlier) (unknown : first.shelf.get? id = none)
      (requested : asked.bind Context.node = some id)
      (registers : first.Leads [.event (.received (.protocolInfo reported) asked)] known atReport)
      (waits : known.Leads waiting asleep meanwhile) (avoids : known.Avoids id waiting)
      (registered : asleep.network.roster.find? id = some node) (idle : node.started = false)
      (source : update.target.or (told.bind Context.node) = some id) (tellsInfo : update.isNodeInfo = true)
      (tells : update.info = some info)
      (starts : asleep.Leads [.event (.received (.nodeUpdate update) told)] started atInfo)
      (goesOn : started.Leads later last afterwards) (avoidsLater : started.Avoids id later)
      (holds : ∀ input ∈ before ++ waiting ++ later, ∀ other, input.info? = some other → start.Holds other.commandClasses)
      (holdsInfo : start.Holds info.commandClasses) :
      Interviewed start id reported info.commandClasses last (atReport ++ meanwhile ++ atInfo ++ afterwards)

def interviewRecord (id : NodeId) (reported : ProtocolInfo) (classes : Bytes) : NodeRecord :=
  ⟨⟨id, reported.deviceClass, classes⟩, reported.isListening, Node.recordKind⟩

theorem Interviewed.recorded {reported : ProtocolInfo} {classes : Bytes}
    (interviewed : Interviewed start id reported classes last effects) (works : start.Works)
    (device : (reported.toNodeInfo id).ofDevice = true) :
    additionsOf id effects = [interviewRecord id reported classes] ∧ last.shelf.Works ∧
      last.shelf.get? id = some (interviewRecord id reported classes) := by
  obtain ⟨opens, unknown, requested, registers, waits, avoids, registered, idle, source, tellsInfo, tells, starts, goesOn,
    avoidsLater, holds, holdsInfo⟩ := interviewed
  rename_i info first known asleep started node _ _ _ _ _
  obtain ⟨holdsFirst, holdsLater⟩ := List.forall_mem_append.mp holds
  obtain ⟨holdsBefore, holdsWaiting⟩ := List.forall_mem_append.mp holdsFirst
  -- All along the shelf works.
  have soundStart : Sound start { shelf := start } := ⟨works, fun _ => Iff.rfl, fun _ _ found => nomatch found⟩
  have soundKnown := registers.sound (opens.sound soundStart holdsBefore) (by simp [NetworkInput.info?])
  have soundAsleep := waits.sound soundKnown holdsWaiting
  have soundStarted := starts.sound soundAsleep (by simpa [NetworkInput.info?, tells] using holdsInfo)
  have soundLast := goesOn.sound soundStarted holdsLater
  -- The node is registered as it is reported, stays so until it tells its info, and is settled from then on.
  obtain ⟨found, untold⟩ := registers.reports (opens.plain rfl) device requested unknown
  obtain ⟨reportedNode, foundToo, sameInfo, sameListening, -, untoldWaiting⟩ := waits.idle avoids registered idle
  cases found.symm.trans foundToo
  obtain ⟨foundNext, added, isOpen, kept⟩ :=
    starts.informs soundAsleep.works.isOpen registered idle source tellsInfo tells
  have settled (next : Node) (found : started.network.roster.find? id = some next) : next.started = true := by
    cases foundNext.symm.trans found
    rfl
  obtain ⟨keptLast, untoldLater⟩ := goesOn.settled isOpen settled avoidsLater
  have record : (node.informed info).record = interviewRecord id reported info.commandClasses := by
    simp [Node.informed, Node.record, interviewRecord, sameInfo, sameListening, ProtocolInfo.toNodeInfo]
  exact ⟨by simp [additionsOfAppend, untold, untoldWaiting, added, untoldLater, record], soundLast.works,
    keptLast.trans (kept.trans (congrArg some record))⟩

theorem restarts {reported : ProtocolInfo} {record : NodeRecord} {context : Option Context}
    (plain : estate.network.catalogue = {}) (stored : estate.shelf.get? id = some record) (own : record.nodeId = id)
    (device : record.info.ofDevice = true) (kind : record.kind = Node.recordKind)
    (same : (Node.ofRecord record).describes reported = true) (requested : context.bind Context.node = some id) :
    let (next, effects) := estate.step (.event (.received (.protocolInfo reported) context))
    effects = [.store (.get id), .store (.save record), .notify (.nodeAdded record)] ∧
      next.network.roster.find? id = some (.ofRecord record) := by
  have found : estate.shelf.lookup id = .ok (some record) := congrArg Except.ok stored
  have restored := Network.reportedAgain plain found device kind same
  have id : (Node.ofRecord record).id = id := own
  simp [step, Network.step, Network.onEvent, Network.onMessage, requested, restored, Roster.foundInserted, id]

/-- A node that a report registers and its info starts, in a session over a shelf that had no record of it, is told as
added once: with what was reported and the command classes it told. The next session over that shelf, closed and opened
again, registers it from that record as soon as the controller reports the same, whatever else it was told before: the node
is started, it is told as added, and nothing is sent. -/
theorem interviewedOnce {reported : ProtocolInfo} {classes : Bytes} (works : start.Works)
    (device : 1 ≤ id.toNat ∧ id.toNat ≤ 232) (interviewed : Interviewed start id reported classes last effects) :
    let record := interviewRecord id reported classes
    additionsOf id effects = [record] ∧
    ∃ again, last.shelf.close.reopen = .ok again ∧
      ∀ others context, (Estate.mk {} again).Avoids id others → context.bind Context.node = some id →
        let (next, effects) :=
          ((Estate.mk {} again).run others).1.step (.event (.received (.protocolInfo reported) context))
        effects = [.store (.get id), .store (.save record), .notify (.nodeAdded record)] ∧
        ∃ node, next.network.roster.find? id = some node ∧ node.record = record ∧ node.started = true := by
  have valid : (reported.toNodeInfo id).ofDevice = true :=
    (Bool.and_eq_true _ _).mpr ⟨decide_eq_true device.1, decide_eq_true device.2⟩
  obtain ⟨added, worksLast, kept⟩ := interviewed.recorded works valid
  refine ⟨added, last.shelf, worksLast.reopens, fun others context avoids requested => ?_⟩
  have leads : (Estate.mk {} last.shelf).Leads others _ _ := ⟨rfl, rfl⟩
  have stored := (leads.settled worksLast.isOpen (fun _ found => nomatch found) avoids).1.trans kept
  have same : (Node.ofRecord (interviewRecord id reported classes)).describes reported = true := by
    simp [Node.describes, Node.ofRecord, interviewRecord]
  obtain ⟨effects, found⟩ := restarts (leads.plain rfl) stored rfl valid rfl same requested
  exact ⟨effects, _, found, rfl, rfl⟩

theorem switchReused :
    let record : NodeRecord := ⟨⟨2, ⟨0x04, 0x10, 0x01⟩, [0x25, 0x20]⟩, true, "generic"⟩
    let last := ((Estate.mk {} (.file {} {})).run [Network.nodeReported, Network.nodeInformed]).1
    ∃ again, last.shelf.close.reopen = .ok again ∧
      ((Estate.mk {} again).step Network.nodeReported).2 =
        [.store (.get 2), .store (.save record), .notify (.nodeAdded record)] := by
  have works : (Shelf.file {} {}).Works := ⟨rfl, rfl⟩
  have holds : (Shelf.file {} {}).Holds [0x25, 0x20] := (by decide : 2 < MessagePack.sizeLimit)
  let asked : Option Context := some ⟨4, some 2, FunctionId.protocolInfo⟩
  let info : NodeInfo := ⟨2, ⟨0x04, 0x10, 0x01⟩, [0x25, 0x20]⟩
  have interviewed := @Interviewed.session (.file {} {}) 2 ⟨0x80, 0, ⟨0x04, 0x10, 0x01⟩⟩ [] [] [] asked none
    ⟨0x84, 2, some info⟩ info _ _ _ _ _ _ _ _ _ _ _ ⟨rfl, rfl⟩ rfl rfl ⟨rfl, rfl⟩ ⟨rfl, rfl⟩ trivial rfl rfl rfl rfl rfl
    ⟨rfl, rfl⟩ ⟨rfl, rfl⟩ trivial (by simp) holds
  obtain ⟨-, again, reopens, reused⟩ := interviewedOnce works (by decide) interviewed
  exact ⟨again, reopens, (reused [] asked trivial rfl).1⟩

end Estate

end ZWaveHost
