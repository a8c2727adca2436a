import Mathlib.Data.List.Induction
import Mathlib.Data.List.Nodup
import ZWaveHost.Proofs.Network.Inclusion

/-! A registry that keeps the order of its nodes and the nodes themselves apart: the ids in a list, the nodes in a hash
map, each changed by itself. The two never part, and together they show at every moment what the roster shows that has
taken the same calls. -/
namespace ZWaveHost

structure Registry where
  order : List NodeId := []
  index : Std.HashMap NodeId Node := {}

namespace Registry

def find? (registry : Registry) (id : NodeId) : Option Node := registry.index[id]?

def size (registry : Registry) : Nat := registry.index.size

def listed (registry : Registry) : List Node := registry.order.filterMap registry.find?

/- The order is touched only if the map has held a node with that id. -/
def takenOut (registry : Registry) (id : NodeId) : List NodeId :=
  if (registry.find? id).isSome then registry.order.filter (· ≠ id) else registry.order

def insert (registry : Registry) (node : Node) : Registry × Option Node :=
  ({ order := registry.takenOut node.id ++ [node.id], index := registry.index.insert node.id node },
    registry.find? node.id)

def remove (registry : Registry) (id : NodeId) : Registry × Option Node :=
  ({ order := registry.takenOut id, index := registry.index.erase id }, registry.find? id)

def update (registry : Registry) (node : Node) : Registry :=
  { registry with index := registry.index.modify node.id fun _ => node }

inductive Call
  | insert (node : Node)
  | remove (id : NodeId)
  | update (node : Node)

def Call.inserts (id : NodeId) : Call → Bool
  | insert node => node.id = id
  | remove _ | update _ => false

def step (registry : Registry) : Call → Registry × Option Node
  | .insert node => registry.insert node
  | .remove id => registry.remove id
  | .update node => (registry.update node, none)

def run (calls : List Call) : Registry := calls.foldl (fun registry call => (registry.step call).1) {}

/- The number of the call that inserted an id last, counted from one; zero if none did. -/
def lastInsertion (calls : List Call) (id : NodeId) : Nat :=
  calls.length - calls.reverse.findIdx (Call.inserts id)

end Registry

namespace Roster

def step (roster : Roster) : Registry.Call → Roster × Option Node
  | .insert node => roster.insert node
  | .remove id => roster.remove id
  | .update node => (roster.update node, none)

def after (roster : Roster) (calls : List Registry.Call) : Roster :=
  calls.foldl (fun roster call => (roster.step call).1) roster

theorem absentKeeps {roster : Roster} {id : NodeId} (absent : roster.find? id = none) :
    roster.ids.filter (· ≠ id) = roster.ids :=
  List.filter_eq_self.mpr fun other member => by
    simpa using fun same : other = id => Roster.absent.mp absent (same ▸ member)

theorem foundOwn {roster : Roster} (distinct : roster.ids.Nodup) {node : Node} (member : node ∈ roster.nodes) :
    roster.find? node.id = some node := by
  cases found : roster.find? node.id with
  | none => exact absurd (List.mem_map_of_mem member) (Roster.absent.mp found)
  | some other =>
    exact congrArg some (List.inj_on_of_nodup_map distinct (List.mem_of_find?_eq_some found) member (foundId found))

theorem foundInOrder {roster : Roster} (distinct : roster.ids.Nodup) :
    roster.ids.filterMap roster.find? = roster.nodes := by
  have own : ∀ node ∈ roster.nodes, (roster.find? ∘ Node.id) node = some node := fun _ => foundOwn distinct
  rw [ids, List.filterMap_map, List.filterMap_congr own, List.filterMap_some]

end Roster

namespace Registry

structure Shows (registry : Registry) (roster : Roster) : Prop where
  order : registry.order = roster.ids
  found : ∀ id, registry.find? id = roster.find? id
  distinct : roster.ids.Nodup

namespace Shows

variable {registry : Registry} {roster : Roster}

theorem takenOut (shows : registry.Shows roster) (id : NodeId) :
    registry.takenOut id = roster.ids.filter (· ≠ id) := by
  unfold Registry.takenOut
  rw [shows.found, shows.order]
  cases found : roster.find? id with
  | none => exact (Roster.absentKeeps found).symm
  | some => rfl

theorem insert (shows : registry.Shows roster) (node : Node) : (registry.insert node).1.Shows (roster.insert node).1 where
  order := by rw [Roster.insertIds, ← shows.takenOut, Registry.insert]
  found id := by
    simp only [find?, Registry.insert, Std.HashMap.getElem?_insert, Roster.foundInserted, ← shows.found, beq_iff_eq,
      @eq_comm _ node.id]
  distinct := by
    rw [Roster.insertIds]
    have others : (roster.ids.filter (· ≠ node.id)).Nodup := shows.distinct.filter _
    simpa [List.nodup_append] using others

theorem remove (shows : registry.Shows roster) (id : NodeId) : (registry.remove id).1.Shows (roster.remove id).1 where
  order := by rw [Roster.remove, Roster.withoutIds, ← shows.takenOut, Registry.remove]
  found key := by
    simp only [find?, Registry.remove, Roster.remove, Std.HashMap.getElem?_erase, Roster.foundWithout, ← shows.found,
      beq_iff_eq, @eq_comm _ id]
  distinct := by
    rw [Roster.remove, Roster.withoutIds]
    exact shows.distinct.filter _

theorem update (shows : registry.Shows roster) (node : Node) : (registry.update node).Shows (roster.update node) where
  order := by rw [Roster.updateIds, ← shows.order, Registry.update]
  found id := by
    simp only [find?, Registry.update, Std.HashMap.getElem?_modify, Roster.foundUpdated, ← shows.found, beq_iff_eq,
      @eq_comm _ node.id]
    split
    · rename_i same
      rw [same]
    · rfl
  distinct := by
    rw [Roster.updateIds]
    exact shows.distinct

theorem step (shows : registry.Shows roster) (call : Call) :
    (registry.step call).1.Shows (roster.step call).1 ∧ (registry.step call).2 = (roster.step call).2 := by
  cases call with
  | insert node => exact ⟨shows.insert node, shows.found node.id⟩
  | remove id => exact ⟨shows.remove id, shows.found id⟩
  | update node => exact ⟨shows.update node, rfl⟩

theorem listed (shows : registry.Shows roster) : registry.listed = roster.nodes := by
  rw [Registry.listed, shows.order, funext shows.found, Roster.foundInOrder shows.distinct]

theorem ordered (shows : registry.Shows roster) (id : NodeId) :
    id ∈ registry.order ↔ (registry.find? id).isSome = true := by
  rw [shows.order, shows.found, ← Option.ne_none_iff_isSome, ne_eq, Roster.absent, not_not]

theorem sized (shows : registry.Shows roster) : registry.order.length = registry.size := by
  have keys : registry.index.keys.Nodup := by
    simpa [List.Nodup] using registry.index.distinct_keys
  have same : registry.order.Perm registry.index.keys := by
    rw [List.perm_ext_iff_of_nodup (shows.order ▸ shows.distinct) keys]
    intro id
    rw [shows.ordered, Std.HashMap.mem_keys, Std.HashMap.mem_iff_isSome_getElem?, find?]
  rw [same.length_eq, Std.HashMap.length_keys, size]

theorem finds (shows : registry.Shows roster) (id : NodeId) (node : Node) :
    registry.find? id = some node ↔ node ∈ registry.listed ∧ node.id = id := by
  rw [shows.found, shows.listed]
  constructor
  · exact fun found => ⟨List.mem_of_find?_eq_some found, Roster.foundId found⟩
  · rintro ⟨member, rfl⟩
    exact Roster.foundOwn shows.distinct member

theorem listedInOrder (shows : registry.Shows roster) : registry.listed.map some = registry.order.map registry.find? := by
  rw [shows.listed, shows.order, funext shows.found, Roster.ids, List.map_map]
  exact List.map_congr_left fun node member => (Roster.foundOwn shows.distinct member).symm

theorem listedOnce (shows : registry.Shows roster) {id : NodeId} (member : id ∈ roster.ids) :
    registry.order.count id = 1 ∧ (registry.listed.map Node.id).count id = 1 := by
  have once : roster.ids.count id = 1 := List.count_eq_one_of_mem shows.distinct member
  rw [shows.order, shows.listed]
  exact ⟨once, once⟩

end Shows

theorem Shows.empty : ({} : Registry).Shows {} where
  order := rfl
  found _ := Std.HashMap.getElem?_empty
  distinct := List.nodup_nil

theorem runShows (calls : List Call) : (run calls).Shows (({} : Roster).after calls) := by
  induction calls using List.reverseRecOn with
  | nil => exact .empty
  | append_singleton calls call ih => simpa [run, Roster.after] using (ih.step call).1

theorem lastInsertionSnoc (calls : List Call) (call : Call) (id : NodeId) :
    lastInsertion (calls ++ [call]) id = if call.inserts id then calls.length + 1 else lastInsertion calls id := by
  simp only [lastInsertion, List.length_append, List.length_singleton, List.reverse_append, List.reverse_singleton,
    List.singleton_append, List.findIdx_cons]
  cases call.inserts id <;> simp

theorem lastInsertionBound (calls : List Call) (id : NodeId) : lastInsertion calls id ≤ calls.length := Nat.sub_le _ _

def Sorted (calls : List Call) (order : List NodeId) : Prop :=
  order.Pairwise fun before after => lastInsertion calls before < lastInsertion calls after

theorem Sorted.step {registry : Registry} {roster : Roster} {calls : List Call} (shows : registry.Shows roster)
    (sorted : Sorted calls registry.order) (call : Call) : Sorted (calls ++ [call]) (registry.step call).1.order := by
  have others (id : NodeId) : Sorted calls (registry.takenOut id) := by
    rw [shows.takenOut, ← shows.order]
    exact sorted.filter _
  cases call with
  | insert node =>
    have earlier : ∀ id ∈ registry.takenOut node.id,
        lastInsertion (calls ++ [.insert node]) id = lastInsertion calls id := by
      intro id member
      have differ : id ≠ node.id := by
        rw [shows.takenOut] at member
        simpa using (List.mem_filter.mp member).2
      simp [lastInsertionSnoc, Call.inserts, differ.symm]
    have latest : lastInsertion (calls ++ [.insert node]) node.id = calls.length + 1 := by
      simp [lastInsertionSnoc, Call.inserts]
    refine List.pairwise_append.mpr ⟨?_, List.pairwise_singleton _ _, ?_⟩
    · refine (others node.id).imp_of_mem fun first second before => ?_
      rwa [earlier _ first, earlier _ second]
    · intro id member last only
      cases List.mem_singleton.mp only
      rw [earlier id member, latest]
      exact Nat.lt_succ_of_le (lastInsertionBound calls id)
  | remove id =>
    refine (others id).imp fun before => ?_
    simpa [lastInsertionSnoc, Call.inserts] using before
  | update node =>
    refine sorted.imp fun before => ?_
    simpa [lastInsertionSnoc, Call.inserts] using before

theorem runSorted (calls : List Call) : Sorted calls (run calls).order := by
  induction calls using List.reverseRecOn with
  | nil => exact .nil
  | append_singleton calls call ih => simpa [run] using ih.step (runShows calls) call

end Registry

namespace Catalogue

variable {catalogue : Catalogue} {info : NodeInfo} {listening : Bool} {record : NodeRecord} {made : Node × List Effect}

theorem kindForDevice {kind : Kind} (found : catalogue.kindFor info = .ok kind) :
    1 ≤ info.nodeId ∧ info.nodeId ≤ maxNodeId := by
  unfold kindFor at found
  split at found
  · cases found
  · rename_i valid
    rw [info.deviceValid] at valid
    simpa [NodeInfo.ofDevice, maxNodeId, UInt8.le_iff_toNat_le, Nat.one_le_iff_ne_zero] using valid

theorem createdDevice (creates : catalogue.create info listening = .ok made) :
    1 ≤ made.1.id ∧ made.1.id ≤ maxNodeId := by
  simp only [create, bind, Except.bind, pure, Except.pure] at creates
  split at creates
  · cases creates
  · rename_i found
    cases creates
    exact kindForDevice found

theorem restoredDevice (restores : catalogue.restore record = .ok made) : 1 ≤ made.1.id ∧ made.1.id ≤ maxNodeId := by
  simp only [restore, bind, Except.bind, pure, Except.pure] at restores
  split at restores
  · cases restores
  · rename_i found
    split at restores
    · cases restores
      exact kindForDevice found
    · cases restores

end Catalogue

namespace Network

variable {network after : Network} {lookup : Lookup} {input : NetworkInput} {effects : List Effect} {node : Node}

theorem createdNode {info : NodeInfo} {listening : Bool}
    (creates : (network.catalogue.create info listening).toOption.map (·.1) = some node) :
    1 ≤ node.id ∧ node.id ≤ maxNodeId := by
  cases created : network.catalogue.create info listening with
  | error => simp [created, Except.toOption] at creates
  | ok made =>
    rw [created] at creates
    cases creates
    exact Catalogue.createdDevice created

theorem recalledNode {answer : Except Fault (Option NodeRecord)} {reported : ProtocolInfo}
    (recalled : (network.restored answer reported).1 = some node) : 1 ≤ node.id ∧ node.id ≤ maxNodeId := by
  unfold restored at recalled
  split at recalled
  · split at recalled
    · rename_i restores
      simp only [Option.ite_none_right_eq_some, Option.some.injEq] at recalled
      cases recalled.2
      exact Catalogue.restoredDevice restores
    · cases recalled
  · cases recalled

theorem newcomerNode (comes : network.newcomer? lookup input = some node) : 1 ≤ node.id ∧ node.id ≤ maxNodeId := by
  unfold newcomer? at comes
  split at comes
  · obtain ⟨key, -, comes⟩ := Option.bind_eq_some_iff.mp comes
    rcases Option.or_eq_some_iff.mp comes with recalled | ⟨-, created⟩
    · exact recalledNode recalled
    · exact createdNode created
  · obtain ⟨-, comes⟩ := Option.ite_none_right_eq_some.mp comes
    obtain ⟨info, -, created⟩ := Option.bind_eq_some_iff.mp comes
    exact createdNode created
  · cases comes

def hearer? (network : Network) (input : NetworkInput) : Option Node :=
  input.stimulus?.bind fun (id, stimulus) =>
    (network.roster.find? id).map fun node => (node.react network.identity.nodeId stimulus).1

def calls (network : Network) (lookup : Lookup) (input : NetworkInput) : List Registry.Call :=
  ((network.newcomer? lookup input).map .insert).toList ++ (input.leaver?.map .remove).toList ++
    ((network.hearer? input).map .update).toList

def callsOver (network : Network) : List (Lookup × NetworkInput) → List Registry.Call
  | [] => []
  | (lookup, input) :: rest => network.calls lookup input ++ (network.step lookup input).1.callsOver rest

theorem Change.calls (change : Change network lookup input after effects) :
    after.roster = network.roster.after (network.calls lookup input) := by
  cases change with
  | aside nobodyComes nobodyLeaves nobodyHears =>
    have nobody : network.hearer? input = none := by
      refine Option.bind_eq_none_iff.mpr fun (id, stimulus) hears => ?_
      simp [nobodyHears id stimulus hears]
    simp [Network.calls, nobodyComes, nobodyLeaves, nobody, Roster.after]
  | arrives comes nobodyLeaves nobodyHears =>
    simp [Network.calls, comes, nobodyLeaves, hearer?, nobodyHears, Roster.after, Roster.step]
  | leaves nobodyComes leaves nobodyHears =>
    simp [Network.calls, nobodyComes, leaves, hearer?, nobodyHears, Roster.after, Roster.step]
  | hears nobodyComes nobodyLeaves hears found =>
    simp [Network.calls, nobodyComes, nobodyLeaves, hearer?, hears, found, Roster.after, Roster.step]

theorem Change.devices (change : Change network lookup input after effects)
    (devices : ∀ id ∈ network.roster.ids, 1 ≤ id ∧ id ≤ maxNodeId) :
    ∀ id ∈ after.roster.ids, 1 ≤ id ∧ id ≤ maxNodeId := by
  cases change with
  | aside => exact devices
  | arrives comes =>
    intro id member
    rw [Roster.insertIds, List.mem_append, List.mem_singleton] at member
    rcases member with other | rfl
    · exact devices id (List.mem_filter.mp other).1
    · exact newcomerNode comes
  | leaves =>
    intro id member
    rw [Roster.remove, Roster.withoutIds] at member
    exact devices id (List.mem_filter.mp member).1
  | hears =>
    rw [Roster.updateIds]
    exact devices

variable (network)

theorem runCalls (history : List (Lookup × NetworkInput)) :
    (network.run history).1.roster = network.roster.after (network.callsOver history) := by
  induction history generalizing network with
  | nil => rfl
  | cons first rest ih =>
    obtain ⟨lookup, input⟩ := first
    simp only [run, ih, (network.stepChange lookup input).calls, callsOver, Roster.after, List.foldl_append]

theorem runDevices (devices : ∀ id ∈ network.roster.ids, 1 ≤ id ∧ id ≤ maxNodeId)
    (history : List (Lookup × NetworkInput)) : ∀ id ∈ (network.run history).1.roster.ids, 1 ≤ id ∧ id ≤ maxNodeId := by
  induction history generalizing network with
  | nil => exact devices
  | cons first rest ih => exact ih _ ((network.stepChange first.1 first.2).devices devices)

end Network

namespace Registry

/-- The views of a registry agree after any calls. The order names nobody twice, and exactly those who are found; it is
as long as the map is large, and sorted by the last insertion. The nodes are listed in it, one for each name, and each is
found under its own id. A node that is inserted or removed is answered by the one that has stood under its id, if one has.
The roster shows the same, and so does every roster that a network without kinds of its own comes to, whatever the link
reports and the store answers: each id there is a device's, and stands once among the names and once among the nodes. -/
theorem viewsAgree :
    (∀ calls : List Call, let registry := run calls
      let roster := ({} : Roster).after calls
      (registry.order.Nodup ∧ Sorted calls registry.order ∧ registry.order.length = registry.size ∧
        ∀ id, id ∈ registry.order ↔ (registry.find? id).isSome = true) ∧
      registry.listed.map some = registry.order.map registry.find? ∧
      (∀ id node, registry.find? id = some node ↔ node ∈ registry.listed ∧ node.id = id) ∧
      (∀ node old, (registry.insert node).2 = some old ↔ old ∈ registry.listed ∧ old.id = node.id) ∧
      (∀ id old, (registry.remove id).2 = some old ↔ old ∈ registry.listed ∧ old.id = id) ∧
      registry.order = roster.ids ∧ registry.listed = roster.nodes ∧ (∀ id, registry.find? id = roster.find? id) ∧
      ∀ call, (registry.step call).2 = (roster.step call).2) ∧
    ∀ history : List (Lookup × NetworkInput), let roster := (({} : Network).run history).1.roster
      let registry := run (({} : Network).callsOver history)
      registry.order = roster.ids ∧ registry.listed = roster.nodes ∧ (∀ id, registry.find? id = roster.find? id) ∧
      ∀ id ∈ roster.ids,
        (1 ≤ id ∧ id ≤ maxNodeId) ∧ registry.order.count id = 1 ∧ (registry.listed.map Node.id).count id = 1 := by
  refine ⟨fun calls => ?_, fun history => ?_⟩
  · have shows := runShows calls
    have distinct : (run calls).order.Nodup := shows.order ▸ shows.distinct
    exact ⟨⟨distinct, runSorted calls, shows.sized, shows.ordered⟩, shows.listedInOrder, shows.finds,
      fun node => shows.finds node.id, shows.finds, shows.order, shows.listed, shows.found,
      fun call => (shows.step call).2⟩
  · have shows : (run (({} : Network).callsOver history)).Shows (({} : Network).run history).1.roster := by
      rw [Network.runCalls]
      exact runShows _
    have devices := ({} : Network).runDevices (List.forall_mem_nil _) history
    exact ⟨shows.order, shows.listed, shows.found, fun id member => ⟨devices id member, shows.listedOnce member⟩⟩

def lamp (id : NodeId) (generic : UInt8) : Node := { info := ⟨id, ⟨0x04, generic, 0x01⟩, []⟩, listening := true }

theorem replacedLast :
    (run [.insert (lamp 2 0x10), .insert (lamp 3 0x10), .insert (lamp 2 0x11)]).order = [3, 2] ∧
    (run [.insert (lamp 2 0x10), .insert (lamp 3 0x10), .insert (lamp 2 0x11)]).find? 2 = some (lamp 2 0x11) ∧
    (run (({} : Network).callsOver [(fun _ => .ok none, Network.switchFound)])).order.count 5 = 1 := by
  obtain ⟨every, networks⟩ := viewsAgree
  obtain ⟨-, -, -, -, -, order, -, found, -⟩ :=
    every [.insert (lamp 2 0x10), .insert (lamp 3 0x10), .insert (lamp 2 0x11)]
  obtain ⟨-, -, -, once⟩ := networks [(fun _ => .ok none, Network.switchFound)]
  exact ⟨order, found 2, (once 5 (by decide)).2.1⟩

end Registry

end ZWaveHost
