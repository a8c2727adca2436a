import ZWaveHost.Network

/-! Who stands in a roster after each change of it, and in which order. -/
namespace ZWaveHost.Roster

variable {roster : Roster} {node other : Node} {id : NodeId}

theorem foundId (found : roster.find? id = some node) : node.id = id := by
  simpa using List.find?_some found

theorem absent : roster.find? id = none ↔ id ∉ roster.ids := by
  simp [find?, ids, List.find?_eq_none]

theorem withoutIds (roster : Roster) (id : NodeId) : (roster.without id).ids = roster.ids.filter (· ≠ id) := by
  simp [without, ids, List.filter_map, Function.comp_def]

theorem foundWithout (roster : Roster) (id key : NodeId) :
    (roster.without id).find? key = if key = id then none else roster.find? key := by
  simp only [without, find?, List.find?_filter]
  split
  · rename_i same
    simp [same]
  · rename_i differ
    congr
    funext node
    by_cases here : node.id = key <;> simp [here, differ]

theorem insertIds (roster : Roster) (node : Node) :
    (roster.insert node).1.ids = roster.ids.filter (· ≠ node.id) ++ [node.id] := by
  rw [← withoutIds]
  simp [insert, ids]

theorem foundInserted (roster : Roster) (node : Node) (key : NodeId) :
    (roster.insert node).1.find? key = if key = node.id then some node else roster.find? key := by
  have rest : (roster.without node.id).nodes.find? (Node.id · = key) = if key = node.id then none else roster.find? key :=
    foundWithout roster node.id key
  simp only [insert, find?, List.find?_append, rest]
  split
  · rename_i same
    simp [same]
  · rename_i differ
    simp [Ne.symm differ]

theorem updateIds (roster : Roster) (node : Node) : (roster.update node).ids = roster.ids := by
  simp only [update, ids, List.map_map, List.map_inj_left]
  intro old _
  by_cases same : old.id = node.id <;> simp [same]

theorem foundUpdated (roster : Roster) (node : Node) (key : NodeId) :
    (roster.update node).find? key =
      if key = node.id then (roster.find? key).map fun _ => node else roster.find? key := by
  obtain ⟨nodes⟩ := roster
  simp only [update, find?]
  induction nodes with
  | nil => simp
  | cons first rest ih =>
    simp only [List.map_cons, List.find?_cons]
    by_cases here : first.id = key
    · by_cases same : key = node.id
      · simp [here, same]
      · simp [here, same]
    · by_cases own : first.id = node.id
      · have differ : key ≠ node.id := fun same => here (own.trans same.symm)
        simp [own, differ, Ne.symm differ] at ih ⊢
        exact ih
      · simpa [here, own] using ih

theorem updateInserted (roster : Roster) (node : Node) :
    (roster.insert node).1.update node = (roster.insert node).1 := by
  have others : ∀ old ∈ (roster.without node.id).nodes, (if old.id = node.id then node else old) = old := by
    intro old member
    have differ : old.id ≠ node.id := by simpa [without] using (List.mem_filter.mp member).2
    exact if_neg differ
  simp only [insert, update, List.map_append, List.map_congr_left others, List.map_id']
  simp

end ZWaveHost.Roster
