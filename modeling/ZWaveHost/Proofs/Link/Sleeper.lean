import ZWaveHost.Proofs.Link.Outbox

/-! Requests that are held for one sleeping node, seen from all the others. An outbox is compared with a second one that
was never asked to send anything to the sleeper: as long as nobody is turned away for want of room, the two let the same
requests out, call by call. -/
namespace ZWaveHost.Outbox

def Op.isFor (node : NodeId) : Op → Bool
  | enqueue outbound | accept outbound => outbound.waitsFor = some node
  | _ => false

def turnsAway (outbox : Outbox) : Op → Bool
  | .enqueue outbound =>
    match outbox.enqueue outbound with
    | .error (.queueFull _) => true
    | _ => false
  | _ => false

def hasRoom (outbox : Outbox) : List Op → Bool
  | [] => true
  | op :: rest => !outbox.turnsAway op && (outbox.step op).1.hasRoom rest

def Covered (outbox : Outbox) : Prop := outbox.slots.reserved ≤ outbox.size

theorem coveredStep {outbox : Outbox} (covered : outbox.Covered) (op : Op) : (outbox.step op).1.Covered := by
  unfold Covered at covered ⊢
  have leaves (exit : op.IsExit) : (outbox.step op).1.slots.reserved ≤ (outbox.step op).1.size := by
    obtain ⟨fewer, slots⟩ := exitGives exit outbox
    rw [slots]
    show outbox.slots.reserved - (outbox.size - _) ≤ _
    omega
  cases op with
  | enqueue outbound =>
    rcases enqueueCases outbox outbound with ⟨fault, -, refused⟩ | ⟨-, -, full⟩ | ⟨-, -, taken⟩
    · simpa [step, refused, Except.toOption] using covered
    · simpa [step, full, Except.toOption] using covered
    · simp only [step, taken, Except.toOption, Option.getD_some, acceptSlots, acceptSize]
      exact Nat.succ_le_succ covered
  | accept outbound =>
    simp only [step, acceptSlots, acceptSize]
    exact Nat.le_succ_of_le covered
  | wake node => exact Nat.le_trans covered (Nat.le_of_eq (wakeSize outbox node).symm)
  | sleep node => exact covered
  | next | clear => exact leaves trivial

theorem coveredRun {outbox : Outbox} (covered : outbox.Covered) (calls : List Op) : (outbox.run calls).1.Covered := by
  induction calls generalizing outbox with
  | nil => exact covered
  | cons call rest ih => exact ih (coveredStep covered call)

structure Apart (node : NodeId) (outbox other : Outbox) : Prop where
  ready : other.ready = outbox.ready
  held : other.held.filter (·.1 ≠ node) = outbox.held.filter (·.1 ≠ node)
  awake : other.awake = outbox.awake
  asleep : outbox.isAwake node = false
  limit : other.slots.limit = outbox.slots.limit
  fewer : other.slots.reserved ≤ outbox.slots.reserved

namespace Apart

variable {node : NodeId} {outbox other : Outbox}

theorem isAwake (apart : Apart node outbox other) (third : NodeId) : other.isAwake third = outbox.isAwake third := by
  simp [Outbox.isAwake, apart.awake]

theorem heldFor (apart : Apart node outbox other) {third : NodeId} (differ : third ≠ node) :
    other.heldFor third = outbox.heldFor third := by
  have others (held : List (NodeId × Message)) :
      held.filter (·.1 = third) = (held.filter (·.1 ≠ node)).filter (·.1 = third) := by
    rw [List.filter_filter]
    refine List.filter_congr fun entry _ => ?_
    by_cases own : entry.1 = third <;> simp [own, differ]
  unfold Outbox.heldFor
  rw [others other.held, others outbox.held, apart.held]

theorem accepts (apart : Apart node outbox other) {outbound : Outbound} (elsewhere : outbound.waitsFor ≠ some node) :
    Apart node (outbox.accept outbound) (other.accept outbound) := by
  obtain ⟨ready, held, awake, asleep, limit, fewer⟩ := id apart
  unfold accept
  cases waits : outbound.waitsFor with
  | none => exact ⟨congrArg (· ++ [outbound.message]) ready, held, awake, asleep, limit, fewer⟩
  | some third =>
    have differ : third ≠ node := fun same => elsewhere (same ▸ waits)
    simp only [apart.isAwake third]
    split
    · exact ⟨congrArg (· ++ [outbound.message]) ready, held, awake, asleep, limit, fewer⟩
    · refine ⟨ready, ?_, awake, asleep, limit, fewer⟩
      simp [List.filter_append, differ] at held ⊢
      exact held

theorem holds (apart : Apart node outbox other) {outbound : Outbound} (own : outbound.waitsFor = some node) :
    Apart node (outbox.accept outbound) other := by
  obtain ⟨ready, held, awake, asleep, limit, fewer⟩ := id apart
  unfold accept
  simp only [own, asleep, Bool.false_eq_true, if_false]
  exact ⟨ready, by simpa using held, awake, asleep, limit, fewer⟩

theorem wakes (apart : Apart node outbox other) {third : NodeId} (differ : third ≠ node) :
    Apart node (outbox.wake third) (other.wake third) := by
  obtain ⟨ready, held, awake, asleep, limit, fewer⟩ := id apart
  have woken (entries : List (NodeId × Message)) : (entries.filter (·.1 ≠ third)).filter (·.1 ≠ node) =
      (entries.filter (·.1 ≠ node)).filter (·.1 ≠ third) := by
    rw [List.filter_filter, List.filter_filter]
    exact List.filter_congr fun _ _ => Bool.and_comm _ _
  refine ⟨?_, ?_, ?_, ?_, limit, fewer⟩
  · simp only [wake, ready, apart.heldFor differ]
  · simp only [wake, woken, held]
  · simp only [wake, awake, apart.isAwake third]
  · simp [isAwakeWake, asleep, Ne.symm differ]

theorem both (apart : Apart node outbox other) (fits : other.Covered) {op : Op}
    (elsewhere : op.isFor node = false) (dormant : op ≠ .wake node) (room : outbox.turnsAway op = false) :
    Apart node (outbox.step op).1 (other.step op).1 ∧ (other.step op).2 = (outbox.step op).2 := by
  obtain ⟨ready, held, awake, asleep, limit, fewer⟩ := id apart
  cases op with
  | enqueue outbound =>
    have away : outbound.waitsFor ≠ some node := by simpa [Op.isFor] using elsewhere
    refine ⟨?_, rfl⟩
    rcases enqueueCases outbox outbound with ⟨fault, invalid, refused⟩ | ⟨-, -, full⟩ | ⟨valid, free, taken⟩
    · rcases enqueueCases other outbound with ⟨same, -, also⟩ | ⟨valid, -⟩ | ⟨valid, -⟩
      · simpa [step, refused, also, Except.toOption] using apart
      · simp [invalid] at valid
      · simp [invalid] at valid
    · simp [turnsAway, full] at room
    · rcases enqueueCases other outbound with ⟨fault, invalid, -⟩ | ⟨-, crowded, -⟩ | ⟨-, -, also⟩
      · simp [valid] at invalid
      · omega
      · have reserved : Apart node { outbox with slots.reserved := outbox.slots.reserved + 1 }
            { other with slots.reserved := other.slots.reserved + 1 } :=
          ⟨ready, held, awake, asleep, limit, Nat.succ_le_succ fewer⟩
        simpa only [step, taken, also, Except.toOption, Option.getD_some] using reserved.accepts away
  | accept outbound => exact ⟨apart.accepts (by simpa [Op.isFor] using elsewhere), rfl⟩
  | wake third => exact ⟨apart.wakes fun same => dormant (same ▸ rfl), rfl⟩
  | sleep third =>
    refine ⟨⟨ready, held, ?_, ?_, limit, fewer⟩, rfl⟩
    · simp [step, Outbox.sleep, awake]
    · simp [step, isAwakeSleep, asleep]
  | next =>
    cases first : outbox.ready with
    | nil =>
      rw [first] at ready
      simpa [step, next?, first, ready] using apart
    | cons message rest =>
      rw [first] at ready
      simp only [step, next?, first, ready]
      exact ⟨⟨rfl, held, awake, asleep, limit, Nat.sub_le_sub_right fewer 1⟩, trivial⟩
  | clear =>
    -- Each of them gives back all its slots, and not only the slots of what the two have in common.
    refine ⟨⟨rfl, rfl, awake, asleep, limit, ?_⟩, rfl⟩
    exact Nat.le_trans (Nat.le_of_eq (Nat.sub_eq_zero_of_le fits)) (Nat.zero_le _)

theorem first (apart : Apart node outbox other) {op : Op} (own : op.isFor node = true) :
    Apart node (outbox.step op).1 other := by
  cases op with
  | enqueue outbound =>
    have waits : outbound.waitsFor = some node := by simpa [Op.isFor] using own
    rcases enqueueCases outbox outbound with ⟨fault, -, refused⟩ | ⟨-, -, full⟩ | ⟨-, -, taken⟩
    · simpa [step, refused, Except.toOption] using apart
    · simpa [step, full, Except.toOption] using apart
    · obtain ⟨ready, held, awake, asleep, limit, fewer⟩ := apart
      have reserved : Apart node { outbox with slots.reserved := outbox.slots.reserved + 1 } other :=
        ⟨ready, held, awake, asleep, limit, Nat.le_succ_of_le fewer⟩
      simpa only [step, taken, Except.toOption, Option.getD_some] using reserved.holds waits
  | accept outbound => exact apart.holds (by simpa [Op.isFor] using own)
  | wake | sleep | next | clear => contradiction

theorem run (apart : Apart node outbox other) (fits : other.Covered) {calls : List Op} (dormant : .wake node ∉ calls)
    (room : outbox.hasRoom calls = true) :
    Apart node (outbox.run calls).1 (other.run (calls.filter (!·.isFor node))).1 ∧
      (other.run (calls.filter (!·.isFor node))).2 =
        ((calls.zip (outbox.run calls).2).filter (!·.1.isFor node)).map (·.2) := by
  induction calls generalizing outbox other with
  | nil => exact ⟨apart, rfl⟩
  | cons call rest ih =>
    obtain ⟨enough, more⟩ : outbox.turnsAway call = false ∧ (outbox.step call).1.hasRoom rest = true := by
      simpa [hasRoom] using room
    have later : .wake node ∉ rest := fun member => dormant (List.mem_cons_of_mem _ member)
    cases own : call.isFor node with
    | true =>
      have next := ih (apart.first own) fits later more
      simpa [own, Outbox.run] using next
    | false =>
      have another : call ≠ .wake node := fun same => dormant (same ▸ List.mem_cons_self)
      obtain ⟨now, same⟩ := apart.both fits own another enough
      obtain ⟨last, equal⟩ := ih now (coveredStep fits call) later more
      simp only [List.filter_cons, own, Outbox.run, Bool.not_false, if_true, List.zip_cons_cons, List.map_cons]
      exact ⟨last, by rw [same, equal]⟩

end Apart

theorem hasRoomTake {outbox : Outbox} {calls : List Op} (room : outbox.hasRoom calls = true) (count : Nat) :
    outbox.hasRoom (calls.take count) = true := by
  induction calls generalizing outbox count with
  | nil => simpa using room
  | cons call rest ih =>
    cases count with
    | zero => rfl
    | succ count =>
      obtain ⟨enough, more⟩ := Bool.and_eq_true_iff.mp room
      exact Bool.and_eq_true_iff.mpr ⟨enough, ih more count⟩

/-- A sleeping node never blocks the others: as long as it is not woken and nothing is turned away for want of room,
leaving out every request that waits for it changes neither what any other call returns nor what is held, at any moment,
for any other node. -/
theorem sleeperBlocksNobody {limit : Nat} {before calls : List Op} {node : NodeId}
    (asleep : (({ slots := { limit } } : Outbox).run before).1.isAwake node = false) (dormant : .wake node ∉ calls)
    (room : (({ slots := { limit } } : Outbox).run before).1.hasRoom calls = true) :
    let start := (({ slots := { limit } } : Outbox).run before).1
    (start.run (calls.filter (!·.isFor node))).2 =
        ((calls.zip (start.run calls).2).filter (!·.1.isFor node)).map (·.2) ∧
      ∀ count third, third ≠ node →
        (start.run ((calls.take count).filter (!·.isFor node))).1.heldFor third =
          (start.run (calls.take count)).1.heldFor third := by
  intro start
  have covered : start.Covered := coveredRun (Nat.zero_le _) before
  have apart : Apart node start start := ⟨rfl, rfl, rfl, asleep, rfl, Nat.le_refl _⟩
  refine ⟨(apart.run covered dormant room).2, fun count third differ => ?_⟩
  have early : .wake node ∉ calls.take count := fun member => dormant (List.mem_of_mem_take member)
  exact (apart.run covered early (hasRoomTake room count)).1.heldFor differ

theorem sleeperBlocksNobodyOfTwo :
    let start := (({ slots.limit := 4 } : Outbox).run [.wake 5, .sleep 5]).1
    let calls := [.enqueue ⟨.nodeInfoRequest 5, false⟩, .enqueue ⟨.nodeInfoRequest 4, false⟩,
      .enqueue ⟨.nodeInfoRequest 5, true⟩, .accept ⟨.nodeInfoRequest 5, false⟩, .next, .next, .wake 4, .next]
    let others := [.enqueue ⟨.nodeInfoRequest 4, false⟩, .enqueue ⟨.nodeInfoRequest 5, true⟩, .next, .next, .wake 4,
      .next]
    start.isAwake 5 = false ∧ .wake 5 ∉ calls ∧ start.hasRoom calls = true ∧ calls.filter (!·.isFor 5) = others ∧
      (start.run others).2 =
        [none, none, some (.nodeInfoRequest 5), none, none, some (.nodeInfoRequest 4)] ∧
      (start.run (others.take 2)).1.heldFor 4 = (start.run (calls.take 4)).1.heldFor 4 := by
  intro start calls others
  have asleep : start.isAwake 5 = false := by decide
  have dormant : .wake 5 ∉ calls := by decide
  have room : start.hasRoom calls = true := by decide +kernel
  obtain ⟨same, held⟩ := sleeperBlocksNobody asleep dormant room
  have deleted : calls.filter (!·.isFor 5) = others := by decide
  refine ⟨asleep, dormant, room, deleted, ?_, held 4 4 (by decide)⟩
  rw [← deleted, same]
  decide +kernel

end ZWaveHost.Outbox
