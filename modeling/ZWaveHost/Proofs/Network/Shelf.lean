import ZWaveHost.Network
import ZWaveHost.Proofs.Archive.File
import ZWaveHost.Proofs.Network.Life

/-! Where the records of nodes are kept from one session to the next: in memory, or in an archive and its file. A network
over such a shelf looks records up there, and what it saves is there for the next session. -/
namespace ZWaveHost

inductive Shelf
  | memory (table : Table)
  | file (archive : FileArchive) (disk : Disk)
  deriving DecidableEq, Repr

namespace Shelf

def get? : Shelf → NodeId → Option NodeRecord
  | memory table => table.get?
  | file archive _ => archive.get?

def lookup (shelf : Shelf) : Lookup := fun id => .ok (shelf.get? id)

def save (shelf : Shelf) (record : NodeRecord) : Shelf :=
  match shelf with
  | memory table => memory (table.save record)
  | file archive disk => file (archive.save disk record).1 (archive.save disk record).2.1

def close : Shelf → Shelf
  | memory table => memory table
  | file archive disk => file archive.close disk

def reopen : Shelf → Except Fault Shelf
  | memory table => .ok (memory table)
  | file _ disk => (FileArchive.opened disk).map (file · disk)

def IsOpen : Shelf → Prop
  | memory _ => True
  | file archive _ => archive.closed = false

/- The archive is the one that the file opens as, and the disk takes what is written. -/
def Works : Shelf → Prop
  | memory _ => True
  | file archive disk => FileArchive.opened disk = .ok archive ∧ disk.folder = true

def Holds (classes : Bytes) : Shelf → Prop
  | memory _ => True
  | file _ _ => classes.length < MessagePack.sizeLimit

variable {shelf : Shelf} {record : NodeRecord} {classes : Bytes}

theorem Works.isOpen (works : shelf.Works) : shelf.IsOpen := by
  cases shelf with
  | memory => trivial
  | file => exact (FileArchive.openedSound works.1).1

theorem IsOpen.save (isOpen : shelf.IsOpen) (record : NodeRecord) : (shelf.save record).IsOpen := by
  cases shelf with
  | memory => trivial
  | file archive disk =>
    have unclosed : archive.closed = false := isOpen
    simp [Shelf.save, IsOpen, FileArchive.save, unclosed]

theorem IsOpen.saved (isOpen : shelf.IsOpen) (record : NodeRecord) (id : NodeId) :
    (shelf.save record).get? id = if id = record.nodeId then some record else shelf.get? id := by
  cases shelf with
  | memory table => exact table.saved record id
  | file archive disk =>
    have unclosed : archive.closed = false := isOpen
    simp only [Shelf.save, get?, FileArchive.get?, FileArchive.save, unclosed]
    exact archive.table.saved record id

theorem holdsSaved : (shelf.save record).Holds classes ↔ shelf.Holds classes := by cases shelf <;> rfl

theorem holdsNothing (shelf : Shelf) : shelf.Holds [] := by
  cases shelf with
  | memory => trivial
  | file => exact Nat.pow_pos (by decide)

theorem Works.holds {id : NodeId} (works : shelf.Works) (found : shelf.get? id = some record) :
    shelf.Holds record.info.commandClasses := by
  cases shelf with
  | memory => trivial
  | file => exact ((FileArchive.openedSound works.1).2.2.1 _ (Table.foundMember found)).classes

theorem Works.save (works : shelf.Works) (holds : shelf.Holds record.info.commandClasses)
    (kind : record.kind = Node.recordKind) : (shelf.save record).Works := by
  cases shelf with
  | memory => trivial
  | file archive disk =>
    have fits : record.Fits := ⟨holds, by rw [kind]; decide⟩
    obtain ⟨opens, folder, -⟩ := FileArchive.savedOpens works.1 works.2 fits
    exact ⟨opens, folder⟩

theorem Works.reopens (works : shelf.Works) : shelf.close.reopen = .ok shelf := by
  cases shelf with
  | memory => rfl
  | file archive disk =>
    have opens : FileArchive.opened disk = .ok archive := works.1
    simp [close, reopen, opens, Except.map]

theorem IsOpen.savedAll {records : List NodeRecord} (isOpen : shelf.IsOpen) (id : NodeId) :
    (records.foldl Shelf.save shelf).IsOpen ∧
      (records.foldl Shelf.save shelf).get? id = (records.filter (·.nodeId = id)).getLast?.or (shelf.get? id) := by
  induction records generalizing shelf with
  | nil => exact ⟨isOpen, rfl⟩
  | cons record rest ih =>
    obtain ⟨stillOpen, found⟩ := ih (isOpen.save record)
    refine ⟨stillOpen, ?_⟩
    rw [List.foldl_cons, found, isOpen.saved record id]
    by_cases same : record.nodeId = id
    · simp [same, List.getLast?_cons]
    · simp [same, Ne.symm same]

theorem Works.saveAll {records : List NodeRecord} (works : shelf.Works)
    (each : ∀ record ∈ records, shelf.Holds record.info.commandClasses ∧ record.kind = Node.recordKind) :
    (records.foldl Shelf.save shelf).Works ∧
      ∀ classes, (records.foldl Shelf.save shelf).Holds classes ↔ shelf.Holds classes := by
  induction records generalizing shelf with
  | nil => exact ⟨works, fun _ => Iff.rfl⟩
  | cons record rest ih =>
    obtain ⟨⟨holds, kind⟩, others⟩ := List.forall_mem_cons.mp each
    obtain ⟨worksLater, same⟩ :=
      ih (works.save holds kind) fun other member => ⟨holdsSaved.mpr (others other member).1, (others other member).2⟩
    exact ⟨worksLater, fun classes => (same classes).trans holdsSaved⟩

end Shelf

def saves (effects : List Effect) : List NodeRecord :=
  effects.filterMap fun | .store (.save record) => some record | _ => none

theorem savesAppend (before later : List Effect) : saves (before ++ later) = saves before ++ saves later := by
  simp [saves]

theorem Announced.saves {effects : List Effect} (announced : Announced effects) :
    ZWaveHost.saves effects = additions effects := by
  induction announced with
  | nothing => rfl
  | @other effect rest unsaved unadded _ ih =>
    have here : ZWaveHost.saves [effect] = [] ∧ additions [effect] = [] := by
      cases effect with
      | store call => cases call <;> first | exact ⟨rfl, rfl⟩ | exact absurd rfl (unsaved _)
      | notify notice => cases notice <;> first | exact ⟨rfl, rfl⟩ | exact absurd rfl (unadded _)
      | _ => exact ⟨rfl, rfl⟩
    rw [← List.singleton_append, savesAppend, additionsAppend, here.1, here.2, ih]
  | @node record rest _ ih =>
    have front : ZWaveHost.saves (.store (.save record) :: .notify (.nodeAdded record) :: rest) =
        record :: ZWaveHost.saves rest := rfl
    rw [front, ih]
    rfl

structure Estate where
  network : Network := {}
  shelf : Shelf
  deriving DecidableEq, Repr

namespace Estate

def step (estate : Estate) (input : NetworkInput) : Estate × List Effect :=
  let (network, effects) := estate.network.step estate.shelf.lookup input
  ({ network, shelf := (saves effects).foldl Shelf.save estate.shelf }, effects)

def run (estate : Estate) : List NetworkInput → Estate × List (List Effect)
  | [] => (estate, [])
  | input :: rest =>
    let (after, effects) := estate.step input
    let (last, later) := after.run rest
    (last, effects :: later)

theorem stepChange (estate : Estate) (input : NetworkInput) :
    Network.Change estate.network estate.shelf.lookup input (estate.step input).1.network (estate.step input).2 :=
  estate.network.stepChange estate.shelf.lookup input

theorem shelfAfter (estate : Estate) (input : NetworkInput) :
    (estate.step input).1.shelf = (additions (estate.step input).2).foldl Shelf.save estate.shelf := by
  rw [← (estate.stepChange input).announced.saves]
  rfl

/- What is kept in memory is what collaborators keep that refuse nothing. -/
theorem householdRun {home : Household} (willing : home.world.refusals = {}) (inputs : List NetworkInput) :
    let (last, told) := home.run inputs
    (Estate.mk home.network (.memory home.world.store)).run inputs = (⟨last.network, .memory last.world.store⟩, told) := by
  have performed {world : Collaborators} (willing : world.refusals = {}) (effects : List Effect) :
      (saves effects).foldl Shelf.save (.memory world.store) = .memory (world.performAll effects).store ∧
        (world.performAll effects).refusals = {} := by
    induction effects generalizing world with
    | nil => exact ⟨rfl, willing⟩
    | cons effect rest ih =>
      cases effect with
      | store call =>
        cases call with
        | save record =>
          have here : (world.perform (.store (.save record))).1 = { world with store := world.store.save record } := by
            simp [Collaborators.perform, willing]
          simp only [Collaborators.performAll, List.foldl_cons, here]
          exact @ih { world with store := world.store.save record } willing
        | _ => exact ih willing
      | _ => exact ih willing
  induction inputs generalizing home with
  | nil => rfl
  | cons input rest ih =>
    have lookup : home.world.lookup = (Shelf.memory home.world.store).lookup := by
      funext id
      simp [Collaborators.lookup, Collaborators.answer, willing, Shelf.lookup, Shelf.get?]
    obtain ⟨kept, stillWilling⟩ := performed willing (home.network.step home.world.lookup input).2
    have later := @ih (home.step input).1 stillWilling
    simp only [run, step, ← lookup, kept, Household.run]
    simp only [Household.step] at later ⊢
    simp only [later]

end Estate

end ZWaveHost
