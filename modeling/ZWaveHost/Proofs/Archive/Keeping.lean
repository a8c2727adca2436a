import ZWaveHost.Proofs.Archive.File

/-! An archive over its file answers as a table in memory that was given the same records, however often it is closed and
opened again; and the file opens as that table at any time. -/
namespace ZWaveHost

namespace Keeping

inductive Request
  | save (record : NodeRecord)
  | get (id : NodeId)
  | close
  | reopen
  deriving DecidableEq, Repr

inductive Reply
  | done (result : Except Fault Unit)
  | found (record : Option NodeRecord)
  deriving DecidableEq, Repr

structure Cabinet where
  archive : FileArchive
  disk : Disk
  deriving DecidableEq, Repr

namespace Cabinet

def serve (cabinet : Cabinet) : Request → Cabinet × Reply
  | .save record =>
    let (archive, disk, result) := cabinet.archive.save cabinet.disk record
    (⟨archive, disk⟩, .done result)
  | .get id => (cabinet, .found (cabinet.archive.get? id))
  | .close => ({ cabinet with archive := cabinet.archive.close }, .done (.ok ()))
  | .reopen =>
    match FileArchive.opened cabinet.disk with
    | .ok archive => ({ cabinet with archive }, .done (.ok ()))
    | .error fault => (cabinet, .done (.error fault))

def run (cabinet : Cabinet) : List Request → Cabinet × List Reply
  | [] => (cabinet, [])
  | request :: rest =>
    let (after, reply) := cabinet.serve request
    let (last, replies) := after.run rest
    (last, reply :: replies)

end Cabinet

/- A table in memory: the records that it was given, in order. It takes none while it is closed. -/
structure Memory where
  received : List NodeRecord := []
  closed : Bool := false
  deriving DecidableEq, Repr

namespace Memory

def table (memory : Memory) : Table := .ofRecords memory.received

def serve (memory : Memory) : Request → Memory × Reply
  | .save record =>
    if memory.closed then (memory, .done (.error FileArchive.closedFault))
    else ({ memory with received := memory.received ++ [record] }, .done (.ok ()))
  | .get id => (memory, .found (memory.table.get? id))
  | .close => ({ memory with closed := true }, .done (.ok ()))
  | .reopen => ({ memory with closed := false }, .done (.ok ()))

def run (memory : Memory) : List Request → Memory × List Reply
  | [] => (memory, [])
  | request :: rest =>
    let (after, reply) := memory.serve request
    let (last, replies) := after.run rest
    (last, reply :: replies)

end Memory

structure Agree (memory : Memory) (cabinet : Cabinet) : Prop where
  archive : cabinet.archive = ⟨memory.table, memory.closed⟩
  opens : FileArchive.opened cabinet.disk = .ok { table := memory.table }
  folder : cabinet.disk.folder = true

variable {memory : Memory} {cabinet : Cabinet}

theorem Agree.saves (agree : Agree memory cabinet) (unclosed : memory.closed = false) {record : NodeRecord}
    (fits : record.Fits) :
    Agree (memory.serve (.save record)).1 (cabinet.serve (.save record)).1 ∧
      (cabinet.serve (.save record)).2 = (memory.serve (.save record)).2 := by
  obtain ⟨_, disk⟩ := cabinet
  obtain ⟨rfl, opens, folder⟩ := agree
  obtain ⟨-, sorted, fitsBefore, noDirectory⟩ := FileArchive.openedSound opens
  obtain ⟨opensAfter, same, folderAfter, done⟩ :=
    @FileArchive.saveOpens ⟨memory.table, memory.closed⟩ disk record unclosed sorted fitsBefore folder noDirectory fits
  have received : memory.table.save record = (memory.serve (.save record)).1.table := by
    simp [Memory.serve, unclosed, Memory.table, Table.ofRecordsSnoc]
  have stillOpen : (memory.serve (.save record)).1.closed = false := by simp [Memory.serve, unclosed]
  have taken : (memory.serve (.save record)).2 = .done (.ok ()) := by simp [Memory.serve, unclosed]
  refine ⟨⟨same.trans ?_, opensAfter.trans ?_, folderAfter⟩, (congrArg Reply.done done).trans taken.symm⟩
  · rw [received, stillOpen]
  · rw [received]

theorem Agree.serves (agree : Agree memory cabinet) {request : Request}
    (fits : ∀ record, request = .save record → record.Fits) :
    Agree (memory.serve request).1 (cabinet.serve request).1 ∧ (cabinet.serve request).2 = (memory.serve request).2 := by
  cases request with
  | save record =>
    cases closed : memory.closed with
    | false => exact agree.saves closed (fits record rfl)
    | true =>
      have shut : cabinet.archive.closed = true := by rw [agree.archive, closed]
      have refused := FileArchive.closedSave shut cabinet.disk record none
      simpa only [Cabinet.serve, refused, Memory.serve, closed, if_true, and_true] using agree
  | get id => exact ⟨agree, by simp [Cabinet.serve, Memory.serve, agree.archive, FileArchive.get?]⟩
  | close => exact ⟨⟨congrArg FileArchive.close agree.archive, agree.opens, agree.folder⟩, rfl⟩
  | reopen =>
    simp only [Cabinet.serve, agree.opens]
    exact ⟨⟨rfl, agree.opens, agree.folder⟩, rfl⟩

theorem Agree.runs (agree : Agree memory cabinet) {requests : List Request}
    (fits : ∀ record, .save record ∈ requests → record.Fits) :
    Agree (memory.run requests).1 (cabinet.run requests).1 ∧ (cabinet.run requests).2 = (memory.run requests).2 := by
  induction requests generalizing memory cabinet with
  | nil => exact ⟨agree, rfl⟩
  | cons request rest ih =>
    obtain ⟨after, reply⟩ := agree.serves fun record same => fits record (same ▸ List.mem_cons_self)
    obtain ⟨last, replies⟩ := ih after fun record member => fits record (List.mem_cons_of_mem _ member)
    exact ⟨last, congrArg₂ List.cons reply replies⟩

/-- At a path where nothing stands an archive opens, and answers any requests as a table in memory does that takes the
records while the archive is open: a closed one refuses every save and is not changed by it. At every point, that is after
any requests, the file opens, and as exactly the table of all records that were taken; its ids ascend, each entry stands
under the id of its node, and what is found under an id is the last record taken for it. -/
theorem keepsLikeMemory {disk : Disk} (missing : disk.target = .missing) (folder : disk.folder = true)
    {requests : List Request} (fits : ∀ record, .save record ∈ requests → record.Fits) :
    ∃ archive, FileArchive.opened disk = .ok archive ∧
      let cabinet := (Cabinet.run ⟨archive, disk⟩ requests).1
      let memory := (Memory.run {} requests).1
      (Cabinet.run ⟨archive, disk⟩ requests).2 = (Memory.run {} requests).2 ∧
        cabinet.archive = ⟨memory.table, memory.closed⟩ ∧
        FileArchive.opened cabinet.disk = .ok { table := memory.table } ∧
        memory.table.ids.Pairwise (· < ·) ∧ memory.table.ids.Nodup ∧
        (∀ entry ∈ memory.table.entries, entry.1 = entry.2.nodeId) ∧
        ∀ id, memory.table.get? id = (memory.received.filter (·.nodeId = id)).getLast? := by
  have empty : FileArchive.opened disk = .ok {} := by simp [FileArchive.opened, missing]
  have agree : Agree {} ⟨{}, disk⟩ := ⟨rfl, empty, folder⟩
  obtain ⟨last, replies⟩ := agree.runs fits
  have ascending := (Table.ofRecordsSorted (Memory.run {} requests).1.received).ids
  exact ⟨{}, empty, replies, last.archive, last.opens, ascending, ascending.imp (UInt8.ne_of_lt ·),
    Table.ofRecordsUnder _, Table.ofRecordsLast _⟩

theorem refusedSavedAgain :
    let switch : NodeRecord := ⟨⟨4, ⟨0x04, 0x10, 0x01⟩, [0x25]⟩, true, "generic"⟩
    let sensor : NodeRecord := ⟨⟨9, ⟨0x04, 0x20, 0x01⟩, [0x84]⟩, false, "générique"⟩
    let requests : List Request :=
      [.save sensor, .close, .save switch, .get 4, .get 9, .reopen, .save switch, .reopen, .get 4]
    (Cabinet.run ⟨{}, {}⟩ requests).2 =
        [.done (.ok ()), .done (.ok ()), .done (.error FileArchive.closedFault), .found none, .found (some sensor),
          .done (.ok ()), .done (.ok ()), .done (.ok ()), .found (some switch)] ∧
      FileArchive.opened (Cabinet.run ⟨{}, {}⟩ requests).1.disk = .ok { table := ⟨[(4, switch), (9, sensor)]⟩ } := by
  intro switch sensor requests
  have fitsSwitch : switch.Fits := ⟨by decide, by decide⟩
  have fitsSensor : sensor.Fits := ⟨by decide, by decide +kernel⟩
  have fits : ∀ record, .save record ∈ requests → record.Fits := by simp [requests, fitsSwitch, fitsSensor]
  obtain ⟨_, opened, replies, -, opens, -⟩ := @keepsLikeMemory {} rfl rfl requests fits
  cases opened
  exact ⟨replies, opens⟩

end Keeping

end ZWaveHost
