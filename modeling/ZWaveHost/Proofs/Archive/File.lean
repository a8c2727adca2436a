import ZWaveHost.Archive.File
import ZWaveHost.Proofs.Archive.RoundTrip

/-! An archive and its file. Whenever the disk takes what is written, the file opens as the archive that wrote it. A save that
fails leaves the file as it was, at whatever step it stopped; the table in memory has taken the record all the same, unless
the archive was closed. -/
namespace ZWaveHost

namespace FileArchive

variable {archive : FileArchive} {disk : Disk}

theorem closedSave (closed : archive.closed = true) (disk : Disk) (record : NodeRecord)
    (hindrance : Option Hindrance) : archive.save disk record hindrance = (archive, disk, .error closedFault) := by
  simp [save, closed]

theorem openSave (unclosed : archive.closed = false) (disk : Disk) (record : NodeRecord)
    (hindrance : Option Hindrance) :
    archive.save disk record hindrance =
      ({ archive with table := archive.table.save record }, flush (archive.table.save record) disk hindrance) := by
  simp [save, unclosed]

theorem openedSound (opens : opened disk = .ok archive) :
    archive.closed = false ∧ archive.table.Sorted ∧ archive.table.Fits ∧ disk.target ≠ .directory := by
  unfold opened at opens
  split at opens
  · rename_i missing
    cases opens
    exact ⟨rfl, .nil, List.forall_mem_nil _, by simp [missing]⟩
  · simp only [Disk.read, bind, Except.bind, pure, Except.pure] at opens
    split at opens
    · cases opens
    · rename_i bytes reads
      split at reads
      · cases reads
      · rename_i there
        cases reads
        split at opens
        · cases opens
        · rename_i table found
          cases opens
          obtain ⟨sorted, fits⟩ := Archive.readFits found
          exact ⟨rfl, sorted, fits, by simp [there]⟩
      · cases reads

theorem flushed (table : Table) (folder : disk.folder = true) (noDirectory : disk.target ≠ .directory) :
    flush table disk none = ({ disk with target := .file (Archive.writeTable table), sibling := none }, .ok ()) := by
  simp [flush, Disk.writeSibling, folder, Disk.renameSibling]

theorem openedWritten {table : Table} (sorted : table.Sorted) (fits : table.Fits) {sibling : Option Bytes}
    {folder : Bool} : opened ⟨folder, .file (Archive.writeTable table), sibling⟩ = .ok { table } := by
  have reads := Archive.tableRead sorted fits []
  rw [List.append_nil] at reads
  simp [opened, Disk.read, reads, bind, Except.bind, pure, Except.pure]

theorem saveOpens {record : NodeRecord} (unclosed : archive.closed = false) (sorted : archive.table.Sorted)
    (fitsBefore : archive.table.Fits) (folder : disk.folder = true) (noDirectory : disk.target ≠ .directory)
    (fits : record.Fits) :
    opened (archive.save disk record).2.1 = .ok { table := archive.table.save record } ∧
      (archive.save disk record).1 = { table := archive.table.save record } ∧
      (archive.save disk record).2.1.folder = true ∧ (archive.save disk record).2.2 = .ok () := by
  have written := @openedWritten _ (sorted.insert record.nodeId record) (fitsBefore.save fits) none disk.folder
  obtain ⟨table, closed⟩ := archive
  cases unclosed
  simp only [save, flushed _ folder noDirectory]
  exact ⟨written, rfl, folder, rfl⟩

theorem savedOpens {record : NodeRecord} (opens : opened disk = .ok archive) (folder : disk.folder = true)
    (fits : record.Fits) :
    opened (archive.save disk record).2.1 = .ok (archive.save disk record).1 ∧
      (archive.save disk record).2.1.folder = true ∧ (archive.save disk record).2.2 = .ok () := by
  obtain ⟨unclosed, sorted, fitsBefore, noDirectory⟩ := openedSound opens
  obtain ⟨written, same, kept, done⟩ := saveOpens unclosed sorted fitsBefore folder noDirectory fits
  exact ⟨same ▸ written, kept, done⟩

end FileArchive

namespace Disk

variable {disk : Disk} {hindrance : Option Hindrance} {fault : Fault}

theorem writtenBeside (disk : Disk) (bytes : Bytes) (hindrance : Option Hindrance) :
    ∃ sibling, (disk.writeSibling bytes hindrance).1 = { disk with sibling } := by
  unfold writeSibling
  split
  · exact ⟨disk.sibling, rfl⟩
  · split <;> exact ⟨_, rfl⟩

theorem renameRefused (refused : (disk.renameSibling hindrance).2 = .error fault) :
    (disk.renameSibling hindrance).1 = disk := by
  unfold renameSibling at refused ⊢
  split at refused
  · rfl
  · rfl
  · rfl
  · cases refused

end Disk

namespace FileArchive

variable {archive : FileArchive} {disk : Disk} {record : NodeRecord} {hindrance : Option Hindrance} {fault : Fault}

/- A rename is done whole or not at all, so what is left of a write that fails is at most a sibling. -/
theorem flushRefused {table : Table} (refused : (flush table disk hindrance).2 = .error fault) :
    ∃ sibling, (flush table disk hindrance).1 = { disk with sibling } := by
  have beside := disk.writtenBeside (Archive.writeTable table) hindrance
  unfold flush at refused ⊢
  split
  · exact ⟨disk.sibling, rfl⟩
  · rename_i encodes
    rw [if_neg encodes] at refused
    split
    · rename_i stopped
      rw [stopped] at beside
      exact beside
    · rename_i goesOn
      rw [goesOn] at beside refused
      rw [Disk.renameRefused refused]
      exact beside

/-- A save that fails, at whatever step, leaves the file at the path as it was, and leaves open what was open. A closed
archive refuses without doing anything. An open one has taken the record into its table before it fails, so the archive
answers with it from then on, and with nothing else that is new: nothing changes just when the archive was closed or
answered with that record before. -/
theorem refusedSaveLeaves (sorted : archive.table.Sorted)
    (refused : (archive.save disk record hindrance).2.2 = .error fault) :
    let (after, left, _) := archive.save disk record hindrance
    left.contents = disk.contents ∧ after.closed = archive.closed ∧ after.table.Sorted ∧
      (∀ id, after.get? id =
        if archive.closed = false ∧ id = record.nodeId then some record else archive.get? id) ∧
      (∀ id, id ∈ after.table.ids ↔ id ∈ archive.table.ids ∨ archive.closed = false ∧ id = record.nodeId) ∧
      (((∀ id, after.get? id = archive.get? id) ∧ after.table.ids = archive.table.ids) ↔
        archive.closed = true ∨ archive.get? record.nodeId = some record) := by
  cases closed : archive.closed with
  | true => simp [closedSave closed, closed, sorted]
  | false =>
    rw [openSave closed] at refused ⊢
    have same : (flush (archive.table.save record) disk hindrance).1.contents = disk.contents := by
      obtain ⟨sibling, left⟩ := flushRefused refused
      rw [left]
      rfl
    refine ⟨same, closed, sorted.insert _ _, fun id => ?_, fun id => ?_, fun ⟨answers, _⟩ => .inr ?_, ?_⟩
    · simp [get?, archive.table.saved record id]
    · simp [archive.table.savedIds record id, or_comm]
    · rw [← answers, get?, archive.table.saved, if_pos rfl]
    · rintro (shut | found)
      · cases shut
      · simp [get?, sorted.savedAgain found]

theorem unrenamedSaveLeaves :
    let switch : NodeRecord := ⟨⟨4, ⟨0x04, 0x10, 0x01⟩, [0x25]⟩, true, "generic"⟩
    let table := Table.ofRecords [⟨⟨2, ⟨0x04, 0x10, 0x01⟩, []⟩, true, "generic"⟩]
    let disk : Disk := { target := .file (Archive.writeTable table) }
    let (after, left, result) := FileArchive.save { table } disk switch (some (.renaming (.io .other "denied")))
    result = .error (.io .other "denied") ∧ left.contents = disk.contents ∧
      (∀ id, after.get? id = if id = 4 then some switch else table.get? id) ∧
      ¬ ∀ id, after.get? id = table.get? id := by
  intro switch table disk
  have sorted : table.Sorted := Table.ofRecordsSorted _
  have refused : (FileArchive.save { table } disk switch (some (.renaming (.io .other "denied")))).2.2 =
      .error (.io .other "denied") := rfl
  obtain ⟨same, -, -, answers, -, -⟩ := refusedSaveLeaves sorted refused
  refine ⟨rfl, same, fun id => (answers id).trans (if_congr (and_iff_right rfl) rfl rfl), fun unchanged => ?_⟩
  have found : some switch = table.get? 4 := (answers 4).symm.trans (unchanged 4)
  cases found

/- A directory comes to stand at the path of an open archive, so that nothing can be renamed to it. The archive answers
with the record that it refused. -/
theorem refusedRecordAnswered :
    let switch : NodeRecord := ⟨⟨4, ⟨0x04, 0x10, 0x01⟩, []⟩, true, "generic"⟩
    let disk : Disk := { target := .directory }
    let (after, left, result) := FileArchive.save {} disk switch
    opened {} = .ok {} ∧ ({} : Disk).makeDirectory = .ok disk ∧ result = .error Disk.isADirectory ∧
      left.contents = disk.contents ∧ (({} : FileArchive).get? 4 = none ∧ after.get? 4 = some switch) ∧
      (({} : FileArchive).table.ids = [] ∧ after.table.ids = [4]) := by
  decide

/- A record that a save refused is written along with the next one that the disk takes. -/
theorem refusedSavedLater {other : NodeRecord} (unclosed : archive.closed = false) (sorted : archive.table.Sorted)
    (fitsBefore : archive.table.Fits) (folder : disk.folder = true) (noDirectory : disk.target ≠ .directory)
    (fits : record.Fits) (fitsOther : other.Fits) (refused : (archive.save disk record hindrance).2.2 = .error fault) :
    opened ((archive.save disk record hindrance).1.save (archive.save disk record hindrance).2.1 other).2.1 =
      .ok { table := (archive.table.save record).save other } := by
  rw [openSave unclosed] at refused ⊢
  obtain ⟨sibling, left⟩ := flushRefused refused
  rw [left]
  exact (@saveOpens ⟨archive.table.save record, archive.closed⟩ { disk with sibling } other unclosed
    (sorted.insert _ _) (fitsBefore.save fits) folder noDirectory fitsOther).1

end FileArchive

end ZWaveHost
