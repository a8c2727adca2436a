import ZWaveHost.Archive.Layout

/-!
A table of records kept in one file. Every save writes the whole table to a sibling file and renames it over the
old one. The disk is a value: what stands at the path, what stands beside it, and whether the folder exists. Whatever
else may stop a save is told to it as a hindrance.
-/
namespace ZWaveHost

inductive Spot
  | missing
  | file (bytes : Bytes)
  | directory
  deriving DecidableEq, Repr

structure Disk where
  folder : Bool := true
  target : Spot := .missing
  sibling : Option Bytes := none
  deriving DecidableEq, Repr

inductive Hindrance
  | encoding
  | writing (fault : Fault) (left : Option Bytes)
  | renaming (fault : Fault)
  deriving DecidableEq, Repr

namespace Disk

def notFound : Fault := .io .notFound "No such file or directory (os error 2)"

def isADirectory : Fault := .io .isADirectory "Is a directory (os error 21)"

def read (disk : Disk) : Except Fault Bytes :=
  match disk.target with
  | .missing => .error notFound
  | .file bytes => .ok bytes
  | .directory => .error isADirectory

def writeSibling (disk : Disk) (bytes : Bytes) (hindrance : Option Hindrance) : Disk × Except Fault Unit :=
  if !disk.folder then (disk, .error notFound)
  else match hindrance with
    | some (.writing fault left) => ({ disk with sibling := left }, .error fault)
    | _ => ({ disk with sibling := some bytes }, .ok ())

/-- Moves the sibling over the target, in one step or not at all. -/
def renameSibling (disk : Disk) (hindrance : Option Hindrance) : Disk × Except Fault Unit :=
  match hindrance, disk.sibling, disk.target with
  | some (.renaming fault), _, _ => (disk, .error fault)
  | _, none, _ => (disk, .error notFound)
  | _, some _, .directory => (disk, .error isADirectory)
  | _, some bytes, _ => ({ disk with target := .file bytes, sibling := none }, .ok ())

def put (disk : Disk) (bytes : Bytes) : Except Fault Disk :=
  if !disk.folder then .error notFound
  else match disk.target with
    | .directory => .error isADirectory
    | _ => .ok { disk with target := .file bytes }

def makeDirectory (disk : Disk) : Except Fault Disk :=
  if !disk.folder then .error notFound
  else match disk.target with
    | .missing => .ok { disk with target := .directory }
    | _ => .error (.io .other "File exists (os error 17)")

def contents (disk : Disk) : Option Bytes :=
  match disk.target with
  | .file bytes => some bytes
  | _ => none

end Disk

structure FileArchive where
  table : Table := {}
  closed : Bool := false
  deriving DecidableEq, Repr

namespace FileArchive

def opened (disk : Disk) : Except Fault FileArchive :=
  match disk.target with
  | .missing => .ok {}
  | _ => do return { table := ← Archive.read Archive.tableOf (← disk.read) }

def flush (table : Table) (disk : Disk) (hindrance : Option Hindrance) : Disk × Except Fault Unit :=
  if hindrance = some .encoding then (disk, .error .archiveUnwritable)
  else match disk.writeSibling (Archive.writeTable table) hindrance with
    | (written, .error fault) => (written, .error fault)
    | (written, .ok ()) => written.renameSibling hindrance

def closedFault : Fault := .io .other "node store is closed"

/-- The record is in the table before the file is written. -/
def save (archive : FileArchive) (disk : Disk) (record : NodeRecord) (hindrance : Option Hindrance := none) :
    FileArchive × Disk × Except Fault Unit :=
  if archive.closed then (archive, disk, .error closedFault)
  else
    let after := { archive with table := archive.table.save record }
    let (disk, result) := flush after.table disk hindrance
    (after, disk, result)

def get? (archive : FileArchive) (id : NodeId) : Option NodeRecord := archive.table.get? id

def close (archive : FileArchive) : FileArchive := { archive with closed := true }

end FileArchive

end ZWaveHost
