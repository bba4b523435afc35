import HostTree.Database.SideFile

/-!
What an engine does with the files beside a database before it reads the database. An unfinished
transaction is undone by its journal; a log that is found is taken up. A database without content
has neither, so what is found then is a leftover.
-/

namespace HostTree

/-- A log that has been taken up. -/
structure Log where
  inode : Inode
  /-- The log and its index may both be written. -/
  writable : Bool
deriving DecidableEq

/-- What the journal of a database calls for. -/
inductive JournalState where
  /-- There is none, or it was finished. -/
  | finished
  /-- A transaction is to be undone. -/
  | unfinished
  /-- It cannot be read. -/
  | unreadable
deriving DecidableEq

/-- Whether content can be a journal that was not finished. A finished one starts with a zero. -/
def Content.isUnfinished : Content → Bool
  | .octets data => data.head?.any (· ≠ 0)
  | _ => true

namespace FileSystem

/-- Whether the file of a database is as good as empty. -/
def isUnused (fs : FileSystem) (inode : Inode) : Bool :=
  match fs.node? inode with
  | some (.file _ (.octets data)) => data.length ≤ 1
  | _ => false

/-- What the journal at a path calls for. One that cannot be opened is taken for unfinished. -/
def journalState (fs : FileSystem) (path : Path) : JournalState :=
  match fs.nodeAt path with
  | some (_, .file permissions content) =>
    if permissions.read && !content.isUnfinished then .finished else .unfinished
  | some (_, .directory permissions ..) => if permissions.read then .unreadable else .unfinished
  | some _ => .unfinished
  | none => .finished

/-- Bring a database back to what its journal says. What is no journal says nothing. -/
def undo (fs : FileSystem) (file journal : Inode) : FileSystem :=
  match fs.node? journal with
  | some (.file _ (.journal none)) => fs.fill file (.octets [])
  | some (.file _ (.journal (some before))) => fs.fill file (.database before)
  | _ => fs

/-- Undo an unfinished transaction, and remove its journal. -/
def undoUnfinished (fs : FileSystem) (file : DatabaseFile) : Option SqlFault × FileSystem :=
  if !file.writable then (some .cannotUndo, fs)
  else
    match fs.openBeside file .journal with
    | (.writable journal, fs) =>
      let fs := fs.undo file.inode journal
      match fs.unlink (file.beside .journal) with
      | none => (some (.disk .deleting), fs)
      | some fs => (none, fs)
    | (_, fs) => (some .cannotOpenBeside, fs)

/-- Look after the journal. Behind a lock that is a directory of one's own it goes unnoticed. A
leftover is removed by those who can lock the database for writing. -/
def recoverJournal (fs : FileSystem) (file : DatabaseFile) : Option SqlFault × FileSystem :=
  let path := file.beside .journal
  if file.locking = .directory || !fs.isOccupied path then (none, fs)
  else if fs.isUnused file.inode then
    (none, if file.writable || file.locking = .none then fs.discard path else fs)
  else
    match fs.journalState path with
    | .finished => (none, fs)
    | .unreadable => (some (.disk .reading), fs)
    | .unfinished => fs.undoUnfinished file

/-- Open the index of a log. Those who never give back their locks do not need it. The answer is
whether the index may be written. -/
def openLogIndex (fs : FileSystem) (file : DatabaseFile) : Except SqlFault Bool × FileSystem :=
  if file.locking = .exclusive && file.writable then (.ok true, fs)
  else
    match fs.openBeside file .logIndex with
    | (.writable inode, opened) =>
      if fs.isPipe inode then (.error (.disk .sharing), fs)
      else (.ok true, opened.fill inode (.octets [0x18]))
    | (.readable _, opened) => (.ok false, opened)
    | _ => (.error .cannotOpenBeside, fs)

/-- Take up a log, if there is one. -/
def recoverLog (fs : FileSystem) (file : DatabaseFile) :
    Except SqlFault (Option Log) × FileSystem :=
  let path := file.beside .log
  if !fs.isOccupied path then (.ok none, fs)
  else if fs.isUnused file.inode then
    match fs.unlink path with
    | none => (.error (.disk .deleting), fs)
    | some fs => (.ok none, fs)
  else if file.locking = .directory || file.locking = .none then (.error .cannotOpenBeside, fs)
  else
    match fs.openBeside file .log with
    | (.writable inode, fs) =>
      let (index, fs) := fs.openLogIndex file
      (index.map fun writable => some ⟨inode, writable⟩, fs)
    | (.readable inode, fs) =>
      let (index, fs) := fs.openLogIndex file
      (index.map fun _ => some ⟨inode, false⟩, fs)
    | (_, fs) => (.error .cannotOpenBeside, fs)

/-- Give up a log. It is removed with its index if all of it could be brought into the database. -/
def closeLog (fs : FileSystem) (file : DatabaseFile) (log : Log) : FileSystem :=
  if file.writable && log.writable then
    let fs := if file.locking = .exclusive then fs else fs.discard (file.beside .logIndex)
    fs.discard (file.beside .log)
  else fs

/-- What keeps a database from being locked. Only a lock that is a directory can fail: it must not
be there, and it must be possible to make it. -/
def lockFault? (fs : FileSystem) (file : DatabaseFile) : Option SqlFault :=
  if file.locking ≠ .directory then none
  else
    match fs.resolve asEngine (file.beside .lock) with
    | .error _ => some (.disk .locking)
    | .ok (.existing _) => some .locked
    | .ok (.vacant _ _) =>
      if fs.parentIsWritable (file.beside .lock) then none else some .locked

/-- All that is done before a database is read. -/
def recover (fs : FileSystem) (file : DatabaseFile) : Except SqlFault (Option Log) × FileSystem :=
  if file.isFixed then (.ok none, fs)
  else
    match fs.lockFault? file with
    | some fault => (.error fault, fs)
    | none =>
      match fs.recoverJournal file with
      | (some fault, fs) => (.error fault, fs)
      | (none, fs) => fs.recoverLog file

end FileSystem

end HostTree
