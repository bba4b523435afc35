import HostTree.Database.Opening
import HostTree.Database.Recovery
import HostTree.Database.SmokeTest

/-!
The smoke test of a database by its name: in memory, or in a file with the files beside it. A
transaction is written into the file under the protection of a journal, or into a log.
-/

namespace HostTree

/-- Why the test of a database with a name failed. -/
inductive DatabaseFailure where
  /-- The database could not be opened. -/
  | opening (fault : SqlFault)
  | testing (failure : TestFailure)
deriving DecidableEq

namespace FileSystem

/-- The database that a file holds. -/
def databaseAt (fs : FileSystem) (inode : Inode) : Option Database :=
  match fs.node? inode with
  | some (.file _ (.database content)) => some content
  | some (.file _ (.octets data)) => if data.length ≤ 1 then some .empty else none
  | _ => none

/-- What a journal keeps of a database: nothing of one whose file was empty. -/
def keptBefore (fs : FileSystem) (inode : Inode) : Option Database :=
  if fs.isUnused inode then none else fs.databaseAt inode

/-- Test a database whose transactions go into a log. What a pipe takes is lost. -/
def testWithLog (fs : FileSystem) (file : DatabaseFile) (log : Log) (content : Database) :
    Except TestFailure Nat × FileSystem :=
  let refusal := if file.writable && log.writable then none else some .readOnly
  let obstacle := if fs.isPipe log.inode then some (.disk .writing) else none
  let (outcome, connection) := (Connection.toDatabase content refusal obstacle).smokeTest
  let written :=
    if connection.database = content || connection.saved.isSome then fs
    else fs.fill file.inode (.database connection.database)
  (outcome, written.closeLog file log)

/-- Test a database that cannot be written. -/
def testUnwritable (fs : FileSystem) (content : Database) (fault : SqlFault) :
    Except TestFailure Nat × FileSystem :=
  ((Connection.toDatabase content (some fault) none).smokeTest.1, fs)

/-- Test a database whose transactions are protected by a journal. If the journal cannot be removed
at the end of a transaction, what has been written stays, and so does the journal that undoes it. -/
def testWithJournal (fs : FileSystem) (file : DatabaseFile) (content : Database) :
    Except TestFailure Nat × FileSystem :=
  let path := file.beside .journal
  match fs.openBeside file .journal with
  | (.refused, _) => fs.testUnwritable content .cannotOpenBeside
  | (.notMade, _) => fs.testUnwritable content .readOnlyDirectory
  | (.readable _, opened) => (opened.discard path).testUnwritable content (.disk .writing)
  | (.writable journal, opened) =>
    if opened.isPipe journal then (opened.discard path).testUnwritable content (.disk .writing)
    else
      let obstacle := if opened.parentIsWritable path then none else some (.disk .deleting)
      let (outcome, connection) := (Connection.toDatabase content none obstacle).smokeTest
      let written :=
        if connection.database = content then opened
        else opened.fill file.inode (.database connection.database)
      (outcome,
        if connection.saved.isSome then written.fill journal (.journal (fs.keptBefore file.inode))
        else written.discard path)

/-- Test the database in a file. -/
def testFile (fs : FileSystem) (file : DatabaseFile) : Except TestFailure Nat × FileSystem :=
  match fs.recover file with
  | (.error fault, fs) => (.error (.fault .checking fault), fs)
  | (.ok log, fs) =>
    match fs.databaseAt file.inode, log with
    | none, none => (.error (.fault .checking .notADatabase), fs)
    | none, some log => (.error (.fault .checking .notADatabase), fs.closeLog file log)
    | some content, some log => fs.testWithLog file log content
    | some content, none =>
      if file.writable && !file.isFixed then fs.testWithJournal file content
      else fs.testUnwritable content .readOnly

/-- Test a database that is kept in memory. -/
def testInMemory (name : String) (location : Location) : Except DatabaseFailure Nat :=
  if location.isNamedInMemory ∧ Location.memoryPathLimit < location.path.octets.length then
    .error (.opening (.cannotOpen name))
  else (Connection.inMemory location.memoryRefusal).smokeTest.1.mapError .testing

/-- Test a database that is kept in a file. -/
def testInFile (fs : FileSystem) (name : String) (location : Location) (locking : Locking) :
    Except DatabaseFailure Nat × FileSystem :=
  match fs.databasePath location.path with
  | none => (.error (.opening (.cannotOpen name)), fs)
  | some path =>
    match fs.openFile name location locking path with
    | (.error fault, fs) => (.error (.opening fault), fs)
    | (.ok file, fs) =>
      let (outcome, fs) := fs.testFile file
      (outcome.mapError .testing, fs)

/-- Test the database with a name. The answer is the number of rows. -/
def testDatabase (fs : FileSystem) (name : String) : Except DatabaseFailure Nat × FileSystem :=
  match Location.ofName name with
  | .error fault => (.error (.opening fault), fs)
  | .ok location =>
    match location.keeper, location.isInMemory with
    | .file locking, false => fs.testInFile name location locking
    | _, _ => (testInMemory name location, fs)

end FileSystem

end HostTree
