import HostTree.Database.Location
import HostTree.FileSystem.Access

/-!
The files that an engine keeps beside the one of a database: the journal, by which an unfinished
transaction is undone, the log, which takes its place in databases that are kept that way, the index
of the log, and the lock. The engine never follows a link to any of them.
-/

namespace HostTree

/-- The files beside the one of a database. -/
inductive SideFile where
  | journal
  | log
  | logIndex
  | lock
deriving DecidableEq

/-- What is put behind the path of a database. -/
def SideFile.ending : SideFile → String
  | .journal => "-journal"
  | .log => "-wal"
  | .logIndex => "-shm"
  | .lock => ".lock"

/-- The file of a database that has been opened. -/
structure DatabaseFile where
  /-- The path, which holds no links. -/
  path : Path
  inode : Inode
  writable : Bool
  locking : Locking
  /-- Nobody changes the file, and nothing beside it is looked at. -/
  isFixed : Bool
deriving DecidableEq

/-- The path of a file beside the one of a database. -/
def DatabaseFile.beside (file : DatabaseFile) (side : SideFile) : Path :=
  ⟨file.path.octets ++ Octets.ofString side.ending⟩

/-- What comes of opening a file beside the one of a database. -/
inductive BesideFile where
  /-- The file may be read and written. -/
  | writable (inode : Inode)
  /-- The file may only be read. -/
  | readable (inode : Inode)
  | refused
  /-- There is no file, and the directory takes none. -/
  | notMade
deriving DecidableEq

namespace FileSystem

/-- The way in which an engine looks at paths: with the owner's permissions, no link followed at the
end. -/
def asEngine : Lookup := ⟨false, false, false⟩

/-- The node at a path itself. -/
def nodeAt (fs : FileSystem) (path : Path) : Option (Inode × Node) :=
  match fs.resolve asEngine path with
  | .ok (.existing inode) => (fs.node? inode).map fun node => (inode, node)
  | _ => none

/-- Whether the directory in which a path lies takes and gives up names. -/
def parentIsWritable (fs : FileSystem) (path : Path) : Bool :=
  match fs.find path.parent with
  | .ok (_, .directory permissions ..) => permissions.write
  | _ => false

/-- Whether a path leads to something, empty files not counted. -/
def isOccupied (fs : FileSystem) (path : Path) : Bool :=
  match fs.find path with
  | .ok (_, .file _ content) => !content.isEmpty
  | .ok _ => true
  | .error _ => false

/-- Remove the name at a path, if it may be removed and is not the one of a directory. -/
def unlink (fs : FileSystem) (path : Path) : Option FileSystem :=
  match fs.nodeAt path, fs.find path.parent, path.components.getLast? with
  | some (_, .directory ..), _, _ => none
  | some _, .ok (directory, .directory permissions ..), some name =>
    if permissions.write then some (fs.modify directory (removeName name)) else none
  | _, _, _ => none

/-- Remove the name at a path, or leave it if that cannot be done. -/
def discard (fs : FileSystem) (path : Path) : FileSystem :=
  (fs.unlink path).getD fs

/-- Open a file beside the one of a database, to read and to write it if possible, and make it if it
is missing. An empty file gets the permissions of the database. -/
def openBeside (fs : FileSystem) (file : DatabaseFile) (side : SideFile) :
    BesideFile × FileSystem :=
  let path := file.beside side
  let permissions := ((fs.node? file.inode).map Node.permissions).getD .newFile
  match fs.resolve asEngine path with
  | .error _ => (.refused, fs)
  | .ok (.vacant directory name) =>
    if fs.parentIsWritable path then
      (.writable fs.nodes.length, fs.add directory name (.file permissions (.octets [])))
    else (.notMade, fs)
  | .ok (.existing inode) =>
    match fs.node? inode with
    | some (.file own content) =>
      let opened :=
        if content.isEmpty then fs.modify inode (.withPermissions permissions) else fs
      if !own.read then (.refused, fs)
      else if own.write then (.writable inode, opened)
      else (.readable inode, opened)
    | some (.pipe own) => if own.read && own.write then (.writable inode, fs) else (.refused, fs)
    | some (.directory own ..) =>
      if own.read && side = .logIndex then (.readable inode, fs) else (.refused, fs)
    | _ => (.refused, fs)

/-- Whether a node is a pipe, in which nothing can be written at a place. -/
def isPipe (fs : FileSystem) (inode : Inode) : Bool :=
  match fs.node? inode with
  | some (.pipe _) => true
  | _ => false

/-- Put content into a file. -/
def fill (fs : FileSystem) (inode : Inode) (content : Content) : FileSystem :=
  fs.modify inode (.withContent content)

end FileSystem

end HostTree
