import HostTree.Database.Basic
import HostTree.Path

/-!
A file system as a table of nodes. A node is known by its place in the table; names are kept by the
directories that hold them, so one node can be moved without being changed. The first node is the
root, the second one the current directory, which the root does not list.
-/

namespace HostTree

/-- The place of a node in the table. -/
abbrev Inode := Nat

/-- What the owner of a node may do with it. -/
structure Permissions where
  read : Bool
  write : Bool
  /-- For a directory: to look names up in it. -/
  search : Bool
deriving DecidableEq

namespace Permissions

/-- The permissions that a mode gives to the owner. -/
def ofMode (mode : Nat) : Permissions where
  read := (mode / 256) % 2 = 1
  write := (mode / 128) % 2 = 1
  search := (mode / 64) % 2 = 1

/-- The permissions of a new directory. -/
def newDirectory : Permissions := ofMode 0o755

/-- The permissions of a new file. -/
def newFile : Permissions := ofMode 0o644

end Permissions

/-- What a regular file holds. -/
inductive Content where
  | octets (data : Octets)
  /-- The file of a database, in the form its engine keeps. -/
  | database (content : Database)
  /-- The journal by which a database goes back to what it was before a transaction. -/
  | journal (before : Option Database)
deriving DecidableEq

/-- Whether a file holds nothing. -/
def Content.isEmpty : Content → Bool
  | .octets data => data.isEmpty
  | _ => false

/-- A node of a file system. -/
inductive Node where
  /-- A directory with the directory above it and the names it holds, in listing order. -/
  | directory (permissions : Permissions) (above : Inode) (names : List (Octets × Inode))
  | file (permissions : Permissions) (content : Content)
  | link (target : Path)
  | pipe (permissions : Permissions)
deriving DecidableEq

/-- A file system. -/
structure FileSystem where
  nodes : List Node
deriving DecidableEq

/-- The permissions of a node. Links give all of them. -/
def Node.permissions : Node → Permissions
  | .directory permissions _ _ => permissions
  | .file permissions _ => permissions
  | .pipe permissions => permissions
  | .link _ => ⟨true, true, true⟩

/-- A node with other permissions. Those of links stay. -/
def Node.withPermissions (permissions : Permissions) : Node → Node
  | .directory _ above names => .directory permissions above names
  | .file _ content => .file permissions content
  | .pipe _ => .pipe permissions
  | .link target => .link target

/-- A node with other content, if it is a file. -/
def Node.withContent (content : Content) : Node → Node
  | .file permissions _ => .file permissions content
  | node => node

namespace FileSystem

/-- The node where absolute paths start. -/
def root : Inode := 0

/-- The node where all other paths start. -/
def current : Inode := 1

/-- A file system with an empty current directory, outside of which nothing may be made. -/
def empty : FileSystem :=
  ⟨[.directory (.ofMode 0o555) root [], .directory .newDirectory root []]⟩

/-- The node at a place. -/
def node? (fs : FileSystem) (inode : Inode) : Option Node :=
  fs.nodes[inode]?

/-- Change the node at a place. -/
def modify (fs : FileSystem) (inode : Inode) (change : Node → Node) : FileSystem :=
  ⟨fs.nodes.modify inode change⟩

/-- Append a name to a directory. -/
def addName (name : Octets) (inode : Inode) : Node → Node
  | .directory permissions above names => .directory permissions above (names ++ [(name, inode)])
  | node => node

/-- Take a name out of a directory. -/
def removeName (name : Octets) : Node → Node
  | .directory permissions above names => .directory permissions above (names.filter (·.1 ≠ name))
  | node => node

/-- Add a new node under a name of a directory. -/
def add (fs : FileSystem) (directory : Inode) (name : Octets) (node : Node) : FileSystem :=
  ⟨(fs.nodes.modify directory (addName name fs.nodes.length)) ++ [node]⟩

end FileSystem

end HostTree
