import HostTree.FileSystem.Resolve
import HostTree.Tree.View

/-!
What programs do with a file system: look at what a path names, list a directory, read a file, make
an empty file. `FileSystem.view` is the part of this that a walk sees.
-/

namespace HostTree

namespace Node

/-- Whether a node is a directory. -/
def isDirectory : Node → Bool
  | .directory .. => true
  | _ => false

/-- The kind under which a node is listed. -/
def kind : Node → EntryKind
  | .directory .. => .directory
  | .file .. => .file
  | .link _ => .link
  | .pipe _ => .other

end Node

namespace FileSystem

/-- What a path names, links followed. -/
def stat (fs : FileSystem) (path : Path) : Except IoError Stat :=
  match fs.find path with
  | .error error => .error error
  | .ok (inode, node) => .ok ⟨node.isDirectory, inode⟩

/-- The names in a directory, each with the kind of its node. The directory must be readable; its
nodes need not be reachable. -/
def list (fs : FileSystem) (path : Path) : Except IoError (List (Octets × EntryKind)) :=
  match fs.find path with
  | .error error => .error error
  | .ok (_, .directory permissions _ names) =>
    if permissions.read then
      .ok (names.filterMap fun (name, inode) => (fs.node? inode).map fun node => (name, node.kind))
    else .error (.system .accessDenied)
  | .ok _ => .error (.system .notDirectory)

/-- The content of the file at a path. -/
def content (fs : FileSystem) (path : Path) : Except IoError Content :=
  match fs.find path with
  | .error error => .error error
  | .ok (_, .file permissions content) =>
    if permissions.read then .ok content else .error (.system .accessDenied)
  | .ok (_, .directory permissions ..) =>
    if permissions.read then .error (.system .isDirectory) else .error (.system .accessDenied)
  | .ok (_, .pipe permissions) =>
    if permissions.read then .ok (.octets []) else .error (.system .accessDenied)
  | .ok (_, .link _) => .error (.system .tooManyLinks)

/-- Whether a path can be followed to anything. Not to be told so is an error. -/
def exists? (fs : FileSystem) (path : Path) : Except IoError Bool :=
  match fs.find path with
  | .ok _ => .ok true
  | .error error => if error.kind = .notFound then .ok false else .error error

/-- Make an empty file at a path where there is nothing. What is there already and may be written
stays as it is. -/
def makeFile (fs : FileSystem) (path : Path) : Except IoError FileSystem :=
  match fs.resolve asMaker path with
  | .error error => .error error
  | .ok (.existing inode) =>
    match fs.node? inode with
    | some (.file permissions _) | some (.pipe permissions) =>
      if permissions.write then .ok fs else .error (.system .accessDenied)
    | some (.directory ..) => .error (.system .isDirectory)
    | _ => .error (.system .noEntry)
  | .ok (.vacant directory name) =>
    match fs.node? directory with
    | some (.directory permissions ..) =>
      if permissions.write then
        .ok (fs.add directory name (.file .newFile (.octets [])))
      else .error (.system .accessDenied)
    | _ => .error (.system .notDirectory)

/-- What is found at a path is a node of the table. -/
theorem node?_of_find {fs : FileSystem} {path : Path} {inode : Inode} {node : Node}
    (hFind : fs.find path = .ok (inode, node)) : fs.node? inode = some node := by
  unfold find at hFind
  split at hFind
  · simp at hFind
  · simp at hFind
  · split at hFind
    · simp at hFind
    · next hNode =>
        simp only [Except.ok.injEq, Prod.mk.injEq] at hFind
        obtain ⟨rfl, rfl⟩ := hFind
        exact hNode

theorem lt_length_of_find {fs : FileSystem} {path : Path} {inode : Inode} {node : Node}
    (hFind : fs.find path = .ok (inode, node)) : inode < fs.nodes.length :=
  (List.getElem?_eq_some_iff.1 (node?_of_find hFind)).1

/-- A file system as a walk sees it. Directories are told apart by their nodes. -/
def view (fs : FileSystem) : View where
  stat := fs.stat
  list := fs.list
  identities := List.range fs.nodes.length
  mem_identities := by
    intro path found hStat _
    unfold stat at hStat
    split at hStat
    · simp at hStat
    · next hFind =>
        simp only [Except.ok.injEq] at hStat
        subst hStat
        exact List.mem_range.2 (lt_length_of_find hFind)

end FileSystem

end HostTree
