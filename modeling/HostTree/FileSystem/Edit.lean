import HostTree.FileSystem.Resolve

/-!
Changes made to a file system from outside, with full rights: directories on the way to a new node
are made, and permissions are not looked at. Only the current directory must be searchable, since
every path is followed from there. What is in the way of a change is reported as the system does.
-/

namespace HostTree

/-- A change to a file system. -/
inductive Edit where
  /-- Make a directory. -/
  | directory (path : Path)
  /-- Make a file, or replace the content of one. -/
  | file (path : Path) (data : Octets)
  | link (path : Path) (target : Path)
  | pipe (path : Path)
  | permit (path : Path) (permissions : Permissions)
  /-- Remove a name, and with a directory all that is in it. -/
  | remove (path : Path)
  | rename (source : Path) (destination : Path)
deriving DecidableEq

namespace FileSystem

/-- How those with full rights follow paths, to the node itself or through a link at the end. -/
def withRights (followLast : Bool) : Lookup := ⟨true, followLast, false⟩

/-- How those with full rights make files. -/
def asPrivilegedMaker : Lookup := ⟨true, true, true⟩

/-- The node at a path, whatever the permissions. -/
def reach (fs : FileSystem) (followLast : Bool) (path : Path) : Except IoError Inode :=
  match fs.resolve (withRights followLast) path with
  | .error error => .error error
  | .ok (.vacant _ _) => .error (.system .noEntry)
  | .ok (.existing inode) => .ok inode

/-- Whether a node is a directory. -/
def holdsDirectory (fs : FileSystem) (inode : Inode) : Bool :=
  match fs.node? inode with
  | some (.directory ..) => true
  | _ => false

/-- Whether a path leads to a directory. -/
def leadsToDirectory (fs : FileSystem) (path : Path) : Bool :=
  match fs.reach true path with
  | .ok inode => fs.holdsDirectory inode
  | .error _ => false

/-- The directory in which the last component of a path is looked up, and that component. -/
def locate (fs : FileSystem) (path : Path) : Except IoError (Inode × Octets) :=
  match pathFault? path, path.components.getLast? with
  | some error, _ => .error error
  | none, none => .error (.system .noEntry)
  | none, some name =>
    match
      followWithin fs (withRights true) linkLimit (start path) path.components.dropLast true with
    | .error error => .error error
    | .ok (.vacant _ _) => .error (.system .noEntry)
    | .ok (.existing directory) =>
      if fs.holdsDirectory directory then .ok (directory, name)
      else .error (.system .notDirectory)

/-- The node that a directory holds under a name, if it holds one. -/
def lookIn (fs : FileSystem) (directory : Inode) (name : Octets) : Except IoError (Option Inode) :=
  if nameLimit < name.length then .error (.system .nameTooLong)
  else
    match fs.node? directory with
    | some (.directory _ _ names) => .ok (names.lookup name)
    | _ => .error (.system .notDirectory)

/-- Whether a component is a name, and not a step to the directory itself or the one above. -/
def isName (component : Octets) : Bool :=
  component ≠ Path.here && component ≠ Path.above

/-- Put a directory below another one. -/
def setAbove (above : Inode) : Node → Node
  | .directory permissions _ names => .directory permissions above names
  | node => node

/-- Add a new node under the last component of a path, where there is none. A slash at the end is
only good for a directory. -/
def place (fs : FileSystem) (path : Path) (node : Node) : Except IoError FileSystem :=
  match fs.locate path with
  | .error error => .error error
  | .ok (directory, name) =>
    if !isName name then .error (.system .fileExists)
    else
      match fs.lookIn directory name, node with
      | .error error, _ => .error error
      | .ok (some _), _ => .error (.system .fileExists)
      | .ok none, .directory .. => .ok (fs.add directory name (setAbove directory node))
      | .ok none, _ =>
        if path.endsInSlash then .error (.system .noEntry)
        else .ok (fs.add directory name node)

/-- Make a directory, unless there is one. -/
def ensureDirectory (fs : FileSystem) (path : Path) : Except IoError FileSystem :=
  match fs.place path (.directory .newDirectory root []) with
  | .ok fs => .ok fs
  | .error error => if fs.leadsToDirectory path then .ok fs else .error error

/-- Make a directory and, if this fails for want of them, first the directories above it. Their
components are given from the last one to the first. -/
def ensureDirectories (absolute : Bool) :
    List Octets → FileSystem → Path → Except IoError FileSystem
  | [], fs, path => fs.ensureDirectory path
  | name :: above, fs, path =>
    match fs.ensureDirectory path with
    | .ok fs => .ok fs
    | .error error =>
      if error.kind ≠ .notFound then .error error
      else
        match
          ensureDirectories absolute above fs
            (.ofComponents absolute (above.reverse ++ [name])) with
        | .error error => .error error
        | .ok fs => fs.ensureDirectory path

/-- The components above the last one, from the last one to the first. -/
def above (path : Path) : List Octets :=
  (path.components.filter (· ≠ Path.here)).dropLast.reverse

/-- Make a directory and those above it. Nothing is to be made for the empty path. -/
def makeDirectory (fs : FileSystem) (path : Path) : Except IoError FileSystem :=
  if path.octets.isEmpty then .ok fs else ensureDirectories path.isAbsolute (above path) fs path

/-- Make the directories that lead to a path. -/
def makeParents (fs : FileSystem) (path : Path) : Except IoError FileSystem :=
  match above path with
  | [] => .ok fs
  | name :: rest =>
    ensureDirectories path.isAbsolute rest fs
      (.ofComponents path.isAbsolute (rest.reverse ++ [name]))

/-- Write a file, which is made if it is missing. What is written into a pipe does not stay. -/
def writeFile (fs : FileSystem) (path : Path) (data : Octets) : Except IoError FileSystem :=
  match fs.resolve asPrivilegedMaker path with
  | .error error => .error error
  | .ok (.vacant directory name) => .ok (fs.add directory name (.file .newFile (.octets data)))
  | .ok (.existing inode) =>
    if fs.holdsDirectory inode then .error (.system .isDirectory)
    else .ok (fs.modify inode (.withContent (.octets data)))

/-- Make a link. -/
def makeLink (fs : FileSystem) (path target : Path) : Except IoError FileSystem :=
  match pathFault? target with
  | some error => .error error
  | none => fs.place path (.link target)

/-- Remove what a path names. A link at its end is removed itself; a slash behind it asks for the
directory behind the link, which cannot be removed through it. A directory cannot be removed as the
one above another, which goes first. -/
def remove (fs : FileSystem) (path : Path) : Except IoError FileSystem :=
  match fs.reach false path, fs.locate path with
  | .error error, _ | _, .error error => .error error
  | .ok inode, .ok (directory, name) =>
    if name = Path.here then .error (.system .invalidArgument)
    else if name = Path.above then .error (.system .noEntry)
    else
      match fs.lookIn directory name with
      | .error error => .error error
      | .ok found =>
        if found = some inode then .ok (fs.modify directory (removeName name))
        else .error (.system .notDirectory)

/-- Whether a directory is another one or lies inside it, the way up being no longer than the
table of nodes. -/
def isInside (fs : FileSystem) (outer : Inode) : Nat → Inode → Bool
  | 0, inode => inode = outer
  | steps + 1, inode =>
    inode = outer ||
      match fs.node? inode with
      | some (.directory _ above _) => above ≠ inode && isInside fs outer steps above
      | _ => false

/-- What keeps a node from taking the place of another one. -/
def replacementFault? : Node → Node → Option Errno
  | .directory .., .directory _ _ names => if names.isEmpty then none else some .notEmpty
  | .directory .., _ => some .notDirectory
  | _, .directory .. => some .isDirectory
  | _, _ => none

/-- Move a node to another name, in the place of what has this name. A directory cannot be moved
into itself. -/
def rename (fs : FileSystem) (source destination : Path) : Except IoError FileSystem :=
  match fs.locate source, fs.locate destination with
  | .error error, _ | _, .error error => .error error
  | .ok (fromDirectory, fromName), .ok (toDirectory, toName) =>
    if !isName fromName || !isName toName then .error (.system .busy)
    else
      match fs.lookIn fromDirectory fromName, fs.lookIn toDirectory toName with
      | .error error, _ => .error error
      | .ok none, _ => .error (.system .noEntry)
      | .ok (some _), .error error => .error error
      | .ok (some inode), .ok replaced =>
        let fault :=
          match fs.node? inode, replaced.bind fs.node? with
          | some node, some other => replacementFault? node other
          | _, _ => none
        if !fs.holdsDirectory inode && (source.endsInSlash || destination.endsInSlash) then
          .error (.system .notDirectory)
        else if fs.isInside inode fs.nodes.length toDirectory then
          .error (.system .invalidArgument)
        else if replaced.any fun inode => fs.isInside inode fs.nodes.length fromDirectory then
          .error (.system .notEmpty)
        else if replaced = some inode then .ok fs
        else
          match fault with
          | some errno => .error (.system errno)
          | none =>
            .ok ((((fs.modify fromDirectory (removeName fromName)).modify toDirectory
              (removeName toName)).modify toDirectory (addName toName inode)).modify inode
                (setAbove toDirectory))

/-- Whether names can be looked up in the current directory. -/
def currentIsSearchable (fs : FileSystem) : Bool :=
  match fs.node? current with
  | some (.directory permissions ..) => permissions.search
  | _ => false

/-- Make a change. -/
def apply (fs : FileSystem) (edit : Edit) : Except IoError FileSystem :=
  if !fs.currentIsSearchable then .error (.system .accessDenied)
  else
    match edit with
    | .directory path => fs.makeDirectory path
    | .file path data => (fs.makeParents path).bind fun fs => fs.writeFile path data
    | .link path target => (fs.makeParents path).bind fun fs => fs.makeLink path target
    | .pipe path => (fs.makeParents path).bind fun fs => fs.place path (.pipe .newFile)
    | .permit path permissions =>
      (fs.reach true path).map fun inode => fs.modify inode (.withPermissions permissions)
    | .remove path => fs.remove path
    | .rename source destination => fs.rename source destination

end FileSystem

end HostTree
