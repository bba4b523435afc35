import HostTree.Database.SideFile

/-!
Finding and opening the file of a database. The engine follows the name of a database by itself: it
goes through names that do not exist, a slash at the end asks for nothing, and what it then opens
holds no links. Paths are measured from the root.
-/

namespace HostTree

namespace FileSystem

/-- The most links that are followed for the name of a database. -/
def databaseLinkLimit : Nat := 201

/-- The room for the path of a database. -/
def databasePathRoom : Nat := 512

/-- The room that the names of the files beside a database need. -/
def sideFileRoom : Nat := 8

/-- The length of the path of the current directory. -/
def currentPathLength : Nat := 32

/-- The length of a path of components, with a slash in front of each. -/
def tracedLength (absolute : Bool) (reached : List Octets) : Nat :=
  (if absolute then 0 else currentPathLength) +
    (reached.flatMap fun name => Octets.slash :: name).length

/-- One directory up from a path of components. -/
def up (absolute : Bool) (reached : List Octets) : List Octets :=
  match reached.getLast? with
  | none => if absolute then [] else [Path.above]
  | some last => if last = Path.above then reached ++ [Path.above] else reached.dropLast

/-- Go through components, to a path without links. What is left to go through at a link is handed
to `atLink`. -/
def trace (fs : FileSystem) (atLink : Bool → List Octets → List Octets → Option Path) :
    Bool → List Octets → List Octets → Option Path
  | absolute, reached, [] => some (.ofComponents absolute reached)
  | absolute, reached, name :: rest =>
    if name = Path.here then trace fs atLink absolute reached rest
    else if name = Path.above then trace fs atLink absolute (up absolute reached) rest
    else if databasePathRoom < tracedLength absolute reached + name.length + 2 then none
    else
      match fs.resolve asEngine (.ofComponents absolute (reached ++ [name])) with
      | .error error =>
        if error.kind = .notFound then trace fs atLink absolute (reached ++ [name]) rest else none
      | .ok (.vacant _ _) => trace fs atLink absolute (reached ++ [name]) rest
      | .ok (.existing inode) =>
        match fs.node? inode with
        | some (.link target) =>
          if target.isAbsolute then atLink true [] (target.components ++ rest)
          else atLink absolute reached (target.components ++ rest)
        | _ => trace fs atLink absolute (reached ++ [name]) rest

/-- Go through components while a number of links may still be followed. -/
def traceWithin (fs : FileSystem) : Nat → Bool → List Octets → List Octets → Option Path
  | 0 => trace fs fun _ _ _ => none
  | links + 1 => trace fs (traceWithin fs links)

/-- The path without links that the name of a database leads to. There must be room behind it for
the names of the files beside it. -/
def databasePath (fs : FileSystem) (name : Path) : Option Path :=
  (fs.traceWithin databaseLinkLimit name.isAbsolute [] name.components).filter fun path =>
    tracedLength path.isAbsolute path.components + sideFileRoom ≤ databasePathRoom

/-- The permissions that an empty file gets when it is opened, if a location says so. Those of the
template that give nothing are not taken over. -/
def templatePermissions (fs : FileSystem) (location : Location) :
    Except SqlFault (Option Permissions) :=
  match location.template with
  | none => .ok none
  | some path =>
    match fs.find path with
    | .error _ => .error (.disk .examining)
    | .ok (_, node) =>
      let given := node.permissions
      .ok (if given.read || given.write || given.search then some given else none)

/-- Open the file of a database at a path without links, and make it if it is missing and may be
made. A file that cannot be written is opened for reading. Anything but a file cannot be read. -/
def openFile (fs : FileSystem) (name : String) (location : Location) (locking : Locking)
    (path : Path) : Except SqlFault DatabaseFile × FileSystem :=
  match fs.templatePermissions location with
  | .error fault => (.error fault, fs)
  | .ok template =>
    let opened (inode : Inode) (writable : Bool) : DatabaseFile :=
      ⟨path, inode, writable, locking, location.isFixed⟩
    match fs.resolve asEngine path with
    | .ok (.vacant directory last) =>
      if location.mode = .create && fs.parentIsWritable path then
        (.ok (opened fs.nodes.length true),
          fs.add directory last (.file (template.getD .newFile) (.octets [])))
      else (.error (.cannotOpen name), fs)
    | .ok (.existing inode) =>
      match fs.node? inode with
      | some (.file own content) =>
        let permitted :=
          match template, content.isEmpty with
          | some permissions, true => fs.modify inode (.withPermissions permissions)
          | _, _ => fs
        if own.read then (.ok (opened inode (own.write && location.mode ≠ .read)), permitted)
        else (.error (.cannotOpen name), fs)
      | some (.pipe own) =>
        if own.read && own.write then (.error (.disk .reading), fs)
        else (.error (.cannotOpen name), fs)
      | some (.directory own ..) =>
        if own.read && location.mode = .read then (.error (.disk .reading), fs)
        else (.error (.cannotOpen name), fs)
      | _ => (.error (.cannotOpen name), fs)
    | _ => (.error (.cannotOpen name), fs)

end FileSystem

end HostTree
