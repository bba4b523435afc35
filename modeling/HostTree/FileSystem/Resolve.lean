import HostTree.FileSystem.Basic
import HostTree.IoError

/-!
Following paths. Every component is looked up in a directory that may be searched; links are
followed from the directory that holds them, at most forty of them for one path; a slash at the end
asks for a directory.
-/

namespace HostTree

/-- How a path is followed. -/
structure Lookup where
  /-- Permissions are not looked at. -/
  privileged : Bool
  /-- A link at the end of the path is followed. -/
  followLast : Bool
  /-- The last component may be about to be made, as a file. -/
  forFile : Bool
deriving DecidableEq

/-- What a path leads to. -/
inductive Target where
  | existing (inode : Inode)
  /-- A name that a directory does not hold. -/
  | vacant (directory : Inode) (name : Octets)
deriving DecidableEq

namespace FileSystem

/-- The most links that are followed for one path. -/
def linkLimit : Nat := 40

/-- The longest component that can be looked up. -/
def nameLimit : Nat := 255

/-- The length from which on a path is too long. -/
def pathLimit : Nat := 4096

/-- How the following of components goes on: the directory, the components and whether a directory
is asked for at their end. -/
abbrev Continuation := Inode → List Octets → Bool → Except IoError Target

/-- Follow components from a directory. What is left to follow at a link is handed to `atLink`. -/
def follow (fs : FileSystem) (how : Lookup) (atLink : Continuation) :
    Inode → List Octets → Bool → Except IoError Target
  | inode, [], _ => .ok (.existing inode)
  | inode, name :: rest, slash =>
    match fs.node? inode with
    | some (.directory permissions above names) =>
      if !(how.privileged || permissions.search) then .error (.system .accessDenied)
      else if name = Path.here then follow fs how atLink inode rest slash
      else if name = Path.above then follow fs how atLink above rest slash
      else if how.forFile && rest.isEmpty && slash then .error (.system .isDirectory)
      else if nameLimit < name.length then .error (.system .nameTooLong)
      else
        match names.lookup name with
        | none => if rest.isEmpty then .ok (.vacant inode name) else .error (.system .noEntry)
        | some child =>
          match fs.node? child with
          | some (.directory ..) => follow fs how atLink child rest slash
          | some (.link target) =>
            if rest.isEmpty && !slash && !how.followLast then .ok (.existing child)
            else
              atLink (if target.isAbsolute then root else inode) (target.components ++ rest)
                (slash || (rest.isEmpty && target.endsInSlash))
          | some _ =>
            if rest.isEmpty && !slash then .ok (.existing child)
            else .error (.system .notDirectory)
          | none => .error (.system .noEntry)
    | _ => .error (.system .notDirectory)

/-- Follow components while a number of links may still be followed. -/
def followWithin (fs : FileSystem) (how : Lookup) : Nat → Continuation
  | 0 => follow fs how fun _ _ _ => .error (.system .tooManyLinks)
  | links + 1 => follow fs how (followWithin fs how links)

/-- What is wrong with a path, whatever the file system holds. -/
def pathFault? (path : Path) : Option IoError :=
  if Octets.nul ∈ path.octets then
    some (.custom .invalidInput "file name contained an unexpected NUL byte")
  else if path.octets = [] then some (.system .noEntry)
  else if pathLimit ≤ path.octets.length then some (.system .nameTooLong)
  else none

/-- The directory from which a path is followed. -/
def start (path : Path) : Inode :=
  if path.isAbsolute then root else current

/-- Follow a path. -/
def resolve (fs : FileSystem) (how : Lookup) (path : Path) : Except IoError Target :=
  match pathFault? path with
  | some error => .error error
  | none => followWithin fs how linkLimit (start path) path.components path.endsInSlash

/-- The way in which programs look at paths: with the owner's permissions, links followed. -/
def asOwner : Lookup := ⟨false, true, false⟩

/-- The way in which programs make files. -/
def asMaker : Lookup := ⟨false, true, true⟩

/-- The node that a path names, links followed. -/
def find (fs : FileSystem) (path : Path) : Except IoError (Inode × Node) :=
  match fs.resolve asOwner path with
  | .error error => .error error
  | .ok (.vacant _ _) => .error (.system .noEntry)
  | .ok (.existing inode) =>
    match fs.node? inode with
    | none => .error (.system .noEntry)
    | some node => .ok (inode, node)

end FileSystem

end HostTree
