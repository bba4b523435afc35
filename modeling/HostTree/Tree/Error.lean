import HostTree.IoError
import HostTree.Path

/-!
What can stop the drawing of a tree. Each cause keeps the path at which it arose.
-/

namespace HostTree

/-- A failure while a tree is walked. -/
inductive TreeError where
  | permissionDenied (path : Path)
  | notFound (path : Path)
  | notADirectory (path : Path)
  /-- The directory is already open further up on the same branch. -/
  | linkCycle (path : Path)
  /-- Any other failure to look at a path. -/
  | io (path : Path) (cause : IoError)
deriving DecidableEq

namespace TreeError

/-- The failure that an error of the file system at a path amounts to. -/
def ofIo (path : Path) (error : IoError) : TreeError :=
  match error.kind with
  | .permissionDenied => .permissionDenied path
  | .notFound => .notFound path
  | .notADirectory => .notADirectory path
  | _ => .io path error

/-- Where the walk failed. -/
def path : TreeError → Path
  | .permissionDenied path => path
  | .notFound path => path
  | .notADirectory path => path
  | .linkCycle path => path
  | .io path _ => path

@[simp]
theorem path_ofIo (path : Path) (error : IoError) : (ofIo path error).path = path := by
  unfold ofIo
  split <;> rfl

/-- The error of the file system that is passed on as it is, if there is one. -/
def cause? : TreeError → Option IoError
  | .io _ cause => some cause
  | _ => none

/-- What a failure says. -/
def message : TreeError → String
  | .permissionDenied path => "permission denied: " ++ path.display
  | .notFound path => "no such file or directory: " ++ path.display
  | .notADirectory path => "not a directory: " ++ path.display
  | .linkCycle path => "symbolic link cycle at " ++ path.display
  | .io path cause => path.display ++ ": " ++ cause.message

end TreeError

end HostTree
