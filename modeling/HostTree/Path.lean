import HostTree.Text.Utf8

/-!
Paths as octets. A path is never normalised: it is joined, shown and split as it was given.
-/

namespace HostTree

/-- A path of a file system. -/
structure Path where
  octets : Octets
deriving DecidableEq, Inhabited

namespace Path

/-- The path with a text's octets. -/
def ofString (text : String) : Path :=
  ⟨Octets.ofString text⟩

/-- What stands between a path and a name that is joined to it: one slash, or nothing if the path
is empty or already ends in a slash. -/
def separator (path : Path) : Octets :=
  match path.octets.getLast? with
  | none => []
  | some last => if last = Octets.slash then [] else [Octets.slash]

/-- The path of a name inside a directory. -/
def join (path : Path) (name : Octets) : Path :=
  ⟨path.octets ++ path.separator ++ name⟩

/-- The text that a path displays as. -/
def display (path : Path) : String :=
  Utf8.lossy path.octets

/-- Whether a path starts at the root of the file system. -/
def isAbsolute (path : Path) : Bool :=
  path.octets.head? = some Octets.slash

/-- Whether a path ends in a slash, and so asks for a directory. -/
def endsInSlash (path : Path) : Bool :=
  path.octets.getLast? = some Octets.slash

/-- The components of a path: what stands between its slashes, repeated slashes taken as one. -/
def components (path : Path) : List Octets :=
  (Octets.cut Octets.slash path.octets).filter (· ≠ [])

/-- The component that stands for the directory itself. -/
def here : Octets := Octets.ofString "."

/-- The component that stands for the directory above. -/
def above : Octets := Octets.ofString ".."

/-- The path of given components below the root or below the current directory. -/
def ofComponents (absolute : Bool) (components : List Octets) : Path :=
  if absolute then ⟨Octets.slash :: List.intercalate [Octets.slash] components⟩
  else if components.isEmpty then ⟨here⟩
  else ⟨List.intercalate [Octets.slash] components⟩

/-- The path of the directory in which the last component of a path lies. -/
def parent (path : Path) : Path :=
  ofComponents path.isAbsolute path.components.dropLast

/-- Joining puts the path in front, unchanged. -/
theorem octets_join (path : Path) (name : Octets) :
    (path.join name).octets = path.octets ++ (path.separator ++ name) := by
  simp [join]

end Path

end HostTree
