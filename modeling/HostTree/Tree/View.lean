import HostTree.Tree.Entry
import HostTree.Tree.Error

/-!
A file system as a walk sees it: what a path resolves to, and what a directory lists. A walk may be
given another view at every step; a view has finitely many directories, so a walk on one and the
same view can only go so deep.
-/

namespace HostTree

/-- What tells two directories apart, whatever paths lead to them. -/
abbrev Identity := Nat

/-- What a path resolves to, links followed. -/
structure Stat where
  isDirectory : Bool
  identity : Identity
deriving DecidableEq

/-- The part of a file system that a walk can ask about. -/
structure View where
  /-- Follow a path to what it names. -/
  stat : Path → Except IoError Stat
  /-- The names in a directory, each with its kind. -/
  list : Path → Except IoError (List (Octets × EntryKind))
  /-- The identities that directories can have. -/
  identities : List Identity
  /-- No directory has another identity. -/
  mem_identities : ∀ path found, stat path = .ok found → found.isDirectory = true →
    found.identity ∈ identities

namespace View

/-- Whether a path resolves to a directory. A path that cannot be followed does not. -/
def resolvesToDirectory (view : View) (path : Path) : Bool :=
  match view.stat path with
  | .ok found => found.isDirectory
  | .error _ => false

/-- The entry of one listed name. Only links are followed to see what they lead to. -/
def entry (view : View) (directory : Path) (name : Octets) (kind : EntryKind) : Entry where
  name := name
  path := directory.join name
  kind := kind
  targetIsDirectory := kind = .link && view.resolvesToDirectory (directory.join name)

/-- The entries of a directory in the order of its listing. -/
def entries (view : View) (directory : Path) : Except IoError (List Entry) :=
  (view.list directory).map (·.map fun (name, kind) => view.entry directory name kind)

/-- The identity of the directory at a path. -/
def directory (view : View) (path : Path) : Except TreeError Identity :=
  match view.stat path with
  | .error error => .error (.ofIo path error)
  | .ok found => if found.isDirectory then .ok found.identity else .error (.notADirectory path)

/-- The entries of a directory are those of its listing. -/
theorem entries_eq_ok_iff {view : View} {directory : Path} {entries : List Entry} :
    view.entries directory = .ok entries ↔
      ∃ listing, view.list directory = .ok listing ∧
        entries = listing.map fun (name, kind) => view.entry directory name kind := by
  unfold View.entries
  cases view.list directory with
  | error error => simp [Except.map]
  | ok listing => simp [Except.map, eq_comm]

theorem entries_eq_error_iff {view : View} {directory : Path} {error : IoError} :
    view.entries directory = .error error ↔ view.list directory = .error error := by
  unfold View.entries
  cases view.list directory <;> simp [Except.map]

/-- A directory is found at a path if it is what the path resolves to. -/
theorem directory_eq_ok_iff {view : View} {path : Path} {identity : Identity} :
    view.directory path = .ok identity ↔ view.stat path = .ok ⟨true, identity⟩ := by
  unfold directory
  split
  · next hStat => simp [hStat]
  · next found hStat =>
      obtain ⟨isDirectory, found⟩ := found
      cases isDirectory with
      | false => simp [hStat]
      | true => simp [hStat]

/-- A directory that is found at a path has one of the view's identities. -/
theorem mem_identities_of_directory {view : View} {path : Path} {identity : Identity}
    (hDirectory : view.directory path = .ok identity) : identity ∈ view.identities :=
  view.mem_identities path _ (directory_eq_ok_iff.1 hDirectory) rfl

/-- The identities of a view that are not among some. -/
def unopened (view : View) (active : List Identity) : List Identity :=
  view.identities.filter (· ∉ active)

/-- One more identity of the view among them leaves fewer. -/
theorem length_unopened_cons_lt {view : View} {active : List Identity} {identity : Identity}
    (hKnown : identity ∈ view.identities) (hNew : identity ∉ active) :
    (view.unopened (identity :: active)).length < (view.unopened active).length := by
  have hFilter : view.unopened (identity :: active) =
      (view.unopened active).filter (· ≠ identity) := by
    simp [unopened, List.filter_filter]
  rw [hFilter, List.length_filter_lt_length_iff_exists]
  exact ⟨identity, by simp [unopened, hKnown, hNew], by simp⟩

end View

end HostTree
