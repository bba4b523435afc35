import HostTree.Tree.View

/-!
The lines of a drawn tree, and the choices that decide which lines there are.
-/

namespace HostTree

/-- What is drawn of a tree, and in which order. -/
structure DrawOptions where
  sort : SortMode
  directoriesFirst : Bool
  /-- Whether links to directories are entered. -/
  followLinks : Bool
  /-- The depth of the deepest lines, if there is a limit. -/
  depthLimit : Option Nat
deriving DecidableEq

namespace DrawOptions

/-- By name, files and directories mixed, links followed, to any depth. -/
def default : DrawOptions where
  sort := .name
  directoriesFirst := false
  followLinks := true
  depthLimit := none

/-- Whether lines may stand below a line of a depth. -/
def allowsBelow (options : DrawOptions) (depth : Nat) : Bool :=
  match options.depthLimit with
  | none => true
  | some limit => depth < limit

/-- Whether an entry is one to enter: a directory, or a followed link to one. -/
def enters (options : DrawOptions) (entry : Entry) : Bool :=
  match entry.kind with
  | .directory => true
  | .link => options.followLinks && entry.targetIsDirectory
  | _ => false

/-- Whether an entry whose line has a depth is listed after its line. -/
def descends (options : DrawOptions) (entry : Entry) (depth : Nat) : Bool :=
  options.enters entry && options.allowsBelow depth

end DrawOptions

namespace Guide

/-- The connector of a line that has a later sibling. -/
def branch : String := "├── "

/-- The connector of the last line of a directory. -/
def corner : String := "└── "

/-- What stands below a line that has a later sibling. -/
def continuation : String := "│   "

/-- What stands below the last line of a directory. -/
def blank : String := "    "

/-- The connector of a line. -/
def connector (isLast : Bool) : String :=
  if isLast then corner else branch

/-- What stands before all that is drawn below a line. -/
def below (isLast : Bool) : String :=
  if isLast then blank else continuation

end Guide

/-- One line of a drawn tree. -/
structure Line where
  /-- The guides of the lines above it that it hangs under. -/
  lead : String
  connector : String
  name : String
  path : Path
  /-- The number of directories it is inside of, the root included. -/
  depth : Nat
  kind : EntryKind
  /-- Whether it is the last one of its directory. -/
  isLast : Bool
deriving DecidableEq

/-- The line of an entry. -/
def Line.ofEntry (lead : String) (depth : Nat) (entry : Entry) (isLast : Bool) : Line where
  lead := lead
  connector := Guide.connector isLast
  name := entry.displayName
  path := entry.path
  depth := depth
  kind := entry.kind
  isLast := isLast

/-- A line as it is drawn. -/
def Line.render (line : Line) : String :=
  line.lead ++ line.connector ++ line.name

/-- What a walk answers: a line, or the failure that ends it. -/
abbrev Answer := Except TreeError Line

/-- List a directory for drawing: it must be a directory, and none of those that are open on the
branch that leads to it. -/
def View.openDirectory (view : View) (options : DrawOptions) (active : List Identity)
    (path : Path) : Except TreeError (Identity × List Entry) :=
  match view.directory path with
  | .error error => .error error
  | .ok identity =>
    if identity ∈ active then .error (.linkCycle path)
    else
      match view.entries path with
      | .error error => .error (.ofIo path error)
      | .ok entries =>
        .ok (identity, Entry.arrange options.sort options.directoriesFirst entries)

/-- What it takes to list a directory for drawing, and what is listed. -/
theorem View.openDirectory_eq_ok_iff {view : View} {options : DrawOptions} {active : List Identity}
    {path : Path} {identity : Identity} {arranged : List Entry} :
    view.openDirectory options active path = .ok (identity, arranged) ↔
      view.directory path = .ok identity ∧ identity ∉ active ∧
        ∃ entries, view.entries path = .ok entries ∧
          arranged = Entry.arrange options.sort options.directoriesFirst entries := by
  unfold openDirectory
  cases hDirectory : view.directory path with
  | error error => simp
  | ok found =>
      by_cases hActive : found ∈ active
      · simp only [hActive, ↓reduceIte, reduceCtorEq, Except.ok.injEq, false_iff]
        rintro ⟨rfl, hNew, -⟩
        exact hNew hActive
      · cases hEntries : view.entries path with
        | error error => simp [hActive]
        | ok entries =>
            simp only [hActive, ↓reduceIte, Except.ok.injEq, Prod.mk.injEq, exists_eq_left']
            constructor
            · rintro ⟨rfl, rfl⟩
              exact ⟨rfl, hActive, rfl⟩
            · rintro ⟨rfl, -, rfl⟩
              exact ⟨rfl, rfl⟩

end HostTree
