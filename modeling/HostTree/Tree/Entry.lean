import HostTree.Path

/-!
The entries of a directory and the order in which they are drawn: by the octets of their names or
as the directory lists them, and on top of that with all that lead to directories in front.
-/

namespace HostTree

/-- What a directory's listing says an entry is. -/
inductive EntryKind where
  | file
  | directory
  | link
  | other
deriving DecidableEq

/-- One child of a listed directory. -/
structure Entry where
  name : Octets
  path : Path
  kind : EntryKind
  /-- Whether the entry is a link that was found to resolve to a directory. -/
  targetIsDirectory : Bool
deriving DecidableEq

/-- The order of entries before directories are moved to the front. -/
inductive SortMode where
  /-- The order of the listing is kept. -/
  | listing
  /-- Names are compared octet by octet. -/
  | name
deriving DecidableEq

namespace Entry

/-- Whether an entry is a directory itself. -/
def isDirectory (entry : Entry) : Bool :=
  entry.kind = .directory

/-- Whether an entry is a directory or a link to one. -/
def leadsToDirectory (entry : Entry) : Bool :=
  entry.isDirectory || entry.targetIsDirectory

/-- The text that an entry's name displays as. -/
def displayName (entry : Entry) : String :=
  Utf8.lossy entry.name

/-- Entries in the order of their names. Equal names keep the order they had. -/
def sortByName (entries : List Entry) : List Entry :=
  entries.mergeSort fun a b => a.name ≤ b.name

/-- Entries that lead to directories before all others. Inside both groups the order is kept. -/
def directoriesFirst (entries : List Entry) : List Entry :=
  entries.filter leadsToDirectory ++ entries.filter (!leadsToDirectory ·)

/-- The order in which entries are drawn. -/
def arrange (sort : SortMode) (grouped : Bool) (entries : List Entry) : List Entry :=
  let sorted :=
    match sort with
    | .listing => entries
    | .name => sortByName entries
  if grouped then directoriesFirst sorted else sorted

/-- Arranging entries neither loses nor repeats one. -/
theorem arrange_perm (sort : SortMode) (grouped : Bool) (entries : List Entry) :
    (arrange sort grouped entries).Perm entries := by
  have hSorted : (match sort with
      | .listing => entries
      | .name => sortByName entries).Perm entries := by
    cases sort with
    | listing => exact .refl _
    | name => exact List.mergeSort_perm _ _
  cases grouped with
  | false => exact hSorted
  | true => exact (List.filter_append_perm _ _).trans hSorted

end Entry

end HostTree
