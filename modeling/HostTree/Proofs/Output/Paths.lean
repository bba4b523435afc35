import HostTree.Proofs.Output.Rows
import HostTree.Proofs.Walk.Answers

/-!
The paths of rows, put together from the rows alone. Names and paths are displayed each by itself;
what is displayed of a name inside a path is the same because the slash in front of it ends whatever
the octets before have begun.
-/

namespace HostTree

namespace Path

/-- A displayed name behind a displayed path, with one slash between them. -/
def joinText (path name : String) : String :=
  path ++ (if path.toList.getLast? = some '/' then "" else "/") ++ name

/-- What is displayed of a path that is not empty goes on with what is displayed of a name that is
joined to it, whatever octets the two are made of. -/
theorem display_join {path : Path} (hPath : path.octets ≠ []) (name : Octets) :
    (path.join name).display = joinText path.display (Utf8.lossy name) := by
  obtain ⟨front, last, hSplit⟩ := (List.eq_nil_or_concat path.octets).resolve_left hPath
  have hLast : path.octets.getLast? = some last := by simp [hSplit]
  have hAscii : Octets.slash.toNat < 0x80 := by decide
  have hSlash := fun before after : Octets =>
    Utf8.toList_lossy_append_of_ascii before after hAscii
  have hChar : Char.ofNat Octets.slash.toNat = '/' := rfl
  have hText := Utf8.getLast?_lossy_iff path.octets
  rw [hLast, Option.some.injEq] at hText
  rw [← String.toList_inj, joinText, display, display]
  by_cases hEnds : last = Octets.slash
  · have hJoin : (path.join name).octets = front ++ Octets.slash :: name := by
      simp [octets_join, separator, hSplit, hEnds]
    have hDisplay : (Utf8.lossy path.octets).toList = (Utf8.lossy front).toList ++ ['/'] := by
      rw [hSplit, hEnds, List.concat_eq_append, hSlash, hChar]
      rfl
    rw [hJoin, hSlash, hChar, if_pos (hText.2 hEnds), String.toList_append, String.toList_append,
      hDisplay]
    simp
  · have hJoin : (path.join name).octets = path.octets ++ Octets.slash :: name := by
      simp [octets_join, separator, hLast, hEnds]
    rw [hJoin, hSlash, hChar, if_neg (mt hText.1 hEnds), String.toList_append,
      String.toList_append]
    simp

end Path

namespace Walk

open Outline

variable {options : DrawOptions} {root : Path} {views : Nat → View}

theorem directoryAt_ne_nil {earlier : List Line} (hRoot : root.octets ≠ [])
    (hEarlier : ∀ line ∈ earlier, line.path.octets ≠ []) (depth : Nat) :
    (directoryAt root (latest? earlier depth)).octets ≠ [] := by
  cases hLatest : latest? earlier depth with
  | none => exact hRoot
  | some line => exact hEarlier line.1 (of_latest?_eq_some hLatest).1

/-- Where the root is not the empty path, no line has that path. -/
theorem Preorder.path_ne_nil {lines : List Line} (hPreorder : Preorder options root views lines)
    (hRoot : root.octets ≠ []) : ∀ line ∈ lines, line.path.octets ≠ [] := by
  have hLines := hPreorder.continues
  clear hPreorder
  induction lines using List.reverseRecOn with
  | nil => simp
  | append_singleton earlier line ih =>
      have hEarlier := ih fun before other later hSplit =>
        hLines before other (later ++ [line]) (by simp [hSplit])
      obtain ⟨listing, name, -, -, -, hPath⟩ := (hLines earlier line [] rfl).listed
      have hLine : line.path.octets ≠ [] := by
        rw [hPath, Path.octets_join]
        exact List.append_ne_nil_of_left_ne_nil (directoryAt_ne_nil hRoot hEarlier _) _
      rw [List.forall_mem_append, List.forall_mem_singleton]
      exact ⟨hEarlier, hLine⟩

end Walk

namespace TreeRow

open Outline

/-- The row that is directly around a line. -/
def around (root : Path) : Option Numbered → TreeRow
  | none => ofRoot root
  | some (line, _) => ofLine line

theorem path_around (root : Path) (line : Option Numbered) :
    (around root line).path = (Walk.directoryAt root line).display := by
  cases line <;> rfl

/-- The row around a line is the latest one that is one step less deep. -/
theorem find?_around {options : DrawOptions} {root : Path} {views : Nat → View}
    {earlier : List Line} {line : Line} (hLine : Walk.Continues options root views earlier line)
    (hNested : Nested earlier) :
    (table root earlier).reverse.find? (·.depth = line.depth - 1) =
      some (around root (latest? earlier (line.depth - 1))) := by
  have hDepth : ∀ line, (ofLine line).depth = line.depth := fun _ => rfl
  rw [table, List.reverse_cons, List.find?_append, find?_map_reverse hDepth]
  by_cases hOuter : line.depth - 1 = 0
  · rw [hOuter, hNested.latest?_zero]
    rfl
  · obtain ⟨depth, hLess⟩ := Nat.exists_eq_succ_of_ne_zero hOuter
    have hLineDepth : line.depth = depth + 2 := by omega
    have hLength := hLine.length_ancestors
    rw [hLineDepth] at hLength
    obtain ⟨outer, hLatest⟩ := exists_latest?_of_length_ancestors hLength
    rw [hLess, hLatest]
    rfl

/-- The path in a row is the one in the row around it, joined to the name. -/
theorem path_ofLine {options : DrawOptions} {root : Path} {views : Nat → View}
    {earlier : List Line} {line : Line} (hLine : Walk.Continues options root views earlier line)
    (hRoot : root.octets ≠ []) (hEarlier : ∀ other ∈ earlier, other.path.octets ≠ []) :
    (ofLine line).path =
      Path.joinText (around root (latest? earlier (line.depth - 1))).path (ofLine line).name := by
  obtain ⟨listing, name, -, -, hName, hPath⟩ := hLine.listed
  have hDirectory := Walk.directoryAt_ne_nil hRoot hEarlier (line.depth - 1)
  calc
    (ofLine line).path
      = ((Walk.directoryAt root (latest? earlier (line.depth - 1))).join name).display :=
        congrArg Path.display hPath
    _ = Path.joinText (Walk.directoryAt root (latest? earlier (line.depth - 1))).display
          (Utf8.lossy name) := Path.display_join hDirectory name
    _ = _ := by rw [path_around, ← hName]; rfl

end TreeRow

namespace Walk

open Outline

/-- The paths in the rows of a run are put together from the rows themselves. Each row below the
first one has in front of it a latest row that is one step less deep, the first one if it has depth
one; and its path is the path of that row, a slash unless this path ends in one, and its own name.
So displaying joined paths is the same as joining what is displayed, also where names are no UTF-8,
and whatever becomes of the file system during the run. -/
theorem paths_join (options : DrawOptions) (root : Path) (views : Nat → View) (calls : Nat)
    (hRoot : root.octets ≠ []) :
    (∀ (path : Path) (name : Octets), path.octets ≠ [] →
      (path.join name).display = Path.joinText path.display (Utf8.lossy name)) ∧
    ∃ rows, TreeRow.read? ((start options root).written views calls .json root) =
        some (TreeRow.ofRoot root :: rows) ∧
      ∀ before row after, rows = before ++ row :: after → 0 < row.depth ∧
        ∃ outer, (TreeRow.ofRoot root :: before).reverse.find? (·.depth = row.depth - 1) =
            some outer ∧
          (row.depth = 1 → outer = TreeRow.ofRoot root) ∧
          row.path = Path.joinText outer.path row.name := by
  obtain ⟨-, hHistory, -⟩ := stands_after options root views calls
  refine ⟨fun path name hPath => Path.display_join hPath name,
    ((start options root).lines views calls).map TreeRow.ofLine, ?json, ?paths⟩
  case json => rw [written_eq, TreeRow.read?_text_json, TreeRow.table]
  case paths =>
    intro before row after hSplit
    obtain ⟨earlier, rest, hLines, rfl, hRest⟩ := List.map_eq_append_iff.1 hSplit
    obtain ⟨line, later, rfl, rfl, rfl⟩ := List.map_eq_cons_iff.1 hRest
    rw [hLines] at hHistory
    have hLine := hHistory.preorder.continues earlier line later rfl
    have hEarlier := hHistory.of_append.preorder.path_ne_nil hRoot
    have hNested := hHistory.of_append.nested
    refine ⟨hLine.depth_pos, _, TreeRow.find?_around hLine hNested, ?_,
      TreeRow.path_ofLine hLine hRoot hEarlier⟩
    intro hDepth
    have hOuter : line.depth - 1 = 0 := by
      rw [show line.depth = 1 from hDepth]
    rw [hOuter, hNested.latest?_zero]
    rfl

/-- A directory and a file in it whose names would be one character if no slash stood between
them. -/
def torn : FileSystem :=
  ⟨[.directory .newDirectory 0 [],
    .directory .newDirectory 0 [([0xE2, 0x80], 2)],
    .directory .newDirectory 1 [([0xA6], 3)],
    .file .newFile (.octets [])]⟩

theorem paths_join_torn :
    (Path.ofString "./").octets ≠ [] ∧
    ((start unsorted (.ofString "./")).lines (fun _ => torn.view) 2).map TreeRow.ofLine =
      [⟨"\uFFFD", "./\uFFFD", 1, .directory, true⟩,
        ⟨"\uFFFD", "./\uFFFD/\uFFFD", 2, .file, true⟩] ∧
    ∃ rows, TreeRow.read? ((start unsorted (.ofString "./")).written (fun _ => torn.view) 2 .json
        (.ofString "./")) = some (TreeRow.ofRoot (.ofString "./") :: rows) ∧
      ∀ before row after, rows = before ++ row :: after → 0 < row.depth ∧
        ∃ outer, (TreeRow.ofRoot (.ofString "./") :: before).reverse.find?
            (·.depth = row.depth - 1) = some outer ∧
          (row.depth = 1 → outer = TreeRow.ofRoot (.ofString "./")) ∧
          row.path = Path.joinText outer.path row.name := by
  have hRoot : (Path.ofString "./").octets ≠ [] := by decide
  exact ⟨hRoot, by decide,
    (paths_join unsorted (.ofString "./") (fun _ => torn.view) 2 hRoot).2⟩

end Walk

end HostTree
