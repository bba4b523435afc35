import HostTree.Proofs.Drawing.Reached
import HostTree.Proofs.FileSystem.Look
import HostTree.Proofs.Path.Within
import Mathlib.Data.List.Nodup

/-!
No path is drawn twice. What is drawn of an entry has paths within that of the entry, and names keep
the entries of a directory apart, so the parts of a drawing share no path, however deep they are.
-/

namespace HostTree

namespace View

/-- Whether names tell apart what a directory holds: they differ from each other, and each is one
component of a path. -/
def NamesDiffer (view : View) : Prop :=
  ∀ directory listing, view.list directory = .ok listing →
    (listing.map (·.1)).Nodup ∧ ∀ name ∈ listing.map (·.1), Path.IsName name

end View

namespace FileSystem

/-- The names that a directory is listed with are among those it holds. -/
theorem listed_names_sublist (fs : FileSystem) (names : List (Octets × Inode)) :
    ((names.filterMap fs.listed).map (·.1)).Sublist (names.map (·.1)) := by
  induction names with
  | nil => exact List.Sublist.refl _
  | cons held rest ih =>
      obtain ⟨name, inode⟩ := held
      cases hNode : fs.node? inode with
      | none =>
          simp only [List.filterMap_cons, listed, hNode, Option.map_none]
          exact ih.cons name
      | some node =>
          simp only [List.filterMap_cons, listed, hNode, Option.map_some, List.map_cons]
          exact ih.cons_cons name

/-- Names differ if they do in every directory of the table. -/
theorem namesDiffer_view {fs : FileSystem}
    (hNames : ∀ node ∈ fs.nodes,
      (node.held.map (·.1)).Nodup ∧ ∀ name ∈ node.held.map (·.1), Path.IsName name) :
    fs.view.NamesDiffer := by
  intro directory listing hList
  obtain ⟨inode, permissions, above, names, hFind, -, rfl⟩ := list_eq_ok_iff.1 hList
  obtain ⟨hNodup, hName⟩ := hNames _ (List.mem_of_getElem? (node?_of_find hFind))
  have hSublist := listed_names_sublist fs names
  exact ⟨hNodup.sublist hSublist, fun name hListed => hName name (hSublist.subset hListed)⟩

end FileSystem

namespace View

open Drawing

variable {view : View} {options : DrawOptions}

/-- What the entries of a directory are: each lies under its name, and the names differ. -/
def AreEntries (directory : Path) (entries : List Entry) : Prop :=
  (entries.map (·.name)).Nodup ∧
    ∀ entry ∈ entries, entry.path = directory.join entry.name ∧ Path.IsName entry.name

theorem areEntries_of_openDirectory (hNames : view.NamesDiffer) {active : List Identity}
    {path : Path} {identity : Identity} {arranged : List Entry}
    (hOpen : view.openDirectory options active path = .ok (identity, arranged)) :
    AreEntries path arranged := by
  obtain ⟨-, -, entries, hEntries, rfl⟩ := openDirectory_eq_ok_iff.1 hOpen
  have hPerm := Entry.arrange_perm options.sort options.directoriesFirst entries
  obtain ⟨listing, hList, rfl⟩ := entries_eq_ok_iff.1 hEntries
  obtain ⟨hNodup, hName⟩ := hNames path listing hList
  constructor
  · rw [(hPerm.map _).nodup_iff, List.map_map]
    exact hNodup
  · intro entry hEntry
    obtain ⟨⟨name, kind⟩, hListed, rfl⟩ := List.mem_map.1 (hPerm.mem_iff.1 hEntry)
    exact ⟨rfl, hName name (List.mem_map_of_mem hListed)⟩

/-- The lines drawn inside a directory have paths within those of its entries. -/
theorem within_of_mem_drawInside (hNames : view.NamesDiffer) {active : List Identity} {path : Path}
    {lead : String} {depth : Nat} {line : Line}
    (hLine : .ok line ∈ view.drawInside options active path lead depth) :
    ∃ name, Path.IsName name ∧ (path.join name).Within line.path := by
  induction active, path, lead, depth using drawInside.induct view options with
  | case1 active path lead depth error hOpen =>
      rw [drawInside_of_error hOpen] at hLine
      simp at hLine
  | case2 active path lead depth identity entries hOpen ih =>
      rw [drawInside_of_ok hOpen] at hLine
      obtain ⟨entry, hEntry, hShown⟩ := exists_of_mem_drawEntries hLine
      obtain ⟨hPath, hName⟩ := (areEntries_of_openDirectory hNames hOpen).2 entry hEntry
      refine ⟨entry.name, hName, ?_⟩
      rcases hShown with ⟨isLast, rfl⟩ | ⟨-, below, hInside⟩
      · rw [← hPath]
        exact .here
      · obtain ⟨inner, hInner, hWithin⟩ := ih entry below hInside
        rw [← hPath]
        exact hWithin.of_join hInner

theorem within_of_mem_drawEntries (hNames : view.NamesDiffer) {active : List Identity}
    {lead : String} {depth : Nat} {entries : List Entry} {line : Line}
    (hLine : .ok line ∈ view.drawEntries options active lead depth entries) :
    ∃ entry ∈ entries, entry.path.Within line.path := by
  obtain ⟨entry, hEntry, ⟨isLast, rfl⟩ | ⟨-, below, hInside⟩⟩ := exists_of_mem_drawEntries hLine
  · exact ⟨entry, hEntry, .here⟩
  · obtain ⟨name, hName, hWithin⟩ := within_of_mem_drawInside hNames hInside
    exact ⟨entry, hEntry, hWithin.of_join hName⟩

/-- What is within an entry is not drawn of the entries next to it. -/
theorem ne_of_mem_drawEntries (hNames : view.NamesDiffer) {active : List Identity}
    {lead : String} {depth : Nat} {directory path : Path} {entry : Entry} {rest : List Entry}
    (hEntries : AreEntries directory (entry :: rest)) (hPath : entry.path.Within path) {line : Line}
    (hLine : .ok line ∈ view.drawEntries options active lead depth rest) : path ≠ line.path := by
  rintro rfl
  obtain ⟨hNodup, hEach⟩ := hEntries
  rw [List.map_cons, List.nodup_cons] at hNodup
  rw [List.forall_mem_cons] at hEach
  obtain ⟨other, hOther, hWithin⟩ := within_of_mem_drawEntries hNames hLine
  obtain ⟨hOtherPath, hOtherName⟩ := hEach.2 other hOther
  rw [hEach.1.1] at hPath
  rw [hOtherPath] at hWithin
  have hSame := Path.eq_of_within_join hEach.1.2 hOtherName hPath hWithin
  exact hNodup.1 (hSame ▸ List.mem_map_of_mem hOther)

/-- The parts that entries are drawn as share no path: not with each other, and what is inside an
entry not with the entry itself. -/
theorem nodup_paths_drawEntries (hNames : view.NamesDiffer) {active : List Identity}
    {lead : String} {depth : Nat} {directory : Path} {entries : List Entry}
    (hEntries : AreEntries directory entries)
    (hInside : ∀ (entry : Entry) below, ((view.drawInside options active entry.path below
      (depth + 1)).lines.map (·.path)).Nodup) :
    ((view.drawEntries options active lead depth entries).lines.map (·.path)).Nodup := by
  induction entries with
  | nil => exact List.nodup_nil
  | cons entry rest ih =>
      have hRest := ih ⟨(List.nodup_cons.1 hEntries.1).2, (List.forall_mem_cons.1 hEntries.2).2⟩
      have hOthers : entry.path ∉
          (view.drawEntries options active lead depth rest).lines.map (·.path) := by
        intro hMem
        obtain ⟨line, hLine, hPath⟩ := List.mem_map.1 hMem
        exact ne_of_mem_drawEntries hNames hEntries .here (mem_lines.1 hLine) hPath.symm
      rw [drawEntries_cons, lines_ok_cons, List.map_cons]
      split
      · next hDescends =>
          refine List.Nodup.sublist (((lines_followedBy_sublist _ _).map _).cons_cons _) ?_
          rw [List.map_append, List.nodup_cons, List.nodup_append, List.mem_append]
          refine ⟨?_, hInside entry _, hRest, ?_⟩
          · rintro (hMem | hMem)
            · obtain ⟨line, hLine, hPath⟩ := List.mem_map.1 hMem
              obtain ⟨name, hName, hWithin⟩ := within_of_mem_drawInside hNames (mem_lines.1 hLine)
              exact hWithin.ne_of_join hName hPath
            · exact hOthers hMem
          · intro path hPath other hOther
            obtain ⟨line, hLine, rfl⟩ := List.mem_map.1 hPath
            obtain ⟨otherLine, hOtherLine, rfl⟩ := List.mem_map.1 hOther
            obtain ⟨name, hName, hWithin⟩ := within_of_mem_drawInside hNames (mem_lines.1 hLine)
            exact ne_of_mem_drawEntries hNames hEntries (hWithin.of_join hName)
              (mem_lines.1 hOtherLine)
      · rw [nil_followedBy]
        exact List.nodup_cons.2 ⟨hOthers, hRest⟩

theorem nodup_paths_drawInside (hNames : view.NamesDiffer) (active : List Identity) (path : Path)
    (lead : String) (depth : Nat) :
    ((view.drawInside options active path lead depth).lines.map (·.path)).Nodup := by
  induction active, path, lead, depth using drawInside.induct view options with
  | case1 active path lead depth error hOpen =>
      rw [drawInside_of_error hOpen]
      exact List.nodup_nil
  | case2 active path lead depth identity entries hOpen ih =>
      rw [drawInside_of_ok hOpen]
      exact nodup_paths_drawEntries hNames (areEntries_of_openDirectory hNames hOpen) ih

/-- No path is drawn twice. -/
theorem nodup_paths_draw (hNames : view.NamesDiffer) (options : DrawOptions) (root : Path) :
    ((view.draw options root).lines.map (·.path)).Nodup := by
  unfold draw
  split
  · exact List.nodup_nil
  · split
    · exact List.nodup_nil
    · exact nodup_paths_drawInside hNames [] root "" 1

end View

end HostTree
