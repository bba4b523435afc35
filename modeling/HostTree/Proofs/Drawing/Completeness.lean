import HostTree.Proofs.Drawing.Distinct
import HostTree.Proofs.Walk.Recursion

/-!
What a walk shows on a file system that does not change, said without reference to how it goes
about it: all that is reached and nothing else, each entry once, if every directory opens that is to
be listed, and a failure if one does not. The order of entries has no part in this.
-/

namespace HostTree

namespace Line

/-- Where a line's entry is in the tree. -/
def place (line : Line) : Path × Nat :=
  (line.path, line.depth)

/-- What a line says of its entry, apart from where it stands among the others. -/
def shown (line : Line) : (Path × Nat) × String × EntryKind :=
  (line.place, line.name, line.kind)

end Line

/-- Options with another order of entries. -/
def DrawOptions.ordered (options : DrawOptions) (sort : SortMode) (grouped : Bool) : DrawOptions :=
  { options with sort := sort, directoriesFirst := grouped }

namespace View

/-- What is reached does not depend on the order of entries. -/
theorem Reached.ordered {view : View} {options : DrawOptions} {root : Path} {around : List Path}
    {entry : Entry} (hReached : view.Reached options root around entry) (sort : SortMode)
    (grouped : Bool) : view.Reached (options.ordered sort grouped) root around entry := by
  induction hReached with
  | inRoot hLimit hEntries hEntry => exact .inRoot hLimit hEntries hEntry
  | inEntered _ hDescends hEntries hEntry ih => exact .inEntered ih hDescends hEntries hEntry

theorem reached_ordered_iff {view : View} {options : DrawOptions} {root : Path} {around : List Path}
    {entry : Entry} {sort : SortMode} {grouped : Bool} :
    view.Reached (options.ordered sort grouped) root around entry ↔
      view.Reached options root around entry :=
  ⟨fun hReached => hReached.ordered options.sort options.directoriesFirst,
    fun hReached => hReached.ordered sort grouped⟩

/-- Which directories are to be listed does not depend on the order of entries, nor whether they
open. -/
theorem AllOpen.ordered {view : View} {options : DrawOptions} {root : Path}
    (hOpen : view.AllOpen options root) (sort : SortMode) (grouped : Bool) :
    view.AllOpen (options.ordered sort grouped) root := by
  refine ⟨hOpen.root_isDirectory, ?_⟩
  intro around directory hListed
  cases hListed with
  | root hLimit => exact hOpen.listed_opens [] root (.root hLimit)
  | entered hReached hDescends =>
      exact hOpen.listed_opens _ _ (.entered (reached_ordered_iff.1 hReached) hDescends)

end View

namespace Walk

variable {view : View} {options : DrawOptions} {root : Path} {lines : List Line} {error : TreeError}

/-- Whether a walk answers given lines and then its end, on a file system that does not change. -/
def Completes (view : View) (options : DrawOptions) (root : Path) (lines : List Line) : Prop :=
  ∀ call, (start options root).answer (fun _ => view) call = lines[call]?.map .ok

theorem completes_iff : Completes view options root lines ↔
    view.draw options root = lines.map .ok := by
  constructor
  · intro hCompletes
    apply List.ext_getElem?
    intro call
    rw [List.getElem?_map, ← hCompletes call]
    exact (answer_eq_draw options root view call).symm
  · intro hDraw call
    rw [← List.getElem?_map, ← hDraw]
    exact answer_eq_draw options root view call

/-- Whether a walk answers given lines, then a failure, and then its end, on a file system that does
not change. -/
def Fails (view : View) (options : DrawOptions) (root : Path) (lines : List Line)
    (error : TreeError) : Prop :=
  ∀ call, (start options root).answer (fun _ => view) call =
    (lines.map .ok ++ [.error error])[call]?

theorem fails_iff : Fails view options root lines error ↔
    view.draw options root = lines.map .ok ++ [.error error] := by
  constructor
  · intro hFails
    apply List.ext_getElem?
    intro call
    rw [← hFails call]
    exact (answer_eq_draw options root view call).symm
  · intro hDraw call
    rw [← hDraw]
    exact answer_eq_draw options root view call

/-- There is no other way for a walk to end. -/
theorem completes_or_fails (view : View) (options : DrawOptions) (root : Path) :
    (∃ lines, Completes view options root lines) ∨
      ∃ lines error, Fails view options root lines error := by
  simp only [completes_iff, fails_iff]
  exact (view.endsAtError_draw options root).exists_lines

theorem Completes.isComplete (hCompletes : Completes view options root lines) :
    (view.draw options root).IsComplete := by
  rw [completes_iff.1 hCompletes]
  exact Drawing.isComplete_map_ok lines

theorem Fails.not_completes (hFails : Fails view options root lines error) :
    ¬∃ others, Completes view options root others := by
  rintro ⟨others, hCompletes⟩
  apply hCompletes.isComplete error
  rw [fails_iff.1 hFails]
  simp

/-- A walk fails in one way only. -/
theorem Fails.unique {others : List Line} {other : TreeError}
    (hFails : Fails view options root lines error)
    (hOthers : Fails view options root others other) : lines = others ∧ error = other := by
  have hSame := (fails_iff.1 hFails).symm.trans (fails_iff.1 hOthers)
  obtain ⟨hLines, hError⟩ := List.append_inj' hSame rfl
  exact ⟨List.map_injective_iff.2 (fun _ _ => Except.ok.inj) hLines, by simpa using hError⟩

/-- A walk completes exactly if every directory opens that is to be listed. -/
theorem exists_completes_iff :
    (∃ lines, Completes view options root lines) ↔ view.AllOpen options root := by
  rw [← View.isComplete_draw_iff]
  constructor
  · rintro ⟨lines, hCompletes⟩
    exact hCompletes.isComplete
  · intro hComplete
    obtain ⟨lines, hDraw⟩ := hComplete.exists_lines
    exact ⟨lines, completes_iff.2 hDraw⟩

/-- A walk that completes shows what is reached. -/
theorem Completes.mem_shown_iff (hCompletes : Completes view options root lines)
    {path : Path} {depth : Nat} {name : String} {kind : EntryKind} :
    ((path, depth), name, kind) ∈ lines.map Line.shown ↔
      ∃ around entry, view.Reached options root around entry ∧ entry.path = path ∧
        around.length = depth ∧ entry.displayName = name ∧ entry.kind = kind := by
  have hMem : ∀ line, line ∈ lines ↔ .ok line ∈ view.draw options root := by
    simp [completes_iff.1 hCompletes]
  constructor
  · intro hShown
    obtain ⟨line, hLine, hSame⟩ := List.mem_map.1 hShown
    obtain ⟨around, entry, lead, isLast, hReached, rfl⟩ :=
      View.exists_reached_of_mem_draw ((hMem line).1 hLine)
    cases hSame
    exact ⟨around, entry, hReached, rfl, rfl, rfl, rfl⟩
  · rintro ⟨around, entry, hReached, rfl, rfl, rfl, rfl⟩
    obtain ⟨active, lead, isLast, -, hLine, -⟩ :=
      View.shows_of_reached hCompletes.isComplete hReached
    exact List.mem_map.2 ⟨_, (hMem _).2 hLine, rfl⟩

theorem Completes.mem_place_iff (hCompletes : Completes view options root lines)
    {path : Path} {depth : Nat} :
    (path, depth) ∈ lines.map Line.place ↔
      ∃ around entry, view.Reached options root around entry ∧ entry.path = path ∧
        around.length = depth := by
  constructor
  · intro hPlace
    obtain ⟨line, hLine, hSame⟩ := List.mem_map.1 hPlace
    cases hSame
    obtain ⟨around, entry, hReached, hPath, hDepth, -, -⟩ :=
      hCompletes.mem_shown_iff.1 (List.mem_map_of_mem hLine)
    exact ⟨around, entry, hReached, hPath, hDepth⟩
  · rintro ⟨around, entry, hReached, hPath, hDepth⟩
    obtain ⟨line, hLine, hSame⟩ := List.mem_map.1
      (hCompletes.mem_shown_iff.2 ⟨around, entry, hReached, hPath, hDepth, rfl, rfl⟩)
    exact List.mem_map.2 ⟨line, hLine, congrArg Prod.fst hSame⟩

/-- Where names tell entries apart, no place is shown twice. -/
theorem Completes.nodup_places (hCompletes : Completes view options root lines)
    (hNames : view.NamesDiffer) : (lines.map Line.place).Nodup := by
  have hPaths := View.nodup_paths_draw hNames options root
  rw [completes_iff.1 hCompletes, Drawing.lines_map_ok] at hPaths
  refine List.Nodup.of_map Prod.fst ?_
  rwa [List.map_map]

theorem Completes.nodup_shown (hCompletes : Completes view options root lines)
    (hNames : view.NamesDiffer) : (lines.map Line.shown).Nodup := by
  refine List.Nodup.of_map Prod.fst ?_
  rw [List.map_map]
  exact hCompletes.nodup_places hNames

/-- On a file system that does not change and in which names tell entries apart, a walk completes
exactly if every directory opens that is to be listed. Its lines are then those of what is reached,
each at its depth and none twice. With another order of entries the walk completes if it does with
this one, and it shows the same. -/
theorem walk_complete (view : View) (options : DrawOptions) (root : Path)
    (hNames : view.NamesDiffer) :
    ((∃ lines, Completes view options root lines) ↔ view.AllOpen options root) ∧
    (∀ lines, Completes view options root lines →
      (lines.map Line.place).Nodup ∧
      ∀ path depth, (path, depth) ∈ lines.map Line.place ↔
        ∃ around entry, view.Reached options root around entry ∧ entry.path = path ∧
          around.length = depth) ∧
    ∀ sort grouped,
      ((∃ lines, Completes view options root lines) ↔
        ∃ lines, Completes view (options.ordered sort grouped) root lines) ∧
      ∀ lines others, Completes view options root lines →
        Completes view (options.ordered sort grouped) root others →
          (lines.map Line.shown).Perm (others.map Line.shown) := by
  refine ⟨exists_completes_iff, ?_, ?_⟩
  · intro lines hCompletes
    exact ⟨hCompletes.nodup_places hNames, fun path depth => hCompletes.mem_place_iff⟩
  · intro sort grouped
    constructor
    · rw [exists_completes_iff, exists_completes_iff]
      constructor
      · intro hOpen
        exact hOpen.ordered sort grouped
      · intro hOpen
        exact hOpen.ordered options.sort options.directoriesFirst
    · intro lines others hCompletes hOther
      rw [List.perm_ext_iff_of_nodup (hCompletes.nodup_shown hNames) (hOther.nodup_shown hNames)]
      rintro ⟨⟨path, depth⟩, name, kind⟩
      rw [hCompletes.mem_shown_iff, hOther.mem_shown_iff]
      simp only [View.reached_ordered_iff]

/-- A current directory that holds the directory `b`, which holds the file `a`, and a link `l` to
that directory. -/
def twice : FileSystem :=
  ⟨[.directory .newDirectory 0 [],
    .directory .newDirectory 0 [(Octets.ofString "b", 2), (Octets.ofString "l", 3)],
    .directory .newDirectory 1 [(Octets.ofString "a", 4)],
    .link (.ofString "b"),
    .file .newFile (.octets [])]⟩

/-- One of its entries. -/
def entryOfTwice (directory name : String) (kind : EntryKind) : Entry :=
  twice.view.entry (.ofString directory) (Octets.ofString name) kind

theorem namesDiffer_twice : twice.view.NamesDiffer :=
  FileSystem.namesDiffer_view (by decide)

/-- From `.` the file is reached through the directory and through the link. -/
theorem mem_of_reached_twice {around : List Path} {entry : Entry}
    (hReached : twice.view.Reached .default (.ofString ".") around entry) :
    (around, entry) ∈ [
      ([.ofString "."], entryOfTwice "." "b" .directory),
      ([.ofString "."], entryOfTwice "." "l" .link),
      ([.ofString "./b", .ofString "."], entryOfTwice "./b" "a" .file),
      ([.ofString "./l", .ofString "."], entryOfTwice "./l" "a" .file)] := by
  induction hReached with
  | inRoot hLimit hEntries hEntry =>
      have hHere : twice.view.entries (.ofString ".") =
          .ok [entryOfTwice "." "b" .directory, entryOfTwice "." "l" .link] := by decide
      cases hHere.symm.trans hEntries
      simpa using hEntry
  | inEntered hOuter hDescends hEntries hEntry ih =>
      simp only [List.mem_cons, List.not_mem_nil, or_false, Prod.mk.injEq] at ih
      rcases ih with ⟨rfl, rfl⟩ | ⟨rfl, rfl⟩ | ⟨rfl, rfl⟩ | ⟨rfl, rfl⟩
      · have hDirectory : twice.view.entries (.ofString "./b") =
            .ok [entryOfTwice "./b" "a" .file] := by decide
        cases hDirectory.symm.trans hEntries
        cases List.mem_singleton.1 hEntry
        decide
      · have hLink : twice.view.entries (.ofString "./l") =
            .ok [entryOfTwice "./l" "a" .file] := by decide
        cases hLink.symm.trans hEntries
        cases List.mem_singleton.1 hEntry
        decide
      · simp [DrawOptions.descends, DrawOptions.enters, entryOfTwice, View.entry] at hDescends
      · simp [DrawOptions.descends, DrawOptions.enters, entryOfTwice, View.entry] at hDescends

/-- The directory that is listed twice is not around itself. -/
theorem allOpen_twice : twice.view.AllOpen .default (.ofString ".") := by
  refine ⟨⟨1, by decide⟩, ?_⟩
  intro around directory hListed
  cases hListed with
  | root => exact ⟨1, _, by decide, rfl, by decide⟩
  | entered hReached hDescends =>
      have hMem := mem_of_reached_twice hReached
      simp only [List.mem_cons, List.not_mem_nil, or_false, Prod.mk.injEq] at hMem
      rcases hMem with ⟨rfl, rfl⟩ | ⟨rfl, rfl⟩ | ⟨rfl, rfl⟩ | ⟨rfl, rfl⟩
      · exact ⟨2, _, by decide, rfl, by decide⟩
      · exact ⟨2, _, by decide, rfl, by decide⟩
      · simp [DrawOptions.descends, DrawOptions.enters, entryOfTwice, View.entry] at hDescends
      · simp [DrawOptions.descends, DrawOptions.enters, entryOfTwice, View.entry] at hDescends

/-- The walk from there completes, and shows the link with what is behind it. -/
theorem walk_complete_twice : twice.view.NamesDiffer ∧
    ∃ lines, Completes twice.view .default (.ofString ".") lines ∧ (lines.map Line.place).Nodup ∧
      (.ofString "./l/a", 2) ∈ lines.map Line.place := by
  obtain ⟨hCompletes, hShows, -⟩ :=
    walk_complete twice.view .default (.ofString ".") namesDiffer_twice
  obtain ⟨lines, hLines⟩ := hCompletes.2 allOpen_twice
  have hLink : twice.view.Reached .default (.ofString ".") [.ofString "."]
      (entryOfTwice "." "l" .link) :=
    .inRoot (by decide) rfl (by decide)
  have hFile : twice.view.Reached .default (.ofString ".") [.ofString "./l", .ofString "."]
      (entryOfTwice "./l" "a" .file) :=
    .inEntered hLink (by decide) rfl (by decide)
  obtain ⟨hNodup, hPlaces⟩ := hShows lines hLines
  exact ⟨namesDiffer_twice, lines, hLines, hNodup, (hPlaces _ _).2 ⟨_, _, hFile, rfl, rfl⟩⟩

end Walk

end HostTree
