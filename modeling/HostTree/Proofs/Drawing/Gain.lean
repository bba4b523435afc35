import HostTree.Proofs.Drawing.Completeness
import HostTree.Proofs.Entry.Extended

/-!
What becomes of a walk when directories list more files. None of these is entered, so the walk goes
where it went: it completes if it did, and the files are put in between what it showed.
-/

namespace HostTree

/-- Whether what a line shows is a file with a new name in some directory. -/
def ShowsNew (isNew : Path → Octets → Prop) (shown : (Path × Nat) × String × EntryKind) : Prop :=
  shown.2.2 = .file ∧ ∃ directory name, shown.1.1 = Path.join directory name ∧
    shown.2.1 = Utf8.lossy name ∧ isNew directory name

namespace Drawing

variable {isNew : Path → Octets → Prop} {first second : Drawing}

/-- Whether two drawings are complete, and the second one shows what the first one does with new
files put in. -/
def Grows (isNew : Path → Octets → Prop) (first second : Drawing) : Prop :=
  ∃ lines others : List Line, first = lines.map .ok ∧ second = others.map .ok ∧
    Extends (ShowsNew isNew) (lines.map Line.shown) (others.map Line.shown)

theorem grows_nil : Grows isNew [] [] :=
  ⟨[], [], rfl, rfl, .nil⟩

theorem Grows.kept (hGrows : Grows isNew first second) {line other : Line}
    (hShown : line.shown = other.shown) :
    Grows isNew (.ok line :: first) (.ok other :: second) := by
  obtain ⟨lines, others, rfl, rfl, hExtends⟩ := hGrows
  refine ⟨line :: lines, other :: others, rfl, rfl, ?_⟩
  rw [List.map_cons, List.map_cons, hShown]
  exact .kept _ hExtends

theorem Grows.put (hGrows : Grows isNew first second) {line : Line}
    (hNew : ShowsNew isNew line.shown) : Grows isNew first (.ok line :: second) := by
  obtain ⟨lines, others, rfl, rfl, hExtends⟩ := hGrows
  exact ⟨lines, line :: others, rfl, rfl, .put hNew hExtends⟩

theorem Grows.followedBy {later laterSecond : Drawing} (hFirst : Grows isNew first second)
    (hLater : Grows isNew later laterSecond) :
    Grows isNew (first.followedBy later) (second.followedBy laterSecond) := by
  obtain ⟨lines, others, rfl, rfl, hExtends⟩ := hFirst
  obtain ⟨laterLines, laterOthers, rfl, rfl, hLaterExtends⟩ := hLater
  refine ⟨lines ++ laterLines, others ++ laterOthers, ?_, ?_, ?_⟩
  · rw [(isComplete_map_ok lines).followedBy_eq, List.map_append]
  · rw [(isComplete_map_ok others).followedBy_eq, List.map_append]
  · rw [List.map_append, List.map_append]
    exact hExtends.append hLaterExtends

end Drawing

namespace View

open Drawing

variable {view grown : View} {isNew : Path → Octets → Prop} {options : DrawOptions}

theorem resolvesToDirectory_iff {path : Path} : view.resolvesToDirectory path = true ↔
    ∃ identity, view.directory path = .ok identity := by
  unfold resolvesToDirectory directory
  cases view.stat path with
  | error error => simp
  | ok found =>
      cases hDirectory : found.isDirectory with
      | false => simp [hDirectory]
      | true => simp [hDirectory]

/-- Whether a view is another one in which directories list more files. -/
structure Gains (view grown : View) (isNew : Path → Octets → Prop) : Prop where
  directory_iff : ∀ path identity,
    grown.directory path = .ok identity ↔ view.directory path = .ok identity
  list_ok : ∀ path listing, view.list path = .ok listing →
    ∃ more, grown.list path = .ok more ∧
      Extends (fun listed => listed.2 = .file ∧ isNew path listed.1) listing more

/-- Whether an entry is one of these files. -/
def IsGained (isNew : Path → Octets → Prop) (entry : Entry) : Prop :=
  entry.kind = .file ∧ ∃ directory, entry.path = directory.join entry.name ∧
    isNew directory entry.name

theorem IsGained.not_descends {entry : Entry} (hGained : IsGained isNew entry) (depth : Nat) :
    options.descends entry depth = false := by
  simp [DrawOptions.descends, DrawOptions.enters, hGained.1]

theorem IsGained.showsNew {entry : Entry} (hGained : IsGained isNew entry) (lead : String)
    (depth : Nat) (isLast : Bool) :
    ShowsNew isNew (Line.shown (.ofEntry lead depth entry isLast)) := by
  obtain ⟨hFile, directory, hPath, hNew⟩ := hGained
  exact ⟨hFile, directory, entry.name, hPath, rfl, hNew⟩

namespace Gains

theorem entry_eq (hGains : view.Gains grown isNew) (directory : Path) (name : Octets)
    (kind : EntryKind) : grown.entry directory name kind = view.entry directory name kind := by
  have hResolves : grown.resolvesToDirectory (directory.join name) =
      view.resolvesToDirectory (directory.join name) := by
    rw [Bool.eq_iff_iff, resolvesToDirectory_iff, resolvesToDirectory_iff]
    simp only [hGains.directory_iff]
  simp only [entry, hResolves]

theorem openDirectory (hGains : view.Gains grown isNew) {active : List Identity} {path : Path}
    {identity : Identity} {arranged : List Entry}
    (hOpen : view.openDirectory options active path = .ok (identity, arranged)) :
    ∃ more, grown.openDirectory options active path = .ok (identity, more) ∧
      Extends (IsGained isNew) arranged more := by
  obtain ⟨hDirectory, hOutside, entries, hEntries, rfl⟩ := openDirectory_eq_ok_iff.1 hOpen
  obtain ⟨listing, hList, rfl⟩ := entries_eq_ok_iff.1 hEntries
  obtain ⟨more, hMore, hExtends⟩ := hGains.list_ok path listing hList
  refine ⟨_, openDirectory_eq_ok_iff.2 ⟨(hGains.directory_iff _ _).2 hDirectory, hOutside, _,
    entries_eq_ok_iff.2 ⟨more, hMore, rfl⟩, rfl⟩, ?_⟩
  apply Extends.arrange
  simp only [hGains.entry_eq]
  refine hExtends.map ?_
  rintro ⟨name, kind⟩ ⟨hFile, hNew⟩
  exact ⟨hFile, path, rfl, hNew⟩

/-- The lines of a directory's entries with those of new files among them: what is below the others
stays, with what is put in there. -/
theorem grows_drawEntries {active : List Identity} {lead otherLead : String} {depth : Nat}
    {entries more : List Entry} (hExtends : Extends (IsGained isNew) entries more)
    (hComplete : IsComplete (view.drawEntries options active lead depth entries))
    (hInside : ∀ (entry : Entry) below otherBelow,
      IsComplete (view.drawInside options active entry.path below (depth + 1)) →
      Grows isNew (view.drawInside options active entry.path below (depth + 1))
        (grown.drawInside options active entry.path otherBelow (depth + 1))) :
    Grows isNew (view.drawEntries options active lead depth entries)
      (grown.drawEntries options active otherLead depth more) := by
  induction hExtends with
  | nil => exact grows_nil
  | kept entry _ ih =>
      rw [drawEntries_cons, isComplete_ok_cons, isComplete_followedBy] at hComplete
      rw [drawEntries_cons, drawEntries_cons]
      refine Grows.kept (Grows.followedBy ?_ (ih hComplete.2)) rfl
      split
      · next hDescends =>
          rw [if_pos hDescends] at hComplete
          exact hInside entry _ _ hComplete.1
      · exact grows_nil
  | put hGained _ ih =>
      rw [drawEntries_cons grown, hGained.not_descends]
      exact (ih hComplete).put (hGained.showsNew ..)

/-- What is drawn inside a directory without a failure is drawn with new files put in. -/
theorem grows_drawInside (hGains : view.Gains grown isNew) (active : List Identity) (path : Path)
    (lead : String) (depth : Nat) (otherLead : String)
    (hComplete : IsComplete (view.drawInside options active path lead depth)) :
    Grows isNew (view.drawInside options active path lead depth)
      (grown.drawInside options active path otherLead depth) := by
  -- A file that is put in behind the last entry changes the guides below it, so the leads differ.
  induction active, path, lead, depth using drawInside.induct view options
    generalizing otherLead with
  | case1 active path lead depth error hOpen =>
      rw [drawInside_of_error hOpen] at hComplete
      exact absurd hComplete not_isComplete_error
  | case2 active path lead depth identity entries hOpen ih =>
      obtain ⟨more, hMore, hExtends⟩ := hGains.openDirectory hOpen
      rw [drawInside_of_ok hOpen] at hComplete ⊢
      rw [drawInside_of_ok hMore]
      refine grows_drawEntries hExtends hComplete ?_
      intro entry below otherBelow hBelow
      exact ih entry below otherBelow hBelow

theorem grows_draw (hGains : view.Gains grown isNew) {root : Path}
    (hComplete : IsComplete (view.draw options root)) :
    Grows isNew (view.draw options root) (grown.draw options root) := by
  obtain ⟨identity, hRoot⟩ := exists_of_isComplete_draw hComplete
  have hRootGrown := (hGains.directory_iff root identity).2 hRoot
  by_cases hLimit : options.depthLimit = some 0
  · simp only [draw, hRoot, hRootGrown, hLimit, ↓reduceIte]
    exact grows_nil
  · rw [draw_eq_drawInside hRoot hLimit] at hComplete ⊢
    rw [draw_eq_drawInside hRootGrown hLimit]
    exact hGains.grows_drawInside [] root "" 1 "" hComplete

end Gains

end View

namespace Walk

/-- A walk that completes does so where directories list more files; these are put in between what
it showed. -/
theorem Completes.gains {view grown : View} {isNew : Path → Octets → Prop} {options : DrawOptions}
    {root : Path} {lines : List Line} (hCompletes : Completes view options root lines)
    (hGains : view.Gains grown isNew) :
    ∃ others, Completes grown options root others ∧
      Extends (ShowsNew isNew) (lines.map Line.shown) (others.map Line.shown) := by
  obtain ⟨drawn, others, hDrawn, hOthers, hExtends⟩ := hGains.grows_draw hCompletes.isComplete
  have hLines : drawn = lines :=
    Drawing.eq_of_map_ok_eq (hDrawn.symm.trans (completes_iff.1 hCompletes))
  exact ⟨others, completes_iff.2 hOthers, hLines ▸ hExtends⟩

end Walk

end HostTree
