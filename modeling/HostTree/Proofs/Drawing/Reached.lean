import HostTree.Proofs.Drawing.Basic

/-!
What a tree holds, said without reference to any order. An entry is reached if it is in the root or
in a directory that is entered below the root. A drawing is complete exactly if every directory that
is to be listed can be, and is not around itself; then it shows all that is reached.
-/

namespace HostTree

namespace View

/-- The entries that are to be shown, each with the directories it is inside of, the innermost
first. The depth of an entry is the number of these. -/
inductive Reached (view : View) (options : DrawOptions) (root : Path) :
    List Path → Entry → Prop where
  | inRoot {entries : List Entry} {entry : Entry} (hLimit : options.depthLimit ≠ some 0)
      (hEntries : view.entries root = .ok entries) (hEntry : entry ∈ entries) :
      Reached view options root [root] entry
  | inEntered {around : List Path} {outer : Entry} {entries : List Entry} {entry : Entry}
      (hOuter : Reached view options root around outer)
      (hDescends : options.descends outer around.length = true)
      (hEntries : view.entries outer.path = .ok entries) (hEntry : entry ∈ entries) :
      Reached view options root (outer.path :: around) entry

/-- The directories that are to be listed, each with those it is inside of: the root unless nothing
is to be shown, and what is reached and to be entered. -/
inductive Listed (view : View) (options : DrawOptions) (root : Path) : List Path → Path → Prop where
  | root (hLimit : options.depthLimit ≠ some 0) : Listed view options root [] root
  | entered {around : List Path} {entry : Entry} (hReached : Reached view options root around entry)
      (hDescends : options.descends entry around.length = true) :
      Listed view options root around entry.path

/-- Whether a directory inside others can be listed: it is a directory, its names can be read, and
it is none of those around it. -/
def Opens (view : View) (around : List Path) (directory : Path) : Prop :=
  ∃ identity entries, view.directory directory = .ok identity ∧
    view.entries directory = .ok entries ∧
    ∀ outer ∈ around, view.directory outer ≠ .ok identity

/-- Whether all directories open that are to be listed. -/
structure AllOpen (view : View) (options : DrawOptions) (root : Path) : Prop where
  root_isDirectory : ∃ identity, view.directory root = .ok identity
  listed_opens : ∀ around directory, view.Listed options root around directory →
    view.Opens around directory

/-- What is in a listed directory is reached. -/
theorem Listed.reached {view : View} {options : DrawOptions} {root : Path} {around : List Path}
    {directory : Path} {entries : List Entry} {entry : Entry}
    (hListed : view.Listed options root around directory)
    (hEntries : view.entries directory = .ok entries) (hEntry : entry ∈ entries) :
    view.Reached options root (directory :: around) entry := by
  cases hListed with
  | root hLimit => exact .inRoot hLimit hEntries hEntry
  | entered hReached hDescends => exact .inEntered hReached hDescends hEntries hEntry

open Drawing

variable {view : View} {options : DrawOptions} {root : Path}

/-- Identities are those of the directories at some paths. -/
def AreIdentities (view : View) (active : List Identity) (around : List Path) : Prop :=
  ∀ identity, identity ∈ active ↔ ∃ outer ∈ around, view.directory outer = .ok identity

theorem areIdentities_nil : view.AreIdentities [] [] := by
  simp [AreIdentities]

theorem AreIdentities.cons {active : List Identity} {around : List Path} {path : Path}
    {identity : Identity} (hActive : view.AreIdentities active around)
    (hDirectory : view.directory path = .ok identity) :
    view.AreIdentities (identity :: active) (path :: around) := by
  intro other
  simp only [List.mem_cons, hActive other, exists_eq_or_imp, hDirectory, Except.ok.injEq]
  exact or_congr_left eq_comm

/-- To open is the same said with the paths and with the identities of what is around. -/
theorem opens_iff_openDirectory {active : List Identity} {around : List Path} {path : Path}
    (hActive : view.AreIdentities active around) :
    view.Opens around path ↔
      ∃ opened, view.openDirectory options active path = .ok opened := by
  constructor
  · rintro ⟨identity, entries, hDirectory, hEntries, hNew⟩
    refine ⟨(identity, _), openDirectory_eq_ok_iff.2 ⟨hDirectory, ?_, entries, hEntries, rfl⟩⟩
    rw [hActive identity]
    rintro ⟨outer, hOuter, hSame⟩
    exact hNew outer hOuter hSame
  · rintro ⟨⟨identity, arranged⟩, hOpen⟩
    obtain ⟨hDirectory, hNew, entries, hEntries, -⟩ := openDirectory_eq_ok_iff.1 hOpen
    refine ⟨identity, entries, hDirectory, hEntries, ?_⟩
    intro outer hOuter hSame
    exact hNew ((hActive identity).2 ⟨outer, hOuter, hSame⟩)

/-- What is drawn of some entries is complete if all that is drawn inside them is. -/
theorem isComplete_drawEntries {active : List Identity} {lead : String} {depth : Nat}
    {entries : List Entry}
    (hInside : ∀ entry ∈ entries, options.descends entry depth = true → ∀ below,
      IsComplete (view.drawInside options active entry.path below (depth + 1))) :
    IsComplete (view.drawEntries options active lead depth entries) := by
  induction entries with
  | nil => exact isComplete_nil
  | cons entry rest ih =>
      rw [List.forall_mem_cons] at hInside
      rw [drawEntries_cons, isComplete_ok_cons, isComplete_followedBy]
      refine ⟨?_, ih hInside.2⟩
      split
      · next hDescends => exact hInside.1 hDescends _
      · exact isComplete_nil

/-- A complete drawing of some entries has the line of each, and all that is drawn inside it. -/
theorem mem_drawEntries {active : List Identity} {lead : String} {depth : Nat}
    {entries : List Entry}
    (hComplete : IsComplete (view.drawEntries options active lead depth entries))
    {entry : Entry} (hEntry : entry ∈ entries) :
    ∃ isLast, .ok (.ofEntry lead depth entry isLast) ∈
        view.drawEntries options active lead depth entries ∧
      (options.descends entry depth = true →
        view.drawInside options active entry.path (lead ++ Guide.below isLast) (depth + 1) ⊆
          view.drawEntries options active lead depth entries) := by
  induction entries with
  | nil => simp at hEntry
  | cons first rest ih =>
      rw [drawEntries_cons, isComplete_ok_cons, isComplete_followedBy] at hComplete
      rw [drawEntries_cons, hComplete.1.followedBy_eq]
      rcases List.mem_cons.1 hEntry with rfl | hEntry
      · refine ⟨rest.isEmpty, List.mem_cons_self, ?_⟩
        intro hDescends
        rw [if_pos hDescends]
        exact List.subset_cons_of_subset _ (List.subset_append_left _ _)
      · obtain ⟨isLast, hLine, hInside⟩ := ih hComplete.2 hEntry
        refine ⟨isLast, List.mem_cons_of_mem _ (List.mem_append_right _ hLine), ?_⟩
        intro hDescends
        exact List.Subset.trans (hInside hDescends)
          (List.subset_cons_of_subset _ (List.subset_append_right _ _))

/-- A line among those of some entries is that of one of them, or it is inside one. -/
theorem exists_of_mem_drawEntries {active : List Identity} {lead : String} {depth : Nat}
    {entries : List Entry} {line : Line}
    (hLine : .ok line ∈ view.drawEntries options active lead depth entries) :
    ∃ entry ∈ entries, (∃ isLast, line = .ofEntry lead depth entry isLast) ∨
      options.descends entry depth = true ∧ ∃ below,
        .ok line ∈ view.drawInside options active entry.path below (depth + 1) := by
  induction entries with
  | nil => simp [drawEntries_nil] at hLine
  | cons first rest ih =>
      rw [drawEntries_cons, List.mem_cons, Except.ok.injEq] at hLine
      rcases hLine with rfl | hLine
      · exact ⟨first, List.mem_cons_self, Or.inl ⟨_, rfl⟩⟩
      · rcases mem_followedBy hLine with hLine | hLine
        · split at hLine
          · next hDescends =>
              exact ⟨first, List.mem_cons_self, Or.inr ⟨hDescends, _, hLine⟩⟩
          · simp at hLine
        · obtain ⟨entry, hEntry, hShown⟩ := ih hLine
          exact ⟨entry, List.mem_cons_of_mem _ hEntry, hShown⟩

/-- What is drawn inside a directory is complete only if it opens. -/
theorem exists_of_isComplete_drawInside {active : List Identity} {path : Path} {lead : String}
    {depth : Nat} (hComplete : IsComplete (view.drawInside options active path lead depth)) :
    ∃ opened, view.openDirectory options active path = .ok opened := by
  cases hOpen : view.openDirectory options active path with
  | error error =>
      rw [drawInside_of_error hOpen] at hComplete
      exact absurd hComplete not_isComplete_error
  | ok opened => exact ⟨opened, rfl⟩

/-- What a directory lists is what is drawn of it, in some order. -/
theorem mem_of_openDirectory {active : List Identity} {path : Path} {identity : Identity}
    {arranged entries : List Entry}
    (hOpen : view.openDirectory options active path = .ok (identity, arranged))
    (hEntries : view.entries path = .ok entries) (entry : Entry) :
    entry ∈ arranged ↔ entry ∈ entries := by
  obtain ⟨-, -, listed, hListed, rfl⟩ := openDirectory_eq_ok_iff.1 hOpen
  cases hListed.symm.trans hEntries
  exact (Entry.arrange_perm _ _ _).mem_iff

/-- Whether a drawing shows a reached entry: its line is there, and if the entry is to be entered,
all that is drawn inside it. -/
def Shows (view : View) (options : DrawOptions) (drawing : Drawing) (around : List Path)
    (entry : Entry) : Prop :=
  ∃ active lead isLast, view.AreIdentities active around ∧
    .ok (.ofEntry lead around.length entry isLast) ∈ drawing ∧
    (options.descends entry around.length = true →
      view.drawInside options active entry.path (lead ++ Guide.below isLast) (around.length + 1) ⊆
        drawing)

/-- A complete drawing that has all that is drawn inside a directory shows what is in it. -/
theorem shows_of_subset {drawing : Drawing} {active : List Identity} {around : List Path}
    {path : Path} {lead : String} (hComplete : IsComplete drawing)
    (hActive : view.AreIdentities active around)
    (hInside : view.drawInside options active path lead (around.length + 1) ⊆ drawing)
    {entries : List Entry} (hEntries : view.entries path = .ok entries) {entry : Entry}
    (hEntry : entry ∈ entries) : view.Shows options drawing (path :: around) entry := by
  have hPart := hComplete.subset hInside
  obtain ⟨⟨identity, arranged⟩, hOpen⟩ := exists_of_isComplete_drawInside hPart
  rw [drawInside_of_ok hOpen] at hInside hPart
  obtain ⟨isLast, hLine, hBelow⟩ :=
    mem_drawEntries hPart ((mem_of_openDirectory hOpen hEntries entry).2 hEntry)
  refine ⟨identity :: active, lead, isLast, ?_, hInside hLine, ?_⟩
  · exact hActive.cons (openDirectory_eq_ok_iff.1 hOpen).1
  · intro hDescends
    exact List.Subset.trans (hBelow hDescends) hInside

/-- Unless nothing is to be shown, a drawing is that of what is inside the root. -/
theorem draw_eq_drawInside {identity : Identity} (hRoot : view.directory root = .ok identity)
    (hLimit : options.depthLimit ≠ some 0) :
    view.draw options root = view.drawInside options [] root "" 1 := by
  simp only [draw, hRoot, hLimit, ↓reduceIte]

theorem exists_of_isComplete_draw (hComplete : IsComplete (view.draw options root)) :
    ∃ identity, view.directory root = .ok identity := by
  cases hRoot : view.directory root with
  | error error =>
      simp only [draw, hRoot] at hComplete
      exact absurd hComplete not_isComplete_error
  | ok identity => exact ⟨identity, rfl⟩

/-- A complete drawing shows all that is reached. -/
theorem shows_of_reached (hComplete : IsComplete (view.draw options root)) {around : List Path}
    {entry : Entry} (hReached : view.Reached options root around entry) :
    view.Shows options (view.draw options root) around entry := by
  induction hReached with
  | inRoot hLimit hEntries hEntry =>
      obtain ⟨identity, hRoot⟩ := exists_of_isComplete_draw hComplete
      have hDraw := draw_eq_drawInside hRoot hLimit
      exact shows_of_subset hComplete areIdentities_nil (by rw [hDraw]; exact List.Subset.refl _)
        hEntries hEntry
  | inEntered _ hDescends hEntries hEntry ih =>
      obtain ⟨active, lead, isLast, hActive, -, hInside⟩ := ih
      exact shows_of_subset hComplete hActive (hInside hDescends) hEntries hEntry

/-- What is drawn inside a directory that opens is complete if all directories open below it. -/
theorem isComplete_drawInside (hOpens : ∀ around directory,
      view.Listed options root around directory → view.Opens around directory)
    (active : List Identity) (path : Path) (lead : String) (depth : Nat) {around : List Path}
    (hActive : view.AreIdentities active around) (hDepth : depth = around.length + 1)
    (hListed : view.Listed options root around path) :
    IsComplete (view.drawInside options active path lead depth) := by
  induction active, path, lead, depth using drawInside.induct view options generalizing around with
  | case1 active path lead depth error hOpen =>
      obtain ⟨opened, hOther⟩ := (opens_iff_openDirectory hActive).1 (hOpens around path hListed)
      cases hOpen.symm.trans hOther
  | case2 active path lead depth identity arranged hOpen ih =>
      obtain ⟨hDirectory, -, entries, hEntries, -⟩ := openDirectory_eq_ok_iff.1 hOpen
      subst hDepth
      rw [drawInside_of_ok hOpen]
      apply isComplete_drawEntries
      intro entry hEntry hDescends below
      have hReached :=
        hListed.reached hEntries ((mem_of_openDirectory hOpen hEntries entry).1 hEntry)
      exact ih entry below (hActive.cons hDirectory) rfl (.entered hReached hDescends)

/-- A drawing is complete exactly if all directories open that are to be listed. -/
theorem isComplete_draw_iff :
    IsComplete (view.draw options root) ↔ view.AllOpen options root := by
  constructor
  · intro hComplete
    obtain ⟨identity, hRoot⟩ := exists_of_isComplete_draw hComplete
    refine ⟨⟨identity, hRoot⟩, ?_⟩
    intro around directory hListed
    cases hListed with
    | root hLimit =>
        rw [draw_eq_drawInside hRoot hLimit] at hComplete
        exact (opens_iff_openDirectory areIdentities_nil).2
          (exists_of_isComplete_drawInside hComplete)
    | entered hReached hDescends =>
        obtain ⟨active, lead, isLast, hActive, -, hInside⟩ := shows_of_reached hComplete hReached
        exact (opens_iff_openDirectory hActive).2
          (exists_of_isComplete_drawInside (hComplete.subset (hInside hDescends)))
  · rintro ⟨⟨identity, hRoot⟩, hOpens⟩
    by_cases hLimit : options.depthLimit = some 0
    · simp only [draw, hRoot, hLimit, ↓reduceIte]
      exact isComplete_nil
    · rw [draw_eq_drawInside hRoot hLimit]
      exact isComplete_drawInside hOpens [] root "" 1 areIdentities_nil rfl (.root hLimit)

/-- A line inside a listed directory is that of a reached entry. -/
theorem exists_reached_of_mem_drawInside (active : List Identity) (path : Path) (lead : String)
    (depth : Nat) {around : List Path} {line : Line} (hDepth : depth = around.length + 1)
    (hListed : view.Listed options root around path)
    (hLine : .ok line ∈ view.drawInside options active path lead depth) :
    ∃ around entry lead isLast, view.Reached options root around entry ∧
      line = .ofEntry lead around.length entry isLast := by
  induction active, path, lead, depth using drawInside.induct view options generalizing around with
  | case1 active path lead depth error hOpen =>
      rw [drawInside_of_error hOpen] at hLine
      simp at hLine
  | case2 active path lead depth identity arranged hOpen ih =>
      obtain ⟨hDirectory, -, entries, hEntries, -⟩ := openDirectory_eq_ok_iff.1 hOpen
      subst hDepth
      rw [drawInside_of_ok hOpen] at hLine
      obtain ⟨entry, hEntry, hShown⟩ := exists_of_mem_drawEntries hLine
      have hReached :=
        hListed.reached hEntries ((mem_of_openDirectory hOpen hEntries entry).1 hEntry)
      rcases hShown with ⟨isLast, rfl⟩ | ⟨hDescends, below, hInside⟩
      · exact ⟨path :: around, entry, lead, isLast, hReached, rfl⟩
      · exact ih entry below rfl (.entered hReached hDescends) hInside

/-- Every line of a drawing is that of a reached entry. -/
theorem exists_reached_of_mem_draw {line : Line} (hLine : .ok line ∈ view.draw options root) :
    ∃ around entry lead isLast, view.Reached options root around entry ∧
      line = .ofEntry lead around.length entry isLast := by
  cases hRoot : view.directory root with
  | error error => simp [draw, hRoot] at hLine
  | ok identity =>
      by_cases hLimit : options.depthLimit = some 0
      · simp [draw, hRoot, hLimit] at hLine
      · rw [draw_eq_drawInside hRoot hLimit] at hLine
        exact exists_reached_of_mem_drawInside [] root "" 1 rfl (.root hLimit) hLine

end View

end HostTree
