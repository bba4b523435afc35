import HostTree.Proofs.Drawing.Reached

/-!
What is drawn inside a directory: lines deeper than that of the directory, and failures only where a
directory is listed, directly behind its line. Whether a line's directory is listed can be read off
the line, as long as the file system does not change.
-/

namespace HostTree

namespace Drawing

/-- Whether a drawing that begins with the listing of a directory fails, if it does, at the path of
the directory that is listed last: that of the line in front of the failure, or the first one. -/
def Located (path : Path) : Drawing → Prop
  | [] => True
  | .error error :: _ => error.path = path
  | .ok line :: rest => Located line.path rest

theorem Located.followedBy {first later : Drawing} {path : Path} (hFirst : Located path first)
    (hLater : ∀ path, Located path later) : Located path (first.followedBy later) := by
  induction first generalizing path with
  | nil => exact hLater path
  | cons answer rest ih =>
      cases answer with
      | error error => exact hFirst
      | ok line => exact ih hFirst

/-- The directory that is listed next after some lines: that of the last one, or the root. -/
def listedNext (root : Path) (lines : List Line) : Path :=
  (lines.getLast?.map (·.path)).getD root

theorem Located.path_eq {path : Path} {lines : List Line} {error : TreeError}
    (hLocated : Located path (lines.map .ok ++ [.error error])) :
    error.path = listedNext path lines := by
  induction lines generalizing path with
  | nil => exact hLocated
  | cons line rest ih =>
      have hRest := ih hLocated
      rw [hRest, listedNext, listedNext, List.getLast?_cons]
      cases rest.getLast? with
      | none => rfl
      | some last => rfl

end Drawing

namespace View

open Drawing

variable {view : View} {options : DrawOptions}

/-- Whether the directory of a line is listed after the line: it is a directory itself or a followed
link to one, and the limit allows it. -/
def enters (view : View) (options : DrawOptions) (line : Line) : Bool :=
  (line.kind = .directory ||
      (line.kind = .link && options.followLinks && view.resolvesToDirectory line.path)) &&
    options.allowsBelow line.depth

/-- Whether an entry says of a link what the link leads to. -/
def IsEntry (view : View) (entry : Entry) : Prop :=
  entry.targetIsDirectory = (entry.kind = .link && view.resolvesToDirectory entry.path)

theorem isEntry_of_openDirectory {active : List Identity} {path : Path} {identity : Identity}
    {arranged : List Entry}
    (hOpen : view.openDirectory options active path = .ok (identity, arranged)) {entry : Entry}
    (hEntry : entry ∈ arranged) : view.IsEntry entry := by
  obtain ⟨-, -, entries, hEntries, rfl⟩ := openDirectory_eq_ok_iff.1 hOpen
  obtain ⟨listing, -, rfl⟩ := entries_eq_ok_iff.1 hEntries
  rw [(Entry.arrange_perm _ _ _).mem_iff, List.mem_map] at hEntry
  obtain ⟨⟨name, kind⟩, -, rfl⟩ := hEntry
  rfl

/-- The line of an entry tells whether the entry is descended into. -/
theorem enters_ofEntry {entry : Entry} (hEntry : view.IsEntry entry) (lead : String) (depth : Nat)
    (isLast : Bool) :
    view.enters options (.ofEntry lead depth entry isLast) = options.descends entry depth := by
  unfold IsEntry at hEntry
  obtain ⟨name, path, kind, targetIsDirectory⟩ := entry
  cases kind with
  | directory => simp [enters, Line.ofEntry, DrawOptions.descends, DrawOptions.enters]
  | file => simp [enters, Line.ofEntry, DrawOptions.descends, DrawOptions.enters]
  | other => simp [enters, Line.ofEntry, DrawOptions.descends, DrawOptions.enters]
  | link =>
      simp only [decide_true, Bool.true_and] at hEntry
      simp [enters, Line.ofEntry, DrawOptions.descends, DrawOptions.enters, hEntry]

/-- Lines inside a directory are not less deep than those of its entries. -/
theorem le_depth_of_mem_drawInside {active : List Identity} {path : Path} {lead : String}
    {depth : Nat} {line : Line}
    (hLine : .ok line ∈ view.drawInside options active path lead depth) : depth ≤ line.depth := by
  induction active, path, lead, depth using drawInside.induct view options with
  | case1 active path lead depth error hOpen =>
      rw [drawInside_of_error hOpen] at hLine
      simp at hLine
  | case2 active path lead depth identity entries hOpen ih =>
      rw [drawInside_of_ok hOpen] at hLine
      obtain ⟨entry, -, ⟨isLast, rfl⟩ | ⟨-, below, hInside⟩⟩ := exists_of_mem_drawEntries hLine
      · exact Nat.le_refl depth
      · exact Nat.le_of_succ_le (ih entry below hInside)

theorem path_of_directory_error {path : Path} {error : TreeError}
    (hDirectory : view.directory path = .error error) : error.path = path := by
  unfold directory at hDirectory
  split at hDirectory
  · cases hDirectory
    exact TreeError.path_ofIo _ _
  · split at hDirectory
    · simp at hDirectory
    · cases hDirectory
      rfl

theorem path_of_openDirectory_error {active : List Identity} {path : Path} {error : TreeError}
    (hOpen : view.openDirectory options active path = .error error) : error.path = path := by
  unfold openDirectory at hOpen
  split at hOpen
  · next hDirectory =>
      cases hOpen
      exact path_of_directory_error hDirectory
  · split at hOpen
    · cases hOpen
      rfl
    · split at hOpen
      · cases hOpen
        exact TreeError.path_ofIo _ _
      · simp at hOpen

theorem located_drawEntries {active : List Identity} {lead : String} {depth : Nat}
    (hInside : ∀ (entry : Entry) below,
      Located entry.path (view.drawInside options active entry.path below (depth + 1)))
    (entries : List Entry) (path : Path) :
    Located path (view.drawEntries options active lead depth entries) := by
  induction entries generalizing path with
  | nil => trivial
  | cons entry rest ih =>
      rw [drawEntries_cons]
      refine Located.followedBy ?_ ih
      split
      · exact hInside entry _
      · trivial

theorem located_drawInside (active : List Identity) (path : Path) (lead : String) (depth : Nat) :
    Located path (view.drawInside options active path lead depth) := by
  induction active, path, lead, depth using drawInside.induct view options with
  | case1 active path lead depth error hOpen =>
      rw [drawInside_of_error hOpen]
      exact path_of_openDirectory_error hOpen
  | case2 active path lead depth identity entries hOpen ih =>
      rw [drawInside_of_ok hOpen]
      exact located_drawEntries ih entries path

/-- A drawing fails at the directory that it lists last. -/
theorem located_draw (view : View) (options : DrawOptions) (root : Path) :
    Located root (view.draw options root) := by
  unfold draw
  split
  · next hRoot => exact path_of_directory_error hRoot
  · split
    · trivial
    · exact located_drawInside [] root "" 1

end View

end HostTree
