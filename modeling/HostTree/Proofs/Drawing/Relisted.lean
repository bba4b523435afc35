import HostTree.Proofs.Drawing.Restriction
import HostTree.Proofs.Entry.Arranged
import HostTree.Proofs.FileSystem.Relisted
import HostTree.Proofs.Walk.Answers
import HostTree.Proofs.Walk.Recursion

/-!
The order in which directories list their names, and what is drawn of them. Names that differ are
sorted the same in whatever order they are listed, so a walk that sorts them answers the same, down
to its failure.
-/

namespace HostTree

namespace View

variable {view other : View} {options : DrawOptions}

theorem ListsOnce.nodup_entries (hOnce : view.ListsOnce) {path : Path} {entries : List Entry}
    (hEntries : view.entries path = .ok entries) : (entries.map (·.name)).Nodup := by
  obtain ⟨listing, hList, rfl⟩ := entries_eq_ok_iff.1 hEntries
  rw [List.map_map]
  exact hOnce path listing hList

namespace Relists

theorem directory_eq (hRelists : view.Relists other) (path : Path) :
    other.directory path = view.directory path := by
  rw [View.directory, View.directory, hRelists.stat_eq]

theorem entry_eq (hRelists : view.Relists other) (directory : Path) (name : Octets)
    (kind : EntryKind) : other.entry directory name kind = view.entry directory name kind := by
  rw [entry, entry, resolvesToDirectory, resolvesToDirectory, hRelists.stat_eq]

theorem entries (hRelists : view.Relists other) (path : Path) :
    Relisted (view.entries path) (other.entries path) := by
  unfold View.entries
  simp only [hRelists.entry_eq]
  exact (hRelists.list path).map _

/-- A directory opens with the same entries if they are sorted by name. -/
theorem openDirectory_eq (hRelists : view.Relists other) (hOnce : view.ListsOnce)
    (hSort : options.sort = .name) (active : List Identity) (path : Path) :
    other.openDirectory options active path = view.openDirectory options active path := by
  have hNames : ∀ entries, view.entries path = .ok entries → (entries.map (·.name)).Nodup :=
    fun _ => hOnce.nodup_entries
  have hEntries := hRelists.entries path
  rw [openDirectory, openDirectory, hRelists.directory_eq, hSort]
  generalize view.entries path = listed at hNames hEntries ⊢
  generalize other.entries path = relisted at hEntries ⊢
  cases hEntries with
  | error error => rfl
  | listing hPerm => simp only [Entry.arrange_eq_of_perm (hNames _ rfl) hPerm]

theorem drawInside_eq (hRelists : view.Relists other) (hOnce : view.ListsOnce)
    (hSort : options.sort = .name) (active : List Identity) (path : Path) (lead : String)
    (depth : Nat) :
    other.drawInside options active path lead depth =
      view.drawInside options active path lead depth := by
  induction active, path, lead, depth using drawInside.induct view options with
  | case1 active path lead depth error hOpen =>
      have hOther := (hRelists.openDirectory_eq hOnce hSort active path).trans hOpen
      rw [drawInside_of_error hOpen, drawInside_of_error hOther]
  | case2 active path lead depth identity entries hOpen ih =>
      have hOther := (hRelists.openDirectory_eq hOnce hSort active path).trans hOpen
      have hBelow : ∀ (entry : Entry) (below : String),
          other.drawInside options (identity :: active) entry.path below (depth + 1) =
            view.drawInside options (identity :: active) entry.path below (depth + 1) := ih
      rw [drawInside_of_ok hOpen, drawInside_of_ok hOther]
      simp only [drawEntries, hBelow]

theorem draw_eq (hRelists : view.Relists other) (hOnce : view.ListsOnce)
    (hSort : options.sort = .name) (root : Path) :
    other.draw options root = view.draw options root := by
  rw [draw, draw, hRelists.directory_eq, hRelists.drawInside_eq hOnce hSort]

end Relists

end View

namespace Walk

theorem answer_eq_of_relists {view other : View} {options : DrawOptions}
    (hRelists : view.Relists other) (hOnce : view.ListsOnce) (hSort : options.sort = .name)
    (root : Path) (call : Nat) :
    (start options root).answer (fun _ => other) call =
      (start options root).answer (fun _ => view) call := by
  rw [answer_eq_draw, answer_eq_draw, hRelists.draw_eq hOnce hSort root]

/-- A walk that sorts names does not tell in which order directories list them. On two file systems
that do not change and differ in nothing but that, all calls answer the same, so a failure is met at
the same place, of the same kind and with the same path; and the whole drawings are written the same
in any style and to any output, however much it accepts. -/
theorem walk_relisted (options : DrawOptions) (root : Path) (view other : View)
    (hSort : options.sort = .name) (hOnce : view.ListsOnce) (hRelists : view.Relists other) :
    (∀ call, (start options root).answer (fun _ => other) call =
      (start options root).answer (fun _ => view) call) ∧
    (∀ (sink : Sink) style shown calls,
      sink.writeDrawing style shown ((start options root).answers (fun _ => other) calls) =
        sink.writeDrawing style shown ((start options root).answers (fun _ => view) calls)) ∧
    ∀ (sink : Sink) style shown,
      sink.writeDrawing style shown (other.draw options root) =
        sink.writeDrawing style shown (view.draw options root) := by
  have hAnswer := answer_eq_of_relists hRelists hOnce hSort root
  refine ⟨hAnswer, fun sink style shown calls => ?_, fun sink style shown => ?_⟩
  · rw [answers, answers, funext hAnswer]
  · rw [hRelists.draw_eq hOnce hSort]

/-- By name, what the link leads to comes behind the directory itself. -/
theorem answer_locked : (start .default (.ofString ".")).answer (fun _ => locked.view) 5 =
    some (.error (.permissionDenied (.ofString "./z"))) := by
  have hStart : locked.view.directory (.ofString ".") = .ok 1 := by decide
  have hRoot : locked.view.openDirectory .default [] (.ofString ".") =
      .ok (1, [entryOfLocked "." "d" .directory, entryOfLocked "." "l" .link,
        entryOfLocked "." "z" .directory]) :=
    View.openDirectory_eq_ok_iff.2 ⟨hStart, by decide,
      [entryOfLocked "." "l" .link, entryOfLocked "." "d" .directory,
        entryOfLocked "." "z" .directory], by decide,
      (Entry.arrange_of_ascends (by decide) (by decide)).symm⟩
  have hDirectory : locked.view.openDirectory .default [1]
      (entryOfLocked "." "d" .directory).path = .ok (3, [entryOfLocked "./d" "f" .file]) :=
    View.openDirectory_eq_ok_iff.2 ⟨by decide, by decide, _, by decide,
      (Entry.arrange_of_ascends (.refl _) (by decide)).symm⟩
  have hLink : locked.view.openDirectory .default [1] (entryOfLocked "." "l" .link).path =
      .ok (3, [entryOfLocked "./l" "f" .file]) :=
    View.openDirectory_eq_ok_iff.2 ⟨by decide, by decide, _, by decide,
      (Entry.arrange_of_ascends (.refl _) (by decide)).symm⟩
  have hLocked : locked.view.openDirectory .default [1] (entryOfLocked "." "z" .directory).path =
      .error (.permissionDenied (.ofString "./z")) := by decide
  rw [answer_eq_draw, View.draw_eq_drawInside hStart (by decide), View.drawInside_of_ok hRoot]
  simp only [View.drawEntries_cons, View.drawEntries_nil]
  rw [if_pos (by decide), if_pos (by decide), if_pos (by decide),
    View.drawInside_of_ok hDirectory, View.drawInside_of_ok hLink,
    View.drawInside_of_error hLocked]
  rfl

theorem walk_relisted_reversed :
    (DrawOptions.default.sort = .name ∧ locked.view.ListsOnce ∧
      locked.view.Relists locked.reversed.view) ∧
    locked.reversed.view.list (.ofString ".") ≠ locked.view.list (.ofString ".") ∧
    (start .default (.ofString ".")).answer (fun _ => locked.reversed.view) 5 =
      some (.error (.permissionDenied (.ofString "./z"))) := by
  have hRelists : locked.Relists locked.reversed := FileSystem.relists_reversed (by decide)
  refine ⟨⟨rfl, hRelists.listsOnce, hRelists.view⟩, by decide, ?_⟩
  rw [(walk_relisted .default (.ofString ".") locked.view locked.reversed.view rfl
    hRelists.listsOnce hRelists.view).1]
  exact answer_locked

end Walk

end HostTree
