import HostTree.Proofs.Drawing.Completeness
import HostTree.Proofs.Drawing.Inside

/-!
The part of a drawing that stands below a line is the drawing of the line's own directory, moved
behind the guides of the line and down to its depth. Alone, the directory is checked against fewer
others, and the limit counts from it on; neither makes a difference to a drawing that does not fail.
-/

namespace HostTree

/-- Options for a tree that is drawn from a depth on. -/
def DrawOptions.below (options : DrawOptions) (depth : Nat) : DrawOptions :=
  { options with depthLimit := options.depthLimit.map (· - depth) }

namespace Line

/-- A line moved behind guides and down by a depth. -/
def shifted (lead : String) (depth : Nat) (line : Line) : Line :=
  { line with lead := lead ++ line.lead, depth := line.depth + depth }

/-- The line that a line of a directory's own tree becomes below the line of the directory. -/
def under (outer line : Line) : Line :=
  line.shifted (outer.lead ++ Guide.below outer.isLast) outer.depth

end Line

namespace Drawing

/-- A drawing moved behind guides and down by a depth. -/
def shifted (lead : String) (depth : Nat) (drawing : Drawing) : Drawing :=
  drawing.map (Except.map (Line.shifted lead depth))

theorem shifted_followedBy (lead : String) (depth : Nat) (first later : Drawing) :
    shifted lead depth (first.followedBy later) =
      (shifted lead depth first).followedBy (shifted lead depth later) := by
  induction first with
  | nil => rfl
  | cons answer rest ih =>
      cases answer with
      | error error => rfl
      | ok line => exact congrArg (List.cons _) ih

theorem isComplete_shifted {lead : String} {depth : Nat} {drawing : Drawing} :
    IsComplete (shifted lead depth drawing) ↔ IsComplete drawing := by
  induction drawing with
  | nil => exact Iff.rfl
  | cons answer rest ih =>
      cases answer with
      | error error => exact iff_of_false not_isComplete_error not_isComplete_error
      | ok line => exact isComplete_ok_cons.trans (ih.trans isComplete_ok_cons.symm)

theorem shifted_map_ok (lead : String) (depth : Nat) (lines : List Line) :
    shifted lead depth (lines.map .ok) = (lines.map (Line.shifted lead depth)).map .ok := by
  rw [shifted, List.map_map, List.map_map]
  rfl

end Drawing

namespace View

open Drawing

variable {view : View} {options : DrawOptions}

/-- A limit that counts from a depth on allows the same. -/
theorem descends_below (options : DrawOptions) (entry : Entry) (depth offset : Nat) :
    (options.below offset).descends entry depth = options.descends entry (depth + offset) := by
  have hAllows : (options.below offset).allowsBelow depth =
      options.allowsBelow (depth + offset) := by
    unfold DrawOptions.allowsBelow DrawOptions.below
    cases options.depthLimit with
    | none => rfl
    | some limit => exact decide_eq_decide.2 Nat.lt_sub_iff_add_lt
  rw [DrawOptions.descends, DrawOptions.descends, hAllows]
  rfl

theorem openDirectory_below {active fewer : List Identity} (hFewer : fewer ⊆ active) {path : Path}
    {identity : Identity} {entries : List Entry}
    (hOpen : view.openDirectory options active path = .ok (identity, entries)) (offset : Nat) :
    view.openDirectory (options.below offset) fewer path = .ok (identity, entries) := by
  rw [openDirectory_eq_ok_iff] at hOpen ⊢
  exact ⟨hOpen.1, fun hMem => hOpen.2.1 (hFewer hMem), hOpen.2.2⟩

theorem drawEntries_shifted {base : String} {offset : Nat} {active fewer : List Identity}
    {lead : String} {depth : Nat} {entries : List Entry}
    (hComplete :
      IsComplete (view.drawEntries options active (base ++ lead) (depth + offset) entries))
    (hInside : ∀ (entry : Entry) below,
      IsComplete (view.drawInside options active entry.path (base ++ below)
        (depth + 1 + offset)) →
      view.drawInside options active entry.path (base ++ below) (depth + 1 + offset) =
        shifted base offset
          (view.drawInside (options.below offset) fewer entry.path below (depth + 1))) :
    view.drawEntries options active (base ++ lead) (depth + offset) entries =
      shifted base offset (view.drawEntries (options.below offset) fewer lead depth entries) := by
  induction entries with
  | nil => rfl
  | cons entry rest ih =>
      rw [drawEntries_cons, isComplete_ok_cons, isComplete_followedBy, String.append_assoc,
        Nat.add_right_comm] at hComplete
      rw [drawEntries_cons, drawEntries_cons, ih hComplete.2, descends_below, String.append_assoc,
        Nat.add_right_comm]
      change _ = .ok _ :: shifted base offset (Drawing.followedBy _ _)
      rw [shifted_followedBy]
      split
      · next hDescends =>
          rw [if_pos hDescends] at hComplete
          rw [hInside entry _ hComplete.1]
          rfl
      · rfl

/-- What is drawn inside a directory at some place of a tree is what is drawn of it alone, moved to
that place. -/
theorem drawInside_shifted {base : String} {offset : Nat} (active : List Identity) (path : Path)
    (outerLead : String) (outerDepth : Nat) {lead : String} {depth : Nat} {fewer : List Identity}
    (hComplete : IsComplete (view.drawInside options active path outerLead outerDepth))
    (hLead : outerLead = base ++ lead) (hDepth : outerDepth = depth + offset)
    (hFewer : fewer ⊆ active) :
    view.drawInside options active path outerLead outerDepth =
      shifted base offset (view.drawInside (options.below offset) fewer path lead depth) := by
  induction active, path, outerLead, outerDepth using drawInside.induct view options
    generalizing lead depth fewer with
  | case1 active path outerLead outerDepth error hOpen =>
      rw [drawInside_of_error hOpen] at hComplete
      exact absurd hComplete not_isComplete_error
  | case2 active path outerLead outerDepth identity entries hOpen ih =>
      subst hLead hDepth
      rw [drawInside_of_ok hOpen] at hComplete ⊢
      rw [drawInside_of_ok (openDirectory_below hFewer hOpen offset)]
      refine drawEntries_shifted hComplete fun entry below hBelow => ?_
      rw [Nat.add_right_comm] at hBelow ⊢
      exact ih entry (base ++ below) hBelow rfl (Nat.add_right_comm ..)
        (List.cons_subset_cons identity hFewer)

/-- Whether below each line that is entered a drawing goes on with all that is inside the line's
directory, and then with nothing deeper than the line. -/
def HasBlocks (view : View) (options : DrawOptions) (drawing : Drawing) : Prop :=
  ∀ before line after, drawing = before ++ .ok line :: after → view.enters options line = true →
    ∃ active later,
      after = view.drawInside options active line.path (line.lead ++ Guide.below line.isLast)
        (line.depth + 1) ++ later ∧
      ∀ next rest, later = .ok next :: rest → next.depth ≤ line.depth

theorem hasBlocks_nil : view.HasBlocks options [] := by
  intro before line after hSplit
  simp at hSplit

/-- Blocks stay as they are in front of a drawing that begins with no deeper line. -/
theorem HasBlocks.append {first later : Drawing} (hFirst : view.HasBlocks options first)
    (hLater : view.HasBlocks options later)
    (hHead : ∀ line, .ok line ∈ first → ∀ next rest, later = .ok next :: rest →
      next.depth ≤ line.depth) : view.HasBlocks options (first ++ later) := by
  intro before line after hSplit hEnters
  rcases List.append_eq_append_iff.1 hSplit with
    ⟨inside, rfl, hBehind⟩ | ⟨inside, hInside, hBehind⟩
  · exact hLater inside line after hBehind hEnters
  · cases inside with
    | nil => exact hLater [] line after hBehind.symm hEnters
    | cons answer rest =>
        obtain ⟨rfl, rfl⟩ := List.cons.inj hBehind
        obtain ⟨active, behind, rfl, hBlock⟩ := hFirst before line rest hInside hEnters
        refine ⟨active, behind ++ later, List.append_assoc .., ?_⟩
        intro next others hNext
        cases behind with
        | nil => exact hHead line (by simp [hInside]) next others hNext
        | cons answer behind =>
            obtain ⟨rfl, -⟩ := List.cons.inj hNext
            exact hBlock next behind rfl

theorem depth_of_drawEntries_eq_cons {active : List Identity} {lead : String} {depth : Nat}
    {entries : List Entry} {line : Line} {rest : Drawing}
    (hEntries : view.drawEntries options active lead depth entries = .ok line :: rest) :
    line.depth = depth := by
  cases entries with
  | nil => simp [drawEntries_nil] at hEntries
  | cons entry others =>
      rw [drawEntries_cons, List.cons.injEq, Except.ok.injEq] at hEntries
      rw [← hEntries.1]
      rfl

theorem hasBlocks_drawEntries {active : List Identity} {lead : String} {depth : Nat}
    {entries : List Entry} (hEntries : ∀ entry ∈ entries, view.IsEntry entry)
    (hComplete : IsComplete (view.drawEntries options active lead depth entries))
    (hInside : ∀ (entry : Entry) below,
      IsComplete (view.drawInside options active entry.path below (depth + 1)) →
      view.HasBlocks options (view.drawInside options active entry.path below (depth + 1))) :
    view.HasBlocks options (view.drawEntries options active lead depth entries) := by
  induction entries with
  | nil => exact hasBlocks_nil
  | cons entry rest ih =>
      rw [List.forall_mem_cons] at hEntries
      rw [drawEntries_cons, isComplete_ok_cons, isComplete_followedBy] at hComplete
      have hRest := ih hEntries.2 hComplete.2
      have hDescends : view.enters options (.ofEntry lead depth entry rest.isEmpty) =
          options.descends entry depth := enters_ofEntry hEntries.1 lead depth rest.isEmpty
      intro before line after hSplit hEnters
      rw [drawEntries_cons, hComplete.1.followedBy_eq] at hSplit
      rcases List.cons_eq_append_iff.1 hSplit with ⟨rfl, hFirst⟩ | ⟨before, rfl, hBehind⟩
      · obtain ⟨hLine, rfl⟩ := List.cons.inj hFirst
        obtain rfl := Except.ok.inj hLine
        rw [if_pos (hDescends.symm.trans hEnters)]
        refine ⟨active, _, rfl, fun next later hNext => ?_⟩
        exact Nat.le_of_eq (depth_of_drawEntries_eq_cons hNext)
      · split at hComplete
        · next hInner =>
            rw [if_pos hInner] at hBehind
            refine (hInside entry _ hComplete.1).append hRest ?_ before line after hBehind hEnters
            intro inner hLine next others hNext
            rw [depth_of_drawEntries_eq_cons hNext]
            exact Nat.le_of_succ_le (le_depth_of_mem_drawInside hLine)
        · next hInner =>
            rw [if_neg hInner, List.nil_append] at hBehind
            exact hRest before line after hBehind hEnters

theorem hasBlocks_drawInside (active : List Identity) (path : Path) (lead : String) (depth : Nat)
    (hComplete : IsComplete (view.drawInside options active path lead depth)) :
    view.HasBlocks options (view.drawInside options active path lead depth) := by
  induction active, path, lead, depth using drawInside.induct view options with
  | case1 active path lead depth error hOpen =>
      rw [drawInside_of_error hOpen] at hComplete
      exact absurd hComplete not_isComplete_error
  | case2 active path lead depth identity entries hOpen ih =>
      rw [drawInside_of_ok hOpen] at hComplete ⊢
      exact hasBlocks_drawEntries (fun entry hEntry => isEntry_of_openDirectory hOpen hEntry)
        hComplete ih

theorem hasBlocks_draw {root : Path} (hComplete : IsComplete (view.draw options root)) :
    view.HasBlocks options (view.draw options root) := by
  obtain ⟨identity, hRoot⟩ := exists_of_isComplete_draw hComplete
  by_cases hLimit : options.depthLimit = some 0
  · have hNone : view.draw options root = [] := by simp only [draw, hRoot, hLimit, ↓reduceIte]
    rw [hNone]
    exact hasBlocks_nil
  · rw [draw_eq_drawInside hRoot hLimit] at hComplete ⊢
    exact hasBlocks_drawInside [] root "" 1 hComplete

/-- Drawn alone, the directory of a line that is entered is not cut off by the limit. -/
theorem draw_below {line : Line} (hEnters : view.enters options line = true) {identity : Identity}
    (hDirectory : view.directory line.path = .ok identity) :
    view.draw (options.below line.depth) line.path =
      view.drawInside (options.below line.depth) [] line.path "" 1 := by
  refine draw_eq_drawInside hDirectory ?_
  simp only [enters, DrawOptions.allowsBelow, Bool.and_eq_true] at hEnters
  unfold DrawOptions.below
  cases hLimit : options.depthLimit with
  | none => simp
  | some limit =>
      simp only [hLimit, decide_eq_true_eq] at hEnters
      simp only [Option.map_some, ne_eq, Option.some.injEq]
      omega

end View

namespace Walk

open Drawing

/-- On a file system that does not change, let a walk complete, and let one of its lines be entered.
Then the walk from the line's own directory, with a limit that is lower by the line's depth,
completes as well, and its lines, moved below the line, are what follows the line up to the next one
that is not deeper. -/
theorem block_is_walk (view : View) (options : DrawOptions) (root : Path)
    (before after : List Line) (line : Line)
    (hCompletes : Completes view options root (before ++ line :: after))
    (hEnters : view.enters options line = true) :
    ∃ inner, Completes view (options.below line.depth) line.path inner ∧
      after.takeWhile (line.depth < ·.depth) = inner.map line.under := by
  have hDraw := completes_iff.1 hCompletes
  rw [List.map_append, List.map_cons] at hDraw
  obtain ⟨active, later, hBlock, hLater⟩ :=
    View.hasBlocks_draw hCompletes.isComplete _ _ _ hDraw hEnters
  obtain ⟨inside, rest, rfl, hInside, rfl⟩ := List.map_eq_append_iff.1 hBlock
  have hDeeper : ∀ other ∈ inside, line.depth < other.depth := by
    intro other hOther
    apply View.le_depth_of_mem_drawInside
    rw [← hInside]
    exact List.mem_map_of_mem hOther
  have hRest : rest.takeWhile (line.depth < ·.depth) = [] := by
    cases rest with
    | nil => rfl
    | cons next others =>
        rw [List.takeWhile_cons_of_neg]
        simpa using hLater next (others.map .ok) rfl
  -- The block is what the line's directory is drawn as alone, moved below the line.
  have hComplete := isComplete_map_ok inside
  rw [hInside] at hComplete
  obtain ⟨⟨identity, entries⟩, hOpen⟩ := View.exists_of_isComplete_drawInside hComplete
  have hShifted := View.drawInside_shifted active line.path _ _ hComplete
    String.append_empty.symm (Nat.add_comm line.depth 1) (List.nil_subset active)
  rw [← View.draw_below hEnters (View.openDirectory_eq_ok_iff.1 hOpen).1] at hShifted
  rw [hShifted, isComplete_shifted] at hComplete
  obtain ⟨inner, hInner⟩ := hComplete.exists_lines
  refine ⟨inner, completes_iff.2 hInner, ?_⟩
  rw [hShifted, hInner, shifted_map_ok] at hInside
  rw [List.takeWhile_append_of_pos (by simpa using hDeeper), hRest, List.append_nil]
  exact eq_of_map_ok_eq hInside

/-- A current directory that holds the directory `d`, which holds the directory `e`, which holds the
file `f`; and next to `d` a link `l` to it. -/
def nested : FileSystem :=
  ⟨[.directory .newDirectory 0 [],
    .directory .newDirectory 0 [(Octets.ofString "l", 3), (Octets.ofString "d", 2)],
    .directory .newDirectory 1 [(Octets.ofString "e", 4)],
    .link (.ofString "d"),
    .directory .newDirectory 2 [(Octets.ofString "f", 5)],
    .file .newFile (.octets [])]⟩

/-- One of its entries. -/
def entryOfNested (directory name : String) (kind : EntryKind) : Entry :=
  nested.view.entry (.ofString directory) (Octets.ofString name) kind

/-- Three steps deep, in the order of the listings. -/
def threeDeep : DrawOptions :=
  { DrawOptions.default with sort := .listing, depthLimit := some 3 }

/-- What is inside of `d`, and so inside of `l`, behind the guides of its line. -/
def insideOfNested (outer inner : String) (isLast : Bool) : List Line :=
  [.ofEntry (Guide.below isLast) 2 (entryOfNested outer "e" .directory) true,
    .ofEntry (Guide.below isLast ++ Guide.blank) 3 (entryOfNested inner "f" .file) true]

/-- The line of the link. -/
def lineOfNested : Line :=
  .ofEntry "" 1 (entryOfNested "." "l" .link) false

theorem completes_nested : Completes nested.view threeDeep (.ofString ".")
    ([] ++ lineOfNested :: (insideOfNested "./l" "./l/e" false ++
      .ofEntry "" 1 (entryOfNested "." "d" .directory) true ::
        insideOfNested "./d" "./d/e" true)) := by
  have hRoot : nested.view.openDirectory threeDeep [] (.ofString ".") =
      .ok (1, [entryOfNested "." "l" .link, entryOfNested "." "d" .directory]) := by decide
  have hLink : nested.view.openDirectory threeDeep [1] (entryOfNested "." "l" .link).path =
      .ok (2, [entryOfNested "./l" "e" .directory]) := by decide
  have hBehindLink :
      nested.view.openDirectory threeDeep [2, 1] (entryOfNested "./l" "e" .directory).path =
        .ok (4, [entryOfNested "./l/e" "f" .file]) := by decide
  have hOuter : nested.view.openDirectory threeDeep [1] (entryOfNested "." "d" .directory).path =
      .ok (2, [entryOfNested "./d" "e" .directory]) := by decide
  have hInner :
      nested.view.openDirectory threeDeep [2, 1] (entryOfNested "./d" "e" .directory).path =
        .ok (4, [entryOfNested "./d/e" "f" .file]) := by decide
  have hStart : nested.view.directory (.ofString ".") = .ok 1 := by decide
  rw [completes_iff, View.draw_eq_drawInside hStart (by decide), View.drawInside_of_ok hRoot]
  simp only [View.drawEntries_cons, View.drawEntries_nil]
  rw [if_pos (by decide), if_pos (by decide), View.drawInside_of_ok hLink,
    View.drawInside_of_ok hOuter]
  simp only [View.drawEntries_cons, View.drawEntries_nil]
  rw [if_pos (by decide), if_pos (by decide), View.drawInside_of_ok hBehindLink,
    View.drawInside_of_ok hInner]
  rfl

/-- From the link on, two steps are left, and the same two lines are drawn without its guides. -/
theorem block_is_walk_nested :
    Completes nested.view threeDeep (.ofString ".")
      ([] ++ lineOfNested :: (insideOfNested "./l" "./l/e" false ++
        .ofEntry "" 1 (entryOfNested "." "d" .directory) true ::
          insideOfNested "./d" "./d/e" true)) ∧
    nested.view.enters threeDeep lineOfNested = true ∧
    ∃ inner, Completes nested.view (threeDeep.below 1) (.ofString "./l") inner ∧
      insideOfNested "./l" "./l/e" false = inner.map lineOfNested.under := by
  have hEnters : nested.view.enters threeDeep lineOfNested = true := by decide
  exact ⟨completes_nested, hEnters,
    block_is_walk nested.view threeDeep (.ofString ".") [] _ lineOfNested completes_nested hEnters⟩

end Walk

end HostTree
