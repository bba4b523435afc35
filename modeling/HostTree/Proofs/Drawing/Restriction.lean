import HostTree.Proofs.Drawing.Completeness
import HostTree.Proofs.Drawing.Inside
import HostTree.Proofs.Line.Outline

/-!
A lower limit and links that are not followed only take lines away. Which lines stay can be read off
the lines of the wider drawing: those within the limit, and, unless links are followed, those that
are inside of no link. A failure stays as well if the narrower drawing gets to the directory at
which it arises; otherwise the narrower drawing goes on.
-/

namespace HostTree

namespace DrawOptions

/-- Whether options draw no more than others, and in the same order. -/
structure Restricts (options wider : DrawOptions) : Prop where
  sort_eq : options.sort = wider.sort
  directoriesFirst_eq : options.directoriesFirst = wider.directoriesFirst
  followLinks : options.followLinks = true → wider.followLinks = true
  depthLimit : ∀ outer, wider.depthLimit = some outer →
    ∃ inner, options.depthLimit = some inner ∧ inner ≤ outer

/-- Whether there may be lines of a depth. -/
def reaches (options : DrawOptions) (depth : Nat) : Bool :=
  match options.depthLimit with
  | none => true
  | some limit => depth ≤ limit

/-- Whether a line of a depth that comes after others is kept: it is within the limit and, unless
links are followed, inside of no link. -/
def keeps (options : DrawOptions) (earlier : List Line) (depth : Nat) : Bool :=
  options.reaches depth &&
    (options.followLinks || (Outline.ancestors earlier depth).all (·.1.kind ≠ .link))

/-- The lines that are kept of some lines that come after others. -/
def kept (options : DrawOptions) (earlier : List Line) : List Line → List Line
  | [] => []
  | line :: rest =>
    if options.keeps earlier line.depth then line :: kept options (earlier ++ [line]) rest
    else kept options (earlier ++ [line]) rest

variable {options wider : DrawOptions} {earlier : List Line}

theorem reaches_succ (options : DrawOptions) (depth : Nat) :
    options.reaches (depth + 1) = options.allowsBelow depth := by
  unfold reaches allowsBelow
  cases options.depthLimit <;> rfl

theorem reaches_one (hLimit : options.depthLimit ≠ some 0) : options.reaches 1 = true := by
  unfold reaches
  split
  · rfl
  · next limit hSome =>
      rw [hSome, ne_eq, Option.some.injEq] at hLimit
      exact decide_eq_true (Nat.one_le_iff_ne_zero.2 hLimit)

theorem reaches_of_le {depth deeper : Nat} (hDepth : depth ≤ deeper)
    (hReaches : options.reaches deeper = true) : options.reaches depth = true := by
  unfold reaches at *
  cases hLimit : options.depthLimit with
  | none => rfl
  | some limit =>
      simp only [hLimit, decide_eq_true_eq] at hReaches ⊢
      exact Nat.le_trans hDepth hReaches

theorem keeps_append_of_deeper {inside : List Line} {depth : Nat}
    (hInside : ∀ other ∈ inside, depth ≤ other.depth) :
    options.keeps (earlier ++ inside) depth = options.keeps earlier depth := by
  rw [keeps, keeps, Outline.ancestors_append_of_deeper hInside]

theorem Restricts.allowsBelow (hRestricts : options.Restricts wider) {depth : Nat}
    (hAllows : options.allowsBelow depth = true) : wider.allowsBelow depth = true := by
  unfold DrawOptions.allowsBelow at *
  cases hOuter : wider.depthLimit with
  | none => rfl
  | some outer =>
      obtain ⟨inner, hInner, hLe⟩ := hRestricts.depthLimit outer hOuter
      simp only [hInner, decide_eq_true_eq] at hAllows ⊢
      exact Nat.lt_of_lt_of_le hAllows hLe

/-- What is descended into under restricted options is under the others. -/
theorem Restricts.descends (hRestricts : options.Restricts wider) {entry : Entry} {depth : Nat}
    (hDescends : options.descends entry depth = true) : wider.descends entry depth = true := by
  simp only [DrawOptions.descends, Bool.and_eq_true] at hDescends ⊢
  obtain ⟨hEnters, hAllows⟩ := hDescends
  refine ⟨?_, hRestricts.allowsBelow hAllows⟩
  unfold DrawOptions.enters at *
  split
  · rfl
  · next hKind =>
      simp only [hKind, Bool.and_eq_true] at hEnters ⊢
      exact ⟨hRestricts.followLinks hEnters.1, hEnters.2⟩
  · next hDirectory hLink =>
      split at hEnters
      · next hKind => exact absurd hKind hDirectory
      · next hKind => exact absurd hKind hLink
      · simp at hEnters

end DrawOptions

namespace View

open Drawing DrawOptions Outline

variable {view : View} {options wider : DrawOptions} {root : Path} {earlier : List Line}

/-- Whether a walk under given options lists the directory that is listed next after some lines of
another walk: the last line is kept and entered, or there is none and the root is listed. -/
def listsNext (view : View) (options : DrawOptions) (lines : List Line) : Bool :=
  match lines.getLast? with
  | none => options.depthLimit ≠ some 0
  | some last => options.keeps lines.dropLast last.depth && view.enters options last

/-- How a drawing under restricted options comes from a wider one that stands behind other lines.
Where the wider one fails at a directory that the restricted one does not list, nothing is known of
what the restricted one goes on with. -/
inductive Prunes (view : View) (options : DrawOptions) :
    List Line → Drawing → Drawing → Prop where
  | nil {earlier : List Line} : Prunes view options earlier [] []
  | keep {earlier : List Line} {line : Line} {whole part : Drawing}
      (hKeeps : options.keeps earlier line.depth = true)
      (hRest : Prunes view options (earlier ++ [line]) whole part) :
      Prunes view options earlier (.ok line :: whole) (.ok line :: part)
  | drop {earlier : List Line} {line : Line} {whole part : Drawing}
      (hDrops : options.keeps earlier line.depth = false)
      (hRest : Prunes view options (earlier ++ [line]) whole part) :
      Prunes view options earlier (.ok line :: whole) part
  | failure {earlier : List Line} {error : TreeError} {part : Drawing}
      (hPart : view.listsNext options earlier = true → part = [.error error]) :
      Prunes view options earlier [.error error] part

theorem listsNext_append (line : Line) :
    view.listsNext options (earlier ++ [line]) =
      (options.keeps earlier line.depth && view.enters options line) := by
  simp [listsNext]

/-- Drawings behind each other are pruned one by one, as long as the first one does not fail. -/
theorem Prunes.followedBy {first firstPart later laterPart : Drawing}
    (hFirst : Prunes view options earlier first firstPart)
    (hLater : IsComplete first → Prunes view options (earlier ++ first.lines) later laterPart) :
    Prunes view options earlier (first.followedBy later) (firstPart.followedBy laterPart) := by
  induction hFirst with
  | nil => simpa using hLater isComplete_nil
  | keep hKeeps hRest ih =>
      refine .keep hKeeps (ih fun hComplete => ?_)
      simpa using hLater (isComplete_ok_cons.2 hComplete)
  | drop hDrops hRest ih =>
      refine .drop hDrops (ih fun hComplete => ?_)
      simpa using hLater (isComplete_ok_cons.2 hComplete)
  | failure hPart =>
      refine .failure fun hLists => ?_
      rw [hPart hLists, error_followedBy]

/-- Nothing is left of a drawing of which no line is kept. -/
theorem prunes_nil {whole : Drawing} (hEnds : EndsAtError whole)
    (hNext : view.listsNext options earlier = false)
    (hDrops : ∀ before line after, whole.lines = before ++ line :: after →
      options.keeps (earlier ++ before) line.depth = false) :
    Prunes view options earlier whole [] := by
  induction whole generalizing earlier with
  | nil => exact .nil
  | cons answer rest ih =>
      cases answer with
      | error error =>
          rw [hEnds [] error rest rfl]
          exact .failure fun hLists => by simp [hNext] at hLists
      | ok line =>
          have hLine : options.keeps earlier line.depth = false := by
            simpa using hDrops [] line (Drawing.lines rest) rfl
          refine .drop hLine (ih hEnds.of_cons ?_ ?_)
          · rw [listsNext_append, hLine, Bool.false_and]
          · intro before other after hSplit
            have hOther := hDrops (line :: before) other after (by simp [hSplit])
            rwa [List.append_assoc]

/-- A line that is entered leaves what is directly below it to be kept. -/
theorem keeps_below {line : Line} (hPositive : 0 < line.depth)
    (hKeeps : options.keeps earlier line.depth = true)
    (hEnters : view.enters options line = true) :
    options.keeps (earlier ++ [line]) (line.depth + 1) = true := by
  simp only [enters, Bool.and_eq_true, Bool.or_eq_true, decide_eq_true_eq] at hEnters
  simp only [keeps, Bool.and_eq_true, Bool.or_eq_true] at hKeeps ⊢
  rw [reaches_succ, ancestors_append_below earlier hPositive]
  refine ⟨hEnters.2, ?_⟩
  rcases hEnters.1 with hDirectory | ⟨⟨-, hFollow⟩, -⟩
  · rw [List.all_append, Bool.and_eq_true]
    exact hKeeps.2.imp_right fun hAround => ⟨hAround, by simp [hDirectory]⟩
  · exact Or.inl hFollow

/-- What is inside of a line is dropped if only the wider options enter the line. -/
theorem not_keeps_inside (hRestricts : options.Restricts wider) {line : Line}
    (hPositive : 0 < line.depth) (hWider : view.enters wider line = true)
    (hEnters : view.enters options line = false) {inside : List Line}
    (hInside : ∀ other ∈ inside, line.depth < other.depth) {depth : Nat}
    (hDepth : line.depth < depth) :
    options.keeps (earlier ++ [line] ++ inside) depth = false := by
  have hAround := mem_ancestors_of_deeper earlier hPositive hInside hDepth
  rw [← Bool.not_eq_true]
  intro hKeeps
  simp only [keeps, Bool.and_eq_true, Bool.or_eq_true, List.all_eq_true, decide_eq_true_eq]
    at hKeeps
  -- The limit allows to enter the line, so it must be a link that is not followed.
  have hAllows : options.allowsBelow line.depth = true := by
    rw [← reaches_succ]
    exact reaches_of_le hDepth hKeeps.1
  simp only [enters, hAllows, Bool.and_true, Bool.or_eq_false_iff, decide_eq_false_iff_not]
    at hEnters
  simp only [enters, hRestricts.allowsBelow hAllows, Bool.and_true, Bool.or_eq_true,
    Bool.and_eq_true, decide_eq_true_eq, hEnters.1, false_or] at hWider
  rcases hKeeps.2 with hFollow | hNoLink
  · simp [hWider.1.1, hWider.2, hFollow] at hEnters
  · exact hNoLink _ hAround hWider.1.1

/-- The entries of a directory whose lines are kept are drawn alike, and what is inside of them is
pruned. -/
theorem prunes_drawEntries (hRestricts : options.Restricts wider) {active : List Identity}
    {lead : String} {depth : Nat} (hPositive : 0 < depth) {entries : List Entry}
    (hEntries : ∀ entry ∈ entries, view.IsEntry entry)
    (hInside : ∀ (entry : Entry) below (earlier : List Line),
      options.keeps earlier (depth + 1) = true →
      Prunes view options earlier
        (view.drawInside wider active entry.path below (depth + 1))
        (view.drawInside options active entry.path below (depth + 1)))
    (hKeeps : options.keeps earlier depth = true) :
    Prunes view options earlier (view.drawEntries wider active lead depth entries)
      (view.drawEntries options active lead depth entries) := by
  induction entries generalizing earlier with
  | nil => exact .nil
  | cons entry rest ih =>
      rw [List.forall_mem_cons] at hEntries
      rw [drawEntries_cons, drawEntries_cons]
      refine .keep hKeeps (Prunes.followedBy ?_ fun hComplete => ?_)
      · have hEnters (given : DrawOptions) :
            view.enters given (.ofEntry lead depth entry rest.isEmpty) =
              given.descends entry depth :=
          enters_ofEntry hEntries.1 lead depth rest.isEmpty
        by_cases hDescends : options.descends entry depth = true
        · rw [if_pos hDescends, if_pos (hRestricts.descends hDescends)]
          rw [← hEnters options] at hDescends
          exact hInside entry _ _ (keeps_below hPositive hKeeps hDescends)
        · rw [if_neg hDescends]
          split
          · next hWider =>
              rw [Bool.not_eq_true, ← hEnters options] at hDescends
              rw [← hEnters wider] at hWider
              refine prunes_nil (view.endsAtError_drawInside wider _ _ _ _) ?_ ?_
              · rw [listsNext_append, hDescends, Bool.and_false]
              · intro before line after hSplit
                have hDeeper : ∀ other ∈ before ++ line :: after, depth < other.depth := by
                  intro other hOther
                  rw [← hSplit, mem_lines] at hOther
                  exact le_depth_of_mem_drawInside hOther
                refine not_keeps_inside hRestricts hPositive hWider hDescends ?_ ?_
                · exact fun other hOther => hDeeper other (List.mem_append_left _ hOther)
                · exact hDeeper line (by simp)
          · exact .nil
      · -- The lines in between are not less deep, so they are not around what comes after them.
        apply ih hEntries.2
        rw [List.append_assoc, keeps_append_of_deeper, hKeeps]
        intro other hOther
        rcases List.mem_append.1 hOther with hOther | hOther
        · rw [List.mem_singleton.1 hOther]
          exact Nat.le_refl depth
        · split at hOther
          · rw [mem_lines] at hOther
            exact Nat.le_of_succ_le (le_depth_of_mem_drawInside hOther)
          · simp at hOther

theorem openDirectory_of_restricts (hRestricts : options.Restricts wider) (active : List Identity)
    (path : Path) :
    view.openDirectory options active path = view.openDirectory wider active path := by
  rw [openDirectory, openDirectory, hRestricts.sort_eq, hRestricts.directoriesFirst_eq]

theorem prunes_drawInside (hRestricts : options.Restricts wider) (active : List Identity)
    (path : Path) (lead : String) (depth : Nat) (hPositive : 0 < depth)
    (hKeeps : options.keeps earlier depth = true) :
    Prunes view options earlier (view.drawInside wider active path lead depth)
      (view.drawInside options active path lead depth) := by
  induction active, path, lead, depth using drawInside.induct view wider generalizing earlier with
  | case1 active path lead depth error hOpen =>
      have hSame := (openDirectory_of_restricts hRestricts active path).trans hOpen
      rw [drawInside_of_error hOpen, drawInside_of_error hSame]
      exact .failure fun _ => rfl
  | case2 active path lead depth identity entries hOpen ih =>
      have hSame := (openDirectory_of_restricts hRestricts active path).trans hOpen
      rw [drawInside_of_ok hOpen, drawInside_of_ok hSame]
      refine prunes_drawEntries hRestricts hPositive ?_ ?_ hKeeps
      · exact fun entry hEntry => isEntry_of_openDirectory hOpen hEntry
      · exact fun entry below earlier hBelow => ih entry below (Nat.succ_pos depth) hBelow

/-- Restricted options prune the tree that the wider ones draw. -/
theorem prunes_draw (view : View) (hRestricts : options.Restricts wider) (root : Path) :
    Prunes view options [] (view.draw wider root) (view.draw options root) := by
  unfold draw
  split
  · exact .failure fun _ => rfl
  · by_cases hOuter : wider.depthLimit = some 0
    · obtain ⟨inner, hInner, hZero⟩ := hRestricts.depthLimit 0 hOuter
      rw [if_pos hOuter, if_pos (hInner.trans (congrArg some (Nat.le_zero.1 hZero)))]
      exact .nil
    · rw [if_neg hOuter]
      split
      · next hLimit =>
          refine prunes_nil (view.endsAtError_drawInside wider _ _ _ _)
            (by simp [listsNext, hLimit]) ?_
          intro before line after hSplit
          have hLine : line ∈ (view.drawInside wider [] root "" 1).lines := by simp [hSplit]
          have hDepth : 0 < line.depth := le_depth_of_mem_drawInside (mem_lines.1 hLine)
          simp only [keeps, reaches, hLimit, decide_eq_false (Nat.not_le.2 hDepth), Bool.false_and]
      · next hLimit =>
          refine prunes_drawInside hRestricts [] root "" 1 Nat.one_pos ?_
          simp [keeps, reaches_one hLimit, ancestors]

theorem Prunes.eq_kept {whole part : Drawing} (hPrunes : Prunes view options earlier whole part)
    (hComplete : IsComplete whole) : part = (options.kept earlier whole.lines).map .ok := by
  induction hPrunes with
  | nil => rfl
  | keep hKeeps hRest ih =>
      rw [lines_ok_cons, kept, if_pos hKeeps, List.map_cons, ← ih (isComplete_ok_cons.1 hComplete)]
  | drop hDrops hRest ih =>
      rw [lines_ok_cons, kept, hDrops, if_neg Bool.false_ne_true]
      exact ih (isComplete_ok_cons.1 hComplete)
  | failure => exact absurd hComplete not_isComplete_error

/-- Where the wider drawing fails, the restricted one has the lines that are kept, and after them
the failure if it gets there. -/
theorem Prunes.exists_rest {lines : List Line} {error : TreeError} {part : Drawing}
    (hPrunes : Prunes view options earlier (lines.map .ok ++ [.error error]) part) :
    ∃ rest, part = (options.kept earlier lines).map .ok ++ rest ∧
      (view.listsNext options (earlier ++ lines) = true → rest = [.error error]) := by
  induction lines generalizing earlier part with
  | nil =>
      cases hPrunes with
      | failure hPart => exact ⟨part, rfl, by simpa using hPart⟩
  | cons line lines ih =>
      cases hPrunes with
      | keep hKeeps hRest =>
          obtain ⟨rest, rfl, hLists⟩ := ih hRest
          exact ⟨rest, by simp [kept, hKeeps], by simpa using hLists⟩
      | drop hDrops hRest =>
          obtain ⟨rest, rfl, hLists⟩ := ih hRest
          exact ⟨rest, by simp [kept, hDrops], by simpa using hLists⟩

end View

namespace Walk

/-- On a file system that does not change, restricted options only take lines away. If the wider
walk completes, the other one completes with the lines that are kept, unchanged and in their order.
If the wider walk fails, which it does at the directory that it lists last, the other walk begins
with the lines that are kept; and if it lists that directory too, it ends there with the same
failure. -/
theorem walk_pruned (view : View) (options wider : DrawOptions) (root : Path)
    (hRestricts : options.Restricts wider) :
    (∀ lines, Completes view wider root lines →
      Completes view options root (options.kept [] lines)) ∧
    ∀ lines error, Fails view wider root lines error →
      error.path = Drawing.listedNext root lines ∧
      (∀ call line, (options.kept [] lines)[call]? = some line →
        (start options root).answer (fun _ => view) call = some (.ok line)) ∧
      (view.listsNext options lines = true →
        Fails view options root (options.kept [] lines) error) := by
  have hPrunes := View.prunes_draw view hRestricts root
  constructor
  · intro lines hCompletes
    have hPart := hPrunes.eq_kept hCompletes.isComplete
    rw [completes_iff.1 hCompletes, Drawing.lines_map_ok] at hPart
    exact completes_iff.2 hPart
  · intro lines error hFails
    have hLocated := View.located_draw view wider root
    rw [fails_iff.1 hFails] at hPrunes hLocated
    obtain ⟨rest, hPart, hLists⟩ := hPrunes.exists_rest
    refine ⟨hLocated.path_eq, ?_, ?_⟩
    · intro call line hLine
      have hAnswer := answer_eq_draw options root view call
      obtain ⟨hCall, -⟩ := List.getElem?_eq_some_iff.1 hLine
      rw [hAnswer, hPart, List.getElem?_append_left (by simpa using hCall), List.getElem?_map,
        hLine]
      rfl
    · intro hNext
      rw [fails_iff, hPart, hLists hNext]

/-- A current directory that holds a link `l` to the directory `d`, which holds the file `f`, and
the directory `z`, which cannot be read. -/
def locked : FileSystem :=
  ⟨[.directory .newDirectory 0 [],
    .directory .newDirectory 0
      [(Octets.ofString "l", 2), (Octets.ofString "d", 3), (Octets.ofString "z", 5)],
    .link (.ofString "d"),
    .directory .newDirectory 1 [(Octets.ofString "f", 4)],
    .file .newFile (.octets []),
    .directory ⟨false, true, true⟩ 1 []]⟩

/-- One of its entries. -/
def entryOfLocked (directory name : String) (kind : EntryKind) : Entry :=
  locked.view.entry (.ofString directory) (Octets.ofString name) kind

/-- All of it, in the order of the listings. -/
def unsorted : DrawOptions :=
  { DrawOptions.default with sort := .listing }

/-- The same without what is behind links. -/
def unfollowed : DrawOptions :=
  { unsorted with followLinks := false }

/-- The lines in front of the failure if links are followed. -/
def linesOfLocked : List Line :=
  [.ofEntry "" 1 (entryOfLocked "." "l" .link) false,
    .ofEntry Guide.continuation 2 (entryOfLocked "./l" "f" .file) true,
    .ofEntry "" 1 (entryOfLocked "." "d" .directory) false,
    .ofEntry Guide.continuation 2 (entryOfLocked "./d" "f" .file) true,
    .ofEntry "" 1 (entryOfLocked "." "z" .directory) true]

theorem fails_locked :
    Fails locked.view unsorted (.ofString ".") linesOfLocked
      (.permissionDenied (.ofString "./z")) := by
  have hRoot : locked.view.openDirectory unsorted [] (.ofString ".") =
      .ok (1, [entryOfLocked "." "l" .link, entryOfLocked "." "d" .directory,
        entryOfLocked "." "z" .directory]) := by decide
  have hLink : locked.view.openDirectory unsorted [1] (entryOfLocked "." "l" .link).path =
      .ok (3, [entryOfLocked "./l" "f" .file]) := by decide
  have hDirectory : locked.view.openDirectory unsorted [1]
      (entryOfLocked "." "d" .directory).path = .ok (3, [entryOfLocked "./d" "f" .file]) := by
    decide
  have hLocked : locked.view.openDirectory unsorted [1] (entryOfLocked "." "z" .directory).path =
      .error (.permissionDenied (.ofString "./z")) := by decide
  have hStart : locked.view.directory (.ofString ".") = .ok 1 := by decide
  rw [fails_iff, View.draw_eq_drawInside hStart (by decide), View.drawInside_of_ok hRoot]
  simp only [View.drawEntries_cons, View.drawEntries_nil]
  rw [if_pos (by decide), if_pos (by decide), if_pos (by decide), View.drawInside_of_ok hLink,
    View.drawInside_of_ok hDirectory, View.drawInside_of_error hLocked]
  rfl

/-- Without what is behind the link the walk fails in the same place, with one line less. -/
theorem walk_pruned_locked : unfollowed.Restricts unsorted ∧
    Fails locked.view unsorted (.ofString ".") linesOfLocked
      (.permissionDenied (.ofString "./z")) ∧
    Fails locked.view unfollowed (.ofString ".") (linesOfLocked.eraseIdx 1)
      (.permissionDenied (.ofString "./z")) := by
  have hRestricts : unfollowed.Restricts unsorted :=
    ⟨rfl, rfl, by decide, by simp [unsorted, DrawOptions.default]⟩
  obtain ⟨-, hFails⟩ := walk_pruned locked.view unfollowed unsorted (.ofString ".") hRestricts
  obtain ⟨-, -, hSame⟩ := hFails linesOfLocked _ fails_locked
  have hKept : unfollowed.kept [] linesOfLocked = linesOfLocked.eraseIdx 1 := by decide
  rw [hKept] at hSame
  exact ⟨hRestricts, fails_locked, hSame (by decide)⟩

end Walk

end HostTree
