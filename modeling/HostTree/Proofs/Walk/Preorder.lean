import HostTree.Proofs.Walk.Branch

/-!
The lines of a run are a tree in preorder, however the file system changes between the calls. What
is said of a line refers to the lines in front of it alone, and to the one call that listed the
directory it stands in.
-/

namespace HostTree

namespace Walk

open Outline

/-- The directory in which a line stands that has a line around it, or none. -/
def directoryAt (root : Path) : Option Numbered → Path
  | none => root
  | some (line, _) => line.path

/-- The call that lists this directory. -/
def listingCall : Option Numbered → Nat
  | none => 0
  | some (_, number) => number + 1

/-- Whether a line is one of a directory to enter: a directory, or a followed link that led to one
when the directory was listed in which it is. -/
def IsEntered (options : DrawOptions) (views : Nat → View) (earlier : List Line) (line : Line) :
    Prop :=
  line.kind = .directory ∨
    line.kind = .link ∧ options.followLinks = true ∧
      (views (listingCall (latest? earlier (line.depth - 1)))).resolvesToDirectory line.path = true

/-- How a line continues a tree in preorder. -/
structure Continues (options : DrawOptions) (root : Path) (views : Nat → View)
    (earlier : List Line) (line : Line) : Prop where
  depth_pos : 0 < line.depth
  /-- The first line has depth one, any other one at most one more than the line before it. -/
  depth_le : line.depth ≤ (earlier.getLast?.map (·.depth)).getD 0 + 1
  /-- Lines get deeper only below what is entered, and only within the limit. -/
  entered : ∀ before last, earlier = before ++ [last] → line.depth = last.depth + 1 →
    IsEntered options views before last ∧
      ∀ limit, options.depthLimit = some limit → last.depth < limit
  /-- There are lines of all lesser depths, and the guides are theirs. -/
  length_ancestors : (ancestors earlier line.depth).length = line.depth - 1
  lead_eq : line.lead = String.join ((ancestors earlier line.depth).map (Guide.below ·.1.isLast))
  connector_eq : line.connector = if line.isLast then Guide.corner else Guide.branch
  /-- The line is that of a name which the directory around it held when it was listed. -/
  listed : ∃ listing name,
    (views (listingCall (latest? earlier (line.depth - 1)))).list
        (directoryAt root (latest? earlier (line.depth - 1))) = .ok listing ∧
      (name, line.kind) ∈ listing ∧ line.name = Utf8.lossy name ∧
      line.path = (directoryAt root (latest? earlier (line.depth - 1))).join name

/-- Lines that are a tree in preorder. -/
structure Preorder (options : DrawOptions) (root : Path) (views : Nat → View)
    (lines : List Line) : Prop where
  continues : ∀ earlier line later, lines = earlier ++ line :: later →
    Continues options root views earlier line
  /-- After the last line of a directory and all that is below it, the next line is less deep. -/
  depth_lt : ∀ before line inside next later, lines = before ++ line :: (inside ++ next :: later) →
    (∀ other ∈ inside, line.depth < other.depth) → next.depth ≤ line.depth →
    line.isLast = true → next.depth < line.depth
  /-- After any other line the next one that is not below it stands in the same directory. -/
  depth_eq : ∀ before line inside next later, lines = before ++ line :: (inside ++ next :: later) →
    (∀ other ∈ inside, line.depth < other.depth) → next.depth ≤ line.depth →
    line.isLast = false → next.depth = line.depth ∧
      latest? (before ++ line :: inside) (next.depth - 1) = latest? before (line.depth - 1)

variable {options : DrawOptions} {root : Path} {views : Nat → View} {stack : List Frame}
  {lines : List Numbered} {frame : Frame}

/-- Where and when the directory was opened that hangs inside a branch. -/
theorem Hangs.openDirectory_eq (hHangs : Hangs options root views stack lines frame)
    (hBranch : Branch options root views stack lines) :
    (views (listingCall lines.head?)).openDirectory options (stack.map (·.identity))
      (directoryAt root lines.head?) = .ok (frame.identity, frame.entries) := by
  cases hBranch with
  | nil =>
      obtain ⟨-, hOpen⟩ := hangs_nil_iff.1 hHangs
      exact (openFrame_eq_ok_iff.1 hOpen).1
  | cons hOuter hParent hEntry number =>
      obtain ⟨descent, hDescent, hOpen⟩ := (hangs_cons_iff hEntry).1 hHangs
      obtain ⟨-, rfl⟩ := descent?_eq_some_iff.1 hDescent
      exact (openFrame_eq_ok_iff.1 hOpen).1

/-- Where and when the listing was made that hangs inside a branch. -/
theorem Hangs.entries_eq (hHangs : Hangs options root views stack lines frame)
    (hBranch : Branch options root views stack lines) :
    ∃ entries, (views (listingCall lines.head?)).entries (directoryAt root lines.head?) =
        .ok entries ∧
      frame.entries = Entry.arrange options.sort options.directoriesFirst entries :=
  (View.openDirectory_eq_ok_iff.1 (hHangs.openDirectory_eq hBranch)).2.2

/-- An entry of a listing is that of one of its names. -/
theorem Hangs.entry_eq (hHangs : Hangs options root views stack lines frame)
    (hBranch : Branch options root views stack lines) {entry : Entry}
    (hEntry : frame.entries[frame.shown]? = some entry) :
    ∃ listing name kind,
      (views (listingCall lines.head?)).list (directoryAt root lines.head?) = .ok listing ∧
        (name, kind) ∈ listing ∧
        entry =
          (views (listingCall lines.head?)).entry (directoryAt root lines.head?) name kind := by
  obtain ⟨entries, hEntries, hArranged⟩ := hHangs.entries_eq hBranch
  obtain ⟨listing, hListing, rfl⟩ := View.entries_eq_ok_iff.1 hEntries
  have hMem : entry ∈ frame.entries := List.mem_of_getElem? hEntry
  rw [hArranged, (Entry.arrange_perm _ _ _).mem_iff, List.mem_map] at hMem
  obtain ⟨⟨name, kind⟩, hName, rfl⟩ := hMem
  exact ⟨listing, name, kind, hListing, hName, rfl⟩

/-- An entry is descended into if its line is one to enter and the limit allows it. -/
theorem Hangs.descends_iff (hHangs : Hangs options root views stack lines frame)
    (hBranch : Branch options root views stack lines) {entry : Entry}
    (hEntry : frame.entries[frame.shown]? = some entry) {before : List Line}
    (hAround : latest? before (frame.depth - 1) = lines.head?) :
    options.descends entry frame.depth = true ↔
      IsEntered options views before (frame.nextLine entry) ∧
        ∀ limit, options.depthLimit = some limit → frame.depth < limit := by
  obtain ⟨listing, name, kind, -, -, hEq⟩ := hHangs.entry_eq hBranch hEntry
  rw [DrawOptions.descends, Bool.and_eq_true, enters_iff, allowsBelow_iff, IsEntered,
    Frame.depth_nextLine, hAround, Frame.kind_nextLine, Frame.path_nextLine, hEq]
  refine and_congr_left' ?_
  cases kind <;> simp [View.entry]

/-- What is listed inside a branch is the directory of its innermost line, which is entered. -/
theorem Hangs.isEntered {before : List Line} {last : Line} {number : Nat} {outer : List Numbered}
    (hHangs : Hangs options root views stack ((last, number) :: outer) frame)
    (hBranch : Branch options root views stack ((last, number) :: outer))
    (hAround : latest? before (last.depth - 1) = outer.head?) :
    IsEntered options views before last ∧
      ∀ limit, options.depthLimit = some limit → last.depth < limit := by
  cases hBranch with
  | cons hOuter hParent hEntry number =>
      obtain ⟨descent, hDescent, -⟩ := (hangs_cons_iff hEntry).1 hHangs
      obtain ⟨hDescends, -⟩ := descent?_eq_some_iff.1 hDescent
      exact (hParent.descends_iff hOuter hEntry hAround).1 hDescends

/-- A line that follows others in a run continues them in preorder. -/
theorem Follows.continues {earlier : List Line} {line : Line}
    (hFollows : Follows options root views earlier line)
    (hHistory : History options root views earlier) :
    Continues options root views earlier line := by
  have hNested := hHistory.nested
  cases hFollows with
  | @intro closed outer rest frame entry hSplit hBranch hHangs hEntry hClosed =>
      have hDepth : (frame.nextLine entry).depth = outer.length + 1 := by
        rw [← hBranch.length_eq]
        exact hHangs.depth_eq hBranch
      have hAround : latest? earlier ((frame.nextLine entry).depth - 1) = outer.head? := by
        rw [hDepth, Nat.add_sub_cancel]
        exact hNested.latest?_eq_head? hSplit
      have hAncestors : ancestors earlier (frame.nextLine entry).depth = outer.reverse := by
        rw [hDepth]
        exact hNested.ancestors_eq hSplit
      refine ⟨by omega, ?_, ?_, ?_, ?_, rfl, ?_⟩
      · rw [← hNested.length_openLines, hSplit, List.length_append]
        omega
      · rintro before last rfl hDeeper
        -- A line deeper than the one before it closes none, so it is directly inside of that one.
        have hOpen := openLines_append before last
        have hStepped := hNested.stepped
        have hAbove := hHistory.of_append.nested.latest?_of_openLines_append hStepped hOpen
        rw [hOpen] at hStepped hSplit
        have hLast : last.depth = _ + 1 := hStepped.1
        have hLength := congrArg List.length hSplit
        rw [List.length_cons, List.length_append] at hLength
        obtain rfl : closed = [] := List.eq_nil_of_length_eq_zero (by omega)
        rw [List.nil_append] at hSplit
        subst hSplit
        exact hHangs.isEntered hBranch hAbove
      · rw [hAncestors, List.length_reverse]
        omega
      · rw [hAncestors]
        exact hHangs.lead_eq hBranch
      · obtain ⟨listing, name, kind, hListing, hName, rfl⟩ := hHangs.entry_eq hBranch hEntry
        rw [hAround]
        exact ⟨listing, name, hListing, hName, rfl, rfl⟩

/-- An open line that a line closes is the last one of its directory or stands in the same one. -/
theorem Follows.isLast_iff {before inside : List Line} {line next : Line}
    (hFollows : Follows options root views (before ++ line :: inside) next)
    (hNested : Nested (before ++ line :: inside))
    (hInside : ∀ other ∈ inside, line.depth < other.depth) (hDepth : next.depth ≤ line.depth) :
    line.isLast = true ↔ next.depth < line.depth := by
  have hOpen := mem_openLines_of_deeper before hInside
  cases hFollows with
  | @intro closed outer rest frame entry hSplit hBranch hHangs hEntry hClosed =>
      have hNext := hHangs.depth_eq hBranch
      rw [hBranch.length_eq] at hNext
      change frame.depth ≤ line.depth at hDepth
      rw [hSplit, List.mem_append] at hOpen
      rcases hOpen with hOpen | hOpen
      · exact (hClosed _ hOpen).2
      · have hOuter : line.depth ≤ outer.length :=
          (hSplit ▸ hNested.stepped).suffix.depth_le _ hOpen
        omega

theorem History.preorder {lines : List Line} (hHistory : History options root views lines) :
    Preorder options root views lines := by
  have hNext : ∀ before line inside next later,
      lines = before ++ line :: (inside ++ next :: later) →
      (∀ other ∈ inside, line.depth < other.depth) → next.depth ≤ line.depth →
      (line.isLast = true ↔ next.depth < line.depth) := by
    intro before line inside next later hSplit hInside hDepth
    rw [← List.cons_append, ← List.append_assoc] at hSplit
    exact (hHistory _ next later hSplit).isLast_iff (hSplit ▸ hHistory).of_append.nested hInside
      hDepth
  refine ⟨?_, ?_, ?_⟩
  · rintro earlier line later rfl
    exact (hHistory earlier line later rfl).continues hHistory.of_append
  · intro before line inside next later hSplit hInside hDepth hLast
    exact (hNext before line inside next later hSplit hInside hDepth).1 hLast
  · intro before line inside next later hSplit hInside hDepth hLast
    have hIff := hNext before line inside next later hSplit hInside hDepth
    have hSame : next.depth = line.depth := by
      rw [hLast] at hIff
      simp only [Bool.false_eq_true, false_iff] at hIff
      omega
    refine ⟨hSame, ?_⟩
    have hPositive :=
      ((hHistory before line _ hSplit).continues (hSplit ▸ hHistory).of_append).depth_pos
    rw [hSame]
    apply latest?_append_of_deeper
    rw [List.forall_mem_cons]
    exact ⟨by omega, fun other hOther => by have := hInside other hOther; omega⟩

/-- Where a run has ended without a failure, all lines are closed. -/
theorem isLast_of_ended {calls : Nat} (hEnded : (start options root).answer views calls = none)
    (hNoError : ∀ call < calls, ∀ error,
      (start options root).answer views call ≠ some (.error error)) :
    ∀ line ∈ openLines ((start options root).lines views calls), line.1.isLast = true := by
  have hStep : ∀ call, ((start options root).after views call).done = false →
      (start options root).answer views call = none →
      ∀ line ∈ openLines ((start options root).lines views call), line.1.isLast = true := by
    intro call hDone hNone
    obtain ⟨hStands, -, hLength⟩ := stands_after options root views call
    rcases hStands.call hDone (hLength hDone) with
      ⟨line, hAnswer, -⟩ | ⟨error, hAnswer, -⟩ | ⟨-, -, hLast⟩
    · simp [hNone] at hAnswer
    · simp [hNone] at hAnswer
    · exact hLast
  induction calls with
  | zero => simp [Walk.lines, openLines_nil]
  | succ calls ih =>
      cases hDone : ((start options root).after views (calls + 1)).done with
      | false => exact hStep (calls + 1) hDone hEnded
      | true =>
          -- The end was answered before, for neither a line nor, by assumption, a failure was.
          have hNone : (start options root).answer views calls = none := by
            cases hBefore : ((start options root).after views calls).done with
            | true => rw [answer, next_of_done hBefore]
            | false =>
                obtain ⟨hStands, -, hLength⟩ := stands_after options root views calls
                rcases hStands.call hBefore (hLength hBefore) with
                  ⟨line, -, hRunning, -⟩ | ⟨error, hAnswer, -⟩ | ⟨hAnswer, -⟩
                · simp [hDone] at hRunning
                · exact absurd hAnswer (hNoError calls (Nat.lt_succ_self _) error)
                · exact hAnswer
          rw [lines_succ_of_ne_ok (by simp [hNone])]
          exact ih hNone fun call hCall => hNoError call (Nat.lt_succ_of_lt hCall)

theorem length_lines_le (walk : Walk) (views : Nat → View) (calls : Nat) :
    (walk.lines views calls).length ≤ calls := by
  induction calls with
  | zero => exact Nat.le_refl _
  | succ calls ih =>
      rw [Walk.lines]
      split
      · rw [List.length_append, List.length_singleton]
        exact Nat.succ_le_succ ih
      · exact Nat.le_succ_of_le ih

/-- A line has the number of the call that answered it. -/
theorem getElem?_lines {call calls : Nat} (hCall : call < calls) (line : Line) :
    ((start options root).lines views calls)[call]? = some line ↔
      (start options root).answer views call = some (.ok line) := by
  induction calls with
  | zero => omega
  | succ calls ih =>
      by_cases hLine : ∃ last, (start options root).answer views calls = some (.ok last)
      · obtain ⟨last, hLast⟩ := hLine
        have hLength := (stands_after options root views calls).2.2 (not_done_of_next hLast)
        rw [lines_succ_of_ok hLast]
        rcases Nat.lt_succ_iff_lt_or_eq.1 hCall with hBefore | rfl
        · rw [List.getElem?_append_left (by omega), ih hBefore]
        · rw [List.getElem?_append_right (by omega), hLength, hLast]
          simp
      · rw [not_exists] at hLine
        rw [lines_succ_of_ne_ok hLine]
        rcases Nat.lt_succ_iff_lt_or_eq.1 hCall with hBefore | rfl
        · exact ih hBefore
        · rw [List.getElem?_eq_none (length_lines_le _ _ _)]
          simp [hLine line]

/-- The lines of every run are a tree in preorder, whatever becomes of the file system between its
calls. If a run has ended without a failure, no directory misses its last line: each line that is
not the last one of its directory is followed, after all that is below it, by the next one. -/
theorem lines_preorder (options : DrawOptions) (root : Path) (views : Nat → View) (calls : Nat) :
    (∀ call < calls, ∀ line, ((start options root).lines views calls)[call]? = some line ↔
      (start options root).answer views call = some (.ok line)) ∧
    Preorder options root views ((start options root).lines views calls) ∧
    ((start options root).answer views calls = none →
      (∀ call < calls, ∀ error, (start options root).answer views call ≠ some (.error error)) →
      ∀ before line after, (start options root).lines views calls = before ++ line :: after →
        line.isLast = false → ∃ inside next later, after = inside ++ next :: later ∧
          (∀ other ∈ inside, line.depth < other.depth) ∧ next.depth = line.depth) := by
  have hPreorder := (stands_after options root views calls).2.1.preorder
  refine ⟨fun call hCall line => getElem?_lines hCall line, hPreorder, ?_⟩
  intro hEnded hNoError before line after hSplit hLast
  rcases deeper_or_exists_next line.depth after with
    hDeeper | ⟨inside, next, later, rfl, hInside, hNext⟩
  · have hOpen := mem_openLines_of_deeper before hDeeper
    rw [← hSplit] at hOpen
    have hClosed := isLast_of_ended hEnded hNoError _ hOpen
    simp [hLast] at hClosed
  · exact ⟨inside, next, later, rfl, hInside,
      (hPreorder.depth_eq before line inside next later hSplit hInside hNext hLast).1⟩

end Walk

end HostTree
