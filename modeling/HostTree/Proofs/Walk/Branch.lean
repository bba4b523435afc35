import HostTree.Proofs.Line.Outline
import HostTree.Proofs.Walk.Call
import Mathlib.Order.Basic

/-!
What holds between any two calls of a walk, whatever becomes of the file system. The open frames
match the open lines: each frame has answered one of them last, and the frame inside it is a
listing, made by the very next call, of the directory that this line stands for.
-/

namespace HostTree

namespace Frame

/-- What is to be listed after the line that a frame has answered last. -/
def pending? (options : DrawOptions) (frame : Frame) : Option Descent :=
  match frame.entries[frame.shown - 1]? with
  | none => none
  | some entry => Walk.descent? options frame entry (frame.shown = frame.entries.length)

theorem pending?_showNext (options : DrawOptions) {frame : Frame} {entry : Entry}
    (hEntry : frame.entries[frame.shown]? = some entry) :
    frame.showNext.pending? options =
      Walk.descent? options frame entry (frame.shown + 1 = frame.entries.length) := by
  simp only [pending?, showNext, Nat.add_sub_cancel, hEntry]
  rfl

/-- A frame is exhausted by a line if it is the last one of its directory. -/
theorem exhausted_showNext_iff {frame : Frame} {entry : Entry}
    (hEntry : frame.entries[frame.shown]? = some entry) :
    frame.showNext.Exhausted ↔ (frame.nextLine entry).isLast = true := by
  obtain ⟨hShown, -⟩ := List.getElem?_eq_some_iff.1 hEntry
  simp only [Exhausted, showNext, isLast_nextLine, decide_eq_true_eq]
  omega

end Frame

namespace Walk

open Outline

/-- The directory that is to be listed inside the open ones, and the call that lists it: the root
in the first call, any other one in the call after its line. -/
def awaited (options : DrawOptions) (root : Path) :
    List Frame → List Numbered → Option (Descent × Nat)
  | frame :: _, (_, number) :: _ => (frame.pending? options).map (·, number + 1)
  | _, _ => if options.depthLimit = some 0 then none else some (⟨root, "", 1⟩, 0)

/-- Whether a frame is a listing of what is awaited inside the open ones. How many of its lines
have been answered makes no difference. -/
def Hangs (options : DrawOptions) (root : Path) (views : Nat → View) (stack : List Frame)
    (lines : List Numbered) (frame : Frame) : Prop :=
  ∃ descent call, awaited options root stack lines = some (descent, call) ∧
    openFrame options (views call) stack descent = .ok { frame with shown := 0 }

/-- Open frames with the lines that they have answered last, the innermost first. -/
inductive Branch (options : DrawOptions) (root : Path) (views : Nat → View) :
    List Frame → List Numbered → Prop where
  | nil : Branch options root views [] []
  | cons {stack : List Frame} {lines : List Numbered} {frame : Frame} {entry : Entry}
      (hOuter : Branch options root views stack lines)
      (hHangs : Hangs options root views stack lines frame)
      (hEntry : frame.entries[frame.shown]? = some entry) (number : Nat) :
      Branch options root views (frame.showNext :: stack)
        ((frame.nextLine entry, number) :: lines)

/-- How a line comes after others. It closes some of the open lines, all of which are the last ones
of their directories, but for the one that it comes next to; and it is the next line of a directory
inside those that stay open. -/
inductive Follows (options : DrawOptions) (root : Path) (views : Nat → View)
    (lines : List Line) : Line → Prop where
  | intro {closed outer : List Numbered} {rest : List Frame} {frame : Frame} {entry : Entry}
      (hSplit : openLines lines = closed ++ outer) (hBranch : Branch options root views rest outer)
      (hHangs : Hangs options root views rest outer frame)
      (hEntry : frame.entries[frame.shown]? = some entry)
      (hClosed : ∀ line ∈ closed, frame.depth ≤ line.1.depth ∧
        (line.1.isLast = true ↔ frame.depth < line.1.depth)) :
      Follows options root views lines (frame.nextLine entry)

/-- What a walk is when it has answered lines. -/
inductive Stands (options : DrawOptions) (root : Path) (views : Nat → View) :
    List Line → Walk → Prop where
  | fresh : Stands options root views [] (start options root)
  | branch {lines : List Line} {frame : Frame} {rest : List Frame}
      (hBranch : Branch options root views (frame :: rest) (openLines lines)) :
      Stands options root views lines (running options (frame :: rest) (frame.pending? options))
  | finished {lines : List Line} : Stands options root views lines (ended options)

variable {options : DrawOptions} {root : Path} {views : Nat → View} {stack : List Frame}
  {lines : List Numbered} {frame : Frame}

theorem hangs_of_openFrame {descent : Descent} {call : Nat}
    (hAwaited : awaited options root stack lines = some (descent, call))
    (hOpen : openFrame options (views call) stack descent = .ok frame) :
    Hangs options root views stack lines frame ∧ frame.shown = 0 := by
  obtain ⟨hListing, hDirectory, hLead, hDepth, hShown⟩ := openFrame_eq_ok_iff.1 hOpen
  exact ⟨⟨descent, call, hAwaited,
    openFrame_eq_ok_iff.2 ⟨hListing, hDirectory, hLead, hDepth, rfl⟩⟩, hShown⟩

/-- There is something to list inside a frame if its last entry is entered. -/
theorem descent?_eq_some_iff {entry : Entry} {isLast : Bool} {descent : Descent} :
    descent? options frame entry isLast = some descent ↔
      options.descends entry frame.depth = true ∧
        descent = ⟨entry.path, frame.lead ++ Guide.below isLast, frame.depth + 1⟩ := by
  unfold descent?
  split
  · next hDescends => simp [hDescends, eq_comm]
  · next hDescends => simp [hDescends]

theorem enters_iff {entry : Entry} : options.enters entry = true ↔
    entry.kind = .directory ∨
      entry.kind = .link ∧ options.followLinks = true ∧ entry.targetIsDirectory = true := by
  unfold DrawOptions.enters
  cases entry.kind <;> simp

theorem allowsBelow_iff {depth : Nat} : options.allowsBelow depth = true ↔
    ∀ limit, options.depthLimit = some limit → depth < limit := by
  unfold DrawOptions.allowsBelow
  split
  · next hLimit => simp [hLimit]
  · next limit hLimit => simp [hLimit]

/-- What is entered below a line of a depth is within the limit. -/
theorem depth_lt_of_descent? {limit : Nat} {entry : Entry} {isLast : Bool}
    {descent : Descent} (hLimit : options.depthLimit = some limit)
    (hDescent : descent? options frame entry isLast = some descent) :
    frame.depth < limit ∧ descent.depth = frame.depth + 1 := by
  obtain ⟨hDescends, rfl⟩ := descent?_eq_some_iff.1 hDescent
  rw [DrawOptions.descends, Bool.and_eq_true] at hDescends
  exact ⟨allowsBelow_iff.1 hDescends.2 limit hLimit, rfl⟩

/-- The listing outside of which nothing is open is that of the root, made by the first call. -/
theorem hangs_nil_iff : Hangs options root views [] [] frame ↔
    options.depthLimit ≠ some 0 ∧
      openFrame options (views 0) [] ⟨root, "", 1⟩ = .ok { frame with shown := 0 } := by
  simp only [Hangs, awaited, Option.ite_none_left_eq_some, Option.some.injEq, Prod.mk.injEq]
  constructor
  · rintro ⟨descent, call, ⟨hLimit, rfl, rfl⟩, hOpen⟩
    exact ⟨hLimit, hOpen⟩
  · rintro ⟨hLimit, hOpen⟩
    exact ⟨_, _, ⟨hLimit, rfl, rfl⟩, hOpen⟩

/-- Any other listing is that of an entry, made by the call after its line. -/
theorem hangs_cons_iff {parent : Frame} {entry : Entry} {line : Line} {number : Nat}
    (hEntry : parent.entries[parent.shown]? = some entry) :
    Hangs options root views (parent.showNext :: stack) ((line, number) :: lines) frame ↔
      ∃ descent, descent? options parent entry (parent.shown + 1 = parent.entries.length) =
          some descent ∧
        openFrame options (views (number + 1)) (parent.showNext :: stack) descent =
          .ok { frame with shown := 0 } := by
  simp only [Hangs, awaited, Frame.pending?_showNext options hEntry, Option.map_eq_some_iff,
    Prod.mk.injEq]
  constructor
  · rintro ⟨descent, call, ⟨_, hDescent, rfl, rfl⟩, hOpen⟩
    exact ⟨_, hDescent, hOpen⟩
  · rintro ⟨descent, hDescent, hOpen⟩
    exact ⟨descent, number + 1, ⟨descent, hDescent, rfl, rfl⟩, hOpen⟩

theorem Branch.length_eq (hBranch : Branch options root views stack lines) :
    stack.length = lines.length := by
  induction hBranch with
  | nil => rfl
  | cons _ _ _ _ ih => rw [List.length_cons, List.length_cons, ih]

/-- A frame is one step deeper than there are frames around it. -/
theorem Hangs.depth_eq (hHangs : Hangs options root views stack lines frame)
    (hBranch : Branch options root views stack lines) : frame.depth = stack.length + 1 := by
  induction hBranch generalizing frame with
  | nil =>
      obtain ⟨-, hOpen⟩ := hangs_nil_iff.1 hHangs
      exact (openFrame_eq_ok_iff.1 hOpen).2.2.2.1
  | cons hOuter hParent hEntry number ih =>
      obtain ⟨descent, hDescent, hOpen⟩ := (hangs_cons_iff hEntry).1 hHangs
      obtain ⟨-, -, -, hDepth, -⟩ := openFrame_eq_ok_iff.1 hOpen
      obtain ⟨-, rfl⟩ := descent?_eq_some_iff.1 hDescent
      rw [List.length_cons, ← ih hParent]
      exact hDepth

/-- The guides in front of a frame's lines are those of the lines around them. -/
theorem Hangs.lead_eq (hHangs : Hangs options root views stack lines frame)
    (hBranch : Branch options root views stack lines) :
    frame.lead = String.join (lines.reverse.map (Guide.below ·.1.isLast)) := by
  induction hBranch generalizing frame with
  | nil =>
      obtain ⟨-, hOpen⟩ := hangs_nil_iff.1 hHangs
      exact (openFrame_eq_ok_iff.1 hOpen).2.2.1
  | cons hOuter hParent hEntry number ih =>
      obtain ⟨descent, hDescent, hOpen⟩ := (hangs_cons_iff hEntry).1 hHangs
      obtain ⟨-, -, hLead, -⟩ := openFrame_eq_ok_iff.1 hOpen
      obtain ⟨-, rfl⟩ := descent?_eq_some_iff.1 hDescent
      rw [List.reverse_cons, List.map_append, String.join_append, ← ih hParent]
      simpa using hLead

/-- A directory is listed only if it is none of those that are open around it. -/
theorem Hangs.identity_notMem (hHangs : Hangs options root views stack lines frame) :
    frame.identity ∉ stack.map (·.identity) := by
  obtain ⟨descent, call, hAwaited, hOpen⟩ := hHangs
  exact (View.openDirectory_eq_ok_iff.1 (openFrame_eq_ok_iff.1 hOpen).1).2.1

/-- The open directories differ from each other. -/
theorem Branch.nodup_identities (hBranch : Branch options root views stack lines) :
    (stack.map (·.identity)).Nodup := by
  induction hBranch with
  | nil => exact List.nodup_nil
  | cons hOuter hHangs hEntry number ih => exact List.nodup_cons.2 ⟨hHangs.identity_notMem, ih⟩

theorem Branch.stepped (hBranch : Branch options root views stack lines) : Stepped lines := by
  induction hBranch with
  | nil => trivial
  | cons hOuter hHangs hEntry number ih =>
      refine ⟨?_, ih⟩
      rw [← hOuter.length_eq]
      exact hHangs.depth_eq hOuter

/-- Frames that are exhausted have answered the last lines of their directories. -/
theorem Branch.close {closed rest : List Frame}
    (hBranch : Branch options root views (closed ++ rest) lines)
    (hClosed : ∀ frame ∈ closed, frame.Exhausted) :
    ∃ inner outer, lines = inner ++ outer ∧ Branch options root views rest outer ∧
      ∀ line ∈ inner, line.1.isLast = true ∧ rest.length < line.1.depth := by
  induction closed generalizing lines with
  | nil => exact ⟨[], lines, rfl, hBranch, by simp⟩
  | cons frame closed ih =>
      cases hBranch with
      | cons hOuter hHangs hEntry number =>
          obtain ⟨inner, outer, rfl, hRest, hInner⟩ :=
            ih hOuter fun other hOther => hClosed other (List.mem_cons_of_mem _ hOther)
          refine ⟨_ :: inner, outer, rfl, hRest, List.forall_mem_cons.2 ⟨⟨?_, ?_⟩, hInner⟩⟩
          · exact (Frame.exhausted_showNext_iff hEntry).1 (hClosed _ List.mem_cons_self)
          · have hDepth := hHangs.depth_eq hOuter
            rw [List.append_eq, List.length_append] at hDepth
            simp only [Frame.depth_nextLine, hDepth]
            omega

/-- Where all frames are exhausted, all open lines are the last ones of their directories. -/
theorem Branch.isLast_of_exhausted (hBranch : Branch options root views stack lines)
    (hStack : ∀ frame ∈ stack, frame.Exhausted) : ∀ line ∈ lines, line.1.isLast = true := by
  rw [← List.append_nil stack] at hBranch
  obtain ⟨inner, outer, rfl, hOuter, hInner⟩ := hBranch.close hStack
  cases hOuter
  intro line hLine
  rw [List.append_nil] at hLine
  exact (hInner line hLine).1

/-- A line that follows others is inside of the lines that stay open. -/
theorem Follows.nested {earlier : List Line} {line : Line} (hEarlier : Nested earlier)
    (hFollows : Follows options root views earlier line) : Nested (earlier ++ [line]) := by
  cases hFollows with
  | intro hSplit hBranch hHangs hEntry hClosed =>
      have hDepth := hHangs.depth_eq hBranch
      rw [hBranch.length_eq] at hDepth
      refine .append hEarlier ?_ ?_
      · rw [Frame.depth_nextLine]
        omega
      · rw [Frame.depth_nextLine, hSplit, List.length_append]
        omega

theorem Stands.options_eq {walk : Walk} {earlier : List Line}
    (hStands : Stands options root views earlier walk) : walk.options = options := by
  cases hStands with
  | fresh => rfl
  | branch => rfl
  | finished => rfl

/-- The frames in which a call of a run looks for its line: those that were open, and inside them
the listing of what was awaited, if there was anything. -/
theorem Stands.opened_eq_ok {walk : Walk} {earlier : List Line}
    (hStands : Stands options root views earlier walk) (hDone : walk.done = false)
    (hOpened : walk.opened (views earlier.length) = .ok stack) :
    Branch options root views stack (openLines earlier) ∨
      ∃ frame outer, stack = frame :: outer ∧ frame.shown = 0 ∧
        Branch options root views outer (openLines earlier) ∧
        Hangs options root views outer (openLines earlier) frame := by
  cases hStands with
  | finished => cases hDone
  | fresh =>
      rw [opened_start, openRoot] at hOpened
      split at hOpened
      · simp at hOpened
      · split at hOpened
        · cases hOpened
          exact Or.inl .nil
        · next hLimit =>
            obtain ⟨frame, hOpen, rfl⟩ := exists_of_map_eq_ok hOpened
            have hAwaited : awaited options root [] [] = some (⟨root, "", 1⟩, 0) := by
              simp [awaited, hLimit]
            obtain ⟨hHangs, hShown⟩ := hangs_of_openFrame hAwaited hOpen
            exact Or.inr ⟨frame, [], rfl, hShown, .nil, hHangs⟩
  | @branch _ frame rest hBranch =>
      generalize hPending : frame.pending? options = pending at hOpened
      cases pending with
      | none =>
          cases hOpened
          exact Or.inl hBranch
      | some descent =>
          rw [opened_running_some] at hOpened
          obtain ⟨inner, hOpen, rfl⟩ := exists_of_map_eq_ok hOpened
          have hAwaited : awaited options root (frame :: rest) (openLines earlier) =
              some (descent, earlier.length) := by
            generalize hLines : openLines earlier = lines at hBranch
            cases hBranch with
            | cons =>
                rw [awaited, hPending, number_of_openLines_eq_cons hLines]
                rfl
          obtain ⟨hHangs, hShown⟩ := hangs_of_openFrame hAwaited hOpen
          exact Or.inr ⟨inner, frame :: rest, rfl, hShown, hBranch, hHangs⟩

/-- The next line of a frame follows the lines before it if the frames inside that frame are
exhausted. -/
theorem follows_of_branch {earlier : List Line} {closed rest : List Frame} {entry : Entry}
    (hBranch : Branch options root views (closed ++ frame :: rest) (openLines earlier))
    (hClosed : ∀ frame ∈ closed, frame.Exhausted)
    (hEntry : frame.entries[frame.shown]? = some entry) :
    ∃ inner outer, openLines earlier = inner ++ outer ∧ Branch options root views rest outer ∧
      Hangs options root views rest outer frame ∧
      ∀ line ∈ inner, frame.depth ≤ line.1.depth ∧
        (line.1.isLast = true ↔ frame.depth < line.1.depth) := by
  obtain ⟨inner, outer, hSplit, hRest, hInner⟩ := hBranch.close hClosed
  generalize hFrames : frame :: rest = frames at hRest hInner
  cases hRest with
  | nil => simp at hFrames
  | @cons _ outer parent shown hOuter hHangs hShown number =>
      obtain ⟨rfl, rfl⟩ := List.cons.inj hFrames
      have hDepth := hHangs.depth_eq hOuter
      refine ⟨inner ++ [(parent.nextLine shown, number)], outer, by simp [hSplit], hOuter, hHangs,
        ?_⟩
      intro line hLine
      rcases List.mem_append.1 hLine with hLine | hLine
      · obtain ⟨hLast, hLt⟩ := hInner line hLine
        simp only [List.length_cons] at hLt
        simp only [Frame.depth_showNext, hLast, true_iff]
        omega
      · -- The frame's own line before this one is not its last.
        obtain rfl := List.mem_singleton.1 hLine
        have hMore : ¬ parent.showNext.Exhausted := by
          rw [Frame.exhausted_iff_getElem?, hEntry]
          simp
        rw [Frame.exhausted_showNext_iff hShown] at hMore
        rw [Frame.depth_showNext, Frame.depth_nextLine]
        exact ⟨Nat.le_refl _, iff_of_false hMore (Nat.lt_irrefl _)⟩

/-- The frame that answers a line in a call of a run, and the open lines it is inside of. -/
theorem Stands.follows {walk : Walk} {earlier : List Line}
    (hStands : Stands options root views earlier walk) (hDone : walk.done = false)
    {closed rest : List Frame} {entry : Entry}
    (hOpened : walk.opened (views earlier.length) = .ok (closed ++ frame :: rest))
    (hClosed : ∀ frame ∈ closed, frame.Exhausted)
    (hEntry : frame.entries[frame.shown]? = some entry) :
    ∃ inner outer, openLines earlier = inner ++ outer ∧ Branch options root views rest outer ∧
      Hangs options root views rest outer frame ∧
      ∀ line ∈ inner, frame.depth ≤ line.1.depth ∧
        (line.1.isLast = true ↔ frame.depth < line.1.depth) := by
  rcases hStands.opened_eq_ok hDone hOpened with
    hBranch | ⟨listing, outer, hFrames, hShown, hBranch, hHangs⟩
  · exact follows_of_branch hBranch hClosed hEntry
  · -- The listing made by this call answers its first line, or it is empty and closed at once.
    cases closed with
    | nil =>
        obtain ⟨rfl, rfl⟩ := List.cons.inj hFrames
        exact ⟨[], openLines earlier, rfl, hBranch, hHangs, by simp⟩
    | cons first closed =>
        obtain ⟨rfl, rfl⟩ := List.cons.inj hFrames
        exact follows_of_branch hBranch
          (fun other hOther => hClosed other (List.mem_cons_of_mem _ hOther)) hEntry

theorem Stands.stepped {walk : Walk} {earlier : List Line}
    (hStands : Stands options root views earlier walk) (hDone : walk.done = false) :
    Stepped (openLines earlier) := by
  cases hStands with
  | fresh => trivial
  | branch hBranch => exact hBranch.stepped
  | finished => cases hDone

/-- What a call of a run answers and what it leaves. -/
theorem Stands.next {walk : Walk} {earlier : List Line}
    (hStands : Stands options root views earlier walk) (hDone : walk.done = false)
    {answer : Option Answer} {later : Walk}
    (hCall : Call walk (views earlier.length) answer later) :
    (∃ line, answer = some (.ok line) ∧ later.done = false ∧
      Follows options root views earlier line ∧
      Stands options root views (earlier ++ [line]) later) ∨
    (∃ error, answer = some (.error error) ∧ later = ended options) ∨
    (answer = none ∧ later = ended options ∧
      ∀ line ∈ openLines earlier, line.1.isLast = true) := by
  have hOptions := hStands.options_eq
  cases hCall with
  | @failure error hOpened => exact Or.inr (Or.inl ⟨error, rfl, by rw [hOptions]⟩)
  | @line closed rest frame entry hOpened hClosed hEntry =>
      obtain ⟨inner, outer, hSplit, hBranch, hHangs, hInner⟩ :=
        hStands.follows hDone hOpened hClosed hEntry
      refine Or.inl ⟨_, rfl, rfl, .intro hSplit hBranch hHangs hEntry hInner, ?_⟩
      have hDepth := hHangs.depth_eq hBranch
      rw [hBranch.length_eq] at hDepth
      have hOpen : openLines (earlier ++ [frame.nextLine entry]) =
          (frame.nextLine entry, earlier.length) :: outer := by
        rw [openLines_append, hSplit]
        congr 1
        exact (hSplit ▸ hStands.stepped hDone).dropWhile hDepth
      rw [hOptions, ← Frame.pending?_showNext options hEntry]
      refine .branch ?_
      rw [hOpen]
      exact .cons hBranch hHangs hEntry earlier.length
  | ending hOpened hStack =>
      refine Or.inr (Or.inr ⟨rfl, by rw [hOptions], ?_⟩)
      rcases hStands.opened_eq_ok hDone hOpened with
        hBranch | ⟨listing, outer, rfl, hShown, hBranch, hHangs⟩
      · exact hBranch.isLast_of_exhausted hStack
      · exact hBranch.isLast_of_exhausted
          fun other hOther => hStack other (List.mem_cons_of_mem _ hOther)

/-- Each of some lines follows those in front of it. -/
def History (options : DrawOptions) (root : Path) (views : Nat → View) (lines : List Line) : Prop :=
  ∀ earlier line later, lines = earlier ++ line :: later → Follows options root views earlier line

theorem History.append {earlier : List Line} {line : Line}
    (hHistory : History options root views earlier)
    (hFollows : Follows options root views earlier line) :
    History options root views (earlier ++ [line]) :=
  forall_split_append hHistory hFollows

theorem History.of_append {earlier later : List Line}
    (hHistory : History options root views (earlier ++ later)) :
    History options root views earlier := by
  intro before line after hSplit
  exact hHistory before line (after ++ later) (by simp [hSplit])

theorem History.nested {lines : List Line} (hHistory : History options root views lines) :
    Nested lines := by
  induction lines using List.reverseRecOn with
  | nil => exact .nil
  | append_singleton earlier line ih =>
      exact (hHistory earlier line [] rfl).nested (ih hHistory.of_append)

theorem lines_succ_of_ok {walk : Walk} {calls : Nat} {line : Line}
    (hAnswer : walk.answer views calls = some (.ok line)) :
    walk.lines views (calls + 1) = walk.lines views calls ++ [line] := by
  rw [Walk.lines, hAnswer]

theorem lines_succ_of_ne_ok {walk : Walk} {calls : Nat}
    (hAnswer : ∀ line, walk.answer views calls ≠ some (.ok line)) :
    walk.lines views (calls + 1) = walk.lines views calls := by
  rw [Walk.lines]
  split
  · next line hLine => exact absurd hLine (hAnswer line)
  · rfl

/-- What a call with a number answers, and what it leaves. -/
theorem Stands.call {calls : Nat}
    (hStands : Stands options root views ((start options root).lines views calls)
      ((start options root).after views calls))
    (hDone : ((start options root).after views calls).done = false)
    (hLength : ((start options root).lines views calls).length = calls) :
    (∃ line, (start options root).answer views calls = some (.ok line) ∧
      ((start options root).after views (calls + 1)).done = false ∧
      Follows options root views ((start options root).lines views calls) line ∧
      Stands options root views ((start options root).lines views calls ++ [line])
        ((start options root).after views (calls + 1))) ∨
    (∃ error, (start options root).answer views calls = some (.error error) ∧
      (start options root).after views (calls + 1) = ended options) ∨
    ((start options root).answer views calls = none ∧
      (start options root).after views (calls + 1) = ended options ∧
      ∀ line ∈ openLines ((start options root).lines views calls), line.1.isLast = true) := by
  have hCall := call_next hDone (views calls)
  rw [answer, after]
  exact hStands.next hDone (hLength.symm ▸ hCall)

/-- The lines that the calls of a run have answered, and what the walk is with them. As long as it
is not done, each call has answered one line. -/
theorem stands_after (options : DrawOptions) (root : Path) (views : Nat → View) (calls : Nat) :
    Stands options root views ((start options root).lines views calls)
        ((start options root).after views calls) ∧
      History options root views ((start options root).lines views calls) ∧
      (((start options root).after views calls).done = false →
        ((start options root).lines views calls).length = calls) := by
  induction calls with
  | zero => exact ⟨.fresh, by simp [History, Walk.lines], fun _ => rfl⟩
  | succ calls ih =>
      obtain ⟨hStands, hHistory, hLength⟩ := ih
      cases hDone : ((start options root).after views calls).done with
      | true =>
          have hNext := next_of_done hDone (views calls)
          rw [after, Walk.lines, answer, hNext]
          exact ⟨hStands, hHistory, fun hRunning => by simp [hDone] at hRunning⟩
      | false =>
          rcases hStands.call hDone (hLength hDone) with
            ⟨line, hAnswer, -, hFollows, hLater⟩ | ⟨error, hAnswer, hLater⟩ | ⟨hAnswer, hLater, -⟩
          · rw [lines_succ_of_ok hAnswer]
            refine ⟨hLater, hHistory.append hFollows, fun _ => ?_⟩
            rw [List.length_append, hLength hDone, List.length_singleton]
          · rw [lines_succ_of_ne_ok (by simp [hAnswer]), hLater]
            exact ⟨.finished, hHistory, fun hRunning => by cases hRunning⟩
          · rw [lines_succ_of_ne_ok (by simp [hAnswer]), hLater]
            exact ⟨.finished, hHistory, fun hRunning => by cases hRunning⟩

end Walk

end HostTree
