import HostTree.Proofs.Walk.Termination
import HostTree.Proofs.Walk.Visit

/-!
The state of a walk between two calls. The root, the open directories, what is still to be listed
and whether the walk is done are fields of their own in the state, but only some of their
combinations ever occur: each open directory is the one of the entry that the frame around it has
answered last, and so is what is still to be listed.
-/

namespace HostTree

/-- Whether a directory, the guides inside it and its depth are those of the entry that a frame has
answered last. The entry is a directory or a followed link to one, and the limit allows lines below
its own. -/
def Frame.LeadsTo (options : DrawOptions) (frame : Frame) (directory : Path) (lead : String)
    (depth : Nat) : Prop :=
  ∃ entry, frame.entries[frame.shown - 1]? = some entry ∧
    (entry.kind = .directory ∨
      entry.kind = .link ∧ options.followLinks = true ∧ entry.targetIsDirectory = true) ∧
    (∀ limit, options.depthLimit = some limit → frame.depth < limit) ∧
    directory = entry.path ∧
    lead = frame.lead ++ (if frame.shown = frame.entries.length then "    " else "│   ") ∧
    depth = frame.depth + 1

namespace Walk

/-- Whether a state is one that a walk from a root may be in after a number of calls. The position
of a frame is the number of those around it. -/
structure IsReached (options : DrawOptions) (root : Path) (calls : Nat) (walk : Walk) : Prop where
  options_eq : walk.options = options
  /-- The root is there before the first call and not after it. -/
  root_eq : walk.root = if calls = 0 then some root else none
  empty_of_root : walk.root ≠ none → walk.stack = [] ∧ walk.pending = none
  empty_of_done : walk.done = true → walk.stack = [] ∧ walk.pending = none ∧ walk.root = none
  depth_eq : ∀ inside frame around, walk.stack = inside ++ frame :: around →
    frame.depth = around.length + 1
  depth_le : ∀ limit, options.depthLimit = some limit → ∀ frame ∈ walk.stack, frame.depth ≤ limit
  /-- Every frame has answered a line, and none that it does not have. -/
  shown_le : ∀ frame ∈ walk.stack, 1 ≤ frame.shown ∧ frame.shown ≤ frame.entries.length
  nodup_identities : (walk.stack.map (·.identity)).Nodup
  outermost : ∀ inside frame, walk.stack = inside ++ [frame] →
    frame.directory = root ∧ frame.lead = ""
  leadsTo : ∀ inside frame parent around, walk.stack = inside ++ frame :: parent :: around →
    parent.LeadsTo options frame.directory frame.lead frame.depth
  /-- There is something to list exactly if the innermost frame leads to it. -/
  pending_iff : ∀ descent, walk.pending = some descent ↔
    ∃ frame around, walk.stack = frame :: around ∧
      frame.LeadsTo options descent.path descent.lead descent.depth ∧
      descent.depth = walk.stack.length + 1

variable {options : DrawOptions} {root : Path} {views : Nat → View} {stack : List Frame}
  {lines : List Outline.Numbered} {frame : Frame}

/-- What is to be listed after the line of an entry is what the frame leads to then. -/
theorem leadsTo_showNext_iff {entry : Entry} {descent : Descent}
    (hEntry : frame.entries[frame.shown]? = some entry) :
    frame.showNext.LeadsTo options descent.path descent.lead descent.depth ↔
      descent? options frame entry (frame.shown + 1 = frame.entries.length) = some descent := by
  obtain ⟨path, lead, depth⟩ := descent
  rw [descent?_eq_some_iff, DrawOptions.descends, Bool.and_eq_true, enters_iff, allowsBelow_iff,
    and_assoc]
  simp only [Frame.LeadsTo, Frame.showNext, Nat.add_sub_cancel, hEntry, Option.some.injEq,
    exists_eq_left', Descent.mk.injEq, Guide.below, decide_eq_true_eq]
  exact Iff.rfl

/-- The frames around some of a branch are a branch. -/
theorem Branch.exists_around {inside around : List Frame}
    (hBranch : Branch options root views stack lines) (hStack : stack = inside ++ around) :
    ∃ outer, Branch options root views around outer := by
  subst hStack
  induction inside generalizing lines with
  | nil => exact ⟨lines, hBranch⟩
  | cons frame inside ih =>
      cases hBranch with
      | cons hOuter _ _ _ => exact ih hOuter

theorem Branch.depth_eq {around : List Frame}
    (hBranch : Branch options root views (frame :: around) lines) :
    frame.depth = around.length + 1 := by
  cases hBranch with
  | cons hOuter hHangs _ _ => exact hHangs.depth_eq hOuter

theorem Branch.shown_le (hBranch : Branch options root views stack lines) :
    ∀ frame ∈ stack, 1 ≤ frame.shown ∧ frame.shown ≤ frame.entries.length := by
  induction hBranch with
  | nil => simp
  | @cons _ _ frame _ _ _ hEntry _ ih =>
      obtain ⟨hShown, -⟩ := List.getElem?_eq_some_iff.1 hEntry
      exact List.forall_mem_cons.2 ⟨⟨Nat.le_add_left 1 frame.shown, hShown⟩, ih⟩

theorem Branch.outermost (hBranch : Branch options root views [frame] lines) :
    frame.directory = root ∧ frame.lead = "" := by
  cases hBranch with
  | cons hOuter hHangs _ _ =>
      cases hOuter
      obtain ⟨-, hOpen⟩ := hangs_nil_iff.1 hHangs
      obtain ⟨-, hDirectory, hLead, -⟩ := openFrame_eq_ok_iff.1 hOpen
      exact ⟨hDirectory, hLead⟩

/-- The frame around another one leads to it. -/
theorem Branch.leadsTo {parent : Frame} {around : List Frame}
    (hBranch : Branch options root views (frame :: parent :: around) lines) :
    parent.LeadsTo options frame.directory frame.lead frame.depth := by
  cases hBranch with
  | cons hOuter hHangs _ _ =>
      cases hOuter with
      | cons _ _ hEntry _ =>
          obtain ⟨descent, hDescent, hOpen⟩ := (hangs_cons_iff hEntry).1 hHangs
          obtain ⟨-, hDirectory, hLead, hDepth, -⟩ := openFrame_eq_ok_iff.1 hOpen
          have hLeads := (leadsTo_showNext_iff hEntry).2 hDescent
          rw [← hDirectory, ← hLead, ← hDepth] at hLeads
          exact hLeads

/-- What is to be listed inside a branch is what its innermost frame leads to. -/
theorem Branch.pending?_eq_some_iff {around : List Frame} {descent : Descent}
    (hBranch : Branch options root views (frame :: around) lines) :
    frame.pending? options = some descent ↔
      frame.LeadsTo options descent.path descent.lead descent.depth := by
  cases hBranch with
  | cons _ _ hEntry _ =>
      rw [Frame.pending?_showNext options hEntry, leadsTo_showNext_iff hEntry]

/-- A running walk whose frames are a branch. -/
theorem Branch.isReached {calls : Nat} {around : List Frame}
    (hBranch : Branch options root views (frame :: around) lines) (hCalls : calls ≠ 0) :
    IsReached options root calls
      (running options (frame :: around) (frame.pending? options)) where
  options_eq := rfl
  root_eq := (if_neg hCalls).symm
  empty_of_root hRoot := absurd rfl hRoot
  empty_of_done hDone := by cases hDone
  depth_eq := by
    intro inside inner outer hStack
    obtain ⟨_, hInner⟩ := hBranch.exists_around hStack
    exact hInner.depth_eq
  depth_le := by
    intro limit hLimit inner hMem
    obtain ⟨inside, outer, hStack⟩ := List.append_of_mem hMem
    obtain ⟨_, hInner⟩ := hBranch.exists_around hStack
    rw [hInner.depth_eq]
    exact hInner.length_le hLimit
  shown_le := hBranch.shown_le
  nodup_identities := hBranch.nodup_identities
  outermost := by
    intro inside outer hStack
    obtain ⟨_, hOuter⟩ := hBranch.exists_around hStack
    exact hOuter.outermost
  leadsTo := by
    intro inside inner parent outer hStack
    obtain ⟨_, hInner⟩ := hBranch.exists_around hStack
    exact hInner.leadsTo
  pending_iff := by
    intro descent
    constructor
    · intro hPending
      have hLeads := hBranch.pending?_eq_some_iff.1 hPending
      have ⟨_, _, _, _, _, _, hDepth⟩ := hLeads
      rw [hBranch.depth_eq] at hDepth
      exact ⟨frame, around, rfl, hLeads, hDepth⟩
    · rintro ⟨inner, outer, hStack, hLeads, -⟩
      cases hStack
      exact hBranch.pending?_eq_some_iff.2 hLeads

/-- A walk that is open nowhere and has nothing to list. -/
theorem isReached_of_empty {calls : Nat} {walk : Walk} (hOptions : walk.options = options)
    (hRoot : walk.root = if calls = 0 then some root else none)
    (hDone : walk.done = true → walk.root = none)
    (hStack : walk.stack = []) (hPending : walk.pending = none) :
    IsReached options root calls walk where
  options_eq := hOptions
  root_eq := hRoot
  empty_of_root _ := ⟨hStack, hPending⟩
  empty_of_done hEnded := ⟨hStack, hPending, hDone hEnded⟩
  depth_eq := by simp [hStack]
  depth_le := by simp [hStack]
  shown_le := by simp [hStack]
  nodup_identities := by simp [hStack]
  outermost := by simp [hStack]
  leadsTo := by simp [hStack]
  pending_iff := by simp [hStack, hPending]

/-- Whatever becomes of the file system between the calls of a walk, and however many there have
been, its state is as it has to be. The frame at a position is one deeper than the position, has
answered at least one of its entries, and has an identity of its own. It is the listing of the entry
that the frame around it has answered last; this entry is one to enter, and the guides inside it are
those of its line. What the next call lists is the entry that the innermost frame has answered last,
if it is one to enter. Nothing is deeper than the limit, the root is kept for the first call alone,
and nothing is left of a walk that has ended. -/
theorem isReached_after (options : DrawOptions) (root : Path) (views : Nat → View) (calls : Nat) :
    IsReached options root calls ((start options root).after views calls) := by
  obtain ⟨hStands, -, hLength⟩ := stands_after options root views calls
  cases calls with
  | zero => exact isReached_of_empty rfl rfl (fun hDone => by cases hDone) rfl rfl
  | succ calls =>
      generalize (start options root).lines views (calls + 1) = lines at hStands hLength
      generalize (start options root).after views (calls + 1) = walk at hStands hLength ⊢
      cases hStands with
      | fresh => exact absurd (hLength rfl).symm (Nat.succ_ne_zero calls)
      | branch hBranch => exact hBranch.isReached (Nat.succ_ne_zero calls)
      | finished => exact isReached_of_empty rfl rfl (fun _ => rfl) rfl rfl

end Walk

end HostTree
