import HostTree.Proofs.Walk.Branch
import Mathlib.Data.Finset.Card

/-!
Every walk comes to its end, also where the file system changes between its calls, if either the
depth is limited or there are only so many directories. What there is room for inside the innermost
frame gets less with every frame; where it stays, there is an entry less to answer.
-/

namespace HostTree

namespace Walk

open Outline

/-- After finitely many calls the walk is done. -/
def Ends (walk : Walk) (views : Nat → View) : Prop :=
  ∃ calls, (walk.after views calls).done = true

/-- The open frames before a call, or in it once what was pending has been listed. -/
def Holds (walk : Walk) (view : View) (stack : List Frame) : Prop :=
  walk.stack = stack ∨ walk.opened view = .ok stack

theorem Ends.of_next {walk : Walk} {views : Nat → View}
    (hEnds : (walk.next (views 0)).2.Ends fun call => views (call + 1)) : walk.Ends views := by
  obtain ⟨calls, hDone⟩ := hEnds
  exact ⟨calls + 1, by rw [after_succ, hDone]⟩

theorem ends_of_opened_error {walk : Walk} {views : Nat → View} {error : TreeError}
    (hDone : walk.done = false) (hOpened : walk.opened (views 0) = .error error) :
    walk.Ends views :=
  ⟨1, by rw [after, after, next_of_not_done hDone, hOpened]⟩

/-- Walks that do the same in their first calls end alike. -/
theorem Ends.of_next_eq {walk other : Walk} {views : Nat → View} (hEnds : other.Ends views)
    (hRunning : other.done = false) (hNext : walk.next (views 0) = other.next (views 0)) :
    walk.Ends views := by
  obtain ⟨calls, hDone⟩ := hEnds
  cases calls with
  | zero =>
      rw [after, hRunning] at hDone
      cases hDone
  | succ calls =>
      refine ⟨calls + 1, ?_⟩
      rw [after_succ, hNext, ← after_succ, hDone]

/-- What matters for the end of a walk is the stack in which the next line is looked for. -/
theorem Ends.of_opened {walk : Walk} {views : Nat → View} {stack : List Frame}
    (hEnds : (running walk.options stack none).Ends views) (hDone : walk.done = false)
    (hOpened : walk.opened (views 0) = .ok stack) : walk.Ends views := by
  refine hEnds.of_next_eq rfl ?_
  rw [next_of_not_done hDone, hOpened]
  rfl

/-- A walk that is done answers that for ever. -/
theorem Ends.exists_answer_eq_none {walk : Walk} {views : Nat → View} (hEnds : walk.Ends views) :
    ∃ calls, ∀ call, calls ≤ call → walk.answer views call = none := by
  obtain ⟨calls, hDone⟩ := hEnds
  exact ⟨calls, fun call hCall => answer_eq_none_of_le hDone hCall⟩

/-- Whatever permitted views come, a call that looks for its line in a stack comes to an end. -/
def Closes (options : DrawOptions) (permitted : View → Prop) (stack : List Frame) : Prop :=
  ∀ views : Nat → View, (∀ call, permitted (views call)) →
    (running options stack none).Ends views

section Room

variable {options : DrawOptions} {permitted : View → Prop} {frame : Frame} {rest : List Frame}

theorem Closes.of_exhausted (hRest : Closes options permitted rest) (hFrame : frame.Exhausted) :
    Closes options permitted (frame :: rest) := by
  intro views hPermitted
  refine (hRest views hPermitted).of_next_eq rfl ?_
  have hAdvance := advance_append (running options (frame :: rest) none)
    (List.forall_mem_singleton.2 hFrame) rest
  exact hAdvance.trans (advance_of_stack options (frame :: rest) rest rest)

/-- A stack with an entry left closes if it does without that entry, and if so do the stacks with
any listing on top of it that the entry can lead to. -/
theorem Closes.of_entry {entry : Entry} (hEntry : frame.entries[frame.shown]? = some entry)
    (hRest : Closes options permitted (frame.showNext :: rest))
    (hInside : ∀ view descent inner, permitted view →
      descent? options frame entry (frame.shown + 1 = frame.entries.length) = some descent →
      openFrame options view (frame.showNext :: rest) descent = .ok inner →
      Closes options permitted (inner :: frame.showNext :: rest)) :
    Closes options permitted (frame :: rest) := by
  intro views hPermitted
  have hLater : ∀ call, permitted (views (call + 1)) := fun call => hPermitted (call + 1)
  have hNext : (running options (frame :: rest) none).next (views 0) =
      (some (.ok (frame.nextLine entry)), running options (frame.showNext :: rest)
        (descent? options frame entry (frame.shown + 1 = frame.entries.length))) :=
    advance_cons_of_getElem? options (frame :: rest) hEntry rest
  apply Ends.of_next
  rw [hNext]
  cases hDescent : descent? options frame entry (frame.shown + 1 = frame.entries.length) with
  | none => exact hRest _ hLater
  | some descent =>
      have hOpened := opened_running_some options (frame.showNext :: rest) descent (views 1)
      cases hOpen : openFrame options (views 1) (frame.showNext :: rest) descent with
      | error error =>
          rw [hOpen] at hOpened
          exact ends_of_opened_error rfl hOpened
      | ok inner =>
          rw [hOpen] at hOpened
          exact (hInside _ _ _ (hPermitted 1) hDescent hOpen _ hLater).of_opened rfl hOpened

variable (room : List Frame → Nat)
  (hShown : ∀ frame rest, room (frame.showNext :: rest) = room (frame :: rest))
  (hRoom : ∀ view frame rest entry isLast descent inner, permitted view →
    descent? options frame entry isLast = some descent →
    openFrame options view (frame.showNext :: rest) descent = .ok inner →
    room (inner :: frame.showNext :: rest) < room (frame.showNext :: rest))

include hShown hRoom in
/-- A frame closes if the stack under it does. The induction is on the room inside the frame, and
for one room on the entries that the frame has left. -/
theorem Closes.cons (hRest : Closes options permitted rest) :
    Closes options permitted (frame :: rest) := by
  induction hBound : room (frame :: rest) using Nat.strong_induction_on generalizing frame rest with
  | _ bound ihRoom =>
    induction hLeft : frame.entries.length - frame.shown generalizing frame with
    | zero => exact hRest.of_exhausted (Nat.le_of_sub_eq_zero hLeft)
    | succ left ihLeft =>
        have hLess : frame.shown < frame.entries.length := by omega
        have hShorter : frame.showNext.entries.length - frame.showNext.shown = left := by
          simp only [Frame.showNext]
          omega
        have hNext : Closes options permitted (frame.showNext :: rest) :=
          ihLeft ((hShown frame rest).trans hBound) hShorter
        refine Closes.of_entry (List.getElem?_eq_getElem hLess) hNext ?_
        intro view descent inner hView hDescent hOpen
        have hInner := hRoom _ _ _ _ _ _ _ hView hDescent hOpen
        rw [hShown, hBound] at hInner
        exact ihRoom _ hInner hNext rfl

include hShown hRoom in
/-- Every stack closes, frame by frame. -/
theorem closes (stack : List Frame) : Closes options permitted stack := by
  induction stack with
  | nil =>
      intro views _
      exact ⟨1, rfl⟩
  | cons frame rest ih => exact Closes.cons room hShown hRoom ih

variable (permitted) in
include hShown hRoom in
theorem ends_of_room (root : Path) {views : Nat → View}
    (hPermitted : ∀ call, permitted (views call)) :
    (start options root).Ends views := by
  cases hOpened : (start options root).opened (views 0) with
  | error error => exact ends_of_opened_error rfl hOpened
  | ok stack => exact (closes room hShown hRoom stack views hPermitted).of_opened rfl hOpened

end Room

/-- How many levels a limit allows inside the innermost frame. -/
def levelsLeft (limit : Nat) : List Frame → Nat
  | [] => limit
  | frame :: _ => limit - frame.depth

/-- How many identities are those of no open directory. -/
def identitiesLeft (identities : Finset Identity) (stack : List Frame) : Nat :=
  (identities \ (stack.map (·.identity)).toFinset).card

/-- With a limit, each frame leaves one level less. -/
theorem ends_of_depthLimit {options : DrawOptions} {limit : Nat}
    (hLimit : options.depthLimit = some limit) (root : Path) (views : Nat → View) :
    (start options root).Ends views := by
  refine ends_of_room (fun _ => True) (levelsLeft limit) (fun _ _ => rfl) ?_ root (by simp)
  intro view frame rest entry isLast descent inner _ hDescent hOpen
  obtain ⟨hBelow, hDeeper⟩ := depth_lt_of_descent? hLimit hDescent
  obtain ⟨-, -, -, hDepth, -⟩ := openFrame_eq_ok_iff.1 hOpen
  simp only [levelsLeft, hDepth, hDeeper, Frame.depth_showNext]
  omega

/-- With finitely many identities, each frame takes one that no frame around it has. -/
theorem ends_of_identities (options : DrawOptions) (root : Path) {views : Nat → View}
    {identities : Finset Identity}
    (hIdentities : ∀ call path identity, (views call).directory path = .ok identity →
      identity ∈ identities) :
    (start options root).Ends views := by
  refine ends_of_room
    (fun view => ∀ path identity, view.directory path = .ok identity → identity ∈ identities)
    (identitiesLeft identities) (fun _ _ => rfl) ?_ root hIdentities
  intro view frame rest entry isLast descent inner hPermitted _ hOpen
  obtain ⟨hDirectory, hNew, -⟩ :=
    View.openDirectory_eq_ok_iff.1 (openFrame_eq_ok_iff.1 hOpen).1
  have hKnown := hPermitted _ _ hDirectory
  simp only [identitiesLeft, List.map_cons (a := inner), List.toFinset_cons (a := inner.identity),
    Finset.sdiff_insert]
  refine Finset.card_erase_lt_of_mem (Finset.mem_sdiff.2 ⟨hKnown, ?_⟩)
  rwa [List.mem_toFinset]

section Bounds

variable {options : DrawOptions} {root : Path} {views : Nat → View} {stack : List Frame}
  {lines : List Numbered} {frame : Frame}

/-- A frame is opened only if there are fewer around it than the limit. -/
theorem Hangs.length_lt {limit : Nat} (hLimit : options.depthLimit = some limit)
    (hHangs : Hangs options root views stack lines frame)
    (hBranch : Branch options root views stack lines) : stack.length < limit := by
  cases hBranch with
  | nil =>
      obtain ⟨hPositive, -⟩ := hangs_nil_iff.1 hHangs
      rw [hLimit, ne_eq, Option.some.injEq] at hPositive
      exact Nat.pos_of_ne_zero hPositive
  | cons hOuter hParent hEntry number =>
      obtain ⟨descent, hDescent, -⟩ := (hangs_cons_iff hEntry).1 hHangs
      have hDepth := hParent.depth_eq hOuter
      rw [List.length_cons, ← hDepth]
      exact (depth_lt_of_descent? hLimit hDescent).1

theorem Branch.length_le {limit : Nat} (hLimit : options.depthLimit = some limit)
    (hBranch : Branch options root views stack lines) : stack.length ≤ limit := by
  cases hBranch with
  | nil => exact Nat.zero_le _
  | cons hOuter hHangs hEntry number => exact hHangs.length_lt hLimit hOuter

theorem Hangs.identity_mem {identities : Finset Identity}
    (hIdentities : ∀ call path identity, (views call).directory path = .ok identity →
      identity ∈ identities)
    (hHangs : Hangs options root views stack lines frame) : frame.identity ∈ identities := by
  obtain ⟨descent, call, hAwaited, hOpen⟩ := hHangs
  exact hIdentities _ _ _ (View.openDirectory_eq_ok_iff.1 (openFrame_eq_ok_iff.1 hOpen).1).1

theorem Branch.identities_subset {identities : Finset Identity}
    (hIdentities : ∀ call path identity, (views call).directory path = .ok identity →
      identity ∈ identities)
    (hBranch : Branch options root views stack lines) :
    ∀ identity ∈ stack.map (·.identity), identity ∈ identities := by
  induction hBranch with
  | nil => simp
  | cons hOuter hHangs hEntry number ih =>
      rw [List.map_cons, List.forall_mem_cons]
      exact ⟨hHangs.identity_mem hIdentities, ih⟩

theorem length_le_card {items : List Identity} {identities : Finset Identity}
    (hNodup : items.Nodup) (hSubset : ∀ identity ∈ items, identity ∈ identities) :
    items.length ≤ identities.card := by
  rw [← List.toFinset_card_of_nodup hNodup]
  exact Finset.card_le_card fun identity hMem => hSubset identity (List.mem_toFinset.1 hMem)

/-- What a walk holds at any time is a branch, with a listing inside it or without. -/
theorem branch_of_holds {call : Nat}
    (hHolds : ((start options root).after views call).Holds (views call) stack) :
    (∃ lines, Branch options root views stack lines) ∨
      ∃ frame outer lines, stack = frame :: outer ∧ Branch options root views outer lines ∧
        Hangs options root views outer lines frame := by
  obtain ⟨hStands, -, hLength⟩ := stands_after options root views call
  generalize (start options root).lines views call = lines at hStands hLength
  generalize (start options root).after views call = walk at *
  rcases hHolds with rfl | hOpened
  · cases hStands with
    | fresh => exact Or.inl ⟨[], .nil⟩
    | branch hBranch => exact Or.inl ⟨_, hBranch⟩
    | finished => exact Or.inl ⟨[], .nil⟩
  · cases hDone : walk.done with
    | true =>
        cases hStands with
        | finished =>
            cases hOpened
            exact Or.inl ⟨[], .nil⟩
        | fresh | branch => cases hDone
    | false =>
        rw [← hLength hDone] at hOpened
        rcases hStands.opened_eq_ok hDone hOpened with
          hBranch | ⟨frame, outer, hStack, -, hBranch, hHangs⟩
        · exact Or.inl ⟨_, hBranch⟩
        · exact Or.inr ⟨frame, outer, _, hStack, hBranch, hHangs⟩

end Bounds

/-- A run comes to its end, and at no time are there more directories open than a bound. -/
structure Bounded (options : DrawOptions) (root : Path) (views : Nat → View) (bound : Nat) :
    Prop where
  ends : ∃ calls, ∀ call, calls ≤ call → (start options root).answer views call = none
  length_le : ∀ call stack, ((start options root).after views call).Holds (views call) stack →
    stack.length ≤ bound

theorem bounded_by_depthLimit {options : DrawOptions} {limit : Nat}
    (hLimit : options.depthLimit = some limit) (root : Path) (views : Nat → View) :
    Bounded options root views limit where
  ends := (ends_of_depthLimit hLimit root views).exists_answer_eq_none
  length_le := by
    intro call stack hHolds
    rcases branch_of_holds hHolds with
      ⟨lines, hBranch⟩ | ⟨frame, outer, lines, rfl, hBranch, hHangs⟩
    · exact hBranch.length_le hLimit
    · exact hHangs.length_lt hLimit hBranch

theorem bounded_by_identities (options : DrawOptions) (root : Path) {views : Nat → View}
    {identities : Finset Identity}
    (hIdentities : ∀ call path identity, (views call).directory path = .ok identity →
      identity ∈ identities) :
    Bounded options root views identities.card where
  ends := (ends_of_identities options root hIdentities).exists_answer_eq_none
  length_le := by
    intro call stack hHolds
    rcases branch_of_holds hHolds with
      ⟨lines, hBranch⟩ | ⟨frame, outer, lines, rfl, hBranch, hHangs⟩
    · have hLength := length_le_card hBranch.nodup_identities
        (hBranch.identities_subset hIdentities)
      rwa [List.length_map] at hLength
    · have hNodup : ((frame :: outer).map (·.identity)).Nodup :=
        List.nodup_cons.2 ⟨hHangs.identity_notMem, hBranch.nodup_identities⟩
      have hLength := length_le_card hNodup (List.forall_mem_cons.2
        ⟨hHangs.identity_mem hIdentities, hBranch.identities_subset hIdentities⟩)
      rwa [List.length_map] at hLength

/-- Every walk ends, whatever becomes of the file system between its calls, if the depth is limited
or if only finitely many identities of directories ever occur; it never has more directories open
than the limit, or than those identities. On a file system that does not change, the identities
are those of that file system, however its links lead around in it. -/
theorem walk_bounded (options : DrawOptions) (root : Path) (views : Nat → View) :
    (∀ limit, options.depthLimit = some limit → Bounded options root views limit) ∧
    (∀ identities : Finset Identity,
      (∀ call path found, (views call).stat path = .ok found → found.isDirectory = true →
        found.identity ∈ identities) → Bounded options root views identities.card) ∧
    ∀ view : View, Bounded options root (fun _ => view) view.identities.toFinset.card := by
  refine ⟨?_, ?_, ?_⟩
  · intro limit hLimit
    exact bounded_by_depthLimit hLimit root views
  · intro identities hIdentities
    refine bounded_by_identities options root ?_
    intro call path identity hDirectory
    exact hIdentities call path _ (View.directory_eq_ok_iff.1 hDirectory) rfl
  · intro view
    refine bounded_by_identities options root ?_
    intro call path identity hDirectory
    exact List.mem_toFinset.2 (View.mem_identities_of_directory hDirectory)

end Walk

end HostTree
