import HostTree.Tree.Walk

/-!
What one call of a walk does, said once for all states, and how the calls of a run hang together.
Every property of runs is derived from the three cases of `Walk.Call`.
-/

namespace HostTree

namespace Frame

/-- No entry is left whose line is still to be answered. -/
def Exhausted (frame : Frame) : Prop :=
  frame.entries.length ≤ frame.shown

/-- The frame after the line of its next entry. -/
def showNext (frame : Frame) : Frame :=
  { frame with shown := frame.shown + 1 }

theorem exhausted_iff_getElem? {frame : Frame} :
    frame.Exhausted ↔ frame.entries[frame.shown]? = none := by
  rw [Exhausted, List.getElem?_eq_none_iff]

@[simp]
theorem depth_showNext (frame : Frame) : frame.showNext.depth = frame.depth := rfl

/-- The line of a frame's next entry. -/
def nextLine (frame : Frame) (entry : Entry) : Line :=
  .ofEntry frame.lead frame.depth entry (frame.shown + 1 = frame.entries.length)

@[simp]
theorem depth_nextLine (frame : Frame) (entry : Entry) :
    (frame.nextLine entry).depth = frame.depth := rfl

@[simp]
theorem kind_nextLine (frame : Frame) (entry : Entry) :
    (frame.nextLine entry).kind = entry.kind := rfl

@[simp]
theorem path_nextLine (frame : Frame) (entry : Entry) :
    (frame.nextLine entry).path = entry.path := rfl

@[simp]
theorem isLast_nextLine (frame : Frame) (entry : Entry) :
    (frame.nextLine entry).isLast = decide (frame.shown + 1 = frame.entries.length) := rfl

end Frame

namespace Walk

theorem exists_of_map_eq_ok {ε α β : Type} {f : α → β} {result : Except ε α} {value : β}
    (hMap : result.map f = .ok value) : ∃ inner, result = .ok inner ∧ value = f inner := by
  cases result with
  | error error => simp [Except.map] at hMap
  | ok inner => exact ⟨inner, rfl, (Except.ok.inj hMap).symm⟩

theorem map_eq_error_iff {ε α β : Type} {f : α → β} {result : Except ε α} {error : ε} :
    result.map f = .error error ↔ result = .error error := by
  cases result <;> simp [Except.map]

/-- A frame that has been opened is a listing of which nothing has been answered. -/
theorem openFrame_eq_ok_iff {options : DrawOptions} {view : View} {stack : List Frame}
    {descent : Descent} {frame : Frame} :
    openFrame options view stack descent = .ok frame ↔
      view.openDirectory options (stack.map (·.identity)) descent.path =
          .ok (frame.identity, frame.entries) ∧
        frame.directory = descent.path ∧ frame.lead = descent.lead ∧
        frame.depth = descent.depth ∧ frame.shown = 0 := by
  obtain ⟨directory, identity, lead, depth, entries, shown⟩ := frame
  unfold openFrame
  split
  · next hOpen => simp [hOpen]
  · next hOpen =>
      simp only [hOpen, Except.ok.injEq, Frame.mk.injEq, Prod.mk.injEq]
      constructor
      · rintro ⟨rfl, rfl, rfl, rfl, rfl, rfl⟩
        exact ⟨⟨rfl, rfl⟩, rfl, rfl, rfl, rfl⟩
      · rintro ⟨⟨rfl, rfl⟩, rfl, rfl, rfl, rfl⟩
        exact ⟨rfl, rfl, rfl, rfl, rfl, rfl⟩

theorem openFrame_eq_error_iff {options : DrawOptions} {view : View} {stack : List Frame}
    {descent : Descent} {error : TreeError} :
    openFrame options view stack descent = .error error ↔
      view.openDirectory options (stack.map (·.identity)) descent.path = .error error := by
  unfold openFrame
  split
  · next hOpen => simp [hOpen]
  · next hOpen => simp [hOpen]

/-- A walk with open directories, in front of a call that has something to list or not. -/
abbrev running (options : DrawOptions) (stack : List Frame) (pending : Option Descent) : Walk :=
  ⟨options, none, stack, pending, false⟩

/-- A walk that has answered its end or a failure. -/
abbrev ended (options : DrawOptions) : Walk :=
  ⟨options, none, [], none, true⟩

/-- The open directories in which a call looks for its line. What is to be listed is listed
first. -/
def opened (walk : Walk) (view : View) : Except TreeError (List Frame) :=
  match walk.takeRoot view with
  | (some error, _) => .error error
  | (none, rooted) =>
    match rooted.takePending view with
    | (some error, _) => .error error
    | (none, listed) => .ok listed.stack

theorem opened_start (options : DrawOptions) (root : Path) (view : View) :
    (start options root).opened view = openRoot options view [] root := by
  simp only [opened, takeRoot, start]
  cases openRoot options view [] root <;> rfl

theorem opened_running_some (options : DrawOptions) (stack : List Frame) (descent : Descent)
    (view : View) : (running options stack (some descent)).opened view =
      (openFrame options view stack descent).map (· :: stack) := by
  simp only [opened, takeRoot, takePending]
  cases openFrame options view stack descent <;> rfl

/-- A call of a walk that is done answers that, and changes nothing. -/
theorem next_of_done {walk : Walk} (hDone : walk.done = true) (view : View) :
    walk.next view = (none, walk) :=
  if_pos hDone

/-- Any other call takes the root and what is to be listed. If one of them cannot be opened nothing
is left of the walk, and otherwise nothing but the open directories. -/
theorem next_of_not_done {walk : Walk} (hDone : walk.done = false) (view : View) :
    walk.next view =
      match walk.opened view with
      | .error error => (some (.error error), ended walk.options)
      | .ok stack => advance (running walk.options stack none) stack := by
  obtain ⟨options, root, stack, pending, done⟩ := walk
  cases hDone
  cases root with
  | none =>
      cases pending with
      | none => rfl
      | some descent =>
          simp only [next, opened, takeRoot, takePending]
          cases openFrame options view stack descent <;> rfl
  | some root =>
      simp only [next, opened, takeRoot]
      cases openRoot options view stack root with
      | error error => rfl
      | ok stack =>
          cases pending with
          | none => rfl
          | some descent =>
              simp only [takePending]
              cases openFrame options view stack descent <;> rfl

/-- Frames without entries left are closed, whatever is under them. -/
theorem advance_append (walk : Walk) {closed : List Frame}
    (hClosed : ∀ frame ∈ closed, frame.Exhausted) (rest : List Frame) :
    walk.advance (closed ++ rest) = walk.advance rest := by
  induction closed with
  | nil => rfl
  | cons frame closed ih =>
      have hFrame := Frame.exhausted_iff_getElem?.1 (hClosed frame List.mem_cons_self)
      rw [List.cons_append, advance, hFrame]
      exact ih fun other hOther => hClosed other (List.mem_cons_of_mem _ hOther)

/-- The directories in which the next line is looked for are what is left of a walk, whatever it
held before. -/
theorem advance_of_stack (options : DrawOptions) (stack other frames : List Frame) :
    advance (running options stack none) frames = advance (running options other none) frames := by
  induction frames with
  | nil => rfl
  | cons frame frames ih =>
      rw [advance, advance, ih]

theorem advance_cons_of_getElem? (options : DrawOptions) (stack : List Frame) {frame : Frame}
    {entry : Entry} (hEntry : frame.entries[frame.shown]? = some entry) (rest : List Frame) :
    advance (running options stack none) (frame :: rest) =
      (some (.ok (frame.nextLine entry)), running options (frame.showNext :: rest)
        (descent? options frame entry (frame.shown + 1 = frame.entries.length))) := by
  rw [advance, hEntry]
  simp only [Option.or_none]
  rfl

/-- A stack either has no entry left, or an innermost frame that has one. -/
theorem exhausted_or_exists_entry (stack : List Frame) :
    (∀ frame ∈ stack, frame.Exhausted) ∨
      ∃ closed frame rest entry, stack = closed ++ frame :: rest ∧
        (∀ frame ∈ closed, frame.Exhausted) ∧ frame.entries[frame.shown]? = some entry := by
  induction stack with
  | nil => exact Or.inl (by simp)
  | cons frame stack ih =>
      cases hEntry : frame.entries[frame.shown]? with
      | some entry => exact Or.inr ⟨[], frame, stack, entry, rfl, by simp, hEntry⟩
      | none =>
          have hFrame := Frame.exhausted_iff_getElem?.2 hEntry
          rcases ih with hStack | ⟨closed, inner, rest, entry, rfl, hClosed, hInner⟩
          · exact Or.inl (List.forall_mem_cons.2 ⟨hFrame, hStack⟩)
          · exact Or.inr ⟨frame :: closed, inner, rest, entry, rfl,
              List.forall_mem_cons.2 ⟨hFrame, hClosed⟩, hInner⟩

/-- What a call of a walk that is not done can answer, and what it leaves. Nothing else happens. -/
inductive Call (walk : Walk) (view : View) : Option Answer → Walk → Prop where
  /-- What was to be listed cannot be. -/
  | failure {error : TreeError} (hOpened : walk.opened view = .error error) :
      Call walk view (some (.error error)) (ended walk.options)
  /-- The innermost frame that has an entry left answers its line; those inside it are closed. -/
  | line {closed rest : List Frame} {frame : Frame} {entry : Entry}
      (hOpened : walk.opened view = .ok (closed ++ frame :: rest))
      (hClosed : ∀ frame ∈ closed, frame.Exhausted)
      (hEntry : frame.entries[frame.shown]? = some entry) :
      Call walk view (some (.ok (frame.nextLine entry)))
        (running walk.options (frame.showNext :: rest)
          (descent? walk.options frame entry (frame.shown + 1 = frame.entries.length)))
  /-- No frame has an entry left. -/
  | ending {stack : List Frame} (hOpened : walk.opened view = .ok stack)
      (hStack : ∀ frame ∈ stack, frame.Exhausted) :
      Call walk view none (ended walk.options)

theorem call_next {walk : Walk} (hDone : walk.done = false) (view : View) :
    Call walk view (walk.next view).1 (walk.next view).2 := by
  rw [next_of_not_done hDone]
  cases hOpened : walk.opened view with
  | error error => exact .failure hOpened
  | ok stack =>
      rcases exhausted_or_exists_entry stack with
        hStack | ⟨closed, frame, rest, entry, rfl, hClosed, hEntry⟩
      · have hAdvance := advance_append (running walk.options stack none) hStack []
        rw [List.append_nil] at hAdvance
        simp only [hAdvance]
        exact .ending hOpened hStack
      · simp only [advance_append _ hClosed, advance_cons_of_getElem? _ _ hEntry]
        exact .line hOpened hClosed hEntry

/-- A walk that answers something is not done. -/
theorem not_done_of_next {walk : Walk} {view : View} {answer : Answer}
    (hNext : (walk.next view).1 = some answer) : walk.done = false := by
  cases hDone : walk.done with
  | false => rfl
  | true =>
      rw [next_of_done hDone] at hNext
      cases hNext

/-- A walk that answers a line goes on. -/
theorem exists_running_of_next {walk : Walk} {view : View} {line : Line}
    (hNext : (walk.next view).1 = some (.ok line)) :
    ∃ stack pending, (walk.next view).2 = running walk.options stack pending := by
  have hCall := call_next (not_done_of_next hNext) view
  rw [hNext] at hCall
  generalize (walk.next view).2 = later at hCall ⊢
  cases hCall with
  | line => exact ⟨_, _, rfl⟩

/-- A walk that answers no line is done. -/
theorem done_of_next_ne_ok {walk : Walk} {view : View}
    (hNext : ∀ line, (walk.next view).1 ≠ some (.ok line)) : (walk.next view).2.done = true := by
  cases hDone : walk.done with
  | true => rw [next_of_done hDone, hDone]
  | false =>
      have hCall := call_next hDone view
      generalize (walk.next view).1 = answer at hNext hCall
      generalize (walk.next view).2 = later at hCall ⊢
      cases hCall with
      | failure => rfl
      | line => exact absurd rfl (hNext _)
      | ending => rfl

@[simp]
theorem options_next (walk : Walk) (view : View) : (walk.next view).2.options = walk.options := by
  cases hDone : walk.done with
  | true => rw [next_of_done hDone]
  | false =>
      have hCall := call_next hDone view
      generalize (walk.next view).1 = answer at hCall
      generalize (walk.next view).2 = later at hCall ⊢
      cases hCall with
      | failure => rfl
      | line => rfl
      | ending => rfl

@[simp]
theorem options_after (walk : Walk) (views : Nat → View) (calls : Nat) :
    (walk.after views calls).options = walk.options := by
  induction calls with
  | zero => rfl
  | succ calls ih => rw [after, options_next, ih]

/-- The calls after the first one are a run of their own. -/
theorem after_succ (walk : Walk) (views : Nat → View) (calls : Nat) :
    walk.after views (calls + 1) =
      (walk.next (views 0)).2.after (fun call => views (call + 1)) calls := by
  induction calls with
  | zero => rfl
  | succ calls ih => rw [after, ih, after]

theorem answer_succ (walk : Walk) (views : Nat → View) (call : Nat) :
    walk.answer views (call + 1) =
      (walk.next (views 0)).2.answer (fun call => views (call + 1)) call := by
  rw [answer, after_succ, answer]

/-- Once a walk is done, it answers that for ever. -/
theorem answer_eq_none_of_le {walk : Walk} {views : Nat → View} {calls call : Nat}
    (hDone : (walk.after views calls).done = true) (hCall : calls ≤ call) :
    walk.answer views call = none := by
  have hStays : (walk.after views call).done = true := by
    induction hCall with
    | refl => exact hDone
    | step _ ih => rw [after, next_of_done ih, ih]
  rw [answer, next_of_done hStays]

/-- The lines that the first calls have answered. -/
def lines (walk : Walk) (views : Nat → View) : Nat → List Line
  | 0 => []
  | calls + 1 =>
    match walk.answer views calls with
    | some (.ok line) => walk.lines views calls ++ [line]
    | _ => walk.lines views calls

end Walk

end HostTree
