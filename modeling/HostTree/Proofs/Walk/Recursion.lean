import HostTree.FileSystem.Access
import HostTree.Proofs.Drawing.Basic
import HostTree.Proofs.Walk.Call

/-!
A walk against the drawing of a whole tree. `Walk.remaining` says for every state of a walk what is
still to be answered if nothing changes any more; a call answers the head of it and leaves its
tail. So the calls of a walk answer the drawing one after the other.
-/

namespace HostTree

namespace Walk

open Drawing

/-- What a stack of open directories still leads to: what is left of the innermost one, then what
is left of the one around it, and so on. -/
def drawStack (view : View) (options : DrawOptions) : List Frame → Drawing
  | [] => []
  | frame :: rest =>
    (view.drawEntries options (frame.identity :: rest.map (·.identity)) frame.lead frame.depth
      (frame.entries.drop frame.shown)).followedBy (drawStack view options rest)

/-- What a walk still has to answer if the file system does not change any more. -/
def remaining (walk : Walk) (view : View) : Drawing :=
  if walk.done then []
  else
    match walk.opened view with
    | .error error => [.error error]
    | .ok stack => drawStack view walk.options stack

/-- The descent that a call finds pending draws what is inside its directory. -/
theorem drawInside_of_openFrame {options : DrawOptions} {view : View} {stack : List Frame}
    {descent : Descent} {frame : Frame}
    (hOpen : openFrame options view stack descent = .ok frame) :
    (view.drawInside options (stack.map (·.identity)) descent.path descent.lead
      descent.depth).followedBy (drawStack view options stack) =
        drawStack view options (frame :: stack) := by
  unfold openFrame at hOpen
  split at hOpen
  · simp at hOpen
  · next hDirectory =>
      cases hOpen
      rw [View.drawInside_of_ok hDirectory]
      rfl

theorem drawInside_of_openFrame_error {options : DrawOptions} {view : View} {stack : List Frame}
    {descent : Descent} {error : TreeError}
    (hOpen : openFrame options view stack descent = .error error) :
    view.drawInside options (stack.map (·.identity)) descent.path descent.lead descent.depth =
      [.error error] :=
  View.drawInside_of_error (openFrame_eq_error_iff.1 hOpen) ..

/-- A walk that is about to start has the whole drawing to answer. -/
theorem remaining_start (options : DrawOptions) (root : Path) (view : View) :
    (start options root).remaining view = view.draw options root := by
  have hRemaining : (start options root).remaining view =
      match openRoot options view [] root with
      | .error error => [.error error]
      | .ok stack => drawStack view options stack := by
    rw [← opened_start]
    rfl
  rw [hRemaining, openRoot, View.draw]
  cases view.directory root with
  | error error => rfl
  | ok identity =>
      by_cases hLimit : options.depthLimit = some 0
      · simp [hLimit, drawStack]
      · simp only [hLimit, ↓reduceIte]
        cases hOpen : openFrame options view [] ⟨root, "", 1⟩ with
        | error error => exact (drawInside_of_openFrame_error hOpen).symm
        | ok frame =>
            have hInside := drawInside_of_openFrame hOpen
            rw [drawStack, EndsAtError.followedBy_nil
              (view.endsAtError_drawInside options _ _ _ _)] at hInside
            exact hInside.symm

/-- A walk with open directories has the inside of what is to be listed to answer, and then what
the open directories lead to. -/
theorem remaining_running (options : DrawOptions) (stack : List Frame) (pending : Option Descent)
    (view : View) :
    (running options stack pending).remaining view =
      match pending with
      | none => drawStack view options stack
      | some descent =>
        (view.drawInside options (stack.map (·.identity)) descent.path descent.lead
          descent.depth).followedBy (drawStack view options stack) := by
  cases pending with
  | none => rfl
  | some descent =>
      simp only [remaining, opened_running_some, Bool.false_eq_true, ↓reduceIte]
      cases hOpen : openFrame options view stack descent with
      | error error => rw [drawInside_of_openFrame_error hOpen]; rfl
      | ok frame => rw [drawInside_of_openFrame hOpen]; rfl

/-- Frames without entries left lead to nothing. -/
theorem drawStack_append (view : View) (options : DrawOptions) {closed : List Frame}
    (hClosed : ∀ frame ∈ closed, frame.Exhausted) (rest : List Frame) :
    drawStack view options (closed ++ rest) = drawStack view options rest := by
  induction closed with
  | nil => rfl
  | cons frame closed ih =>
      have hNone : frame.entries.drop frame.shown = [] :=
        List.drop_eq_nil_of_le (hClosed frame List.mem_cons_self)
      rw [List.cons_append, drawStack, hNone, View.drawEntries_nil, Drawing.nil_followedBy]
      exact ih fun other hOther => hClosed other (List.mem_cons_of_mem _ hOther)

/-- A frame's next line, what is below it and what is left after it. -/
theorem drawStack_cons_of_getElem? (view : View) (options : DrawOptions) {frame : Frame}
    {entry : Entry} (hEntry : frame.entries[frame.shown]? = some entry) (rest : List Frame) :
    drawStack view options (frame :: rest) =
      .ok (frame.nextLine entry) ::
        (running options (frame.showNext :: rest)
          (descent? options frame entry (frame.shown + 1 = frame.entries.length))).remaining
          view := by
  obtain ⟨hShown, rfl⟩ := List.getElem?_eq_some_iff.1 hEntry
  have hLast : (frame.entries.drop (frame.shown + 1)).isEmpty =
      decide (frame.shown + 1 = frame.entries.length) := by
    rw [Bool.eq_iff_iff, List.isEmpty_iff, List.drop_eq_nil_iff, decide_eq_true_iff]
    omega
  rw [drawStack, List.drop_eq_getElem_cons hShown, View.drawEntries_cons, hLast,
    Drawing.ok_followedBy, Drawing.followedBy_assoc, remaining_running]
  simp only [Frame.nextLine, descent?]
  split
  · rfl
  · rfl

/-- A call answers the head of what is still to be answered, and leaves its tail. -/
theorem remaining_next (walk : Walk) (view : View) :
    (walk.next view).1 = (walk.remaining view).head? ∧
      (walk.next view).2.remaining view = (walk.remaining view).tail := by
  cases hDone : walk.done with
  | true => simp [next_of_done hDone, remaining, hDone]
  | false =>
      have hCall := call_next hDone view
      generalize (walk.next view).1 = answer at hCall ⊢
      generalize (walk.next view).2 = later at hCall ⊢
      cases hCall with
      | failure hOpened => simp [remaining, hDone, hOpened]
      | line hOpened hClosed hEntry =>
          rw [remaining.eq_def walk, hOpened]
          simp [hDone, drawStack_append _ _ hClosed, drawStack_cons_of_getElem? _ _ hEntry]
      | ending hOpened hStack =>
          have hNothing := drawStack_append view walk.options hStack []
          rw [List.append_nil] at hNothing
          simp [remaining, hDone, hOpened, hNothing, drawStack]

/-- The calls of a walk answer what is remaining in its order, and after that nothing. -/
theorem answer_eq_remaining (walk : Walk) (view : View) (call : Nat) :
    walk.answer (fun _ => view) call = (walk.remaining view)[call]? := by
  induction call generalizing walk with
  | zero => rw [answer, after, (remaining_next walk view).1, List.head?_eq_getElem?]
  | succ call ih => rw [answer_succ, ih, (remaining_next walk view).2, List.getElem?_tail]

/-- The calls of a walk from its start answer the whole drawing. -/
theorem answer_eq_draw (options : DrawOptions) (root : Path) (view : View) (call : Nat) :
    (start options root).answer (fun _ => view) call = (view.draw options root)[call]? := by
  rw [answer_eq_remaining, remaining_start]

/-- On a file system that does not change, the calls of a walk answer the tree as it is drawn at
once: the stack of frames does what the recursion does, also where the drawing fails. The failure
is answered once, and nothing but the end is answered after it or after the last line. -/
theorem answers_are_drawing (view : View) (options : DrawOptions) (root : Path) :
    (∀ call, (start options root).answer (fun _ => view) call = (view.draw options root)[call]?) ∧
      (view.draw options root).EndsAtError :=
  ⟨answer_eq_draw options root view, view.endsAtError_draw options root⟩

/-- A file, a link to a directory and this directory, in which there are a file and a directory that
lies too deep to be entered. -/
example :
    let fs : FileSystem :=
      ⟨[.directory .newDirectory 0 [],
        .directory .newDirectory 0
          [(Octets.ofString "f", 2), (Octets.ofString "l", 3), (Octets.ofString "d", 4)],
        .file .newFile (.octets []),
        .link (.ofString "d"),
        .directory .newDirectory 1 [(Octets.ofString "g", 2), (Octets.ofString "e", 5)],
        .directory .newDirectory 4 [(Octets.ofString "h", 2)]]⟩
    let options : DrawOptions :=
      { DrawOptions.default with sort := .listing, directoriesFirst := true, depthLimit := some 2 }
    let drawing := fs.view.draw options (.ofString ".")
    (List.range 8).map (fun call => (drawing[call]?).map fun answer =>
      answer.toOption.map fun line => (line.render, line.path, line.depth, line.kind)) =
      [some (some ("├── l", .ofString "./l", 1, .link)),
        some (some ("│   ├── e", .ofString "./l/e", 2, .directory)),
        some (some ("│   └── g", .ofString "./l/g", 2, .file)),
        some (some ("├── d", .ofString "./d", 1, .directory)),
        some (some ("│   ├── e", .ofString "./d/e", 2, .directory)),
        some (some ("│   └── g", .ofString "./d/g", 2, .file)),
        some (some ("└── f", .ofString "./f", 1, .file)), none] := by
  simp only [← answer_eq_draw]
  decide

end Walk

end HostTree
