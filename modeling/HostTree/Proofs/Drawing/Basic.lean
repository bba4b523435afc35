import HostTree.Tree.Drawing

/-!
What drawings are made of: one drawing after another, the entries of a directory, the directories
inside it. Nothing stands behind a failure, wherever in a tree it arises; a drawing without one is
complete.
-/

namespace HostTree

namespace Drawing

@[simp]
theorem nil_followedBy (later : Drawing) : followedBy [] later = later := rfl

@[simp]
theorem error_followedBy (error : TreeError) (rest later : Drawing) :
    followedBy (.error error :: rest) later = [.error error] := rfl

@[simp]
theorem ok_followedBy (line : Line) (rest later : Drawing) :
    followedBy (.ok line :: rest) later = .ok line :: followedBy rest later := rfl

theorem followedBy_assoc (first second third : Drawing) :
    (first.followedBy second).followedBy third = first.followedBy (second.followedBy third) := by
  induction first with
  | nil => rfl
  | cons answer rest ih =>
      cases answer with
      | error error => rfl
      | ok line => simp only [ok_followedBy, ih]

/-- Nothing stands behind a failure. -/
def EndsAtError (drawing : Drawing) : Prop :=
  ∀ before error after, drawing = before ++ .error error :: after → after = []

theorem endsAtError_nil : EndsAtError [] := by
  intro before error after hSplit
  simp at hSplit

theorem endsAtError_error (error : TreeError) : EndsAtError [.error error] := by
  intro before other after hSplit
  cases before with
  | nil =>
      simp only [List.nil_append, List.cons.injEq] at hSplit
      exact hSplit.2.symm
  | cons answer before => simp at hSplit

theorem EndsAtError.cons {line : Line} {rest : Drawing} (hRest : EndsAtError rest) :
    EndsAtError (.ok line :: rest) := by
  intro before error after hSplit
  cases before with
  | nil => simp at hSplit
  | cons answer before =>
      simp only [List.cons_append, List.cons.injEq] at hSplit
      exact hRest before error after hSplit.2

theorem EndsAtError.of_cons {answer : Answer} {rest : Drawing}
    (hDrawing : EndsAtError (answer :: rest)) : EndsAtError rest := by
  intro before error after hSplit
  exact hDrawing (answer :: before) error after (by rw [hSplit, List.cons_append])

theorem EndsAtError.followedBy {drawing later : Drawing} (hDrawing : EndsAtError drawing)
    (hLater : EndsAtError later) : EndsAtError (drawing.followedBy later) := by
  induction drawing with
  | nil => exact hLater
  | cons answer rest ih =>
      cases answer with
      | error error => exact endsAtError_error error
      | ok line => exact (ih hDrawing.of_cons).cons

/-- A drawing that breaks off at its first failure is complete as it is. -/
theorem EndsAtError.followedBy_nil {drawing : Drawing} (hDrawing : EndsAtError drawing) :
    drawing.followedBy [] = drawing := by
  induction drawing with
  | nil => rfl
  | cons answer rest ih =>
      cases answer with
      | error error => rw [error_followedBy, hDrawing [] error rest rfl]
      | ok line => rw [ok_followedBy, ih hDrawing.of_cons]

theorem endsAtError_siblings {lead : String} {depth : Nat} {below : Entry → String → Drawing}
    (hBelow : ∀ entry lead, EndsAtError (below entry lead)) (entries : List Entry) :
    EndsAtError (siblings lead depth below entries) := by
  induction entries with
  | nil => exact endsAtError_nil
  | cons entry rest ih => exact ((hBelow entry _).followedBy ih).cons

/-- Whether a drawing does not break off. -/
def IsComplete (drawing : Drawing) : Prop :=
  ∀ error, .error error ∉ drawing

theorem isComplete_nil : IsComplete [] := by
  simp [IsComplete]

theorem isComplete_ok_cons {line : Line} {rest : Drawing} :
    IsComplete (.ok line :: rest) ↔ IsComplete rest := by
  simp [IsComplete]

theorem not_isComplete_error {error : TreeError} {rest : Drawing} :
    ¬ IsComplete (.error error :: rest) :=
  fun hComplete => hComplete error List.mem_cons_self

theorem isComplete_followedBy {first later : Drawing} :
    IsComplete (first.followedBy later) ↔ IsComplete first ∧ IsComplete later := by
  induction first with
  | nil => simp [isComplete_nil]
  | cons answer rest ih =>
      cases answer with
      | error error =>
          rw [error_followedBy]
          exact iff_of_false not_isComplete_error fun hBoth => not_isComplete_error hBoth.1
      | ok line => rw [ok_followedBy, isComplete_ok_cons, isComplete_ok_cons, ih]

theorem IsComplete.subset {part drawing : Drawing} (hDrawing : IsComplete drawing)
    (hPart : part ⊆ drawing) : IsComplete part :=
  fun error hError => hDrawing error (hPart hError)

/-- A complete drawing goes on with the one that follows it. -/
theorem IsComplete.followedBy_eq {first : Drawing} (hFirst : IsComplete first) (later : Drawing) :
    first.followedBy later = first ++ later := by
  induction first with
  | nil => rfl
  | cons answer rest ih =>
      cases answer with
      | error error => exact absurd hFirst not_isComplete_error
      | ok line => rw [ok_followedBy, ih (isComplete_ok_cons.1 hFirst), List.cons_append]

theorem mem_followedBy {answer : Answer} {first later : Drawing}
    (hAnswer : answer ∈ first.followedBy later) : answer ∈ first ∨ answer ∈ later := by
  induction first with
  | nil => exact Or.inr hAnswer
  | cons head rest ih =>
      cases head with
      | error error => exact Or.inl (List.mem_cons.2 (Or.inl (List.mem_singleton.1 hAnswer)))
      | ok line =>
          rcases List.mem_cons.1 hAnswer with rfl | hAnswer
          · exact Or.inl List.mem_cons_self
          · exact (ih hAnswer).imp_left (List.mem_cons_of_mem _)

/-- A complete drawing is one of lines. -/
theorem IsComplete.exists_lines {drawing : Drawing} (hDrawing : IsComplete drawing) :
    ∃ lines : List Line, drawing = lines.map .ok := by
  induction drawing with
  | nil => exact ⟨[], rfl⟩
  | cons answer rest ih =>
      cases answer with
      | error error => exact absurd hDrawing not_isComplete_error
      | ok line =>
          obtain ⟨lines, rfl⟩ := ih (isComplete_ok_cons.1 hDrawing)
          exact ⟨line :: lines, rfl⟩

/-- A drawing is one of lines, or of lines and a failure. -/
theorem EndsAtError.exists_lines {drawing : Drawing} (hDrawing : EndsAtError drawing) :
    (∃ lines : List Line, drawing = lines.map .ok) ∨
      ∃ (lines : List Line) (error : TreeError), drawing = lines.map .ok ++ [.error error] := by
  induction drawing with
  | nil => exact Or.inl ⟨[], rfl⟩
  | cons answer rest ih =>
      cases answer with
      | error error =>
          obtain rfl := hDrawing [] error rest rfl
          exact Or.inr ⟨[], error, rfl⟩
      | ok line =>
          rcases ih hDrawing.of_cons with ⟨lines, rfl⟩ | ⟨lines, error, rfl⟩
          · exact Or.inl ⟨line :: lines, rfl⟩
          · exact Or.inr ⟨line :: lines, error, rfl⟩

theorem isComplete_map_ok (lines : List Line) : IsComplete (lines.map .ok) := by
  simp [IsComplete]

/-- The lines before the failure of a drawing, or all of them. -/
def lines (drawing : Drawing) : List Line :=
  drawing.filterMap Except.toOption

@[simp]
theorem lines_nil : lines [] = [] := rfl

@[simp]
theorem lines_ok_cons (line : Line) (rest : Drawing) :
    lines (.ok line :: rest) = line :: lines rest := rfl

@[simp]
theorem lines_error_cons (error : TreeError) (rest : Drawing) :
    lines (.error error :: rest) = lines rest := rfl

theorem lines_map_ok (shown : List Line) : lines (shown.map .ok) = shown := by
  induction shown with
  | nil => rfl
  | cons line rest ih => rw [List.map_cons, lines_ok_cons, ih]

theorem eq_of_map_ok_eq {shown others : List Line}
    (hSame : (shown.map .ok : Drawing) = others.map .ok) : shown = others := by
  rw [← lines_map_ok shown, hSame, lines_map_ok]

theorem mem_lines {drawing : Drawing} {line : Line} :
    line ∈ drawing.lines ↔ .ok line ∈ drawing := by
  induction drawing with
  | nil => simp
  | cons answer rest ih =>
      cases answer with
      | error error => simp [ih]
      | ok other => simp [ih]

/-- A drawing after another adds some of its lines. -/
theorem lines_followedBy_sublist (first later : Drawing) :
    (lines (first.followedBy later)).Sublist (lines first ++ lines later) := by
  induction first with
  | nil => exact List.Sublist.refl _
  | cons answer rest ih =>
      cases answer with
      | error error =>
          rw [error_followedBy, lines_error_cons]
          exact List.nil_sublist _
      | ok line => exact ih.cons_cons line

end Drawing

namespace View

open Drawing

/-- What is drawn inside a directory whose entries are known. -/
def drawEntries (view : View) (options : DrawOptions) (active : List Identity) (lead : String)
    (depth : Nat) (entries : List Entry) : Drawing :=
  siblings lead depth
    (fun entry below =>
      if options.descends entry depth then
        view.drawInside options active entry.path below (depth + 1)
      else [])
    entries

theorem drawInside_of_error {view : View} {options : DrawOptions} {active : List Identity}
    {path : Path} {error : TreeError}
    (hOpen : view.openDirectory options active path = .error error) (lead : String) (depth : Nat) :
    view.drawInside options active path lead depth = [.error error] := by
  rw [drawInside]
  split
  · next hOther => simp [Except.error.inj (hOther.symm.trans hOpen)]
  · next hOther => simp [hOpen] at hOther

theorem drawInside_of_ok {view : View} {options : DrawOptions} {active : List Identity}
    {path : Path} {identity : Identity} {entries : List Entry}
    (hOpen : view.openDirectory options active path = .ok (identity, entries)) (lead : String)
    (depth : Nat) :
    view.drawInside options active path lead depth =
      view.drawEntries options (identity :: active) lead depth entries := by
  rw [drawInside]
  split
  · next hOther => simp [hOpen] at hOther
  · next hOther =>
      obtain ⟨rfl, rfl⟩ := Prod.mk.inj (Except.ok.inj (hOther.symm.trans hOpen))
      rfl

theorem drawEntries_nil (view : View) (options : DrawOptions) (active : List Identity)
    (lead : String) (depth : Nat) : view.drawEntries options active lead depth [] = [] := rfl

/-- The first of some entries is drawn with what is below it, and the others follow. -/
theorem drawEntries_cons (view : View) (options : DrawOptions) (active : List Identity)
    (lead : String) (depth : Nat) (entry : Entry) (rest : List Entry) :
    view.drawEntries options active lead depth (entry :: rest) =
      .ok (.ofEntry lead depth entry rest.isEmpty) ::
        (if options.descends entry depth then
          view.drawInside options active entry.path (lead ++ Guide.below rest.isEmpty) (depth + 1)
        else []).followedBy (view.drawEntries options active lead depth rest) := rfl

/-- A drawing breaks off at its first failure. -/
theorem endsAtError_drawInside (view : View) (options : DrawOptions) (active : List Identity)
    (path : Path) (lead : String) (depth : Nat) :
    EndsAtError (view.drawInside options active path lead depth) := by
  induction active, path, lead, depth using drawInside.induct view options with
  | case1 active path lead depth error hOpen =>
      rw [drawInside_of_error hOpen]
      exact endsAtError_error error
  | case2 active path lead depth identity entries hOpen ih =>
      rw [drawInside_of_ok hOpen]
      apply endsAtError_siblings
      intro entry below
      split
      · exact ih entry below
      · exact endsAtError_nil

theorem endsAtError_draw (view : View) (options : DrawOptions) (root : Path) :
    EndsAtError (view.draw options root) := by
  unfold draw
  split
  · exact endsAtError_error _
  · split
    · exact endsAtError_nil
    · exact endsAtError_drawInside view options [] root "" 1

end View

end HostTree
