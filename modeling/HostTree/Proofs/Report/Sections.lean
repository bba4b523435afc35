import HostTree.Proofs.Output.Unlimited
import HostTree.Report.Report

/-!
What the sections of a report do where there is room for everything they write: how each of them
ends, what it says and what it leaves behind.
-/

namespace HostTree

namespace Run

theorem bind_of_ok {α β : Type} {run : Run α} {next : α → Run β} {a : α} {state after : RunState}
    (hRun : run state = (.ok a, after)) : (run >>= next) state = next a after := by
  change ExceptT.bindCont next (run state).1 (run state).2 = _
  rw [hRun]
  rfl

theorem bind_of_error {α β : Type} {run : Run α} {next : α → Run β} {failure : Failure}
    {state after : RunState} (hRun : run state = (.error failure, after)) :
    (run >>= next) state = (.error failure, after) := by
  change ExceptT.bindCont next (run state).1 (run state).2 = _
  rw [hRun]
  rfl

/-- Whether a part of a run, where there is room for everything, ends with an outcome, writes a text
and leaves a file system behind. -/
def Does {α : Type} (run : Run α) (fs : FileSystem) (outcome : Except Failure α) (text : Octets)
    (left : FileSystem) : Prop :=
  ∀ written, run ⟨fs, ⟨written, none⟩⟩ = (outcome, ⟨left, ⟨written ++ text, none⟩⟩)

variable {α β : Type} {fs middle left : FileSystem} {text later : Octets}

theorem does_pure (a : α) (fs : FileSystem) : Does (pure a) fs (.ok a) [] fs := by
  intro written
  rw [List.append_nil]
  rfl

theorem does_put (text : String) (fs : FileSystem) :
    Does (put text) fs (.ok ()) (Octets.ofString text) fs := by
  intro written
  simp only [put, writing, Sink.put_unlimited]
  rfl

theorem does_putHost (words : List UInt32) (time : ClockTime) (fs : FileSystem) :
    Does (putHost words time) fs (.ok ())
      (Octets.ofString Section.greeting ++ Octets.ofString (Section.drawAndTime words time))
      fs := by
  intro written
  simp only [putHost, writing, Sink.putHost_unlimited]
  rfl

theorem does_draw (style : Style) (options : DrawOptions) (root : Path) (fs : FileSystem) :
    Does (draw style options root) fs
      (((fs.view.draw options root).result.map fun _ => ()).mapError .tree)
      (style.text root (fs.view.draw options root)) fs := by
  intro written
  simp only [draw, Sink.writeDrawing_unlimited]
  cases Drawing.result (fs.view.draw options root) with
  | error error => rfl
  | ok count => rfl

theorem does_touch (marker : Path) (fs : FileSystem) :
    Does (touch marker) fs ((fs.touchMarker marker).1.mapError .io) []
      (fs.touchMarker marker).2 := by
  intro written
  rw [List.append_nil]
  rfl

theorem Does.during {run : Run α} {outcome : Except Failure α}
    (hRun : Does run fs outcome text left) (activity : Activity) :
    Does (run.during activity) fs (outcome.mapError (.during activity)) text left := by
  intro written
  simp only [Run.during, hRun written]

theorem Does.bind {run : Run α} {next : α → Run β} {a : α} {outcome : Except Failure β}
    (hRun : Does run fs (.ok a) text middle) (hNext : Does (next a) middle outcome later left) :
    Does (run >>= next) fs outcome (text ++ later) left := by
  intro written
  rw [bind_of_ok (hRun written), hNext, List.append_assoc]

theorem Does.bind_error {run : Run α} {next : α → Run β} {failure : Failure}
    (hRun : Does run fs (.error failure) text left) :
    Does (run >>= next) fs (.error failure) text left := by
  intro written
  rw [bind_of_error (hRun written)]

end Run

namespace Report

variable {report : Report} {surroundings : Surroundings} {fs left : FileSystem}

/-- How a section ends. -/
def outcome (report : Report) (fs : FileSystem) : Section → Except Failure Unit
  | .tree =>
    (((fs.view.draw report.drawing report.root).result.map fun _ => ()).mapError .tree).mapError
      (.during (.renderingTree report.root))
  | .touch =>
    (((fs.touchMarker report.marker).1.mapError .io).mapError
      (.during (.touchingMarker report.marker))).map fun _ => ()
  | _ => .ok ()

/-- What a section says. -/
def text (report : Report) (surroundings : Surroundings) (fs : FileSystem) : Section → Octets
  | .host =>
    Octets.ofString Section.greeting ++
      Octets.ofString (Section.drawAndTime surroundings.words surroundings.time)
  | .arguments =>
    Octets.ofString (Section.argumentsText (surroundings.arguments.map Utf8.lossy))
  | .environment => Octets.ofString (Section.environmentText surroundings.«variables»)
  | .tree =>
    Octets.ofString Section.treeHeading ++
      report.style.text report.root (fs.view.draw report.drawing report.root)
  | .touch =>
    match (fs.touchMarker report.marker).1 with
    | .ok state => Octets.ofString (Section.touchText state)
    | .error _ => []

/-- What a section leaves behind. -/
def leaves (report : Report) (fs : FileSystem) : Section → FileSystem
  | .touch => (fs.touchMarker report.marker).2
  | _ => fs

theorem does_section (report : Report) (surroundings : Surroundings) (fs : FileSystem)
    (part : Section) :
    Run.Does (report.writeSection surroundings part) fs (report.outcome fs part)
      (report.text surroundings fs part) (report.leaves fs part) := by
  cases part with
  | host => exact Run.does_putHost _ _ fs
  | arguments => exact Run.does_put _ fs
  | environment => exact Run.does_put _ fs
  | tree => exact (Run.does_put _ fs).bind (Run.Does.during (Run.does_draw _ _ _ fs) _)
  | touch =>
      have hTouch := (Run.does_touch report.marker fs).during (.touchingMarker report.marker)
      unfold text outcome
      cases hState : (fs.touchMarker report.marker).1 with
      | error error =>
          rw [hState] at hTouch
          exact hTouch.bind_error
      | ok state =>
          rw [hState] at hTouch
          exact hTouch.bind (Run.does_put _ _)

theorem does_cons_of_ok {part : Section} {rest : List Section} {outcome : Except Failure Unit}
    {later : Octets} (hShown : report.shows part = true) (hOk : report.outcome fs part = .ok ())
    (hRest : Run.Does (report.writeSections surroundings rest) (report.leaves fs part) outcome later
      left) :
    Run.Does (report.writeSections surroundings (part :: rest)) fs outcome
      (report.text surroundings fs part ++ later) left := by
  have hPart := does_section report surroundings fs part
  rw [hOk] at hPart
  rw [writeSections, if_pos hShown]
  exact hPart.bind hRest

theorem does_cons_of_error {part : Section} {failure : Failure}
    (hShown : report.shows part = true) (hError : report.outcome fs part = .error failure)
    (rest : List Section) :
    Run.Does (report.writeSections surroundings (part :: rest)) fs (.error failure)
      (report.text surroundings fs part) (report.leaves fs part) := by
  have hPart := does_section report surroundings fs part
  rw [hError] at hPart
  rw [writeSections, if_pos hShown]
  exact hPart.bind_error

theorem does_cons_of_skipped {part : Section} {rest : List Section}
    {outcome : Except Failure Unit} {later : Octets} (hSkipped : report.shows part = false)
    (hRest : Run.Does (report.writeSections surroundings rest) fs outcome later left) :
    Run.Does (report.writeSections surroundings (part :: rest)) fs outcome later left := by
  rw [writeSections, if_neg (by simp [hSkipped])]
  exact hRest

theorem leaves_of_ne_touch {part : Section} (hQuiet : part ≠ .touch) (report : Report)
    (fs : FileSystem) : report.leaves fs part = fs := by
  cases part with
  | touch => exact absurd rfl hQuiet
  | host | arguments | environment | tree => rfl

/-- Whether those of some sections that a report shows end well. -/
def EndsWell (report : Report) (fs : FileSystem) (parts : List Section) : Prop :=
  ∀ part ∈ parts, report.shows part = true → report.outcome fs part = .ok ()

/-- What those of some sections say that a report shows, one after the other. -/
def texts (report : Report) (surroundings : Surroundings) (fs : FileSystem)
    (parts : List Section) : Octets :=
  (parts.filter report.shows).flatMap (report.text surroundings fs)

theorem texts_cons_of_shown {part : Section} (hShown : report.shows part = true)
    (rest : List Section) :
    report.texts surroundings fs (part :: rest) =
      report.text surroundings fs part ++ report.texts surroundings fs rest := by
  rw [texts, List.filter_cons_of_pos hShown, List.flatMap_cons]
  rfl

theorem texts_cons_of_skipped {part : Section} (hSkipped : report.shows part = false)
    (rest : List Section) :
    report.texts surroundings fs (part :: rest) = report.texts surroundings fs rest := by
  rw [texts, List.filter_cons_of_neg (by simp [hSkipped])]
  rfl

theorem texts_append (report : Report) (surroundings : Surroundings) (fs : FileSystem)
    (parts others : List Section) :
    report.texts surroundings fs (parts ++ others) =
      report.texts surroundings fs parts ++ report.texts surroundings fs others := by
  rw [texts, List.filter_append, List.flatMap_append]
  rfl

/-- Behind sections that only look and end well, the others go on with the same file system. -/
theorem does_append {parts rest : List Section} {outcome : Except Failure Unit} {later : Octets}
    (hQuiet : .touch ∉ parts) (hEndsWell : report.EndsWell fs parts)
    (hRest : Run.Does (report.writeSections surroundings rest) fs outcome later left) :
    Run.Does (report.writeSections surroundings (parts ++ rest)) fs outcome
      (report.texts surroundings fs parts ++ later) left := by
  induction parts with
  | nil => exact hRest
  | cons part parts ih =>
      rw [List.mem_cons, not_or] at hQuiet
      rw [EndsWell, List.forall_mem_cons] at hEndsWell
      have hParts := ih hQuiet.2 hEndsWell.2
      cases hShown : report.shows part with
      | false =>
          rw [texts_cons_of_skipped hShown]
          exact does_cons_of_skipped hShown hParts
      | true =>
          rw [texts_cons_of_shown hShown, List.append_assoc]
          refine does_cons_of_ok hShown (hEndsWell.1 hShown) ?_
          rw [leaves_of_ne_touch (Ne.symm hQuiet.1)]
          exact hParts

/-- If sections end well, those do that only look, and the others after them with the same file
system. -/
theorem endsWell_of_append {parts rest : List Section} {written : Octets} {state : RunState}
    (hQuiet : .touch ∉ parts)
    (hRun : report.writeSections surroundings (parts ++ rest) ⟨fs, ⟨written, none⟩⟩ =
      (.ok (), state)) :
    report.EndsWell fs parts ∧
      ∃ later, report.writeSections surroundings rest ⟨fs, ⟨later, none⟩⟩ = (.ok (), state) := by
  induction parts generalizing written with
  | nil => exact ⟨by simp [EndsWell], written, hRun⟩
  | cons part parts ih =>
      rw [List.mem_cons, not_or] at hQuiet
      rw [EndsWell, List.forall_mem_cons]
      rw [List.cons_append] at hRun
      cases hShown : report.shows part with
      | false =>
          rw [writeSections, if_neg (by simp [hShown])] at hRun
          obtain ⟨hEndsWell, hRest⟩ := ih hQuiet.2 hRun
          exact ⟨⟨by simp, hEndsWell⟩, hRest⟩
      | true =>
          cases hOutcome : report.outcome fs part with
          | error failure =>
              -- Nothing is written behind the first failure, so the run would end with it.
              rw [does_cons_of_error hShown hOutcome _ written] at hRun
              cases hRun
          | ok _ =>
              have hPart := does_section report surroundings fs part written
              rw [hOutcome, leaves_of_ne_touch (Ne.symm hQuiet.1)] at hPart
              rw [writeSections, if_pos hShown, Run.bind_of_ok hPart] at hRun
              obtain ⟨hEndsWell, hRest⟩ := ih hQuiet.2 hRun
              exact ⟨⟨fun _ => rfl, hEndsWell⟩, hRest⟩

/-- The sections that say nothing of the file system. -/
def preamble : List Section :=
  [.host, .arguments, .environment]

/-- The sections that only look at the file system. -/
def quiet : List Section :=
  [.host, .arguments, .environment, .tree]

theorem outcome_tree_eq_ok_iff : report.outcome fs .tree = .ok () ↔
    (fs.view.draw report.drawing report.root).IsComplete := by
  rw [← Drawing.exists_result_eq_ok_iff, outcome]
  cases Drawing.result (fs.view.draw report.drawing report.root) with
  | error error => exact iff_of_false (fun hOk => by cases hOk) (by simp)
  | ok count => exact iff_of_true rfl ⟨count, rfl⟩

theorem endsWell_quiet_iff : report.EndsWell fs quiet ↔
    (report.shows .tree = true → (fs.view.draw report.drawing report.root).IsComplete) := by
  rw [← outcome_tree_eq_ok_iff]
  simp [EndsWell, quiet, outcome]

end Report

end HostTree
