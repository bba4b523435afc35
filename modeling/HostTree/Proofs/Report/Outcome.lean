import HostTree.Proofs.Drawing.Restriction
import HostTree.Proofs.Report.Messages
import HostTree.Proofs.Report.Texts
import HostTree.Scene

/-!
How a report ends, where there is room for everything it writes: with all sections that it shows, or
in the middle of the tree, or in front of what it would say of the marker. Only a report that ends
well can change the file system, and then by one new file.
-/

namespace HostTree

namespace Report

open Walk

variable {report : Report} {fs left : FileSystem}

/-- Whether the tree, if a report shows it, is drawn to its end. -/
def DrawsTree (report : Report) (fs : FileSystem) : Prop :=
  report.shows .tree = true → ∃ lines, Completes fs.view report.drawing report.root lines

theorem drawsTree_iff : report.DrawsTree fs ↔ report.EndsWell fs quiet := by
  rw [endsWell_quiet_iff, DrawsTree]
  refine imp_congr_right fun _ => ?_
  constructor
  · rintro ⟨lines, hCompletes⟩
    exact hCompletes.isComplete
  · intro hComplete
    obtain ⟨lines, hLines⟩ := hComplete.exists_lines
    exact ⟨lines, completes_iff.2 hLines⟩

theorem endsWell_preamble (report : Report) (fs : FileSystem) : report.EndsWell fs preamble := by
  intro part hPart _
  simp only [preamble, List.mem_cons, List.not_mem_nil, or_false] at hPart
  rcases hPart with rfl | rfl | rfl <;> rfl

/-- A tree that cannot be drawn to its end is the last thing that is written. -/
theorem does_write_of_fails (surroundings : Surroundings) {lines : List Line} {error : TreeError}
    (hShown : report.shows .tree = true)
    (hFails : Fails fs.view report.drawing report.root lines error) :
    Run.Does (report.write surroundings) fs
      (.error (.during (.renderingTree report.root) (.tree error)))
      (report.texts surroundings fs preamble ++
        (Octets.ofString Section.treeHeading ++
          report.style.text report.root (lines.map .ok))) fs := by
  have hDraw := fails_iff.1 hFails
  have hOutcome : report.outcome fs .tree =
      .error (.during (.renderingTree report.root) (.tree error)) := by
    rw [outcome, hDraw, Drawing.result_append_error]
    rfl
  have hTree : Run.Does (report.writeSections surroundings [.tree, .touch]) fs _
      (report.text surroundings fs .tree) fs :=
    does_cons_of_error hShown hOutcome [.touch]
  rw [text, hDraw, Style.text_append_error] at hTree
  exact does_append (by decide) (endsWell_preamble report fs) hTree

/-- What is said in front of the tree does not depend on the marker. -/
theorem texts_preamble_marker (report : Report) (surroundings : Surroundings) (fs : FileSystem)
    (marker : Path) :
    { report with marker := marker }.texts surroundings fs preamble =
      report.texts surroundings fs preamble := by
  refine List.flatMap_congr fun part hPart => ?_
  have hPreamble := List.mem_of_mem_filter hPart
  simp only [preamble, List.mem_cons, List.not_mem_nil, or_false] at hPreamble
  rcases hPreamble with rfl | rfl | rfl <;> rfl

/-- Which sections are written depends on which are to be skipped, and not on how that is said. -/
theorem writeSections_skipped (report : Report) {skipped : List Section}
    (hSame : ∀ part, part ∈ skipped ↔ part ∈ report.skipped) (surroundings : Surroundings)
    (parts : List Section) :
    { report with skipped := skipped }.writeSections surroundings parts =
      report.writeSections surroundings parts := by
  induction parts with
  | nil => rfl
  | cons part rest ih =>
      have hShows : { report with skipped := skipped }.shows part = report.shows part :=
        decide_eq_decide.2 (not_congr (hSame part))
      have hSection : { report with skipped := skipped }.writeSection surroundings part =
          report.writeSection surroundings part := by
        cases part <;> rfl
      rw [writeSections, writeSections, ih, hShows, hSection]

theorem outcome_touch_of_error {error : IoError}
    (hMarker : (fs.touchMarker report.marker).1 = .error error) :
    report.outcome fs .touch = .error (.during (.touchingMarker report.marker) (.io error)) := by
  rw [outcome, hMarker]
  rfl

theorem outcome_touch_of_ok {state : MarkerState}
    (hMarker : (fs.touchMarker report.marker).1 = .ok state) :
    report.outcome fs .touch = .ok () := by
  rw [outcome, hMarker]
  rfl

/-- Where the marker fails, all other sections have been written. -/
theorem does_write_of_marker_error (surroundings : Surroundings) {error : IoError}
    (hTree : report.DrawsTree fs) (hShown : report.shows .touch = true)
    (hMarker : (fs.touchMarker report.marker).1 = .error error) :
    Run.Does (report.write surroundings) fs
      (.error (.during (.touchingMarker report.marker) (.io error)))
      (report.texts surroundings fs quiet) fs := by
  have hTouch : Run.Does (report.writeSections surroundings [.touch]) fs _
      (report.text surroundings fs .touch) (fs.touchMarker report.marker).2 :=
    does_cons_of_error hShown (outcome_touch_of_error hMarker) []
  simp only [text, hMarker, FileSystem.touchMarker_of_error hMarker] at hTouch
  rw [← List.append_nil (report.texts surroundings fs quiet)]
  exact does_append (by decide) (drawsTree_iff.1 hTree) hTouch

/-- If the tree is drawn to its end and the marker found or made, all sections end well. -/
theorem endsWell_all (hTree : report.DrawsTree fs)
    (hMarker : report.shows .touch = true →
      ∃ state, (fs.touchMarker report.marker).1 = .ok state) :
    report.EndsWell fs Section.all := by
  intro part hPart hShown
  cases part with
  | host | arguments | environment | tree =>
      exact drawsTree_iff.1 hTree _ (by simp [quiet]) hShown
  | touch =>
      obtain ⟨state, hState⟩ := hMarker hShown
      exact outcome_touch_of_ok hState

/-- What a report leaves behind that ends well. -/
def leftBehind (report : Report) (fs : FileSystem) : FileSystem :=
  if report.shows .touch then (fs.touchMarker report.marker).2 else fs

/-- Otherwise all sections are written. -/
theorem does_write_of_ok (surroundings : Surroundings) (hTree : report.DrawsTree fs)
    (hMarker : report.shows .touch = true →
      ∃ state, (fs.touchMarker report.marker).1 = .ok state) :
    Run.Does (report.write surroundings) fs (.ok ())
      (report.texts surroundings fs Section.all) (report.leftBehind fs) := by
  have hTouch : Run.Does (report.writeSections surroundings [.touch]) fs (.ok ())
      (report.texts surroundings fs [.touch]) (report.leftBehind fs) := by
    cases hShown : report.shows .touch with
    | false =>
        rw [texts_cons_of_skipped hShown, leftBehind, if_neg (by simp [hShown])]
        exact does_cons_of_skipped hShown (Run.does_pure () fs)
    | true =>
        obtain ⟨state, hState⟩ := hMarker hShown
        rw [texts_cons_of_shown hShown, leftBehind, if_pos hShown]
        exact does_cons_of_ok hShown (outcome_touch_of_ok hState) (Run.does_pure () _)
  have hAll : Section.all = quiet ++ [.touch] := rfl
  rw [hAll, texts_append]
  exact does_append (by decide) (drawsTree_iff.1 hTree) hTouch

end Report

namespace Program

open CommandLine Walk

variable {settings : Settings} {surroundings : Surroundings} {fs left : FileSystem}

/-- How a run ends that is to write a report, and what file system it leaves. -/
inductive Ends (settings : Settings) (surroundings : Surroundings) (fs : FileSystem) :
    Outcome → FileSystem → Prop where
  /-- The walk fails. What has been drawn by then is the last output. -/
  | treeFails {lines : List Line} {error : TreeError} {before drawn : Octets}
      (hShown : .tree ∉ settings.skipped)
      (hFails : Fails fs.view settings.drawing settings.treeRoot lines error)
      (hBefore : Reports settings surroundings fs [.host, .arguments, .environment] before)
      (hDrawn : (settings.style surroundings.«variables»).Draws settings.treeRoot lines drawn) :
      Ends settings surroundings fs
        { status := 1
          output := before ++ (Octets.ofString "\n### Recursive Files\n" ++ drawn)
          message := "Error: rendering tree below " ++ settings.treeRoot.display ++
            Failure.ofTree error ++ "\n" }
        fs
  /-- There is no telling whether the marker is there, or it cannot be made. -/
  | markerFails {error : IoError} {output : Octets}
      (hTree : (reportOf settings surroundings).DrawsTree fs) (hShown : .touch ∉ settings.skipped)
      (hMarker : (fs.touchMarker settings.marker).1 = .error error)
      (hOutput : Reports settings surroundings fs [.host, .arguments, .environment, .tree] output) :
      Ends settings surroundings fs
        { status := 1
          output := output
          message := "Error: touching marker " ++ settings.marker.display ++
            ("\n\nCaused by:\n    " ++ Failure.hanging "    " error.message) ++ "\n" }
        fs
  /-- All that is shown is written, and the marker is there or of no interest. -/
  | unchanged {status : Nat} {output : Octets}
      (hTree : (reportOf settings surroundings).DrawsTree fs)
      (hMarker : .touch ∈ settings.skipped ∨ fs.exists? settings.marker = .ok true)
      (hStatus : (status : Int) = settings.exitCode % 256)
      (hOutput : Reports settings surroundings fs
        [.host, .arguments, .environment, .tree, .touch] output) :
      Ends settings surroundings fs { status := status, output := output, message := "" } fs
  /-- All that is shown is written, and the marker is made, which was not there. -/
  | marked {status : Nat} {output : Octets} {left : FileSystem}
      (hTree : (reportOf settings surroundings).DrawsTree fs)
      (hShown : .touch ∉ settings.skipped)
      (hMarker : fs.GainsMarker left settings.marker)
      (hStatus : (status : Int) = settings.exitCode % 256)
      (hOutput : Reports settings surroundings fs
        [.host, .arguments, .environment, .tree, .touch] output) :
      Ends settings surroundings fs { status := status, output := output, message := "" } left

theorem perform_report (hReport : settings.command = .report) (surroundings : Surroundings) :
    perform settings surroundings =
      (reportOf settings surroundings).write surroundings >>= fun _ => pure settings.exitCode := by
  rw [perform, hReport]

theorem perform_report_of_ok (hReport : settings.command = .report) {text : Octets}
    (hDoes : Run.Does ((reportOf settings surroundings).write surroundings) fs (.ok ()) text left) :
    perform settings surroundings ⟨fs, .unlimited⟩ =
      (.ok settings.exitCode, ⟨left, ⟨text, none⟩⟩) := by
  rw [perform_report hReport]
  exact Run.bind_of_ok (hDoes [])

/-- A run that asks for a report ends well only if the report does. -/
theorem write_of_perform_report (hReport : settings.command = .report)
    {before after : RunState} {code : Int}
    (hRun : perform settings surroundings before = (.ok code, after)) :
    code = settings.exitCode ∧
      (reportOf settings surroundings).write surroundings before = (.ok (), after) := by
  rw [perform_report hReport] at hRun
  rcases hWrite : (reportOf settings surroundings).write surroundings before with ⟨outcome, state⟩
  cases outcome with
  | error failure =>
      rw [Run.bind_of_error hWrite] at hRun
      cases hRun
  | ok _ =>
      rw [Run.bind_of_ok hWrite] at hRun
      cases hRun
      exact ⟨rfl, rfl⟩

theorem perform_report_of_error (hReport : settings.command = .report) {failure : Failure}
    {text : Octets}
    (hDoes : Run.Does ((reportOf settings surroundings).write surroundings) fs (.error failure) text
      left) :
    perform settings surroundings ⟨fs, .unlimited⟩ = (.error failure, ⟨left, ⟨text, none⟩⟩) := by
  rw [perform_report hReport]
  exact Run.bind_of_error (hDoes [])

theorem perform_report_of_fails (hReport : settings.command = .report) (surroundings : Surroundings)
    (hShown : .tree ∉ settings.skipped) {lines : List Line} {error : TreeError}
    (hFails : Fails fs.view settings.drawing settings.treeRoot lines error) :
    perform settings surroundings ⟨fs, .unlimited⟩ =
      (.error (.during (.renderingTree settings.treeRoot) (.tree error)),
        ⟨fs, ⟨(reportOf settings surroundings).texts surroundings fs Report.preamble ++
          (Octets.ofString Section.treeHeading ++
            (settings.style surroundings.«variables»).text settings.treeRoot (lines.map .ok)),
          none⟩⟩) :=
  perform_report_of_error hReport
    (Report.does_write_of_fails surroundings (shows_reportOf_iff.2 hShown) hFails)

theorem keptStatus_eq (code : Int) : (keptStatus code : Int) = code % 256 :=
  Int.toNat_of_nonneg (Int.emod_nonneg code (by decide))

/-- A report that draws its tree to the end and does not fail at the marker ends well. -/
theorem ends_of_ok (hReport : settings.command = .report)
    (hTree : (reportOf settings surroundings).DrawsTree fs)
    (hMarker : .touch ∉ settings.skipped →
      ∃ state, (fs.touchMarker settings.marker).1 = .ok state) :
    Ends settings surroundings fs (conclude (perform settings surroundings ⟨fs, .unlimited⟩)).1
      (conclude (perform settings surroundings ⟨fs, .unlimited⟩)).2 := by
  have hShownMarker : (reportOf settings surroundings).shows .touch = true →
      ∃ state, (fs.touchMarker settings.marker).1 = .ok state :=
    fun hShown => hMarker (shows_reportOf_iff.1 hShown)
  have hTexts := reports_texts (Report.endsWell_all hTree hShownMarker)
  rw [perform_report_of_ok hReport (Report.does_write_of_ok surroundings hTree hShownMarker)]
  by_cases hSkipped : .touch ∈ settings.skipped
  · have hLeft : (reportOf settings surroundings).leftBehind fs = fs :=
      if_neg fun hShown => shows_reportOf_iff.1 hShown hSkipped
    rw [hLeft]
    exact .unchanged hTree (Or.inl hSkipped) (keptStatus_eq _) hTexts
  · have hLeft : (reportOf settings surroundings).leftBehind fs =
        (fs.touchMarker settings.marker).2 :=
      if_pos (shows_reportOf_iff.2 hSkipped)
    obtain ⟨state, hState⟩ := hMarker hSkipped
    have hTouch : fs.touchMarker settings.marker =
        (.ok state, (fs.touchMarker settings.marker).2) := by
      rw [← hState]
    rw [hLeft]
    cases state with
    | first =>
        exact .marked hTree hSkipped (FileSystem.touchMarker_eq_first hTouch) (keptStatus_eq _)
          hTexts
    | second =>
        obtain ⟨hSame, hThere⟩ := FileSystem.touchMarker_eq_second hTouch
        rw [hSame]
        exact .unchanged hTree (Or.inr hThere) (keptStatus_eq _) hTexts

theorem ends_perform (surroundings : Surroundings) (fs : FileSystem)
    (hReport : settings.command = .report) :
    Ends settings surroundings fs (conclude (perform settings surroundings ⟨fs, .unlimited⟩)).1
      (conclude (perform settings surroundings ⟨fs, .unlimited⟩)).2 := by
  by_cases hTree : (reportOf settings surroundings).DrawsTree fs
  · by_cases hMarker : .touch ∉ settings.skipped →
        ∃ state, (fs.touchMarker settings.marker).1 = .ok state
    · exact ends_of_ok hReport hTree hMarker
    · obtain ⟨hShown, hFailed⟩ := Classical.not_imp.1 hMarker
      cases hState : (fs.touchMarker settings.marker).1 with
      | ok state => exact absurd ⟨state, hState⟩ hFailed
      | error error =>
          rw [perform_report_of_error hReport (Report.does_write_of_marker_error surroundings hTree
            (shows_reportOf_iff.2 hShown) hState)]
          have hTexts := reports_texts (Report.drawsTree_iff.1 hTree)
          simp only [conclude, Failure.report_touchingMarker]
          exact .markerFails hTree hShown hState hTexts
  · obtain ⟨hShown, hIncomplete⟩ := Classical.not_imp.1 hTree
    obtain hCompletes | ⟨lines, error, hFails⟩ :=
      completes_or_fails fs.view settings.drawing settings.treeRoot
    · exact absurd hCompletes hIncomplete
    · have hTreeShown := shows_reportOf_iff.1 hShown
      have hTexts := reports_texts (Report.endsWell_preamble (reportOf settings surroundings) fs)
      rw [perform_report_of_fails hReport surroundings hTreeShown hFails]
      simp only [conclude, Failure.report_renderingTree]
      exact .treeFails hTreeShown hFails hTexts (Style.draws_text ..)

/-- Where the walk fails, the run can only end there. -/
theorem Ends.of_fails {outcome : Outcome} {lines : List Line} {error : TreeError}
    (hEnds : Ends settings surroundings fs outcome left) (hShown : .tree ∉ settings.skipped)
    (hFails : Fails fs.view settings.drawing settings.treeRoot lines error) :
    ∃ before drawn, Reports settings surroundings fs [.host, .arguments, .environment] before ∧
      (settings.style surroundings.«variables»).Draws settings.treeRoot lines drawn ∧
      outcome =
        { status := 1
          output := before ++ (Octets.ofString "\n### Recursive Files\n" ++ drawn)
          message := "Error: rendering tree below " ++ settings.treeRoot.display ++
            Failure.ofTree error ++ "\n" } ∧
      left = fs := by
  have hIncomplete : ¬(reportOf settings surroundings).DrawsTree fs :=
    fun hTree => hFails.not_completes (hTree (shows_reportOf_iff.2 hShown))
  cases hEnds with
  | markerFails hTree | unchanged hTree | marked hTree => exact absurd hTree hIncomplete
  | treeFails _ hOthers hBefore hDrawn =>
      obtain ⟨rfl, rfl⟩ := hOthers.unique hFails
      exact ⟨_, _, hBefore, hDrawn, rfl, rfl⟩

/-- A run that is to write a report ends in one of four ways, whatever is found around it and
whatever the file system is. Its output are the texts of the sections that are shown, in their
order, up to a failure of the walk or of the marker; the file system stays as it is unless the
marker is made, and nothing else is made or changed. In which order and how often the sections to
be skipped are named makes no difference; and after a failure of the walk the marker is not looked
at, so that any other one has the same end. -/
theorem report_ends (settings : Settings) (surroundings : Surroundings) (fs : FileSystem)
    (hReport : settings.command = .report) :
    Ends settings surroundings fs (conclude (perform settings surroundings ⟨fs, .unlimited⟩)).1
        (conclude (perform settings surroundings ⟨fs, .unlimited⟩)).2 ∧
    (∀ skipped : List Section, (∀ part, part ∈ skipped ↔ part ∈ settings.skipped) →
      perform { settings with skipped := skipped } surroundings =
        perform settings surroundings) ∧
    (∀ lines error marker, .tree ∉ settings.skipped →
      Fails fs.view settings.drawing settings.treeRoot lines error →
      perform { settings with marker := marker } surroundings ⟨fs, .unlimited⟩ =
        perform settings surroundings ⟨fs, .unlimited⟩) ∧
    (CommandLine.read (surroundings.arguments.drop 1) = .ok settings →
      run surroundings fs = conclude (perform settings surroundings ⟨fs, .unlimited⟩)) := by
  refine ⟨ends_perform surroundings fs hReport, ?_, ?_, ?_⟩
  · intro skipped hSame
    have hWrite : (reportOf { settings with skipped := skipped } surroundings).write surroundings =
        (reportOf settings surroundings).write surroundings :=
      Report.writeSections_skipped (reportOf settings surroundings) hSame surroundings Section.all
    have hOther : { settings with skipped := skipped }.command = .report := hReport
    rw [perform_report hOther, hWrite, perform_report hReport]
  · intro lines error marker hShown hFails
    have hTexts :
        (reportOf { settings with marker := marker } surroundings).texts surroundings fs
            Report.preamble =
          (reportOf settings surroundings).texts surroundings fs Report.preamble :=
      Report.texts_preamble_marker (reportOf settings surroundings) surroundings fs marker
    have hOther : { settings with marker := marker }.command = .report := hReport
    rw [perform_report_of_fails hOther surroundings hShown hFails, hTexts,
      perform_report_of_fails hReport surroundings hShown hFails]
    rfl
  · intro hRead
    rw [run, hRead]

/-- Settings for a tree in which a directory cannot be read. One section is skipped twice. -/
def onLocked : Settings :=
  { Settings.default with
    root := .ofString "."
    drawing := unsorted
    skipped := [.host, .arguments, .host] }

/-- The words that ask for them, with nothing else around. -/
def aroundLocked : Surroundings :=
  Scene.empty.surroundings
    (["probetree", "--skip=host", "--root=.", "--sort=none", "--skip=args", "--skip=host"].map
      Octets.ofString)

/-- What is said in front of the tree: that there are no variables. -/
theorem eq_of_reports_locked {before : Octets}
    (hBefore : Reports onLocked aroundLocked locked [.host, .arguments, .environment] before) :
    before = Octets.ofString "\n### Env Vars ###\n" := by
  have hEnvironment := (hBefore.of_skipped (by decide)).of_skipped (by decide)
  obtain ⟨text, later, rfl, hText, hNil⟩ := hEnvironment.of_shown (by decide)
  cases hNil
  cases hText with
  | @environment listed hListed =>
      have hNone : listed = [] := by
        refine List.eq_nil_iff_forall_not_mem.2 fun (name, value) hMem => ?_
        cases (hListed.mem_iff name value).1 hMem
      rw [hNone]
      decide

/-- What is drawn of the tree. -/
theorem eq_of_draws_locked {drawn : Octets}
    (hDrawn : Style.Draws (.ofString ".") linesOfLocked .plain drawn) :
    drawn = Octets.ofString ".\n├── l\n│   └── f\n├── d\n│   └── f\n└── z\n" := by
  cases hDrawn
  decide

/-- The report fails where the walk does. No marker is made, and another marker or other words for
the same sections make no difference. -/
theorem report_ends_locked : onLocked.command = .report ∧
    CommandLine.read (aroundLocked.arguments.drop 1) = .ok onLocked ∧
    Fails locked.view onLocked.drawing onLocked.treeRoot linesOfLocked
      (.permissionDenied (.ofString "./z")) ∧
    run aroundLocked locked =
      ({ status := 1
         output := Octets.ofString ("\n### Env Vars ###\n" ++
          ("\n### Recursive Files\n" ++ ".\n├── l\n│   └── f\n├── d\n│   └── f\n└── z\n"))
         message := "Error: rendering tree below .\n\nCaused by:\n    permission denied: ./z\n" },
        locked) ∧
    ∀ marker, perform { onLocked with marker := marker } aroundLocked ⟨locked, .unlimited⟩ =
      perform { onLocked with skipped := [.arguments, .host] } aroundLocked
        ⟨locked, .unlimited⟩ := by
  have hRead : CommandLine.read (aroundLocked.arguments.drop 1) = .ok onLocked := by decide
  have hSkipped : ∀ part, part ∈ [.arguments, .host] ↔ part ∈ onLocked.skipped := by
    intro part
    cases part <;> decide
  have hStyle : onLocked.style aroundLocked.«variables» = .plain := by decide
  have hMessage : "Error: rendering tree below " ++ onLocked.treeRoot.display ++
      Failure.ofTree (.permissionDenied (.ofString "./z")) ++ "\n" =
      "Error: rendering tree below .\n\nCaused by:\n    permission denied: ./z\n" := by
    decide +kernel
  obtain ⟨hEnds, hSame, hMarker, hRun⟩ := report_ends onLocked aroundLocked locked rfl
  refine ⟨rfl, hRead, fails_locked, ?ended, fun marker => ?same⟩
  case ended =>
    rw [hRun hRead]
    obtain ⟨before, drawn, hBefore, hDrawn, hOutcome, hLeft⟩ :=
      hEnds.of_fails (by decide) fails_locked
    rw [hStyle] at hDrawn
    rw [eq_of_reports_locked hBefore, eq_of_draws_locked hDrawn, ← Octets.ofString_append,
      ← Octets.ofString_append, hMessage] at hOutcome
    exact Prod.ext hOutcome hLeft
  case same => rw [hMarker linesOfLocked _ marker (by decide) fails_locked, hSame _ hSkipped]

end Program

end HostTree
