import HostTree.Proofs.Report.Outcome

/-!
A report and then another one on what the first has left behind. The first may have made the
marker's file; this takes nothing away from what the second looks at, and shows only where
directories are listed that hold it.
-/

namespace HostTree

namespace Report

variable {report : Report} {surroundings : Surroundings} {fs left : FileSystem}
  {state : MarkerState}

theorem does_writeTouch (surroundings : Surroundings) (hShown : report.shows .touch = true)
    (hTouch : fs.touchMarker report.marker = (.ok state, left)) :
    Run.Does (report.writeSections surroundings [.touch]) fs (.ok ())
      (Octets.ofString (Section.touchText state)) left := by
  have hOutcome : report.outcome fs .touch = .ok () :=
    outcome_touch_of_ok (congrArg Prod.fst hTouch)
  have hDoes : Run.Does (report.writeSections surroundings [.touch]) fs (.ok ())
      (report.text surroundings fs .touch ++ []) (report.leaves fs .touch) :=
    does_cons_of_ok hShown hOutcome (Run.does_pure () _)
  simpa only [text, leaves, hTouch, List.append_nil] using hDoes

/-- A report that shows the marker ends well if the tree is drawn to its end, where it is shown, and
the marker is found or made. -/
theorem does_write (surroundings : Surroundings) (hShown : report.shows .touch = true)
    (hTree : report.shows .tree = true → (fs.view.draw report.drawing report.root).IsComplete)
    (hTouch : fs.touchMarker report.marker = (.ok state, left)) :
    ∃ before, Run.Does (report.write surroundings) fs (.ok ())
      (before ++ Octets.ofString (Section.touchText state)) left :=
  ⟨_, does_append (by decide) (endsWell_quiet_iff.2 hTree)
    (does_writeTouch surroundings hShown hTouch)⟩

/-- There is no other way for such a report to end well. -/
theorem write_eq_ok (hShown : report.shows .touch = true) {written : Octets} {after : RunState}
    (hRun : report.write surroundings ⟨fs, ⟨written, none⟩⟩ = (.ok (), after)) :
    (report.shows .tree = true → (fs.view.draw report.drawing report.root).IsComplete) ∧
      ∃ state, fs.touchMarker report.marker = (.ok state, after.fileSystem) := by
  have hSections : report.writeSections surroundings (quiet ++ [.touch]) ⟨fs, ⟨written, none⟩⟩ =
      (.ok (), after) := hRun
  obtain ⟨hQuiet, later, hTouch⟩ := endsWell_of_append (by decide) hSections
  refine ⟨endsWell_quiet_iff.1 hQuiet, ?_⟩
  rcases hMarker : fs.touchMarker report.marker with ⟨outcome, left⟩
  cases outcome with
  | error error =>
      have hOutcome := outcome_touch_of_error (congrArg Prod.fst hMarker)
      rw [does_cons_of_error hShown hOutcome _ later] at hTouch
      cases hTouch
  | ok state =>
      rw [does_writeTouch surroundings hShown hMarker later] at hTouch
      cases hTouch
      exact ⟨state, rfl⟩

end Report

namespace Program

open CommandLine Walk

/-- Whether what a line shows is a file that the marker leads to and that was not there before. -/
def ShowsMarker (fs left : FileSystem) (marker : Path)
    (shown : (Path × Nat) × String × EntryKind) : Prop :=
  ∃ inode node, left.find marker = .ok (inode, node) ∧ fs.node? inode = none ∧
    ShowsNew (left.Holds inode) shown

/-- What the walk shows on the file system that a look for a marker leaves behind. -/
theorem completes_of_touchMarker {fs left : FileSystem} {marker : Path} {state : MarkerState}
    (hTouch : fs.touchMarker marker = (.ok state, left)) {options : DrawOptions} {root : Path}
    {lines : List Line} (hCompletes : Completes fs.view options root lines) :
    ∃ others, Completes left.view options root others ∧
      Extends (ShowsMarker fs left marker) (lines.map Line.shown) (others.map Line.shown) := by
  obtain ⟨rfl, -, -⟩ | ⟨-, -, directory, name, hVacant, rfl⟩ :=
    FileSystem.touchMarker_eq_ok hTouch
  · exact ⟨lines, hCompletes, .refl _⟩
  · have hGains := FileSystem.gainsFile_add fs directory name .newFile (.octets [])
    have hFind := FileSystem.find_add hVacant .newFile (.octets [])
    obtain ⟨others, hOthers, hExtends⟩ := hCompletes.gains (FileSystem.view_gains hGains)
    refine ⟨others, hOthers, hExtends.imp ?_⟩
    intro shown hShows
    exact ⟨_, _, hFind, hGains.vacant, hShows⟩

/-- A run that reports on the marker, and ends well, can be followed by another one with the same
settings, whatever is found around it. This one ends well with the same exit status, says that it is
the second, and changes nothing. If the tree is drawn in the first run, it is drawn to its end; and
if it can be drawn to its end before the first run, it can be after it, and shows the same with at
most the marker's new file put in. -/
theorem perform_again (settings : Settings) (first second : Surroundings) (fs : FileSystem)
    (code : Int) (after : RunState) (hReport : settings.command = .report)
    (hTouch : .touch ∉ settings.skipped)
    (hFirst : perform settings first ⟨fs, .unlimited⟩ = (.ok code, after)) :
    (∃ before, perform settings second ⟨after.fileSystem, .unlimited⟩ =
      (.ok code, ⟨after.fileSystem,
        ⟨before ++ Octets.ofString "\n### Touch\nsecond run\n", none⟩⟩)) ∧
    (.tree ∉ settings.skipped →
      ∃ lines, Completes fs.view settings.drawing settings.treeRoot lines) ∧
    ∀ lines, Completes fs.view settings.drawing settings.treeRoot lines →
      ∃ others, Completes after.fileSystem.view settings.drawing settings.treeRoot others ∧
        Extends (ShowsMarker fs after.fileSystem settings.marker)
          (lines.map Line.shown) (others.map Line.shown) := by
  obtain ⟨rfl, hWrite⟩ := write_of_perform_report hReport hFirst
  obtain ⟨hTree, state, hMarker⟩ := Report.write_eq_ok (shows_reportOf_iff.2 hTouch) hWrite
  have hDrawn : .tree ∉ settings.skipped →
      ∃ lines, Completes fs.view settings.drawing settings.treeRoot lines := by
    intro hSkipped
    obtain ⟨lines, hLines⟩ := (hTree (shows_reportOf_iff.2 hSkipped)).exists_lines
    exact ⟨lines, completes_iff.2 hLines⟩
  refine ⟨?_, hDrawn, fun lines hCompletes => completes_of_touchMarker hMarker hCompletes⟩
  have hTreeAgain : (reportOf settings second).shows .tree = true →
      (after.fileSystem.view.draw settings.drawing settings.treeRoot).IsComplete := by
    intro hShows
    obtain ⟨lines, hLines⟩ := hDrawn (shows_reportOf_iff.1 hShows)
    obtain ⟨others, hOthers, -⟩ := completes_of_touchMarker hMarker hLines
    exact hOthers.isComplete
  obtain ⟨before, hDoes⟩ := Report.does_write second (shows_reportOf_iff.2 hTouch) hTreeAgain
    (FileSystem.touchMarker_again hMarker)
  exact ⟨before, perform_report_of_ok hReport hDoes⟩

/-- A current directory with a link `m` to the name `f` in `d`, which holds nothing. -/
def dangling : FileSystem :=
  ⟨[.directory .newDirectory 0 [],
    .directory .newDirectory 0 [(Octets.ofString "m", 3), (Octets.ofString "d", 2)],
    .directory .newDirectory 1 [],
    .link (.ofString "d/f")]⟩

/-- The same with an empty file where the link leads. -/
def danglingNoMore : FileSystem :=
  dangling.add 2 (Octets.ofString "f") (.file .newFile (.octets []))

/-- The link is the marker. -/
def onDangling : Settings :=
  { Settings.default with root := .ofString ".", drawing := unsorted, marker := .ofString "m" }

def midnight : Surroundings :=
  ⟨[], [], [], Scene.empty.time⟩

/-- The lines of what is there before the file. -/
def linesOfDangling : List Line :=
  [.ofEntry "" 1 (dangling.view.entry (.ofString ".") (Octets.ofString "m") .link) false,
    .ofEntry "" 1 (dangling.view.entry (.ofString ".") (Octets.ofString "d") .directory) true]

theorem completes_dangling : Completes dangling.view unsorted (.ofString ".") linesOfDangling := by
  have hStart : dangling.view.directory (.ofString ".") = .ok 1 := by decide
  have hRoot : dangling.view.openDirectory unsorted [] (.ofString ".") =
      .ok (1, [dangling.view.entry (.ofString ".") (Octets.ofString "m") .link,
        dangling.view.entry (.ofString ".") (Octets.ofString "d") .directory]) := by decide
  have hInside : dangling.view.openDirectory unsorted [1]
      (dangling.view.entry (.ofString ".") (Octets.ofString "d") .directory).path =
        .ok (2, []) := by decide
  rw [completes_iff, View.draw_eq_drawInside hStart (by decide), View.drawInside_of_ok hRoot]
  simp only [View.drawEntries_cons, View.drawEntries_nil]
  rw [if_neg (by decide), if_pos (by decide), View.drawInside_of_ok hInside]
  rfl

theorem exists_perform_dangling : ∃ text, perform onDangling midnight ⟨dangling, .unlimited⟩ =
    (.ok 17, ⟨danglingNoMore, ⟨text, none⟩⟩) := by
  have hTouch : dangling.touchMarker (.ofString "m") = (.ok .first, danglingNoMore) := by decide
  have hWrite : ∃ before, Run.Does ((reportOf onDangling midnight).write midnight) dangling
      (.ok ()) (before ++ Octets.ofString (Section.touchText .first)) danglingNoMore :=
    Report.does_write midnight (by decide) (fun _ => completes_dangling.isComplete) hTouch
  obtain ⟨before, hDoes⟩ := hWrite
  exact ⟨_, perform_report_of_ok rfl hDoes⟩

/-- What is drawn when the file is there. -/
theorem paths_danglingNoMore :
    (danglingNoMore.view.draw unsorted (.ofString ".")).lines.map (·.path) =
      [.ofString "./m", .ofString "./d", .ofString "./d/f"] := by
  have hStart : danglingNoMore.view.directory (.ofString ".") = .ok 1 := by decide
  have hRoot : danglingNoMore.view.openDirectory unsorted [] (.ofString ".") =
      .ok (1, [danglingNoMore.view.entry (.ofString ".") (Octets.ofString "m") .link,
        danglingNoMore.view.entry (.ofString ".") (Octets.ofString "d") .directory]) := by decide
  have hInside : danglingNoMore.view.openDirectory unsorted [1]
      (danglingNoMore.view.entry (.ofString ".") (Octets.ofString "d") .directory).path =
        .ok (2, [danglingNoMore.view.entry (.ofString "./d") (Octets.ofString "f") .file]) := by
    decide
  rw [View.draw_eq_drawInside hStart (by decide), View.drawInside_of_ok hRoot]
  simp only [View.drawEntries_cons, View.drawEntries_nil]
  rw [if_neg (by decide), if_pos (by decide), View.drawInside_of_ok hInside]
  decide

/-- The second report shows the file in its directory. -/
theorem perform_again_dangling : onDangling.command = .report ∧ .touch ∉ onDangling.skipped ∧
    ∃ after others, perform onDangling midnight ⟨dangling, .unlimited⟩ = (.ok 17, after) ∧
      (∃ before, perform onDangling midnight ⟨after.fileSystem, .unlimited⟩ =
        (.ok 17, ⟨after.fileSystem,
          ⟨before ++ Octets.ofString "\n### Touch\nsecond run\n", none⟩⟩)) ∧
      Completes after.fileSystem.view unsorted (.ofString ".") others ∧
      Extends (ShowsMarker dangling after.fileSystem (.ofString "m"))
        (linesOfDangling.map Line.shown) (others.map Line.shown) ∧
      others.map (·.path) = [.ofString "./m", .ofString "./d", .ofString "./d/f"] := by
  obtain ⟨text, hFirst⟩ := exists_perform_dangling
  obtain ⟨hSecond, -, hShows⟩ :=
    perform_again onDangling midnight midnight dangling 17 _ rfl (by decide) hFirst
  obtain ⟨others, hOthers, hExtends⟩ := hShows linesOfDangling completes_dangling
  refine ⟨rfl, by decide, _, others, hFirst, hSecond, hOthers, hExtends, ?_⟩
  have hDraw : danglingNoMore.view.draw unsorted (.ofString ".") = others.map .ok :=
    completes_iff.1 hOthers
  have hPaths := paths_danglingNoMore
  rwa [hDraw, Drawing.lines_map_ok] at hPaths

end Program

end HostTree
