import HostTree.Program
import HostTree.Proofs.CommandLine.Arrangement

/-!
Whole command lines. The words of an arrangement, with the word of the command between its levels
and the path of the tree last, are read as the settings that were arranged, and the program does
what these settings ask for.
-/

namespace HostTree

open CommandLine

/-- What is neither kept to one level nor without a name can be set at every level. -/
theorem CommandLine.Setting.parameter_mem_shared (setting : Setting)
    (hOwn : setting.parameter ∉ Level.own) (hDatabase : setting.parameter ≠ .valued .database)
    (hPath : setting.parameter ≠ .valued .path) : setting.parameter ∈ Level.shared := by
  cases setting <;> simp [parameter, Level.shared, Level.own] at hOwn hDatabase hPath ⊢

namespace Command

/-- The words for the path of a tree: two dashes make it a path, whatever it looks like. -/
def operand : Command → List Octets
  | .tree (some place) => [Octets.ofString "--", place.octets]
  | _ => []

/-- The words of a command, with those of the settings behind it. -/
def words (behind : List Setting) : Command → List Octets
  | .report => []
  | .tree path => Octets.ofString "tree" :: (behind.map Setting.word ++ operand (.tree path))
  | .database name =>
    Octets.ofString "sqlite" :: (behind.map Setting.word ++ operand (.database name))

end Command

/-- The section that a setting leaves out. -/
def CommandLine.Setting.skipped? : Setting → Option Section
  | .skip part => some part
  | _ => none

/-- Whether a report is the one that a command and other settings ask for: below the path of a tree
or else the root that is said; with the order, the marker and the sections to skip that are said; a
flag that is said makes a difference, and a limit that is not said is none. Rows of JSON have no
colours, and without a choice of colours the environment decides. -/
structure Report.IsAskedFor (report : Report) (command : Command) (said : List Setting)
    (environment : List Variable) : Prop where
  root_path : ∀ place, command = .tree (some place) → report.root = place
  root_said : (∀ place, command ≠ .tree (some place)) → .root report.root ∈ said
  sort : .sort report.drawing.sort ∈ said
  directoriesFirst : report.drawing.directoriesFirst = true ↔ .directoriesFirst ∈ said
  followLinks : report.drawing.followLinks = true ↔ .noFollowLinks ∉ said
  depthLimit : ∀ limit, report.drawing.depthLimit = some limit ↔ .maxDepth limit ∈ said
  json : .format .json ∈ said → report.style = .json
  always : .format .plain ∈ said → .color .always ∈ said → report.style = .coloured
  never : .format .plain ∈ said → .color .never ∈ said → report.style = .plain
  auto : .format .plain ∈ said → .color .auto ∈ said →
    (report.style = .coloured ∨ report.style = .plain) ∧
      (report.style = .coloured ↔ Environment.value? environment "NO_COLOR" = none ∧
        ∃ term, Environment.value? environment "TERM" = some term ∧
          term ≠ Octets.ofString "dumb")
  marker : .marker report.marker ∈ said
  skipped : report.skipped = said.filterMap Setting.skipped?

namespace Settings

/-- The words of settings, some in front of the command and some behind it. -/
def words (settings : Settings) (front behind : List Setting) : List Octets :=
  front.map Setting.word ++ settings.command.words behind

theorem terminalHasColours_iff {environment : List Variable} :
    terminalHasColours environment = true ↔ Environment.value? environment "NO_COLOR" = none ∧
      ∃ term, Environment.value? environment "TERM" = some term ∧
        term ≠ Octets.ofString "dumb" := by
  rw [terminalHasColours]
  cases Environment.value? environment "TERM" with
  | none => simp
  | some term => simp [and_comm]

namespace IsArranged

variable {settings : Settings} {front behind : List Setting}
  (hArranged : settings.IsArranged front behind)
include hArranged

/-- Only what repeats is said more than once. -/
theorem isOnce : IsOnce (front ++ settings.inner behind) := by
  rw [IsOnce, List.pairwise_iff_forall_sublist]
  intro first second hSub hSame
  cases hRepeats : second.parameter.repeats with
  | true => rfl
  | false =>
      -- Both settings would be among what sets their parameter, which is one setting at most.
      have hPair : (occurrences second.parameter [first, second]).Sublist
          (settings.said second.parameter) := hArranged.occurrences_eq _ ▸ hSub.filter _
      have hTwice : 2 ≤ (settings.said second.parameter).length := by
        simpa [occurrences, hSame] using hPair.length_le
      have hOnce := settings.length_said_le hRepeats
      omega

theorem parameter_mem_top : ∀ setting ∈ front, setting.parameter ∈ Level.top.parameters := by
  intro setting hSetting
  have hDatabase := hArranged.database_behind setting hSetting
  have hPath := hArranged.parameter_ne_path (List.mem_append_left _ hSetting)
  cases setting <;> simp [Setting.parameter, Level.parameters, Level.shared] at hDatabase hPath ⊢

theorem parameter_mem_level :
    ∀ setting ∈ behind, setting.parameter ∈ settings.command.level.parameters := by
  intro setting hSetting
  have hShared : setting.parameter ≠ .valued .database → setting.parameter ∈ Level.shared :=
    fun hDatabase => setting.parameter_mem_shared (hArranged.own_front setting hSetting)
      hDatabase (hArranged.parameter_ne_path (List.mem_append_right _ hSetting))
  cases hCommand : settings.command with
  | report =>
      rw [hArranged.report_front hCommand] at hSetting
      cases hSetting
  | tree path =>
      have hDatabase : setting.parameter ≠ .valued .database := by
        intro hSame
        have hSaid := hArranged.mem_iff.1
          (List.mem_append_left front (List.mem_append_left _ hSetting))
        rw [hSame, said, hCommand] at hSaid
        cases hSaid
      exact List.mem_append_left _ (hShared hDatabase)
  | database name =>
      by_cases hDatabase : setting.parameter = .valued .database
      · rw [hDatabase]
        exact List.mem_cons_self
      · exact List.mem_cons_of_mem _ (List.mem_append_left _ (hShared hDatabase))

theorem format_eq {format : Format} (hSaid : .format format ∈ front ++ behind) :
    settings.format = format := by
  have hFormat := (hArranged.mem_front_behind_iff (by simp [Setting.parameter])).1 hSaid
  simpa [Setting.parameter, said, eq_comm] using hFormat

theorem color_eq {choice : ColorChoice} (hSaid : .color choice ∈ front ++ behind) :
    settings.color = choice := by
  have hColor := (hArranged.mem_front_behind_iff (by simp [Setting.parameter])).1 hSaid
  simpa [Setting.parameter, said, eq_comm] using hColor

/-- The report of settings is the one that an arrangement of them asks for. -/
theorem isAskedFor (surroundings : Surroundings) :
    (Program.reportOf settings surroundings).IsAskedFor settings.command (front ++ behind)
      surroundings.«variables» where
  root_path place hCommand := by
    rw [Program.reportOf, treeRoot, hCommand]
  root_said hNone := by
    have hRoot : settings.treeRoot = settings.root := by
      rw [treeRoot]
      split
      · next place hCommand => exact absurd hCommand (hNone place)
      · rfl
    rw [Program.reportOf, hRoot, hArranged.mem_front_behind_iff (by simp [Setting.parameter])]
    exact List.mem_singleton_self _
  sort := by
    rw [hArranged.mem_front_behind_iff (by simp [Setting.parameter])]
    exact List.mem_singleton_self _
  directoriesFirst := by
    rw [hArranged.mem_front_behind_iff (by simp [Setting.parameter]), Setting.parameter, said]
    cases hFirst : settings.drawing.directoriesFirst <;> simp [Program.reportOf, hFirst]
  followLinks := by
    rw [hArranged.mem_front_behind_iff (by simp [Setting.parameter]), Setting.parameter, said]
    cases hFollow : settings.drawing.followLinks <;> simp [Program.reportOf, hFollow]
  depthLimit limit := by
    rw [hArranged.mem_front_behind_iff (by simp [Setting.parameter]), Setting.parameter, said]
    cases hLimit : settings.drawing.depthLimit <;> simp [Program.reportOf, hLimit, eq_comm]
  json hJson := by
    rw [Program.reportOf, style, hArranged.format_eq hJson]
  always hPlain hAlways := by
    simp [Program.reportOf, style, coloured, hArranged.format_eq hPlain,
      hArranged.color_eq hAlways]
  never hPlain hNever := by
    simp [Program.reportOf, style, coloured, hArranged.format_eq hPlain,
      hArranged.color_eq hNever]
  auto hPlain hAuto := by
    simp only [Program.reportOf, style, coloured, hArranged.format_eq hPlain,
      hArranged.color_eq hAuto]
    rw [← terminalHasColours_iff]
    cases terminalHasColours surroundings.«variables» <;> decide
  marker := by
    rw [hArranged.mem_front_behind_iff (by simp [Setting.parameter])]
    exact List.mem_singleton_self _
  skipped := by
    have hSkip : Concerns (.valued .skip) Setting.skipped? := by
      rintro ⟨⟩ <;> simp [Setting.parameter, Setting.skipped?]
    rw [← filterMap_occurrences hSkip, hArranged.occurrences_front_behind (by decide), said]
    simp [Program.reportOf, Setting.skipped?, List.filterMap_map, Function.comp_def]

variable (hValid : settings.IsValid)
include hValid

theorem isValid_of_mem : ∀ setting ∈ settings.inner behind ++ front, setting.IsValid :=
  fun _ hMem => isValid_of_mem_said hValid (hArranged.mem_iff.1 hMem)

/-- What stands in front of a command is read as it was arranged. -/
theorem words_front : (Reading.start .top).words (settings.words front behind) =
    (Reading.of .top front).words (settings.command.words behind) := by
  refine Reading.words_map_word ?_ hArranged.parameter_mem_top ?_ _
  · exact fun setting hSetting =>
      hArranged.isValid_of_mem hValid setting (List.mem_append_right _ hSetting)
  · exact hArranged.isOnce.sublist (List.sublist_append_left ..)

/-- What stands behind a command is read as it was arranged. -/
theorem readLevel_inner :
    readLevel settings.command.level (behind.map Setting.word ++ settings.command.operand) =
      .ok (settings.inner behind) := by
  have hBehind : (Reading.start settings.command.level).words
      (behind.map Setting.word ++ settings.command.operand) =
      (Reading.of settings.command.level behind).words settings.command.operand := by
    refine Reading.words_map_word ?_ hArranged.parameter_mem_level ?_ _
    · exact fun setting hSetting => hArranged.isValid_of_mem hValid setting
        (List.mem_append_left _ (List.mem_append_left _ hSetting))
    · exact hArranged.isOnce.sublist
        ((List.sublist_append_left ..).trans (List.sublist_append_right ..))
  rw [readLevel, hBehind, inner, said]
  cases hCommand : settings.command with
  | report | database name =>
      rw [List.append_nil]
      rfl
  | tree path =>
      cases path with
      | none =>
          rw [List.append_nil]
          rfl
      | some place =>
          have hPath : ∀ setting ∈ behind, setting.parameter ≠ .valued .path :=
            fun setting hSetting => hArranged.parameter_ne_path (List.mem_append_right _ hSetting)
          rw [Command.level, Command.operand, Reading.words_path place hPath]
          simp only [Reading.resolve_path (hValid.path place hCommand) hPath]
          rfl

/-- The words of an arrangement are read as the settings that were arranged. -/
theorem read_words : CommandLine.read (settings.words front behind) = .ok settings := by
  have hTop := hArranged.words_front hValid
  have hInner := hArranged.readLevel_inner hValid
  have hSettings := hArranged.settings_eq hValid.verbosity
  refine Eq.trans ?_ (congrArg Except.ok hSettings)
  cases hCommand : settings.command with
  | report =>
      have hNone : settings.inner behind = [] := by
        rw [inner, hArranged.report_front hCommand, said, hCommand]
        rfl
      rw [hCommand] at hTop
      rw [hNone]
      exact read_of_top hTop
  | tree path =>
      have hNamed : CommandWord.named? (Octets.ofString "tree") = some (.level .tree) := by decide
      rw [hCommand] at hTop hInner
      exact read_of_command hTop hNamed hInner
  | database name =>
      have hNamed : CommandWord.named? (Octets.ofString "sqlite") = some (.level .database) := by
        decide
      rw [hCommand] at hTop hInner
      exact read_of_command hTop hNamed hInner

end IsArranged

/-- All settings can be put into words, and whatever the order of the words and the level at which
those are told that all levels share, they are read as these settings again: the program does what
the settings ask for, and the root, the drawing, the style, the marker and the sections of its
report are those that the words ask for. -/
theorem words_read_back (settings : Settings) (hValid : settings.IsValid) :
    (∃ front behind, settings.IsArranged front behind) ∧
      ∀ front behind, settings.IsArranged front behind →
        CommandLine.read (settings.words front behind) = .ok settings ∧
          ∀ (surroundings : Surroundings),
            (Program.reportOf settings surroundings).IsAskedFor settings.command (front ++ behind)
              surroundings.«variables» ∧
            (Program.reportOf settings surroundings).root = settings.treeRoot ∧
            (Program.reportOf settings surroundings).drawing = settings.drawing ∧
            ∀ (fs : FileSystem), surroundings.arguments.tail = settings.words front behind →
              Program.run surroundings fs =
                Program.conclude (Program.perform settings surroundings ⟨fs, .unlimited⟩) := by
  refine ⟨⟨_, _, settings.isArranged_top⟩, fun front behind hArranged => ?_⟩
  have hRead := hArranged.read_words hValid
  refine ⟨hRead, fun surroundings => ⟨hArranged.isAskedFor surroundings, rfl, rfl, ?_⟩⟩
  intro fs hArguments
  rw [← hArguments, ← List.drop_one] at hRead
  simp only [Program.run, hRead]

/-- Settings whose paths look like parameters, with numbers at the ends of their ranges. -/
def misleading : Settings where
  command := .tree (some (.ofString "-x=y"))
  root := .ofString "--"
  drawing :=
    { sort := .listing
      directoriesFirst := true
      followLinks := false
      depthLimit := some 18446744073709551615 }
  format := .json
  color := .auto
  verbosity := 2
  marker := .ofString "=tree"
  exitCode := -2147483648
  skipped := [.tree, .host, .tree]

/-- Both levels have settings, and those of one parameter stand apart from each other. -/
theorem words_read_back_misleading :
    misleading.IsValid ∧
      CommandLine.read
        (["--skip=tree", "-v", "--sort=none", "--marker==tree", "--skip=host",
          "--exit-code=-2147483648", "-v", "--skip=tree", "tree", "--no-follow-symlinks",
          "--max-depth=18446744073709551615", "--color=auto", "--root=--", "--format=json",
          "--dirs-first", "--", "-x=y"].map Octets.ofString) = .ok misleading := by
  have hValid : misleading.IsValid := {
    root := by decide
    marker := by decide
    path := by
      rintro place hPlace
      cases hPlace
      decide
    depthLimit := by
      rintro limit hLimit
      cases hLimit
      decide
    verbosity := by decide
    exitCode := by decide }
  have hArranged : misleading.IsArranged
      [.skip .tree, .verbose, .sort .listing, .marker (.ofString "=tree"), .skip .host,
        .exitCode (-2147483648), .verbose, .skip .tree]
      [.noFollowLinks, .maxDepth 18446744073709551615, .color .auto, .root (.ofString "--"),
        .format .json, .directoriesFirst] := {
    each := by
      rintro (valued | flag)
      · cases valued <;> rfl
      · cases flag <;> rfl
    together := by decide
    own_front := by decide
    database_behind := by decide
    report_front := by rintro ⟨⟩ }
  have hRead := ((words_read_back misleading hValid).2 _ _ hArranged).1
  refine ⟨hValid, Eq.trans (congrArg CommandLine.read ?_) hRead⟩
  decide +kernel

end Settings

end HostTree
