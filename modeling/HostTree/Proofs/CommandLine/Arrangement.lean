import HostTree.Proofs.CommandLine.Reading

/-!
Settings of a run arranged on the two levels of a command line. What a run's settings say is told
parameter by parameter; an arrangement may mix the parameters as it likes, as long as each keeps to
one level. The settings that are made of an arrangement are those that it was made from.
-/

namespace HostTree

attribute [ext] DrawOptions Settings

/-- The level at which the words behind a command are read. -/
def Command.level : Command → CommandLine.Level
  | .report => .top
  | .tree _ => .tree
  | .database _ => .database

namespace Settings

open CommandLine

/-- What must be said to set a parameter as it is set. -/
def said (settings : Settings) : Parameter → List Setting
  | .valued .root => [.root settings.root]
  | .valued .sort => [.sort settings.drawing.sort]
  | .valued .maxDepth => settings.drawing.depthLimit.toList.map .maxDepth
  | .valued .format => [.format settings.format]
  | .valued .color => [.color settings.color]
  | .valued .marker => [.marker settings.marker]
  | .valued .exitCode => [.exitCode settings.exitCode]
  | .valued .skip => settings.skipped.map .skip
  | .valued .database =>
    match settings.command with
    | .database name => [.database name]
    | _ => []
  | .valued .path =>
    match settings.command with
    | .tree (some place) => [.path place]
    | _ => []
  | .flag .directoriesFirst => if settings.drawing.directoriesFirst then [.directoriesFirst] else []
  | .flag .noFollowLinks => if settings.drawing.followLinks then [] else [.noFollowLinks]
  | .flag .verbose => List.replicate settings.verbosity .verbose
  | .flag .help | .flag .version => []

/-- Whether settings can be said: no path is empty, and numbers are in the range of their type. -/
structure IsValid (settings : Settings) : Prop where
  root : settings.root.octets ≠ []
  marker : settings.marker.octets ≠ []
  path : ∀ place, settings.command = .tree (some place) → place.octets ≠ []
  depthLimit : ∀ limit, settings.drawing.depthLimit = some limit → limit < 0x10000000000000000
  verbosity : settings.verbosity ≤ 255
  exitCode : -0x80000000 ≤ settings.exitCode ∧ settings.exitCode < 0x80000000

variable {settings : Settings} {parameter : Parameter} {setting : Setting}

theorem parameter_of_mem_said (hMem : setting ∈ settings.said parameter) :
    setting.parameter = parameter := by
  cases parameter with
  | valued valued => cases valued <;> grind [said, Setting.parameter]
  | flag flag => cases flag <;> grind [said, Setting.parameter]

theorem isValid_of_mem_said (hValid : settings.IsValid) (hMem : setting ∈ settings.said parameter) :
    setting.IsValid := by
  obtain ⟨hRoot, hMarker, hPath, hLimit, -, hCode⟩ := hValid
  cases parameter with
  | valued valued => cases valued <;> grind [said, Setting.IsValid]
  | flag flag => cases flag <;> grind [said, Setting.IsValid]

theorem length_said_le (settings : Settings) (hOnce : parameter.repeats = false) :
    (settings.said parameter).length ≤ 1 := by
  cases parameter with
  | valued valued => cases valued <;> grind [said, Parameter.repeats]
  | flag flag => cases flag <;> grind [said, Parameter.repeats]

end Settings

namespace CommandLine

/-- The parameters that can be set in front of a command only. -/
def Level.own : List Parameter :=
  [.valued .marker, .valued .exitCode, .valued .skip]

/-- The settings of one parameter, in their order. -/
def occurrences (parameter : Parameter) (settings : List Setting) : List Setting :=
  settings.filter fun setting => setting.parameter = parameter

variable {parameter : Parameter} {setting : Setting} {said : List Setting}

theorem occurrences_append (parameter : Parameter) (before behind : List Setting) :
    occurrences parameter (before ++ behind) =
      occurrences parameter before ++ occurrences parameter behind :=
  List.filter_append ..

theorem mem_occurrences_iff :
    setting ∈ occurrences parameter said ↔ setting ∈ said ∧ setting.parameter = parameter := by
  rw [occurrences, List.mem_filter, decide_eq_true_eq]

theorem occurrences_eq_nil_iff :
    occurrences parameter said = [] ↔ ∀ setting ∈ said, setting.parameter ≠ parameter := by
  simp [occurrences]

/-- Whether what is read off settings is read off those of one parameter. -/
def Concerns (parameter : Parameter) (matter : Setting → Option α) : Prop :=
  ∀ setting, setting.parameter ≠ parameter → matter setting = none

/-- What is read off the settings of one parameter is read off all settings. -/
theorem filterMap_occurrences {matter : Setting → Option α} (hMatter : Concerns parameter matter)
    (said : List Setting) :
    (occurrences parameter said).filterMap matter = said.filterMap matter := by
  rw [occurrences, List.filterMap_filter]
  congr 1
  funext setting
  by_cases hSame : setting.parameter = parameter
  · simp [hSame]
  · simp [hSame, hMatter setting hSame]

theorem count_occurrences (setting : Setting) (said : List Setting) :
    (occurrences setting.parameter said).count setting = said.count setting :=
  List.count_filter (decide_eq_true rfl)

end CommandLine

namespace Settings

open CommandLine

variable {settings : Settings} {parameter : Parameter} {setting : Setting}
  {front behind : List Setting}

/-- Settings in front of a command and behind it that say what the settings of a run are. Those of
different parameters may stand in any order. -/
structure IsArranged (settings : Settings) (front behind : List Setting) : Prop where
  /-- Each parameter is set as it is to be set, several times in their order. The path, which has no
  name, is last. -/
  each : ∀ parameter, occurrences parameter (front ++ behind ++ settings.said (.valued .path)) =
    settings.said parameter
  /-- No parameter is set on both sides. -/
  together : ∀ first ∈ front, ∀ second ∈ behind, first.parameter ≠ second.parameter
  own_front : ∀ setting ∈ behind, setting.parameter ∉ Level.own
  database_behind : ∀ setting ∈ front, setting.parameter ≠ .valued .database
  /-- Without a command there is nothing behind it. -/
  report_front : settings.command = .report → behind = []

/-- What is said behind a command, the path included. -/
def inner (settings : Settings) (behind : List Setting) : List Setting :=
  behind ++ settings.said (.valued .path)

theorem occurrences_said_self (settings : Settings) (parameter : Parameter) :
    occurrences parameter (settings.said parameter) = settings.said parameter :=
  List.filter_eq_self.2 fun _ hMem => decide_eq_true (parameter_of_mem_said hMem)

theorem occurrences_said_of_ne {other : Parameter} (hOther : other ≠ parameter) :
    occurrences parameter (settings.said other) = [] :=
  occurrences_eq_nil_iff.2 fun _ hMem hSame => hOther (parameter_of_mem_said hMem ▸ hSame)

/-- Where each parameter of a list has its turn, it is set as it is to be set. -/
theorem occurrences_flatMap_said (settings : Settings) {parameters : List Parameter}
    (hDistinct : parameters.Nodup) (hMem : parameter ∈ parameters) :
    occurrences parameter (parameters.flatMap settings.said) = settings.said parameter := by
  induction parameters with
  | nil => cases hMem
  | cons first rest ih =>
      rw [List.nodup_cons] at hDistinct
      rw [List.flatMap_cons, occurrences_append]
      rcases List.mem_cons.1 hMem with rfl | hRest
      · have hNone : occurrences parameter (rest.flatMap settings.said) = [] := by
          rw [occurrences_eq_nil_iff]
          intro setting hSetting hSame
          obtain ⟨other, hOther, hSaid⟩ := List.mem_flatMap.1 hSetting
          rw [parameter_of_mem_said hSaid] at hSame
          exact hDistinct.1 (hSame ▸ hOther)
        rw [hNone, occurrences_said_self, List.append_nil]
      · have hOther : first ≠ parameter := fun hSame => hDistinct.1 (hSame ▸ hRest)
        rw [occurrences_said_of_ne hOther, ih hDistinct.2 hRest, List.nil_append]

/-- All that can be said in front of a command may be said there. -/
theorem isArranged_top (settings : Settings) :
    settings.IsArranged (Level.top.parameters.flatMap settings.said)
      (settings.said (.valued .database)) where
  each parameter := by
    have hAll : parameter ∈ Level.top.parameters ++ [.valued Valued.database, .valued .path] := by
      cases parameter with
      | valued valued => cases valued <;> decide
      | flag flag => cases flag <;> decide
    have hEach := settings.occurrences_flatMap_said (by decide) hAll
    simpa using hEach
  together first hFirst second hSecond hSame := by
    obtain ⟨parameter, hTop, hSaid⟩ := List.mem_flatMap.1 hFirst
    rw [parameter_of_mem_said hSaid, parameter_of_mem_said hSecond] at hSame
    exact absurd (hSame ▸ hTop) (by decide)
  own_front setting hSetting := by
    rw [parameter_of_mem_said hSetting]
    decide
  database_behind setting hSetting hSame := by
    obtain ⟨parameter, hTop, hSaid⟩ := List.mem_flatMap.1 hSetting
    rw [parameter_of_mem_said hSaid] at hSame
    exact absurd (hSame ▸ hTop) (by decide)
  report_front hReport := by rw [said, hReport]

namespace IsArranged

variable (hArranged : settings.IsArranged front behind)
include hArranged

theorem occurrences_eq (parameter : Parameter) :
    occurrences parameter (front ++ settings.inner behind) = settings.said parameter := by
  rw [inner, ← List.append_assoc, hArranged.each]

/-- What is said at one of the levels is what is to be said. -/
theorem mem_iff : setting ∈ settings.inner behind ++ front ↔
    setting ∈ settings.said setting.parameter := by
  rw [← hArranged.occurrences_eq, mem_occurrences_iff, List.mem_append, List.mem_append, or_comm,
    and_iff_left rfl]

/-- Apart from the path, each parameter is set as it is to be set in front of the command or behind
it. -/
theorem occurrences_front_behind (hParameter : parameter ≠ .valued .path) :
    occurrences parameter (front ++ behind) = settings.said parameter := by
  have hEach := hArranged.each parameter
  rwa [occurrences_append, occurrences_said_of_ne hParameter.symm, List.append_nil] at hEach

theorem mem_front_behind_iff (hParameter : setting.parameter ≠ .valued .path) :
    setting ∈ front ++ behind ↔ setting ∈ settings.said setting.parameter := by
  rw [← hArranged.occurrences_front_behind hParameter, mem_occurrences_iff, and_iff_left rfl]

/-- The path is said once, in its own place. -/
theorem parameter_ne_path (hMem : setting ∈ front ++ behind) :
    setting.parameter ≠ .valued .path := by
  have hEach := hArranged.each (.valued .path)
  rw [occurrences_append, occurrences_said_self] at hEach
  exact occurrences_eq_nil_iff.1 (List.self_eq_append_left.1 hEach.symm) setting hMem

/-- Each parameter is set at one of the levels. -/
theorem occurrences_cases (parameter : Parameter) :
    occurrences parameter front = settings.said parameter ∧
        occurrences parameter (settings.inner behind) = [] ∨
      occurrences parameter front = [] ∧
        occurrences parameter (settings.inner behind) = settings.said parameter := by
  have hEach := hArranged.occurrences_eq parameter
  rw [occurrences_append] at hEach
  by_cases hFront : occurrences parameter front = []
  · exact .inr ⟨hFront, by simpa [hFront] using hEach⟩
  · -- What is set in front is not set behind, and the path is never set in front.
    obtain ⟨first, hFirst⟩ := List.exists_mem_of_ne_nil _ hFront
    rw [mem_occurrences_iff] at hFirst
    have hInner : occurrences parameter (settings.inner behind) = [] := by
      rw [occurrences_eq_nil_iff]
      intro second hSecond hSame
      rcases List.mem_append.1 hSecond with hBehind | hPath
      · exact hArranged.together first hFirst.1 second hBehind (hFirst.2.trans hSame.symm)
      · refine hArranged.parameter_ne_path (List.mem_append_left _ hFirst.1) ?_
        rw [hFirst.2, ← hSame, parameter_of_mem_said hPath]
    rw [hInner, List.append_nil] at hEach
    exact .inl ⟨hEach, hInner⟩

/-- What is picked is what is said on the parameter, or else what holds by default. -/
theorem pick_eq (parameter : Parameter) {matter : Setting → Option α}
    (hMatter : Concerns parameter matter) (default : α) :
    pick (settings.inner behind) front default matter =
      ((settings.said parameter).findSome? matter).getD default := by
  simp only [pick, ← List.head?_filterMap]
  rw [← filterMap_occurrences hMatter front,
    ← filterMap_occurrences hMatter (settings.inner behind)]
  rcases hArranged.occurrences_cases parameter with ⟨hFront, hInner⟩ | ⟨hFront, hInner⟩
  · rw [hFront, hInner]
    rfl
  · rw [hFront, hInner, List.filterMap_nil, List.head?_nil, Option.or_none]

theorem verbosity_eq (hVerbosity : settings.verbosity ≤ 255) :
    CommandLine.verbosity (settings.inner behind) front = settings.verbosity := by
  have hSaid : (settings.said (.flag .verbose)).count .verbose = settings.verbosity :=
    List.count_replicate_self
  have hFront := count_occurrences .verbose front
  have hInner := count_occurrences .verbose (settings.inner behind)
  rw [CommandLine.verbosity, ← hFront, ← hInner]
  rcases hArranged.occurrences_cases Setting.verbose.parameter with ⟨hTop, hNone⟩ | ⟨hNone, hTop⟩
  · rw [hTop, hNone]
    simp [Setting.parameter, hSaid, hVerbosity]
  · rw [hTop, hNone]
    simp only [Setting.parameter, hSaid, List.count_nil]
    split <;> omega

theorem skipped_eq {matter : Setting → Option Section}
    (hMatter : Concerns (.valued .skip) matter)
    (hSkip : ∀ skipped, matter (.skip skipped) = some skipped) :
    front.filterMap matter = settings.skipped := by
  have hBehind : occurrences (.valued .skip) (settings.inner behind) = [] := by
    rw [inner, occurrences_append, occurrences_said_of_ne (by decide), List.append_nil,
      occurrences_eq_nil_iff]
    intro setting hSetting hSame
    exact hArranged.own_front setting hSetting (hSame ▸ by decide)
  have hFront : occurrences (.valued .skip) front = settings.skipped.map .skip := by
    rcases hArranged.occurrences_cases (.valued .skip) with ⟨hFront, -⟩ | ⟨hFront, hInner⟩
    · exact hFront
    · rw [hFront, ← hBehind, hInner]
      rfl
  have hSame : matter ∘ Setting.skip = some := funext hSkip
  rw [← filterMap_occurrences hMatter, hFront, List.filterMap_map, hSame, List.filterMap_some]

theorem findSome?_inner {matter : Setting → Option α} (hMatter : Concerns parameter matter)
    (hFront : ∀ setting ∈ front, setting.parameter ≠ parameter) :
    (settings.inner behind).findSome? matter = (settings.said parameter).findSome? matter := by
  have hEach := hArranged.occurrences_eq parameter
  rw [occurrences_append, occurrences_eq_nil_iff.2 hFront, List.nil_append] at hEach
  rw [← List.head?_filterMap, ← filterMap_occurrences hMatter, List.head?_filterMap, hEach]

/-- What a command is told behind it is all that there is to tell it. -/
theorem command_eq :
    settings.command.level.command (settings.inner behind) = settings.command := by
  cases hCommand : settings.command with
  | report => rfl
  | tree path =>
      have hPath : ∀ setting ∈ front, setting.parameter ≠ .valued .path := fun setting hSetting =>
        hArranged.parameter_ne_path (List.mem_append_left _ hSetting)
      rw [Command.level, Level.command, hArranged.findSome?_inner ?_ hPath, said, hCommand]
      · cases path <;> rfl
      · rintro ⟨⟩ <;> simp [Setting.parameter]
  | database name =>
      rw [Command.level, Level.command, hArranged.findSome?_inner ?_ hArranged.database_behind,
        said, hCommand]
      · rfl
      · rintro ⟨⟩ <;> simp [Setting.parameter]

theorem drawing_eq :
    (CommandLine.settings settings.command.level (settings.inner behind) front).drawing =
      settings.drawing := by
  apply DrawOptions.ext
  case sort =>
    refine hArranged.pick_eq (.valued .sort) ?_ _
    rintro ⟨⟩ <;> simp [Setting.parameter]
  case directoriesFirst =>
    have hMem : decide (.directoriesFirst ∈ settings.inner behind ++ front) =
        decide (.directoriesFirst ∈ settings.said (.flag .directoriesFirst)) :=
      decide_eq_decide.2 hArranged.mem_iff
    refine hMem.trans ?_
    cases hFirst : settings.drawing.directoriesFirst <;> simp [said, hFirst]
  case followLinks =>
    have hMem : decide (.noFollowLinks ∉ settings.inner behind ++ front) =
        decide (.noFollowLinks ∉ settings.said (.flag .noFollowLinks)) :=
      decide_eq_decide.2 (not_congr hArranged.mem_iff)
    refine hMem.trans ?_
    cases hFollow : settings.drawing.followLinks <;> simp [said, hFollow]
  case depthLimit =>
    refine (hArranged.pick_eq (.valued .maxDepth) ?_ _).trans ?_
    · rintro ⟨⟩ <;> simp [Setting.parameter]
    · cases hLimit : settings.drawing.depthLimit <;> simp [said, hLimit]
      rfl

/-- The settings that an arrangement makes are those that it was made from. -/
theorem settings_eq (hVerbosity : settings.verbosity ≤ 255) :
    CommandLine.settings settings.command.level (settings.inner behind) front = settings := by
  apply Settings.ext
  case command => exact hArranged.command_eq
  case drawing => exact hArranged.drawing_eq
  case verbosity => exact hArranged.verbosity_eq hVerbosity
  case skipped =>
    refine hArranged.skipped_eq ?_ fun _ => rfl
    rintro ⟨⟩ <;> simp [Setting.parameter]
  case root =>
    refine hArranged.pick_eq (.valued .root) ?_ _
    rintro ⟨⟩ <;> simp [Setting.parameter]
  case format =>
    refine hArranged.pick_eq (.valued .format) ?_ _
    rintro ⟨⟩ <;> simp [Setting.parameter]
  case color =>
    refine hArranged.pick_eq (.valued .color) ?_ _
    rintro ⟨⟩ <;> simp [Setting.parameter]
  case marker =>
    refine hArranged.pick_eq (.valued .marker) ?_ _
    rintro ⟨⟩ <;> simp [Setting.parameter]
  case exitCode =>
    refine hArranged.pick_eq (.valued .exitCode) ?_ _
    rintro ⟨⟩ <;> simp [Setting.parameter]

end IsArranged

end Settings

end HostTree
