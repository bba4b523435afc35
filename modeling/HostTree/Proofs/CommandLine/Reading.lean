import HostTree.Proofs.CommandLine.Wording

/-!
Words read one after the other. A reading that waits for nothing takes the word of a setting at once
and holds the setting behind those that it has, so a level holds the settings of its words in their
order.
-/

namespace HostTree

namespace CommandLine

/-- Whether parameters that may be given once are set once. -/
def IsOnce (settings : List Setting) : Prop :=
  settings.Pairwise fun first second =>
    first.parameter = second.parameter → second.parameter.repeats = true

/-- The name of every parameter is found at the levels that take it. -/
theorem Level.named?_name (level : Level) : ∀ parameter ∈ level.parameters,
    level.named? (Octets.ofString parameter.name) = some parameter := by
  cases level with
  | top => decide
  | tree => decide
  | database => decide

theorem Level.lettered?_verbose (level : Level) : level.lettered? 0x76 = some .verbose := by
  cases level <;> rfl

theorem Parameter.equals_notMem_name (parameter : Parameter) :
    Octets.equals ∉ Octets.ofString parameter.name := by
  cases parameter with
  | valued valued => cases valued <;> decide
  | flag flag => cases flag <;> decide

theorem Parameter.name_ne_nil (parameter : Parameter) : Octets.ofString parameter.name ≠ [] := by
  cases parameter with
  | valued valued => cases valued <;> decide
  | flag flag => cases flag <;> decide

namespace Word

theorem ofOctets_named_value {name : Octets} (hName : Octets.equals ∉ name) (value : Octets) :
    ofOctets (Octets.ofString "--" ++ name ++ Octets.equals :: value) =
      .named name (some value) := by
  have hDashes : Octets.ofString "--" = [dash, dash] := by decide
  rw [hDashes, List.append_assoc]
  simp [ofOctets, Octets.cutOnce_append hName]

theorem ofOctets_named {name : Octets} (hName : Octets.equals ∉ name) (hNonempty : name ≠ []) :
    ofOctets (Octets.ofString "--" ++ name) = .named name none := by
  have hDashes : Octets.ofString "--" = [dash, dash] := by decide
  rw [hDashes]
  simp [ofOctets, hNonempty, Octets.cutOnce_of_notMem hName]

end Word

/-- No command begins with a dash. -/
theorem CommandWord.named?_dash (rest : Octets) : named? (Word.dash :: rest) = none := by
  have hOther : ∀ choice ∈ commandChoices,
      (Octets.ofString choice.1).head? ≠ some Word.dash := by decide
  rw [named?, Option.map_eq_none_iff, List.find?_eq_none]
  intro choice hChoice
  simp only [decide_eq_true_eq]
  intro hEq
  exact hOther choice hChoice (by rw [hEq]; rfl)

/-- The word of a setting begins with a dash. -/
theorem Setting.exists_word_eq (setting : Setting) : ∃ rest, setting.word = Word.dash :: rest := by
  cases setting <;> exact ⟨_, rfl⟩

namespace Reading

/-- A reading that has come to some settings and waits for nothing. -/
def of (level : Level) (settings : List Setting) : Reading :=
  ⟨level, settings, none, false⟩

/-- Whether a parameter may be set behind some settings: it may be set more than once, or is set by
none of them. -/
def Admits (before : List Setting) (parameter : Parameter) : Prop :=
  ∀ earlier ∈ before, earlier.parameter = parameter → parameter.repeats = true

variable {level : Level} {before : List Setting} {setting : Setting}

theorem settle_ok {reading : Reading} (hAdmits : Admits reading.settings setting.parameter) :
    reading.settle setting.parameter (.ok setting) =
      .ok { reading with settings := reading.settings ++ [setting] } := by
  have hAllowed : (reading.holds setting.parameter && !setting.parameter.repeats) = false := by
    rw [Bool.and_eq_false_imp, holds, List.any_eq_true]
    rintro ⟨earlier, hMem, hSame⟩
    rw [hAdmits earlier hMem (of_decide_eq_true hSame)]
    rfl
  rw [settle, hAllowed]
  rfl

theorem settle_of (level : Level) (hAdmits : Admits before setting.parameter) :
    (of level before).settle setting.parameter (.ok setting) =
      .ok (of level (before ++ [setting])) :=
  settle_ok hAdmits

theorem raise_of {flag : Flag} (hParameter : setting.parameter = .flag flag) (detailed : Bool)
    (hAdmits : Admits before setting.parameter) :
    (of level before).raise flag detailed = .ok (of level (before ++ [setting])) := by
  have hSettle := settle_of level hAdmits
  cases setting <;> cases hParameter <;> exact hSettle

theorem letters_verbose (hAdmits : Admits before Setting.verbose.parameter) :
    (of level before).letters [0x76] = .ok (of level (before ++ [.verbose])) := by
  have hFlag : (of level before).level.lettered? 0x76 = some .verbose := level.lettered?_verbose
  simp only [letters, hFlag, raise_of rfl false hAdmits]

theorem named_flag {flag : Flag} (hParameter : setting.parameter = .flag flag)
    (hTaken : setting.parameter ∈ level.parameters) (hAdmits : Admits before setting.parameter) :
    (of level before).named (Octets.ofString setting.parameter.name) none =
      .ok (of level (before ++ [setting])) := by
  have hName : (of level before).level.named? (Octets.ofString setting.parameter.name) =
      some (.flag flag) := hParameter ▸ level.named?_name _ hTaken
  simp only [named, hName, raise_of hParameter true hAdmits]

theorem named_valued {parameter : Valued} {value : Octets} (hValid : setting.IsValid)
    (hParameter : setting.parameter = .valued parameter) (hValue : setting.value? = some value)
    (hTaken : setting.parameter ∈ level.parameters) (hAdmits : Admits before setting.parameter) :
    (of level before).named (Octets.ofString setting.parameter.name) (some value) =
      .ok (of level (before ++ [setting])) := by
  have hName : (of level before).level.named? (Octets.ofString setting.parameter.name) =
      some (.valued parameter) := hParameter ▸ level.named?_name _ hTaken
  have hResolve : (of level before).resolve = .ok (of level before) := rfl
  simp only [named, hName, hResolve, Valued.read_value hValid hParameter hValue]
  rw [← hParameter, settle_of level hAdmits]

theorem word_valued {parameter : Valued} (hValid : setting.IsValid)
    (hParameter : setting.parameter = .valued parameter)
    (hTaken : setting.parameter ∈ level.parameters) (hAdmits : Admits before setting.parameter) :
    (of level before).word setting.word = .ok (of level (before ++ [setting])) := by
  obtain ⟨value, hValue⟩ := Setting.exists_value hParameter
  have hWord := Word.ofOctets_named_value setting.parameter.equals_notMem_name value
  rw [← Setting.word_of_value hValue] at hWord
  have hNamed := named_valued hValid hParameter hValue hTaken hAdmits
  simp only [word, hWord]
  exact hNamed

theorem word_flag {flag : Flag} (hParameter : setting.parameter = .flag flag)
    (hTaken : setting.parameter ∈ level.parameters) (hAdmits : Admits before setting.parameter) :
    (of level before).word setting.word = .ok (of level (before ++ [setting])) := by
  have hNamed := named_flag hParameter hTaken hAdmits
  have hWord := Word.ofOctets_named setting.parameter.equals_notMem_name
    setting.parameter.name_ne_nil
  cases setting <;> cases hParameter
  case directoriesFirst | noFollowLinks =>
    simp only [word, Setting.word, Setting.value?, hWord]
    exact hNamed
  case verbose =>
    have hLetters : Word.ofOctets Setting.verbose.word = .letters [0x76] := by decide
    simp only [word, hLetters]
    exact letters_verbose hAdmits

/-- The word of a setting is read as this setting. -/
theorem word_of (hValid : setting.IsValid) (hTaken : setting.parameter ∈ level.parameters)
    (hAdmits : Admits before setting.parameter) :
    (of level before).word setting.word = .ok (of level (before ++ [setting])) := by
  cases hParameter : setting.parameter with
  | valued parameter => exact word_valued hValid hParameter hTaken hAdmits
  | flag flag => exact word_flag hParameter hTaken hAdmits

/-- The words of settings are read as these settings, one behind the other. -/
theorem words_map_word {said : List Setting} (hValid : ∀ setting ∈ said, setting.IsValid)
    (hTaken : ∀ setting ∈ said, setting.parameter ∈ level.parameters)
    (hOnce : IsOnce (before ++ said)) (rest : List Octets) :
    (of level before).words (said.map Setting.word ++ rest) =
      (of level (before ++ said)).words rest := by
  -- Every setting read is one more that the next one stands behind.
  induction said generalizing before with
  | nil => simp
  | cons setting said ih =>
      rw [List.forall_mem_cons] at hValid hTaken
      have hAdmits : Admits before setting.parameter := fun earlier hEarlier hSame =>
        (List.pairwise_append.1 hOnce).2.2 earlier hEarlier setting List.mem_cons_self hSame
      have hCommand : (of level before).command? setting.word = none := by
        obtain ⟨behind, hWord⟩ := setting.exists_word_eq
        rw [hWord]
        cases level
        case top => exact CommandWord.named?_dash behind
        case tree | database => rfl
      rw [List.map_cons, List.cons_append, words]
      simp only [hCommand, word_of hValid.1 hTaken.1 hAdmits]
      rw [ih hValid.2 hTaken.2 (by simpa using hOnce), List.append_assoc, List.singleton_append]

/-- The word of a command ends the words of its level. -/
theorem words_command {word : Octets} {command : CommandWord} (before : List Setting)
    (hNamed : CommandWord.named? word = some command) (rest : List Octets) :
    (of .top before).words (word :: rest) = .ok (of .top before, some (command, rest)) := by
  have hCommand : (of .top before).command? word = some command := hNamed
  simp only [words, hCommand]

/-- What stands behind two dashes is kept for the path of the tree, whatever it looks like. -/
theorem words_path {said : List Setting} (place : Path)
    (hPath : ∀ setting ∈ said, setting.parameter ≠ .valued .path) :
    (of .tree said).words [Octets.ofString "--", place.octets] =
      .ok (⟨.tree, said, some (.path, some place.octets), true⟩, none) := by
  have hEscape : Word.ofOctets (Octets.ofString "--") = .escape := by decide
  have hHolds : said.any (fun setting => setting.parameter = .valued .path) = false := by
    simpa using hPath
  simp [words, command?, word, hEscape, of, operand, hasPath, holds, hHolds, resolve]

theorem resolve_path {said : List Setting} {place : Path} (hPlace : place.octets ≠ [])
    (hPath : ∀ setting ∈ said, setting.parameter ≠ .valued .path) (escaped : Bool) :
    resolve ⟨.tree, said, some (.path, some place.octets), escaped⟩ =
      .ok ⟨.tree, said ++ [.path place], none, escaped⟩ := by
  have hRead : Valued.path.read place.octets = .ok (.path place) := Valued.read_value hPlace rfl rfl
  have hAdmits : Admits said (Setting.path place).parameter := fun earlier hEarlier hSame =>
    absurd hSame (hPath earlier hEarlier)
  have hSettle : settle ⟨.tree, said, none, escaped⟩ (Setting.path place).parameter
      (.ok (.path place)) = .ok ⟨.tree, said ++ [.path place], none, escaped⟩ := settle_ok hAdmits
  simp only [resolve, hRead]
  exact hSettle

end Reading

variable {words : List Octets} {front inner : List Setting}

/-- A command line without a command is what its top level holds. -/
theorem read_of_top (hTop : (Reading.start .top).words words = (Reading.of .top front).words []) :
    read words = .ok (settings .top [] front) := by
  rw [read, hTop]
  rfl

/-- A command line with a command is what both its levels hold. -/
theorem read_of_command {word : Octets} {level : Level} {rest : List Octets}
    (hTop : (Reading.start .top).words words = (Reading.of .top front).words (word :: rest))
    (hNamed : CommandWord.named? word = some (.level level))
    (hInner : readLevel level rest = .ok inner) :
    read words = .ok (settings level inner front) := by
  rw [read, hTop, Reading.words_command front hNamed]
  simp only [hInner]
  rfl

end CommandLine

end HostTree
