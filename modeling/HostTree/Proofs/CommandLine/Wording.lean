import HostTree.CommandLine.Reader
import HostTree.Proofs.Text.Decimal
import HostTree.Proofs.Text.Utf8

/-!
Settings put into words. A parameter with a value is one word, the value behind an equals sign, so
nothing is left pending and a value may look like anything. Each of these words is read as the
setting that it was made for, and a level takes them one after the other.
-/

namespace HostTree

/-- The word for an order. -/
def SortMode.word : SortMode → String
  | .listing => "none"
  | .name => "name"

/-- The word for a format. -/
def Format.word : Format → String
  | .plain => "plain"
  | .json => "json"

/-- The word for a use of colours. -/
def ColorChoice.word : ColorChoice → String
  | .auto => "auto"
  | .always => "always"
  | .never => "never"

/-- The word for a section. -/
def Section.word : Section → String
  | .host => "host"
  | .arguments => "args"
  | .environment => "env"
  | .tree => "tree"
  | .touch => "touch"

namespace CommandLine

namespace Setting

/-- The octets of the value that a setting has, unless it is a flag. -/
def value? : Setting → Option Octets
  | .root place => some place.octets
  | .sort mode => some (Octets.ofString mode.word)
  | .directoriesFirst => none
  | .noFollowLinks => none
  | .maxDepth limit => some (Octets.ofString (toString limit))
  | .format choice => some (Octets.ofString choice.word)
  | .color choice => some (Octets.ofString choice.word)
  | .verbose => none
  | .marker place => some place.octets
  | .exitCode code => some (Octets.ofString (toString code))
  | .skip skipped => some (Octets.ofString skipped.word)
  | .database name => some (Octets.ofString name)
  | .path place => some place.octets

/-- The word that makes a setting: `--name=value`, or `--name` for a flag, and `-v` for the flag
that is repeated. -/
def word (setting : Setting) : Octets :=
  match setting, setting.value? with
  | .verbose, _ => Octets.ofString "-v"
  | _, some value =>
    Octets.ofString "--" ++ Octets.ofString setting.parameter.name ++ Octets.equals :: value
  | _, none => Octets.ofString "--" ++ Octets.ofString setting.parameter.name

theorem word_of_value {setting : Setting} {value : Octets}
    (hValue : setting.value? = some value) :
    setting.word =
      Octets.ofString "--" ++ Octets.ofString setting.parameter.name ++ Octets.equals :: value := by
  cases setting <;> cases hValue <;> rfl

/-- Only flags have no value. -/
theorem exists_value {setting : Setting} {parameter : Valued}
    (hParameter : setting.parameter = .valued parameter) :
    ∃ value, setting.value? = some value := by
  cases setting <;> cases hParameter <;> exact ⟨_, rfl⟩

/-- Whether a setting is one that words can make: paths are not empty, and numbers fit. -/
def IsValid : Setting → Prop
  | .root place | .marker place | .path place => place.octets ≠ []
  | .maxDepth limit => limit < 0x10000000000000000
  | .exitCode code => -0x80000000 ≤ code ∧ code < 0x80000000
  | _ => True

end Setting

namespace Valued

theorem readPath_octets {path : Path} (hPath : path.octets ≠ []) :
    readPath path.octets = .ok path := by
  simp [readPath, hPath]

theorem readText_ofString (text : String) : readText (Octets.ofString text) = .ok text := by
  rw [readText, Utf8.decode?_ofString]

theorem readLimit_toString {limit : Nat} (hLimit : limit < 0x10000000000000000) :
    readLimit (Octets.ofString (toString limit)) = .ok limit := by
  have hSize : limit < UInt64.size := hLimit
  simp only [readLimit, readText_ofString, Decimal.natural?_toString, if_pos hSize]

theorem readCode_toString {code : Int} (hCode : -0x80000000 ≤ code ∧ code < 0x80000000) :
    readCode (Octets.ofString (toString code)) = .ok code := by
  simp only [readCode, readText_ofString, Decimal.integer?_toString, if_pos hCode]

theorem readChoice_sort (mode : SortMode) :
    readChoice sortChoices (Octets.ofString mode.word) = .ok mode := by
  cases mode <;> rfl

theorem readChoice_format (format : Format) :
    readChoice formatChoices (Octets.ofString format.word) = .ok format := by
  cases format <;> rfl

theorem readChoice_color (choice : ColorChoice) :
    readChoice colorChoices (Octets.ofString choice.word) = .ok choice := by
  cases choice <;> rfl

theorem readChoice_section (part : Section) :
    readChoice sectionChoices (Octets.ofString part.word) = .ok part := by
  cases part <;> rfl

/-- The value of a setting makes this setting again. -/
theorem read_value {setting : Setting} {parameter : Valued} {value : Octets}
    (hValid : setting.IsValid) (hParameter : setting.parameter = .valued parameter)
    (hValue : setting.value? = some value) : parameter.read value = .ok setting := by
  cases setting <;> cases hValue <;> cases hParameter
  case root | marker | path =>
    rw [read, readPath_octets hValid]
    rfl
  case sort mode =>
    rw [read, readChoice_sort]
    rfl
  case maxDepth limit =>
    rw [read, readLimit_toString hValid]
    rfl
  case format choice =>
    rw [read, readChoice_format]
    rfl
  case color choice =>
    rw [read, readChoice_color]
    rfl
  case exitCode code =>
    rw [read, readCode_toString hValid]
    rfl
  case skip part =>
    rw [read, readChoice_section]
    rfl
  case database name =>
    rw [read, readText_ofString]
    rfl

end Valued

end CommandLine

end HostTree
