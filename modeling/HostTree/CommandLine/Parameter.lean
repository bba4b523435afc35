import HostTree.Report.Section
import HostTree.Text.Decimal
import HostTree.Tree.Line

/-!
What can be said on the command line: the levels of commands, the parameters that each level takes,
and the settings that parameters make.
-/

namespace HostTree

/-- How a tree is to be written. -/
inductive Format where
  | plain
  | json
deriving DecidableEq

/-- When colours are to be used. -/
inductive ColorChoice where
  /-- If the terminal is said to know them. -/
  | auto
  | always
  | never
deriving DecidableEq

namespace CommandLine

/-- The words that a parameter accepts, each with what it stands for. -/
abbrev Choices (α : Type) := List (String × α)

/-- The words for orders. -/
def sortChoices : Choices SortMode :=
  [("none", .listing), ("name", .name)]

/-- The words for formats. -/
def formatChoices : Choices Format :=
  [("plain", .plain), ("json", .json)]

/-- The words for the use of colours. -/
def colorChoices : Choices ColorChoice :=
  [("auto", .auto), ("always", .always), ("never", .never)]

/-- The words for sections. -/
def sectionChoices : Choices Section :=
  [("host", .host), ("args", .arguments), ("env", .environment), ("tree", .tree),
    ("touch", .touch)]

/-- The levels at which words are read. -/
inductive Level where
  /-- Before any command. -/
  | top
  /-- Behind the command that only draws the tree. -/
  | tree
  /-- Behind the command that tests a database. -/
  | database
deriving DecidableEq

/-- The parameters that take a value. -/
inductive Valued where
  | root
  | sort
  | maxDepth
  | format
  | color
  | marker
  | exitCode
  | skip
  | database
  /-- The one that is given without a name. -/
  | path
deriving DecidableEq

/-- The parameters that take none. -/
inductive Flag where
  | directoriesFirst
  | noFollowLinks
  | verbose
  | help
  | version
deriving DecidableEq

/-- A parameter. -/
inductive Parameter where
  | valued (valued : Valued)
  | flag (flag : Flag)
deriving DecidableEq

namespace Parameter

/-- The name of a parameter, which two dashes announce. -/
def name : Parameter → String
  | .valued .root => "root"
  | .valued .sort => "sort"
  | .valued .maxDepth => "max-depth"
  | .valued .format => "format"
  | .valued .color => "color"
  | .valued .marker => "marker"
  | .valued .exitCode => "exit-code"
  | .valued .skip => "skip"
  | .valued .database => "database"
  | .valued .path => "path"
  | .flag .directoriesFirst => "dirs-first"
  | .flag .noFollowLinks => "no-follow-symlinks"
  | .flag .verbose => "verbose"
  | .flag .help => "help"
  | .flag .version => "version"

/-- Whether a parameter may be given more than once at one level. -/
def repeats : Parameter → Bool
  | .valued .skip => true
  | .flag .verbose => true
  | _ => false

end Parameter

/-- The letter of a flag, which one dash announces. -/
def Flag.letter? : Flag → Option Char
  | .verbose => some 'v'
  | .help => some 'h'
  | .version => some 'V'
  | _ => none

namespace Level

/-- The parameters that every level takes. -/
def shared : List Parameter :=
  [.valued .root, .valued .sort, .flag .directoriesFirst, .flag .noFollowLinks, .valued .maxDepth,
    .valued .format, .valued .color, .flag .verbose]

/-- The parameters that are given by name at a level. -/
def parameters : Level → List Parameter
  | .top =>
    shared ++
      [.valued .marker, .valued .exitCode, .valued .skip, .flag .help, .flag .version]
  | .tree => shared ++ [.flag .help]
  | .database => .valued .database :: shared ++ [.flag .help]

/-- The parameter with a name. -/
def named? (level : Level) (name : Octets) : Option Parameter :=
  level.parameters.find? fun parameter => Octets.ofString parameter.name = name

/-- The flag with a letter. -/
def lettered? (level : Level) (octet : UInt8) : Option Flag :=
  level.parameters.findSome? fun
    | .flag flag => if flag.letter?.map Char.toNat = some octet.toNat then some flag else none
    | .valued _ => none

end Level

/-- What one parameter was set to. -/
inductive Setting where
  | root (path : Path)
  | sort (mode : SortMode)
  | directoriesFirst
  | noFollowLinks
  | maxDepth (limit : Nat)
  | format (format : Format)
  | color (choice : ColorChoice)
  | verbose
  | marker (path : Path)
  | exitCode (code : Int)
  | skip (skipped : Section)
  | database (name : String)
  | path (path : Path)
deriving DecidableEq

/-- The parameter that a setting belongs to. -/
def Setting.parameter : Setting → Parameter
  | .root _ => .valued .root
  | .sort _ => .valued .sort
  | .directoriesFirst => .flag .directoriesFirst
  | .noFollowLinks => .flag .noFollowLinks
  | .maxDepth _ => .valued .maxDepth
  | .format _ => .valued .format
  | .color _ => .valued .color
  | .verbose => .flag .verbose
  | .marker _ => .valued .marker
  | .exitCode _ => .valued .exitCode
  | .skip _ => .valued .skip
  | .database _ => .valued .database
  | .path _ => .valued .path

/-- What is wrong with the words on the command line. -/
inductive UsageError where
  /-- A word that is neither a parameter of its level nor a value for one. -/
  | unknownArgument
  /-- A word in the place of a command that is none. -/
  | unknownCommand
  /-- No value where one is needed, or one that is not among those accepted. -/
  | invalidValue
  /-- A value that is no number, or one out of range. -/
  | invalidNumber
  /-- A value that must be text and is not. -/
  | notText
  /-- A value for a flag. -/
  | valueForFlag
  /-- A parameter that is given twice. -/
  | repeated
deriving DecidableEq

/-- What is told of wrong words. -/
def UsageError.message : UsageError → String
  | .unknownArgument => "error: unexpected argument found\n"
  | .unknownCommand => "error: unrecognized subcommand\n"
  | .invalidValue => "error: a value is required or is not among those accepted\n"
  | .invalidNumber => "error: invalid number\n"
  | .notText => "error: invalid UTF-8\n"
  | .valueForFlag => "error: unexpected value for a flag\n"
  | .repeated => "error: an argument cannot be used multiple times\n"

namespace Valued

/-- A path, which must not be empty. -/
def readPath (octets : Octets) : Except UsageError Path :=
  if octets.isEmpty then .error .invalidValue else .ok ⟨octets⟩

/-- One of the words that are accepted. -/
def readChoice (choices : Choices α) (octets : Octets) : Except UsageError α :=
  match choices.find? fun (word, _) => Octets.ofString word = octets with
  | some (_, choice) => .ok choice
  | none => .error .invalidValue

/-- Text. -/
def readText (octets : Octets) : Except UsageError String :=
  match Utf8.decode? octets with
  | some text => .ok text
  | none => .error .notText

/-- A number of levels, in 64 bits. -/
def readLimit (octets : Octets) : Except UsageError Nat :=
  match readText octets with
  | .error error => .error error
  | .ok text =>
    match Decimal.natural? text.toList with
    | some limit => if limit < UInt64.size then .ok limit else .error .invalidNumber
    | none => .error .invalidNumber

/-- An exit status, in 32 bits with a sign. -/
def readCode (octets : Octets) : Except UsageError Int :=
  match readText octets with
  | .error error => .error error
  | .ok text =>
    match Decimal.integer? text.toList with
    | some code =>
      if -0x80000000 ≤ code ∧ code < 0x80000000 then .ok code else .error .invalidNumber
    | none => .error .invalidNumber

/-- The setting that a value makes. -/
def read : Valued → Octets → Except UsageError Setting
  | .root, octets => (readPath octets).map .root
  | .sort, octets => (readChoice sortChoices octets).map .sort
  | .maxDepth, octets => (readLimit octets).map .maxDepth
  | .format, octets => (readChoice formatChoices octets).map .format
  | .color, octets => (readChoice colorChoices octets).map .color
  | .marker, octets => (readPath octets).map .marker
  | .exitCode, octets => (readCode octets).map .exitCode
  | .skip, octets => (readChoice sectionChoices octets).map .skip
  | .database, octets => (readText octets).map .database
  | .path, octets => (readPath octets).map .path

end Valued

end CommandLine

end HostTree
