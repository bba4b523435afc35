import HostTree.CommandLine.Settings

/-!
Reading the words of a command line from left to right. A value that stands in a word of its own is
looked at only when the next parameter, or the end of its level, is reached; all other words are
judged at once. The first problem that is met ends the reading.
-/

namespace HostTree

namespace CommandLine

/-- What help can be asked about. -/
inductive Topic where
  | level (level : Level)
  /-- The command that shows help. -/
  | help
deriving DecidableEq

/-- Why reading ended without settings. -/
inductive Stop where
  /-- Help was asked for, in detail or not. -/
  | help (topic : Topic) (detailed : Bool)
  | version
  | usage (error : UsageError)
deriving DecidableEq

/-- The commands. -/
inductive CommandWord where
  | level (level : Level)
  | help
deriving DecidableEq

/-- The words for commands. -/
def commandChoices : Choices CommandWord :=
  [("tree", .level .tree), ("sqlite", .level .database), ("help", .help)]

/-- The command that a word stands for. -/
def CommandWord.named? (octets : Octets) : Option CommandWord :=
  (commandChoices.find? fun (word, _) => Octets.ofString word = octets).map (·.2)

/-- What a word looks like. -/
inductive Word where
  /-- Two dashes, behind which no word is a parameter. -/
  | escape
  /-- A name behind two dashes, and a value behind an equals sign. -/
  | named (name : Octets) (value : Option Octets)
  /-- Letters behind one dash. -/
  | letters (letters : Octets)
  | plain (text : Octets)
deriving DecidableEq

namespace Word

/-- The octet of a dash. -/
def dash : UInt8 := 0x2D

/-- Look at a word. -/
def ofOctets : Octets → Word
  | first :: second :: rest =>
    if first ≠ dash then .plain (first :: second :: rest)
    else if second ≠ dash then .letters (second :: rest)
    else if rest.isEmpty then .escape
    else
      let (name, value) := Octets.cutOnce Octets.equals rest
      .named name value
  | octets => .plain octets

end Word

/-- How far the reading of a level has come. -/
structure Reading where
  level : Level
  /-- The settings, in the order of the words that made them. -/
  settings : List Setting
  /-- A parameter whose value has not been looked at, or not been met. -/
  pending : Option (Valued × Option Octets)
  /-- Whether no further word is a parameter. -/
  escaped : Bool
deriving DecidableEq

namespace Reading

/-- A level of which nothing has been read. -/
def start (level : Level) : Reading :=
  ⟨level, [], none, false⟩

/-- Whether a parameter has been set. -/
def holds (reading : Reading) (parameter : Parameter) : Bool :=
  reading.settings.any fun setting => setting.parameter = parameter

/-- Set a parameter. That it is set already is a problem even if the value is one too. -/
def settle (reading : Reading) (parameter : Parameter) (setting : Except UsageError Setting) :
    Except Stop Reading :=
  if reading.holds parameter && !parameter.repeats then .error (.usage .repeated)
  else
    match setting with
    | .error error => .error (.usage error)
    | .ok setting => .ok { reading with settings := reading.settings ++ [setting] }

/-- Look at the value that has not been looked at. -/
def resolve (reading : Reading) : Except Stop Reading :=
  match reading.pending with
  | none => .ok reading
  | some (_, none) => .error (.usage .invalidValue)
  | some (parameter, some value) =>
    { reading with pending := none }.settle (.valued parameter) (parameter.read value)

/-- Raise a flag. -/
def raise (reading : Reading) (flag : Flag) (detailed : Bool) : Except Stop Reading :=
  match reading.resolve with
  | .error stop => .error stop
  | .ok reading =>
    match flag with
    | .directoriesFirst => reading.settle (.flag flag) (.ok .directoriesFirst)
    | .noFollowLinks => reading.settle (.flag flag) (.ok .noFollowLinks)
    | .verbose => reading.settle (.flag flag) (.ok .verbose)
    | .help => .error (.help (.level reading.level) detailed)
    | .version => .error .version

/-- Read a name and the value that may be attached to it. -/
def named (reading : Reading) (name : Octets) (value : Option Octets) : Except Stop Reading :=
  match reading.level.named? name, value with
  | none, _ => .error (.usage .unknownArgument)
  | some (.flag _), some _ => .error (.usage .valueForFlag)
  | some (.flag flag), none => reading.raise flag true
  | some (.valued parameter), some value =>
    match reading.resolve with
    | .error stop => .error stop
    | .ok reading => reading.settle (.valued parameter) (parameter.read value)
  | some (.valued parameter), none =>
    match reading.resolve with
    | .error stop => .error stop
    | .ok reading => .ok { reading with pending := some (parameter, none) }

/-- Read letters, each for a flag. -/
def letters (reading : Reading) : Octets → Except Stop Reading
  | [] => .ok reading
  | letter :: rest =>
    match reading.level.lettered? letter with
    | none => .error (.usage .unknownArgument)
    | some flag =>
      match reading.raise flag false with
      | .error stop => .error stop
      | .ok reading => reading.letters rest

/-- Whether the path has been met. -/
def hasPath (reading : Reading) : Bool :=
  reading.holds (.valued .path) || reading.pending.map (·.1) = some .path

/-- Read a word that belongs to no parameter with a name. At the top level it stands in the place of
a command; a command's own word that is kept from being one is an argument too many. -/
def operand (reading : Reading) (text : Octets) : Except Stop Reading :=
  match reading.level with
  | .top =>
    .error (.usage (if (CommandWord.named? text).isSome then .unknownArgument else .unknownCommand))
  | .database => .error (.usage .unknownArgument)
  | .tree =>
    if reading.hasPath then .error (.usage .unknownArgument)
    else
      match reading.resolve with
      | .error stop => .error stop
      | .ok reading => .ok { reading with pending := some (.path, some text) }

/-- Read a word that is no command. -/
def word (reading : Reading) (octets : Octets) : Except Stop Reading :=
  if reading.escaped then reading.operand octets
  else
    match Word.ofOctets octets with
    | .escape => .ok { reading with escaped := true }
    | .named name value => reading.named name value
    | .letters letters => reading.letters letters
    | .plain text =>
      match reading.pending with
      | some (parameter, none) =>
        .ok { reading with pending := some (parameter, some text) }
      | _ => reading.operand text

/-- The command that a word is in its place: at the top level, and not as a value. -/
def command? (reading : Reading) (octets : Octets) : Option CommandWord :=
  match reading.level, reading.escaped, reading.pending with
  | .top, false, some (_, none) => none
  | .top, false, _ => CommandWord.named? octets
  | _, _, _ => none

/-- Read words up to a command, which is answered with the words behind it. -/
def words (reading : Reading) : List Octets →
    Except Stop (Reading × Option (CommandWord × List Octets))
  | [] => .ok (reading, none)
  | octets :: rest =>
    match reading.command? octets with
    | some command => .ok (reading, some (command, rest))
    | none =>
      match reading.word octets with
      | .error stop => .error stop
      | .ok reading => reading.words rest

end Reading

/-- What the command that shows help is asked about. -/
def helpTopic : List Octets → Stop
  | [] => .help (.level .top) true
  | [octets] =>
    match CommandWord.named? octets with
    | some (.level level) => .help (.level level) true
    | some .help => .help .help true
    | none => .usage .unknownCommand
  | _ => .usage .unknownCommand

/-- Read a whole level. -/
def readLevel (level : Level) (words : List Octets) : Except Stop (List Setting) :=
  match (Reading.start level).words words with
  | .error stop => .error stop
  | .ok (reading, _) => reading.resolve.map (·.settings)

/-- Read a command line. What waits to be looked at in front of a command is looked at after all
that stands behind it. -/
def read (words : List Octets) : Except Stop Settings :=
  match (Reading.start .top).words words with
  | .error stop => .error stop
  | .ok (_, some (.help, rest)) => .error (helpTopic rest)
  | .ok (top, none) => top.resolve.map fun top => settings .top [] top.settings
  | .ok (top, some (.level level, rest)) =>
    match readLevel level rest with
    | .error stop => .error stop
    | .ok inner => top.resolve.map fun top => settings level inner top.settings

end CommandLine

end HostTree
