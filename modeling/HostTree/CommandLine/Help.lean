import HostTree.CommandLine.Reader
import HostTree.Text.Rich

/-!
The texts that help shows. Every level lists the parameters it takes, in a short form with one line
for each, and in a detailed form with a paragraph for each. Defaults and accepted words are those
that reading uses. What is to be typed as it stands, and the headings, stand out.
-/

namespace HostTree

namespace CommandLine

/-- The name of the program. -/
def programName : String := "probetree"

/-- What the program answers when it is asked for its version. -/
def versionText : String := programName ++ " 0.1.0\n"

/-- What a level is for. -/
def Level.about : Level → String
  | .top => "Print host diagnostics and a directory tree, then exit with a fixed status"
  | .tree => "Render only the directory tree"
  | .database => "Run the SQLite smoke test: integrity check, create a table, insert a row"

/-- What the command that shows help is for. -/
def helpAbout : String :=
  "Print this message or the help of the given subcommand(s)"

/-- What a command is for. -/
def CommandWord.about : CommandWord → String
  | .level place => place.about
  | .help => helpAbout

/-- How the words of a level are written: what is typed as it stands, and what goes in its place. -/
def Level.usage : Level → RichText
  | .top => .literal programName ++ .plain " [OPTIONS] [COMMAND]"
  | .tree => .literal (programName ++ " tree") ++ .plain " [OPTIONS] [PATH]"
  | .database => .literal (programName ++ " sqlite") ++ .plain " [OPTIONS]"

namespace Parameter

/-- What a parameter is for. Help tells of its other form. -/
def about (detailed : Bool) : Parameter → String
  | .valued .root => "Root directory to render"
  | .valued .sort => "Entry ordering inside each directory"
  | .valued .maxDepth => "Do not descend below this many levels (1 = only the root's children)"
  | .valued .format => "Tree output format"
  | .valued .color => "Color output"
  | .valued .marker => "Marker file used to detect a repeated run"
  | .valued .exitCode => "Exit status of a completed probe"
  | .valued .skip => "Report section to omit (repeatable)"
  | .valued .database => "Database to open; \":memory:\" keeps it in memory"
  | .valued .path => "Root path, overrides --root"
  | .flag .directoriesFirst => "Directories before other entries"
  | .flag .noFollowLinks => "List symlinked directories without descending into them"
  | .flag .verbose => "Enable debug logging (repeat for trace)"
  | .flag .help =>
    if detailed then "Print help (see a summary with '-h')"
    else "Print help (see more with '--help')"
  | .flag .version => "Print version"

/-- The words that a parameter accepts, if it accepts no others. -/
def words : Parameter → List String
  | .valued .sort => sortChoices.map (·.1)
  | .valued .format => formatChoices.map (·.1)
  | .valued .color => colorChoices.map (·.1)
  | .valued .skip => sectionChoices.map (·.1)
  | _ => []

/-- The words that a parameter accepts with what they mean, where that is told. -/
def meanings : Parameter → List (String × String)
  | .valued .sort =>
    [("none", "Keep the order returned by the directory listing"),
      ("name", "Lexicographic by file name")]
  | _ => []

/-- The word for a choice. -/
def wordFor [DecidableEq α] (choices : Choices α) (choice : α) : Option String :=
  (choices.find? fun (_, other) => other = choice).map (·.1)

/-- The value of a parameter that is not given. -/
def default? : Parameter → Option String
  | .valued .root => some Settings.default.root.display
  | .valued .sort => wordFor sortChoices Settings.default.drawing.sort
  | .valued .format => wordFor formatChoices Settings.default.format
  | .valued .color => wordFor colorChoices Settings.default.color
  | .valued .marker => some Settings.default.marker.display
  | .valued .exitCode => some (toString Settings.default.exitCode)
  | .valued .database => some Settings.inMemory
  | _ => none

/-- What stands for the value of a parameter: its name in capitals. -/
def placeholder (parameter : Parameter) : String :=
  String.ofList (parameter.name.toList.map fun c => if c = '-' then '_' else c.toUpper)

/-- How a parameter is written. -/
def form (parameter : Parameter) : RichText :=
  match parameter with
  | .valued _ =>
    .plain "    " ++ .literal ("--" ++ parameter.name) ++
      .plain (" <" ++ parameter.placeholder ++ ">")
  | .flag raised =>
    (match raised.letter? with
      | some letter => .literal ("-" ++ letter.toString) ++ .plain ", "
      | none => .plain "    ") ++
      .literal ("--" ++ parameter.name) ++ .plain (if parameter.repeats then "..." else "")

/-- The default in brackets. -/
def defaultNote (parameter : Parameter) : List String :=
  parameter.default?.toList.map fun value => "[default: " ++ value ++ "]"

/-- The accepted words in brackets. -/
def wordsNote (parameter : Parameter) : List String :=
  if parameter.words.isEmpty then []
  else ["[possible values: " ++ ", ".intercalate parameter.words ++ "]"]

end Parameter

namespace Help

/-- A text with blanks behind it, up to a width. -/
def widened (width : Nat) (text : RichText) : RichText :=
  text ++ .plain (String.ofList (List.replicate (width - text.width) ' '))

/-- Two columns, the first one as wide as its longest text. -/
def columns (rows : List (RichText × String)) : List RichText :=
  let width := rows.foldl (fun width row => max width row.1.width) 0
  rows.map fun (left, right) => .plain "  " ++ widened width left ++ .plain ("  " ++ right)

/-- What stands in front of each line of a paragraph. -/
def indent : String := "          "

/-- A line of a paragraph. -/
def indented (text : String) : RichText :=
  .plain (indent ++ text)

/-- What is told of a parameter in one line. -/
def summary (parameter : Parameter) : String :=
  " ".intercalate (parameter.about false :: parameter.defaultNote ++ parameter.wordsNote)

/-- The lines below a parameter in the detailed form. -/
def paragraph (parameter : Parameter) : List RichText :=
  let meanings :=
    if parameter.meanings.isEmpty then []
    else
      .plain "" :: indented "Possible values:" ::
        parameter.meanings.map fun (word, meaning) =>
          indented "- " ++ .literal word ++ .plain (": " ++ meaning)
  let notes :=
    parameter.defaultNote ++ (if parameter.meanings.isEmpty then parameter.wordsNote else [])
  indented (parameter.about true) :: meanings ++
    (if notes.isEmpty then [] else indented "" :: notes.map indented)

/-- Lines parted by line ends. -/
def lines (texts : List RichText) : RichText :=
  .join "\n" texts

/-- A block of lines below its heading. -/
def block (title : String) (content : RichText) : RichText :=
  .heading title ++ .plain "\n" ++ content

/-- The parameters of a block, each with the way in which it is written. -/
def parameters (detailed : Bool) (rows : List (RichText × Parameter)) : RichText :=
  if detailed then
    .join "\n\n" (rows.map fun (form, parameter) =>
      lines ((.plain "  " ++ form) :: paragraph parameter))
  else lines (columns (rows.map fun (form, parameter) => (form, summary parameter)))

/-- The blocks below the usage of a level. -/
def blocks (detailed : Bool) (level : Level) : List RichText :=
  let commands :=
    match level with
    | .top =>
      [block "Commands:" (lines (columns (commandChoices.map fun (word, command) =>
        (.literal word, command.about))))]
    | _ => []
  let arguments :=
    match level with
    | .tree =>
      let path := Parameter.valued .path
      [block "Arguments:" (parameters detailed [(.plain ("[" ++ path.placeholder ++ "]"), path)])]
    | _ => []
  let options :=
    [block "Options:" (parameters detailed (level.parameters.map fun parameter =>
      (parameter.form, parameter)))]
  commands ++ arguments ++ options

/-- A text of blocks below what something is for and how it is written. -/
def page (about : String) (usage : RichText) (blocks : List RichText) : RichText :=
  .join "\n\n" (.plain about :: (.heading "Usage:" ++ .plain " " ++ usage) :: blocks) ++
    .plain "\n"

/-- The text about a topic. -/
def text (detailed : Bool) : Topic → RichText
  | .level level => page level.about level.usage (blocks detailed level)
  | .help =>
    page helpAbout (.literal (programName ++ " help") ++ .plain " [COMMAND]...")
      [block "Arguments:"
        (lines (columns [(.plain "[COMMAND]...", "Print help for the subcommand(s)")]))]

/-- Whether a variable has a value that is not empty. -/
def isSet (environment : List Variable) (name : String) : Bool :=
  match Environment.value? environment name with
  | none => false
  | some value => !value.isEmpty

/-- Whether help is written with escape sequences. Its output is not a terminal, so this must be
asked for, and not be forbidden. -/
def hasEscapes (environment : List Variable) : Bool :=
  isSet environment "CLICOLOR_FORCE" && !isSet environment "NO_COLOR"

end Help

end CommandLine

end HostTree
