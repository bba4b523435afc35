import HostTree.CommandLine.Parameter
import HostTree.Tree.Style

/-!
The settings of a run: what the command line says, and what holds where it says nothing. What is
said behind a command goes before what is said in front of it.
-/

namespace HostTree

/-- What a run is to do. -/
inductive Command where
  /-- Write a report on the host. -/
  | report
  /-- Draw a tree, below a path of its own if one is given. -/
  | tree (path : Option Path)
  /-- Test a database. -/
  | database (name : String)
deriving DecidableEq

/-- The settings of a run. -/
structure Settings where
  command : Command
  root : Path
  drawing : DrawOptions
  format : Format
  color : ColorChoice
  verbosity : Nat
  marker : Path
  exitCode : Int
  skipped : List Section
deriving DecidableEq

namespace Settings

/-- The name of a database that is kept in memory. -/
def inMemory : String := ":memory:"

/-- The settings when nothing is said. -/
def default : Settings where
  command := .report
  root := .ofString "/"
  drawing := .default
  format := .plain
  color := .never
  verbosity := 0
  marker := .ofString "indicator"
  exitCode := 17
  skipped := []

/-- The root of the tree that is drawn. -/
def treeRoot (settings : Settings) : Path :=
  match settings.command with
  | .tree (some path) => path
  | _ => settings.root

end Settings

namespace CommandLine

/-- The command of a level. -/
def Level.command (settings : List Setting) : Level → Command
  | .top => .report
  | .tree =>
    .tree (settings.findSome? fun
      | .path path => some path
      | _ => none)
  | .database =>
    .database ((settings.findSome? fun
      | .database name => some name
      | _ => none).getD Settings.inMemory)

/-- What settings say on one matter: those of the inner level first, then those of the top level,
then what holds by default. -/
def pick (inner top : List Setting) (default : α) (matter : Setting → Option α) : α :=
  ((inner.findSome? matter).or (top.findSome? matter)).getD default

/-- The number of times that more messages are asked for, as far as it is counted. -/
def verbosity (inner top : List Setting) : Nat :=
  let count := (inner.count .verbose)
  min 255 (if count = 0 then top.count .verbose else count)

/-- The settings of a run from those of the top level and those of the level of its command. -/
def settings (level : Level) (inner top : List Setting) : Settings where
  command := level.command inner
  root := pick inner top Settings.default.root fun
    | .root path => some path
    | _ => none
  drawing :=
    { sort := pick inner top Settings.default.drawing.sort fun
        | .sort mode => some mode
        | _ => none
      directoriesFirst := .directoriesFirst ∈ inner ++ top
      followLinks := .noFollowLinks ∉ inner ++ top
      depthLimit := pick inner top Settings.default.drawing.depthLimit fun
        | .maxDepth limit => some (some limit)
        | _ => none }
  format := pick inner top Settings.default.format fun
    | .format format => some format
    | _ => none
  color := pick inner top Settings.default.color fun
    | .color choice => some choice
    | _ => none
  verbosity := verbosity inner top
  marker := pick inner top Settings.default.marker fun
    | .marker path => some path
    | _ => none
  exitCode := pick inner top Settings.default.exitCode fun
    | .exitCode code => some code
    | _ => none
  skipped := top.filterMap fun
    | .skip skipped => some skipped
    | _ => none

end CommandLine

namespace Settings

/-- Whether a terminal knows colours, by the variables that speak of it. -/
def terminalHasColours (environment : List Variable) : Bool :=
  match Environment.value? environment "TERM" with
  | none => false
  | some term =>
    term ≠ Octets.ofString "dumb" && (Environment.value? environment "NO_COLOR").isNone

/-- Whether lines are to be coloured. -/
def coloured (settings : Settings) (environment : List Variable) : Bool :=
  match settings.color with
  | .always => true
  | .never => false
  | .auto => terminalHasColours environment

/-- The style in which the tree is written. Rows of JSON have no colours. -/
def style (settings : Settings) (environment : List Variable) : Style :=
  match settings.format with
  | .json => .json
  | .plain => if settings.coloured environment then .coloured else .plain

end Settings

end HostTree
