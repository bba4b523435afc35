import HostTree.Marker
import HostTree.Output.Sink
import HostTree.Report.ClockTime
import HostTree.Report.Draw
import HostTree.Report.Environment
import HostTree.Text.Quoted

/-!
The sections of a report and the texts of those that say nothing about the file system's tree.
-/

namespace HostTree

/-- The sections of a report, in their order. -/
inductive Section where
  | host
  | arguments
  | environment
  | tree
  | touch
deriving DecidableEq

namespace Section

/-- All sections in their order. -/
def all : List Section :=
  [.host, .arguments, .environment, .tree, .touch]

/-- The first line of all. -/
def greeting : String := "Hello from rust on linux unix\n"

/-- What follows the greeting: a random number and the time. -/
def drawAndTime (words : List UInt32) (time : ClockTime) : String :=
  "random: " ++ toString (Draw.run words).1 ++ "\ntime: " ++ time.text ++ "\n"

/-- The section on the arguments. -/
def argumentsText (arguments : List String) : String :=
  "\n### Arguments ###\n" ++ String.ofList (Quoted.list (arguments.map String.toList)) ++ "\n"

/-- The section on the environment. -/
def environmentText (environment : List Variable) : String :=
  "\n### Env Vars ###\n" ++ Environment.text environment

/-- What stands above the tree. -/
def treeHeading : String := "\n### Recursive Files\n"

/-- The section on the marker, which only speaks when the marker was there. -/
def touchText : MarkerState → String
  | .first => "\n### Touch\n"
  | .second => "\n### Touch\nsecond run\n"

end Section

namespace Sink

/-- Write a text. -/
def put (sink : Sink) (text : String) : Except IoError Unit × Sink :=
  match sink.writeAll [.ofString text] with
  | (none, sink) => (.ok (), sink)
  | (some _, sink) => (.error .sinkFull, sink)

/-- Write the section on the host, and tell how many words were drawn. None are drawn before the
greeting is written. -/
def putHost (sink : Sink) (words : List UInt32) (time : ClockTime) :
    Except IoError Unit × Nat × Sink :=
  match sink.put Section.greeting with
  | (.error error, sink) => (.error error, 0, sink)
  | (.ok (), sink) =>
    let (outcome, sink) := sink.put (Section.drawAndTime words time)
    (outcome, (Draw.run words).2, sink)

end Sink

end HostTree
