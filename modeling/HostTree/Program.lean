import HostTree.CommandLine.Help
import HostTree.Report.Report

/-!
Whole runs of the program: from the words of the command line and what is found around them to an
exit status, the output and a message.
-/

namespace HostTree

/-- What a run ends with. -/
structure Outcome where
  /-- The exit status, as the system keeps it. -/
  status : Nat
  output : Octets
  /-- What is told of a failure. -/
  message : String
deriving DecidableEq

namespace Failure

/-- A text whose lines after the first stand behind blanks. -/
def indented (blanks : String) (text : String) : String :=
  String.ofList (text.toList.flatMap fun c => if c = '\n' then '\n' :: blanks.toList else [c])

/-- The causes of a failure, one below the other; more than one are numbered. -/
def causes : List String → String
  | [] => ""
  | [cause] => "\n\nCaused by:\n    " ++ indented "    " cause
  | several =>
    "\n\nCaused by:" ++ String.join (several.zipIdx.map fun (cause, number) =>
      "\n    " ++ toString number ++ ": " ++ indented "       " cause)

/-- What is told of a failure. -/
def report (failure : Failure) : String :=
  "Error: " ++ failure.chain.headD "" ++ causes failure.chain.tail ++ "\n"

end Failure

namespace Program

open CommandLine

/-- The exit status for words that cannot be read. -/
def usageStatus : Nat := 2

/-- The exit status of a run that fails. -/
def failureStatus : Nat := 1

/-- An exit status as the system keeps it. -/
def keptStatus (code : Int) : Nat :=
  (code % 256).toNat

/-- The report that settings ask for. -/
def reportOf (settings : Settings) (surroundings : Surroundings) : Report where
  root := settings.treeRoot
  drawing := settings.drawing
  style := settings.style surroundings.«variables»
  marker := settings.marker
  skipped := settings.skipped

/-- Do what settings ask for. The answer is the exit status. -/
def perform (settings : Settings) (surroundings : Surroundings) : Run Int :=
  match settings.command with
  | .report => do
    (reportOf settings surroundings).write surroundings
    pure settings.exitCode
  | .tree _ => do
    Run.draw (settings.style surroundings.«variables») settings.drawing settings.treeRoot
    pure 0
  | .database name => do
    Run.testDatabase name
    Run.put "sqlite ok\n"
    pure 0

/-- How the program ends when what was asked for has been done as far as it went, and the file
system that it leaves. -/
def conclude : Except Failure Int × RunState → Outcome × FileSystem
  | (.ok code, state) => (⟨keptStatus code, state.output.written, ""⟩, state.fileSystem)
  | (.error failure, state) =>
    (⟨failureStatus, state.output.written, failure.report⟩, state.fileSystem)

/-- Run the program on a file system. -/
def run (surroundings : Surroundings) (fs : FileSystem) : Outcome × FileSystem :=
  match CommandLine.read (surroundings.arguments.drop 1) with
  | .error (.usage error) => (⟨usageStatus, [], error.message⟩, fs)
  | .error .version => (⟨0, Octets.ofString versionText, ""⟩, fs)
  | .error (.help topic detailed) =>
    let text := (Help.text detailed topic).render (Help.hasEscapes surroundings.«variables»)
    (⟨0, Octets.ofString text, ""⟩, fs)
  | .ok settings => conclude (perform settings surroundings ⟨fs, .unlimited⟩)

end Program

end HostTree
