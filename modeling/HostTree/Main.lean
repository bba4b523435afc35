import HostTree.Program
import HostTree.Scene

/-!
The program: it reads a scene from its input and runs in it.
-/

open HostTree

/-- The lines of an input, without their ends. -/
partial def readLines (input : IO.FS.Stream) : IO (List String) := do
  let line ← input.getLine
  if line.isEmpty then return []
  let rest ← readLines input
  let text := if line.endsWith "\n" then (line.dropEnd 1).toString else line
  return text :: rest

/-- Run the program in the scene that its input tells of. -/
def main (arguments : List String) : IO UInt32 := do
  let scene := Scene.ofLines (← readLines (← IO.getStdin))
  let words := (CommandLine.programName :: arguments).map Octets.ofString
  let (outcome, _) := Program.run (scene.surroundings words) scene.fileSystem
  let output ← IO.getStdout
  output.write ⟨outcome.output.toArray⟩
  output.flush
  (← IO.getStderr).putStr outcome.message
  return outcome.status.toUInt32
