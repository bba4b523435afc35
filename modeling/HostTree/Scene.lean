import HostTree.FileSystem.Edit
import HostTree.Report.Report

/-!
What a run finds, told line by line: changes that build up a file system, variables of the
environment, random words and the time. The fields of a line are parted by tabs. A line that tells
none of these is passed over, and so is a change that cannot be made.
-/

namespace HostTree

/-- What a run finds. -/
structure Scene where
  fileSystem : FileSystem
  environment : List Variable
  words : List UInt32
  time : ClockTime

namespace Scene

/-- An empty file system at midnight, with nothing around it. -/
def empty : Scene where
  fileSystem := .empty
  environment := []
  words := []
  time := ⟨0, 0, 0, 0, rfl⟩

/-- The number that octal digits stand for. -/
def octal (digits : String) : Nat :=
  digits.toList.foldl (fun n c => n * 8 + (c.toNat - '0'.toNat)) 0

/-- The change that the fields of a line tell of. -/
def edit? : List String → Option Edit
  | ["directory", path] => some (.directory (.ofString path))
  | ["file", path] => some (.file (.ofString path) [])
  | ["file", path, text] => some (.file (.ofString path) (Octets.ofString text))
  | ["link", path, target] => some (.link (.ofString path) (.ofString target))
  | ["pipe", path] => some (.pipe (.ofString path))
  | ["permit", path, mode] => some (.permit (.ofString path) (.ofMode (octal mode)))
  | ["remove", path] => some (.remove (.ofString path))
  | ["rename", source, destination] => some (.rename (.ofString source) (.ofString destination))
  | _ => none

/-- The time that the fields of a line tell. -/
def time? : List String → Option ClockTime
  | [hour, minute, second, nanosecond] =>
    match [hour, minute, second, nanosecond].map fun field => Decimal.digits? field.toList with
    | [some hour, some minute, some second, some nanosecond] =>
      ClockTime.ofParts? hour minute second nanosecond
    | _ => none
  | _ => none

/-- The scene after one more line, given by its fields. -/
def tell (scene : Scene) : List String → Scene
  | ["variable", name, value] =>
    { scene with
      environment := scene.environment ++ [⟨Octets.ofString name, Octets.ofString value⟩] }
  | ["word", word] =>
    match Decimal.digits? word.toList with
    | some word => { scene with words := scene.words ++ [UInt32.ofNat word] }
    | none => scene
  | "time" :: fields =>
    match time? fields with
    | some time => { scene with time := time }
    | none => scene
  | fields =>
    match edit? fields with
    | some edit =>
      match scene.fileSystem.apply edit with
      | .ok fs => { scene with fileSystem := fs }
      | .error _ => scene
    | none => scene

/-- The scene that lines tell. -/
def ofLines (lines : List String) : Scene :=
  lines.foldl (fun scene line => scene.tell (line.splitOn "\t")) empty

/-- What a program that is called with a name and arguments finds around it. -/
def surroundings (scene : Scene) (arguments : List Octets) : Surroundings where
  arguments := arguments
  «variables» := Environment.handedOver scene.environment
  words := scene.words
  time := scene.time

end Scene

end HostTree
