import HostTree.Failure
import HostTree.Marker
import HostTree.Report.Section

/-!
What the program does while it runs: it writes to its output, looks at the file system and changes
it. A failure ends the run and leaves what has been written and changed by then.
-/

namespace HostTree

/-- What a run can change. -/
structure RunState where
  fileSystem : FileSystem
  output : Sink
deriving DecidableEq

/-- A part of a run. -/
abbrev Run (α : Type) := ExceptT Failure (StateM RunState) α

namespace Run

/-- Take the outcome of something that writes. -/
def writing (write : Sink → Except Failure α × Sink) : Run α :=
  fun state =>
    let (outcome, output) := write state.output
    (outcome, { state with output := output })

/-- Take the outcome of something that changes the file system. -/
def changing (change : FileSystem → Except Failure α × FileSystem) : Run α :=
  fun state =>
    let (outcome, fileSystem) := change state.fileSystem
    (outcome, { state with fileSystem := fileSystem })

/-- Tell of a failure what was being done. -/
def during (activity : Activity) (run : Run α) : Run α :=
  fun state =>
    let (outcome, state) := run state
    (outcome.mapError (.during activity), state)

/-- Write a text. -/
def put (text : String) : Run Unit :=
  writing fun sink =>
    let (outcome, sink) := sink.put text
    (outcome.mapError .io, sink)

/-- Write the section on the host. -/
def putHost (words : List UInt32) (time : ClockTime) : Run Unit :=
  writing fun sink =>
    let (outcome, _, sink) := sink.putHost words time
    (outcome.mapError .io, sink)

/-- Draw the tree below a root. -/
def draw (style : Style) (options : DrawOptions) (root : Path) : Run Unit :=
  fun state =>
    let drawing := state.fileSystem.view.draw options root
    let (outcome, output) := state.output.writeDrawing style root drawing
    ((outcome.map fun _ => ()).mapError .ofWriting, { state with output := output })

/-- Look for a marker, and make it if there is none. -/
def touch (marker : Path) : Run MarkerState :=
  changing fun fs =>
    let (outcome, fs) := fs.touchMarker marker
    (outcome.mapError .io, fs)

/-- Test the database with a name. -/
def testDatabase (name : String) : Run Unit :=
  changing fun fs =>
    let (outcome, fs) := fs.testDatabase name
    ((outcome.map fun _ => ()).mapError (.ofDatabase name), fs)

end Run

end HostTree
