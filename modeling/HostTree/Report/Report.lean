import HostTree.Run

/-!
A report on the host: its sections, in their order, without those that are to be skipped.
-/

namespace HostTree

/-- What a run finds around it. -/
structure Surroundings where
  /-- The words of the command line, the name of the program first. -/
  arguments : List Octets
  «variables» : List Variable
  /-- Random words. -/
  words : List UInt32
  time : ClockTime

/-- What a report is to show. -/
structure Report where
  root : Path
  drawing : DrawOptions
  style : Style
  marker : Path
  skipped : List Section
deriving DecidableEq

namespace Report

/-- Whether a report has a section. -/
def shows (report : Report) (part : Section) : Bool :=
  part ∉ report.skipped

/-- Write one section. -/
def writeSection (report : Report) (surroundings : Surroundings) : Section → Run Unit
  | .host => Run.putHost surroundings.words surroundings.time
  | .arguments => Run.put (Section.argumentsText (surroundings.arguments.map Utf8.lossy))
  | .environment => Run.put (Section.environmentText surroundings.«variables»)
  | .tree => do
    Run.put Section.treeHeading
    Run.during (.renderingTree report.root) (Run.draw report.style report.drawing report.root)
  | .touch => do
    let state ← Run.during (.touchingMarker report.marker) (Run.touch report.marker)
    Run.put (Section.touchText state)

/-- Write the sections of a list that the report shows. -/
def writeSections (report : Report) (surroundings : Surroundings) : List Section → Run Unit
  | [] => pure ()
  | part :: rest => do
    if report.shows part then report.writeSection surroundings part
    report.writeSections surroundings rest

/-- Write a report. -/
def write (report : Report) (surroundings : Surroundings) : Run Unit :=
  report.writeSections surroundings Section.all

end Report

end HostTree
