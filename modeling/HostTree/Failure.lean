import HostTree.Database.FileTest
import HostTree.Tree.Writing

/-!
What makes a run of the program fail, told as a chain: what was being done comes first, then what
went wrong, then the reason for it.
-/

namespace HostTree

/-- What was being done when something failed. -/
inductive Activity where
  | renderingTree (root : Path)
  | touchingMarker (marker : Path)
  | openingDatabase (name : String)
  | checkingIntegrity
  | creatingTable
  | insertingTrade
  | committingTrade
deriving DecidableEq

/-- An activity in words. -/
def Activity.message : Activity → String
  | .renderingTree root => "rendering tree below " ++ root.display
  | .touchingMarker marker => "touching marker " ++ marker.display
  | .openingDatabase name => "opening database " ++ name
  | .checkingIntegrity => "running integrity check"
  | .creatingTable => "creating table stocks"
  | .insertingTrade => "inserting into stocks"
  | .committingTrade => "committing insert"

/-- Why a run failed. -/
inductive Failure where
  | tree (error : TreeError)
  /-- The output refused a text. -/
  | output (part : OutputPart)
  | io (error : IoError)
  | database (fault : SqlFault)
  /-- The check of a database reports something else than that all is well. -/
  | corrupt (report : String)
  /-- Another failure, met in the course of an activity. -/
  | during (activity : Activity) (failure : Failure)
deriving DecidableEq

namespace Failure

/-- The failure to write a drawing. -/
def ofWriting : WriteFailure → Failure
  | .tree error => .tree error
  | .output part => .output part

/-- The failure of a smoke test. -/
def ofTest : TestFailure → Failure
  | .corrupt report => .corrupt report
  | .fault .checking fault => .during .checkingIntegrity (.database fault)
  | .fault .creating fault => .during .creatingTable (.database fault)
  | .fault .inserting fault => .during .insertingTrade (.database fault)
  | .fault .committing fault => .during .committingTrade (.database fault)
  | .fault .settling fault => .database fault

/-- The failure of the test of a database with a name. -/
def ofDatabase (name : String) : DatabaseFailure → Failure
  | .opening fault => .during (.openingDatabase name) (.database fault)
  | .testing failure => ofTest failure

/-- What a failure says, and then what each of its causes says. -/
def chain : Failure → List String
  | .tree error => error.message :: (error.cause?.map IoError.message).toList
  | .output _ => [IoError.sinkFull.message]
  | .io error => [error.message]
  | .database fault => [fault.message, fault.codeMessage]
  | .corrupt report => ["integrity check failed: " ++ report]
  | .during activity failure => activity.message :: failure.chain

end Failure

end HostTree
