import HostTree.Tree.Style

/-!
Writing a drawing to an output: the root first, then line after line. The failure of the drawing or
of the output, whichever comes first, ends the writing; what has been written by then stays.
-/

namespace HostTree

/-- Why a drawing was not written to its end. -/
inductive WriteFailure where
  /-- The tree could not be drawn any further. -/
  | tree (error : TreeError)
  /-- The output refused a text. -/
  | output (part : OutputPart)
deriving DecidableEq

namespace Sink

/-- Write the lines of a drawing, and count them. -/
def writeLines (sink : Sink) (style : Style) : Drawing → Except WriteFailure Nat × Sink
  | [] => (.ok 0, sink)
  | .error error :: _ => (.error (.tree error), sink)
  | .ok line :: rest =>
    match sink.writeAll (style.line line) with
    | (some part, sink) => (.error (.output part), sink)
    | (none, sink) =>
      let (outcome, sink) := sink.writeLines style rest
      (outcome.map (· + 1), sink)

/-- Write a drawing below its root, and count the lines. The root is written before the drawing is
looked at. -/
def writeDrawing (sink : Sink) (style : Style) (root : Path) (drawing : Drawing) :
    Except WriteFailure Nat × Sink :=
  match sink.writeAll (style.header root) with
  | (some part, sink) => (.error (.output part), sink)
  | (none, sink) => sink.writeLines style drawing

end Sink

end HostTree
