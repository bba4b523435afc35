import HostTree.Proofs.Output.Unlimited
import HostTree.Proofs.Text.Lines

/-!
A drawing as the pieces that are written of it: those of its root and those of the lines in front of
its first failure. To write the drawing is to write these pieces, to whatever output, and then to
tell what the drawing ends with.
-/

namespace HostTree

namespace Drawing

/-- The lines in front of the first failure, or all of them. -/
def front : Drawing → List Line
  | [] => []
  | .error _ :: _ => []
  | .ok line :: rest => line :: front rest

theorem front_map_ok (lines : List Line) : front (lines.map .ok) = lines := by
  induction lines with
  | nil => rfl
  | cons line rest ih => rw [List.map_cons, front, ih]

/-- A drawing is its lines, and its result their number; or it is its lines up to its first failure,
and its result this failure. -/
theorem front_cases (drawing : Drawing) :
    (drawing = drawing.front.map .ok ∧ drawing.result = .ok drawing.front.length) ∨
      ∃ error later, drawing = drawing.front.map .ok ++ .error error :: later ∧
        drawing.result = .error error := by
  induction drawing with
  | nil => exact Or.inl ⟨rfl, rfl⟩
  | cons answer rest ih =>
      cases answer with
      | error error => exact Or.inr ⟨error, rest, rfl, rfl⟩
      | ok line =>
          rw [front, List.map_cons, result]
          rcases ih with ⟨hRest, hResult⟩ | ⟨error, later, hRest, hResult⟩
          · refine Or.inl ⟨congrArg _ hRest, ?_⟩
            rw [hResult]
            rfl
          · refine Or.inr ⟨error, later, congrArg _ hRest, ?_⟩
            rw [hResult]
            rfl

/-- What the writing of a drawing ends with after its pieces: the refusal of one of them, or the
result of the drawing. -/
def outcome (drawing : Drawing) : Option OutputPart → Except WriteFailure Nat
  | none => drawing.result.mapError .tree
  | some part => .error (.output part)

/-- An output's refusal is never the result of a drawing. -/
theorem outcome_eq_output_iff {drawing : Drawing} {refused : Option OutputPart}
    {part : OutputPart} :
    drawing.outcome refused = .error (.output part) ↔ refused = some part := by
  cases refused with
  | some other => simp [outcome]
  | none =>
      rw [outcome]
      cases drawing.result with
      | ok count => exact iff_of_false nofun nofun
      | error error => exact iff_of_false nofun nofun

theorem outcome_ok_cons (line : Line) (rest : Drawing) (refused : Option OutputPart) :
    outcome (.ok line :: rest) refused = (rest.outcome refused).map (· + 1) := by
  cases refused with
  | some part => rfl
  | none =>
      rw [outcome, outcome, result]
      cases rest.result <;> rfl

end Drawing

namespace Style

/-- The text of a line, with its end. -/
def row (style : Style) (line : Line) : Octets :=
  (style.line line).flatMap (·.text)

/-- The text of a root and those of the lines below it, one by one. -/
def rows (style : Style) (root : Path) (lines : List Line) : List Octets :=
  (style.header root).flatMap (·.text) :: lines.map style.row

/-- What is written for a root and for the lines below it. -/
def pieces (style : Style) (root : Path) (lines : List Line) : List Piece :=
  style.header root ++ lines.flatMap style.line

/-- The pieces of a drawn line are the line and its end. -/
theorem row_plain (line : Line) :
    plain.row line = Octets.ofString line.render ++ [Octets.newline] := by
  rw [← Octets.ofString_line, Line.render]
  simp [row, Style.line, escapes, Piece.ofString, Octets.ofString_append]

/-- With colours they are the line between the sequences of its kind, and its end. -/
theorem row_coloured (line : Line) :
    coloured.row line = Octets.ofString line.renderColoured ++ [Octets.newline] := by
  rw [← Octets.ofString_line, Line.renderColoured]
  cases hKind : line.kind <;>
    simp [row, Style.line, escapes, Escape.before, hKind, Piece.ofString, Octets.ofString_append]

theorem header_plain (root : Path) :
    (plain.header root).flatMap (·.text) = Octets.ofString root.display ++ [Octets.newline] := by
  simp [header, escapes, Piece.ofString, Octets.ofString_line]

theorem header_coloured (root : Path) :
    (coloured.header root).flatMap (·.text) =
      Octets.ofString Escape.reset ++ (Octets.ofString Escape.bold ++
        (Octets.ofString (root.display ++ "\n") ++ Octets.ofString Escape.reset)) := by
  simp [header, escapes, Piece.ofString]

theorem text_pieces (style : Style) (root : Path) (lines : List Line) :
    (style.pieces root lines).flatMap (·.text) = (style.rows root lines).flatten := by
  rw [pieces, rows, List.flatMap_append, List.flatten_cons, List.flatMap_assoc, ← List.flatMap_def]
  rfl

theorem text_eq (style : Style) (root : Path) (drawing : Drawing) :
    style.text root drawing = (style.rows root drawing.front).flatten := by
  rw [text, rows, List.flatten_cons, ← List.flatMap_def]
  congr 1
  induction drawing with
  | nil => rfl
  | cons answer rest ih =>
      cases answer with
      | error error => rfl
      | ok line => rw [body, ih, Drawing.front, List.flatMap_cons, row]

end Style

namespace Sink

/-- What is refused of some pieces and others behind them, and what then has been written. -/
theorem writeAll_append (sink : Sink) (pieces others : List Piece) :
    sink.writeAll (pieces ++ others) =
      if (sink.writeAll pieces).1 = none then (sink.writeAll pieces).2.writeAll others
      else sink.writeAll pieces := by
  induction pieces generalizing sink with
  | nil => rfl
  | cons piece rest ih =>
      rw [List.cons_append, writeAll, writeAll]
      split
      · exact ih _
      · rfl

theorem writeLines_eq (sink : Sink) (style : Style) (drawing : Drawing) :
    sink.writeLines style drawing =
      (drawing.outcome (sink.writeAll (drawing.front.flatMap style.line)).1,
        (sink.writeAll (drawing.front.flatMap style.line)).2) := by
  induction drawing generalizing sink with
  | nil => rfl
  | cons answer rest ih =>
      cases answer with
      | error error => rfl
      | ok line =>
          rw [Drawing.front, List.flatMap_cons, writeAll_append, writeLines,
            Drawing.outcome_ok_cons]
          generalize sink.writeAll (style.line line) = accepted
          obtain ⟨_ | part, sink⟩ := accepted
          · simp only [ih, ↓reduceIte]
          · rfl

/-- To write a drawing is to write its pieces. -/
theorem writeDrawing_eq (sink : Sink) (style : Style) (root : Path) (drawing : Drawing) :
    sink.writeDrawing style root drawing =
      (drawing.outcome (sink.writeAll (style.pieces root drawing.front)).1,
        (sink.writeAll (style.pieces root drawing.front)).2) := by
  rw [Style.pieces, writeAll_append, writeDrawing]
  generalize sink.writeAll (style.header root) = accepted
  obtain ⟨_ | part, sink⟩ := accepted
  · simp only [writeLines_eq, ↓reduceIte]
  · rfl

end Sink

end HostTree
