import HostTree.Proofs.Drawing.Basic
import HostTree.Report.Section
import HostTree.Tree.Writing

/-!
What is written where there is room for everything: the whole text, up to the failure of the drawing
if it has one.
-/

namespace HostTree

namespace Drawing

/-- What the writing of a drawing ends with: the number of its lines, or its failure. -/
def result : Drawing → Except TreeError Nat
  | [] => .ok 0
  | .error error :: _ => .error error
  | .ok _ :: rest => (result rest).map (· + 1)

theorem exists_result_eq_ok_iff {drawing : Drawing} :
    (∃ count, drawing.result = .ok count) ↔ IsComplete drawing := by
  induction drawing with
  | nil => simp [result, isComplete_nil]
  | cons answer rest ih =>
      cases answer with
      | error error => simp [result, not_isComplete_error]
      | ok line =>
          rw [isComplete_ok_cons, ← ih, result]
          cases result rest with
          | error error => simp [Except.map]
          | ok count => simp [Except.map]

theorem result_map_ok (lines : List Line) : result (lines.map .ok) = .ok lines.length := by
  induction lines with
  | nil => rfl
  | cons line rest ih =>
      rw [List.map_cons, result, ih]
      rfl

theorem result_append_error (lines : List Line) (error : TreeError) (later : Drawing) :
    result (lines.map .ok ++ .error error :: later) = .error error := by
  induction lines with
  | nil => rfl
  | cons line rest ih =>
      rw [List.map_cons, List.cons_append, result, ih]
      rfl

end Drawing

namespace Style

/-- The text of the lines in front of the failure of a drawing, or of all of them. -/
def body (style : Style) : Drawing → Octets
  | [] => []
  | .error _ :: _ => []
  | .ok line :: rest => (style.line line).flatMap (·.text) ++ body style rest

/-- The text of a drawing below its root. -/
def text (style : Style) (root : Path) (drawing : Drawing) : Octets :=
  (style.header root).flatMap (·.text) ++ style.body drawing

theorem body_map_ok (style : Style) (lines : List Line) :
    style.body (lines.map .ok) = lines.flatMap fun line => (style.line line).flatMap (·.text) := by
  induction lines with
  | nil => rfl
  | cons line rest ih => rw [List.map_cons, body, ih, List.flatMap_cons]

/-- Neither a failure nor what stands behind it is written. -/
theorem text_append_error (style : Style) (root : Path) (lines : List Line) (error : TreeError)
    (later : Drawing) :
    style.text root (lines.map .ok ++ .error error :: later) =
      style.text root (lines.map .ok) := by
  rw [text, text]
  congr 1
  induction lines with
  | nil => rfl
  | cons line rest ih => rw [List.map_cons, List.cons_append, body, body, ih]

end Style

namespace Sink

theorem writeAll_unlimited (written : Octets) (pieces : List Piece) :
    writeAll ⟨written, none⟩ pieces = (none, ⟨written ++ pieces.flatMap (·.text), none⟩) := by
  induction pieces generalizing written with
  | nil => simp [writeAll]
  | cons piece rest ih => simp [writeAll, fits, write, ih]

theorem put_unlimited (written : Octets) (text : String) :
    put ⟨written, none⟩ text = (.ok (), ⟨written ++ Octets.ofString text, none⟩) := by
  simp [put, writeAll_unlimited, Piece.ofString]

theorem putHost_unlimited (written : Octets) (words : List UInt32) (time : ClockTime) :
    putHost ⟨written, none⟩ words time =
      (.ok (), (Draw.run words).2, ⟨written ++ (Octets.ofString Section.greeting ++
        Octets.ofString (Section.drawAndTime words time)), none⟩) := by
  simp only [putHost, put_unlimited, List.append_assoc]

theorem writeLines_unlimited (written : Octets) (style : Style) (drawing : Drawing) :
    writeLines ⟨written, none⟩ style drawing =
      (drawing.result.mapError .tree, ⟨written ++ style.body drawing, none⟩) := by
  induction drawing generalizing written with
  | nil =>
      rw [Style.body, List.append_nil]
      rfl
  | cons answer rest ih =>
      cases answer with
      | error error =>
          rw [Style.body, List.append_nil]
          rfl
      | ok line =>
          rw [writeLines, writeAll_unlimited]
          simp only [ih, Drawing.result, Style.body, List.append_assoc]
          cases Drawing.result rest with
          | error error => rfl
          | ok count => rfl

theorem writeDrawing_unlimited (written : Octets) (style : Style) (root : Path)
    (drawing : Drawing) :
    writeDrawing ⟨written, none⟩ style root drawing =
      (drawing.result.mapError .tree, ⟨written ++ style.text root drawing, none⟩) := by
  rw [writeDrawing, writeAll_unlimited]
  simp only [writeLines_unlimited, Style.text, List.append_assoc]

end Sink

end HostTree
