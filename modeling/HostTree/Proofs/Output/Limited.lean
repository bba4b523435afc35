import HostTree.Proofs.Output.Pieces
import HostTree.Proofs.Output.Rows

/-!
What is written where there is room for so many octets only: as much of the text as fits, to the
octet. The octet that would be the next one tells what the writing fails with, if there is one, and
which answers have been asked for by then.
-/

namespace HostTree

namespace Piece

/-- The part of the output that each octet of some pieces belongs to. -/
def parts (pieces : List Piece) : List OutputPart :=
  pieces.flatMap fun piece => piece.text.map fun _ => piece.part

theorem length_parts (pieces : List Piece) :
    (parts pieces).length = (pieces.flatMap (·.text)).length := by
  simp [parts, List.length_flatMap]

theorem parts_cons (piece : Piece) (rest : List Piece) :
    parts (piece :: rest) = (piece.text.map fun _ => piece.part) ++ parts rest :=
  List.flatMap_cons

theorem parts_append (pieces others : List Piece) :
    parts (pieces ++ others) = parts pieces ++ parts others :=
  List.flatMap_append

end Piece

namespace Sink

/-- Of some pieces so many octets are written as there is room for. -/
theorem written_writeAll_limited (written : Octets) (room : Nat) (pieces : List Piece) :
    (writeAll ⟨written, some room⟩ pieces).2.written =
      written ++ (pieces.flatMap (·.text)).take room := by
  induction pieces generalizing written room with
  | nil => simp [writeAll]
  | cons piece rest ih =>
      simp only [writeAll, fits, write, decide_eq_true_eq, List.flatMap_cons, List.take_append]
      split
      · next hFits => rw [ih, List.append_assoc]
      · next hRefused =>
          have hNothing : room - piece.text.length = 0 := by omega
          rw [hNothing, List.take_zero, List.append_nil]

/-- The piece that is refused is that of the first octet for which there is no room. -/
theorem writeAll_limited_fst (written : Octets) (room : Nat) (pieces : List Piece) :
    (writeAll ⟨written, some room⟩ pieces).1 = (Piece.parts pieces)[room]? := by
  induction pieces generalizing written room with
  | nil => rfl
  | cons piece rest ih =>
      simp only [writeAll, fits, write, decide_eq_true_eq, Piece.parts_cons]
      split
      · next hFits =>
          rw [ih, List.getElem?_append_right (by simpa using hFits), List.length_map]
      · next hRefused =>
          rw [List.getElem?_append_left (by simpa using hRefused)]
          simp [Nat.lt_of_not_le hRefused]

theorem writeAll_limited_eq_none_iff (written : Octets) (room : Nat) (pieces : List Piece) :
    (writeAll ⟨written, some room⟩ pieces).1 = none ↔
      (pieces.flatMap (·.text)).length ≤ room := by
  rw [writeAll_limited_fst, List.getElem?_eq_none_iff, Piece.length_parts]

end Sink

/-! ### Rows of JSON -/

namespace Line

theorem parts_row (line : Line) :
    Piece.parts line.row = (line.object.map fun _ => .object) ++ [.stream] :=
  rfl

/-- The number of octets of the rows of some lines: where the row of a line behind them begins. -/
def offset (before : List Line) : Nat :=
  (Octets.ofLines (before.map object)).length

theorem offset_cons (line : Line) (before : List Line) :
    offset (line :: before) = line.object.length + 1 + offset before := by
  simp [offset, Octets.ofLines]
  omega

theorem length_parts_rows (lines : List Line) :
    (Piece.parts (lines.flatMap row)).length = offset lines := by
  induction lines with
  | nil => rfl
  | cons line lines ih =>
      rw [List.flatMap_cons, Piece.parts_append, List.length_append, ih, offset_cons, parts_row]
      simp

/-- In a row all octets are inside its object but the last one, which ends it. -/
theorem getElem?_parts_rows {before after : List Line} {line : Line} {n : Nat}
    (hStart : offset before ≤ n) (hEnd : n ≤ offset before + line.object.length) :
    (Piece.parts ((before ++ line :: after).flatMap row))[n]? =
      some (if n < offset before + line.object.length then .object else .stream) := by
  have hBefore : (Piece.parts (before.flatMap row)).length ≤ n := by
    rwa [length_parts_rows]
  rw [List.flatMap_append, List.flatMap_cons, Piece.parts_append, Piece.parts_append,
    List.getElem?_append_right hBefore, length_parts_rows, parts_row, List.append_assoc]
  by_cases hInside : n < offset before + line.object.length
  · have hObject : n - offset before < line.object.length := by omega
    rw [List.getElem?_append_left (by simpa using hObject)]
    simp [hInside, hObject]
  · have hLast : n - offset before = line.object.length := by omega
    simp [hInside, hLast]

/-- Each octet of some rows is in one of them. -/
theorem exists_row_of_lt {lines : List Line} {n : Nat} (hLess : n < offset lines) :
    ∃ before line after, lines = before ++ line :: after ∧ offset before ≤ n ∧
      n ≤ offset before + line.object.length := by
  induction lines generalizing n with
  | nil => simp [offset, Octets.ofLines] at hLess
  | cons line lines ih =>
      by_cases hHere : n ≤ line.object.length
      · exact ⟨[], line, lines, rfl, Nat.zero_le n, by simpa [offset, Octets.ofLines] using hHere⟩
      · rw [offset_cons] at hLess
        have hLater : n - (line.object.length + 1) < offset lines := by omega
        obtain ⟨before, other, after, rfl, hStart, hEnd⟩ := ih hLater
        refine ⟨line :: before, other, after, rfl, ?_, ?_⟩
        · rw [offset_cons]
          omega
        · rw [offset_cons]
          omega

/-- The part that an octet of some rows belongs to is told by where it is in its row. -/
theorem getElem?_parts_rows_eq_some_iff {lines : List Line} {n : Nat} {part : OutputPart} :
    (Piece.parts (lines.flatMap row))[n]? = some part ↔
      ∃ before line after, lines = before ++ line :: after ∧ offset before ≤ n ∧
        n ≤ offset before + line.object.length ∧
          (if n < offset before + line.object.length then .object else .stream) = part := by
  constructor
  · intro hPart
    have hLess : n < offset lines := by
      rw [← length_parts_rows]
      exact (List.getElem?_eq_some_iff.1 hPart).1
    obtain ⟨before, line, after, rfl, hStart, hEnd⟩ := exists_row_of_lt hLess
    refine ⟨before, line, after, rfl, hStart, hEnd, ?_⟩
    rw [getElem?_parts_rows hStart hEnd] at hPart
    exact Option.some.inj hPart
  · rintro ⟨before, line, after, rfl, hStart, hEnd, rfl⟩
    exact getElem?_parts_rows hStart hEnd

theorem getElem?_parts_rows_eq_object_iff {lines : List Line} {n : Nat} :
    (Piece.parts (lines.flatMap row))[n]? = some .object ↔
      ∃ before line after, lines = before ++ line :: after ∧ offset before ≤ n ∧
        n < offset before + line.object.length := by
  rw [getElem?_parts_rows_eq_some_iff]
  constructor
  · rintro ⟨before, line, after, hLines, hStart, -, hPart⟩
    refine ⟨before, line, after, hLines, hStart, ?_⟩
    by_contra hOutside
    simp [hOutside] at hPart
  · rintro ⟨before, line, after, hLines, hStart, hInside⟩
    exact ⟨before, line, after, hLines, hStart, Nat.le_of_lt hInside, if_pos hInside⟩

theorem getElem?_parts_rows_eq_stream_iff {lines : List Line} {n : Nat} :
    (Piece.parts (lines.flatMap row))[n]? = some .stream ↔
      ∃ before line after, lines = before ++ line :: after ∧
        n = offset before + line.object.length := by
  rw [getElem?_parts_rows_eq_some_iff]
  constructor
  · rintro ⟨before, line, after, hLines, -, hEnd, hPart⟩
    refine ⟨before, line, after, hLines, Nat.le_antisymm hEnd ?_⟩
    by_contra hOutside
    simp [Nat.lt_of_not_le hOutside] at hPart
  · rintro ⟨before, line, after, hLines, rfl⟩
    exact ⟨before, line, after, hLines, Nat.le_add_right _ _, Nat.le_refl _,
      if_neg (Nat.lt_irrefl _)⟩

end Line

namespace Style

theorem pieces_json (root : Path) (lines : List Line) :
    json.pieces root lines = (Line.ofRoot root :: lines).flatMap Line.row := rfl

theorem part_of_mem_escapes {style : Style} {sequences : List String} {piece : Piece}
    (hPiece : piece ∈ style.escapes sequences) : piece.part = .stream := by
  cases style with
  | plain | json => cases hPiece
  | coloured =>
      obtain ⟨sequence, -, rfl⟩ := List.mem_map.1 hPiece
      rfl

/-- Where there are no rows of JSON, all text stands for itself. -/
theorem part_eq_stream {style : Style} (hStyle : style ≠ .json) {root : Path} {lines : List Line}
    {piece : Piece} (hPiece : piece ∈ style.pieces root lines) : piece.part = .stream := by
  rw [pieces, List.mem_append, List.mem_flatMap] at hPiece
  cases style with
  | json => exact absurd rfl hStyle
  | plain | coloured =>
      rcases hPiece with hHeader | ⟨line, -, hLine⟩
      · simp only [header, List.mem_append, List.mem_singleton] at hHeader
        rcases hHeader with (hBold | rfl) | hReset
        · exact part_of_mem_escapes hBold
        · rfl
        · exact part_of_mem_escapes hReset
      · simp only [Style.line, List.mem_append, List.mem_singleton] at hLine
        rcases hLine with (((rfl | hColour) | rfl) | hReset) | rfl
        · rfl
        · exact part_of_mem_escapes hColour
        · rfl
        · exact part_of_mem_escapes hReset
        · rfl

end Style

/-! ### Answers that are asked for -/

namespace Sink

/-- Write the lines of a drawing whose answers are asked for one by one, each when those in front of
it have been written, and tell which are left. -/
def takeLines (sink : Sink) (style : Style) :
    Drawing → (Except WriteFailure Nat × Sink) × Drawing
  | [] => ((.ok 0, sink), [])
  | .error error :: later => ((.error (.tree error), sink), later)
  | .ok line :: later =>
    match sink.writeAll (style.line line) with
    | (some part, sink) => ((.error (.output part), sink), later)
    | (none, sink) =>
      let ((outcome, sink), left) := sink.takeLines style later
      ((outcome.map (· + 1), sink), left)

/-- Write a drawing below its root in this way. -/
def takeDrawing (sink : Sink) (style : Style) (root : Path) (drawing : Drawing) :
    (Except WriteFailure Nat × Sink) × Drawing :=
  match sink.writeAll (style.header root) with
  | (some part, sink) => ((.error (.output part), sink), drawing)
  | (none, sink) => sink.takeLines style drawing

theorem takeLines_fst (sink : Sink) (style : Style) (drawing : Drawing) :
    (sink.takeLines style drawing).1 = sink.writeLines style drawing := by
  induction drawing generalizing sink with
  | nil => rfl
  | cons answer later ih =>
      cases answer with
      | error error => rfl
      | ok line =>
          rw [takeLines, writeLines]
          generalize sink.writeAll (style.line line) = accepted
          obtain ⟨_ | part, sink⟩ := accepted
          · simp only [← ih]
          · rfl

/-- To ask for answers only when they are needed does not change what is written. -/
theorem takeDrawing_fst (sink : Sink) (style : Style) (root : Path) (drawing : Drawing) :
    (sink.takeDrawing style root drawing).1 = sink.writeDrawing style root drawing := by
  rw [takeDrawing, writeDrawing]
  generalize sink.writeAll (style.header root) = accepted
  obtain ⟨_ | part, sink⟩ := accepted
  · exact takeLines_fst sink style drawing
  · rfl

/-- Whether the answers of a drawing that are asked for are those that stand behind nothing but
lines that are accepted. -/
def AsksFor (accepts : List Line → Prop) (drawing asked : Drawing) : Prop :=
  ∀ before answer behind, drawing = before ++ answer :: behind →
    (before.length < asked.length ↔ ∃ lines : List Line, before = lines.map .ok ∧ accepts lines)

/-- Where no line is accepted, nothing is asked for. -/
theorem asksFor_nil {accepts : List Line → Prop} (hNothing : ∀ lines, ¬ accepts lines)
    (drawing : Drawing) : AsksFor accepts drawing [] := by
  intro before answer behind _
  refine iff_of_false (Nat.not_lt_zero _) ?_
  rintro ⟨lines, -, hAccepts⟩
  exact hNothing lines hAccepts

theorem asksFor_error {accepts : List Line → Prop} (hNothing : accepts []) (error : TreeError)
    (later : Drawing) : AsksFor accepts (.error error :: later) [.error error] := by
  intro before answer behind hSplit
  cases before with
  | nil => exact iff_of_true (Nat.zero_lt_succ _) ⟨[], rfl, hNothing⟩
  | cons head before =>
      obtain ⟨rfl, -⟩ := List.cons.inj hSplit
      refine iff_of_false (by simp) ?_
      rintro ⟨_ | ⟨line, lines⟩, hLines, -⟩
      · cases hLines
      · cases hLines

theorem AsksFor.ok {accepts : List Line → Prop} (hNothing : accepts []) {line : Line}
    {later asked : Drawing} (hLater : AsksFor (fun lines => accepts (line :: lines)) later asked) :
    AsksFor accepts (.ok line :: later) (.ok line :: asked) := by
  intro before answer behind hSplit
  cases before with
  | nil => exact iff_of_true (Nat.zero_lt_succ _) ⟨[], rfl, hNothing⟩
  | cons head before =>
      obtain ⟨rfl, hRest⟩ := List.cons.inj hSplit
      rw [List.length_cons, List.length_cons, Nat.add_lt_add_iff_right,
        hLater before answer behind hRest]
      constructor
      · rintro ⟨lines, rfl, hAccepts⟩
        exact ⟨line :: lines, rfl, hAccepts⟩
      · rintro ⟨_ | ⟨other, lines⟩, hLines, hAccepts⟩
        · cases hLines
        · cases hLines
          exact ⟨lines, rfl, hAccepts⟩

theorem exists_takeLines_snd (sink : Sink) (style : Style) (drawing : Drawing) :
    ∃ asked, drawing = asked ++ (sink.takeLines style drawing).2 ∧
      AsksFor (fun lines => (sink.writeAll (lines.flatMap style.line)).1 = none) drawing asked := by
  induction drawing generalizing sink with
  | nil => exact ⟨[], rfl, by simp [AsksFor]⟩
  | cons first later ih =>
      cases first with
      | error error =>
          refine ⟨[.error error], rfl, asksFor_error ?_ error later⟩
          rfl
      | ok line =>
          have hBehind : ∀ lines : List Line, sink.writeAll ((line :: lines).flatMap style.line) =
              if (sink.writeAll (style.line line)).1 = none then
                (sink.writeAll (style.line line)).2.writeAll (lines.flatMap style.line)
              else sink.writeAll (style.line line) := fun lines => writeAll_append _ _ _
          rw [takeLines]
          generalize sink.writeAll (style.line line) = accepted at hBehind ⊢
          obtain ⟨_ | part, accepting⟩ := accepted
          · simp only [↓reduceIte] at hBehind
            obtain ⟨asked, hAsked, hAsksFor⟩ := ih accepting
            refine ⟨.ok line :: asked, congrArg _ hAsked, AsksFor.ok ?_ ?_⟩
            · rfl
            · simpa only [hBehind] using hAsksFor
          · refine ⟨[.ok line], rfl, AsksFor.ok ?_ (asksFor_nil ?_ later)⟩
            · rfl
            · intro lines
              simp only [hBehind, reduceCtorEq, ↓reduceIte, not_false_eq_true]

/-- Of a drawing those answers are asked for that stand behind a root and lines which are accepted,
and behind nothing else. -/
theorem exists_takeDrawing_snd (sink : Sink) (style : Style) (root : Path) (drawing : Drawing) :
    ∃ asked, drawing = asked ++ (sink.takeDrawing style root drawing).2 ∧
      AsksFor (fun lines => (sink.writeAll (style.pieces root lines)).1 = none) drawing asked := by
  have hBehind : ∀ lines, sink.writeAll (style.pieces root lines) =
      if (sink.writeAll (style.header root)).1 = none then
        (sink.writeAll (style.header root)).2.writeAll (lines.flatMap style.line)
      else sink.writeAll (style.header root) := fun lines => writeAll_append _ _ _
  rw [takeDrawing]
  generalize sink.writeAll (style.header root) = accepted at hBehind ⊢
  obtain ⟨_ | part, accepting⟩ := accepted
  · simpa only [hBehind, ↓reduceIte] using exists_takeLines_snd accepting style drawing
  · refine ⟨[], rfl, asksFor_nil ?_ drawing⟩
    simp [hBehind]

/-- What is left to be asked for, where there is room for so many octets. -/
theorem exists_takeDrawing_limited (style : Style) (root : Path) (drawing : Drawing) (room : Nat) :
    ∃ asked, drawing = asked ++ ((limited room).takeDrawing style root drawing).2 ∧
      AsksFor (fun lines => (style.rows root lines).flatten.length ≤ room) drawing asked := by
  have hAccepts : ∀ lines, ((limited room).writeAll (style.pieces root lines)).1 = none ↔
      (style.rows root lines).flatten.length ≤ room := by
    intro lines
    rw [← Style.text_pieces]
    exact writeAll_limited_eq_none_iff [] room _
  simpa only [hAccepts] using exists_takeDrawing_snd (limited room) style root drawing

theorem writeDrawing_limited (style : Style) (root : Path) (drawing : Drawing) (room : Nat) :
    ((limited room).writeDrawing style root drawing).1 =
        drawing.outcome (Piece.parts (style.pieces root drawing.front))[room]? ∧
      ((limited room).writeDrawing style root drawing).2.written =
        (style.text root drawing).take room := by
  rw [writeDrawing_eq, Style.text_eq, ← Style.text_pieces]
  exact ⟨congrArg drawing.outcome (writeAll_limited_fst [] room _),
    written_writeAll_limited [] room _⟩

/-- Rows that fit are those that are written to their end. -/
theorem length_flatten_le_iff {rows whole others : List Octets} {room : Nat}
    (hRows : rows = whole ++ others) :
    whole.flatten.length ≤ room ↔ whole.flatten <+: rows.flatten.take room := by
  rw [hRows, List.flatten_append, List.prefix_take_iff]
  exact (and_iff_right (List.prefix_append _ _)).symm

/-- An output that accepts a number of octets is left with that many octets of the text that is
written where there is room for everything. If all of it fits, even if nothing is left over, the
writing ends as it does there: with the number of lines or the first failure of the drawing.
Otherwise it fails since the output refuses the next octet: inside an object of JSON if that octet
is inside one, and as a stream of text if it is the end of a row or there are no rows. The rows that
fit are those that have been written to their end, and an answer is asked for if it stands behind
lines only that have all been written to their end, the root included. -/
theorem write_limited (style : Style) (root : Path) (drawing : Drawing) (room : Nat) :
    ∃ text outcome asked left,
      unlimited.writeDrawing style root drawing =
          (drawing.result.mapError .tree, ⟨text, none⟩) ∧
        text = (style.rows root drawing.front).flatten ∧
        ((limited room).writeDrawing style root drawing).1 = outcome ∧
        ((limited room).writeDrawing style root drawing).2.written = text.take room ∧
        (text.length ≤ room → outcome = drawing.result.mapError .tree) ∧
        (room < text.length → ∃ part, outcome = .error (.output part)) ∧
        (style ≠ .json → outcome ≠ .error (.output .object)) ∧
        (style = .json →
          (outcome = .error (.output .object) ↔ ∃ before line after,
            Line.ofRoot root :: drawing.front = before ++ line :: after ∧
              Line.offset before ≤ room ∧ room < Line.offset before + line.object.length) ∧
          (outcome = .error (.output .stream) ↔ ∃ before line after,
            Line.ofRoot root :: drawing.front = before ++ line :: after ∧
              room = Line.offset before + line.object.length)) ∧
        (∀ whole others, style.rows root drawing.front = whole ++ others →
          (whole.flatten.length ≤ room ↔ whole.flatten <+: text.take room)) ∧
        (limited room).takeDrawing style root drawing =
          ((limited room).writeDrawing style root drawing, left) ∧
        drawing = asked ++ left ∧
        AsksFor (fun lines => (style.rows root lines).flatten.length ≤ room) drawing asked := by
  obtain ⟨hOutcome, hWritten⟩ := writeDrawing_limited style root drawing room
  obtain ⟨asked, hAsked, hAsksFor⟩ := exists_takeDrawing_limited style root drawing room
  have hLength : (Piece.parts (style.pieces root drawing.front)).length =
      (style.text root drawing).length := by
    rw [Piece.length_parts, Style.text_pieces, Style.text_eq]
  refine ⟨style.text root drawing, _, asked, _, writeDrawing_unlimited [] style root drawing,
    style.text_eq root drawing, hOutcome, hWritten, ?fits, ?refused, ?stream, ?json, ?rows,
    Prod.ext (takeDrawing_fst _ style root drawing) rfl, hAsked, hAsksFor⟩
  case fits =>
    intro hFits
    rw [List.getElem?_eq_none (hLength.trans_le hFits)]
    rfl
  case refused =>
    intro hRefused
    rw [List.getElem?_eq_getElem (hLength ▸ hRefused)]
    exact ⟨_, rfl⟩
  case stream =>
    intro hStyle hObject
    rw [Drawing.outcome_eq_output_iff] at hObject
    obtain ⟨piece, hPiece, hPart⟩ := List.mem_flatMap.1 (List.mem_of_getElem? hObject)
    obtain ⟨_, -, hPart⟩ := List.mem_map.1 hPart
    cases hPart.symm.trans (Style.part_eq_stream hStyle hPiece)
  case json =>
    rintro rfl
    rw [Drawing.outcome_eq_output_iff, Drawing.outcome_eq_output_iff, Style.pieces_json]
    exact ⟨Line.getElem?_parts_rows_eq_object_iff, Line.getElem?_parts_rows_eq_stream_iff⟩
  case rows =>
    intro whole others hRows
    rw [style.text_eq]
    exact length_flatten_le_iff hRows

/-- An output that is full at the end of the text has not refused anything. -/
example :
    (limited 2).writeDrawing .plain (.ofString ".") [] = (.ok 0, ⟨Octets.ofString ".\n", some 0⟩) ∧
      (limited 1).writeDrawing .plain (.ofString ".") [] =
        (.error (.output .stream), ⟨Octets.ofString ".", some 0⟩) := by
  decide

end Sink

end HostTree
