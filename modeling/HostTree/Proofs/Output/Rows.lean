import HostTree.Proofs.Json.Datum
import HostTree.Proofs.Output.Unlimited
import HostTree.Proofs.Text.Lines

/-!
Rows of JSON read back. A row is written as an object in which every newline is escaped, so the
newlines of the text are the ends of its rows, and each row holds what was drawn, whatever
characters the names are made of.
-/

namespace HostTree

namespace Json

/-- No form of a character is a newline, not even the newline's own. -/
theorem newline_notMem_escape (c : Char) : '\n' ∉ escape c := by
  have hEscapes := escapes_escape c
  generalize escape c = written at hEscapes
  cases hEscapes with
  | @letter letter hOther hCode =>
      have hLetter : letter ≠ '\n' := by
        rintro rfl
        cases hCode
      simp [hLetter.symm]
  | code hControl =>
      have hDigit : ∀ n < 16, hexDigit n ≠ '\n' := by decide
      have hHigh := hDigit (c.toNat / 16) (by omega)
      have hLow := hDigit (c.toNat % 16) (by omega)
      simp [hHigh.symm, hLow.symm]
  | plain hQuote hEscape hPrintable =>
      rw [List.mem_singleton]
      rintro rfl
      exact absurd hPrintable (by decide)

theorem newline_notMem_string (text : List Char) : '\n' ∉ string text := by
  simp [string, newline_notMem_escape]

theorem newline_notMem_value (value : Value) : '\n' ∉ value.text := by
  cases value with
  | string text => exact newline_notMem_string text.toList
  | number n =>
      intro hMem
      exact absurd (Decimal.isDigit_of_mem_toDigits hMem) (by decide)
  | truth b =>
      cases b with
      | true => simp [Value.text]
      | false => simp [Value.text]

theorem newline_notMem_field (name : String) (value : Value) : '\n' ∉ field name value := by
  simp [field, newline_notMem_string, newline_notMem_value]

theorem newline_notMem_otherFields (fields : List (String × Value)) :
    '\n' ∉ otherFields fields := by
  induction fields with
  | nil => simp [otherFields]
  | cons field fields ih => simp [otherFields, newline_notMem_field, ih]

theorem newline_notMem_object (fields : List (String × Value)) : '\n' ∉ object fields := by
  cases fields with
  | nil => simp [object]
  | cons field fields => simp [object, newline_notMem_field, newline_notMem_otherFields]

end Json

namespace EntryKind

/-- The kind that a row means by a text. -/
def ofName? : String → Option EntryKind
  | "file" => some .file
  | "dir" => some .directory
  | "symlink" => some .link
  | "other" => some .other
  | _ => none

end EntryKind

/-- What a row tells. -/
structure TreeRow where
  name : String
  path : String
  depth : Nat
  kind : EntryKind
  isLast : Bool
deriving DecidableEq

namespace TreeRow

/-- What the row of a line tells. -/
def ofLine (line : Line) : TreeRow :=
  ⟨line.name, line.path.display, line.depth, line.kind, line.isLast⟩

/-- What the first row tells. -/
def ofRoot (root : Path) : TreeRow :=
  ⟨root.display, root.display, 0, .directory, true⟩

/-- What the rows of lines below a root tell. -/
def table (root : Path) (lines : List Line) : List TreeRow :=
  ofRoot root :: lines.map ofLine

/-- The object that a row is. -/
def datum (row : TreeRow) : Json.Datum :=
  .object [("name", .scalar (.string row.name)), ("path", .scalar (.string row.path)),
    ("depth", .scalar (.number row.depth)),
    ("kind", .scalar (.string (match row.kind with
      | .file => "file"
      | .directory => "dir"
      | .link => "symlink"
      | .other => "other"))),
    ("is_last", .scalar (.truth row.isLast))]

/-- What an object tells, if it is a row. The order of its fields does not matter. -/
def ofDatum? : Json.Datum → Option TreeRow
  | .object fields =>
    match fields.lookup "name", fields.lookup "path", fields.lookup "depth", fields.lookup "kind",
      fields.lookup "is_last" with
    | some (.scalar (.string name)), some (.scalar (.string path)),
      some (.scalar (.number depth)), some (.scalar (.string kind)),
      some (.scalar (.truth isLast)) =>
      if depth.den = 1 ∧ 0 ≤ depth.num then
        (EntryKind.ofName? kind).map fun kind => ⟨name, path, depth.num.toNat, kind, isLast⟩
      else none
    | _, _, _, _, _ => none
  | _ => none

/-- What the rows of a text tell, if it is made of rows. -/
def read? (text : Octets) : Option (List TreeRow) :=
  (Octets.lines? text).bind (·.mapM fun line => (Json.decode? line).bind ofDatum?)

/-- What a row tells is read back. -/
theorem ofDatum?_datum (row : TreeRow) : ofDatum? row.datum = some row := by
  obtain ⟨name, path, depth, kind, isLast⟩ := row
  cases kind <;> simp [datum, ofDatum?, List.lookup_cons, EntryKind.ofName?]

end TreeRow

namespace Line

/-- The octets of the row of a line, without its end. -/
def object (line : Line) : Octets :=
  Octets.ofChars (Json.object line.fields)

theorem text_row (line : Line) : line.row.flatMap (·.text) = line.object ++ [Octets.newline] := by
  simp only [row, List.flatMap_cons, List.flatMap_nil, List.append_nil]
  rfl

theorem newline_notMem_object (line : Line) : Octets.newline ∉ line.object :=
  Octets.newline_notMem_ofChars (Json.newline_notMem_object line.fields)

theorem decode?_object (line : Line) :
    Json.decode? line.object = some (TreeRow.ofLine line).datum := by
  obtain ⟨lead, connector, name, path, depth, kind, isLast⟩ := line
  cases kind <;> exact Json.decode?_object _

theorem object_ne_nil (line : Line) : line.object ≠ [] := by
  intro hNil
  have hEmpty : Json.decode? [] = none := by rfl
  rw [← hNil, line.decode?_object] at hEmpty
  cases hEmpty

end Line

namespace Style

theorem text_json (root : Path) (lines : List Line) :
    json.text root (lines.map .ok) =
      Octets.ofLines ((Line.ofRoot root :: lines).map Line.object) := by
  have hHeader : (json.header root).flatMap (·.text) =
      (Line.ofRoot root).object ++ [Octets.newline] := Line.text_row _
  have hLine : ∀ line : Line, (json.line line).flatMap (·.text) =
      line.object ++ [Octets.newline] := Line.text_row
  rw [text, body_map_ok, hHeader]
  simp only [hLine, Octets.ofLines, List.flatMap_map, List.flatMap_cons]

end Style

namespace TreeRow

theorem lines?_text_json (root : Path) (lines : List Line) :
    Octets.lines? (Style.json.text root (lines.map .ok)) =
      some ((Line.ofRoot root :: lines).map Line.object) := by
  rw [Style.text_json, Octets.lines?_ofLines]
  intro row hRow
  obtain ⟨line, -, rfl⟩ := List.mem_map.1 hRow
  exact line.newline_notMem_object

/-- The first row tells what the row of the line of the root tells. -/
theorem table_eq (root : Path) (lines : List Line) :
    table root lines = (Line.ofRoot root :: lines).map ofLine := rfl

theorem map_decode?_object (root : Path) (lines : List Line) :
    ((Line.ofRoot root :: lines).map Line.object).map Json.decode? =
      (table root lines).map fun row => some row.datum := by
  rw [table_eq, List.map_map, List.map_map]
  simp only [Function.comp_def, Line.decode?_object]

theorem read?_text_json (root : Path) (lines : List Line) :
    read? (Style.json.text root (lines.map .ok)) = some (table root lines) := by
  rw [read?, lines?_text_json, Option.bind_some, table_eq]
  apply Octets.mapM_map_eq_some
  intro line _
  rw [line.decode?_object, Option.bind_some, ofDatum?_datum]

/-- Rows of JSON say what was drawn, and nothing else. What is written is cut by its newlines into
one object for the root and one for each line, and a reader of JSON finds in each object what the
line says: its name, its path, its depth, its kind and whether it is the last of its directory. A
failure adds nothing to the rows in front of it. So lines that differ in any of these, or are below
roots that display differently, are never written as the same text. -/
theorem rows_read_back (root : Path) (lines : List Line) :
    ∃ text rows,
      Sink.unlimited.writeDrawing .json root (lines.map .ok) =
          (.ok lines.length, ⟨text, none⟩) ∧
        (∀ error later,
          Sink.unlimited.writeDrawing .json root (lines.map .ok ++ .error error :: later) =
            (.error (.tree error), ⟨text, none⟩)) ∧
        Octets.lines? text = some rows ∧ rows.length = lines.length + 1 ∧ (∀ row ∈ rows, row ≠ []) ∧
        rows.map Json.decode? = (table root lines).map (fun row => some row.datum) ∧
        read? text = some (table root lines) ∧
        ∀ otherRoot otherLines,
          (Sink.unlimited.writeDrawing .json otherRoot (otherLines.map .ok)).2.written = text →
            table otherRoot otherLines = table root lines := by
  have hWritten : ∀ root drawing, Sink.unlimited.writeDrawing .json root drawing =
      (drawing.result.mapError .tree, ⟨Style.json.text root drawing, none⟩) :=
    Sink.writeDrawing_unlimited [] .json
  refine ⟨Style.json.text root (lines.map .ok), (Line.ofRoot root :: lines).map Line.object,
    ?written, ?failed, lines?_text_json root lines, by simp, ?nonempty,
    map_decode?_object root lines, read?_text_json root lines, ?distinct⟩
  case written => rw [hWritten, Drawing.result_map_ok]; rfl
  case failed =>
    intro error later
    rw [hWritten, Drawing.result_append_error, Style.text_append_error]
    rfl
  case nonempty =>
    intro row hRow
    obtain ⟨line, -, rfl⟩ := List.mem_map.1 hRow
    exact line.object_ne_nil
  case distinct =>
    intro otherRoot otherLines hSame
    replace hSame : Style.json.text otherRoot (otherLines.map .ok) =
        Style.json.text root (lines.map .ok) := by
      rwa [hWritten] at hSame
    have hRead := read?_text_json otherRoot otherLines
    rw [hSame, read?_text_json, Option.some.injEq] at hRead
    exact hRead.symm

end TreeRow

end HostTree
