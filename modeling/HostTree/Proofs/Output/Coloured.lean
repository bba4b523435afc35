import HostTree.Proofs.Output.Pieces
import HostTree.Proofs.Output.Plain
import HostTree.Proofs.Text.Terminal

/-!
Drawings with colours, as a terminal shows them. Each line begins on a terminal on which nothing is
switched on, and what is shown of it is the line as it is drawn plainly.
-/

namespace HostTree

open Terminal

/-- What is switched on for the names of a kind. -/
def EntryKind.codes : EntryKind → List Nat
  | .directory => [34]
  | .link => [36]
  | _ => []

theorem EntryKind.read_before (kind : EntryKind) :
    Terminal.plain.read (Octets.ofString (String.join (Escape.before kind))) =
      ([], ⟨.nothing, kind.codes⟩) := by
  cases kind <;> decide

theorem Guide.escape_notMem_connector (isLast : Bool) :
    '\x1b' ∉ (Guide.connector isLast).toList := by
  cases isLast <;> decide

theorem Terminal.read_newline (codes : List Nat) :
    read ⟨.nothing, codes⟩ [Octets.newline] = ([(Octets.newline, codes)], ⟨.nothing, codes⟩) :=
  read_of_notMem (by decide) codes

namespace Line

/-- Whether a line holds no escape. -/
def IsFreeOfEscapes (line : Line) : Prop :=
  '\x1b' ∉ line.lead.toList ∧ '\x1b' ∉ line.connector.toList ∧ '\x1b' ∉ line.name.toList
deriving Decidable

/-- What a terminal shows of a line: nothing is switched on but for its name. -/
def cells (line : Line) : List Cell :=
  (Octets.ofString (line.lead ++ line.connector)).map (·, []) ++
    (Octets.ofString line.name).map (·, line.kind.codes) ++ [(Octets.newline, [])]

theorem map_fst_cells (line : Line) :
    line.cells.map Prod.fst = Octets.ofString line.render ++ [Octets.newline] := by
  simp [cells, render, Octets.ofString_append]

/-- Whatever a line holds and whatever stands in front of it, everything is switched off behind
it. -/
theorem read_renderColoured_snd (terminal : Terminal) (line : Line) :
    (terminal.read (Octets.ofString line.renderColoured)).2 = plain := by
  rw [renderColoured, Octets.ofString_append, read_append_snd, read_reset]

theorem read_row_snd (terminal : Terminal) (line : Line) :
    (terminal.read (Style.coloured.row line)).2 = plain := by
  rw [Style.row_coloured, read_append_snd, read_renderColoured_snd, plain, read_newline]

theorem read_row {line : Line} (hLine : line.IsFreeOfEscapes) :
    plain.read (Style.coloured.row line) = (line.cells, plain) := by
  obtain ⟨hLead, hConnector, hName⟩ := hLine
  have hGuides : '\x1b' ∉ (line.lead ++ line.connector).toList := by
    rw [String.toList_append, List.mem_append, not_or]
    exact ⟨hLead, hConnector⟩
  have hText : Style.coloured.row line =
      Octets.ofString (line.lead ++ line.connector) ++
        (Octets.ofString (String.join (Escape.before line.kind)) ++ (Octets.ofString line.name ++
          (Octets.ofString Escape.reset ++ [Octets.newline]))) := by
    simp [Style.row_coloured, renderColoured, Octets.ofString_append]
  have hCells : line.cells =
      (Octets.ofString (line.lead ++ line.connector)).map (·, []) ++
        ([] ++ ((Octets.ofString line.name).map (·, line.kind.codes) ++
          ([] ++ [(Octets.newline, [])]))) := by
    simp [cells]
  rw [hText, hCells]
  exact read_append_eq (read_of_notMem (Octets.escape_notMem_ofString hGuides) [])
    (read_append_eq line.kind.read_before
      (read_append_eq (read_of_notMem (Octets.escape_notMem_ofString hName) line.kind.codes)
        (read_append_eq (read_reset _) (read_newline []))))

end Line

namespace Style

/-- What a terminal shows of a root and of the lines below it: the root in bold. -/
def cells (root : Path) (lines : List Line) : List Cell :=
  (Octets.ofString (root.display ++ "\n")).map (·, [1]) ++ lines.flatMap Line.cells

theorem read_header_snd (terminal : Terminal) (root : Path) :
    (terminal.read ((coloured.header root).flatMap (·.text))).2 = Terminal.plain := by
  rw [header_coloured, read_append_snd, read_append_snd, read_append_snd, read_reset]

theorem read_header {root : Path} (hRoot : '\x1b' ∉ root.display.toList) :
    Terminal.plain.read ((coloured.header root).flatMap (·.text)) =
      ((Octets.ofString (root.display ++ "\n")).map (·, [1]), Terminal.plain) := by
  have hHeader : '\x1b' ∉ (root.display ++ "\n").toList := by
    rw [String.toList_append, List.mem_append, not_or]
    exact ⟨hRoot, by decide⟩
  have hShown := read_append_eq (read_reset Terminal.plain) (read_append_eq (read_bold [])
    (read_append_eq (read_of_notMem (Octets.escape_notMem_ofString hHeader) [1])
      (read_reset ⟨.nothing, [1]⟩)))
  rw [header_coloured]
  exact hShown.trans (by simp [Terminal.plain, Begun.held])

/-- Behind a root and any lines below it everything is switched off. -/
theorem read_rows_snd (root : Path) (lines : List Line) :
    (Terminal.plain.read (coloured.rows root lines).flatten).2 = Terminal.plain := by
  rw [rows, List.flatten_cons, read_append_snd, read_header_snd]
  induction lines with
  | nil => rfl
  | cons line rest ih =>
      rw [List.map_cons, List.flatten_cons, read_append_snd, Line.read_row_snd]
      exact ih

/-- What is shown of a root and of lines below it, if they hold no escapes. -/
theorem read_rows {root : Path} (hRoot : '\x1b' ∉ root.display.toList) {lines : List Line}
    (hLines : ∀ line ∈ lines, line.IsFreeOfEscapes) :
    Terminal.plain.read (coloured.rows root lines).flatten =
      (cells root lines, Terminal.plain) := by
  rw [rows, List.flatten_cons]
  refine read_append_eq (read_header hRoot) ?_
  induction lines with
  | nil => rfl
  | cons line rest ih =>
      rw [List.forall_mem_cons] at hLines
      exact read_append_eq (Line.read_row hLines.1) (ih hLines.2)

theorem flatten_rows_plain (root : Path) (lines : List Line) :
    (plain.rows root lines).flatten =
      Octets.ofLines ((root.display :: lines.map Line.render).map Octets.ofString) := by
  rw [← text_plain, text_eq, Drawing.front_map_ok]

/-- The octets that are shown are those of the plain text. -/
theorem map_fst_cells (root : Path) (lines : List Line) :
    (cells root lines).map Prod.fst = (plain.rows root lines).flatten := by
  rw [flatten_rows_plain]
  simp [cells, Octets.ofLines, Octets.ofString_line, List.map_flatMap, List.flatMap_map,
    Line.map_fst_cells]

theorem visible_rows {root : Path} (hRoot : '\x1b' ∉ root.display.toList) {lines : List Line}
    (hLines : ∀ line ∈ lines, line.IsFreeOfEscapes) :
    visible (coloured.rows root lines).flatten = (plain.rows root lines).flatten := by
  rw [visible, display, read_rows hRoot hLines, ← map_fst_cells]
  simp [Terminal.plain, Begun.held]

/-- The rows in front of a line, the line up to its end, and what stands behind it. -/
theorem flatten_rows_coloured (root : Path) (before : List Line) (line : Line)
    (behind : List Line) :
    (coloured.rows root (before ++ line :: behind)).flatten =
      (coloured.rows root before).flatten ++ Octets.ofString line.renderColoured ++
        Octets.newline :: (behind.map coloured.row).flatten := by
  simp [rows, row_coloured]

/-- Plain text and text with colours are two renderings of one drawing, whatever it holds. The plain
one is the root and the lines in front of the first failure as they are drawn, each with a newline.
Both end with the number of these lines, or with the failure. If no part of the root and of the
lines holds an escape, as no connector of a walk does, then nothing but the plain text remains of
the one with colours when its sequences are taken out, and what is switched on for the root and for
the names is switched on for nothing else. Even if there are escapes, everything is switched off
behind the root, and at the end of each line before its newline. -/
theorem renderings_agree (root : Path) (drawing : Drawing) :
    ∃ plainText colouredText,
      Sink.unlimited.writeDrawing .plain root drawing =
          (drawing.result.mapError .tree, ⟨plainText, none⟩) ∧
        Sink.unlimited.writeDrawing .coloured root drawing =
          (drawing.result.mapError .tree, ⟨colouredText, none⟩) ∧
        ((drawing = drawing.front.map .ok ∧ drawing.result = .ok drawing.front.length) ∨
          ∃ error later, drawing = drawing.front.map .ok ++ .error error :: later ∧
            drawing.result = .error error) ∧
        plainText =
          Octets.ofLines ((root.display :: drawing.front.map Line.render).map Octets.ofString) ∧
        (∀ isLast, '\x1b' ∉ (Guide.connector isLast).toList) ∧
        ('\x1b' ∉ root.display.toList → (∀ line ∈ drawing.front, line.IsFreeOfEscapes) →
          (∀ kept, StripsTo colouredText kept ↔ kept = plainText) ∧
            Terminal.plain.read colouredText = (cells root drawing.front, Terminal.plain)) ∧
        (∀ before behind, drawing.front = before ++ behind →
          colouredText =
              (coloured.rows root before).flatten ++ (behind.map coloured.row).flatten ∧
            (Terminal.plain.read (coloured.rows root before).flatten).2 = Terminal.plain) ∧
        ∀ before line behind, drawing.front = before ++ line :: behind →
          colouredText =
              (coloured.rows root before).flatten ++ Octets.ofString line.renderColoured ++
                Octets.newline :: (behind.map coloured.row).flatten ∧
            (Terminal.plain.read ((coloured.rows root before).flatten ++
              Octets.ofString line.renderColoured)).2 = Terminal.plain := by
  refine ⟨plain.text root drawing, coloured.text root drawing,
    Sink.writeDrawing_unlimited [] plain root drawing,
    Sink.writeDrawing_unlimited [] coloured root drawing, drawing.front_cases, ?plain,
    Guide.escape_notMem_connector, ?visible, ?rows, ?lines⟩
  case plain => rw [text_eq, flatten_rows_plain]
  case visible =>
    intro hRoot hLines
    rw [text_eq, text_eq]
    refine ⟨fun kept => ?_, read_rows hRoot hLines⟩
    rw [stripsTo_iff, visible_rows hRoot hLines]
  case rows =>
    intro before behind hFront
    refine ⟨?_, read_rows_snd root before⟩
    rw [text_eq, hFront]
    simp [rows]
  case lines =>
    intro before line behind hFront
    constructor
    · rw [text_eq, hFront, flatten_rows_coloured]
    · rw [read_append_snd, Line.read_renderColoured_snd]

/-- A drawing of a directory that cannot be listed, behind a link. -/
def interrupted : Drawing :=
  [.ok (.ofEntry "" 1 ⟨Octets.ofString "é", .ofString "./é", .link, false⟩ false),
    .ok (.ofEntry "" 1 ⟨Octets.ofString "m", .ofString "./m", .directory, false⟩ true),
    .error (.permissionDenied (.ofString "./m"))]

theorem renderings_agree_interrupted :
    ('\x1b' ∉ (Path.ofString ".").display.toList ∧
      ∀ line ∈ interrupted.front, line.IsFreeOfEscapes) ∧
    (Sink.unlimited.writeDrawing .coloured (.ofString ".") interrupted).1 =
      .error (.tree (.permissionDenied (.ofString "./m"))) ∧
    StripsTo (Sink.unlimited.writeDrawing .coloured (.ofString ".") interrupted).2.written
      (Octets.ofString ".\n├── é\n└── m\n") := by
  have hRoot : '\x1b' ∉ (Path.ofString ".").display.toList := by decide
  have hLines : ∀ line ∈ interrupted.front, line.IsFreeOfEscapes := by decide
  have hText : Octets.ofLines
      (((Path.ofString ".").display :: interrupted.front.map Line.render).map Octets.ofString) =
        Octets.ofString ".\n├── é\n└── m\n" := by decide
  obtain ⟨plainText, colouredText, -, hColoured, -, hPlain, -, hStrips, -⟩ :=
    renderings_agree (.ofString ".") interrupted
  rw [hColoured, ((hStrips hRoot hLines).1 _), hPlain, hText]
  exact ⟨⟨hRoot, hLines⟩, rfl, rfl⟩

end Style

end HostTree
