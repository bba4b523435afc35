import HostTree.Proofs.Output.Pieces
import HostTree.Proofs.Output.Rows
import HostTree.Proofs.Walk.Answers

/-!
Plain drawings read back. In front of the connector of a line stand units of four characters, one
for each line around it, and no unit is a connector; so what follows the first connector is the
name, whatever the name begins with. The units in turn follow from the lines in front.
-/

namespace HostTree

/-- What a drawn line shows. -/
structure Mark where
  depth : Nat
  isLast : Bool
  name : String
deriving DecidableEq

namespace Mark

open Outline

/-- What a line shows where it is drawn. -/
def ofLine (line : Line) : Mark :=
  ⟨line.depth, line.isLast, line.name⟩

/-- What a row tells of what a drawn line shows. -/
def ofRow (row : TreeRow) : Mark :=
  ⟨row.depth, row.isLast, row.name⟩

/-- What a text shows, if it is that of a drawn line. -/
def read? : List Char → Option Mark
  | a :: b :: c :: d :: rest =>
    if [a, b, c, d] = Guide.branch.toList then some ⟨1, false, String.ofList rest⟩
    else if [a, b, c, d] = Guide.corner.toList then some ⟨1, true, String.ofList rest⟩
    else if [a, b, c, d] = Guide.continuation.toList ∨ [a, b, c, d] = Guide.blank.toList then
      (read? rest).map fun mark => { mark with depth := mark.depth + 1 }
    else none
  | _ => none

/-- What a drawing shows: the name of the root, and what the lines below it do. -/
def readAll? (text : Octets) : Option (String × List Mark) :=
  match Octets.lines? text with
  | some (header :: lines) =>
    (Utf8.decode? header).bind fun name =>
      (lines.mapM fun line => (Utf8.decode? line).bind fun text => read? text.toList).map (name, ·)
  | _ => none

/-- The guides behind earlier lines: one for each depth that is less, as the latest line of that
depth has it. -/
def lead (earlier : List Mark) (depth : Nat) : String :=
  String.join ((List.range (depth - 1)).filterMap fun outer =>
    (earlier.reverse.find? (·.depth = outer + 1)).map fun mark => Guide.below mark.isLast)

/-- The texts of lines behind earlier ones. -/
def texts (earlier : List Mark) : List Mark → List String
  | [] => []
  | mark :: rest =>
    (lead earlier mark.depth ++ Guide.connector mark.isLast ++ mark.name) ::
      texts (earlier ++ [mark]) rest

/-- The drawing that shows something. -/
def draw (name : String) (marks : List Mark) : Octets :=
  Octets.ofLines ((name :: texts [] marks).map Octets.ofString)

theorem read?_below (isLast : Bool) (rest : List Char) :
    read? ((Guide.below isLast).toList ++ rest) =
      (read? rest).map fun mark => { mark with depth := mark.depth + 1 } := by
  cases isLast with
  | false => simp [Guide.below, Guide.continuation, read?, Guide.branch, Guide.corner]
  | true => simp [Guide.below, Guide.blank, read?, Guide.branch, Guide.corner]

theorem read?_connector (isLast : Bool) (name : List Char) :
    read? ((Guide.connector isLast).toList ++ name) =
      some ⟨1, isLast, String.ofList name⟩ := by
  cases isLast with
  | false => simp [Guide.connector, Guide.branch, read?]
  | true => simp [Guide.connector, read?, Guide.branch, Guide.corner]

/-- The guides of a line are read one by one, and its name from behind its connector. -/
theorem read?_guides (around : List Bool) (isLast : Bool) (name : String) :
    read? (String.join (around.map Guide.below) ++ Guide.connector isLast ++ name).toList =
      some ⟨around.length + 1, isLast, name⟩ := by
  induction around with
  | nil => simp [read?_connector]
  | cons outer around ih =>
      rw [String.toList_append, String.toList_append] at ih ⊢
      rw [List.map_cons, String.join_cons, String.toList_append, List.append_assoc,
        List.append_assoc, read?_below, ← List.append_assoc, ih]
      rfl

variable {options : DrawOptions} {root : Path} {views : Nat → View}

/-- A line of a walk has one guide for each line around it. -/
theorem render_eq {earlier : List Line} {line : Line}
    (hLine : Walk.Continues options root views earlier line) :
    line.render =
      String.join (((ancestors earlier line.depth).map (·.1.isLast)).map Guide.below) ++
        Guide.connector line.isLast ++ line.name := by
  have hConnector : line.connector = Guide.connector line.isLast := hLine.connector_eq
  rw [Line.render, hLine.lead_eq, hConnector, List.map_map]
  rfl

/-- What a line of a walk shows is read from the line alone. -/
theorem read?_render {earlier : List Line} {line : Line}
    (hLine : Walk.Continues options root views earlier line) :
    read? line.render.toList = some (ofLine line) := by
  have hDepth : ((ancestors earlier line.depth).map (·.1.isLast)).length + 1 = line.depth := by
    have hPositive := hLine.depth_pos
    rw [List.length_map, hLine.length_ancestors]
    omega
  rw [render_eq hLine, read?_guides, hDepth]
  rfl

theorem newline_notMem_render {earlier : List Line} {line : Line}
    (hLine : Walk.Continues options root views earlier line) (hName : '\n' ∉ line.name.toList) :
    '\n' ∉ line.render.toList := by
  have hBelow : ∀ isLast, '\n' ∉ (Guide.below isLast).toList := by decide
  have hConnector : ∀ isLast, '\n' ∉ (Guide.connector isLast).toList := by decide
  rw [render_eq hLine]
  simp [String.toList_join, hBelow, hConnector, hName]

/-- The guides that earlier marks ask for are those of the lines around. -/
theorem lead_ofLine (earlier : List Line) (depth : Nat) :
    lead (earlier.map ofLine) depth =
      String.join (((ancestors earlier depth).map (·.1.isLast)).map Guide.below) := by
  have hDepth : ∀ line, (ofLine line).depth = line.depth := fun _ => rfl
  simp only [lead, ancestors, List.map_filterMap, find?_map_reverse hDepth, Option.map_map]
  rfl

/-- The lines of a walk are drawn again from what they show. -/
theorem texts_ofLine {earlier later : List Line}
    (hPreorder : Walk.Preorder options root views (earlier ++ later)) :
    texts (earlier.map ofLine) (later.map ofLine) = later.map Line.render := by
  induction later generalizing earlier with
  | nil => rfl
  | cons line later ih =>
      have hLine := hPreorder.continues earlier line later rfl
      have hLater : texts ((earlier ++ [line]).map ofLine) (later.map ofLine) =
          later.map Line.render := ih (by simpa using hPreorder)
      rw [List.map_append, List.map_singleton] at hLater
      rw [List.map_cons, List.map_cons, texts, hLater, render_eq hLine, lead_ofLine]
      rfl

end Mark

namespace Style

theorem text_plain (shown : Path) (lines : List Line) :
    plain.text shown (lines.map .ok) =
      Octets.ofLines ((shown.display :: lines.map Line.render).map Octets.ofString) := by
  have hLine : ∀ line : Line, (plain.line line).flatMap (·.text) =
      Octets.ofString line.render ++ [Octets.newline] := row_plain
  rw [text, body_map_ok, header_plain]
  simp only [hLine, Octets.ofLines, List.map_cons, List.flatMap_cons, List.map_map,
    List.flatMap_map, Function.comp_apply]

end Style

namespace Mark

variable {options : DrawOptions} {root : Path} {views : Nat → View}

/-- What a walk has shown is read back from its plain text. -/
theorem readAll?_text_plain {shown : Path} {lines : List Line}
    (hPreorder : Walk.Preorder options root views lines) (hShown : '\n' ∉ shown.display.toList)
    (hNames : ∀ line ∈ lines, '\n' ∉ line.name.toList) :
    readAll? (Style.plain.text shown (lines.map .ok)) = some (shown.display, lines.map ofLine) := by
  have hContinues : ∀ line ∈ lines, ∃ earlier, Walk.Continues options root views earlier line := by
    intro line hMem
    obtain ⟨earlier, later, hSplit⟩ := List.append_of_mem hMem
    exact ⟨earlier, hPreorder.continues earlier line later hSplit⟩
  have hText : ∀ text ∈ shown.display :: lines.map Line.render, '\n' ∉ text.toList := by
    simp only [List.forall_mem_cons, List.forall_mem_map]
    refine ⟨hShown, fun line hMem => ?_⟩
    obtain ⟨earlier, hLine⟩ := hContinues line hMem
    exact newline_notMem_render hLine (hNames line hMem)
  have hLines : Octets.lines? (Style.plain.text shown (lines.map .ok)) =
      some ((shown.display :: lines.map Line.render).map Octets.ofString) := by
    rw [Style.text_plain, Octets.lines?_ofLines]
    simp only [List.forall_mem_map]
    exact fun text hMem => Octets.newline_notMem_ofChars (hText text hMem)
  have hMarks : ((lines.map Line.render).map Octets.ofString).mapM
      (fun line => (Utf8.decode? line).bind fun text => read? text.toList) =
        some (lines.map ofLine) := by
    rw [List.map_map]
    apply Octets.mapM_map_eq_some
    intro line hMem
    obtain ⟨earlier, hLine⟩ := hContinues line hMem
    rw [Function.comp_apply, Utf8.decode?_ofString, Option.bind_some, read?_render hLine]
  simp only [readAll?, hLines, List.map_cons, Utf8.decode?_ofString, Option.bind_some, hMarks,
    Option.map_some]

theorem draw_ofLine (shown : Path) {lines : List Line}
    (hPreorder : Walk.Preorder options root views lines) :
    draw shown.display (lines.map ofLine) = Style.plain.text shown (lines.map .ok) := by
  have hTexts : texts (([] : List Line).map ofLine) (lines.map ofLine) =
      lines.map Line.render := texts_ofLine hPreorder
  rw [List.map_nil] at hTexts
  rw [draw, hTexts, Style.text_plain]

theorem map_ofRow (lines : List Line) :
    (lines.map TreeRow.ofLine).map ofRow = lines.map ofLine := by
  rw [List.map_map]
  rfl

end Mark

namespace Walk

/-- The plain drawing of a walk and its rows of JSON tell the same, if no name in it holds a
newline. A reader that knows nothing of the tree finds in the plain text the header and each line's
depth, whether it is the last of its directory, and its name, as the rows have them, even if names
are made of guides and connectors. From these fields of the rows the plain text is drawn again,
octet for octet. So no two walks that differ in them have the same plain text. -/
theorem plain_is_rows (options : DrawOptions) (root shown : Path) (views : Nat → View)
    (calls : Nat) (hShown : '\n' ∉ shown.display.toList)
    (hNames : ∀ line ∈ (start options root).lines views calls, '\n' ∉ line.name.toList) :
    ∃ header rows,
      TreeRow.read? ((start options root).written views calls .json shown) =
          some (header :: rows) ∧
        header.name = shown.display ∧
        rows.map Mark.ofRow = ((start options root).lines views calls).map Mark.ofLine ∧
        Mark.readAll? ((start options root).written views calls .plain shown) =
          some (header.name, rows.map Mark.ofRow) ∧
        Mark.draw header.name (rows.map Mark.ofRow) =
          (start options root).written views calls .plain shown ∧
        ∀ otherOptions otherRoot otherShown otherViews otherCalls,
          '\n' ∉ otherShown.display.toList →
          (∀ line ∈ (start otherOptions otherRoot).lines otherViews otherCalls,
            '\n' ∉ line.name.toList) →
          (start otherOptions otherRoot).written otherViews otherCalls .plain otherShown =
            (start options root).written views calls .plain shown →
          otherShown.display = shown.display ∧
            ((start otherOptions otherRoot).lines otherViews otherCalls).map Mark.ofLine =
              ((start options root).lines views calls).map Mark.ofLine := by
  have hPreorder : ∀ options root views calls,
      Preorder options root views ((start options root).lines views calls) :=
    fun options root views calls => (stands_after options root views calls).2.1.preorder
  refine ⟨TreeRow.ofRoot shown, ((start options root).lines views calls).map TreeRow.ofLine,
    ?json, rfl, Mark.map_ofRow _, ?plain, ?draw, ?distinct⟩
  case json => rw [written_eq, TreeRow.read?_text_json, TreeRow.table]
  case plain =>
    rw [written_eq, Mark.map_ofRow,
      Mark.readAll?_text_plain (hPreorder options root views calls) hShown hNames]
    rfl
  case draw =>
    rw [written_eq, Mark.map_ofRow]
    exact Mark.draw_ofLine shown (hPreorder options root views calls)
  case distinct =>
    intro otherOptions otherRoot otherShown otherViews otherCalls hOtherShown hOtherNames hSame
    rw [written_eq, written_eq] at hSame
    have hRead := Mark.readAll?_text_plain
      (hPreorder otherOptions otherRoot otherViews otherCalls) hOtherShown hOtherNames
    rw [hSame, Mark.readAll?_text_plain (hPreorder options root views calls) hShown hNames] at hRead
    simp only [Option.some.injEq, Prod.mk.injEq] at hRead
    exact ⟨hRead.1.symm, hRead.2.symm⟩

/-- A file system with names that look like parts of a drawing. -/
def mimicking : FileSystem :=
  ⟨[.directory .newDirectory 0 [],
    .directory .newDirectory 0 [(Octets.ofString "│   └── a", 2)],
    .directory .newDirectory 1 [(Octets.ofString "├── b", 3)],
    .file .newFile (.octets [])]⟩

theorem plain_is_rows_mimicking :
    ('\n' ∉ (Path.ofString ".").display.toList ∧
      ∀ line ∈ (start unsorted (.ofString ".")).lines (fun _ => mimicking.view) 3,
        '\n' ∉ line.name.toList) ∧
    Mark.readAll? ((start unsorted (.ofString ".")).written (fun _ => mimicking.view) 3 .plain
      (.ofString ".")) = some (".", [⟨1, true, "│   └── a"⟩, ⟨2, true, "├── b"⟩]) ∧
    Mark.draw "." [⟨1, true, "│   └── a"⟩, ⟨2, true, "├── b"⟩] =
      (start unsorted (.ofString ".")).written (fun _ => mimicking.view) 3 .plain
        (.ofString ".") := by
  have hShown : '\n' ∉ (Path.ofString ".").display.toList := by decide
  have hNames : ∀ line ∈ (start unsorted (.ofString ".")).lines (fun _ => mimicking.view) 3,
      '\n' ∉ line.name.toList := by decide
  have hLines : ((start unsorted (.ofString ".")).lines (fun _ => mimicking.view) 3).map
      Mark.ofLine = [⟨1, true, "│   └── a"⟩, ⟨2, true, "├── b"⟩] := by decide
  have hDisplay : (Path.ofString ".").display = "." := by decide
  obtain ⟨header, rows, -, hHeader, hRows, hPlain, hDraw, -⟩ := plain_is_rows unsorted
    (.ofString ".") (.ofString ".") (fun _ => mimicking.view) 3 hShown hNames
  rw [hHeader, hRows, hLines, hDisplay] at hPlain hDraw
  exact ⟨⟨hShown, hNames⟩, hPlain, hDraw⟩

end Walk

end HostTree
