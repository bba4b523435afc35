import HostTree.Output.Sink
import HostTree.Text.Escape
import HostTree.Text.Json
import HostTree.Tree.Drawing

/-!
The styles in which a drawing is written: as plain text, as text with colours, and as rows of JSON.
A style says what is written for the root and for a line; the writing itself is the same for all.
-/

namespace HostTree

/-- How a drawing is written. -/
inductive Style where
  /-- Lines as they are drawn. -/
  | plain
  /-- Lines as they are drawn, between escape sequences for a terminal. -/
  | coloured
  /-- One JSON object for each line. -/
  | json
deriving DecidableEq

namespace Escape

/-- The sequences in front of the names of a kind. -/
def before : EntryKind → List String
  | .directory => [reset, blue]
  | .link => [reset, cyan]
  | _ => []

end Escape

namespace EntryKind

/-- The name of a kind in a row. -/
def name : EntryKind → String
  | .file => "file"
  | .directory => "dir"
  | .link => "symlink"
  | .other => "other"

end EntryKind

namespace Line

/-- A line between the escape sequences of its kind. -/
def renderColoured (line : Line) : String :=
  line.lead ++ line.connector ++ String.join (Escape.before line.kind) ++ line.name ++ Escape.reset

/-- The fields of a line's row. -/
def fields (line : Line) : List (String × Json.Value) :=
  [("name", .string line.name), ("path", .string line.path.display), ("depth", .number line.depth),
    ("kind", .string line.kind.name), ("is_last", .truth line.isLast)]

/-- The line that stands for the root where lines are rows: a directory that encloses all. -/
def ofRoot (root : Path) : Line where
  lead := ""
  connector := ""
  name := root.display
  path := root
  depth := 0
  kind := .directory
  isLast := true

/-- The row of a line: an object, and the end of the row. -/
def row (line : Line) : List Piece :=
  [⟨Octets.ofChars (Json.object line.fields), .object⟩, .ofString "\n"]

end Line

namespace Style

/-- Escape sequences, where a style has them. -/
def escapes (sequences : List String) : Style → List Piece
  | .coloured => sequences.map .ofString
  | _ => []

/-- What is written for the root: in bold, or as the first row. -/
def header (root : Path) (style : Style) : List Piece :=
  match style with
  | .plain | .coloured =>
    style.escapes [Escape.reset, Escape.bold] ++ [.ofString (root.display ++ "\n")] ++
      style.escapes [Escape.reset]
  | .json => (Line.ofRoot root).row

/-- What is written for a line: its guides, the name in the colour of its kind, and the end of the
line; or its row. -/
def line (line : Line) (style : Style) : List Piece :=
  match style with
  | .plain | .coloured =>
    [.ofString (line.lead ++ line.connector)] ++ style.escapes (Escape.before line.kind) ++
      [.ofString line.name] ++ style.escapes [Escape.reset] ++ [.ofString "\n"]
  | .json => line.row

end Style

end HostTree
