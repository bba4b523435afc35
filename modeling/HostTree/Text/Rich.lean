import HostTree.Text.Escape

/-!
Text of which parts stand out. It can be written plainly or with escape sequences for a terminal;
its width is the one of its characters alone.
-/

namespace HostTree

/-- How a piece of text stands out. -/
inductive Emphasis where
  | plain
  /-- Words that are to be typed as they stand. -/
  | literal
  | heading
deriving DecidableEq

/-- A piece of text. -/
structure Span where
  emphasis : Emphasis
  text : String
deriving DecidableEq

/-- Text of which parts stand out. -/
abbrev RichText := List Span

/-- The escape sequences in front of a piece of text. -/
def Emphasis.escapes : Emphasis → String
  | .plain => ""
  | .literal => Escape.bold
  | .heading => Escape.bold ++ Escape.underlined

/-- A piece of text, between escape sequences if they are wanted and it stands out. -/
def Span.render (withEscapes : Bool) (span : Span) : String :=
  if withEscapes && span.emphasis ≠ .plain then
    span.emphasis.escapes ++ span.text ++ Escape.reset
  else span.text

namespace RichText

/-- Plain text. -/
def plain (text : String) : RichText := [⟨.plain, text⟩]

/-- Words that are to be typed as they stand. -/
def literal (text : String) : RichText := [⟨.literal, text⟩]

/-- A heading. -/
def heading (text : String) : RichText := [⟨.heading, text⟩]

/-- The number of characters. -/
def width (text : RichText) : Nat :=
  (text.flatMap fun span => span.text.toList).length

/-- Texts with a plain one between each two of them. -/
def join (between : String) : List RichText → RichText
  | [] => []
  | [text] => text
  | text :: rest => text ++ plain between ++ join between rest

/-- A text as it is written, with escape sequences or without. -/
def render (withEscapes : Bool) (text : RichText) : String :=
  String.join (text.map (Span.render withEscapes))

/-- Without escape sequences nothing is written but the texts themselves. -/
theorem render_false (text : RichText) :
    text.render false = String.join (text.map Span.text) := by
  have hSpan : Span.render false = Span.text := by
    funext span
    simp [Span.render]
  rw [render, hSpan]

end RichText

end HostTree
