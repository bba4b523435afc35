import HostTree.Text.GraphemeExtend
import HostTree.Text.Unprintable

/-!
Lists of texts in one line: each text stands in double quotes, with a backslash before what would
end it or would not be seen, and the quoted texts stand between brackets, parted by a comma and a
space.
-/

namespace HostTree

namespace Quoted

/-- The halfwidth sound marks. They have a width of their own and are written as they are. -/
def halfwidthMarks : CodePoints := [(0xFF9E, 0xFF9F)]

/-- The fillers of the Hangul script: letters, but with nothing to see. -/
def hangulFillers : CodePoints :=
  [(0x115F, 0x1160), (0x3164, 0x3164), (0xFFA0, 0xFFA0)]

/-- The characters written by their code point: those that would join the character before them,
and those that show nothing. -/
def isCoded (c : Char) : Bool :=
  (graphemeExtend.holds c && !halfwidthMarks.holds c) || unprintable.holds c ||
    hangulFillers.holds c

/-- The digits of a code point in lower-case hexadecimal, without leading zeros. -/
def hexadecimal (n : Nat) : List Char :=
  Nat.toDigits 16 n

/-- One character as it stands between the quotes. -/
def escape (c : Char) : List Char :=
  if c = '\x00' then ['\\', '0']
  else if c = '\t' then ['\\', 't']
  else if c = '\r' then ['\\', 'r']
  else if c = '\n' then ['\\', 'n']
  else if c = '"' then ['\\', '"']
  else if c = '\\' then ['\\', '\\']
  else if isCoded c then ['\\', 'u', '\x7b'] ++ hexadecimal c.toNat ++ ['\x7d']
  else [c]

/-- A text between its quotes. -/
def quote (text : List Char) : List Char :=
  '"' :: text.flatMap escape ++ ['"']

/-- The quoted texts after the first, each behind a comma and a space. -/
def others : List (List Char) → List Char
  | [] => []
  | text :: rest => ',' :: ' ' :: quote text ++ others rest

/-- A list of texts between brackets. -/
def list : List (List Char) → List Char
  | [] => ['[', ']']
  | text :: rest => '[' :: quote text ++ others rest ++ [']']

end Quoted

end HostTree
