/-!
The escape sequences that terminals understand as changes of the way in which text is shown.
-/

namespace HostTree

namespace Escape

/-- The escape sequence that goes back to plain text. -/
def reset : String := "\x1b[0m"

/-- The escape sequence for bold text. -/
def bold : String := "\x1b[1m"

/-- The escape sequence for underlined text. -/
def underlined : String := "\x1b[4m"

/-- The escape sequence for blue text. -/
def blue : String := "\x1b[34m"

/-- The escape sequence for cyan text. -/
def cyan : String := "\x1b[36m"

end Escape

end HostTree
