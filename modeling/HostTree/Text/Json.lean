/-!
JSON texts of one line: strings with the fewest escapes, numbers, truth values, and objects whose
fields keep their order and are parted by commas without blanks.
-/

namespace HostTree

namespace Json

/-- One hexadecimal digit, in lower case. -/
def hexDigit (n : Nat) : Char :=
  Nat.digitChar n

/-- One character of a string. The quote, the backslash and the controls below U+0020 are escaped,
the five of these that have a letter by their letter. -/
def escape (c : Char) : List Char :=
  if c = '"' then ['\\', '"']
  else if c = '\\' then ['\\', '\\']
  else if c = '\x08' then ['\\', 'b']
  else if c = '\t' then ['\\', 't']
  else if c = '\n' then ['\\', 'n']
  else if c = '\x0c' then ['\\', 'f']
  else if c = '\r' then ['\\', 'r']
  else if c.toNat < 0x20 then
    ['\\', 'u', '0', '0', hexDigit (c.toNat / 16), hexDigit (c.toNat % 16)]
  else [c]

/-- The values that a row holds. -/
inductive Value where
  | string (text : String)
  | number (n : Nat)
  | truth (b : Bool)
deriving DecidableEq

/-- A string between its quotes. -/
def string (text : List Char) : List Char :=
  '"' :: text.flatMap escape ++ ['"']

/-- A value as it is written. -/
def Value.text : Value → List Char
  | .string text => Json.string text.toList
  | .number n => Nat.toDigits 10 n
  | .truth true => "true".toList
  | .truth false => "false".toList

/-- A field: its name, a colon and its value. -/
def field (name : String) (value : Value) : List Char :=
  Json.string name.toList ++ ':' :: value.text

/-- The fields after the first, each behind a comma. -/
def otherFields : List (String × Value) → List Char
  | [] => []
  | (name, value) :: rest => ',' :: field name value ++ otherFields rest

/-- An object with its fields in the given order. -/
def object : List (String × Value) → List Char
  | [] => ['\x7b', '\x7d']
  | (name, value) :: rest => '\x7b' :: field name value ++ otherFields rest ++ ['\x7d']

end Json

end HostTree
