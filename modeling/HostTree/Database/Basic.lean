/-!
A database as far as the trades in it go: what the name `stocks` stands for, the rows it holds, and
which other tables there are: one whose rows are checked, and one to be indexed.
-/

namespace HostTree

/-- A value that a row keeps. -/
inductive SqlValue where
  | text (content : String)
  | integer (value : Int)
  /-- A real number, in hundredths. -/
  | real (hundredths : Int)
deriving DecidableEq

/-- What a column turns values into. -/
inductive Affinity where
  /-- Values are kept as they come. -/
  | any
  | text
  | integer
  | real
deriving DecidableEq

/-- One row of a table. -/
abbrev Row := List SqlValue

/-- A limit that a table sets to its rows. -/
inductive Constraint where
  | free
  /-- No two rows have the same symbol. -/
  | uniqueSymbol
  /-- The price is below a number. -/
  | priceBelow (limit : Int)
deriving DecidableEq

/-- What an insertion sets off. -/
inductive Trigger where
  /-- Every insertion is refused. -/
  | refuse
  /-- Every insertion is passed over in silence. -/
  | skip
  /-- Every insertion is followed by one more of the same row, which sets off nothing. -/
  | double
deriving DecidableEq

/-- A table for trades. -/
structure Table where
  columns : List Affinity
  constraint : Constraint
  trigger : Option Trigger
  rows : List Row
deriving DecidableEq

/-- What the name `stocks` stands for. -/
inductive Relation where
  | absent
  | table (table : Table)
  /-- A view that shows two rows, with the integers 1 and 2. -/
  | view
  /-- An index of another table. -/
  | index
deriving DecidableEq

/-- The content of a database. -/
structure Database where
  stocks : Relation
  /-- Whether the checked table holds a row against its constraint, if there is such a table. -/
  audit : Option Bool
  /-- Whether there is the table that is made to be indexed. -/
  catalogue : Bool
deriving DecidableEq

namespace Database

/-- A database without tables. -/
def empty : Database := ⟨.absent, none, false⟩

end Database

namespace SqlValue

/-- The decimal text of hundredths: no digit more than needed, but at least one after the point. -/
def realText (hundredths : Int) : String :=
  let whole := hundredths.natAbs / 100
  let part := hundredths.natAbs % 100
  let digits :=
    if part % 10 = 0 then toString (part / 10)
    else toString (part / 10) ++ toString (part % 10)
  (if hundredths < 0 then "-" else "") ++ toString whole ++ "." ++ digits

/-- A value turned into text. -/
def toText : SqlValue → String
  | .text content => content
  | .integer value => toString value
  | .real hundredths => realText hundredths

/-- A value as a column keeps it. Texts here are no numbers, so a numeric column keeps them; a real
becomes an integer only where nothing is lost. -/
def coerce : Affinity → SqlValue → SqlValue
  | .any, value => value
  | .text, value => .text value.toText
  | .integer, .real hundredths =>
    if hundredths % 100 = 0 then .integer (hundredths / 100) else .real hundredths
  | .integer, value => value
  | .real, .integer value => .real (value * 100)
  | .real, value => value

/-- A value with the name of its type in front. -/
def describe : SqlValue → String
  | .text content => "text " ++ content
  | .integer value => "integer " ++ toString value
  | .real hundredths => "real " ++ realText hundredths

end SqlValue

namespace Trade

/-- The price of the trade that is inserted, in hundredths. -/
def price : Int := 3514

/-- The trade that is inserted: date, direction, symbol, quantity and price. -/
def standard : Row :=
  [.text "2006-01-05", .text "BUY", .text "RHAT", .integer 100, .real price]

/-- The columns of the table that is created for trades. -/
def columns : List Affinity :=
  [.text, .text, .text, .real, .real]

end Trade

namespace Table

/-- A table without rows and triggers. -/
def empty (columns : List Affinity) (constraint : Constraint) : Table where
  columns := columns
  constraint := constraint
  trigger := none
  rows := []

/-- The trade as the columns of a table keep it. -/
def stored (table : Table) : Row :=
  List.zipWith SqlValue.coerce table.columns Trade.standard

end Table

end HostTree
