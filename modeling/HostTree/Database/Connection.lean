import HostTree.Database.Basic
import HostTree.Database.Fault

/-!
A connection to a database: statements, transactions, and the order in which the reasons to refuse
an insertion are looked at. What is wrong with the statement itself is found before the database is
touched; then it must be writable; then triggers fire; constraints come last.
-/

namespace HostTree

/-- A connection. -/
structure Connection where
  database : Database
  /-- The database as it was when the open transaction began. -/
  saved : Option Database
  /-- Why nothing can be written, if nothing can. -/
  refusal : Option SqlFault
  /-- Why no transaction that has written can be closed, if none can. -/
  obstacle : Option SqlFault
deriving DecidableEq

/-- What the name `stocks` is to stand for. -/
inductive Definition where
  | table (columns : List Affinity) (constraint : Constraint)
  | view
  | index
deriving DecidableEq

/-- The statements that a connection takes. -/
inductive Statement where
  | define (definition : Definition)
  /-- Make a table, and an index of it that is called `stocks`. -/
  | indexNew
  /-- Insert a number of trades, each by a statement of its own. -/
  | insert (count : Nat)
  | deleteAll
  | dropTable
  | begin
  | commit
  | rollback
  /-- Make the connection refuse writes, or accept them again. -/
  | queryOnly (on : Bool)
  /-- Make another table with a row that breaks its constraint. -/
  | violate
  /-- Remove that row. -/
  | repair
  | addTrigger (trigger : Trigger)
  | dropTrigger
deriving DecidableEq

namespace Connection

/-- A connection to a database, with the reasons why it cannot be written or not be closed. -/
def toDatabase (database : Database) (refusal obstacle : Option SqlFault) : Connection :=
  ⟨database, none, refusal, obstacle⟩

/-- A database of its own, kept in memory, that can be written unless there is a reason. -/
def inMemory (refusal : Option SqlFault) : Connection :=
  toDatabase .empty refusal none

/-- Put a database in place of the present one. -/
def write (connection : Connection) (database : Database) : Except SqlFault Connection :=
  match connection.refusal with
  | some fault => .error fault
  | none => .ok { connection with database := database }

/-- Let `stocks` stand for something else. -/
def writeStocks (connection : Connection) (stocks : Relation) : Except SqlFault Connection :=
  connection.write { connection.database with stocks := stocks }

/-- The relation that a definition makes. -/
def build : Definition → Except SqlFault Relation
  | .table columns constraint =>
    if columns.length = 0 ∨ 2000 < columns.length then .error .badColumnCount
    else .ok (.table (.empty columns constraint))
  | .view => .ok .view
  | .index => .ok .index

/-- Define `stocks`, which must not stand for anything yet. -/
def define (connection : Connection) (definition : Definition) : Except SqlFault Connection :=
  match build definition with
  | .error fault => .error fault
  | .ok relation =>
    match connection.database.stocks with
    | .absent => connection.writeStocks relation
    | .index => .error .indexNamed
    | .table _ | .view => .error (.alreadyExists "stocks")

/-- Make the table for trades unless there is a table or view of its name. -/
def ensureTable (connection : Connection) : Except SqlFault Connection :=
  match connection.database.stocks with
  | .absent => connection.writeStocks (.table (.empty Trade.columns .free))
  | .index => .error .indexNamed
  | .table _ | .view => .ok connection

/-- Whether the constraint of a table admits one more trade. -/
def admits (table : Table) : Except SqlFault Unit :=
  match table.constraint with
  | .free => .ok ()
  | .uniqueSymbol => if table.rows.isEmpty then .ok () else .error .symbolTaken
  | .priceBelow limit =>
    if Trade.price < limit * 100 then .ok () else .error (.priceTooHigh limit)

/-- Add one trade to a table. -/
def append (table : Table) : Except SqlFault Table :=
  match admits table with
  | .error fault => .error fault
  | .ok () => .ok { table with rows := table.rows ++ [table.stored] }

/-- Add one trade to a table, with what its trigger does. -/
def trigger (table : Table) : Except SqlFault Table :=
  match table.trigger with
  | none => append table
  | some .refuse => .error .tradesRefused
  | some .skip => .ok table
  | some .double =>
    match append table with
    | .error fault => .error fault
    | .ok once => append once

/-- Insert one trade, wholly or not at all. -/
def insert (connection : Connection) : Except SqlFault Connection :=
  match connection.database.stocks with
  | .absent | .index => .error (.noSuchTable "stocks")
  | .view => .error .viewNotModifiable
  | .table table =>
    if table.columns.length ≠ Trade.standard.length then
      .error (.columnCount table.columns.length)
    else
      match connection.refusal with
      | some fault => .error fault
      | none =>
        match trigger table with
        | .error fault => .error fault
        | .ok table => connection.writeStocks (.table table)

/-- Change the table of trades. -/
def alter (connection : Connection) (change : Table → Except SqlFault Relation) :
    Except SqlFault Connection :=
  match connection.database.stocks with
  | .table table =>
    match change table with
    | .error fault => .error fault
    | .ok relation => connection.writeStocks relation
  | .view => .error .viewNotModifiable
  | .absent | .index => .error (.noSuchTable "stocks")

/-- Open a transaction. -/
def begin (connection : Connection) : Except SqlFault Connection :=
  match connection.saved with
  | some _ => .error .nestedTransaction
  | none => .ok { connection with saved := some connection.database }

/-- Close the open transaction and keep what it did. If it has written something, this can fail. -/
def commit (connection : Connection) : Except SqlFault Connection :=
  match connection.saved, connection.obstacle with
  | none, _ => .error .noTransaction
  | some _, none => .ok { connection with saved := none }
  | some before, some fault =>
    if connection.database = before then .ok { connection with saved := none } else .error fault

/-- Close the open transaction and undo what it did. -/
def rollback (connection : Connection) : Except SqlFault Connection :=
  match connection.saved with
  | none => .error .noTransaction
  | some database => .ok { connection with database := database, saved := none }

/-- Insert trades one after the other, up to the first that is refused. -/
def insertMany : Nat → Connection → Option SqlFault × Connection
  | 0, connection => (none, connection)
  | count + 1, connection =>
    match connection.insert with
    | .error fault => (some fault, connection)
    | .ok connection => insertMany count connection

/-- Make a table and an index of it. The table stays if only the index is refused. -/
def indexNew (connection : Connection) : Option SqlFault × Connection :=
  if connection.database.catalogue then (some (.alreadyExists "catalogue"), connection)
  else
    match connection.write { connection.database with catalogue := true } with
    | .error fault => (some fault, connection)
    | .ok connection =>
      match connection.define .index with
      | .error fault => (some fault, connection)
      | .ok connection => (none, connection)

/-- What a statement does that is done wholly or not at all. -/
def single (connection : Connection) : Statement → Except SqlFault Connection
  | .define definition => connection.define definition
  | .indexNew => connection.define .index
  | .insert _ => connection.insert
  | .deleteAll => connection.alter fun table => .ok (.table { table with rows := [] })
  | .dropTable => connection.alter fun _ => .ok .absent
  | .begin => connection.begin
  | .commit => connection.commit
  | .rollback => connection.rollback
  | .queryOnly on => .ok { connection with refusal := if on then some .readOnly else none }
  | .violate =>
    match connection.database.audit with
    | some _ => .error (.alreadyExists "bad")
    | none => connection.write { connection.database with audit := some true }
  | .repair =>
    match connection.database.audit with
    | none => .error (.noSuchTable "bad")
    | some _ => connection.write { connection.database with audit := some false }
  | .addTrigger added =>
    connection.alter fun table =>
      match table.trigger with
      | some _ => .error (.alreadyExists "trigger")
      | none => .ok (.table { table with trigger := some added })
  | .dropTrigger =>
    connection.alter fun table =>
      match table.trigger with
      | none => .error .noSuchTrigger
      | some _ => .ok (.table { table with trigger := none })

/-- Run a statement. A refused statement leaves the connection as it was, but of several
insertions those before the refused one stay, and so does a table that is made to be indexed. -/
def execute (connection : Connection) (statement : Statement) : Option SqlFault × Connection :=
  match statement with
  | .insert count => insertMany count connection
  | .indexNew => connection.indexNew
  | statement =>
    match connection.single statement with
    | .error fault => (some fault, connection)
    | .ok connection => (none, connection)

/-- All rows of `stocks`. -/
def rows (connection : Connection) : Except SqlFault (List Row) :=
  match connection.database.stocks with
  | .table table => .ok table.rows
  | .view => .ok [[.integer 1], [.integer 2]]
  | .absent | .index => .error (.noSuchTable "stocks")

/-- What a check of the whole database reports. -/
def integrityReport (connection : Connection) : String :=
  if connection.database.audit = some true then "CHECK constraint failed in bad" else "ok"

end Connection

end HostTree
