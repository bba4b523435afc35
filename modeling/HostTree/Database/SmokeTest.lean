import HostTree.Database.Connection

/-!
The smoke test of a database: check it, make the table for trades, insert a trade in a transaction
of its own, and count the rows.
-/

namespace HostTree

/-- What a smoke test is doing. -/
inductive TestStep where
  | checking
  | creating
  | inserting
  | committing
  /-- Opening the transaction, or counting. -/
  | settling
deriving DecidableEq

/-- Why a smoke test failed. -/
inductive TestFailure where
  /-- The check reports something else than that all is well. -/
  | corrupt (report : String)
  | fault (step : TestStep) (fault : SqlFault)
deriving DecidableEq

namespace Connection

/-- Make the table for trades. Outside a transaction this is one by itself, which stays open if it
cannot be closed. -/
def createTable (connection : Connection) : Option SqlFault × Connection :=
  match connection.ensureTable, connection.saved with
  | .error fault, _ => (some fault, connection)
  | .ok created, some _ => (none, created)
  | .ok created, none =>
    let opened := { created with saved := some connection.database }
    match opened.commit with
    | .error fault => (some fault, opened)
    | .ok committed => (none, committed)

/-- Insert a trade in a transaction. If the trade is refused the transaction is undone; it stays
open if it cannot be closed. -/
def insertWithin (connection : Connection) : Except TestFailure Unit × Connection :=
  match connection.begin with
  | .error fault => (.error (.fault .settling fault), connection)
  | .ok opened =>
    match opened.insert with
    | .error fault =>
      (.error (.fault .inserting fault), opened.rollback.toOption.getD opened)
    | .ok inserted =>
      match inserted.commit with
      | .error fault => (.error (.fault .committing fault), inserted)
      | .ok committed => (.ok (), committed)

/-- Run the smoke test. It answers the number of rows. -/
def smokeTest (connection : Connection) : Except TestFailure Nat × Connection :=
  if connection.integrityReport ≠ "ok" then
    (.error (.corrupt connection.integrityReport), connection)
  else
    match connection.createTable with
    | (some fault, connection) => (.error (.fault .creating fault), connection)
    | (none, connection) =>
      match connection.insertWithin with
      | (.error failure, connection) => (.error failure, connection)
      | (.ok (), connection) =>
        match connection.rows with
        | .error fault => (.error (.fault .settling fault), connection)
        | .ok rows => (.ok rows.length, connection)

end Connection

end HostTree
