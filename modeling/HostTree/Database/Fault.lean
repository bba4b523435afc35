/-!
What a database engine refuses, with its result code and its words for both.
-/

namespace HostTree

/-- What an engine does to the files of a database. -/
inductive DiskOperation where
  | reading
  | writing
  /-- Asking for the properties of a file. -/
  | examining
  | locking
  | deleting
  /-- Sharing a file as memory. -/
  | sharing
deriving DecidableEq

/-- The options in the name of a database that only take certain words. -/
inductive WordOption where
  | accessMode
  | cacheMode
  | engine
deriving DecidableEq

/-- Why a statement or an opening failed. -/
inductive SqlFault where
  /-- The table has another number of columns than the five values of a trade. -/
  | columnCount (columns : Nat)
  | viewNotModifiable
  /-- The name `stocks` is taken by an index. -/
  | indexNamed
  /-- The name is taken by a table or a view. -/
  | alreadyExists (name : String)
  | noSuchTable (name : String)
  | noSuchTrigger
  /-- No table can have this number of columns. -/
  | badColumnCount
  | nestedTransaction
  | noTransaction
  | readOnly
  /-- The directory of the file takes no journal. -/
  | readOnlyDirectory
  | symbolTaken
  | priceTooHigh (limit : Int)
  /-- A trigger refused the row. -/
  | tradesRefused
  | notADatabase
  /-- The file with a name cannot be opened. -/
  | cannotOpen (name : String)
  /-- A file beside the one of the database cannot be opened. -/
  | cannotOpenBeside
  /-- An unfinished transaction cannot be undone without writing. -/
  | cannotUndo
  /-- Someone else holds the database. -/
  | locked
  | disk (operation : DiskOperation)
  /-- A word that an option does not take. -/
  | unknownWord (option : WordOption) (word : String)
  /-- An access mode that allows more than the one before it. -/
  | modeNotAllowed (word : String)
  /-- The name asks for the file on another host. -/
  | foreignHost (host : String)
deriving DecidableEq

/-- What an option is called when it is given a word that it does not take. -/
def WordOption.text : WordOption → String
  | .accessMode => "access mode"
  | .cacheMode => "cache mode"
  | .engine => "vfs"

namespace DiskOperation

/-- The result code for an operation that failed. -/
def code : DiskOperation → Nat
  | .reading => 266
  | .writing => 778
  | .examining => 1802
  | .deleting => 2570
  | .locking => 3850
  | .sharing => 4618

/-- What the result code means. -/
def meaning : DiskOperation → String
  | .reading => "Error reading from disk"
  | .writing => "Error writing to disk"
  | .examining => "Error invoking fstat to get file metadata"
  | .deleting => "I/O error within xDelete of a VFS object"
  | .locking => "I/O error in the advisory file locking layer"
  | .sharing =>
    "I/O error within the xShmMap method (trying to open a new shared-memory segment)"

end DiskOperation

namespace SqlFault

/-- What the engine says. -/
def message : SqlFault → String
  | .columnCount columns =>
    "table stocks has " ++ toString columns ++ " columns but 5 values were supplied"
  | .viewNotModifiable => "cannot modify stocks because it is a view"
  | .indexNamed => "there is already an index named stocks"
  | .alreadyExists name => "table " ++ name ++ " already exists"
  | .noSuchTable name => "no such table: " ++ name
  | .noSuchTrigger => "no such trigger"
  | .badColumnCount => "too many columns on stocks"
  | .nestedTransaction => "cannot start a transaction within a transaction"
  | .noTransaction => "no transaction is active"
  | .readOnly | .readOnlyDirectory | .cannotUndo => "attempt to write a readonly database"
  | .symbolTaken => "UNIQUE constraint failed: stocks.symbol"
  | .priceTooHigh limit => "CHECK constraint failed: price < " ++ toString limit
  | .tradesRefused => "no trades"
  | .notADatabase => "file is not a database"
  | .cannotOpen name => "unable to open database file: " ++ name
  | .cannotOpenBeside => "unable to open database file"
  | .locked => "database is locked"
  | .disk _ => "disk I/O error"
  | .unknownWord option word => "no such " ++ option.text ++ ": " ++ word
  | .modeNotAllowed word => "access mode not allowed: " ++ word
  | .foreignHost host => "invalid uri authority: " ++ host

/-- The engine's result code. -/
def code : SqlFault → Nat
  | .modeNotAllowed _ => 3
  | .locked => 5
  | .readOnly => 8
  | .cannotOpen _ | .cannotOpenBeside => 14
  | .notADatabase => 26
  | .priceTooHigh _ => 275
  | .cannotUndo => 776
  | .disk operation => operation.code
  | .readOnlyDirectory => 1544
  | .tradesRefused => 1811
  | .symbolTaken => 2067
  | _ => 1

/-- What the result code means. -/
def meaning : SqlFault → String
  | .readOnly => "Attempt to write a readonly database"
  | .readOnlyDirectory => "SQLITE_READONLY_DIRECTORY"
  | .cannotUndo => "Unable to roll back hot journal"
  | .modeNotAllowed _ => "Access permission denied"
  | .locked => "The database file is locked"
  | .disk operation => operation.meaning
  | .cannotOpen _ | .cannotOpenBeside => "Unable to open the database file"
  | .notADatabase => "File opened that is not a database file"
  | .priceTooHigh _ => "A CHECK constraint failed"
  | .tradesRefused => "A RAISE function within a trigger fired"
  | .symbolTaken => "A UNIQUE constraint failed"
  | _ => "SQL error or missing database"

/-- The result code in words. -/
def codeMessage (fault : SqlFault) : String :=
  "Error code " ++ toString fault.code ++ ": " ++ fault.meaning

end SqlFault

end HostTree
