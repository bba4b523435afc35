import HostTree.Database.Fault
import HostTree.Database.Uri
import HostTree.Path

/-!
Where a database is kept and what may be done with it, by its name. A plain name is the path of a
file, which is made if it is missing; a URI can ask for less.
-/

namespace HostTree

/-- What the name of a database allows. -/
inductive AccessMode where
  | read
  | write
  /-- To write, and to make the file if it is missing. -/
  | create
  /-- To keep the database in memory. -/
  | memory
deriving DecidableEq

/-- Whether a mode may be followed by another one. None may allow more than the one before it, but
to keep all in memory is always allowed. -/
def AccessMode.admits : AccessMode → AccessMode → Bool
  | _, .memory => true
  | .memory, _ => true
  | .create, _ => true
  | .write, next => next ≠ .create
  | .read, next => next = .read

/-- How those who use the file of a database keep out of each other's way. -/
inductive Locking where
  /-- By locks of the system. -/
  | system
  /-- By locks of the system that are never given back, so that nothing need be shared. -/
  | exclusive
  /-- By a directory beside the file. -/
  | directory
  | none
deriving DecidableEq

/-- What keeps a database. -/
inductive Keeper where
  | file (locking : Locking)
  | memory
deriving DecidableEq

/-- The keeper that does without locks. -/
def Keeper.unlocked : Keeper → Keeper
  | .file _ => .file .none
  | .memory => .memory

/-- Where a database is kept and what may be done with it. -/
structure Location where
  path : Path
  mode : AccessMode
  keeper : Keeper
  /-- Nobody changes the file, and nothing beside it is looked at. -/
  isFixed : Bool
  /-- The file whose permissions a new file gets. -/
  template : Option Path
deriving DecidableEq

namespace Location

/-- The words for modes. -/
def modeWords : List (String × AccessMode) :=
  [("ro", .read), ("rw", .write), ("rwc", .create), ("memory", .memory)]

/-- The words for the sharing of what has been read. Nothing depends on it here. -/
def cacheWords : List (String × Unit) :=
  [("shared", ()), ("private", ())]

/-- The words for keepers. -/
def keeperWords : List (String × Keeper) :=
  [("unix", .file .system), ("unix-excl", .file .exclusive), ("unix-dotfile", .file .directory),
    ("unix-none", .file .none), ("memdb", .memory)]

/-- What a word stands for. -/
def read (option : WordOption) (words : List (String × α)) (word : Octets) : Except SqlFault α :=
  match words.find? fun known => Octets.ofString known.1 = word with
  | some known => .ok known.2
  | none => .error (.unknownWord option (Utf8.lossy word))

/-- The location of a plain path. -/
def plain (path : Octets) : Location where
  path := ⟨path⟩
  mode := .create
  keeper := .file .system
  isFixed := false
  template := none

/-- Follow one option that takes certain words. The keeper is looked at later. -/
def follow (mode : AccessMode) (option : Octets × Octets) : Except SqlFault AccessMode :=
  if option.1 = Octets.ofString "cache" then
    (read .cacheMode cacheWords option.2).map fun _ => mode
  else if option.1 = Octets.ofString "mode" then
    match read .accessMode modeWords option.2 with
    | .error fault => .error fault
    | .ok next =>
      if mode.admits next then .ok next else .error (.modeNotAllowed (Utf8.lossy option.2))
  else .ok mode

/-- The keeper that the last option of its name asks for. -/
def keeperOf (uri : Uri) : Except SqlFault Keeper :=
  match (uri.values "vfs").getLast? with
  | none => .ok (.file .system)
  | some word => read .engine keeperWords word

/-- The location that a URI names. -/
def ofUri (uri : Uri) : Except SqlFault Location :=
  match uri.options.foldlM follow AccessMode.create with
  | .error fault => .error fault
  | .ok mode =>
    match keeperOf uri with
    | .error fault => .error fault
    | .ok keeper =>
      let isSet (name : String) := (uri.values name).head?.any Uri.isYes
      .ok
        { path := ⟨uri.path⟩
          mode := mode
          keeper := if isSet "nolock" then keeper.unlocked else keeper
          isFixed := isSet "immutable"
          template := (uri.values "modeof").head?.map Path.mk }

/-- The location that a name stands for. A URI may name no other host than this one. -/
def ofName (name : String) : Except SqlFault Location :=
  let octets := Octets.ofString name
  if octets.take Uri.scheme.length = Uri.scheme then
    let (host, rest) := Uri.host (octets.drop Uri.scheme.length)
    if host = [] ∨ host = Octets.ofString "localhost" then ofUri (Uri.ofOctets rest)
    else .error (.foreignHost (Utf8.lossy host))
  else .ok (plain octets)

/-- Whether the path names no file: it is empty, or the word for memory. -/
def isNameless (location : Location) : Bool :=
  location.path.octets = [] || location.path = .ofString ":memory:"

/-- The longest path of a database that is kept in memory under a name. -/
def memoryPathLimit : Nat := 1016

/-- Whether the database is kept in memory. -/
def isInMemory (location : Location) : Bool :=
  location.isNameless || location.mode = .memory || location.keeper = .memory

/-- Whether a database in memory is kept there under a name. -/
def isNamedInMemory (location : Location) : Bool :=
  !location.isNameless && location.mode ≠ .memory

/-- Why a database in memory cannot be written, if it cannot. -/
def memoryRefusal (location : Location) : Option SqlFault :=
  if location.mode = .read || (location.isNamedInMemory && location.isFixed) then some .readOnly
  else none

end Location

end HostTree
