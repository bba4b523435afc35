import HostTree.IoError.Errno

/-!
Errors of input and output. An error is a number that the system reported, a bare kind, or a kind
with a message of its own; its kind decides what becomes of it, its message is what people read.
-/

namespace HostTree

/-- An error of input or output. -/
inductive IoError where
  /-- The system reported a number. -/
  | system (errno : Errno)
  /-- Only the kind is known. -/
  | bare (kind : IoErrorKind)
  /-- The kind comes with a message of its own. -/
  | custom (kind : IoErrorKind) (message : String)
deriving DecidableEq

namespace IoError

/-- The error of an output that is full. -/
def sinkFull : IoError :=
  .custom .other "sink full"

/-- The kind of an error. -/
def kind : IoError → IoErrorKind
  | .system errno => errno.kind
  | .bare kind => kind
  | .custom kind _ => kind

/-- What an error says. -/
def message : IoError → String
  | .system errno => errno.message
  | .bare kind => kind.message
  | .custom _ message => message

end IoError

end HostTree
