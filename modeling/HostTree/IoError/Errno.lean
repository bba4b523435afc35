import HostTree.IoError.Kind

/-!
Error numbers of the system, with the kinds they fall into and the system's words for them.
-/

namespace HostTree

/-- An error number of the system. -/
structure Errno where
  number : Int
deriving DecidableEq

namespace Errno

/-- The system reports: no such file or directory. -/
def noEntry : Errno := ⟨2⟩

/-- The system reports: permission denied. -/
def accessDenied : Errno := ⟨13⟩

/-- The system reports: device or resource busy. -/
def busy : Errno := ⟨16⟩

/-- The system reports: file exists. -/
def fileExists : Errno := ⟨17⟩

/-- The system reports: not a directory. -/
def notDirectory : Errno := ⟨20⟩

/-- The system reports: is a directory. -/
def isDirectory : Errno := ⟨21⟩

/-- The system reports: invalid argument. -/
def invalidArgument : Errno := ⟨22⟩

/-- The system reports: file name too long. -/
def nameTooLong : Errno := ⟨36⟩

/-- The system reports: directory not empty. -/
def notEmpty : Errno := ⟨39⟩

/-- The system reports: too many levels of symbolic links. -/
def tooManyLinks : Errno := ⟨40⟩

/-- The numbers that fall into a kind of their own. -/
def kinds : List (Nat × IoErrorKind) := [
  (1, .permissionDenied), (2, .notFound), (4, .interrupted), (7, .argumentsTooLong),
  (11, .wouldBlock), (12, .outOfMemory), (13, .permissionDenied), (16, .resourceBusy),
  (17, .alreadyExists), (18, .crossesDevices), (20, .notADirectory), (21, .isADirectory),
  (22, .invalidInput), (26, .executableBusy), (27, .fileTooLarge), (28, .storageFull),
  (29, .notSeekable), (30, .readOnlyFilesystem), (31, .tooManyLinks), (32, .brokenPipe),
  (35, .deadlock), (36, .invalidFilename), (38, .unsupported), (39, .directoryNotEmpty),
  (40, .filesystemLoop), (95, .unsupported), (98, .addressInUse), (99, .addressNotAvailable),
  (100, .networkDown), (101, .networkUnreachable), (103, .connectionAborted),
  (104, .connectionReset), (107, .notConnected), (110, .timedOut), (111, .connectionRefused),
  (113, .hostUnreachable), (115, .inProgress), (116, .staleHandle), (122, .quotaExceeded)]

/-- The kind of the errors with a number. -/
def kind (errno : Errno) : IoErrorKind :=
  ((kinds.find? fun entry => (entry.1 : Int) = errno.number).map (·.2)).getD .uncategorized

/-- The system's words for the numbers from zero on. Two of them are not in use. -/
def wordings : List (Option String) := [
  some "Success",
  some "Operation not permitted",
  some "No such file or directory",
  some "No such process",
  some "Interrupted system call",
  some "Input/output error",
  some "No such device or address",
  some "Argument list too long",
  some "Exec format error",
  some "Bad file descriptor",
  some "No child processes",
  some "Resource temporarily unavailable",
  some "Cannot allocate memory",
  some "Permission denied",
  some "Bad address",
  some "Block device required",
  some "Device or resource busy",
  some "File exists",
  some "Invalid cross-device link",
  some "No such device",
  some "Not a directory",
  some "Is a directory",
  some "Invalid argument",
  some "Too many open files in system",
  some "Too many open files",
  some "Inappropriate ioctl for device",
  some "Text file busy",
  some "File too large",
  some "No space left on device",
  some "Illegal seek",
  some "Read-only file system",
  some "Too many links",
  some "Broken pipe",
  some "Numerical argument out of domain",
  some "Numerical result out of range",
  some "Resource deadlock avoided",
  some "File name too long",
  some "No locks available",
  some "Function not implemented",
  some "Directory not empty",
  some "Too many levels of symbolic links",
  none,
  some "No message of desired type",
  some "Identifier removed",
  some "Channel number out of range",
  some "Level 2 not synchronized",
  some "Level 3 halted",
  some "Level 3 reset",
  some "Link number out of range",
  some "Protocol driver not attached",
  some "No CSI structure available",
  some "Level 2 halted",
  some "Invalid exchange",
  some "Invalid request descriptor",
  some "Exchange full",
  some "No anode",
  some "Invalid request code",
  some "Invalid slot",
  none,
  some "Bad font file format",
  some "Device not a stream",
  some "No data available",
  some "Timer expired",
  some "Out of streams resources",
  some "Machine is not on the network",
  some "Package not installed",
  some "Object is remote",
  some "Link has been severed",
  some "Advertise error",
  some "Srmount error",
  some "Communication error on send",
  some "Protocol error",
  some "Multihop attempted",
  some "RFS specific error",
  some "Bad message",
  some "Value too large for defined data type",
  some "Name not unique on network",
  some "File descriptor in bad state",
  some "Remote address changed",
  some "Can not access a needed shared library",
  some "Accessing a corrupted shared library",
  some ".lib section in a.out corrupted",
  some "Attempting to link in too many shared libraries",
  some "Cannot exec a shared library directly",
  some "Invalid or incomplete multibyte or wide character",
  some "Interrupted system call should be restarted",
  some "Streams pipe error",
  some "Too many users",
  some "Socket operation on non-socket",
  some "Destination address required",
  some "Message too long",
  some "Protocol wrong type for socket",
  some "Protocol not available",
  some "Protocol not supported",
  some "Socket type not supported",
  some "Operation not supported",
  some "Protocol family not supported",
  some "Address family not supported by protocol",
  some "Address already in use",
  some "Cannot assign requested address",
  some "Network is down",
  some "Network is unreachable",
  some "Network dropped connection on reset",
  some "Software caused connection abort",
  some "Connection reset by peer",
  some "No buffer space available",
  some "Transport endpoint is already connected",
  some "Transport endpoint is not connected",
  some "Cannot send after transport endpoint shutdown",
  some "Too many references: cannot splice",
  some "Connection timed out",
  some "Connection refused",
  some "Host is down",
  some "No route to host",
  some "Operation already in progress",
  some "Operation now in progress",
  some "Stale file handle",
  some "Structure needs cleaning",
  some "Not a XENIX named type file",
  some "No XENIX semaphores available",
  some "Is a named type file",
  some "Remote I/O error",
  some "Disk quota exceeded",
  some "No medium found",
  some "Wrong medium type",
  some "Operation canceled",
  some "Required key not available",
  some "Key has expired",
  some "Key has been revoked",
  some "Key was rejected by service",
  some "Owner died",
  some "State not recoverable",
  some "Operation not possible due to RF-kill",
  some "Memory page has hardware error"]

/-- The words for a number. A number that is not in use is told as it is. -/
def words (errno : Errno) : String :=
  let known :=
    if errno.number < 0 then none else (wordings[errno.number.toNat]?).join
  known.getD ("Unknown error " ++ toString errno.number)

/-- What an error with a number says. -/
def message (errno : Errno) : String :=
  errno.words ++ " (os error " ++ toString errno.number ++ ")"

end Errno

end HostTree
