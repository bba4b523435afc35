import HostTree.FileSystem.Access

/-!
The marker that tells a first run from later ones: a file that the first run makes and no run
removes.
-/

namespace HostTree

/-- What a marker says about a run. -/
inductive MarkerState where
  /-- There was no marker; there is one now. -/
  | first
  /-- The marker was there. -/
  | second
deriving DecidableEq

namespace FileSystem

/-- Look for a marker, and make it if there is none. -/
def touchMarker (fs : FileSystem) (marker : Path) : Except IoError MarkerState × FileSystem :=
  match fs.exists? marker with
  | .error error => (.error error, fs)
  | .ok true => (.ok .second, fs)
  | .ok false =>
    match fs.makeFile marker with
    | .error error => (.error error, fs)
    | .ok made => (.ok .first, made)

end FileSystem

end HostTree
