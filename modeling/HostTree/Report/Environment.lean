import HostTree.Environment
import HostTree.Text.Utf8

/-!
Environment variables as a report lists them: one line for each name, in the order of the names'
octets, with the value that was given last.
-/

namespace HostTree

namespace Environment

/-- Put a displayed value under a displayed name, in the place of one that is there. -/
def put (name value : String) : List (String × String) → List (String × String)
  | [] => [(name, value)]
  | (other, kept) :: rest =>
    if name = other then (name, value) :: rest
    else if Octets.ofString name < Octets.ofString other then
      (name, value) :: (other, kept) :: rest
    else (other, kept) :: put name value rest

/-- The displayed names and values in the order of the names. Names that display alike are one. -/
def sorted (environment : List Variable) : List (String × String) :=
  environment.foldl (fun listed given =>
    put (Utf8.lossy given.name) (Utf8.lossy given.value) listed) []

/-- The line of a variable. -/
def line (listed : String × String) : String :=
  listed.1 ++ ": " ++ listed.2 ++ "\n"

/-- The lines of all variables. -/
def text (environment : List Variable) : String :=
  String.join ((sorted environment).map line)

end Environment

end HostTree
