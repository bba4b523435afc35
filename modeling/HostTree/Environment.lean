import HostTree.Text.Octets

/-!
Variables of the environment on their way into a program. They are handed over as entries, a name,
an equals sign and a value each, with one entry for a name, in the order of the names. The program
takes the entries apart again; a name that holds an equals sign does not survive this.
-/

namespace HostTree

/-- A variable of the environment. -/
structure Variable where
  name : Octets
  value : Octets
deriving DecidableEq

namespace Variable

/-- The entry of a variable. -/
def entry (given : Variable) : Octets :=
  given.name ++ Octets.equals :: given.value

/-- The variable of an entry. Its name is not empty and ends at the first equals sign behind its
first octet; an entry without such a sign is of no variable. -/
def ofEntry? : Octets → Option Variable
  | [] => none
  | first :: rest =>
    match Octets.cutOnce Octets.equals rest with
    | (_, none) => none
    | (name, some value) => some ⟨first :: name, value⟩

/-- A variable comes back from its entry if there is an octet in its name and no equals sign after
the first one. -/
theorem ofEntry?_entry {given : Variable} {first : UInt8} {rest : Octets}
    (hName : given.name = first :: rest) (hEquals : Octets.equals ∉ rest) :
    ofEntry? given.entry = some given := by
  cases given with
  | mk name value =>
    subst hName
    simp [entry, ofEntry?, Octets.cutOnce_append hEquals]

end Variable

namespace Environment

/-- Put a variable in its place, instead of one of its name. -/
def insert (given : Variable) : List Variable → List Variable
  | [] => [given]
  | other :: rest =>
    if given.name = other.name then given :: rest
    else if given.name < other.name then given :: other :: rest
    else other :: insert given rest

/-- The variables that a program finds when these are given to it. -/
def handedOver (environment : List Variable) : List Variable :=
  (environment.foldl (fun block given => insert given block) []).filterMap
    fun given => Variable.ofEntry? given.entry

/-- The value that a program finds when it asks for a name: the first one. -/
def value? (environment : List Variable) (name : String) : Option Octets :=
  (environment.find? fun found => found.name = Octets.ofString name).map (·.value)

end Environment

end HostTree
