import HostTree.Text.Octets

/-!
Names of databases that are written as URIs: a host that must be this one, a path, and options
behind a question mark. What stands behind a number sign is left out. Octets may be written by their
numbers, behind a percent sign.
-/

namespace HostTree

/-- The parts of a URI. -/
structure Uri where
  path : Octets
  /-- The names and values of options, in their order. -/
  options : List (Octets × Octets)
deriving DecidableEq

namespace Uri

/-- What announces a URI. -/
def scheme : Octets := Octets.ofString "file:"

/-- The octet in front of the number of another one. -/
def percent : UInt8 := 0x25

/-- The octet in front of the options. -/
def question : UInt8 := 0x3F

/-- The octet between options. -/
def ampersand : UInt8 := 0x26

/-- The octet in front of what is left out. -/
def numberSign : UInt8 := 0x23

/-- The value of a hexadecimal digit, in either case. -/
def digit? (octet : UInt8) : Option Nat :=
  let n := octet.toNat
  if 0x30 ≤ n ∧ n ≤ 0x39 then some (n - 0x30)
  else if 0x41 ≤ n ∧ n ≤ 0x46 then some (n - 0x37)
  else if 0x61 ≤ n ∧ n ≤ 0x66 then some (n - 0x57)
  else none

/-- The octet with a number in two digits. -/
def octet? (high low : UInt8) : Option UInt8 :=
  match digit? high, digit? low with
  | some high, some low => some (UInt8.ofNat (high * 16 + low))
  | _, _ => none

/-- What a part of a URI stands for. A percent sign without two digits stands for itself, and the
octet with the number zero ends the part. -/
def decode : Octets → Octets
  | first :: high :: low :: rest =>
    match if first = percent then octet? high low else none with
    | some octet => if octet = Octets.nul then [] else octet :: decode rest
    | none => first :: decode (high :: low :: rest)
  | octets => octets

/-- An option. Without an equals sign its value is empty. -/
def option (octets : Octets) : Octets × Octets :=
  let (name, value) := Octets.cutOnce Octets.equals octets
  (decode name, decode (value.getD []))

/-- The parts of what stands behind the scheme and the host. Options without a name are passed
over. -/
def ofOctets (octets : Octets) : Uri :=
  let (path, options) := Octets.cutOnce question (octets.takeWhile (· ≠ numberSign))
  { path := decode path
    options :=
      ((Octets.cut ampersand (options.getD [])).map option).filter fun given => given.1 ≠ [] }

/-- The host that is named behind two slashes, and what stands behind it. -/
def host : Octets → Octets × Octets
  | first :: second :: rest =>
    if first = Octets.slash ∧ second = Octets.slash then
      (rest.takeWhile (· ≠ Octets.slash), rest.dropWhile (· ≠ Octets.slash))
    else ([], first :: second :: rest)
  | octets => ([], octets)

/-- The values of the options with a name. -/
def values (uri : Uri) (name : String) : List Octets :=
  (uri.options.filter fun given => given.1 = Octets.ofString name).map (·.2)

/-- The number at the start of octets, in hexadecimal behind `0x`, else in decimal digits. -/
def number (octets : Octets) : Nat :=
  let decimal := (octets.takeWhile fun octet => (digit? octet).any (· < 10)).foldl
    (fun n octet => n * 10 + (digit? octet).getD 0) 0
  match octets with
  | zero :: mark :: rest =>
    let digits := rest.takeWhile fun octet => (digit? octet).isSome
    if (zero = 0x30 ∧ (mark = 0x78 ∨ mark = 0x58)) ∧ !digits.isEmpty then
      digits.foldl (fun n octet => n * 16 + (digit? octet).getD 0) 0
    else decimal
  | _ => decimal

/-- Lower-case letters instead of upper-case ones. -/
def lowered (octets : Octets) : Octets :=
  octets.map fun octet => if 0x41 ≤ octet ∧ octet ≤ 0x5A then octet + 0x20 else octet

/-- Whether a value says yes, in a word or by a number that does not end in eight binary zeros.
Numbers of more than 31 binary digits say no. -/
def isYes (value : Octets) : Bool :=
  if (value.head?.bind digit?).any (· < 10) then
    number value < 0x80000000 && number value % 256 ≠ 0
  else ["on", "yes", "true"].any fun word => Octets.ofString word = lowered value

end Uri

end HostTree
