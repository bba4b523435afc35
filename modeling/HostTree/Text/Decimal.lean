/-!
Decimal numerals: numbers written with a least width, and numbers read with an optional sign.
-/

namespace HostTree

namespace Decimal

/-- A number with zeros in front, up to a width. -/
def padded (width n : Nat) : String :=
  let digits := Nat.toDigits 10 n
  String.ofList (List.replicate (width - digits.length) '0' ++ digits)

/-- The number that digits stand for, if they are digits and there is at least one. -/
def digits? (text : List Char) : Option Nat :=
  if text.isEmpty || !text.all Char.isDigit then none
  else some (text.foldl (fun n c => n * 10 + (c.toNat - '0'.toNat)) 0)

/-- The number that digits behind an optional plus sign stand for. -/
def natural? : List Char → Option Nat
  | '+' :: text => digits? text
  | text => digits? text

/-- The number that digits behind an optional sign stand for. -/
def integer? : List Char → Option Int
  | '-' :: text => (digits? text).map fun n => -(n : Int)
  | text => (natural? text).map Int.ofNat

end Decimal

end HostTree
