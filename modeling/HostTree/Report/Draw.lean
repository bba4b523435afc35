/-!
A number below a thousand, drawn without bias from random words of 32 bits. A word is multiplied by
a thousand; the high half of the product is the number, unless the low half shows that this number
would come up once more than others.
-/

namespace HostTree

namespace Draw

/-- The number of different results. -/
def bound : Nat := 1000

/-- The greatest low half of a product that is accepted. The same number of words leads to each
result below it. -/
def lastAccepted : Nat := bound * 0x400000 - 1

/-- The result that a word leads to, if it is accepted. -/
def ofWord? (word : UInt32) : Option Nat :=
  let product := word.toNat * bound
  if product % UInt32.size ≤ lastAccepted then some (product / UInt32.size) else none

/-- The result, and the number of words that were drawn for it. When the words are used up, zeros
follow, and a zero is accepted. -/
def run : List UInt32 → Nat × Nat
  | [] => (0, 1)
  | word :: rest =>
    match ofWord? word with
    | some result => (result, 1)
    | none =>
      let (result, drawn) := run rest
      (result, drawn + 1)

end Draw

end HostTree
