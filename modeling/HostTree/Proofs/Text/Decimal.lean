import HostTree.Text.Decimal

/-!
Decimal numerals read back: the digits of a number stand for it, also behind the sign of a negative
one.
-/

namespace HostTree

namespace Decimal

theorem isDigit_of_mem_toDigits {n : Nat} {c : Char} (hMem : c ∈ Nat.toDigits 10 n) :
    c.isDigit = true :=
  Nat.isDigit_of_mem_toDigits (by decide) (by decide) hMem

theorem digits?_toDigits (n : Nat) : digits? (Nat.toDigits 10 n) = some n := by
  have hDigits : (Nat.toDigits 10 n).all Char.isDigit = true :=
    List.all_eq_true.2 fun _ => isDigit_of_mem_toDigits
  have hNonempty : (Nat.toDigits 10 n).isEmpty = false := by simp [Nat.toDigits_ne_nil]
  have hValue : (Nat.toDigits 10 n).foldl (fun n c => n * 10 + (c.toNat - '0'.toNat)) 0 = n := by
    have hRead : Nat.ofDigitChars 10 (Nat.toDigits 10 n) 0 = n := Nat.ofDigitChars_ten_toDigits
    simp only [Nat.ofDigitChars, Nat.mul_comm 10] at hRead
    exact hRead
  rw [digits?, hDigits, hNonempty, hValue]
  rfl

/-- Zeros in front of digits change nothing. -/
theorem digits?_zeros_append (zeros n : Nat) :
    digits? (List.replicate zeros '0' ++ Nat.toDigits 10 n) = some n := by
  have hValue : (List.replicate zeros '0').foldl
      (fun n c => n * 10 + (c.toNat - '0'.toNat)) 0 = 0 := by
    induction zeros with
    | zero => rfl
    | succ zeros ih => exact ih
  have hZeros : (List.replicate zeros '0').all Char.isDigit = true := by
    rw [List.all_replicate]
    split <;> rfl
  rw [← digits?_toDigits n, digits?, digits?, List.all_append, hZeros, List.foldl_append, hValue]
  simp [Nat.toDigits_ne_nil]

/-- A number with zeros in front is read back. -/
theorem digits?_padded (width n : Nat) : digits? (padded width n).toList = some n := by
  rw [padded, String.toList_ofList, digits?_zeros_append]

/-- It has the width, if its digits leave room for zeros. -/
theorem length_padded {width n : Nat} (hDigits : (Nat.toDigits 10 n).length ≤ width) :
    (padded width n).toList.length = width := by
  rw [padded, String.toList_ofList, List.length_append, List.length_replicate]
  omega

/-- The digits of a number have no sign in front of them. -/
theorem toDigits_eq_cons {n : Nat} {c : Char} {rest : List Char}
    (hDigits : Nat.toDigits 10 n = c :: rest) : c ≠ '+' ∧ c ≠ '-' := by
  have hDigit : c.isDigit = true := isDigit_of_mem_toDigits (hDigits ▸ List.mem_cons_self)
  constructor
  · rintro rfl
    exact absurd hDigit (by decide)
  · rintro rfl
    exact absurd hDigit (by decide)

theorem natural?_toDigits (n : Nat) : natural? (Nat.toDigits 10 n) = some n := by
  unfold natural?
  split
  · next hPlus => exact absurd rfl (toDigits_eq_cons hPlus).1
  · exact digits?_toDigits n

/-- A number is read back from its numeral. -/
theorem natural?_toString (n : Nat) : natural? (toString n).toList = some n := by
  rw [Nat.toString_eq_ofList_toDigits, String.toList_ofList, natural?_toDigits]

/-- A number with a sign is read back from its numeral. -/
theorem integer?_toString (i : Int) : integer? (toString i).toList = some i := by
  cases i with
  | ofNat n =>
      have hText : toString (Int.ofNat n) = toString n := rfl
      rw [hText, Nat.toString_eq_ofList_toDigits, String.toList_ofList]
      unfold integer?
      split
      · next hMinus => exact absurd rfl (toDigits_eq_cons hMinus).2
      · rw [natural?_toDigits]
        rfl
  | negSucc n =>
      have hText : toString (Int.negSucc n) = "-" ++ toString (n + 1) := rfl
      have hList : (toString (Int.negSucc n)).toList = '-' :: Nat.toDigits 10 (n + 1) := by
        simp [hText]
      rw [hList, integer?, digits?_toDigits]
      rfl

end Decimal

end HostTree
