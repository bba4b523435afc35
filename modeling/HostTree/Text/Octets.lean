/-!
Octet sequences: raw file names, paths and written output. Names need not be text in any encoding,
so they are kept, compared and joined as octets; `HostTree.Text.Utf8` says how they are displayed.
-/

namespace HostTree

/-- A sequence of octets. Its order, the one of lists, compares the first octets that differ. -/
abbrev Octets := List UInt8

namespace Octets

/-- The octets that encode characters in UTF-8. -/
def ofChars (text : List Char) : Octets :=
  text.flatMap String.utf8EncodeChar

/-- The octets that encode a text in UTF-8. -/
def ofString (text : String) : Octets :=
  ofChars text.toList

/-- The octet that separates the components of a path. -/
def slash : UInt8 := 0x2F

/-- The octet of an equals sign, which separates a name from a value. -/
def equals : UInt8 := 0x3D

/-- The octet that no path may hold. -/
def nul : UInt8 := 0

/-- Cut octets at every occurrence of one. -/
def cut (separator : UInt8) : Octets → List Octets
  | [] => [[]]
  | octet :: rest =>
    if octet = separator then [] :: cut separator rest
    else
      match cut separator rest with
      | [] => [[octet]]
      | part :: others => (octet :: part) :: others

theorem cut_ne_nil (separator : UInt8) (octets : Octets) : cut separator octets ≠ [] := by
  cases octets with
  | nil => simp [cut]
  | cons octet rest =>
      rw [cut]
      split
      · simp
      · split <;> simp

/-- Octets without a separator are one part. -/
theorem cut_of_notMem {separator : UInt8} {octets : Octets} (hOctets : separator ∉ octets) :
    cut separator octets = [octets] := by
  induction octets with
  | nil => rfl
  | cons octet rest ih =>
      rw [List.mem_cons, not_or] at hOctets
      rw [cut, if_neg (Ne.symm hOctets.1), ih hOctets.2]

/-- A separator stands between the parts in front of it and those behind it. -/
theorem cut_append (separator : UInt8) (before behind : Octets) :
    cut separator (before ++ separator :: behind) =
      cut separator before ++ cut separator behind := by
  induction before with
  | nil => simp [cut]
  | cons octet rest ih =>
      rw [List.cons_append, cut, cut, ih]
      split
      · rfl
      · obtain ⟨part, others, hParts⟩ := List.exists_cons_of_ne_nil (cut_ne_nil separator rest)
        simp [hParts]

/-- What stands in front of the first occurrence of an octet, and what stands behind it, if it
occurs. -/
def cutOnce (separator : UInt8) (octets : Octets) : Octets × Option Octets :=
  (octets.takeWhile (· ≠ separator), (octets.dropWhile (· ≠ separator)).tail?)

/-- Octets without a separator are what stands in front of it. -/
theorem cutOnce_append {separator : UInt8} {before : Octets} (hBefore : separator ∉ before)
    (behind : Octets) :
    cutOnce separator (before ++ separator :: behind) = (before, some behind) := by
  have hOther : ∀ octet ∈ before, decide (octet ≠ separator) = true := by
    intro octet hOctet
    exact decide_eq_true fun hEq => hBefore (hEq ▸ hOctet)
  rw [cutOnce, List.dropWhile_append_of_pos hOther, List.takeWhile_append_of_pos hOther]
  simp

/-- Octets without a separator have nothing behind it. -/
theorem cutOnce_of_notMem {separator : UInt8} {octets : Octets} (hOctets : separator ∉ octets) :
    cutOnce separator octets = (octets, none) := by
  induction octets with
  | nil => rfl
  | cons octet rest ih =>
      rw [List.mem_cons, not_or] at hOctets
      simpa [cutOnce, Ne.symm hOctets.1] using ih hOctets.2

/-- Text side by side is encoded side by side. -/
theorem ofString_append (s t : String) : ofString (s ++ t) = ofString s ++ ofString t := by
  simp [ofString, ofChars]

@[simp]
theorem ofString_empty : ofString "" = [] := by
  simp [ofString, ofChars]

end Octets

end HostTree
