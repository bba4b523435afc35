import HostTree.Proofs.Text.Utf8

/-!
Texts cut into lines. Lines that hold no newline are found again where they are written one after
another, each with a newline behind it.
-/

namespace HostTree

namespace Octets

/-- The octet that ends a line. -/
def newline : UInt8 := 0x0A

/-- The lines of a text, if it ends each of them. -/
def lines? (text : Octets) : Option (List Octets) :=
  if (cut newline text).getLast? = some [] then some (cut newline text).dropLast else none

/-- Lines one after another, each of them ended. -/
def ofLines (lines : List Octets) : Octets :=
  lines.flatMap fun line => line ++ [newline]

theorem cut_ofLines {lines : List Octets} (hLines : ∀ line ∈ lines, newline ∉ line) :
    cut newline (ofLines lines) = lines ++ [[]] := by
  induction lines with
  | nil => rfl
  | cons line lines ih =>
      rw [List.forall_mem_cons] at hLines
      have hText : ofLines (line :: lines) = line ++ newline :: ofLines lines := by
        simp [ofLines]
      rw [hText, cut_append, cut_of_notMem hLines.1, ih hLines.2]
      rfl

theorem lines?_ofLines {lines : List Octets} (hLines : ∀ line ∈ lines, newline ∉ line) :
    lines? (ofLines lines) = some lines := by
  simp [lines?, cut_ofLines hLines]

/-- The newlines of a text are the ends of its lines. -/
theorem count_newline_ofLines {lines : List Octets} (hLines : ∀ line ∈ lines, newline ∉ line) :
    (ofLines lines).count newline = lines.length := by
  induction lines with
  | nil => rfl
  | cons line lines ih =>
      rw [List.forall_mem_cons] at hLines
      have hText : ofLines (line :: lines) = line ++ newline :: ofLines lines := by
        simp [ofLines]
      rw [hText, List.count_append, List.count_eq_zero_of_not_mem hLines.1, List.count_cons_self,
        ih hLines.2, Nat.zero_add, List.length_cons]

/-- What is read back line by line is read back as a whole. -/
theorem mapM_map_eq_some {α β γ : Type} {write : α → β} {read : β → Option γ} {told : α → γ}
    {items : List α} (hItems : ∀ item ∈ items, read (write item) = some (told item)) :
    (items.map write).mapM read = some (items.map told) := by
  induction items with
  | nil => rfl
  | cons item items ih =>
      rw [List.forall_mem_cons] at hItems
      rw [List.map_cons, List.mapM_cons, hItems.1, ih hItems.2]
      rfl

theorem newline_notMem_ofChars {text : List Char} (hText : '\n' ∉ text) :
    newline ∉ ofChars text := by
  intro hMem
  have hAscii : newline.toNat < 0x80 := by decide
  exact hText (Utf8.mem_of_mem_ofChars hAscii hMem)

/-- A line of text, with its end. -/
theorem ofString_line (text : String) :
    ofString (text ++ "\n") = ofString text ++ [newline] := by
  rw [ofString_append]
  rfl

end Octets

end HostTree
