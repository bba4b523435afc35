import HostTree.Proofs.Text.Utf8
import HostTree.Text.Quoted

/-!
Quoted lists read back by a machine that takes one character at a time and knows nothing of which
characters are escaped: outside quotes it wants brackets, commas and blanks in their places, and
inside quotes it takes every character for itself, but for quotes and backslashes. `read?_list` says
that it finds the texts of a written list.
-/

namespace HostTree

namespace Quoted

/-- The character that a letter behind a backslash stands for. -/
def letter? : Char → Option Char
  | '0' => some '\x00'
  | 't' => some '\t'
  | 'r' => some '\r'
  | 'n' => some '\n'
  | '"' => some '"'
  | '\\' => some '\\'
  | _ => none

/-- The number that a hexadecimal digit stands for. -/
def digit? (c : Char) : Option Nat :=
  if '0' ≤ c ∧ c ≤ '9' then some (c.toNat - '0'.toNat)
  else if 'a' ≤ c ∧ c ≤ 'f' then some (c.toNat - 'a'.toNat + 10)
  else none

/-- How far the reading of a list has come. What has been read of a text stands in reverse. -/
inductive Mode where
  /-- In front of the bracket that opens the list. -/
  | outside
  /-- Directly behind that bracket. -/
  | opened
  | text (read : List Char)
  /-- Behind a backslash. -/
  | escaped (read : List Char)
  /-- Behind the letter that announces a code point. -/
  | announced (read : List Char)
  /-- Behind the digits of a code point, if there have been some. -/
  | coded (read : List Char) (code : Option Nat)
  /-- Behind the quote that ends a text. -/
  | closed
  | comma
  | blank
  /-- Behind the bracket that ends the list. -/
  | ended
deriving DecidableEq

/-- Read one character: the text that it ends, and how far the reading is after it. -/
def step? : Mode → Char → Option (Option (List Char) × Mode)
  | .outside, c => if c = '[' then some (none, .opened) else none
  | .opened, c =>
    if c = ']' then some (none, .ended) else if c = '"' then some (none, .text []) else none
  | .text read, c =>
    if c = '"' then some (some read.reverse, .closed)
    else if c = '\\' then some (none, .escaped read)
    else some (none, .text (c :: read))
  | .escaped read, c =>
    if c = 'u' then some (none, .announced read)
    else (letter? c).map fun meant => (none, .text (meant :: read))
  | .announced read, c => if c = '\x7b' then some (none, .coded read none) else none
  | .coded read code, c =>
    if c = '\x7d' then
      match code with
      | none => none
      | some n => if n.isValidChar then some (none, .text (Char.ofNat n :: read)) else none
    else (digit? c).map fun digit => (none, .coded read (some (code.getD 0 * 16 + digit)))
  | .closed, c =>
    if c = ']' then some (none, .ended) else if c = ',' then some (none, .comma) else none
  | .comma, c => if c = ' ' then some (none, .blank) else none
  | .blank, c => if c = '"' then some (none, .text []) else none
  | .ended, _ => none

/-- Read characters to the end, which must be that of the list. -/
def scan? (mode : Mode) : List Char → Option (List (List Char))
  | [] => if mode = .ended then some [] else none
  | c :: rest =>
    match step? mode c with
    | none => none
    | some (text, mode) => (scan? mode rest).map (text.toList ++ ·)

/-- The texts of a list. -/
def read? (written : List Char) : Option (List (List Char)) :=
  scan? .outside written

theorem scan?_of_step {mode next : Mode} {c : Char} (hStep : step? mode c = some (none, next))
    (rest : List Char) : scan? mode (c :: rest) = scan? next rest := by
  rw [scan?, hStep]
  simp

theorem digit?_digitChar {n : Nat} (hDigit : n < 16) : digit? n.digitChar = some n := by
  revert n
  decide

theorem digitChar_ne_brace {n : Nat} (hDigit : n < 16) : n.digitChar ≠ '\x7d' := by
  revert n
  decide

/-- One more digit of a code point. -/
theorem scan?_digit (read : List Char) (code : Option Nat) {n : Nat} (hDigit : n < 16)
    (rest : List Char) :
    scan? (.coded read code) (n.digitChar :: rest) =
      scan? (.coded read (some (code.getD 0 * 16 + n))) rest := by
  refine scan?_of_step ?_ rest
  simp [step?, digitChar_ne_brace hDigit, digit?_digitChar hDigit]

/-- The digits of a number stand for it. -/
theorem scan?_hexadecimal (read : List Char) (n : Nat) (rest : List Char) :
    scan? (.coded read none) (hexadecimal n ++ rest) = scan? (.coded read (some n)) rest := by
  induction n using Nat.strongRecOn generalizing rest with
  | ind n ih =>
      by_cases hSmall : n < 16
      · rw [hexadecimal, Nat.toDigits_of_lt_base hSmall, List.singleton_append,
          scan?_digit read none hSmall]
        simp
      · have hDigits : hexadecimal n = hexadecimal (n / 16) ++ [(n % 16).digitChar] :=
          Nat.toDigits_of_base_le (by decide) (by omega)
        have hValue : n / 16 * 16 + n % 16 = n := by omega
        rw [hDigits, List.append_assoc, ih (n / 16) (by omega), List.singleton_append,
          scan?_digit read _ (Nat.mod_lt n (by decide)), Option.getD_some, hValue]

/-- The forms in which a character is written: with a letter, by its code point, as it is. -/
inductive Escapes (c : Char) : List Char → Prop where
  | letter {letter : Char} (hOther : letter ≠ 'u') (hMeant : letter? letter = some c) :
      Escapes c ['\\', letter]
  | code : Escapes c (['\\', 'u', '\x7b'] ++ hexadecimal c.toNat ++ ['\x7d'])
  | plain (hQuote : c ≠ '"') (hBackslash : c ≠ '\\') (hNewline : c ≠ '\n') : Escapes c [c]

theorem escapes_escape (c : Char) : Escapes c (escape c) := by
  unfold escape
  -- The characters that have a letter of their own.
  iterate 6
    split
    · next hChar =>
        subst hChar
        exact .letter (by decide) rfl
  split
  · exact .code
  · next hNewline hQuote hBackslash _ => exact .plain hQuote hBackslash hNewline

/-- A written character is read as itself. -/
theorem scan?_escape (read : List Char) (c : Char) (rest : List Char) :
    scan? (.text read) (escape c ++ rest) = scan? (.text (c :: read)) rest := by
  have hBegin : step? (.text read) '\\' = some (none, .escaped read) := rfl
  have hEscapes := escapes_escape c
  generalize escape c = written at hEscapes
  cases hEscapes with
  | @letter letter hOther hMeant =>
      have hLetter : step? (.escaped read) letter = some (none, .text (c :: read)) := by
        simp [step?, hOther, hMeant]
      exact (scan?_of_step hBegin _).trans (scan?_of_step hLetter rest)
  | code =>
      have hUnicode : step? (.escaped read) 'u' = some (none, .announced read) := rfl
      have hBrace : step? (.announced read) '\x7b' = some (none, .coded read none) := rfl
      have hEnd : step? (.coded read (some c.toNat)) '\x7d' = some (none, .text (c :: read)) := by
        have hValid : c.toNat.isValidChar := c.valid
        simp [step?, hValid, Char.ofNat_toNat]
      calc
        _ = scan? (.text read)
            ('\\' :: 'u' :: '\x7b' :: (hexadecimal c.toNat ++ '\x7d' :: rest)) := by simp
        _ = scan? (.coded read none) (hexadecimal c.toNat ++ '\x7d' :: rest) := by
          rw [scan?_of_step hBegin, scan?_of_step hUnicode, scan?_of_step hBrace]
        _ = scan? (.coded read (some c.toNat)) ('\x7d' :: rest) := scan?_hexadecimal read _ _
        _ = _ := scan?_of_step hEnd rest
  | plain hQuote hBackslash _ =>
      refine scan?_of_step ?_ rest
      simp [step?, hQuote, hBackslash]

theorem scan?_flatMap_escape (read text rest : List Char) :
    scan? (.text read) (text.flatMap escape ++ rest) =
      scan? (.text (text.reverse ++ read)) rest := by
  induction text generalizing read with
  | nil => rfl
  | cons c text ih =>
      rw [List.flatMap_cons, List.append_assoc, scan?_escape, ih]
      simp

/-- A quoted text is read where one may begin. -/
theorem scan?_quote {mode : Mode} (hBegin : step? mode '"' = some (none, .text []))
    (text rest : List Char) :
    scan? mode (quote text ++ rest) = (scan? .closed rest).map (text :: ·) := by
  have hEnd : step? (.text (text.reverse ++ [])) '"' = some (some text, .closed) := by
    simp [step?]
  calc
    _ = scan? mode ('"' :: (text.flatMap escape ++ '"' :: rest)) := by simp [quote]
    _ = scan? (.text (text.reverse ++ [])) ('"' :: rest) := by
      rw [scan?_of_step hBegin, scan?_flatMap_escape]
    _ = _ := by rw [scan?, hEnd]; rfl

theorem scan?_others (texts : List (List Char)) :
    scan? .closed (others texts ++ [']']) = some texts := by
  induction texts with
  | nil => rfl
  | cons text texts ih =>
      have hComma : step? .closed ',' = some (none, .comma) := rfl
      have hBlank : step? .comma ' ' = some (none, .blank) := rfl
      simp only [others, List.cons_append, List.append_assoc]
      rw [scan?_of_step hComma, scan?_of_step hBlank, scan?_quote rfl, ih]
      rfl

/-- A written list is read back. -/
theorem read?_list (texts : List (List Char)) : read? (list texts) = some texts := by
  cases texts with
  | nil => rfl
  | cons text texts =>
      have hOpen : step? .outside '[' = some (none, .opened) := rfl
      simp only [read?, list, List.cons_append, List.append_assoc]
      rw [scan?_of_step hOpen, scan?_quote rfl, scan?_others]
      rfl

theorem newline_notMem_hexadecimal (n : Nat) : '\n' ∉ hexadecimal n := by
  intro hMem
  have hDigit : ∀ n < 16, Nat.digitChar n ≠ '\n' := by decide
  induction n using Nat.strongRecOn with
  | ind n ih =>
      by_cases hSmall : n < 16
      · rw [hexadecimal, Nat.toDigits_of_lt_base hSmall, List.mem_singleton] at hMem
        exact hDigit n hSmall hMem.symm
      · rw [hexadecimal, Nat.toDigits_of_base_le (by decide) (by omega), List.mem_append,
          List.mem_singleton] at hMem
        rcases hMem with hMem | hMem
        · exact ih (n / 16) (by omega) hMem
        · exact hDigit (n % 16) (Nat.mod_lt n (by decide)) hMem.symm

/-- No form of a character is a newline, not even the newline's own. -/
theorem newline_notMem_escape (c : Char) : '\n' ∉ escape c := by
  have hEscapes := escapes_escape c
  generalize escape c = written at hEscapes
  cases hEscapes with
  | @letter letter hOther hMeant =>
      have hLetter : letter ≠ '\n' := by
        rintro rfl
        cases hMeant
      simp [hLetter.symm]
  | code => simp [newline_notMem_hexadecimal]
  | plain _ _ hNewline => simpa using hNewline.symm

theorem newline_notMem_quote (text : List Char) : '\n' ∉ quote text := by
  simp [quote, newline_notMem_escape]

theorem newline_notMem_others (texts : List (List Char)) : '\n' ∉ others texts := by
  induction texts with
  | nil => simp [others]
  | cons text texts ih => simp [others, newline_notMem_quote, ih]

theorem newline_notMem_list (texts : List (List Char)) : '\n' ∉ list texts := by
  cases texts with
  | nil => simp [list]
  | cons text texts => simp [list, newline_notMem_quote, newline_notMem_others]

/-- The texts of a list whose octets are given. -/
def decode? (octets : Octets) : Option (List String) :=
  (Utf8.decode? octets).bind fun written => (read? written.toList).map (·.map String.ofList)

theorem decode?_list (texts : List String) :
    decode? (Octets.ofChars (list (texts.map String.toList))) = some texts := by
  have hText : Utf8.decode? (Octets.ofChars (list (texts.map String.toList))) =
      some (String.ofList (list (texts.map String.toList))) := by
    rw [← Utf8.decode?_ofString, Octets.ofString, String.toList_ofList]
  rw [decode?, hText, Option.bind_some, String.toList_ofList, read?_list]
  simp [Function.comp_def]

end Quoted

end HostTree
