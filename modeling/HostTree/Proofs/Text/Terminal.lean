import HostTree.Proofs.Text.Utf8
import HostTree.Text.Escape

/-!
A terminal that takes text octet by octet. An escape, a bracket, digits and the letter `m` are not
shown: they switch the way in which the octets behind them are shown, or switch everything off if
they hold the number zero. What is begun like this and goes on otherwise is shown as it stands.
-/

namespace HostTree

namespace Octets

/-- The octet that begins the sequences a terminal understands. -/
def escape : UInt8 := 0x1B

/-- The octet behind it, an opening bracket. -/
def bracket : UInt8 := 0x5B

/-- The octet that ends the sequences for ways of showing text, the letter `m`. -/
def ending : UInt8 := 0x6D

/-- Whether an octet is a decimal digit. -/
def isDigit (octet : UInt8) : Bool :=
  0x30 ≤ octet && octet ≤ 0x39

/-- The number that digits stand for. -/
def number (digits : Octets) : Nat :=
  digits.foldl (fun n digit => n * 10 + (digit.toNat - 0x30)) 0

/-- Whether octets are digits, and at least one. -/
def IsNumeral (digits : Octets) : Prop :=
  digits ≠ [] ∧ ∀ digit ∈ digits, isDigit digit = true

theorem isNumeral_singleton {digit : UInt8} (hDigit : isDigit digit = true) :
    IsNumeral [digit] :=
  ⟨List.cons_ne_nil digit [], List.forall_mem_singleton.2 hDigit⟩

/-- The sequence with some digits. -/
def sequence (digits : Octets) : Octets :=
  escape :: bracket :: digits ++ [ending]

theorem escape_notMem_ofString {text : String} (hText : '\x1b' ∉ text.toList) :
    escape ∉ ofString text := by
  intro hMem
  have hAscii : escape.toNat < 0x80 := by decide
  exact hText (Utf8.mem_of_mem_ofChars hAscii hMem)

end Octets

namespace Terminal

/-- How much of a sequence has been taken. -/
inductive Begun where
  | nothing
  | escape
  /-- The escape, the bracket and some digits. -/
  | digits (taken : Octets)
deriving DecidableEq

/-- The octets that have been taken and not been shown. -/
def Begun.held : Begun → Octets
  | nothing => []
  | escape => [Octets.escape]
  | digits taken => Octets.escape :: Octets.bracket :: taken

/-- What an octet does. -/
inductive Effect where
  /-- Octets are shown, and part of a sequence is held. -/
  | shows (octets : Octets) (begun : Begun)
  /-- A sequence is complete. -/
  | switches (code : Nat)
deriving DecidableEq

/-- What an octet does behind what has been begun. An escape always begins anew. -/
def Begun.take (begun : Begun) (octet : UInt8) : Effect :=
  if octet = Octets.escape then .shows begun.held .escape
  else
    match begun with
    | .nothing => .shows [octet] .nothing
    | .escape =>
      if octet = Octets.bracket then .shows [] (.digits [])
      else .shows [Octets.escape, octet] .nothing
    | .digits taken =>
      if Octets.isDigit octet then .shows [] (.digits (taken ++ [octet]))
      else if octet = Octets.ending ∧ taken ≠ [] then .switches (Octets.number taken)
      else .shows (Begun.held (.digits taken) ++ [octet]) .nothing

end Terminal

/-- A terminal: the part of a sequence that it holds, and what has been switched on, in this
order. -/
structure Terminal where
  begun : Terminal.Begun
  codes : List Nat
deriving DecidableEq

namespace Terminal

/-- An octet that is shown, and what is switched on for it. -/
abbrev Cell := UInt8 × List Nat

/-- A terminal that holds nothing and on which nothing is switched on. -/
def plain : Terminal := ⟨.nothing, []⟩

/-- What is switched on by a number. Zero switches everything off. -/
def switch (codes : List Nat) : Nat → List Nat
  | 0 => []
  | code => codes ++ [code]

/-- Take an octet: what is shown then, and the terminal after it. -/
def step (terminal : Terminal) (octet : UInt8) : List Cell × Terminal :=
  match terminal.begun.take octet with
  | .shows octets begun => (octets.map (·, terminal.codes), ⟨begun, terminal.codes⟩)
  | .switches code => ([], ⟨.nothing, switch terminal.codes code⟩)

/-- Take a text. -/
def read (terminal : Terminal) : Octets → List Cell × Terminal
  | [] => ([], terminal)
  | octet :: rest =>
    let (cells, terminal) := terminal.step octet
    let (others, terminal) := terminal.read rest
    (cells ++ others, terminal)

/-- What is shown of a text, with what is held at its end. -/
def display (terminal : Terminal) (text : Octets) : List Cell :=
  (terminal.read text).1 ++
    (terminal.read text).2.begun.held.map (·, (terminal.read text).2.codes)

/-- The octets that are shown of a text. -/
def visible (text : Octets) : Octets :=
  (plain.display text).map Prod.fst

theorem read_append (terminal : Terminal) (text others : Octets) :
    terminal.read (text ++ others) =
      ((terminal.read text).1 ++ ((terminal.read text).2.read others).1,
        ((terminal.read text).2.read others).2) := by
  induction text generalizing terminal with
  | nil => rfl
  | cons octet rest ih =>
      rw [List.cons_append, read, read]
      simp only [ih, List.append_assoc]

theorem read_append_snd (terminal : Terminal) (text others : Octets) :
    (terminal.read (text ++ others)).2 = ((terminal.read text).2.read others).2 := by
  rw [read_append]

theorem read_append_eq {first middle last : Terminal} {text others : Octets}
    {cells later : List Cell} (hText : first.read text = (cells, middle))
    (hOthers : middle.read others = (later, last)) :
    first.read (text ++ others) = (cells ++ later, last) := by
  rw [read_append, hText, hOthers]

/-- A text without an escape is shown as it stands. -/
theorem read_of_notMem {text : Octets} (hText : Octets.escape ∉ text) (codes : List Nat) :
    read ⟨.nothing, codes⟩ text = (text.map (·, codes), ⟨.nothing, codes⟩) := by
  induction text with
  | nil => rfl
  | cons octet rest ih =>
      rw [List.mem_cons, not_or] at hText
      have hStep : step ⟨.nothing, codes⟩ octet = ([(octet, codes)], ⟨.nothing, codes⟩) := by
        simp [step, Begun.take, Ne.symm hText.1]
      simp only [read, hStep, ih hText.2, List.map_cons, List.singleton_append]

theorem ne_escape_of_isDigit {octet : UInt8} (hDigit : Octets.isDigit octet = true) :
    octet ≠ Octets.escape := by
  rintro rfl
  cases hDigit

theorem read_digits {digits : Octets} (hDigits : ∀ digit ∈ digits, Octets.isDigit digit = true)
    (taken : Octets) (codes : List Nat) :
    read ⟨.digits taken, codes⟩ digits = ([], ⟨.digits (taken ++ digits), codes⟩) := by
  induction digits generalizing taken with
  | nil => simp [read]
  | cons digit rest ih =>
      rw [List.forall_mem_cons] at hDigits
      have hStep : step ⟨.digits taken, codes⟩ digit =
          ([], ⟨.digits (taken ++ [digit]), codes⟩) := by
        simp [step, Begun.take, hDigits.1, ne_escape_of_isDigit hDigits.1]
      simp only [read, hStep, ih hDigits.2, List.append_assoc, List.singleton_append,
        List.append_nil]

/-- A sequence is not shown, and switches what its number says. What has been held in front of it is
shown. -/
theorem read_sequence (terminal : Terminal) {digits : Octets} (hDigits : Octets.IsNumeral digits) :
    terminal.read (Octets.sequence digits) =
      (terminal.begun.held.map (·, terminal.codes),
        ⟨.nothing, switch terminal.codes (Octets.number digits)⟩) := by
  have hOpening : terminal.read [Octets.escape, Octets.bracket] =
      (terminal.begun.held.map (·, terminal.codes), ⟨.digits [], terminal.codes⟩) := by
    simp [read, step, Begun.take, Octets.escape, Octets.bracket]
  have hEnding : read ⟨.digits digits, terminal.codes⟩ [Octets.ending] =
      ([], ⟨.nothing, switch terminal.codes (Octets.number digits)⟩) := by
    have hOther : Octets.ending ≠ Octets.escape ∧ Octets.isDigit Octets.ending = false := by decide
    simp [read, step, Begun.take, hOther, hDigits.1]
  have hSequence : Octets.sequence digits =
      [Octets.escape, Octets.bracket] ++ (digits ++ [Octets.ending]) := rfl
  simp only [hSequence, read_append, hOpening, read_digits hDigits.2, List.nil_append, hEnding,
    List.append_nil]

/-! ### What remains of a text -/

/-- Whether octets are what remains of a text when all its sequences are taken out. -/
inductive StripsTo : Octets → Octets → Prop where
  | nil : StripsTo [] []
  | sequence {digits rest kept : Octets} (hDigits : Octets.IsNumeral digits)
      (hRest : StripsTo rest kept) : StripsTo (Octets.sequence digits ++ rest) kept
  | octet {octet : UInt8} {rest kept : Octets}
      (hOther : ∀ digits behind, Octets.IsNumeral digits →
        octet :: rest ≠ Octets.sequence digits ++ behind)
      (hRest : StripsTo rest kept) : StripsTo (octet :: rest) (octet :: kept)

@[simp]
theorem map_fst_comp (text : Octets) (codes : List Nat) :
    text.map (Prod.fst ∘ fun octet => ((octet, codes) : Cell)) = text :=
  List.map_id text

theorem display_append (terminal : Terminal) (text others : Octets) :
    terminal.display (text ++ others) =
      (terminal.read text).1 ++ (terminal.read text).2.display others := by
  rw [display, read_append, display, List.append_assoc]

theorem display_cons (terminal : Terminal) (octet : UInt8) (rest : Octets) :
    terminal.display (octet :: rest) =
      (terminal.step octet).1 ++ (terminal.step octet).2.display rest := by
  rw [display, display, read, List.append_assoc]

/-- Which octets are shown does not depend on what is switched on. -/
theorem map_fst_display (begun : Begun) (codes : List Nat) (text : Octets) :
    (display ⟨begun, codes⟩ text).map Prod.fst = (display ⟨begun, []⟩ text).map Prod.fst := by
  induction text generalizing begun codes with
  | nil => simp [display, read]
  | cons octet rest ih =>
      rw [display_cons, display_cons, List.map_append, List.map_append, step, step]
      cases begun.take octet with
      | shows octets begun =>
          simp only [ih begun codes]
          simp
      | switches code => simp only [ih .nothing (switch codes code), ih .nothing (switch [] code)]

/-- What stands in front of an escape is kept. -/
theorem visible_append_of_notMem {text : Octets} (hText : Octets.escape ∉ text) (rest : Octets) :
    visible (text ++ rest) = text ++ visible rest := by
  simp [visible, plain, display_append, read_of_notMem hText]

theorem visible_cons_of_ne {octet : UInt8} (hOctet : octet ≠ Octets.escape) (rest : Octets) :
    visible (octet :: rest) = octet :: visible rest :=
  visible_append_of_notMem (mt List.mem_singleton.1 hOctet.symm) rest

/-- A sequence is taken out. -/
theorem visible_sequence_append {digits : Octets} (hDigits : Octets.IsNumeral digits)
    (rest : Octets) : visible (Octets.sequence digits ++ rest) = visible rest := by
  rw [visible, display_append, read_sequence plain hDigits, List.map_append, map_fst_display]
  rfl

/-- Digits that do not belong to a sequence are kept, and so is what stands in front of them. -/
theorem map_fst_display_digits {taken text : Octets}
    (hOther : ∀ more behind, (∀ digit ∈ more, Octets.isDigit digit = true) → taken ++ more ≠ [] →
      text ≠ more ++ Octets.ending :: behind) :
    (display ⟨.digits taken, []⟩ text).map Prod.fst =
      Octets.escape :: Octets.bracket :: taken ++ visible text := by
  induction text generalizing taken with
  | nil => simp [display, read, visible, plain, Begun.held]
  | cons octet rest ih =>
      by_cases hEscape : octet = Octets.escape
      · simp [hEscape, visible, plain, display_cons, step, Begun.take, Begun.held]
      · by_cases hDigit : Octets.isDigit octet = true
        · have hLater : (display ⟨.digits (taken ++ [octet]), []⟩ rest).map Prod.fst =
              Octets.escape :: Octets.bracket :: (taken ++ [octet]) ++ visible rest := by
            apply ih
            intro more behind hMore _ hRest
            refine hOther (octet :: more) behind ?_ (by simp) (congrArg _ hRest)
            exact List.forall_mem_cons.2 ⟨hDigit, hMore⟩
          rw [visible_cons_of_ne hEscape, display_cons]
          simp [step, Begun.take, hEscape, hDigit, hLater]
        · have hEnding : ¬ (octet = Octets.ending ∧ taken ≠ []) := by
            rintro ⟨rfl, hNonempty⟩
            exact hOther [] rest (by simp) (by simpa using hNonempty) rfl
          rw [visible_cons_of_ne hEscape, display_cons]
          simp [step, Begun.take, hEscape, hDigit, hEnding, Begun.held, visible, plain]

/-- An escape that does not begin a sequence is kept. -/
theorem visible_escape_cons {text : Octets}
    (hOther : ∀ digits behind, Octets.IsNumeral digits →
      Octets.escape :: text ≠ Octets.sequence digits ++ behind) :
    visible (Octets.escape :: text) = Octets.escape :: visible text := by
  have hBegun : visible (Octets.escape :: text) =
      (display ⟨.escape, []⟩ text).map Prod.fst := rfl
  rw [hBegun]
  cases text with
  | nil => rfl
  | cons octet rest =>
      by_cases hEscape : octet = Octets.escape
      · simp [hEscape, visible, plain, display_cons, step, Begun.take, Begun.held]
      · rw [display_cons, visible_cons_of_ne hEscape]
        by_cases hBracket : octet = Octets.bracket
        · subst hBracket
          have hDigits : (display ⟨.digits [], []⟩ rest).map Prod.fst =
              Octets.escape :: Octets.bracket :: [] ++ visible rest := by
            apply map_fst_display_digits
            rintro more behind hMore hNonempty rfl
            exact hOther more behind ⟨hNonempty, hMore⟩ (by simp [Octets.sequence])
          simp [step, Begun.take, hEscape, hDigits]
        · simp [step, Begun.take, hEscape, hBracket, visible, plain]

/-- Where no sequence begins, an octet is kept. -/
theorem visible_cons {octet : UInt8} {rest : Octets}
    (hOther : ∀ digits behind, Octets.IsNumeral digits →
      octet :: rest ≠ Octets.sequence digits ++ behind) :
    visible (octet :: rest) = octet :: visible rest := by
  by_cases hEscape : octet = Octets.escape
  · subst hEscape
    exact visible_escape_cons hOther
  · exact visible_cons_of_ne hEscape rest

theorem length_lt_sequence_append (digits behind : Octets) :
    behind.length < (Octets.sequence digits ++ behind).length := by
  simp [Octets.sequence]
  omega

theorem stripsTo_visible (text : Octets) : StripsTo text (visible text) := by
  induction hLength : text.length using Nat.strongRecOn generalizing text with
  | ind length ih =>
      by_cases hSequence :
          ∃ digits behind, Octets.IsNumeral digits ∧ text = Octets.sequence digits ++ behind
      · obtain ⟨digits, behind, hDigits, rfl⟩ := hSequence
        have hShorter := Nat.lt_of_lt_of_eq (length_lt_sequence_append digits behind) hLength
        rw [visible_sequence_append hDigits]
        exact .sequence hDigits (ih _ hShorter behind rfl)
      · cases text with
        | nil => exact .nil
        | cons octet rest =>
            have hOther : ∀ digits behind, Octets.IsNumeral digits →
                octet :: rest ≠ Octets.sequence digits ++ behind :=
              fun digits behind hDigits hText => hSequence ⟨digits, behind, hDigits, hText⟩
            have hShorter : rest.length < length := by simp [← hLength]
            rw [visible_cons hOther]
            exact .octet hOther (ih _ hShorter rest rfl)

/-- What a terminal shows of a text is what remains of it when all sequences are taken out. -/
theorem stripsTo_iff {text kept : Octets} : StripsTo text kept ↔ kept = visible text := by
  constructor
  · intro hStrips
    induction hStrips with
    | nil => rfl
    | sequence hDigits _ ih => rw [ih, visible_sequence_append hDigits]
    | octet hOther _ ih => rw [ih, visible_cons hOther]
  · rintro rfl
    exact stripsTo_visible text

/-- Only what is complete is taken out. -/
example : visible (Octets.ofString "\x1b[1ma\x1b[3\x1b[0mb\x1b[m") =
    Octets.ofString "a\x1b[3b\x1b[m" := by
  decide

/-! ### Sequences of the program -/

/-- Whatever has been switched on and whatever is held, everything is switched off again. -/
theorem read_reset (terminal : Terminal) :
    terminal.read (Octets.ofString Escape.reset) =
      (terminal.begun.held.map (·, terminal.codes), plain) := by
  have hReset : Octets.ofString Escape.reset = Octets.sequence [0x30] := by decide
  rw [hReset, read_sequence terminal (Octets.isNumeral_singleton rfl)]
  rfl

theorem read_bold (codes : List Nat) :
    read ⟨.nothing, codes⟩ (Octets.ofString Escape.bold) = ([], ⟨.nothing, codes ++ [1]⟩) := by
  have hBold : Octets.ofString Escape.bold = Octets.sequence [0x31] := by decide
  rw [hBold, read_sequence _ (Octets.isNumeral_singleton rfl)]
  rfl

end Terminal

end HostTree
