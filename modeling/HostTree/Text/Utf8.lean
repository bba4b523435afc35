import HostTree.Text.Octets

/-!
UTF-8 as a machine that reads one octet at a time, and the display of octets that need not be
UTF-8: each maximal part that cannot begin or continue a character is shown as one U+FFFD. The
main statement, `toList_lossy_append_of_ascii`, says that an ASCII octet always stands for itself,
so octets may be cut at their ASCII octets before or after they are displayed.
-/

namespace HostTree

namespace Utf8

/-- What is shown in place of octets that are no character. -/
def replacement : Char := '\uFFFD'

/-- A character whose first octets have been read. -/
structure Unfinished where
  /-- The bits read so far. -/
  code : Nat
  /-- The octets owed after the next one. -/
  owed : Nat
  /-- The least value of the next octet. -/
  low : Nat
  /-- The greatest value of the next octet. -/
  high : Nat
deriving DecidableEq

/-- What one octet brings. -/
inductive Reading where
  /-- It ends a character. -/
  | char (c : Char)
  /-- It leaves a character unfinished. -/
  | more (unfinished : Unfinished)
  /-- No character goes on with it. -/
  | refused

/-- Read the first octet of a character. The bounds on the second octet rule out overlong forms,
surrogates and code points above U+10FFFF. -/
def first (octet : UInt8) : Reading :=
  let b := octet.toNat
  if b < 0x80 then .char (Char.ofNat b)
  else if b < 0xC2 then .refused
  else if b < 0xE0 then .more ⟨b - 0xC0, 0, 0x80, 0xBF⟩
  else if b = 0xE0 then .more ⟨0, 1, 0xA0, 0xBF⟩
  else if b = 0xED then .more ⟨0xD, 1, 0x80, 0x9F⟩
  else if b < 0xF0 then .more ⟨b - 0xE0, 1, 0x80, 0xBF⟩
  else if b = 0xF0 then .more ⟨0, 2, 0x90, 0xBF⟩
  else if b < 0xF4 then .more ⟨b - 0xF0, 2, 0x80, 0xBF⟩
  else if b = 0xF4 then .more ⟨4, 2, 0x80, 0x8F⟩
  else .refused

/-- Read one more octet of an unfinished character. -/
def Unfinished.next (u : Unfinished) (octet : UInt8) : Reading :=
  let b := octet.toNat
  if b < u.low ∨ u.high < b then .refused
  else
    let code := u.code * 64 + (b - 0x80)
    match u.owed with
    | 0 => .char (Char.ofNat code)
    | owed + 1 => .more ⟨code, owed, 0x80, 0xBF⟩

/-- What an unfinished character shows when it is given up. -/
def abandon : Option Unfinished → List Char
  | none => []
  | some _ => [replacement]

/-- Start a character with an octet: the text it shows, and the state after it. -/
def start (octet : UInt8) : List Char × Option Unfinished :=
  match first octet with
  | .char c => ([c], none)
  | .more u => ([], some u)
  | .refused => ([replacement], none)

/-- Read one octet: the text it shows, and the state after it. An octet that does not continue the
unfinished character gives that one up and starts afresh. -/
def step (state : Option Unfinished) (octet : UInt8) : List Char × Option Unfinished :=
  match state with
  | none => start octet
  | some u =>
    match u.next octet with
    | .char c => ([c], none)
    | .more u' => ([], some u')
    | .refused => (replacement :: (start octet).1, (start octet).2)

/-- Read octets from a state to the end. -/
def scan (state : Option Unfinished) : Octets → List Char
  | [] => abandon state
  | octet :: rest => (step state octet).1 ++ scan (step state octet).2 rest

/-- The text that octets display as. -/
def lossy (octets : Octets) : String :=
  String.ofList (scan none octets)

/-- The text that octets encode, if they are UTF-8: if what they display as encodes to them. -/
def decode? (octets : Octets) : Option String :=
  if Octets.ofString (lossy octets) = octets then some (lossy octets) else none

/-- An ASCII octet ends whatever was unfinished and stands for itself. -/
theorem step_of_ascii (state : Option Unfinished) {octet : UInt8} (hAscii : octet.toNat < 0x80)
    (hOpen : ∀ u ∈ state, 0x80 ≤ u.low) :
    step state octet = (abandon state ++ [Char.ofNat octet.toNat], none) := by
  cases state with
  | none => simp [step, start, first, hAscii, abandon]
  | some u =>
      have hLow : octet.toNat < u.low := by
        have := hOpen u rfl
        omega
      simp [step, Unfinished.next, hLow, start, first, hAscii, abandon]

/-- A first octet leaves a character that waits for an octet outside ASCII. -/
theorem low_of_first {octet : UInt8} {u : Unfinished} (hMore : first octet = .more u) :
    0x80 ≤ u.low := by
  unfold first at hMore
  simp only at hMore
  repeat' split at hMore
  all_goals simp_all
  all_goals subst hMore; simp

/-- A further octet leaves a character that waits for an octet outside ASCII. -/
theorem low_of_next {v u : Unfinished} {octet : UInt8} (hMore : v.next octet = .more u) :
    0x80 ≤ u.low := by
  unfold Unfinished.next at hMore
  simp only at hMore
  repeat' split at hMore
  all_goals simp_all
  all_goals subst hMore; simp

/-- Every state that reading reaches waits for an octet outside ASCII. -/
theorem low_of_step (state : Option Unfinished) (octet : UInt8) :
    ∀ u ∈ (step state octet).2, 0x80 ≤ u.low := by
  have hStart : ∀ u ∈ (start octet).2, 0x80 ≤ u.low := by
    intro u hu
    unfold start at hu
    split at hu
    · simp at hu
    · next hFirst =>
        simp only [Option.mem_def, Option.some.injEq] at hu
        exact hu ▸ low_of_first hFirst
    · simp at hu
  cases state with
  | none => simpa [step] using hStart
  | some v =>
      intro u hu
      unfold step at hu
      simp only at hu
      split at hu
      · simp at hu
      · next hNext =>
          simp only [Option.mem_def, Option.some.injEq] at hu
          exact hu ▸ low_of_next hNext
      · exact hStart u hu

/-- Reading past an ASCII octet falls into two independent readings. -/
theorem scan_append_of_ascii (state : Option Unfinished) (before : Octets) {octet : UInt8}
    (after : Octets) (hAscii : octet.toNat < 0x80) (hOpen : ∀ u ∈ state, 0x80 ≤ u.low) :
    scan state (before ++ octet :: after) =
      scan state before ++ Char.ofNat octet.toNat :: scan none after := by
  induction before generalizing state with
  | nil => simp [scan, step_of_ascii state hAscii hOpen]
  | cons b rest ih => simp [scan, ih _ (low_of_step state b)]

/-- An ASCII octet stands for itself, whatever surrounds it. -/
theorem toList_lossy_append_of_ascii (before : Octets) {octet : UInt8} (after : Octets)
    (hAscii : octet.toNat < 0x80) :
    (lossy (before ++ octet :: after)).toList =
      (lossy before).toList ++ Char.ofNat octet.toNat :: (lossy after).toList := by
  simp [lossy, scan_append_of_ascii none before after hAscii (by simp)]

end Utf8

end HostTree
