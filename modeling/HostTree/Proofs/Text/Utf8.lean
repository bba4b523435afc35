import HostTree.Text.Utf8

/-!
UTF-8 read back: what encodes a text displays as this text, character by character. An ASCII octet
is part of an encoded text only for its own character, and a slash ends a displayed text only if it
ends the octets.
-/

namespace HostTree

namespace Utf8

theorem toNat_ofNat {n : Nat} (hSmall : n < 256) : (UInt8.ofNat n).toNat = n := by
  rw [UInt8.toNat_ofNat']
  omega

/-- An octet within the bounds goes on with the character, by its six lowest bits. -/
theorem next_tail {u : Unfinished} {n : Nat} (hLow : u.low ≤ n % 64 + 128)
    (hHigh : n % 64 + 128 ≤ u.high) :
    u.next (UInt8.ofNat (n % 64 + 128)) =
      match u.owed with
      | 0 => .char (Char.ofNat (u.code * 64 + n % 64))
      | owed + 1 => .more ⟨u.code * 64 + n % 64, owed, 0x80, 0xBF⟩ := by
  have hRange : ¬(n % 64 + 128 < u.low ∨ u.high < n % 64 + 128) := by omega
  simp only [Unfinished.next, toNat_ofNat (show n % 64 + 128 < 256 by omega), Nat.add_sub_cancel]
  exact if_neg hRange

theorem first_ascii {n : Nat} (hHigh : n < 0x80) :
    first (UInt8.ofNat n) = .char (Char.ofNat n) := by
  simp [first, toNat_ofNat (show n < 256 by omega), hHigh]

/-- The first of two octets leaves the bits above the six lowest. -/
theorem first_two {n : Nat} (hLow : 0x80 ≤ n) (hHigh : n < 0x800) :
    first (UInt8.ofNat (n / 64 % 32 + 192)) = .more ⟨n / 64, 0, 0x80, 0xBF⟩ := by
  have hBits : n / 64 % 32 = n / 64 := Nat.mod_eq_of_lt (by omega)
  simp only [first, hBits, toNat_ofNat (show n / 64 + 192 < 256 by omega)]
  rw [if_neg (by omega), if_neg (by omega), if_pos (by omega), Nat.add_sub_cancel]

/-- The first of three octets leaves the bits above the twelve lowest. What may come next rules out
no character. -/
theorem first_three {n : Nat} (hLow : 0x800 ≤ n) (hHigh : n < 0x10000)
    (hScalar : n < 0xD800 ∨ 0xDFFF < n) :
    ∃ low high, first (UInt8.ofNat (n / 4096 % 16 + 224)) = .more ⟨n / 4096, 1, low, high⟩ ∧
      low ≤ n / 64 % 64 + 128 ∧ n / 64 % 64 + 128 ≤ high := by
  have hBits : n / 4096 % 16 = n / 4096 := Nat.mod_eq_of_lt (by omega)
  simp only [first, hBits, toNat_ofNat (show n / 4096 + 224 < 256 by omega)]
  rw [if_neg (by omega), if_neg (by omega), if_neg (by omega)]
  by_cases hFirst : n / 4096 = 0
  · exact ⟨0xA0, 0xBF, by simp [hFirst], by omega, by omega⟩
  · rw [if_neg (by omega)]
    by_cases hSurrogate : n / 4096 = 13
    · exact ⟨0x80, 0x9F, by simp [hSurrogate], by omega, by omega⟩
    · rw [if_neg (by omega), if_pos (by omega), Nat.add_sub_cancel]
      exact ⟨0x80, 0xBF, rfl, by omega, by omega⟩

/-- The first of four octets leaves the bits above the eighteen lowest. -/
theorem first_four {n : Nat} (hLow : 0x10000 ≤ n) (hHigh : n < 0x110000) :
    ∃ low high, first (UInt8.ofNat (n / 262144 % 8 + 240)) = .more ⟨n / 262144, 2, low, high⟩ ∧
      low ≤ n / 4096 % 64 + 128 ∧ n / 4096 % 64 + 128 ≤ high := by
  have hBits : n / 262144 % 8 = n / 262144 := Nat.mod_eq_of_lt (by omega)
  simp only [first, hBits, toNat_ofNat (show n / 262144 + 240 < 256 by omega)]
  rw [if_neg (by omega), if_neg (by omega), if_neg (by omega), if_neg (by omega),
    if_neg (by omega), if_neg (by omega)]
  by_cases hFirst : n / 262144 = 0
  · exact ⟨0x90, 0xBF, by simp [hFirst], by omega, by omega⟩
  · rw [if_neg (by omega)]
    by_cases hLast : n / 262144 = 4
    · exact ⟨0x80, 0x8F, by simp [hLast], by omega, by omega⟩
    · rw [if_pos (by omega), Nat.add_sub_cancel]
      exact ⟨0x80, 0xBF, rfl, by omega, by omega⟩

theorem scan_char {octet : UInt8} {c : Char} (hFirst : first octet = .char c) (rest : Octets) :
    scan none (octet :: rest) = c :: scan none rest := by
  simp [scan, step, start, hFirst]

theorem scan_more {octet : UInt8} {u : Unfinished} (hFirst : first octet = .more u)
    (rest : Octets) : scan none (octet :: rest) = scan (some u) rest := by
  simp [scan, step, start, hFirst]

/-- The last octet of a character. -/
theorem scan_last {code low high n : Nat} (hLow : low ≤ n % 64 + 128)
    (hHigh : n % 64 + 128 ≤ high) (rest : Octets) :
    scan (some ⟨code, 0, low, high⟩) (UInt8.ofNat (n % 64 + 128) :: rest) =
      Char.ofNat (code * 64 + n % 64) :: scan none rest := by
  simp only [scan, step, next_tail (u := ⟨code, 0, low, high⟩) hLow hHigh, List.singleton_append]

/-- An octet of a character that is not the last one. -/
theorem scan_next {code owed low high n : Nat} (hLow : low ≤ n % 64 + 128)
    (hHigh : n % 64 + 128 ≤ high) (rest : Octets) :
    scan (some ⟨code, owed + 1, low, high⟩) (UInt8.ofNat (n % 64 + 128) :: rest) =
      scan (some ⟨code * 64 + n % 64, owed, 0x80, 0xBF⟩) rest := by
  simp only [scan, step, next_tail (u := ⟨code, owed + 1, low, high⟩) hLow hHigh, List.nil_append]

/-- The octets of a character stand for it, whatever follows. -/
theorem scan_utf8EncodeChar (c : Char) (rest : Octets) :
    scan none (String.utf8EncodeChar c ++ rest) = c :: scan none rest := by
  have hScalar : c.toNat < 0xD800 ∨ 0xDFFF < c.toNat ∧ c.toNat < 0x110000 := c.valid
  have hCode : c.val.toNat = c.toNat := rfl
  have hChar : ∀ {n : Nat}, n = c.toNat → Char.ofNat n = c := fun hSame =>
    hSame ▸ Char.ofNat_toNat c
  simp only [String.utf8EncodeChar, hCode]
  generalize c.toNat = n at hScalar hChar
  split
  · rw [List.singleton_append, scan_char (first_ascii (by omega)), hChar rfl]
  split
  · rw [List.cons_append, List.singleton_append, scan_more (first_two (by omega) (by omega)),
      scan_last (by omega) (by omega), hChar (by omega)]
  split
  · obtain ⟨low, high, hFirst, hLow, hHigh⟩ :=
      first_three (n := n) (by omega) (by omega) (by omega)
    rw [List.cons_append, List.cons_append, List.singleton_append, scan_more hFirst,
      scan_next hLow hHigh, scan_last (by omega) (by omega), hChar (by omega)]
  · obtain ⟨low, high, hFirst, hLow, hHigh⟩ := first_four (n := n) (by omega) (by omega)
    rw [List.cons_append, List.cons_append, List.cons_append, List.singleton_append,
      scan_more hFirst, scan_next hLow hHigh, scan_next (by omega) (by omega),
      scan_last (by omega) (by omega), hChar (by omega)]

theorem scan_ofChars (text : List Char) : scan none (Octets.ofChars text) = text := by
  induction text with
  | nil => rfl
  | cons c rest ih =>
      rw [Octets.ofChars, List.flatMap_cons, scan_utf8EncodeChar]
      exact congrArg (c :: ·) ih

/-- What encodes a text displays as this text. -/
theorem lossy_ofString (text : String) : lossy (Octets.ofString text) = text := by
  rw [lossy, Octets.ofString, scan_ofChars, String.ofList_toList]

theorem decode?_ofString (text : String) : decode? (Octets.ofString text) = some text := by
  rw [decode?, lossy_ofString, if_pos rfl]

/-- An ASCII octet is part of an encoded text only for the character that it stands for. -/
theorem mem_of_mem_ofChars {text : List Char} {octet : UInt8} (hAscii : octet.toNat < 0x80)
    (hOctet : octet ∈ Octets.ofChars text) : Char.ofNat octet.toNat ∈ text := by
  obtain ⟨before, after, hSplit⟩ := List.append_of_mem hOctet
  have hScan := scan_append_of_ascii none before after hAscii (by simp)
  rw [← hSplit, scan_ofChars] at hScan
  rw [hScan]
  simp

/-- Whether an unfinished character is not going to be an ASCII character. -/
structure Unfinished.IsLong (u : Unfinished) : Prop where
  code : 2 ≤ u.code * 64 + (u.low - 0x80)
  last : u.owed = 0 → 2 ≤ u.code

theorem isLong_of_first {octet : UInt8} {u : Unfinished} (hMore : first octet = .more u) :
    u.IsLong := by
  unfold first at hMore
  simp only at hMore
  repeat' split at hMore
  all_goals simp only [Reading.more.injEq, reduceCtorEq] at hMore
  all_goals subst hMore
  all_goals constructor <;> simp only <;> omega

theorem Unfinished.IsLong.next {u v : Unfinished} {octet : UInt8} (hLong : u.IsLong)
    (hMore : u.next octet = .more v) : v.IsLong := by
  have hCode := hLong.code
  unfold Unfinished.next at hMore
  simp only at hMore
  repeat' split at hMore
  all_goals simp only [Reading.more.injEq, reduceCtorEq] at hMore
  subst hMore
  constructor <;> simp only <;> omega

theorem eq_of_ofNat_eq_slash {n : Nat} (hSlash : Char.ofNat n = '/') : n = 0x2F := by
  by_cases hValid : n.isValidChar
  · rw [Char.ofNat, dif_pos hValid] at hSlash
    exact congrArg Char.toNat hSlash
  · rw [Char.ofNat, dif_neg hValid] at hSlash
    exact absurd hSlash (by decide)

theorem first_ne_slash {octet : UInt8} (hOctet : octet ≠ Octets.slash) :
    first octet ≠ .char '/' := by
  intro hFirst
  unfold first at hFirst
  simp only at hFirst
  split at hFirst
  · exact hOctet (UInt8.toNat_inj.1 (eq_of_ofNat_eq_slash (Reading.char.inj hFirst)))
  · repeat' split at hFirst
    all_goals simp at hFirst

theorem Unfinished.IsLong.next_ne_slash {u : Unfinished} (hLong : u.IsLong) (octet : UInt8) :
    u.next octet ≠ .char '/' := by
  intro hNext
  unfold Unfinished.next at hNext
  simp only at hNext
  split at hNext
  · simp at hNext
  split at hNext
  · next hOwed =>
      have hCode := hLong.last hOwed
      have hSlash := eq_of_ofNat_eq_slash (Reading.char.inj hNext)
      omega
  · simp at hNext

theorem notMem_start {octet : UInt8} (hOctet : octet ≠ Octets.slash) : '/' ∉ (start octet).1 := by
  unfold start
  split
  · next c hFirst =>
      rw [List.mem_singleton]
      rintro rfl
      exact first_ne_slash hOctet hFirst
  · simp
  · decide

/-- No octet but a slash brings a slash. -/
theorem notMem_step {state : Option Unfinished} (hLong : ∀ u ∈ state, u.IsLong) {octet : UInt8}
    (hOctet : octet ≠ Octets.slash) : '/' ∉ (step state octet).1 := by
  cases state with
  | none => exact notMem_start hOctet
  | some u =>
      unfold step
      simp only
      split
      · next c hNext =>
          rw [List.mem_singleton]
          rintro rfl
          exact (hLong u rfl).next_ne_slash octet hNext
      · simp
      · rw [List.mem_cons, not_or]
        exact ⟨by decide, notMem_start hOctet⟩

theorem isLong_of_start (octet : UInt8) : ∀ u ∈ (start octet).2, u.IsLong := by
  intro u hState
  unfold start at hState
  split at hState
  · simp at hState
  · next hFirst => exact isLong_of_first (Option.some.inj hState ▸ hFirst)
  · simp at hState

theorem isLong_of_step {state : Option Unfinished} (hLong : ∀ u ∈ state, u.IsLong)
    (octet : UInt8) : ∀ u ∈ (step state octet).2, u.IsLong := by
  cases state with
  | none => exact isLong_of_start octet
  | some v =>
      intro u hState
      unfold step at hState
      simp only at hState
      split at hState
      · simp at hState
      · next hNext => exact (hLong v rfl).next (Option.some.inj hState ▸ hNext)
      · exact isLong_of_start octet u hState

/-- What has been begun shows in any case. -/
theorem scan_ne_nil (u : Unfinished) (octets : Octets) : scan (some u) octets ≠ [] := by
  induction octets generalizing u with
  | nil => simp [scan, abandon]
  | cons octet rest ih =>
      rw [scan, step]
      split
      · simp
      · exact List.append_ne_nil_of_right_ne_nil _ (ih _)
      · simp

theorem eq_nil_of_scan_eq_nil {state : Option Unfinished} {octets : Octets}
    (hScan : scan state octets = []) : state = none ∧ octets = [] := by
  cases state with
  | some u => exact absurd hScan (scan_ne_nil u octets)
  | none =>
      cases octets with
      | nil => exact ⟨rfl, rfl⟩
      | cons octet rest =>
          rw [scan, step, start] at hScan
          split at hScan
          · simp at hScan
          · exact absurd (List.append_eq_nil_iff.1 hScan).2 (scan_ne_nil _ rest)
          · simp at hScan

/-- A text that ends in a slash comes from octets that do. -/
theorem getLast?_of_scan {state : Option Unfinished} (hLong : ∀ u ∈ state, u.IsLong)
    {octets : Octets} (hLast : (scan state octets).getLast? = some '/') :
    octets.getLast? = some Octets.slash := by
  induction octets generalizing state with
  | nil =>
      cases state with
      | none => simp [scan, abandon] at hLast
      | some u => simp [scan, abandon, replacement] at hLast
  | cons octet rest ih =>
      rw [scan, List.getLast?_append] at hLast
      cases hRest : (scan (step state octet).2 rest).getLast? with
      | some last =>
          rw [hRest, Option.some_or] at hLast
          have hSlash := ih (isLong_of_step hLong octet) (hRest.trans hLast)
          rw [List.getLast?_cons, hSlash]
          rfl
      | none =>
          rw [hRest, Option.none_or] at hLast
          obtain ⟨-, rfl⟩ := eq_nil_of_scan_eq_nil (List.getLast?_eq_none_iff.1 hRest)
          by_cases hOctet : octet = Octets.slash
          · rw [hOctet, List.getLast?_singleton]
          · exact absurd (List.mem_of_getLast? hLast) (notMem_step hLong hOctet)

/-- A displayed text ends in a slash if the octets do. -/
theorem getLast?_lossy_iff (octets : Octets) :
    (lossy octets).toList.getLast? = some '/' ↔ octets.getLast? = some Octets.slash := by
  rw [lossy, String.toList_ofList]
  constructor
  · exact getLast?_of_scan (by simp)
  · intro hLast
    obtain ⟨before, rfl⟩ := List.getLast?_eq_some_iff.1 hLast
    rw [scan_append_of_ascii none before [] (by decide) (by simp)]
    simp [scan, abandon, Octets.slash]

end Utf8

end HostTree
