import HostTree.Proofs.Text.Decimal
import HostTree.Text.Json
import Mathlib.Algebra.Field.Rat
import Mathlib.Data.List.TakeWhile

/-!
The tokens of JSON texts, read by a machine that takes one character at a time. It knows all that
JSON has: blanks, numbers with fractions and exponents, every escape, and characters that are
escaped as pairs of surrogates. `tokens?_object` says that it reads a written object back.
-/

namespace HostTree

namespace Json

/-- The values that are no containers. -/
inductive Scalar where
  | null
  | truth (b : Bool)
  | number (value : ℚ)
  | string (text : String)
deriving DecidableEq

/-- The two kinds of containers. -/
inductive Container where
  | object
  | array
deriving DecidableEq

/-- A token. -/
inductive Token where
  | opening (container : Container)
  | closing (container : Container)
  | colon
  | comma
  | scalar (value : Scalar)
deriving DecidableEq

/-- The digits behind a decimal point, if there is one, and what follows them. -/
def places? : List Char → Option (List Char × List Char)
  | '.' :: rest =>
    if (rest.takeWhile Char.isDigit).isEmpty then none
    else some (rest.takeWhile Char.isDigit, rest.dropWhile Char.isDigit)
  | rest => some ([], rest)

/-- The exponent at the end of a numeral, zero if there is none. -/
def exponent? : List Char → Option Int
  | [] => some 0
  | c :: rest => if c = 'e' ∨ c = 'E' then Decimal.integer? rest else none

/-- Whether digits can stand in front of a decimal point: there is one, and no needless zero. -/
def isWhole (digits : List Char) : Bool :=
  !digits.isEmpty && (digits.head? ≠ some '0' || digits.length = 1)

/-- The number of a numeral without a sign. -/
def unsigned? (numeral : List Char) : Option ℚ :=
  let whole := numeral.takeWhile Char.isDigit
  if isWhole whole then
    match places? (numeral.dropWhile Char.isDigit) with
    | none => none
    | some (places, rest) =>
      (exponent? rest).map fun exponent =>
        (Nat.ofDigitChars 10 (whole ++ places) 0 : ℚ) * 10 ^ (exponent - (places.length : ℤ))
  else none

/-- The number of a numeral. -/
def numeral? : List Char → Option ℚ
  | '-' :: rest => (unsigned? rest).map (- ·)
  | numeral => unsigned? numeral

example : numeral? "-1.50e2".toList = some (-150) := by
  have hExponent : exponent? ['e', '2'] = some 2 := by decide
  have hDigits : Nat.ofDigitChars 10 ['1', '5', '0'] 0 = 150 := by decide
  simp [numeral?, unsigned?, isWhole, places?, hDigits, hExponent]

/-- The value that a word stands for. -/
def word? (word : List Char) : Option Scalar :=
  if word = "null".toList then some .null
  else if word = "true".toList then some (.truth true)
  else if word = "false".toList then some (.truth false)
  else (numeral? word).map .number

/-- Whether a code point is the first one of a pair of surrogates. -/
def isHigh (code : Nat) : Bool :=
  0xD800 ≤ code && code < 0xDC00

/-- Whether a code point is the second one of a pair of surrogates. -/
def isLow (code : Nat) : Bool :=
  0xDC00 ≤ code && code < 0xE000

/-- The characters of code points. A surrogate stands for a character only in a pair. -/
def chars? : List Nat → Option (List Char)
  | [] => some []
  | code :: rest =>
    if isLow code then none
    else if isHigh code then
      match rest with
      | [] => none
      | low :: rest =>
        if isLow low then
          (chars? rest).map
            (Char.ofNat (0x10000 + (code - 0xD800) * 0x400 + (low - 0xDC00)) :: ·)
        else none
    else (chars? rest).map (Char.ofNat code :: ·)

/-- The number that a hexadecimal digit stands for. -/
def hexValue? (c : Char) : Option Nat :=
  if c.isDigit then some (c.toNat - '0'.toNat)
  else if 'a' ≤ c ∧ c ≤ 'f' then some (c.toNat - 'a'.toNat + 10)
  else if 'A' ≤ c ∧ c ≤ 'F' then some (c.toNat - 'A'.toNat + 10)
  else none

/-- The code point that a letter behind a backslash stands for. -/
def letter? (c : Char) : Option Nat :=
  if c = '"' ∨ c = '\\' ∨ c = '/' then some c.toNat
  else if c = 'b' then some 0x08
  else if c = 't' then some 0x09
  else if c = 'n' then some 0x0A
  else if c = 'f' then some 0x0C
  else if c = 'r' then some 0x0D
  else none

/-- How far the reading of a token has come. What has been read stands in reverse. -/
inductive Mode where
  | between
  | word (read : List Char)
  | quoted (codes : List Nat)
  /-- Behind a backslash. -/
  | escaped (codes : List Nat)
  /-- Behind a number of the four digits of a code point. -/
  | coded (codes : List Nat) (digits code : Nat)

/-- Whether a character stands for nothing between tokens. -/
def isBlank (c : Char) : Bool :=
  c = ' ' || c = '\t' || c = '\n' || c = '\r'

/-- Whether a character is part of a word. -/
def isWordChar (c : Char) : Bool :=
  c.isAlphanum || c = '+' || c = '-' || c = '.'

/-- The token that is a single character. -/
def mark? (c : Char) : Option Token :=
  if c = '\x7b' then some (.opening .object)
  else if c = '\x7d' then some (.closing .object)
  else if c = '[' then some (.opening .array)
  else if c = ']' then some (.closing .array)
  else if c = ':' then some .colon
  else if c = ',' then some .comma
  else none

/-- Read a character between tokens. -/
def begin? (c : Char) : Option (List Token × Mode) :=
  if isBlank c then some ([], .between)
  else if c = '"' then some ([], .quoted [])
  else if isWordChar c then some ([], .word [c])
  else (mark? c).map fun token => ([token], .between)

/-- Read one character: the tokens that it ends, and how far the next one is. -/
def step? : Mode → Char → Option (List Token × Mode)
  | .between, c => begin? c
  | .word read, c =>
    if isWordChar c then some ([], .word (c :: read))
    else
      match word? read.reverse, begin? c with
      | some value, some (tokens, mode) => some (.scalar value :: tokens, mode)
      | _, _ => none
  | .quoted codes, c =>
    if c = '"' then
      (chars? codes.reverse).map fun text => ([.scalar (.string (String.ofList text))], .between)
    else if c = '\\' then some ([], .escaped codes)
    else if c.toNat < 0x20 then none
    else some ([], .quoted (c.toNat :: codes))
  | .escaped codes, c =>
    if c = 'u' then some ([], .coded codes 0 0)
    else (letter? c).map fun code => ([], .quoted (code :: codes))
  | .coded codes digits code, c =>
    (hexValue? c).map fun digit =>
      if digits = 3 then ([], .quoted ((code * 16 + digit) :: codes))
      else ([], .coded codes (digits + 1) (code * 16 + digit))

/-- The token that ends with the text. -/
def end? : Mode → Option (List Token)
  | .between => some []
  | .word read => (word? read.reverse).map ([.scalar ·])
  | _ => none

/-- Read characters to the end. -/
def scan? (mode : Mode) : List Char → Option (List Token)
  | [] => end? mode
  | c :: rest =>
    match step? mode c with
    | none => none
    | some (tokens, mode) => (scan? mode rest).map fun later => tokens ++ later

/-- The tokens of a text. -/
def tokens? (text : List Char) : Option (List Token) :=
  scan? .between text

theorem scan?_of_step {mode next : Mode} {c : Char} (hStep : step? mode c = some ([], next))
    (rest : List Char) : scan? mode (c :: rest) = scan? next rest := by
  simp [scan?, hStep]

theorem scan?_mark {c : Char} {token : Token} (hBegin : begin? c = some ([token], .between))
    (rest : List Char) :
    scan? .between (c :: rest) = (scan? .between rest).map (token :: ·) := by
  simp [scan?, step?, hBegin]

theorem hexValue?_hexDigit {n : Nat} (hDigit : n < 16) : hexValue? (hexDigit n) = some n := by
  revert n
  decide

/-- The forms in which a character is written: with a letter, by its code point, as it is. -/
inductive Escapes (c : Char) : List Char → Prop where
  | letter {letter : Char} (hOther : letter ≠ 'u') (hCode : letter? letter = some c.toNat) :
      Escapes c ['\\', letter]
  | code (hControl : c.toNat < 0x20) :
      Escapes c ['\\', 'u', '0', '0', hexDigit (c.toNat / 16), hexDigit (c.toNat % 16)]
  | plain (hQuote : c ≠ '"') (hEscape : c ≠ '\\') (hPrintable : 0x20 ≤ c.toNat) : Escapes c [c]

theorem escapes_escape (c : Char) : Escapes c (escape c) := by
  unfold escape
  -- The characters that have a letter of their own.
  iterate 7
    split
    · next hChar =>
        subst hChar
        exact .letter (by decide) rfl
  split
  · next hControl => exact .code hControl
  · next hQuote hEscape _ _ _ _ _ hControl =>
      exact .plain hQuote hEscape (Nat.le_of_not_lt hControl)

/-- The four digits of a code point. -/
theorem scan?_code (codes : List Nat) {a b c d : Char} {i j k l : Nat}
    (hFirst : hexValue? a = some i) (hSecond : hexValue? b = some j)
    (hThird : hexValue? c = some k) (hFourth : hexValue? d = some l) (rest : List Char) :
    scan? (.coded codes 0 0) (a :: b :: c :: d :: rest) =
      scan? (.quoted ((((i * 16 + j) * 16 + k) * 16 + l) :: codes)) rest := by
  simp [scan?, step?, hFirst, hSecond, hThird, hFourth]

/-- A written character is read as its code point. -/
theorem scan?_escape (codes : List Nat) (c : Char) (rest : List Char) :
    scan? (.quoted codes) (escape c ++ rest) = scan? (.quoted (c.toNat :: codes)) rest := by
  have hBackslash : step? (.quoted codes) '\\' = some ([], .escaped codes) := rfl
  have hEscapes := escapes_escape c
  generalize escape c = written at hEscapes
  cases hEscapes with
  | @letter letter hOther hCode =>
      have hLetter : step? (.escaped codes) letter = some ([], .quoted (c.toNat :: codes)) := by
        simp [step?, hOther, hCode]
      exact (scan?_of_step hBackslash _).trans (scan?_of_step hLetter rest)
  | code hControl =>
      have hHigh := hexValue?_hexDigit (show c.toNat / 16 < 16 by omega)
      have hLow := hexValue?_hexDigit (show c.toNat % 16 < 16 by omega)
      have hZero : hexValue? '0' = some 0 := rfl
      have hUnicode : step? (.escaped codes) 'u' = some ([], .coded codes 0 0) := rfl
      have hCode : ((0 * 16 + 0) * 16 + c.toNat / 16) * 16 + c.toNat % 16 = c.toNat := by omega
      calc
        _ = scan? (.escaped codes) _ := scan?_of_step hBackslash _
        _ = scan? (.coded codes 0 0) _ := scan?_of_step hUnicode _
        _ = _ := scan?_code codes hZero hZero hHigh hLow rest
        _ = _ := by rw [hCode]
  | plain hQuote hEscape hPrintable =>
      have hControl : ¬c.toNat < 0x20 := Nat.not_lt_of_le hPrintable
      refine scan?_of_step ?_ rest
      simp [step?, hQuote, hEscape, hControl]

theorem scan?_flatMap_escape (codes : List Nat) (text rest : List Char) :
    scan? (.quoted codes) (text.flatMap escape ++ rest) =
      scan? (.quoted ((text.map Char.toNat).reverse ++ codes)) rest := by
  induction text generalizing codes with
  | nil => rfl
  | cons c text ih =>
      rw [List.flatMap_cons, List.append_assoc, scan?_escape, ih]
      simp

/-- The code points of characters are no surrogates. -/
theorem chars?_map_toNat (text : List Char) : chars? (text.map Char.toNat) = some text := by
  induction text with
  | nil => rfl
  | cons c text ih =>
      have hScalar : c.toNat < 0xD800 ∨ 0xDFFF < c.toNat ∧ c.toNat < 0x110000 := c.valid
      have hLow : isLow c.toNat = false := by
        rw [isLow, ← Bool.decide_and, decide_eq_false_iff_not]
        omega
      have hHigh : isHigh c.toNat = false := by
        rw [isHigh, ← Bool.decide_and, decide_eq_false_iff_not]
        omega
      rw [List.map_cons, chars?.eq_def]
      simp [hLow, hHigh, ih, Char.ofNat_toNat]

/-- A written string is read back. -/
theorem scan?_string (text rest : List Char) :
    scan? .between (string text ++ rest) =
      (scan? .between rest).map (.scalar (.string (String.ofList text)) :: ·) := by
  have hOpen : step? .between '"' = some ([], .quoted []) := rfl
  have hClose : step? (.quoted (text.map Char.toNat).reverse) '"' =
      some ([.scalar (.string (String.ofList text))], .between) := by
    simp [step?, chars?_map_toNat]
  calc
    _ = scan? .between ('"' :: (text.flatMap escape ++ '"' :: rest)) := by simp [string]
    _ = scan? (.quoted []) (text.flatMap escape ++ '"' :: rest) := scan?_of_step hOpen _
    _ = scan? (.quoted (text.map Char.toNat).reverse) ('"' :: rest) := by
      rw [scan?_flatMap_escape, List.append_nil]
    _ = _ := by rw [scan?, hClose]; rfl

/-- A word goes on as long as its characters do. -/
theorem scan?_wordChars (read : List Char) {word : List Char}
    (hWord : ∀ c ∈ word, isWordChar c = true) (rest : List Char) :
    scan? (.word read) (word ++ rest) = scan? (.word (word.reverse ++ read)) rest := by
  induction word generalizing read with
  | nil => rfl
  | cons c word ih =>
      rw [List.forall_mem_cons] at hWord
      have hStep : step? (.word read) c = some ([], .word (c :: read)) := by
        simp [step?, hWord.1]
      rw [List.cons_append, scan?_of_step hStep, ih _ hWord.2]
      simp

/-- A word ends where a mark begins. -/
theorem scan?_word {c mark : Char} {word : List Char} (hFirst : begin? c = some ([], .word [c]))
    (hWord : ∀ c ∈ word, isWordChar c = true) {value : Scalar}
    (hValue : word? (c :: word) = some value) (hMark : isWordChar mark = false)
    (rest : List Char) :
    scan? .between (c :: word ++ mark :: rest) =
      (scan? .between (mark :: rest)).map (.scalar value :: ·) := by
  have hRead : word? (word.reverse ++ [c]).reverse = some value := by
    rw [List.reverse_append, List.reverse_reverse]
    exact hValue
  have hStep : step? .between c = some ([], .word [c]) := hFirst
  rw [List.cons_append, scan?_of_step hStep, scan?_wordChars [c] hWord, scan?, scan?]
  simp only [step?, hMark, hRead]
  cases begin? mark with
  | none => rfl
  | some began =>
      obtain ⟨tokens, mode⟩ := began
      simp only [Option.map_map]
      rfl

/-- The value that a written one stands for. -/
def Value.scalar : Value → Scalar
  | .string text => .string text
  | .number n => .number n
  | .truth b => .truth b

/-- A numeral begins with a zero only if its number is zero. -/
theorem eq_zero_of_head?_toDigits {n : Nat} (hHead : (Nat.toDigits 10 n).head? = some '0') :
    n = 0 := by
  induction n using Nat.strongRecOn with
  | ind n ih =>
      by_cases hSmall : n < 10
      · rw [Nat.toDigits_of_lt_base hSmall, List.head?_cons, Option.some.injEq,
          Nat.digitChar_eq_zero] at hHead
        exact hHead
      · rw [Nat.toDigits_of_base_le (by decide) (by omega), List.head?_append,
          List.head?_eq_some_head Nat.toDigits_ne_nil, Option.some_or,
          ← List.head?_eq_some_head] at hHead
        have hZero := ih (n / 10) (by omega) hHead
        omega

theorem isWhole_toDigits (n : Nat) : isWhole (Nat.toDigits 10 n) = true := by
  have hNonempty : (Nat.toDigits 10 n).isEmpty = false := by simp [Nat.toDigits_ne_nil]
  by_cases hHead : (Nat.toDigits 10 n).head? = some '0'
  · rw [eq_zero_of_head?_toDigits hHead]
    decide
  · simp [isWhole, hHead, Nat.toDigits_ne_nil]

theorem unsigned?_toDigits (n : Nat) : unsigned? (Nat.toDigits 10 n) = some (n : ℚ) := by
  have hWhole : (Nat.toDigits 10 n).takeWhile Char.isDigit = Nat.toDigits 10 n :=
    List.takeWhile_eq_self_iff.2 fun _ => Decimal.isDigit_of_mem_toDigits
  have hRest : (Nat.toDigits 10 n).dropWhile Char.isDigit = [] :=
    List.dropWhile_eq_nil_iff.2 fun _ => Decimal.isDigit_of_mem_toDigits
  simp [unsigned?, hWhole, hRest, isWhole_toDigits, places?, exponent?, Nat.ofDigitChars_toDigits]

theorem numeral?_toDigits (n : Nat) : numeral? (Nat.toDigits 10 n) = some (n : ℚ) := by
  rw [numeral?.eq_def]
  split
  · next rest hSign =>
      have hDigit := Decimal.isDigit_of_mem_toDigits (n := n) (c := '-') (by simp [hSign])
      simp at hDigit
  · exact unsigned?_toDigits n

theorem word?_toDigits (n : Nat) : word? (Nat.toDigits 10 n) = some (.number n) := by
  have hOther : ∀ word : String, (∃ c ∈ word.toList, c.isDigit = false) →
      Nat.toDigits 10 n ≠ word.toList := by
    rintro word ⟨c, hMem, hDigit⟩ hSame
    rw [← hSame] at hMem
    simp [Decimal.isDigit_of_mem_toDigits hMem] at hDigit
  rw [word?, if_neg (hOther "null" ⟨'n', by decide⟩), if_neg (hOther "true" ⟨'t', by decide⟩),
    if_neg (hOther "false" ⟨'f', by decide⟩), numeral?_toDigits]
  rfl

theorem begin?_of_isDigit {c : Char} (hDigit : c.isDigit = true) :
    begin? c = some ([], .word [c]) := by
  have hWordChar : isWordChar c = true := by simp [isWordChar, Char.isAlphanum, hDigit]
  have hOther : ∀ other : Char, other.isDigit = false → c ≠ other := by
    rintro other hOther rfl
    simp [hDigit] at hOther
  have hBlank : isBlank c = false := by
    simp [isBlank, hOther ' ' rfl, hOther '\t' rfl, hOther '\n' rfl, hOther '\r' rfl]
  simp [begin?, hBlank, hOther '"' rfl, hWordChar]

/-- A written value is read back if a mark follows that is no part of a word. -/
theorem scan?_value (value : Value) {mark : Char} (hMark : isWordChar mark = false)
    (rest : List Char) :
    scan? .between (value.text ++ mark :: rest) =
      (scan? .between (mark :: rest)).map (.scalar value.scalar :: ·) := by
  cases value with
  | string text =>
      rw [Value.text, scan?_string, String.ofList_toList]
      rfl
  | number n =>
      have hWord : ∀ c ∈ Nat.toDigits 10 n, isWordChar c = true := by
        intro c hMem
        simp [isWordChar, Char.isAlphanum, Decimal.isDigit_of_mem_toDigits hMem]
      obtain ⟨c, word, hDigits⟩ :=
        List.exists_cons_of_ne_nil (Nat.toDigits_ne_nil (n := n) (b := 10))
      have hValue := word?_toDigits n
      have hDigit := Decimal.isDigit_of_mem_toDigits (n := n) (c := c) (by simp [hDigits])
      have hFirst := begin?_of_isDigit hDigit
      rw [hDigits] at hWord hValue
      rw [Value.text, hDigits]
      exact scan?_word hFirst (List.forall_mem_cons.1 hWord).2 hValue hMark rest
  | truth b =>
      cases b with
      | true =>
          have hFirst : begin? 't' = some ([], .word ['t']) := rfl
          have hWord : ∀ c ∈ ['r', 'u', 'e'], isWordChar c = true := by simp [isWordChar]
          have hValue : word? ['t', 'r', 'u', 'e'] = some (.truth true) := by simp [word?]
          exact scan?_word hFirst hWord hValue hMark rest
      | false =>
          have hFirst : begin? 'f' = some ([], .word ['f']) := rfl
          have hWord : ∀ c ∈ ['a', 'l', 's', 'e'], isWordChar c = true := by simp [isWordChar]
          have hValue : word? ['f', 'a', 'l', 's', 'e'] = some (.truth false) := by simp [word?]
          exact scan?_word hFirst hWord hValue hMark rest

/-- The tokens of a written field. -/
def fieldTokens (name : String) (value : Value) : List Token :=
  [.scalar (.string name), .colon, .scalar value.scalar]

/-- A written field is read back if a mark follows that is no part of a word. -/
theorem scan?_field (name : String) (value : Value) {mark : Char}
    (hMark : isWordChar mark = false) (rest : List Char) :
    scan? .between (field name value ++ mark :: rest) =
      (scan? .between (mark :: rest)).map (fieldTokens name value ++ ·) := by
  have hColon : begin? ':' = some ([.colon], .between) := rfl
  rw [field, List.append_assoc, scan?_string, List.cons_append, scan?_mark hColon,
    scan?_value value hMark, String.ofList_toList]
  simp only [Option.map_map]
  rfl

/-- The tokens of the fields behind the first one, and of the end of their object. -/
def otherTokens : List (String × Value) → List Token
  | [] => [.closing .object]
  | (name, value) :: rest => .comma :: fieldTokens name value ++ otherTokens rest

/-- The tokens of a written object. -/
def objectTokens : List (String × Value) → List Token
  | [] => [.opening .object, .closing .object]
  | (name, value) :: rest => .opening .object :: fieldTokens name value ++ otherTokens rest

/-- The fields behind the first one begin with a mark, and so does what ends their object. -/
theorem exists_mark_otherFields (fields : List (String × Value)) :
    ∃ mark rest, otherFields fields ++ ['\x7d'] = mark :: rest ∧ isWordChar mark = false := by
  cases fields with
  | nil => exact ⟨'\x7d', [], rfl, rfl⟩
  | cons field rest => exact ⟨',', _, rfl, rfl⟩

theorem scan?_otherFields (fields : List (String × Value)) :
    scan? .between (otherFields fields ++ ['\x7d']) = some (otherTokens fields) := by
  induction fields with
  | nil => rfl
  | cons field fields ih =>
      obtain ⟨name, value⟩ := field
      obtain ⟨mark, rest, hRest, hMark⟩ := exists_mark_otherFields fields
      have hComma : begin? ',' = some ([.comma], .between) := rfl
      rw [otherFields, List.cons_append, List.cons_append, List.append_assoc, scan?_mark hComma,
        hRest, scan?_field name value hMark, ← hRest, ih]
      rfl

/-- A written object is read back. -/
theorem tokens?_object (fields : List (String × Value)) :
    tokens? (object fields) = some (objectTokens fields) := by
  cases fields with
  | nil => rfl
  | cons field fields =>
      obtain ⟨name, value⟩ := field
      obtain ⟨mark, rest, hRest, hMark⟩ := exists_mark_otherFields fields
      have hOpen : begin? '\x7b' = some ([.opening .object], .between) := rfl
      rw [tokens?, object, List.cons_append, List.cons_append, List.append_assoc,
        scan?_mark hOpen, hRest, scan?_field name value hMark, ← hRest, scan?_otherFields]
      rfl

end Json

end HostTree
