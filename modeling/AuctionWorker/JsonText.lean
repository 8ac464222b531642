import AuctionWorker.Json
import AuctionWorker.ShortestDecimal

/-!
# JSON texts

What a text says, as a function from texts to documents (`read`): strings with
their escapes, surrogate pairs included, numbers, arrays and objects, with blanks
between the tokens. A text that is no JSON, or that escapes half a surrogate pair,
says nothing.

Two things are read back here. A string in quotes is, for any choice of escapes that
are read back one by one (`Escapes`, `quoted?_flatMap`): all escapes with one letter
are, and those with hexadecimal digits (`char?_unicode`), a pair of them for a
character beyond the basic plane (`char?_surrogates`). A number in positional notation
is, up to where it stops (`numberText?_int`, `numberText?_decimal`).
-/

namespace AuctionWorker

namespace JsonText

/-! ## Characters of a string -/

def quoteMark : Char :=
  Char.ofNat 0x22

def isBlank (c : Char) : Bool :=
  c = ' ' || c = '\t' || c = '\n' || c = '\r'

def skipBlank (text : List Char) : List Char :=
  text.dropWhile isBlank

def hexDigit? (c : Char) : Option ℕ :=
  if '0' ≤ c ∧ c ≤ '9' then some (c.toNat - 0x30)
  else if 'a' ≤ c ∧ c ≤ 'f' then some (c.toNat - 0x57)
  else if 'A' ≤ c ∧ c ≤ 'F' then some (c.toNat - 0x37)
  else none

/-- Four hexadecimal digits. -/
def hex4? : List Char → Option (ℕ × List Char)
  | a :: b :: c :: d :: rest => do
      let a ← hexDigit? a
      let b ← hexDigit? b
      let c ← hexDigit? c
      let d ← hexDigit? d
      pure (a * 0x1000 + b * 0x100 + c * 0x10 + d, rest)
  | _ => none

/-- After a high surrogate, the low one. -/
def lowSurrogate? : List Char → Option (ℕ × List Char)
  | a :: b :: rest =>
      if a = '\\' ∧ b = 'u' then do
        let (low, rest) ← hex4? rest
        if 0xdc00 ≤ low ∧ low < 0xe000 then pure (low, rest) else none
      else none
  | _ => none

/-- After `\u`. -/
def unicode? (text : List Char) : Option (Char × List Char) := do
  let (code, rest) ← hex4? text
  if 0xd800 ≤ code ∧ code < 0xdc00 then
    let (low, rest) ← lowSurrogate? rest
    pure (Char.ofNat (0x10000 + (code - 0xd800) * 0x400 + (low - 0xdc00)), rest)
  else if 0xdc00 ≤ code ∧ code < 0xe000 then none
  else pure (Char.ofNat code, rest)

/-- The escapes with one letter. -/
def unescape? (letter : Char) : Option Char :=
  if letter = quoteMark ∨ letter = '\\' ∨ letter = '/' then some letter
  else if letter = 'b' then some (Char.ofNat 0x08)
  else if letter = 'f' then some (Char.ofNat 0x0c)
  else if letter = 'n' then some '\n'
  else if letter = 'r' then some '\r'
  else if letter = 't' then some '\t'
  else none

/-- After a backslash. -/
def escape? : List Char → Option (Char × List Char)
  | [] => none
  | letter :: rest =>
      if letter = 'u' then unicode? rest else (unescape? letter).map fun c => (c, rest)

/-- One character of a string. -/
def char? : List Char → Option (Char × List Char)
  | [] => none
  | c :: rest =>
      if c = quoteMark ∨ c.toNat < 0x20 then none
      else if c = '\\' then escape? rest
      else some (c, rest)

/-- The rest of a string, up to the closing quotation mark. -/
def chars? : ℕ → List Char → Option (List Char × List Char)
  | 0, _ => none
  | fuel + 1, text =>
      if text.head? = some quoteMark then some ([], text.tail)
      else do
        let (c, rest) ← char? text
        let (s, rest) ← chars? fuel rest
        pure (c :: s, rest)

/-- A string. -/
def quoted? : List Char → Option (List Char × List Char)
  | [] => none
  | c :: rest => if c = quoteMark then chars? (rest.length + 1) rest else none

/-! ## Numbers -/

def sign : List Char → ℤ × List Char
  | [] => (1, [])
  | c :: rest => if c = '-' then (-1, rest) else (1, c :: rest)

/-- Digits without a leading zero. -/
def whole? (text : List Char) : Option (List Char × List Char) :=
  let digits := text.takeWhile Char.isDigit
  if digits = [] ∨ (digits.head? = some '0' ∧ digits ≠ ['0']) then none
  else some (digits, text.dropWhile Char.isDigit)

def fraction? : List Char → Option (List Char × List Char)
  | [] => some ([], [])
  | c :: rest =>
      if c = '.' then
        let digits := rest.takeWhile Char.isDigit
        if digits = [] then none else some (digits, rest.dropWhile Char.isDigit)
      else some ([], c :: rest)

def exponentSign : List Char → ℤ × List Char
  | [] => (1, [])
  | c :: rest => if c = '+' then (1, rest) else sign (c :: rest)

def exponent? : List Char → Option (Option ℤ × List Char)
  | [] => some (none, [])
  | c :: rest =>
      if c = 'e' ∨ c = 'E' then
        let (s, rest) := exponentSign rest
        let digits := rest.takeWhile Char.isDigit
        if digits = [] then none
        else some (some (s * Nat.ofDigitChars 10 digits 0), rest.dropWhile Char.isDigit)
      else some (none, c :: rest)

def numberText? (text : List Char) : Option (Json Char × List Char) := do
  let (s, text) := sign text
  let (whole, text) ← whole? text
  let (fraction, text) ← fraction? text
  let (exponent, text) ← exponent? text
  let number : Json Char :=
    if fraction = [] ∧ exponent = none then .int (s * Nat.ofDigitChars 10 whole 0)
    else .decimal (s * Nat.ofDigitChars 10 (whole ++ fraction) 0)
      (exponent.getD 0 - fraction.length)
  pure (number, text)

/-! ## Values -/

/-- A literal name, or a number. -/
def scalar? (text : List Char) : Option (Json Char × List Char) :=
  if ['t', 'r', 'u', 'e'] <+: text then some (.bool true, text.drop 4)
  else if ['f', 'a', 'l', 's', 'e'] <+: text then some (.bool false, text.drop 5)
  else if ['n', 'u', 'l', 'l'] <+: text then some (.null, text.drop 4)
  else numberText? text

mutual

/-- One value. The fuel bounds the elements and members that are still to be read. -/
def value? : ℕ → List Char → Option (Json Char × List Char)
  | 0, _ => none
  | fuel + 1, text =>
      match skipBlank text with
      | [] => none
      | c :: rest =>
          if c = quoteMark then (quoted? (c :: rest)).map fun s => (.str s.1, s.2)
          else if c = '[' then
            if (skipBlank rest).head? = some ']' then some (.arr [], (skipBlank rest).tail)
            else (elements? fuel rest).map fun elements => (.arr elements.1, elements.2)
          else if c = '\x7b' then
            if (skipBlank rest).head? = some '\x7d' then some (.obj [], (skipBlank rest).tail)
            else (members? fuel rest).map fun members => (.obj members.1, members.2)
          else scalar? (c :: rest)

/-- The elements of an array that is not empty, and its closing bracket. -/
def elements? : ℕ → List Char → Option (List (Json Char) × List Char)
  | 0, _ => none
  | fuel + 1, text => do
      let (element, rest) ← value? fuel text
      match skipBlank rest with
      | [] => none
      | c :: rest =>
          if c = ',' then do
            let (elements, rest) ← elements? fuel rest
            pure (element :: elements, rest)
          else if c = ']' then pure ([element], rest)
          else none

/-- The members of an object that is not empty, and its closing brace. -/
def members? : ℕ → List Char → Option (List (List Char × Json Char) × List Char)
  | 0, _ => none
  | fuel + 1, text => do
      let (name, rest) ← quoted? (skipBlank text)
      if (skipBlank rest).head? = some ':' then
        let (value, rest) ← value? fuel (skipBlank rest).tail
        match skipBlank rest with
        | [] => none
        | c :: rest =>
            if c = ',' then do
              let (members, rest) ← members? fuel rest
              pure ((name, value) :: members, rest)
            else if c = '\x7d' then pure ([(name, value)], rest)
            else none
      else none

end

/-- What a whole text says. -/
def read (text : List Char) : Option (Json Char) := do
  let (document, rest) ← value? (text.length + 1) text
  if skipBlank rest = [] then pure document else none

/-! ## Reading strings back -/

/-- What is written for a character is read as this character. -/
def Escapes (written : Char → List Char) : Prop :=
  ∀ c rest, char? (written c ++ rest) = some (c, rest)

section Escapes

variable {written : Char → List Char} (h : Escapes written)

include h

theorem Escapes.ne_nil (c : Char) : written c ≠ [] := by
  intro hnil
  have hread := h c []
  rw [hnil] at hread
  cases hread

/-- No character is written with a leading quotation mark. -/
theorem Escapes.head?_ne (c : Char) (rest : List Char) :
    (written c ++ rest).head? ≠ some quoteMark := by
  intro hquote
  have hread := h c rest
  cases htext : written c ++ rest with
  | nil =>
      rw [htext] at hquote
      cases hquote
  | cons d text =>
      rw [htext] at hquote hread
      rw [char?, if_pos (Or.inl (Option.some.inj hquote))] at hread
      cases hread

theorem chars?_flatMap (s rest : List Char) {fuel : ℕ} (hfuel : s.length < fuel) :
    chars? fuel (s.flatMap written ++ quoteMark :: rest) = some (s, rest) := by
  induction s generalizing fuel with
  | nil =>
      obtain ⟨fuel, rfl⟩ := Nat.exists_eq_add_of_lt hfuel
      rfl
  | cons c s ih =>
      obtain ⟨fuel, rfl⟩ := Nat.exists_eq_succ_of_ne_zero (Nat.ne_zero_of_lt hfuel)
      rw [List.flatMap_cons, List.append_assoc, chars?, if_neg (h.head?_ne c _), h c]
      simp only [Option.bind_eq_bind, Option.bind_some, ih (Nat.lt_of_succ_lt_succ hfuel)]
      rfl

theorem Escapes.length_le (s : List Char) : s.length ≤ (s.flatMap written).length := by
  induction s with
  | nil => exact Nat.zero_le _
  | cons c s ih =>
      have hpos := List.length_pos_iff.mpr (h.ne_nil c)
      rw [List.flatMap_cons, List.length_append, List.length_cons]
      omega

/-- **Strings.** A string between quotation marks is read back. -/
theorem quoted?_flatMap (s rest : List Char) :
    quoted? (quoteMark :: (s.flatMap written ++ quoteMark :: rest)) = some (s, rest) := by
  have hlength := h.length_le s
  rw [quoted?, if_pos rfl]
  refine chars?_flatMap h s rest ?_
  rw [List.length_append]
  omega

end Escapes

/-! ### Escapes with hexadecimal digits -/

/-- The character of a code that is no surrogate. -/
theorem char?_unicode {a b c d : Char} {i j k l code : ℕ} (ha : hexDigit? a = some i)
    (hb : hexDigit? b = some j) (hc : hexDigit? c = some k) (hd : hexDigit? d = some l)
    (hcode : i * 0x1000 + j * 0x100 + k * 0x10 + l = code)
    (hplain : ¬(0xd800 ≤ code ∧ code < 0xe000)) (rest : List Char) :
    char? ('\\' :: 'u' :: a :: b :: c :: d :: rest) = some (Char.ofNat code, rest) := by
  have hhex : hex4? (a :: b :: c :: d :: rest) = some (code, rest) := by
    simp [hex4?, ha, hb, hc, hd, hcode]
  have hhigh : ¬(0xd800 ≤ code ∧ code < 0xdc00) := by omega
  have hlow : ¬(0xdc00 ≤ code ∧ code < 0xe000) := by omega
  rw [char?, if_neg (by decide), if_pos rfl, escape?, if_pos rfl]
  simp only [unicode?, hhex, Option.bind_eq_bind, Option.bind_some, if_neg hhigh,
    if_neg hlow]
  rfl

/-- Two surrogates are one character. -/
theorem char?_surrogates {a b c d e f g h : Char} {i j k l i' j' k' l' high low : ℕ}
    (ha : hexDigit? a = some i) (hb : hexDigit? b = some j) (hc : hexDigit? c = some k)
    (hd : hexDigit? d = some l) (he : hexDigit? e = some i') (hf : hexDigit? f = some j')
    (hg : hexDigit? g = some k') (hh : hexDigit? h = some l')
    (hhigh : i * 0x1000 + j * 0x100 + k * 0x10 + l = high)
    (hlow : i' * 0x1000 + j' * 0x100 + k' * 0x10 + l' = low)
    (hhigh' : 0xd800 ≤ high ∧ high < 0xdc00) (hlow' : 0xdc00 ≤ low ∧ low < 0xe000)
    (rest : List Char) :
    char? ('\\' :: 'u' :: a :: b :: c :: d :: '\\' :: 'u' :: e :: f :: g :: h :: rest)
      = some (Char.ofNat (0x10000 + (high - 0xd800) * 0x400 + (low - 0xdc00)), rest) := by
  have hfirst : ∀ rest, hex4? (a :: b :: c :: d :: rest) = some (high, rest) := by
    intro rest
    simp [hex4?, ha, hb, hc, hd, hhigh]
  have hsecond : hex4? (e :: f :: g :: h :: rest) = some (low, rest) := by
    simp [hex4?, he, hf, hg, hh, hlow]
  have hlowSurrogate : lowSurrogate? ('\\' :: 'u' :: e :: f :: g :: h :: rest)
      = some (low, rest) := by
    rw [lowSurrogate?, if_pos ⟨rfl, rfl⟩, hsecond]
    exact if_pos hlow'
  rw [char?, if_neg (by decide), if_pos rfl, escape?, if_pos rfl]
  simp only [unicode?, hfirst, Option.bind_eq_bind, Option.bind_some, if_pos hhigh',
    hlowSurrogate]
  rfl

/-! ## Reading numbers back -/

/-- No number goes on here. -/
def Stops (rest : List Char) : Prop :=
  ∀ c ∈ rest.head?, c.isDigit = false ∧ c ≠ '.' ∧ c ≠ 'e' ∧ c ≠ 'E'

theorem stops_nil : Stops [] := by
  intro c hc
  cases hc

theorem stops_cons {c : Char} {rest : List Char}
    (h : c.isDigit = false ∧ c ≠ '.' ∧ c ≠ 'e' ∧ c ≠ 'E') : Stops (c :: rest) := by
  intro d hd
  obtain rfl := Option.some.inj hd
  exact h

section Digits

variable {digits rest : List Char} (h : ∀ c ∈ digits, c.isDigit)
  (hrest : ∀ c ∈ rest.head?, c.isDigit = false)

include h hrest

theorem takeWhile_digits : (digits ++ rest).takeWhile Char.isDigit = digits := by
  rw [List.takeWhile_append_of_pos h]
  cases rest with
  | nil => simp
  | cons c rest => rw [List.takeWhile_cons_of_neg (by simp [hrest c rfl]), List.append_nil]

theorem dropWhile_digits : (digits ++ rest).dropWhile Char.isDigit = rest := by
  rw [List.dropWhile_append_of_pos h]
  cases rest with
  | nil => rfl
  | cons c rest => exact List.dropWhile_cons_of_neg (by simp [hrest c rfl])

end Digits

theorem Stops.no_digit {rest : List Char} (h : Stops rest) :
    ∀ c ∈ rest.head?, c.isDigit = false :=
  fun c hc => (h c hc).1

theorem Stops.fraction? {rest : List Char} (h : Stops rest) : fraction? rest = some ([], rest) := by
  cases rest with
  | nil => rfl
  | cons c rest => rw [JsonText.fraction?, if_neg (h c rfl).2.1]

theorem Stops.exponent? {rest : List Char} (h : Stops rest) :
    exponent? rest = some (none, rest) := by
  cases rest with
  | nil => rfl
  | cons c rest =>
      rw [JsonText.exponent?, if_neg fun he => he.elim (h c rfl).2.2.1 (h c rfl).2.2.2]

/-! ### Whole numbers -/

theorem isDigit_of_mem_toDigits {c : Char} {n : ℕ} (h : c ∈ Nat.toDigits 10 n) : c.isDigit :=
  Nat.isDigit_of_mem_toDigits (by norm_num) (by norm_num) h

/-- Only 0 is written with a leading zero. -/
theorem head?_toDigits (n : ℕ) (h : (Nat.toDigits 10 n).head? = some '0') : n = 0 := by
  induction n using Nat.strongRecOn with
  | ind n ih =>
      rcases Nat.lt_or_ge n 10 with hlt | hge
      · rw [Nat.toDigits_of_lt_base hlt] at h
        exact (Float64.digitChar_eq_zero_iff hlt).mp (Option.some.inj h)
      · rw [Nat.toDigits_of_base_le (by norm_num) hge, List.head?_append,
          Option.or_of_isSome (List.isSome_head?.mpr Nat.toDigits_ne_nil)] at h
        have hzero := ih (n / 10) (by omega) h
        omega

theorem whole?_toDigits (n : ℕ) {rest : List Char} (hrest : ∀ c ∈ rest.head?, c.isDigit = false) :
    whole? (Nat.toDigits 10 n ++ rest) = some (Nat.toDigits 10 n, rest) := by
  have hdigits : ∀ c ∈ Nat.toDigits 10 n, c.isDigit := fun c hc => isDigit_of_mem_toDigits hc
  have hwhole : ¬(Nat.toDigits 10 n = []
      ∨ ((Nat.toDigits 10 n).head? = some '0' ∧ Nat.toDigits 10 n ≠ ['0'])) := by
    rintro (hnil | ⟨hhead, hne⟩)
    · exact Nat.toDigits_ne_nil hnil
    · rw [head?_toDigits n hhead] at hne
      exact hne rfl
  simp only [whole?, takeWhile_digits hdigits hrest, dropWhile_digits hdigits hrest, if_neg hwhole]

theorem sign_toDigits (n : ℕ) (rest : List Char) :
    sign (Nat.toDigits 10 n ++ rest) = (1, Nat.toDigits 10 n ++ rest) := by
  obtain ⟨c, digits, hdigits⟩ := List.exists_cons_of_ne_nil (Nat.toDigits_ne_nil (n := n) (b := 10))
  have hmem : c ∈ Nat.toDigits 10 n := hdigits ▸ List.mem_cons_self
  have hdigit := isDigit_of_mem_toDigits hmem
  rw [hdigits, List.cons_append, sign, if_neg]
  rintro rfl
  exact absurd hdigit (by decide)

/-- An integer in decimal digits. -/
def intText (n : ℤ) : List Char :=
  if n < 0 then '-' :: Nat.toDigits 10 n.natAbs else Nat.toDigits 10 n.natAbs

theorem numberText?_int (n : ℤ) {rest : List Char} (hrest : Stops rest) :
    numberText? (intText n ++ rest) = some (.int n, rest) := by
  have hsign : sign (intText n ++ rest)
      = (if n < 0 then -1 else 1, Nat.toDigits 10 n.natAbs ++ rest) := by
    unfold intText
    split
    · rfl
    · exact sign_toDigits _ _
  have hvalue : (if n < 0 then -1 else 1) * (n.natAbs : ℤ) = n := by
    split <;> omega
  simp only [numberText?, hsign, whole?_toDigits _ hrest.no_digit, hrest.fraction?, hrest.exponent?,
    Option.bind_eq_bind, Option.bind_some, true_and, ↓reduceIte, Nat.ofDigitChars_ten_toDigits,
    hvalue]
  rfl

theorem numberText?_decimal (n : ℕ) {fraction rest : List Char}
    (hfraction : ∀ c ∈ fraction, c.isDigit) (hne : fraction ≠ []) (hrest : Stops rest) :
    numberText? (Nat.toDigits 10 n ++ '.' :: fraction ++ rest)
      = some (.decimal (n * 10 ^ fraction.length + Nat.ofDigitChars 10 fraction 0 : ℕ)
          (-fraction.length), rest) := by
  have hwhole : whole? (Nat.toDigits 10 n ++ '.' :: (fraction ++ rest))
      = some (Nat.toDigits 10 n, '.' :: (fraction ++ rest)) := whole?_toDigits n (by simp)
  have hpoint : fraction? ('.' :: (fraction ++ rest)) = some (fraction, rest) := by
    simp only [fraction?, ↓reduceIte, takeWhile_digits hfraction hrest.no_digit,
      dropWhile_digits hfraction hrest.no_digit, if_neg hne]
  have hvalue : Nat.ofDigitChars 10 (Nat.toDigits 10 n ++ fraction) 0
      = n * 10 ^ fraction.length + Nat.ofDigitChars 10 fraction 0 := by
    rw [Nat.ofDigitChars_append, Nat.ofDigitChars_ten_toDigits,
      Nat.ofDigitChars_eq_ofDigitChars_zero, Nat.mul_comm]
  rw [List.append_assoc, List.cons_append]
  simp only [numberText?, sign_toDigits, hwhole, hpoint, hrest.exponent?, Option.bind_eq_bind,
    Option.bind_some, hne, false_and, ↓reduceIte, hvalue, one_mul, Option.getD_none, zero_sub]
  rfl

end JsonText

end AuctionWorker
