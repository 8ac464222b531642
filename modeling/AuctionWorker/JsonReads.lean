import AuctionWorker.JsonText

/-!
# Writing JSON texts

A writer composes the text of a document from the texts of its parts. `Reads text
document` says that `text` is read as `document` wherever something follows that
ends a number, and is closed under what writers do:

- `reads_quoted`, `reads_int`, `reads_positional`: strings, integers, and decimals
  in positional notation;
- `reads_array`, `reads_object`: elements and members, with blanks or without after
  the separators.

So a writer is correct if its escapes are (`Escapes`), whatever it writes.
-/

namespace AuctionWorker

namespace JsonText

/-- Wherever it stands, `text` is read as `document`. -/
def Reads (text : List Char) (document : Json Char) : Prop :=
  ∀ rest fuel, Stops rest → text.length ≤ fuel
    → value? fuel (text ++ rest) = some (document, rest)

/-- A text that stands alone. -/
theorem Reads.read {text : List Char} {document : Json Char} (h : Reads text document) :
    read text = some document := by
  have hvalue := h [] (text.length + 1) stops_nil (Nat.le_succ _)
  rw [List.append_nil] at hvalue
  rw [JsonText.read, hvalue]
  rfl

/-! ## Blanks -/

theorem skipBlank_cons {c : Char} (h : isBlank c = false) (rest : List Char) :
    skipBlank (c :: rest) = c :: rest :=
  List.dropWhile_cons_of_neg (by simp [h])

theorem skipBlank_append {blanks : List Char} (h : ∀ c ∈ blanks, isBlank c) (rest : List Char) :
    skipBlank (blanks ++ rest) = skipBlank rest :=
  List.dropWhile_append_of_pos h

theorem value?_congr {text text' : List Char} (h : skipBlank text = skipBlank text') (fuel : ℕ) :
    value? fuel text = value? fuel text' := by
  cases fuel with
  | zero => rw [value?, value?]
  | succ fuel => rw [value?, value?, h]

theorem Reads.blanks {blanks text : List Char} {document : Json Char} (h : Reads text document)
    (hblanks : ∀ c ∈ blanks, isBlank c) : Reads (blanks ++ text) document := by
  intro rest fuel hrest hfuel
  rw [List.length_append] at hfuel
  rw [List.append_assoc, value?_congr (skipBlank_append hblanks _)]
  exact h rest fuel hrest (Nat.le_trans (Nat.le_add_left _ _) hfuel)

/-! ## Strings and numbers -/

/-- A string between quotation marks. -/
def quoted (written : Char → List Char) (s : List Char) : List Char :=
  quoteMark :: (s.flatMap written ++ [quoteMark])

theorem quoted?_quoted {written : Char → List Char} (h : Escapes written) (s rest : List Char) :
    quoted? (quoted written s ++ rest) = some (s, rest) := by
  rw [quoted, List.cons_append, List.append_assoc]
  exact quoted?_flatMap h s rest

theorem reads_quoted {written : Char → List Char} (h : Escapes written) (s : List Char) :
    Reads (quoted written s) (.str s) := by
  intro rest fuel _ hfuel
  have hread := quoted?_quoted h s rest
  cases fuel with
  | zero => exact absurd hfuel (by simp [quoted])
  | succ fuel =>
      rw [quoted, List.cons_append] at hread ⊢
      rw [value?, skipBlank_cons (by decide)]
      dsimp only
      rw [if_pos rfl, hread]
      rfl

/-- A text with the first character of a number. -/
theorem value?_number {c : Char} (hc : c.isDigit ∨ c = '-') (text : List Char) (fuel : ℕ) :
    value? (fuel + 1) (c :: text) = numberText? (c :: text) := by
  have hother : ∀ d : Char, d.isDigit = false → d ≠ '-' → c ≠ d := by
    rintro d hdigit hminus rfl
    rw [hdigit] at hc
    exact hc.elim Bool.false_ne_true hminus
  have hblank : isBlank c = false := by
    simp [isBlank, hother ' ' (by decide) (by decide), hother '\t' (by decide) (by decide),
      hother '\n' (by decide) (by decide), hother '\r' (by decide) (by decide)]
  have hname : ∀ (d : Char) (name : List Char), d.isDigit = false → d ≠ '-' →
      ¬(d :: name <+: c :: text) := by
    intro d name hdigit hminus hprefix
    exact hother d hdigit hminus (List.cons_prefix_cons.mp hprefix).1.symm
  rw [value?, skipBlank_cons hblank]
  dsimp only
  rw [if_neg (hother _ (by decide) (by decide)), if_neg (hother _ (by decide) (by decide)),
    if_neg (hother _ (by decide) (by decide)), scalar?,
    if_neg (hname 't' ['r', 'u', 'e'] (by decide) (by decide)),
    if_neg (hname 'f' ['a', 'l', 's', 'e'] (by decide) (by decide)),
    if_neg (hname 'n' ['u', 'l', 'l'] (by decide) (by decide))]

theorem reads_number {c : Char} {text : List Char} {document : Json Char}
    (hc : c.isDigit ∨ c = '-')
    (h : ∀ rest, Stops rest → numberText? (c :: text ++ rest) = some (document, rest)) :
    Reads (c :: text) document := by
  intro rest fuel hrest hfuel
  cases fuel with
  | zero => exact absurd hfuel (by simp)
  | succ fuel =>
      rw [List.cons_append, value?_number hc]
      exact h rest hrest

theorem reads_int (n : ℤ) : Reads (intText n) (.int n) := by
  have h : ∀ rest, Stops rest → numberText? (intText n ++ rest) = some (.int n, rest) :=
    fun rest hrest => numberText?_int n hrest
  obtain ⟨c, digits, hdigits⟩ :=
    List.exists_cons_of_ne_nil (Nat.toDigits_ne_nil (n := n.natAbs) (b := 10))
  have hmem : c ∈ Nat.toDigits 10 n.natAbs := hdigits ▸ List.mem_cons_self
  unfold intText at h ⊢
  split
  case isTrue hneg =>
    rw [if_pos hneg] at h
    exact reads_number (Or.inr rfl) h
  case isFalse hneg =>
    rw [if_neg hneg, hdigits] at h
    rw [hdigits]
    exact reads_number (Or.inl (isDigit_of_mem_toDigits hmem)) h

theorem reads_decimal (n : ℕ) {fraction : List Char} (hfraction : ∀ c ∈ fraction, c.isDigit)
    (hne : fraction ≠ []) :
    Reads (Nat.toDigits 10 n ++ '.' :: fraction)
      (.decimal (n * 10 ^ fraction.length + Nat.ofDigitChars 10 fraction 0 : ℕ)
        (-fraction.length)) := by
  have h := fun (rest : List Char) (hrest : Stops rest) =>
    numberText?_decimal n hfraction hne hrest
  obtain ⟨c, digits, hdigits⟩ :=
    List.exists_cons_of_ne_nil (Nat.toDigits_ne_nil (n := n) (b := 10))
  have hmem : c ∈ Nat.toDigits 10 n := hdigits ▸ List.mem_cons_self
  rw [hdigits] at h ⊢
  exact reads_number (Or.inl (isDigit_of_mem_toDigits hmem)) h

/-- A decimal in positional notation, whether or not `.0` follows a whole number. -/
theorem reads_positional {whole : List Char} (hwhole : whole = [] ∨ whole = ['.', '0'])
    (m places : ℕ) :
    ∃ number, Reads (Float64.positional whole m places) number
      ∧ number.number? = some (m / 10 ^ places : ℚ) := by
  have hpow : (10 : ℚ) ^ places ≠ 0 := by positivity
  -- the digits before the point, and the ones after it
  have hsplit : (m / 10 ^ places : ℕ) + Nat.ofDigitChars 10 (Float64.fraction m places) 0
      / 10 ^ (Float64.fraction m places).length = (m / 10 ^ places : ℚ) := by
    have hm := Nat.div_add_mod m (10 ^ places)
    rw [Float64.ofDigitChars_fraction, eq_div_iff hpow, add_mul, div_mul_cancel₀ _ hpow]
    exact_mod_cast (Nat.mul_comm _ _ ▸ hm)
  unfold Float64.positional
  split
  case isTrue hnil =>
    rw [hnil, List.length_nil, Nat.ofDigitChars_nil, Nat.cast_zero, zero_div, add_zero] at hsplit
    rcases hwhole with rfl | rfl
    · refine ⟨.int (m / 10 ^ places : ℕ), ?_, by rw [Json.number?, ← hsplit, Int.cast_natCast]⟩
      rw [List.append_nil]
      exact reads_int (m / 10 ^ places : ℕ)
    · have hdigit : ∀ c ∈ ['0'], c.isDigit := by simp
      refine ⟨_, reads_decimal (m / 10 ^ places) hdigit (List.cons_ne_nil _ _), ?_⟩
      have hzero : Nat.ofDigitChars 10 ['0'] 0 = 0 := rfl
      rw [Json.number?, ← hsplit, Int.cast_natCast, hzero, List.length_singleton, Nat.add_zero,
        Nat.cast_mul, pow_one, Nat.cast_ofNat, Nat.cast_one, zpow_neg_one,
        mul_inv_cancel_right₀ (by norm_num)]
  case isFalse hne =>
    refine ⟨_, reads_decimal (m / 10 ^ places)
      (fun c hc => Float64.isDigit_of_mem_lastDigits ((List.rdropWhile_prefix _ _).subset hc))
      hne, ?_⟩
    rw [Json.number?, ← hsplit, Int.cast_natCast, Nat.cast_add, Nat.cast_mul, Nat.cast_pow,
      zpow_neg, zpow_natCast, add_mul, Nat.cast_ofNat, mul_inv_cancel_right₀ (by positivity),
      div_eq_mul_inv]

/-! ## Arrays -/

/-- No value begins with a closing bracket. -/
theorem Reads.head?_ne {text : List Char} {document : Json Char} (h : Reads text document)
    {rest : List Char} (hrest : Stops rest) : (skipBlank (text ++ rest)).head? ≠ some ']' := by
  intro hhead
  have hvalue := h rest (text.length + 1) hrest (Nat.le_succ _)
  rw [value?] at hvalue
  cases hskip : skipBlank (text ++ rest) with
  | nil =>
      rw [hskip] at hhead
      cases hhead
  | cons c tail =>
      rw [hskip] at hhead hvalue
      obtain rfl := Option.some.inj hhead
      cases hvalue

theorem elements?_congr {text text' : List Char} (h : skipBlank text = skipBlank text')
    (fuel : ℕ) : elements? fuel text = elements? fuel text' := by
  cases fuel with
  | zero => rw [elements?, elements?]
  | succ fuel => rw [elements?, elements?, value?_congr h]

theorem members?_congr {text text' : List Char} (h : skipBlank text = skipBlank text')
    (fuel : ℕ) : members? fuel text = members? fuel text' := by
  cases fuel with
  | zero => rw [members?, members?]
  | succ fuel => rw [members?, members?, h]

section Separated

variable {blanks : List Char} (hblanks : ∀ c ∈ blanks, isBlank c)

include hblanks

theorem elements?_intercalate {texts : List (List Char)} {documents : List (Json Char)}
    (h : List.Forall₂ Reads texts documents) (hne : texts ≠ []) (rest : List Char) {fuel : ℕ}
    (hfuel : ((',' :: blanks).intercalate texts).length < fuel) :
    elements? fuel ((',' :: blanks).intercalate texts ++ ']' :: rest) = some (documents, rest) := by
  induction h generalizing fuel with
  | nil => exact absurd rfl hne
  | @cons text document texts documents hreads htexts ih =>
      obtain ⟨fuel, rfl⟩ := Nat.exists_eq_succ_of_ne_zero (Nat.ne_zero_of_lt hfuel)
      cases htexts with
      | nil =>
          rw [List.intercalate_singleton] at hfuel ⊢
          rw [elements?, hreads _ fuel (stops_cons (by decide)) (Nat.le_of_lt_succ hfuel)]
          rfl
      | @cons next document' texts documents hnext htexts =>
          rw [List.intercalate_cons_cons] at hfuel ⊢
          simp only [List.length_append, List.length_cons] at hfuel
          have hlt : ((',' :: blanks).intercalate (next :: texts)).length < fuel := by omega
          have hread := ih (List.cons_ne_nil _ _) hlt
          rw [← elements?_congr (skipBlank_append hblanks _)] at hread
          rw [List.append_assoc, List.append_assoc, List.cons_append, elements?,
            hreads _ fuel (stops_cons (by decide)) (by omega)]
          simp only [Option.bind_eq_bind, Option.bind_some, skipBlank_cons (c := ',') (by decide),
            ↓reduceIte, hread]
          rfl

/-- An array of values that are read back. -/
theorem reads_array {texts : List (List Char)} {documents : List (Json Char)}
    (h : List.Forall₂ Reads texts documents) :
    Reads ('[' :: ((',' :: blanks).intercalate texts ++ [']'])) (.arr documents) := by
  intro rest fuel hrest hfuel
  simp only [List.length_cons, List.length_append, List.length_nil] at hfuel
  obtain ⟨fuel, rfl⟩ := Nat.exists_eq_succ_of_ne_zero (n := fuel) (by omega)
  rw [List.cons_append, List.append_assoc, List.singleton_append, value?,
    skipBlank_cons (by decide)]
  dsimp only
  rw [if_neg (by decide), if_pos rfl]
  cases h with
  | nil => rfl
  | @cons text document texts documents hreads htexts =>
      have hhead : (skipBlank ((',' :: blanks).intercalate (text :: texts) ++ ']' :: rest)).head?
          ≠ some ']' := by
        cases texts with
        | nil =>
            rw [List.intercalate_singleton]
            exact hreads.head?_ne (stops_cons (by decide))
        | cons next texts =>
            rw [List.intercalate_cons_cons, List.append_assoc, List.append_assoc, List.cons_append]
            exact hreads.head?_ne (stops_cons (by decide))
      rw [if_neg hhead, elements?_intercalate hblanks (.cons hreads htexts) (List.cons_ne_nil _ _)
        rest (by omega)]
      rfl

/-! ## Objects -/

/-- A name, a colon and the text of a value. -/
def memberText (written : Char → List Char) (blanks : List Char)
    (member : List Char × List Char) : List Char :=
  quoted written member.1 ++ ':' :: (blanks ++ member.2)

/-- A member whose value is read back. -/
def ReadsMember (text : List Char × List Char) (member : List Char × Json Char) : Prop :=
  text.1 = member.1 ∧ Reads text.2 member.2

section Members

variable {written : Char → List Char} (hwritten : Escapes written)

include hwritten

/-- One member, and what follows it. -/
theorem members?_memberText {name text : List Char} {document : Json Char}
    (h : Reads text document) {c : Char} (hblank : isBlank c = false) {rest : List Char}
    (hstops : Stops (c :: rest)) {fuel : ℕ} (hfuel : text.length ≤ fuel) :
    members? (fuel + 1) (memberText written blanks (name, text) ++ c :: rest)
      = if c = ',' then (members? fuel rest).map fun members =>
          ((name, document) :: members.1, members.2)
        else if c = '\x7d' then some ([(name, document)], rest)
        else none := by
  have hquoted := quoted?_quoted hwritten name (':' :: (blanks ++ (text ++ c :: rest)))
  have hskip : ∀ tail, skipBlank (quoted written name ++ tail) = quoted written name ++ tail :=
    fun tail => skipBlank_cons (by decide) _
  have hvalue : value? fuel (blanks ++ (text ++ c :: rest)) = some (document, c :: rest) := by
    rw [value?_congr (skipBlank_append hblanks _)]
    exact h (c :: rest) fuel hstops hfuel
  rw [memberText, List.append_assoc, List.cons_append, List.append_assoc, members?, hskip, hquoted]
  simp only [Option.bind_eq_bind, Option.bind_some, skipBlank_cons (c := ':') (by decide),
    List.head?_cons, List.tail_cons, ↓reduceIte, hvalue, skipBlank_cons hblank]
  cases members? fuel rest <;> rfl

theorem members?_intercalate {texts : List (List Char × List Char)}
    {members : List (List Char × Json Char)} (h : List.Forall₂ ReadsMember texts members)
    (hne : texts ≠ []) (rest : List Char) {fuel : ℕ}
    (hfuel : ((',' :: blanks).intercalate (texts.map (memberText written blanks))).length < fuel) :
    members? fuel ((',' :: blanks).intercalate (texts.map (memberText written blanks))
        ++ '\x7d' :: rest) = some (members, rest) := by
  induction h generalizing fuel with
  | nil => exact absurd rfl hne
  | @cons text member texts members hmember htexts ih =>
      obtain ⟨fuel, rfl⟩ := Nat.exists_eq_succ_of_ne_zero (Nat.ne_zero_of_lt hfuel)
      obtain ⟨name, text⟩ := text
      obtain ⟨name', document⟩ := member
      obtain ⟨rfl, hreads⟩ : name = name' ∧ Reads text document := hmember
      have hlength : text.length < (memberText written blanks (name, text)).length := by
        simp only [memberText, List.length_append, List.length_cons]
        omega
      cases htexts with
      | nil =>
          rw [List.map_singleton, List.intercalate_singleton] at hfuel ⊢
          rw [members?_memberText hblanks hwritten hreads (by decide) (stops_cons (by decide))
            (by omega), if_neg (by decide), if_pos rfl]
      | @cons next member' texts members hnext htexts =>
          rw [List.map_cons, List.map_cons, List.intercalate_cons_cons] at hfuel ⊢
          simp only [List.length_append, List.length_cons] at hfuel
          have hlt : ((',' :: blanks).intercalate
              ((next :: texts).map (memberText written blanks))).length < fuel := by
            rw [List.map_cons]
            omega
          have hread := ih (List.cons_ne_nil _ _) hlt
          rw [← members?_congr (skipBlank_append hblanks _), List.map_cons] at hread
          rw [List.append_assoc, List.append_assoc, List.cons_append,
            members?_memberText hblanks hwritten hreads (by decide) (stops_cons (by decide))
              (by omega), if_pos rfl, hread]
          rfl

/-- An object whose values are read back. -/
theorem reads_object {texts : List (List Char × List Char)}
    {members : List (List Char × Json Char)} (h : List.Forall₂ ReadsMember texts members) :
    Reads ('\x7b' :: ((',' :: blanks).intercalate (texts.map (memberText written blanks))
      ++ ['\x7d'])) (.obj members) := by
  intro rest fuel hrest hfuel
  simp only [List.length_cons, List.length_append, List.length_nil] at hfuel
  obtain ⟨fuel, rfl⟩ := Nat.exists_eq_succ_of_ne_zero (n := fuel) (by omega)
  rw [List.cons_append, List.append_assoc, List.singleton_append, value?,
    skipBlank_cons (by decide)]
  dsimp only
  rw [if_neg (by decide), if_neg (by decide), if_pos rfl]
  cases h with
  | nil => rfl
  | @cons text member texts members hmember htexts =>
      -- the first member begins with a quotation mark
      have hhead : (skipBlank ((',' :: blanks).intercalate
          ((text :: texts).map (memberText written blanks)) ++ '\x7d' :: rest)).head?
          = some quoteMark := by
        have hquote : ∀ tail, (skipBlank (memberText written blanks text ++ tail)).head?
            = some quoteMark := fun tail => by
          rw [memberText, quoted, List.cons_append, List.cons_append,
            skipBlank_cons (by decide)]
          rfl
        cases texts with
        | nil =>
            rw [List.map_singleton, List.intercalate_singleton]
            exact hquote _
        | cons next texts =>
            rw [List.map_cons, List.map_cons, List.intercalate_cons_cons, List.append_assoc,
              List.append_assoc]
            exact hquote _
      rw [hhead, if_neg (by decide), members?_intercalate hblanks hwritten
        (.cons hmember htexts) (List.cons_ne_nil _ _) rest (by omega)]
      rfl

end Members

end Separated

end JsonText

end AuctionWorker
