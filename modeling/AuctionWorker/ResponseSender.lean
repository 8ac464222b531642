import AuctionWorker.Model
import AuctionWorker.ShortestDecimal
import AuctionWorker.Utf8

/-!
# The winner responses

The bodies that `sendWinnerResponse` writes in `cpp/src/server`, `golang/server`
and `python/server`, in bytes. C++ holds its strings in bytes and passes them on;
Go and Python write characters, which are encoded in UTF-8.

All three write the members in one order and without blanks. They differ in the
characters that they escape, and in the price: a price is read as a double, and
the shortest decimal that reads back as this double is printed, to which
rapidjson and Python add `.0` if it is whole, and Go does not. No price is large
or small enough to be printed with an exponent. So the bodies for alphanumeric
strings are the same exactly if the price is not whole (`sameBody_iff`).

A failing `evbuffer_new` and an error of `json.Marshal`, which a finite price
does not cause, are not modelled.
-/

namespace AuctionWorker

open Text

variable {χ ψ : Type}

/-- Apply `f` to the strings of a response. -/
def Response.mapText (f : List χ → List ψ) (response : Response χ) : Response ψ where
  auctionId := f response.auctionId
  ads := f response.ads
  price := response.price

/-! ## JSON texts -/

/-- The escapes with one letter, by the code of the escaped unit. -/
def shortEscape : ℕ → Option (List Char)
  | 0x22 => some ['\\', Char.ofNat 0x22]
  | 0x5c => some ['\\', '\\']
  | 0x08 => some ['\\', 'b']
  | 0x0c => some ['\\', 'f']
  | 0x0a => some ['\\', 'n']
  | 0x0d => some ['\\', 'r']
  | 0x09 => some ['\\', 't']
  | _ => none

/-- The escape with four hexadecimal digits. -/
def hexEscape (digit : ℕ → Char) (code : ℕ) : List Char :=
  ['\\', 'u', digit (code / 0x1000 % 16), digit (code / 0x100 % 16), digit (code / 0x10 % 16),
    digit (code % 16)]

section CodeUnit

variable [CodeUnit χ]

/-- A text of ASCII characters in units. -/
def units (text : List Char) : List χ :=
  text.map CodeUnit.ofChar

/-- A unit that is not escaped is written as it is. -/
def quote (escape : χ → Option (List Char)) (s : List χ) : List χ :=
  units [Char.ofNat 0x22]
    ++ s.flatMap (fun c => ((escape c).map units).getD [c])
    ++ units [Char.ofNat 0x22]

/-- The members of a winner response, whose texts are given. -/
def winnerObject (auctionId ads price : List χ) : List χ :=
  ascii "\x7b\"auction_id\":" ++ auctionId ++ ascii ",\"ads\":" ++ ads ++ ascii ",\"price\":"
    ++ price ++ ascii "\x7d"

end CodeUnit

/-- The price as a double. -/
def priceDouble (price : ℕ) : ℚ :=
  Float64.ofRat (price / 10 ^ 4)

/-- Comparing the doubles of two prices compares the prices. -/
theorem priceDouble_lt_iff {a b : ℕ} (ha : a < 10 ^ 15) (hb : b < 10 ^ 15) :
    priceDouble a < priceDouble b ↔ a < b := by
  have hgrid : (0 : ℚ) < (10 ^ 4)⁻¹ := by positivity
  rw [priceDouble, priceDouble, div_eq_mul_inv, div_eq_mul_inv]
  constructor
  · intro hlt
    by_contra hge
    rcases (not_lt.mp hge).lt_or_eq with hgt | heq
    · exact absurd hlt (Float64.ofRat_lt_ofRat hgrid hb hgt).not_gt
    · rw [heq] at hlt
      exact lt_irrefl _ hlt
  · exact fun h => Float64.ofRat_lt_ofRat hgrid ha h

/-! ## `sendWinnerResponse` -/

namespace Cpp

/-- `rapidjson::Writer` on a byte of a string -/
def escape (c : UInt8) : Option (List Char) :=
  shortEscape c.toNat <|>
    if c.toNat < 0x20 then some (hexEscape (fun digit => (Nat.digitChar digit).toUpper) c.toNat)
    else none

/-- `writer.Double(price)` -/
def double (price : ℕ) : List Char :=
  (Float64.shortest (priceDouble price)).text ['.', '0']

def sendWinnerResponse (response : Response UInt8) : List UInt8 :=
  winnerObject (quote escape response.auctionId) (quote escape response.ads)
    (units (double response.price))

end Cpp

namespace Go

/-- `encoding/json` on a character of a string, with HTML escapes -/
def escape (c : Char) : Option (List Char) :=
  shortEscape c.toNat <|>
    if c.toNat < 0x20 ∨ c ∈ ['<', '>', '&'] ∨ c.toNat = 0x2028 ∨ c.toNat = 0x2029 then
      some (hexEscape Nat.digitChar c.toNat)
    else none

/-- `encoding/json` on a `float64` -/
def double (price : ℕ) : List Char :=
  (Float64.shortest (priceDouble price)).text []

/-- `json.Marshal(response)` -/
def sendWinnerResponse (response : Response Char) : List UInt8 :=
  utf8 (winnerObject (quote escape response.auctionId) (quote escape response.ads)
    (units (double response.price)))

end Go

namespace Py

/-- A character beyond the basic plane is a pair of surrogates. -/
def unicodeEscape (code : ℕ) : List Char :=
  if code < 0x10000 then hexEscape Nat.digitChar code
  else hexEscape Nat.digitChar (0xd800 + (code - 0x10000) / 0x400)
    ++ hexEscape Nat.digitChar (0xdc00 + (code - 0x10000) % 0x400)

/-- `json.dumps` on a character of a string, with `ensure_ascii` -/
def escape (c : Char) : Option (List Char) :=
  shortEscape c.toNat <|>
    if 0x20 ≤ c.toNat ∧ c.toNat ≤ 0x7e then none else some (unicodeEscape c.toNat)

/-- `json.dumps` on a float -/
def double (price : ℕ) : List Char :=
  (Float64.shortest (priceDouble price)).text ['.', '0']

def sendWinnerResponse (response : Response Char) : List UInt8 :=
  utf8 (winnerObject (quote escape response.auctionId) (quote escape response.ads)
    (units (double response.price)))

end Py

/-! ## Alphanumeric strings -/

/-- The codes of the ASCII letters and digits. -/
def AlphanumCode (code : ℕ) : Prop :=
  (0x30 ≤ code ∧ code ≤ 0x39) ∨ (0x41 ≤ code ∧ code ≤ 0x5a) ∨ (0x61 ≤ code ∧ code ≤ 0x7a)

theorem alphanumCode {c : Char} (h : c.isAlphanum) : AlphanumCode c.toNat := by
  simp only [Char.isAlphanum, Char.isAlpha, Char.isUpper, Char.isLower, Char.isDigit,
    Bool.or_eq_true, Bool.and_eq_true, decide_eq_true_eq, UInt32.le_iff_toNat_le, ge_iff_le] at h
  have hcode : c.toNat = c.val.toNat := rfl
  rw [AlphanumCode, hcode]
  rcases h with (⟨hlow, hhigh⟩ | ⟨hlow, hhigh⟩) | ⟨hlow, hhigh⟩
  · exact Or.inr (Or.inl ⟨hlow, hhigh⟩)
  · exact Or.inr (Or.inr ⟨hlow, hhigh⟩)
  · exact Or.inl ⟨hlow, hhigh⟩

theorem AlphanumCode.shortEscape {code : ℕ} (h : AlphanumCode code) : shortEscape code = none := by
  unfold AlphanumCode at h
  unfold AuctionWorker.shortEscape
  split <;> first | rfl | omega

theorem Cpp.escape_eq_none {c : Char} (h : c.isAlphanum) :
    Cpp.escape (CodeUnit.ofChar c) = none := by
  have hcode := alphanumCode h
  have hbyte : (CodeUnit.ofChar c : UInt8).toNat = c.toNat := by
    have hmod : (CodeUnit.ofChar c : UInt8).toNat = c.toNat % 256 := UInt8.toNat_ofNat'
    unfold AlphanumCode at hcode
    omega
  rw [Cpp.escape, hbyte, hcode.shortEscape, if_neg (by unfold AlphanumCode at hcode; omega)]
  rfl

theorem Go.escape_eq_none {c : Char} (h : c.isAlphanum) : Go.escape c = none := by
  have hcode := alphanumCode h
  have hnot : ¬(c.toNat < 0x20 ∨ c ∈ ['<', '>', '&'] ∨ c.toNat = 0x2028 ∨ c.toNat = 0x2029) := by
    unfold AlphanumCode at hcode
    rintro (hlow | hmem | hline | hparagraph)
    · omega
    · simp only [List.mem_cons, List.not_mem_nil, or_false] at hmem
      rcases hmem with rfl | rfl | rfl <;> revert h <;> decide
    · omega
    · omega
  rw [Go.escape, hcode.shortEscape, if_neg hnot]
  rfl

theorem Py.escape_eq_none {c : Char} (h : c.isAlphanum) : Py.escape c = none := by
  have hcode := alphanumCode h
  rw [Py.escape, hcode.shortEscape, if_pos (by unfold AlphanumCode at hcode; omega)]
  rfl

/-! ## The bodies -/

section CodeUnit

variable [CodeUnit χ]

theorem quote_eq {escape : χ → Option (List Char)} {s : List χ} (h : ∀ c ∈ s, escape c = none) :
    quote escape s = units [Char.ofNat 0x22] ++ s ++ units [Char.ofNat 0x22] := by
  have hflat : s.flatMap (fun c => ((escape c).map units).getD [c]) = s := by
    induction s with
    | nil => rfl
    | cons c s ih =>
        rw [List.forall_mem_cons] at h
        rw [List.flatMap_cons, h.1, ih h.2]
        rfl
  rw [quote, hflat]

@[simp] theorem units_char (text : List Char) : (units text : List Char) = text :=
  List.map_id text

theorem units_append (s t : List Char) : (units (s ++ t) : List χ) = units s ++ units t :=
  List.map_append

/-- In units of ASCII characters, every writer writes the same. -/
theorem winnerObject_units (auctionId ads price : List Char) :
    winnerObject (units auctionId) (units ads) (units price)
      = (units (winnerObject auctionId ads price) : List χ) := by
  have hascii : ∀ s : String, (ascii s : List χ) = units (ascii s) := by
    intro s
    exact (congrArg (List.map CodeUnit.ofChar) (List.map_id s.toList)).symm
  simp only [winnerObject, units_append, ← hascii]

end CodeUnit

/-! ### ASCII texts -/

def IsAscii (text : List Char) : Prop :=
  ∀ c ∈ text, c.toNat < 128

theorem isAscii_of_all {text : List Char} (h : (text.all fun c => c.toNat < 128) = true) :
    IsAscii text := by
  simpa only [IsAscii, List.all_eq_true, decide_eq_true_eq] using h

theorem IsAscii.append {s t : List Char} (hs : IsAscii s) (ht : IsAscii t) : IsAscii (s ++ t) :=
  List.forall_mem_append.mpr ⟨hs, ht⟩

theorem isAscii_of_isAlphanum {s : List Char} (h : ∀ c ∈ s, c.isAlphanum) : IsAscii s := by
  intro c hc
  have hcode := alphanumCode (h c hc)
  unfold AlphanumCode at hcode
  omega

theorem isAscii_positional {whole : List Char} (hwhole : IsAscii whole) (m places : ℕ) :
    IsAscii (Float64.positional whole m places) := by
  intro c hc
  rcases Float64.mem_positional hc with hdigit | rfl | hmem
  · exact isAscii_of_isAlphanum (s := [c]) (by simp [Char.isAlphanum, hdigit]) c
      (List.mem_singleton_self c)
  · decide
  · exact hwhole c hmem

theorem utf8_units {text : List Char} (h : IsAscii text) : utf8 text = units text :=
  utf8_of_ascii h

/-! ### One text for all bodies -/

/-- An alphanumeric string in quotes. -/
def quotes (s : List Char) : List Char :=
  [Char.ofNat 0x22] ++ s ++ [Char.ofNat 0x22]

/-- The bytes of an alphanumeric string are not escaped. -/
theorem Cpp.quote_utf8 {s : List Char} (hs : ∀ c ∈ s, c.isAlphanum) :
    quote Cpp.escape (utf8 s) = units (quotes s) := by
  have hnone : ∀ b ∈ (units s : List UInt8), Cpp.escape b = none := by
    intro b hb
    obtain ⟨c, hc, rfl⟩ := List.mem_map.mp hb
    exact Cpp.escape_eq_none (hs c hc)
  rw [utf8_units (isAscii_of_isAlphanum hs), quote_eq hnone, quotes, units_append, units_append]

/-- The text of an alphanumeric response, in which `whole` follows a whole price. -/
def winnerText (whole : List Char) (response : Response Char) : List Char :=
  winnerObject (quotes response.auctionId) (quotes response.ads)
    (Float64.positional whole response.price 4)

/-- What the bodies are compared for: the strings are alphanumeric, and the price is
a value of its column. -/
structure Plain (response : Response Char) : Prop where
  auctionId : ∀ c ∈ response.auctionId, c.isAlphanum
  ads : ∀ c ∈ response.ads, c.isAlphanum
  price : response.price < 10 ^ 15

section Plain

variable {response : Response Char} (h : Plain response)

include h

theorem isAscii_winnerText {whole : List Char} (hwhole : IsAscii whole) :
    IsAscii (winnerText whole response) := by
  have hquotes : ∀ s : List Char, (∀ c ∈ s, c.isAlphanum) → IsAscii (quotes s) := fun s hs =>
    ((isAscii_of_all rfl).append (isAscii_of_isAlphanum hs)).append (isAscii_of_all rfl)
  have hauctionId := IsAscii.append (s := ascii "\x7b\"auction_id\":") (isAscii_of_all rfl)
    (hquotes _ h.auctionId)
  have hads := (hauctionId.append (t := ascii ",\"ads\":") (isAscii_of_all rfl)).append
    (hquotes _ h.ads)
  have hprice := (hads.append (t := ascii ",\"price\":") (isAscii_of_all rfl)).append
    (isAscii_positional hwhole response.price 4)
  exact hprice.append (isAscii_of_all rfl)

theorem Go.sendWinnerResponse_plain :
    Go.sendWinnerResponse response = utf8 (winnerText [] response) := by
  have hdouble : Go.double response.price = Float64.positional [] response.price 4 :=
    Float64.text_shortest h.price []
  rw [Go.sendWinnerResponse, quote_eq fun c hc => Go.escape_eq_none (h.auctionId c hc),
    quote_eq fun c hc => Go.escape_eq_none (h.ads c hc), hdouble]
  simp only [units_char]
  rfl

theorem Py.sendWinnerResponse_plain :
    Py.sendWinnerResponse response = utf8 (winnerText ['.', '0'] response) := by
  have hdouble : Py.double response.price = Float64.positional ['.', '0'] response.price 4 :=
    Float64.text_shortest h.price ['.', '0']
  rw [Py.sendWinnerResponse, quote_eq fun c hc => Py.escape_eq_none (h.auctionId c hc),
    quote_eq fun c hc => Py.escape_eq_none (h.ads c hc), hdouble]
  simp only [units_char]
  rfl

theorem Cpp.sendWinnerResponse_plain :
    Cpp.sendWinnerResponse (response.mapText utf8) = utf8 (winnerText ['.', '0'] response) := by
  have hdouble : Cpp.double response.price = Float64.positional ['.', '0'] response.price 4 :=
    Float64.text_shortest h.price ['.', '0']
  rw [utf8_units (isAscii_winnerText h (isAscii_of_all rfl)), winnerText, ← winnerObject_units,
    ← Cpp.quote_utf8 h.auctionId, ← Cpp.quote_utf8 h.ads, ← hdouble]
  rfl

end Plain

/-- The three bodies are the same bytes. -/
def SameBody (response : Response Char) : Prop :=
  Cpp.sendWinnerResponse (response.mapText utf8) = Go.sendWinnerResponse response
    ∧ Go.sendWinnerResponse response = Py.sendWinnerResponse response

/-- What follows a whole price shows only if the price is whole. -/
theorem winnerText_inj_iff {response : Response Char} :
    winnerText [] response = winnerText ['.', '0'] response ↔ ¬10 ^ 4 ∣ response.price := by
  rw [← Float64.fraction_eq_nil_iff]
  simp only [winnerText, winnerObject, Float64.positional, List.append_assoc,
    List.append_cancel_left_eq]
  by_cases hwhole : Float64.fraction response.price 4 = []
  · simp [hwhole, ascii]
  · simp [hwhole]

/-- **The same bytes.** For alphanumeric strings and any price of its column, the
three bodies are the same exactly if the price is not a whole number. -/
theorem sameBody_iff {response : Response Char} (h : Plain response) :
    SameBody response ↔ ¬10 ^ 4 ∣ response.price := by
  rw [SameBody, Cpp.sendWinnerResponse_plain h, Go.sendWinnerResponse_plain h,
    Py.sendWinnerResponse_plain h, utf8_injective.eq_iff, utf8_injective.eq_iff,
    eq_comm (a := winnerText ['.', '0'] response), and_self]
  exact winnerText_inj_iff

/-! ## Two prices -/

/-- A response at the price 5.0000. -/
def wholeResponse : Response Char :=
  ⟨"auction".toList, "second".toList, 50000⟩

theorem plain_wholeResponse : Plain wholeResponse :=
  ⟨List.all_eq_true.mp rfl, List.all_eq_true.mp rfl, by decide⟩

/-- Go writes `5`, the others `5.0`. -/
theorem not_sameBody_wholeResponse :
    Cpp.sendWinnerResponse (wholeResponse.mapText utf8)
        = utf8 (ascii "\x7b\"auction_id\":\"auction\",\"ads\":\"second\",\"price\":5.0\x7d")
      ∧ Go.sendWinnerResponse wholeResponse
        = utf8 (ascii "\x7b\"auction_id\":\"auction\",\"ads\":\"second\",\"price\":5\x7d")
      ∧ ¬SameBody wholeResponse := by
  have hcpp := Cpp.sendWinnerResponse_plain plain_wholeResponse
  have hgo := Go.sendWinnerResponse_plain plain_wholeResponse
  refine ⟨hcpp.trans (congrArg utf8 (by decide)), hgo.trans (congrArg utf8 (by decide)), ?_⟩
  intro hsame
  rw [SameBody, hcpp, hgo, utf8_injective.eq_iff] at hsame
  exact winnerText_inj_iff.mp hsame.1.symm (by decide)

/-- A response at the price 2.7182. -/
theorem sameBody_iff_fraction :
    Plain ⟨"auction".toList, "first".toList, 27182⟩
      ∧ (SameBody ⟨"auction".toList, "first".toList, 27182⟩ ↔ ¬10 ^ 4 ∣ 27182) := by
  have hplain : Plain ⟨"auction".toList, "first".toList, 27182⟩ :=
    ⟨List.all_eq_true.mp rfl, List.all_eq_true.mp rfl, by decide⟩
  exact ⟨hplain, sameBody_iff hplain⟩

end AuctionWorker
