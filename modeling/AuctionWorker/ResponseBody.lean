import AuctionWorker.JsonReads
import AuctionWorker.ResponseSender
import AuctionWorker.Utf8Search

/-!
# What the winner responses say

The three bodies of a response differ in their bytes. As JSON texts they say the
same: for any Unicode strings and any price of its column, each of them is read as
an object with the `auction_id`, the `ads` and the exact price of the response
(`cpp_denotes`, `go_denotes`, `py_denotes`), and no body says two things
(`Denotes.unique`).

C++ escapes the bytes of UTF-8. As it escapes ASCII bytes only, it writes the UTF-8
of what a writer of characters would (`Cpp.quote_utf8_eq`).
-/

namespace AuctionWorker

open JsonText Text

/-! ## Escapes -/

/-- What is written for a character. -/
def written (escape : Char → Option (List Char)) (c : Char) : List Char :=
  (escape c).getD [c]

theorem quote_eq_quoted (escape : Char → Option (List Char)) (s : List Char) :
    quote escape s = quoted (written escape) s := by
  have hunits : (fun c : Char => ((escape c).map units).getD [c]) = written escape := by
    funext c
    rw [written]
    cases escape c with
    | none => rfl
    | some text => exact units_char text
  rw [quote, hunits, units_char]
  rfl

theorem char?_shortEscape {c : Char} {text : List Char} (h : shortEscape c.toNat = some text)
    (rest : List Char) : char? (text ++ rest) = some (c, rest) := by
  have hc := Char.ofNat_toNat c
  generalize c.toNat = code at h hc
  unfold shortEscape at h
  split at h
  case h_8 => cases h
  all_goals
    obtain rfl := Option.some.inj h
    rw [← hc]
    rfl

/-- A character that needs no escape. -/
theorem char?_plain {c : Char} (h : shortEscape c.toNat = none) (hlow : 0x20 ≤ c.toNat)
    (rest : List Char) : char? (c :: rest) = some (c, rest) := by
  have hquote : c ≠ quoteMark := by
    rintro rfl
    cases h
  have hbackslash : c ≠ '\\' := by
    rintro rfl
    cases h
  rw [char?, if_neg (by rintro (heq | hlt); exact hquote heq; omega), if_neg hbackslash]

/-- Hexadecimal digits in one of the cases. -/
def HexDigits (digit : ℕ → Char) : Prop :=
  ∀ i < 16, hexDigit? (digit i) = some i

theorem hexDigits_lower : HexDigits Nat.digitChar := by
  unfold HexDigits
  decide

theorem hexDigits_upper : HexDigits fun i => (Nat.digitChar i).toUpper := by
  unfold HexDigits
  decide

section HexEscape

variable {digit : ℕ → Char} (hdigit : HexDigits digit)

include hdigit

theorem char?_hexEscape {c : Char} (h : c.toNat < 0x10000) (rest : List Char) :
    char? (hexEscape digit c.toNat ++ rest) = some (c, rest) := by
  have hvalid : ¬(0xd800 ≤ c.toNat ∧ c.toNat < 0xe000) := by
    rcases c.valid with hlow | hhigh
    · exact fun hsurrogate => absurd hlow (not_lt.mpr hsurrogate.1)
    · exact fun hsurrogate => absurd hhigh.1 (not_lt.mpr (Nat.le_of_lt_succ hsurrogate.2))
  have hdigits : ∀ n, hexDigit? (digit (n % 16)) = some (n % 16) := fun n =>
    hdigit _ (Nat.mod_lt n (by norm_num))
  have hcode : c.toNat / 0x1000 % 16 * 0x1000 + c.toNat / 0x100 % 16 * 0x100
      + c.toNat / 0x10 % 16 * 0x10 + c.toNat % 16 = c.toNat := by omega
  have hread := char?_unicode (hdigits _) (hdigits _) (hdigits _) (hdigits _) hcode hvalid rest
  rw [Char.ofNat_toNat] at hread
  exact hread

/-- The two surrogates of a character beyond the basic plane. -/
theorem char?_surrogateEscape {c : Char} (h : 0x10000 ≤ c.toNat) (rest : List Char) :
    char? (hexEscape digit (0xd800 + (c.toNat - 0x10000) / 0x400)
        ++ hexEscape digit (0xdc00 + (c.toNat - 0x10000) % 0x400) ++ rest)
      = some (c, rest) := by
  have hmax : c.toNat < 0x110000 := by
    rcases c.valid with hlow | hhigh
    · exact lt_trans hlow (by norm_num)
    · exact hhigh.2
  generalize hhigh : 0xd800 + (c.toNat - 0x10000) / 0x400 = high
  generalize hlow : 0xdc00 + (c.toNat - 0x10000) % 0x400 = low
  have hdigits : ∀ n, hexDigit? (digit (n % 16)) = some (n % 16) := fun n =>
    hdigit _ (Nat.mod_lt n (by norm_num))
  have hcode : ∀ n < 0x10000, n / 0x1000 % 16 * 0x1000 + n / 0x100 % 16 * 0x100
      + n / 0x10 % 16 * 0x10 + n % 16 = n := by omega
  have hread := char?_surrogates (hdigits _) (hdigits _) (hdigits _) (hdigits _) (hdigits _)
    (hdigits _) (hdigits _) (hdigits _) (hcode high (by omega)) (hcode low (by omega))
    (by omega) (by omega) rest
  have hcode : 0x10000 + (high - 0xd800) * 0x400 + (low - 0xdc00) = c.toNat := by omega
  rw [hcode, Char.ofNat_toNat] at hread
  exact hread

end HexEscape

/-! ## The writers' escapes are read back -/

theorem Go.escapes : Escapes (written Go.escape) := by
  intro c rest
  unfold written Go.escape
  cases hshort : shortEscape c.toNat with
  | some text => exact char?_shortEscape hshort rest
  | none =>
      dsimp only [HOrElse.hOrElse, OrElse.orElse, Option.orElse]
      split
      case isTrue hcode =>
        refine char?_hexEscape hexDigits_lower ?_ rest
        rcases hcode with hlow | hhtml | hline | hparagraph
        · omega
        · simp only [List.mem_cons, List.not_mem_nil, or_false] at hhtml
          rcases hhtml with rfl | rfl | rfl <;> decide
        · omega
        · omega
      case isFalse hplain =>
        exact char?_plain hshort (not_lt.mp fun hlow => hplain (Or.inl hlow)) rest

theorem Py.escapes : Escapes (written Py.escape) := by
  intro c rest
  unfold written Py.escape
  cases hshort : shortEscape c.toNat with
  | some text => exact char?_shortEscape hshort rest
  | none =>
      dsimp only [HOrElse.hOrElse, OrElse.orElse, Option.orElse]
      split
      case isTrue hplain => exact char?_plain hshort hplain.1 rest
      case isFalse =>
        dsimp only [Option.getD_some]
        unfold Py.unicodeEscape
        split
        · exact char?_hexEscape hexDigits_lower ‹_› rest
        · exact char?_surrogateEscape hexDigits_lower (not_lt.mp ‹_›) rest

/-! ### C++: bytes -/

theorem isAscii_shortEscape {code : ℕ} {text : List Char} (h : shortEscape code = some text) :
    IsAscii text := by
  unfold shortEscape at h
  split at h
  case h_8 => cases h
  all_goals
    obtain rfl := Option.some.inj h
    exact isAscii_of_all rfl

theorem isAscii_hexEscape {digit : ℕ → Char} (hdigit : ∀ i < 16, (digit i).toNat < 128)
    (code : ℕ) : IsAscii (hexEscape digit code) := by
  have hdigits : ∀ n, (digit (n % 16)).toNat < 128 := fun n =>
    hdigit _ (Nat.mod_lt n (by norm_num))
  intro c hc
  simp only [hexEscape, List.mem_cons, List.not_mem_nil, or_false] at hc
  rcases hc with rfl | rfl | rfl | rfl | rfl | rfl
  · decide
  · decide
  all_goals exact hdigits _

namespace Cpp

/-- What the writer of bytes does to a character: nothing, unless it is ASCII. -/
def charEscape (c : Char) : Option (List Char) :=
  if c.toNat < 128 then escape (CodeUnit.ofChar c) else none

theorem toNat_ofChar {c : Char} (h : c.toNat < 128) :
    (CodeUnit.ofChar c : UInt8).toNat = c.toNat := by
  have hmod : (CodeUnit.ofChar c : UInt8).toNat = c.toNat % 256 := UInt8.toNat_ofNat'
  omega

theorem isAscii_escape {b : UInt8} {text : List Char} (h : escape b = some text) :
    IsAscii text := by
  unfold escape at h
  cases hshort : shortEscape b.toNat with
  | some text' =>
      rw [hshort] at h
      exact Option.some.inj h ▸ isAscii_shortEscape hshort
  | none =>
      rw [hshort] at h
      dsimp only [HOrElse.hOrElse, OrElse.orElse, Option.orElse] at h
      split at h
      · exact Option.some.inj h ▸ isAscii_hexEscape (by decide) _
      · cases h

theorem escape_eq_none_of_le {b : UInt8} (h : 128 ≤ b.toNat) : escape b = none := by
  have hshort : shortEscape b.toNat = none := by
    unfold shortEscape
    split <;> first | rfl | omega
  rw [escape, hshort, if_neg (by omega)]
  rfl

theorem escapes : Escapes (written charEscape) := by
  intro c rest
  unfold written charEscape
  split
  case isTrue hascii =>
    unfold escape
    rw [toNat_ofChar hascii]
    cases hshort : shortEscape c.toNat with
    | some text => exact char?_shortEscape hshort rest
    | none =>
        dsimp only [HOrElse.hOrElse, OrElse.orElse, Option.orElse]
        split
        · exact char?_hexEscape hexDigits_upper (by omega) rest
        · exact char?_plain hshort (not_lt.mp ‹_›) rest
  case isFalse hwide =>
    have hshort : shortEscape c.toNat = none := by
      unfold shortEscape
      split <;> first | rfl | omega
    exact char?_plain hshort (by omega) rest

/-- Every byte of a character that is not ASCII has its top bit set. -/
theorem le_of_mem_utf8EncodeChar {c : Char} (hc : 128 ≤ c.toNat) {b : UInt8}
    (hb : b ∈ String.utf8EncodeChar c) : 128 ≤ b.toNat := by
  have hcode : c.toNat = c.val.toNat := rfl
  have hmax : c.val.toNat < 0x110000 := by
    rcases c.valid with hlow | hhigh
    · exact lt_trans hlow (by norm_num)
    · exact hhigh.2
  revert hb
  fun_cases String.utf8EncodeChar c
  · omega
  all_goals
    simp only [List.mem_cons, List.not_mem_nil, or_false]
    intro hb
    rcases hb with rfl | rfl | rfl | rfl
  all_goals
    rw [UInt8.toNat_ofNat']
    omega

theorem flatMap_utf8EncodeChar (c : Char) :
    (String.utf8EncodeChar c).flatMap (fun b => ((escape b).map units).getD [b])
      = utf8 (written charEscape c) := by
  rcases Nat.lt_or_ge c.toNat 128 with hascii | hwide
  · rw [utf8EncodeChar_ascii hascii, List.flatMap_singleton, written, charEscape, if_pos hascii]
    cases hescape : escape (CodeUnit.ofChar c) with
    | none => exact (utf8_of_ascii (s := [c]) (by simpa using hascii)).symm
    | some text => exact (utf8_units (isAscii_escape hescape)).symm
  · have hnone : ∀ b ∈ String.utf8EncodeChar c, ((escape b).map units).getD [b] = [b] := by
      intro b hb
      rw [escape_eq_none_of_le (le_of_mem_utf8EncodeChar hwide hb)]
      rfl
    rw [List.flatMap_congr hnone, List.flatMap_singleton', written, charEscape,
      if_neg (not_lt.mpr hwide)]
    exact (List.flatMap_singleton ..).symm

/-- In bytes the C++ writer writes the UTF-8 of what `charEscape` writes. -/
theorem quote_utf8_eq (s : List Char) :
    quote escape (utf8 s) = utf8 (quoted (written charEscape) s) := by
  have hchars : (utf8 s).flatMap (fun b => ((escape b).map units).getD [b])
      = utf8 (s.flatMap (written charEscape)) := by
    rw [utf8, utf8, List.flatMap_assoc, List.flatMap_assoc]
    exact List.flatMap_congr fun c _ => flatMap_utf8EncodeChar c
  have hmark : utf8 [quoteMark] = units [quoteMark] := rfl
  have hsplit : quoted (written charEscape) s
      = [quoteMark] ++ s.flatMap (written charEscape) ++ [quoteMark] := rfl
  rw [quote, hchars, hsplit, utf8_append, utf8_append, hmark]
  rfl

end Cpp

/-! ## The object -/

/-- What a body says: it is the UTF-8 of a JSON object, whose members are those of the
response, the price exact. -/
def Denotes (body : List UInt8) (response : Response Char) : Prop :=
  ∃ text document number, body = utf8 text ∧ read text = some document
    ∧ document.member? (ascii "auction_id") = some (.str response.auctionId)
    ∧ document.member? (ascii "ads") = some (.str response.ads)
    ∧ document.member? (ascii "price") = some number
    ∧ number.number? = some (response.price / 10 ^ 4 : ℚ)

/-- No body says two things. -/
theorem Denotes.unique {body : List UInt8} {response response' : Response Char}
    (h : Denotes body response) (h' : Denotes body response') : response = response' := by
  obtain ⟨text, document, number, rfl, hread, hid, hads, hprice, hnumber⟩ := h
  obtain ⟨text', document', number', hbody, hread', hid', hads', hprice', hnumber'⟩ := h'
  obtain rfl := utf8_injective hbody
  obtain rfl := Option.some.inj (hread.symm.trans hread')
  obtain rfl := Option.some.inj (hprice.symm.trans hprice')
  have hvalue : (response.price / 10 ^ 4 : ℚ) = response'.price / 10 ^ 4 :=
    Option.some.inj (hnumber.symm.trans hnumber')
  rw [div_left_inj' (by norm_num), Nat.cast_inj] at hvalue
  cases response
  cases response'
  simp only [Response.mk.injEq]
  exact ⟨Json.str.inj (Option.some.inj (hid.symm.trans hid')),
    Json.str.inj (Option.some.inj (hads.symm.trans hads')), hvalue⟩

/-- A winner object of which the parts are read back. -/
theorem denotes_winnerObject {response : Response Char} {escape : Char → Option (List Char)}
    (hescapes : Escapes (written escape)) {price : List Char} {number : Json Char}
    (hprice : Reads price number) (hnumber : number.number? = some (response.price / 10 ^ 4 : ℚ)) :
    Denotes (utf8 (winnerObject (quote escape response.auctionId) (quote escape response.ads)
      price)) response := by
  let texts : List (List Char × List Char) :=
    [(ascii "auction_id", quoted (written escape) response.auctionId),
      (ascii "ads", quoted (written escape) response.ads), (ascii "price", price)]
  let members : List (List Char × Json Char) :=
    [(ascii "auction_id", .str response.auctionId), (ascii "ads", .str response.ads),
      (ascii "price", number)]
  have htexts : List.Forall₂ ReadsMember texts members :=
    .cons ⟨rfl, reads_quoted hescapes _⟩
      (.cons ⟨rfl, reads_quoted hescapes _⟩ (.cons ⟨rfl, hprice⟩ .nil))
  -- the names need no escapes, so that any writer writes them alike
  have hobject : winnerObject (quote escape response.auctionId) (quote escape response.ads) price
      = '\x7b' :: ([','].intercalate (texts.map (memberText (written Py.escape) []))
        ++ ['\x7d']) := by
    have hid : (ascii "\x7b\"auction_id\":" : List Char)
        = '\x7b' :: (quoted (written Py.escape) (ascii "auction_id") ++ [':']) := by decide
    have hads : (ascii ",\"ads\":" : List Char)
        = ',' :: (quoted (written Py.escape) (ascii "ads") ++ [':']) := by decide
    have hprice : (ascii ",\"price\":" : List Char)
        = ',' :: (quoted (written Py.escape) (ascii "price") ++ [':']) := by decide
    rw [winnerObject, hid, hads, hprice, quote_eq_quoted, quote_eq_quoted]
    simp only [texts, List.map_cons, List.map_nil, List.intercalate_cons_cons,
      List.intercalate_singleton, memberText, List.nil_append, List.append_assoc, List.cons_append]
    rfl
  rw [hobject]
  have hblanks : ∀ c ∈ ([] : List Char), isBlank c := by simp
  have hreads := reads_object hblanks Py.escapes htexts
  exact ⟨_, .obj members, number, rfl, hreads.read, rfl, rfl, rfl, hnumber⟩

/-! ## The three bodies -/

section Bodies

variable {response : Response Char} (hprice : response.price < 10 ^ 15)

include hprice

/-- The price as the writers print it, with or without `.0` after a whole number. -/
theorem reads_price {whole : List Char} (hwhole : whole = [] ∨ whole = ['.', '0']) :
    ∃ number, Reads ((Float64.shortest (priceDouble response.price)).text whole) number
      ∧ number.number? = some (response.price / 10 ^ 4 : ℚ) := by
  have htext : (Float64.shortest (priceDouble response.price)).text whole
      = Float64.positional whole response.price 4 := Float64.text_shortest hprice whole
  rw [htext]
  exact reads_positional hwhole response.price 4

theorem go_denotes : Denotes (Go.sendWinnerResponse response) response := by
  obtain ⟨number, hreads, hnumber⟩ := reads_price hprice (Or.inl rfl)
  rw [Go.sendWinnerResponse, units_char]
  exact denotes_winnerObject Go.escapes hreads hnumber

theorem py_denotes : Denotes (Py.sendWinnerResponse response) response := by
  obtain ⟨number, hreads, hnumber⟩ := reads_price hprice (Or.inr rfl)
  rw [Py.sendWinnerResponse, units_char]
  exact denotes_winnerObject Py.escapes hreads hnumber

omit hprice in
theorem winnerObject_utf8 (auctionId ads price : List Char) :
    winnerObject (utf8 auctionId) (utf8 ads) (utf8 price)
      = utf8 (winnerObject auctionId ads price) := by
  have hnames : ∀ name : String, (name.toList.all fun c => c.toNat < 128) = true →
      (ascii name : List UInt8) = utf8 (ascii name) := fun _ h =>
    (utf8_ascii (isAscii_of_all h)).symm
  simp only [winnerObject, utf8_append, hnames "\x7b\"auction_id\":" rfl,
    hnames ",\"ads\":" rfl, hnames ",\"price\":" rfl, hnames "\x7d" rfl]

theorem cpp_denotes : Denotes (Cpp.sendWinnerResponse (response.mapText utf8)) response := by
  obtain ⟨number, hreads, hnumber⟩ := reads_price hprice (Or.inr rfl)
  have hdouble : (units (Cpp.double response.price) : List UInt8)
      = utf8 (Cpp.double response.price) := by
    have htext : Cpp.double response.price = Float64.positional ['.', '0'] response.price 4 :=
      Float64.text_shortest hprice ['.', '0']
    rw [htext]
    exact (utf8_units (isAscii_positional (isAscii_of_all rfl) response.price 4)).symm
  have hbody : Cpp.sendWinnerResponse (response.mapText utf8)
      = utf8 (winnerObject (quote Cpp.charEscape response.auctionId)
          (quote Cpp.charEscape response.ads) (Cpp.double response.price)) := by
    rw [← winnerObject_utf8, quote_eq_quoted, quote_eq_quoted, ← Cpp.quote_utf8_eq,
      ← Cpp.quote_utf8_eq, ← hdouble]
    rfl
  rw [hbody]
  exact denotes_winnerObject Cpp.escapes hreads hnumber

end Bodies

/-- The bodies of the three implementations denote the response, and nothing else. -/
structure DenotedByAll (response : Response Char) : Prop where
  cpp : ∀ other, Denotes (Cpp.sendWinnerResponse (response.mapText utf8)) other ↔ other = response
  go : ∀ other, Denotes (Go.sendWinnerResponse response) other ↔ other = response
  py : ∀ other, Denotes (Py.sendWinnerResponse response) other ↔ other = response

/-- **What the bodies say.** For all Unicode strings and every price of its column, the
bodies are JSON that says this response, and no other one. -/
theorem denotedByAll {response : Response Char} (hprice : response.price < 10 ^ 15) :
    DenotedByAll response := by
  have hiff : ∀ {body : List UInt8}, Denotes body response →
      ∀ other, Denotes body other ↔ other = response := fun hbody other =>
    ⟨fun hother => hother.unique hbody, fun heq => heq ▸ hbody⟩
  exact ⟨hiff (cpp_denotes hprice), hiff (go_denotes hprice), hiff (py_denotes hprice)⟩

/-- A response with a quotation mark, a character beyond the basic plane and a line
break. -/
def escapedResponse : Response Char :=
  ⟨[quoteMark, Char.ofNat 0x1f600], ['a', '\n', Char.ofNat 0xe9], 31400⟩

theorem denotedByAll_escapedResponse : DenotedByAll escapedResponse :=
  denotedByAll (by decide)

example : Py.sendWinnerResponse escapedResponse
    = ascii ("\x7b\"auction_id\":\"\\\"\\ud83d\\ude00\","
      ++ "\"ads\":\"a\\n\\u00e9\",\"price\":3.14\x7d") := by
  decide +kernel

end AuctionWorker
