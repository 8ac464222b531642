import AuctionWorker.Text

/-!
# Strings in UTF-8

A string of characters as the bytes C++ and Go hold. The encoding loses nothing
(`utf8_injective`), leaves ASCII literals as they are (`utf8_ascii`), and has a
NUL byte for a NUL character and for nothing else (`nul_mem_utf8_iff`).
-/

namespace AuctionWorker

namespace Text

/-- The UTF-8 bytes of a string. -/
def utf8 (s : List Char) : List UInt8 :=
  s.flatMap String.utf8EncodeChar

theorem utf8_injective : Function.Injective utf8 := by
  intro s t h
  have hbytes : s.utf8Encode = t.utf8Encode := by
    unfold List.utf8Encode
    exact congrArg List.toByteArray h
  have hdecoded : some s.toArray = some t.toArray := by
    rw [← List.utf8Decode?_utf8Encode, ← List.utf8Decode?_utf8Encode, hbytes]
  simpa using hdecoded

/-! ## NUL -/

theorem uint8_eq_nul_iff {n : ℕ} : UInt8.ofNat n = nul ↔ n % 256 = 0 := by
  rw [← UInt8.toNat_inj, UInt8.toNat_ofNat']
  rfl

theorem char_eq_nul_iff {c : Char} : c = nul ↔ c.val.toNat = 0 :=
  Char.toNat_inj.symm

/-- Every byte of a longer encoding has its top bit set. -/
theorem nul_mem_utf8EncodeChar_iff {c : Char} :
    (nul : UInt8) ∈ String.utf8EncodeChar c ↔ c = nul := by
  rw [char_eq_nul_iff]
  fun_cases String.utf8EncodeChar c
  all_goals
    simp only [List.mem_cons, List.not_mem_nil, or_false, eq_comm (a := (nul : UInt8)),
      uint8_eq_nul_iff]
    omega

theorem nul_mem_utf8_iff {s : List Char} : (nul : UInt8) ∈ utf8 s ↔ nul ∈ s := by
  rw [utf8, List.mem_flatMap]
  constructor
  · rintro ⟨c, hc, hmem⟩
    rw [nul_mem_utf8EncodeChar_iff] at hmem
    exact hmem ▸ hc
  · intro hmem
    exact ⟨nul, hmem, nul_mem_utf8EncodeChar_iff.mpr rfl⟩

/-! ## ASCII -/

/-- An ASCII character is its own byte. -/
theorem utf8EncodeChar_ascii {c : Char} (hc : c.toNat < 128) :
    String.utf8EncodeChar c = [CodeUnit.ofChar c] := by
  fun_cases String.utf8EncodeChar c
  · rfl
  all_goals
    have hle : c.val.toNat ≤ 0x7f := Nat.le_of_lt_succ hc
    contradiction

theorem utf8_of_ascii {s : List Char} (hs : ∀ c ∈ s, c.toNat < 128) :
    utf8 s = s.map CodeUnit.ofChar := by
  induction s with
  | nil => rfl
  | cons c s ih =>
      obtain ⟨hc, hrest⟩ := List.forall_mem_cons.mp hs
      have htail : s.flatMap String.utf8EncodeChar = s.map CodeUnit.ofChar := ih hrest
      rw [utf8, List.flatMap_cons, List.map_cons, utf8EncodeChar_ascii hc, htail]
      rfl

theorem utf8_ascii {s : String} (hs : ∀ c ∈ s.toList, c.toNat < 128) :
    utf8 (ascii s) = ascii s := by
  have hself : (ascii s : List Char) = s.toList := List.map_id s.toList
  rw [hself, utf8_of_ascii hs]
  rfl

end Text

end AuctionWorker
