import AuctionWorker.Utf8

/-!
# Searching in UTF-8

UTF-8 is prefix-free (`utf8EncodeChar_append_inj`), and the first byte of a
character is none of its later bytes. So wherever the bytes of a string that is
not empty occur in the bytes of another one, they begin at the first byte of a
character (`boundary_of_firstByte`) and cover whole characters: a search for a
substring in bytes succeeds exactly if the search in characters does
(`utf8_infix_iff`).
-/

namespace AuctionWorker

namespace Text

theorem utf8_cons (c : Char) (s : List Char) : utf8 (c :: s) = String.utf8EncodeChar c ++ utf8 s :=
  List.flatMap_cons

theorem utf8_append (s t : List Char) : utf8 (s ++ t) = utf8 s ++ utf8 t :=
  List.flatMap_append

/-! ## Prefixes -/

/-- No encoding of a character is a proper prefix of another one. -/
theorem utf8EncodeChar_append_inj {c d : Char} {x y : List UInt8}
    (h : String.utf8EncodeChar c ++ x = String.utf8EncodeChar d ++ y) : c = d ∧ x = y := by
  have hdecode : ∀ (c : Char) (x : List UInt8),
      (String.utf8EncodeChar c ++ x).toByteArray.utf8DecodeChar? 0 = some c := by
    intro c x
    rw [List.toByteArray_append]
    exact ByteArray.utf8DecodeChar?_utf8EncodeChar_append
  have hsome : some c = some d := by rw [← hdecode c x, ← hdecode d y, h]
  obtain rfl := Option.some.inj hsome
  exact ⟨rfl, List.append_cancel_left h⟩

theorem utf8_prefix_iff {s t : List Char} : utf8 t <+: utf8 s ↔ t <+: s := by
  constructor
  · intro h
    induction t generalizing s with
    | nil => exact List.nil_prefix
    | cons c t ih =>
        obtain ⟨r, hr⟩ := h
        rw [utf8_cons, List.append_assoc] at hr
        cases s with
        | nil =>
            have hnil := (List.append_eq_nil_iff.mp hr).1
            exact absurd hnil String.utf8EncodeChar_ne_nil
        | cons d s =>
            rw [utf8_cons] at hr
            obtain ⟨rfl, hrest⟩ := utf8EncodeChar_append_inj hr
            exact List.prefix_cons_inj c |>.mpr (ih ⟨r, hrest⟩)
  · rintro ⟨r, rfl⟩
    exact ⟨utf8 r, (utf8_append t r).symm⟩

/-! ## Boundaries -/

/-- What stands before the first byte of a character are whole characters. -/
theorem boundary_of_firstByte {s : List Char} {p r : List UInt8} {b : UInt8}
    (h : utf8 s = p ++ b :: r) (hb : b.IsUTF8FirstByte) :
    ∃ s₁ s₂, s = s₁ ++ s₂ ∧ p = utf8 s₁ ∧ b :: r = utf8 s₂ := by
  induction s generalizing p with
  | nil => exact absurd h (by simp [utf8])
  | cons c s ih =>
      rw [utf8_cons] at h
      rcases List.append_eq_append_iff.mp h with ⟨p', rfl, hrest⟩ | ⟨q, hc, hrest⟩
      · obtain ⟨s₁, s₂, rfl, rfl, hs₂⟩ := ih hrest
        exact ⟨c :: s₁, s₂, rfl, (utf8_cons c s₁).symm, hs₂⟩
      · cases q with
        | nil =>
            -- the byte is the first one of the next character
            rw [List.append_nil] at hc
            rw [List.nil_append] at hrest
            exact ⟨[c], s, rfl, by rw [← hc]; exact (List.append_nil _).symm, hrest⟩
        | cons b' q =>
            -- the byte belongs to `c`, so that it is the first one of `c`
            obtain ⟨rfl, -⟩ := List.cons.inj hrest
            have hlt : p.length < (String.utf8EncodeChar c).length := by
              rw [hc, List.length_append, List.length_cons]
              omega
            have hget : (String.utf8EncodeChar c)[p.length] = b := by
              simp [hc]
            have hzero : p.length = 0 :=
              UInt8.isUTF8FirstByte_getElem_utf8EncodeChar.mp (hget ▸ hb)
            obtain rfl := List.length_eq_zero_iff.mp hzero
            refine ⟨[], c :: s, rfl, rfl, ?_⟩
            rw [utf8_cons, h, List.nil_append]

/-- **Substrings.** The bytes of `t` occur in the bytes of `s` exactly if `t` occurs
in `s`. -/
theorem utf8_infix_iff {s t : List Char} : utf8 t <:+: utf8 s ↔ t <:+: s := by
  constructor
  · rintro ⟨p, q, h⟩
    cases t with
    | nil => exact List.nil_infix
    | cons c t =>
        obtain ⟨b, rest, henc⟩ := List.exists_cons_of_ne_nil (String.utf8EncodeChar_ne_nil (c := c))
        have hfirst : b.IsUTF8FirstByte := by
          have hzero := UInt8.isUTF8FirstByte_getElem_zero_utf8EncodeChar (c := c)
          simpa [henc] using hzero
        rw [utf8_cons, henc, List.append_assoc, List.cons_append, List.cons_append,
          List.append_assoc] at h
        obtain ⟨s₁, s₂, rfl, -, hs₂⟩ := boundary_of_firstByte h.symm hfirst
        have hprefix : utf8 (c :: t) <+: utf8 s₂ :=
          ⟨q, by rw [← hs₂, utf8_cons, henc, List.cons_append, List.cons_append, List.append_assoc]⟩
        exact (utf8_prefix_iff.mp hprefix).isInfix.trans (List.suffix_append s₁ s₂).isInfix
  · rintro ⟨p, q, rfl⟩
    exact ⟨utf8 p, utf8 q, by rw [utf8_append, utf8_append]⟩

end Text

end AuctionWorker
