import Mathlib

/-!
# Strings as lists of code units

The three languages store text in different units: bytes of UTF-8 in C++ and
Go, code points in Python. A string here is a list over an arbitrary type `χ`
of units, so that a result holds for every one of them.

- `find` is the position of the first occurrence of a substring, the library
  search behind `std::string::find`, `strings.Contains` and Python's `in`. It
  succeeds exactly on contiguous sublists, the empty one included
  (`find_isSome_iff`).
- `CodeUnit` embeds the ASCII characters that programs compare against, NUL
  among them; `cString` is what a reader of a NUL-terminated pointer sees.
-/

namespace AuctionWorker

namespace Text

variable {χ : Type}

/-! ## Substring search -/

/-- The least position at which `t` occurs in `s`. -/
def find [DecidableEq χ] (s t : List χ) : Option ℕ :=
  s.tails.findIdx? fun r => t.isPrefixOf r

theorem find_isSome_iff [DecidableEq χ] {s t : List χ} :
    (find s t).isSome ↔ t <:+: s := by
  rw [find, List.findIdx?_isSome, List.any_eq_true, List.infix_iff_prefix_suffix]
  refine exists_congr fun r => ?_
  rw [List.mem_tails, List.isPrefixOf_iff_prefix]
  exact and_comm

/-! ## Code units and NUL-terminated strings -/

/-- Units into which the ASCII characters embed. -/
class CodeUnit (χ : Type) where
  ofChar : Char → χ
  ofChar_inj : ∀ {a b : Char}, a.toNat < 128 → b.toNat < 128 → ofChar a = ofChar b → a = b

instance : CodeUnit Char where
  ofChar := id
  ofChar_inj _ _ h := h

instance : CodeUnit UInt8 where
  ofChar c := UInt8.ofNat c.toNat
  ofChar_inj := by
    intro a b ha hb h
    have h' : a.toNat % 256 = b.toNat % 256 := by
      simpa using congrArg UInt8.toNat h
    have hnat : a.toNat = b.toNat := by omega
    exact Char.toNat_inj.mp hnat

variable [CodeUnit χ]

/-- An ASCII literal in units. -/
def ascii (s : String) : List χ :=
  s.toList.map CodeUnit.ofChar

theorem ascii_injective {s t : String} (hs : ∀ c ∈ s.toList, c.toNat < 128)
    (ht : ∀ c ∈ t.toList, c.toNat < 128) (h : (ascii s : List χ) = ascii t) : s = t := by
  rw [← String.toList_inj]
  unfold ascii at h
  generalize s.toList = cs at hs h
  generalize t.toList = ds at ht h
  induction cs generalizing ds with
  | nil => exact (List.map_eq_nil_iff.mp h.symm).symm
  | cons c cs ih =>
      cases ds with
      | nil => cases h
      | cons d ds =>
          rw [List.forall_mem_cons] at hs ht
          rw [List.map_cons, List.map_cons, List.cons.injEq] at h
          rw [CodeUnit.ofChar_inj hs.1 ht.1 h.1, ih hs.2 ds ht.2 h.2]

/-- The NUL unit. -/
def nul : χ :=
  CodeUnit.ofChar (Char.ofNat 0)

/-- What a reader of a NUL-terminated pointer takes from `s`. -/
def cString [DecidableEq χ] (s : List χ) : List χ :=
  s.takeWhile fun c => c ≠ nul

theorem cString_eq_self_iff [DecidableEq χ] {s : List χ} : cString s = s ↔ nul ∉ s := by
  rw [cString, List.takeWhile_eq_self_iff]
  constructor
  · intro h hmem
    simpa using h nul hmem
  · intro h c hc
    simpa using fun heq : c = nul => h (heq ▸ hc)

end Text

end AuctionWorker
