import AuctionWorker.Loops

/-!
# JSON documents

The values of a parsed JSON document, over the units `χ` of its strings. What
parses a text into a document is not the subject here.

- A number is an `int` when it is written without a fraction and an exponent,
  which is what the typed readers of the libraries go by, and a `decimal`
  otherwise: mantissa and exponent of ten.
- An object keeps its members in the order of the text, repeated names
  included; `member?` reads the first of a name.
- `mapText` changes the units of every string; `member?_mapText` and
  `readD_mapText` say that reading members commutes with it.
-/

namespace AuctionWorker

inductive Json (χ : Type) where
  | null
  | bool (b : Bool)
  | int (n : ℤ)
  | decimal (mantissa exponent : ℤ)
  | str (s : List χ)
  | arr (elements : List (Json χ))
  | obj (members : List (List χ × Json χ))
deriving Repr

namespace Json

variable {χ ψ α : Type}

/-! ## Typed values -/

/-- An array of numbers. -/
def nats (ns : List ℕ) : Json χ :=
  .arr (ns.map fun n : ℕ => .int (n : ℤ))

/-- An array of strings. -/
def strs (ss : List (List χ)) : Json χ :=
  .arr (ss.map .str)

theorem nats_injective : Function.Injective (nats : List ℕ → Json χ) := fun _ _ h =>
  List.map_injective_iff.mpr (fun _ _ hn => Int.natCast_inj.mp (int.inj hn)) (arr.inj h)

theorem strs_injective : Function.Injective (strs : List (List χ) → Json χ) := fun _ _ h =>
  List.map_injective_iff.mpr (fun _ _ hs => str.inj hs) (arr.inj h)

/-! ## Typed readings -/

def string? : Json χ → Option (List χ)
  | .str s => some s
  | _ => none

def elements? : Json χ → Option (List (Json χ))
  | .arr elements => some elements
  | _ => none

def int32? : Json χ → Option ℤ
  | .int n => if -2 ^ 31 ≤ n ∧ n < 2 ^ 31 then some n else none
  | _ => none

def uint32? : Json χ → Option ℕ
  | .int n => if 0 ≤ n ∧ n < 2 ^ 32 then some n.toNat else none
  | _ => none

/-- The number a value is. -/
def number? : Json χ → Option ℚ
  | .int n => some n
  | .decimal mantissa exponent => some (mantissa * 10 ^ exponent)
  | _ => none

/-- The elements of an array that `read?` accepts. -/
def listOf? (read? : Json χ → Option α) (value : Json χ) : Option (List α) :=
  value.elements?.map fun elements => elements.filterMap read?

theorem int32?_int {n : ℤ} (hn : -2 ^ 31 ≤ n ∧ n < 2 ^ 31) :
    (Json.int n : Json χ).int32? = some n := by
  rw [int32?, if_pos hn]

theorem uint32?_int {n : ℕ} (hn : n < 2 ^ 32) : (Json.int n : Json χ).uint32? = some n := by
  have hrange : 0 ≤ (n : ℤ) ∧ (n : ℤ) < 2 ^ 32 := by omega
  rw [uint32?, if_pos hrange, Int.toNat_natCast]

/-- An array of accepted values is read without a loss. -/
theorem listOf?_arr {read? : Json χ → Option α} {mk : α → Json χ} {xs : List α}
    (hread : ∀ x ∈ xs, read? (mk x) = some x) : (arr (xs.map mk)).listOf? read? = some xs := by
  show some ((xs.map mk).filterMap read?) = some xs
  rw [List.filterMap_map]
  exact congrArg some ((List.filterMap_congr hread).trans List.filterMap_some)

theorem listOf?_map {β : Type} {read? : Json χ → Option α} {g : α → β} (value : Json χ) :
    value.listOf? (fun element => (read? element).map g)
      = (value.listOf? read?).map (List.map g) := by
  cases value with
  | arr elements => exact congrArg some List.map_filterMap.symm
  | _ => rfl

/-! ## Members -/

/-- The first member of that name; a value that is no object has none. -/
def member? [DecidableEq χ] (document : Json χ) (name : List χ) : Option (Json χ) :=
  match document with
  | .obj members => members.lookup name
  | _ => none

/-- The member of that name if it is there and `read?` accepts it. -/
def readD [DecidableEq χ] (document : Json χ) (name : List χ) (read? : Json χ → Option α)
    (default : α) : α :=
  ((document.member? name).bind read?).getD default

theorem readD_map {β : Type} [DecidableEq χ] {read? : Json χ → Option α} {g : α → β}
    (document : Json χ) (name : List χ) (default : α) :
    document.readD name (fun value => (read? value).map g) (g default)
      = g (document.readD name read? default) := by
  rw [readD, readD]
  cases document.member? name with
  | none => rfl
  | some value => rw [Option.bind_some, Option.bind_some, Option.getD_map]

/-- Exchanging the value of one member is noticed only by the readings of its name
that tell the two values apart. -/
theorem readD_exchange [DecidableEq χ] {name name' : List χ} {value value' : Json χ}
    {read? : Json χ → Option α} (h : name' = name → read? value = read? value')
    (before after : List (List χ × Json χ)) (default : α) :
    (obj (before ++ (name, value) :: after)).readD name' read? default
      = (obj (before ++ (name, value') :: after)).readD name' read? default := by
  simp only [readD, member?, List.lookup_append, List.lookup_cons]
  by_cases heq : name' = name
  · rw [beq_iff_eq.mpr heq]
    cases before.lookup name' with
    | none => exact congrArg (Option.getD · default) (h heq)
    | some _ => rfl
  · rw [beq_eq_false_iff_ne.mpr heq]

/-! ## Change of units -/

mutual

/-- Apply `f` to every string, the names of members included. -/
def mapText (f : List χ → List ψ) : Json χ → Json ψ
  | .null => .null
  | .bool b => .bool b
  | .int n => .int n
  | .decimal mantissa exponent => .decimal mantissa exponent
  | .str s => .str (f s)
  | .arr elements => .arr (mapElements f elements)
  | .obj members => .obj (mapMembers f members)

def mapElements (f : List χ → List ψ) : List (Json χ) → List (Json ψ)
  | [] => []
  | element :: elements => element.mapText f :: mapElements f elements

def mapMembers (f : List χ → List ψ) : List (List χ × Json χ) → List (List ψ × Json ψ)
  | [] => []
  | (name, value) :: members => (f name, value.mapText f) :: mapMembers f members

end

variable {f : List χ → List ψ}

theorem mapElements_eq_map (elements : List (Json χ)) :
    mapElements f elements = elements.map (mapText f) := by
  induction elements with
  | nil => rfl
  | cons element elements ih => rw [mapElements, ih, List.map_cons]

theorem mapMembers_eq_map (members : List (List χ × Json χ)) :
    mapMembers f members = members.map fun member => (f member.1, member.2.mapText f) := by
  induction members with
  | nil => rfl
  | cons member members ih => rw [mapMembers, ih, List.map_cons]

theorem mapText_nats (ns : List ℕ) : (nats ns : Json χ).mapText f = nats ns := by
  rw [nats, mapText, mapElements_eq_map, List.map_map]
  rfl

theorem mapText_strs (ss : List (List χ)) : (strs ss).mapText f = strs (ss.map f) := by
  rw [strs, mapText, mapElements_eq_map, List.map_map, strs, List.map_map]
  rfl

@[simp] theorem string?_mapText (value : Json χ) :
    (value.mapText f).string? = value.string?.map f := by
  cases value <;> rfl

@[simp] theorem int32?_mapText (value : Json χ) : (value.mapText f).int32? = value.int32? := by
  cases value <;> rfl

@[simp] theorem uint32?_mapText (value : Json χ) : (value.mapText f).uint32? = value.uint32? := by
  cases value <;> rfl

theorem elements?_mapText (value : Json χ) :
    (value.mapText f).elements? = value.elements?.map (List.map (mapText f)) := by
  cases value with
  | arr elements => exact congrArg some (mapElements_eq_map elements)
  | _ => rfl

theorem listOf?_mapText {read? : Json χ → Option α} {read?' : Json ψ → Option α}
    (hread : ∀ value, read?' (value.mapText f) = read? value) (value : Json χ) :
    (value.mapText f).listOf? read?' = value.listOf? read? := by
  simp only [listOf?, elements?_mapText, Option.map_map]
  congr 1
  funext elements
  rw [Function.comp_apply, List.filterMap_map]
  exact congrArg (elements.filterMap ·) (funext hread)

theorem listOf?_string?_mapText (value : Json χ) :
    (value.mapText f).listOf? string? = (value.listOf? string?).map (List.map f) := by
  rw [listOf?_mapText string?_mapText, listOf?_map]

section Members

variable [DecidableEq χ] [DecidableEq ψ]

theorem lookup_mapMembers (hf : Function.Injective f) (members : List (List χ × Json χ))
    (name : List χ) :
    (mapMembers f members).lookup (f name) = (members.lookup name).map (mapText f) := by
  induction members with
  | nil => rfl
  | cons member members ih =>
      rw [mapMembers, List.lookup_cons, List.lookup_cons, ih]
      by_cases heq : name = member.1
      · subst heq
        simp
      · have hne : f name ≠ f member.1 := fun h => heq (hf h)
        simp only [beq_eq_false_iff_ne.mpr heq, beq_eq_false_iff_ne.mpr hne]

theorem member?_mapText (hf : Function.Injective f) (document : Json χ) (name : List χ) :
    (document.mapText f).member? (f name) = (document.member? name).map (mapText f) := by
  cases document with
  | obj members => exact lookup_mapMembers hf members name
  | _ => rfl

theorem readD_mapText (hf : Function.Injective f) {read? : Json χ → Option α}
    {read?' : Json ψ → Option α} (hread : ∀ value, read?' (value.mapText f) = read? value)
    (document : Json χ) (name : List χ) (default : α) :
    (document.mapText f).readD (f name) read?' default = document.readD name read? default := by
  rw [readD, readD, member?_mapText hf, Option.bind_map]
  exact congrArg (fun read => ((document.member? name).bind read).getD default) (funext hread)

/-- The reading of a member whose type holds strings changes with them. -/
theorem readD_mapText_map {β : Type} (hf : Function.Injective f) {read? : Json χ → Option α}
    {read?' : Json ψ → Option β} {g : α → β}
    (hread : ∀ value, read?' (value.mapText f) = (read? value).map g)
    (document : Json χ) (name : List χ) (default : α) :
    (document.mapText f).readD (f name) read?' (g default)
      = g (document.readD name read? default) := by
  rw [readD_mapText hf hread, readD_map]

end Members

/-! ## Distinct names -/

section Distinct

variable {κ β γ : Type} [BEq κ] [LawfulBEq κ] {members : List (κ × β)}

theorem lookup_eq_some_iff_mem (hnodup : (members.map Prod.fst).Nodup) {name : κ} {value : β} :
    members.lookup name = some value ↔ (name, value) ∈ members := by
  induction members with
  | nil => simp
  | cons member members ih =>
      rw [List.map_cons, List.nodup_cons] at hnodup
      rw [List.lookup_cons, List.mem_cons, Prod.ext_iff]
      by_cases heq : name = member.1
      · subst heq
        have hnot : (member.1, value) ∉ members := fun hmem =>
          hnodup.1 (List.mem_map.mpr ⟨_, hmem, rfl⟩)
        simp [hnot, eq_comm]
      · rw [beq_eq_false_iff_ne.mpr heq]
        simpa [heq] using ih hnodup.2

/-- Reading the members from the last to the first makes no difference. -/
theorem lookup_reverse (hnodup : (members.map Prod.fst).Nodup) (name : κ) :
    members.reverse.lookup name = members.lookup name := by
  have hnodup' : (members.reverse.map Prod.fst).Nodup := by
    rw [List.map_reverse]
    exact List.nodup_reverse.mpr hnodup
  refine Option.ext fun value => ?_
  rw [lookup_eq_some_iff_mem hnodup', lookup_eq_some_iff_mem hnodup, List.mem_reverse]

theorem lookup_eq_none {name name' : κ} (h : name' ∉ members.map Prod.fst)
    (heq : name = name') : members.lookup name = none := by
  rw [List.lookup_eq_none_iff]
  intro member hmember
  have hne : name ≠ member.1 := fun hname =>
    h (heq ▸ hname ▸ List.mem_map_of_mem hmember)
  simpa using hne

/-- Among distinct names, the last value written under a name is the one there is. -/
theorem lastWrite_eq_lookup [DecidableEq κ] (hnodup : (members.map Prod.fst).Nodup)
    (name : κ) (read? : β → Option γ) :
    Loops.lastWrite (fun member => if member.1 = name then read? member.2 else none) members
      = (members.lookup name).bind read? := by
  induction members with
  | nil => rfl
  | cons member members ih =>
      rw [List.map_cons, List.nodup_cons] at hnodup
      rw [Loops.lastWrite_cons, ih hnodup.2, List.lookup_cons]
      by_cases heq : name = member.1
      · rw [lookup_eq_none hnodup.1 heq, beq_iff_eq.mpr heq, if_pos heq.symm]
        rfl
      · rw [beq_eq_false_iff_ne.mpr heq, if_neg (Ne.symm heq), Option.or_none]

/-- Among distinct names, a loop over the members of one name takes one step, or none. -/
theorem foldl_eq_lookup [DecidableEq κ] {σ : Type} (hnodup : (members.map Prod.fst).Nodup)
    (name : κ) (step : β → σ → σ) (s : σ) :
    members.foldl (fun s member => if member.1 = name then step member.2 s else s) s
      = (members.lookup name).elim s fun value => step value s := by
  induction members generalizing s with
  | nil => rfl
  | cons member members ih =>
      rw [List.map_cons, List.nodup_cons] at hnodup
      rw [List.foldl_cons, ih hnodup.2, List.lookup_cons]
      by_cases heq : name = member.1
      · rw [lookup_eq_none hnodup.1 heq, beq_iff_eq.mpr heq, if_pos heq.symm]
        rfl
      · rw [beq_eq_false_iff_ne.mpr heq, if_neg (Ne.symm heq)]

end Distinct

end Json

end AuctionWorker
