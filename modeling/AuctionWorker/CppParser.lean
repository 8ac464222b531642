import AuctionWorker.CppAuction
import AuctionWorker.RequestBody

/-!
# The C++ request parser

`cpp/src/server/request_parser.cpp` over rapidjson. `parse` stands for
`Document::Parse`, which leaves the document Null when it fails; the accessors
are written out with their assertions, which the build keeps.

`GetString` returns a pointer to the characters, and the `std::string` made of
it ends at the first NUL.

- `parseRequest_obj` and `parseRequest_not_obj`: what the parser does to an
  object, and that it aborts on everything else.
- `parseRequest_eq_requestOf_iff`: the bodies whose request it returns.
-/

namespace AuctionWorker

namespace Cpp

open Text

variable {χ α : Type}

/-! ## Accessors of rapidjson -/

section Accessors

variable [DecidableEq χ] [CodeUnit χ] (value : Json χ)

/-- `HasMember`: asserts an object. -/
def hasMember (name : List χ) : Except Abort Bool :=
  match value with
  | .obj members => .ok (members.lookup name).isSome
  | _ => .error .assertion

/-- `operator[]`: asserts an object that has the member. -/
def subscript (name : List χ) : Except Abort (Json χ) :=
  match value with
  | .obj members =>
      match members.lookup name with
      | some member => .ok member
      | none => .error .assertion
  | _ => .error .assertion

def isString : Bool :=
  match value with
  | .str _ => true
  | _ => false

def getString : Except Abort (List χ) :=
  match value with
  | .str s => .ok (cString s)
  | _ => .error .assertion

def isArray : Bool :=
  match value with
  | .arr _ => true
  | _ => false

def getArray : Except Abort (List (Json χ)) :=
  match value with
  | .arr elements => .ok elements
  | _ => .error .assertion

def isUint : Bool :=
  match value with
  | .int n => decide (0 ≤ n ∧ n < 2 ^ 32)
  | _ => false

def getUint : Except Abort ℕ :=
  match value with
  | .int n => if 0 ≤ n ∧ n < 2 ^ 32 then .ok n.toNat else .error .assertion
  | _ => .error .assertion

def isInt : Bool :=
  match value with
  | .int n => decide (-2 ^ 31 ≤ n ∧ n < 2 ^ 31)
  | _ => false

def getInt : Except Abort ℤ :=
  match value with
  | .int n => if -2 ^ 31 ≤ n ∧ n < 2 ^ 31 then .ok n else .error .assertion
  | _ => .error .assertion

end Accessors

/-! ## `server/request_parser.cpp` -/

section Parser

variable [DecidableEq χ] [CodeUnit χ]

/-- `if (json.HasMember(name) && isType(json[name])) { … = get(json[name]); }`, for
a variable that starts at `default`. -/
def readMember (json : Json χ) (name : List χ) (isType : Json χ → Bool)
    (get : Json χ → Except Abort α) (default : α) : Except Abort α := do
  if ← hasMember json name then
    let value ← subscript json name
    if isType value then get value else pure default
  else pure default

/-- The elements of an array through `std::views::filter` and
`std::ranges::transform`. -/
def filterArray (isType : Json χ → Bool) (get : Json χ → Except Abort α) (value : Json χ) :
    Except Abort (List α) := do
  let elements ← getArray value
  (elements.filter isType).mapM get

def parseRequest (parse : List UInt8 → Option (Json χ)) (data : List UInt8) :
    Except Abort (Request χ) := do
  let json := (parse data).getD .null
  let auctionId ← readMember json (ascii "auction_id") isString getString []
  let categoryIds ← readMember json (ascii "category_ids") isArray (filterArray isUint getUint) []
  let feature ← readMember json (ascii "zone_feature") isInt getInt 0
  let zoneWidth ← readMember json (ascii "zone_width") isUint getUint 0
  let zoneHeight ← readMember json (ascii "zone_height") isUint getUint 0
  let blockDomains ← readMember json (ascii "block_domains") isArray
    (filterArray isString getString) []
  pure ⟨auctionId, categoryIds, feature, zoneWidth, zoneHeight, blockDomains⟩

end Parser

/-! ## Guarded readings -/

/-- Guarded by `isType`, the accessor `get` does not assert, and reads what `read?`
accepts. -/
structure Guarded (isType : Json χ → Bool) (get : Json χ → Except Abort α)
    (read? : Json χ → Option α) : Prop where
  accepted : ∀ value, isType value = true → ∃ a, get value = .ok a ∧ read? value = some a
  refused : ∀ value, isType value = false → read? value = none

theorem guarded_string [DecidableEq χ] [CodeUnit χ] :
    Guarded isString getString fun value : Json χ => value.string?.map cString where
  accepted value h := by
    cases value with
    | str s => exact ⟨cString s, rfl, rfl⟩
    | _ => cases h
  refused value h := by
    cases value with
    | str s => cases h
    | _ => rfl

theorem guarded_uint : Guarded isUint getUint (Json.uint32? (χ := χ)) where
  accepted value h := by
    cases value with
    | int n =>
        have hn := of_decide_eq_true h
        exact ⟨n.toNat, if_pos hn, if_pos hn⟩
    | _ => cases h
  refused value h := by
    cases value with
    | int n => exact if_neg (of_decide_eq_false h)
    | _ => rfl

theorem guarded_int : Guarded isInt getInt (Json.int32? (χ := χ)) where
  accepted value h := by
    cases value with
    | int n =>
        have hn := of_decide_eq_true h
        exact ⟨n, if_pos hn, if_pos hn⟩
    | _ => cases h
  refused value h := by
    cases value with
    | int n => exact if_neg (of_decide_eq_false h)
    | _ => rfl

section Guarded

variable {isType : Json χ → Bool} {get : Json χ → Except Abort α} {read? : Json χ → Option α}

theorem Guarded.mapM_filter (h : Guarded isType get read?) (elements : List (Json χ)) :
    (elements.filter isType).mapM get = .ok (elements.filterMap read?) := by
  induction elements with
  | nil => rfl
  | cons element elements ih =>
      cases htype : isType element with
      | true =>
          obtain ⟨a, hget, hread⟩ := h.accepted element htype
          rw [List.filter_cons_of_pos htype, List.mapM_cons, hget, ih,
            List.filterMap_cons_some hread]
          rfl
      | false =>
          rw [List.filter_cons_of_neg (by simp [htype]), ih,
            List.filterMap_cons_none (h.refused element htype)]

theorem Guarded.array (h : Guarded isType get read?) :
    Guarded isArray (filterArray isType get) (Json.listOf? read?) where
  accepted value hvalue := by
    cases value with
    | arr elements => exact ⟨elements.filterMap read?, h.mapM_filter elements, rfl⟩
    | _ => cases hvalue
  refused value hvalue := by
    cases value with
    | arr elements => cases hvalue
    | _ => rfl

theorem guarded_strings [DecidableEq χ] [CodeUnit χ] :
    Guarded isArray (filterArray isString getString)
      fun value : Json χ => (value.listOf? Json.string?).map (List.map cString) := by
  have hread : Json.listOf? (fun value : Json χ => value.string?.map cString)
      = fun value => (value.listOf? Json.string?).map (List.map cString) :=
    funext Json.listOf?_map
  exact hread ▸ guarded_string.array

theorem Guarded.readMember_obj [DecidableEq χ] (h : Guarded isType get read?)
    (members : List (List χ × Json χ)) (name : List χ) (default : α) :
    readMember (.obj members) name isType get default
      = .ok ((Json.obj members).readD name read? default) := by
  rw [readMember, hasMember, subscript, Json.readD, Json.member?]
  cases members.lookup name with
  | none => rfl
  | some value =>
      cases htype : isType value with
      | true =>
          obtain ⟨a, hget, hread⟩ := h.accepted value htype
          rw [Option.bind_some, hread]
          show (if isType value = true then get value else pure default) = _
          rw [if_pos htype, hget, Option.getD_some]
      | false =>
          rw [Option.bind_some, h.refused value htype]
          show (if isType value = true then get value else pure default) = _
          rw [if_neg (by simp [htype])]
          rfl

end Guarded

/-! ## What the parser returns -/

section Results

variable [DecidableEq χ] [CodeUnit χ] {parse : List UInt8 → Option (Json χ)} {data : List UInt8}

/-- An object is read as it asks, but every string ends at its first NUL. -/
theorem parseRequest_obj {members : List (List χ × Json χ)}
    (hparse : parse data = some (.obj members)) :
    parseRequest parse data = .ok ((requestOf (.obj members)).mapText cString) := by
  unfold parseRequest requestOf Request.mapText
  simp only [hparse, Option.getD_some, guarded_string.readMember_obj,
    guarded_uint.array.readMember_obj, guarded_int.readMember_obj, guarded_uint.readMember_obj,
    guarded_strings.readMember_obj]
  rw [← Json.readD_map (g := cString), ← Json.readD_map (g := List.map cString)]
  rfl

/-- On anything else, the first `HasMember` asserts. -/
theorem parseRequest_not_obj (hparse : ∀ members, parse data ≠ some (.obj members)) :
    parseRequest parse data = .error .assertion := by
  unfold parseRequest
  cases h : parse data with
  | none => rfl
  | some json =>
      cases json with
      | obj members => exact absurd h (hparse members)
      | _ => rfl

/-- **The parser returns the request of a body** exactly when the body is an
object whose strings have no NUL. -/
theorem parseRequest_eq_requestOf_iff (parse : List UInt8 → Option (Json χ)) (data : List UInt8) :
    parseRequest parse data = .ok (requestOf ((parse data).getD .null))
      ↔ (∃ members, parse data = some (.obj members))
        ∧ (requestOf ((parse data).getD .null)).NulFree := by
  by_cases hobj : ∃ members, parse data = some (.obj members)
  · obtain ⟨members, hparse⟩ := hobj
    rw [parseRequest_obj hparse, hparse, Option.getD_some, Except.ok.injEq,
      Request.mapText_cString_eq_self_iff]
    exact (and_iff_right ⟨members, rfl⟩).symm
  · have hnot : ∀ members, parse data ≠ some (.obj members) := fun members h => hobj ⟨members, h⟩
    rw [parseRequest_not_obj hnot]
    exact iff_of_false (fun h => by cases h) (fun h => hobj h.1)

/-- An array at the root stops the server, where a request with defaults was
due. -/
theorem parseRequest_emptyArray :
    parseRequest (parseOnly (ascii "[]") (.arr [] : Json UInt8)) (ascii "[]") = .error .assertion
      ∧ requestOf (.arr [] : Json UInt8) = ⟨[], [], 0, 0, 0, []⟩ := by
  decide

end Results

end Cpp

end AuctionWorker
