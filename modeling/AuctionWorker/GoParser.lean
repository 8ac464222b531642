import AuctionWorker.RequestBody

/-!
# The Go request parser

`golang/server/request_parser.go` over encoding/json. `scan` stands for the
scanner of `Decoder`: the first JSON value of a body, none for a syntax error,
which is found before anything is stored.

`Decode` then stores the members of an object into the struct one after the
other. A member goes to the field whose tag is its name, or else to the field
whose tag is its name up to case. A value of the wrong type is skipped and only
reported in the error, which the caller drops; null drops a slice and leaves
everything else alone.

The elements of an array are decoded one by one into the slots of the slice
that is there, and nothing clears a slot before: the backing array of an
earlier member of the same field is used again, past its length too. A slot
that no member has reached holds the zero value.

- `parseRequest_obj`: from any object the parser takes the last value that can be
  stored into each field, and for each slice the last one in each slot that is in
  use, since the slice was dropped (`storedRequest`).
- `parseRequest_wellTyped`: from a well-typed object it takes the request the
  object asks for.
-/

namespace AuctionWorker

namespace Go

open Text

variable {χ α : Type}

/-! ## Names of fields -/

/-- The json tags of `model.Request`. -/
def jsonTags : List (List UInt8 × Field) :=
  [(ascii "auction_id", .auctionId),
   (ascii "category_ids", .categoryIds),
   (ascii "zone_feature", .zoneFeature),
   (ascii "zone_width", .zoneWidth),
   (ascii "zone_height", .zoneHeight),
   (ascii "block_domains", .blockDomains)]

/-- Names that agree up to case fold alike. Besides the ASCII letters, U+017F
and U+212A fold to ASCII, to `S` and `K`; other characters never do, and are
left as they are because every tag is ASCII. -/
def foldName : List UInt8 → List UInt8
  | 0xC5 :: 0xBF :: rest => 0x53 :: foldName rest
  | 0xE2 :: 0x84 :: 0xAA :: rest => 0x4B :: foldName rest
  | c :: rest => (if 0x61 ≤ c ∧ c ≤ 0x7A then c - 0x20 else c) :: foldName rest
  | [] => []

/-- The field a member is stored into. -/
def fieldOf (name : List UInt8) : Option Field :=
  match jsonTags.lookup name with
  | some field => some field
  | none => (jsonTags.map fun tag => (foldName tag.1, tag.2)).lookup (foldName name)

/-! ## Storing values -/

def storeString (value : Json χ) (s : List χ) : List χ :=
  match value with
  | .str s' => s'
  | _ => s

/-- `int`, of 64 bits -/
def storeInt (value : Json χ) (n : ℤ) : ℤ :=
  match value with
  | .int n' => if -2 ^ 63 ≤ n' ∧ n' < 2 ^ 63 then n' else n
  | _ => n

/-- `uint`, of 64 bits -/
def storeUint (value : Json χ) (n : ℕ) : ℕ :=
  match value with
  | .int n' => if 0 ≤ n' ∧ n' < 2 ^ 64 then n'.toNat else n
  | _ => n

/-- A slice: its elements, and what its backing array holds past them. The rest of
the capacity holds zero values, also after the array has grown. -/
structure Slice (α : Type) where
  elements : List α
  spare : List α

namespace Slice

/-- `nil`, and every slice without a backing array -/
def nil : Slice α :=
  ⟨[], []⟩

def backing (slice : Slice α) : List α :=
  slice.elements ++ slice.spare

end Slice

/-- Each element is decoded into its slot as it was. -/
def storeSlots (store : Json χ → α → α) (zero : α) : List (Json χ) → List α → List α
  | [], _ => []
  | element :: elements, backing =>
      store element (backing.headD zero) :: storeSlots store zero elements backing.tail

def storeSlice (store : Json χ → α → α) (zero : α) (value : Json χ) (slice : Slice α) :
    Slice α :=
  match value with
  -- an empty array makes a new slice
  | .arr [] => .nil
  | .arr elements =>
      ⟨storeSlots store zero elements slice.backing, slice.backing.drop elements.length⟩
  | .null => .nil
  | _ => slice

/-- The struct that is decoded into, whose slices keep their backing arrays. -/
structure RequestStruct where
  auctionId : List UInt8
  categoryIds : Slice ℕ
  feature : ℤ
  zoneWidth : ℕ
  zoneHeight : ℕ
  blockDomains : Slice (List UInt8)

/-- The request as the auction reads it. -/
def RequestStruct.request (struct : RequestStruct) : Request UInt8 :=
  ⟨struct.auctionId, struct.categoryIds.elements, struct.feature, struct.zoneWidth,
    struct.zoneHeight, struct.blockDomains.elements⟩

def storeField (struct : RequestStruct) (value : Json UInt8) : Field → RequestStruct
  | .auctionId => { struct with auctionId := storeString value struct.auctionId }
  | .categoryIds => { struct with categoryIds := storeSlice storeUint 0 value struct.categoryIds }
  | .zoneFeature => { struct with feature := storeInt value struct.feature }
  | .zoneWidth => { struct with zoneWidth := storeUint value struct.zoneWidth }
  | .zoneHeight => { struct with zoneHeight := storeUint value struct.zoneHeight }
  | .blockDomains =>
      { struct with blockDomains := storeSlice storeString [] value struct.blockDomains }

def storeMember (struct : RequestStruct) (member : List UInt8 × Json UInt8) : RequestStruct :=
  match fieldOf member.1 with
  | none => struct
  | some field => storeField struct member.2 field

/-! ## `server/request_parser.go` -/

/-- `model.Request{}` -/
def zeroRequest : RequestStruct :=
  ⟨[], .nil, 0, 0, 0, .nil⟩

def decode (value : Json UInt8) (struct : RequestStruct) : RequestStruct :=
  match value with
  | .obj members => members.foldl storeMember struct
  | _ => struct

def parseRequest (scan : List UInt8 → Option (Json UInt8)) (body : List UInt8) : Request UInt8 :=
  match scan body with
  | none => zeroRequest.request
  | some value => (decode value zeroRequest).request

/-! ## Objects -/

def int64? : Json χ → Option ℤ
  | .int n => if -2 ^ 63 ≤ n ∧ n < 2 ^ 63 then some n else none
  | _ => none

def uint64? : Json χ → Option ℕ
  | .int n => if 0 ≤ n ∧ n < 2 ^ 64 then some n.toNat else none
  | _ => none

/-- What a member stores into the field. -/
def memberValue? (field : Field) (read? : Json UInt8 → Option α)
    (member : List UInt8 × Json UInt8) : Option α :=
  if fieldOf member.1 = some field then read? member.2 else none

/-- The last value that the members store into the field. -/
def stored (members : List (List UInt8 × Json UInt8)) (field : Field)
    (read? : Json UInt8 → Option α) (default : α) : α :=
  (Loops.lastWrite (memberValue? field read?) members).getD default

/-- null and the empty array drop a slice, and all that was stored into it. -/
def drops : Json χ → Bool
  | .null => true
  | .arr [] => true
  | _ => false

/-- The length of the slice after a value is stored into it. -/
def length? : Json χ → Option ℕ
  | .arr elements => some elements.length
  | .null => some 0
  | _ => none

/-- What a value stores into the slot `i`. -/
def slot? (read? : Json χ → Option α) (i : ℕ) : Json χ → Option α
  | .arr elements => elements[i]?.bind read?
  | _ => none

/-- The members after the last one that drops the slice of the field. -/
def sinceDropped (field : Field) (members : List (List UInt8 × Json UInt8)) :
    List (List UInt8 × Json UInt8) :=
  members.rtakeWhile fun member => !(fieldOf member.1 = some field && drops member.2)

/-- The slot `i` of the slice, whether it is in use or not: the last value stored into
it since the slice was dropped. -/
def slotOf (members : List (List UInt8 × Json UInt8)) (field : Field)
    (read? : Json UInt8 → Option α) (zero : α) (i : ℕ) : α :=
  stored (sinceDropped field members) field (slot? read? i) zero

/-- The slots of the slice that the last length has in use. -/
def entriesOf (members : List (List UInt8 × Json UInt8)) (field : Field)
    (read? : Json UInt8 → Option α) (zero : α) : List α :=
  (List.range (stored members field length? 0)).map (slotOf members field read? zero)

/-- The request that the members leave behind. -/
def storedRequest (members : List (List UInt8 × Json UInt8)) : Request UInt8 where
  auctionId := stored members .auctionId Json.string? []
  categoryIds := entriesOf members .categoryIds uint64? 0
  feature := stored members .zoneFeature int64? 0
  zoneWidth := stored members .zoneWidth uint64? 0
  zoneHeight := stored members .zoneHeight uint64? 0
  blockDomains := entriesOf members .blockDomains Json.string? []

theorem storeString_eq (value : Json χ) (s : List χ) :
    storeString value s = value.string?.getD s := by
  cases value <;> rfl

theorem storeInt_eq (value : Json χ) (n : ℤ) : storeInt value n = (int64? value).getD n := by
  cases value with
  | int n' =>
      rw [storeInt, int64?]
      exact (apply_ite (Option.getD · n) _ (some n') none).symm
  | _ => rfl

theorem storeUint_eq (value : Json χ) (n : ℕ) : storeUint value n = (uint64? value).getD n := by
  cases value with
  | int n' =>
      rw [storeUint, uint64?]
      exact (apply_ite (Option.getD · n) _ (some n'.toNat) none).symm
  | _ => rfl

/-- What the members leave of the slice of the field. -/
def storeMembers (store : Json UInt8 → α → α) (zero : α) (field : Field)
    (members : List (List UInt8 × Json UInt8)) (slice : Slice α) : Slice α :=
  members.foldl
    (fun slice member =>
      if fieldOf member.1 = some field then storeSlice store zero member.2 slice else slice)
    slice

theorem storeMembers_cons (store : Json UInt8 → α → α) (zero : α) (field : Field)
    (member : List UInt8 × Json UInt8) (members : List (List UInt8 × Json UInt8))
    (slice : Slice α) :
    storeMembers store zero field (member :: members) slice
      = storeMembers store zero field members
          (if fieldOf member.1 = some field then storeSlice store zero member.2 slice else slice) :=
  rfl

theorem storeMembers_append (store : Json UInt8 → α → α) (zero : α) (field : Field)
    (members members' : List (List UInt8 × Json UInt8)) (slice : Slice α) :
    storeMembers store zero field (members ++ members') slice
      = storeMembers store zero field members' (storeMembers store zero field members slice) :=
  List.foldl_append ..

/-- A field that is read alone is stored alone. -/
theorem decode_eq_foldl {γ : Type} (get : RequestStruct → γ) {store : Json UInt8 → γ → γ}
    (field : Field)
    (hstore : ∀ struct value field', get (storeField struct value field')
      = if field' = field then store value (get struct) else get struct)
    (members : List (List UInt8 × Json UInt8)) :
    get (decode (.obj members) zeroRequest)
      = members.foldl
          (fun x member => if fieldOf member.1 = some field then store member.2 x else x)
          (get zeroRequest) := by
  refine (List.foldl_hom get fun struct member => ?_).symm
  rw [storeMember]
  cases fieldOf member.1 with
  | none => rfl
  | some field' => simp only [hstore, Option.some_inj]

/-- Values that are stored whole leave the last one. -/
theorem decode_eq_stored {γ : Type} (get : RequestStruct → γ) {store : Json UInt8 → γ → γ}
    {read? : Json UInt8 → Option γ} (field : Field)
    (hstore : ∀ struct value field', get (storeField struct value field')
      = if field' = field then store value (get struct) else get struct)
    (hread : ∀ value x, store value x = (read? value).getD x)
    (members : List (List UInt8 × Json UInt8)) :
    get (decode (.obj members) zeroRequest) = stored members field read? (get zeroRequest) := by
  rw [decode_eq_foldl get field hstore]
  change id (members.foldl _ _) = _
  refine Loops.foldl_eq_lastWrite (fun x member => ?_) members (get zeroRequest)
  rw [memberValue?]
  by_cases hfield : fieldOf member.1 = some field
  · rw [if_pos hfield, if_pos hfield]
    exact hread member.2 x
  · rw [if_neg hfield, if_neg hfield]
    rfl

/-! ## Slots -/

section Slots

variable (store : Json χ → α → α) (zero : α)

theorem storeSlice_elements (elements : List (Json χ)) (slice : Slice α) :
    (storeSlice store zero (.arr elements) slice).elements
      = storeSlots store zero elements slice.backing := by
  cases elements <;> rfl

theorem storeSlice_of_drops {value : Json χ} (h : drops value = true) (slice : Slice α) :
    storeSlice store zero value slice = .nil := by
  unfold drops at h
  split at h
  · rfl
  · rfl
  · cases h

/-- Without a backing array every slot starts as the zero value. -/
theorem storeSlots_nil (elements : List (Json χ)) :
    storeSlots store zero elements [] = elements.map (store · zero) := by
  induction elements with
  | nil => rfl
  | cons element elements ih => exact congrArg (store element zero :: ·) ih

/-- Every element is stored into what its slot holds. -/
theorem getElem?_storeSlots (elements : List (Json χ)) (backing : List α) (i : ℕ) :
    (storeSlots store zero elements backing)[i]?
      = elements[i]?.map fun element => store element (backing.getD i zero) := by
  induction elements generalizing backing i with
  | nil => rfl
  | cons element elements ih =>
      cases i with
      | zero => cases backing <;> rfl
      | succ i =>
          rw [storeSlots, List.getElem?_cons_succ, List.getElem?_cons_succ, ih]
          cases backing <;> rfl

theorem store_mem_storeSlots (l₁ l₂ : List (Json χ)) (element : Json χ) (backing : List α) :
    store element (backing.getD l₁.length zero)
      ∈ storeSlots store zero (l₁ ++ element :: l₂) backing := by
  have helement : (l₁ ++ element :: l₂)[l₁.length]? = some element := by simp
  refine List.mem_of_getElem? (i := l₁.length) ?_
  rw [getElem?_storeSlots, helement, Option.map_some]

theorem length_storeSlots (elements : List (Json χ)) (backing : List α) :
    (storeSlots store zero elements backing).length = elements.length := by
  induction elements generalizing backing with
  | nil => rfl
  | cons element elements ih => exact congrArg (· + 1) (ih backing.tail)

theorem length_storeSlice (value : Json χ) (slice : Slice α) :
    (storeSlice store zero value slice).elements.length
      = (length? value).getD slice.elements.length := by
  cases value with
  | arr elements => rw [storeSlice_elements, length_storeSlots, length?, Option.getD_some]
  | _ => rfl

variable {store} {read? : Json χ → Option α}

theorem getD_storeSlots_append (hread : ∀ value x, store value x = (read? value).getD x)
    (elements : List (Json χ)) (backing : List α) (i : ℕ) :
    (storeSlots store zero elements backing ++ backing.drop elements.length).getD i zero
      = (elements[i]?.bind read?).getD (backing.getD i zero) := by
  induction elements generalizing backing i with
  | nil => rfl
  | cons element elements ih =>
      cases i with
      | zero => cases backing <;> exact hread element _
      | succ i =>
          cases backing with
          | nil =>
              have htail := ih [] i
              rw [List.drop_nil] at htail
              exact htail
          | cons x backing => exact ih backing i

/-- A value that does not drop the slice leaves what it stores nothing into. -/
theorem getD_backing_storeSlice (hread : ∀ value x, store value x = (read? value).getD x)
    (value : Json χ) (slice : Slice α) (i : ℕ) :
    (storeSlice store zero value slice).backing.getD i zero
      = if drops value then zero else (slot? read? i value).getD (slice.backing.getD i zero) := by
  cases value with
  | arr elements =>
      cases elements with
      | nil => rfl
      | cons element elements =>
          exact getD_storeSlots_append zero hread (element :: elements) slice.backing i
  | _ => rfl

end Slots

/-! ## The entries of a slice -/

section Entries

variable {store : Json UInt8 → α → α} {read? : Json UInt8 → Option α}

theorem stored_concat (members : List (List UInt8 × Json UInt8))
    (member : List UInt8 × Json UInt8) (field : Field) (default : α) :
    stored (members ++ [member]) field read? default
      = (memberValue? field read? member).getD (stored members field read? default) := by
  rw [stored, Loops.lastWrite_append, Loops.lastWrite_cons]
  cases memberValue? field read? member <;> rfl

theorem length_storeMembers (store : Json UInt8 → α → α) (zero : α) (field : Field)
    (members : List (List UInt8 × Json UInt8)) :
    (storeMembers store zero field members .nil).elements.length
      = stored members field length? 0 := by
  induction members using List.reverseRecOn with
  | nil => rfl
  | append_singleton members member ih =>
      rw [storeMembers_append, storeMembers_cons, stored_concat, memberValue?, ← ih]
      by_cases hfield : fieldOf member.1 = some field
      · rw [if_pos hfield, if_pos hfield]
        exact length_storeSlice store zero member.2 _
      · rw [if_neg hfield, if_neg hfield]
        rfl

theorem getD_backing_storeMembers (hread : ∀ value x, store value x = (read? value).getD x)
    (zero : α) (field : Field) (members : List (List UInt8 × Json UInt8)) (i : ℕ) :
    (storeMembers store zero field members .nil).backing.getD i zero
      = slotOf members field read? zero i := by
  induction members using List.reverseRecOn with
  | nil => rfl
  | append_singleton members member ih =>
      have hmember : memberValue? field (slot? read? i) member
          = if fieldOf member.1 = some field then slot? read? i member.2 else none := rfl
      rw [storeMembers_append, storeMembers_cons, slotOf, sinceDropped, List.rtakeWhile_concat]
      by_cases hfield : fieldOf member.1 = some field
      · rw [if_pos hfield] at hmember ⊢
        cases hdrops : drops member.2 with
        | true =>
            rw [if_neg (by simp [hfield])]
            show (storeSlice store zero member.2 _).backing.getD i zero = zero
            rw [getD_backing_storeSlice zero hread, hdrops, if_pos rfl]
        | false =>
            rw [if_pos (by simp), stored_concat, hmember]
            show (storeSlice store zero member.2 _).backing.getD i zero = _
            rw [getD_backing_storeSlice zero hread, hdrops, if_neg Bool.false_ne_true, ih]
            rfl
      · rw [if_neg hfield] at hmember ⊢
        rw [if_pos (by simp [hfield]), stored_concat, hmember]
        exact ih

/-- The members leave the entries of the slots in use. -/
theorem storeMembers_elements (hread : ∀ value x, store value x = (read? value).getD x)
    (zero : α) (field : Field) (members : List (List UInt8 × Json UInt8)) :
    (storeMembers store zero field members .nil).elements
      = entriesOf members field read? zero := by
  refine List.ext_getElem ?_ fun i hi _ => ?_
  · rw [length_storeMembers, entriesOf, List.length_map, List.length_range]
  · simp only [entriesOf, List.getElem_map, List.getElem_range, ← getD_backing_storeMembers hread,
      Slice.backing, List.getD_append _ _ _ _ hi, List.getD_eq_getElem _ _ hi]

theorem categoryIds_storedRequest (members : List (List UInt8 × Json UInt8)) :
    (storedRequest members).categoryIds
      = (storeMembers storeUint 0 .categoryIds members .nil).elements :=
  (storeMembers_elements storeUint_eq 0 .categoryIds members).symm

theorem blockDomains_storedRequest (members : List (List UInt8 × Json UInt8)) :
    (storedRequest members).blockDomains
      = (storeMembers storeString [] .blockDomains members .nil).elements :=
  (storeMembers_elements storeString_eq [] .blockDomains members).symm

end Entries

/-- **From any object** the parser takes the last value stored into each field, and into
each slot of a slice. -/
theorem parseRequest_obj {members : List (List UInt8 × Json UInt8)}
    {scan : List UInt8 → Option (Json UInt8)} {body : List UInt8}
    (hscan : scan body = some (.obj members)) :
    parseRequest scan body = storedRequest members := by
  rw [parseRequest, hscan]
  ext1
  · exact decode_eq_stored RequestStruct.auctionId .auctionId
      (fun _ _ field => by cases field <;> rfl) storeString_eq members
  · rw [categoryIds_storedRequest]
    exact congrArg Slice.elements (decode_eq_foldl RequestStruct.categoryIds .categoryIds
      (fun _ _ field => by cases field <;> rfl) members)
  · exact decode_eq_stored RequestStruct.feature .zoneFeature
      (fun _ _ field => by cases field <;> rfl) storeInt_eq members
  · exact decode_eq_stored RequestStruct.zoneWidth .zoneWidth
      (fun _ _ field => by cases field <;> rfl) storeUint_eq members
  · exact decode_eq_stored RequestStruct.zoneHeight .zoneHeight
      (fun _ _ field => by cases field <;> rfl) storeUint_eq members
  · rw [blockDomains_storedRequest]
    exact congrArg Slice.elements (decode_eq_foldl RequestStruct.blockDomains .blockDomains
      (fun _ _ field => by cases field <;> rfl) members)

/-- A null leaves its slot alone: here it keeps the entry of an earlier member, and
there one that is past the length. -/
example :
    (storedRequest
        [(ascii "block_domains", .arr [.str (ascii "a"), .str (ascii "b")]),
          (ascii "block_domains", .arr [.null])]).blockDomains = [ascii "a"]
      ∧ (storedRequest
        [(ascii "block_domains", .arr [.str (ascii "a"), .str (ascii "b")]),
          (ascii "block_domains", .arr [.str (ascii "c")]),
          (ascii "block_domains", .arr [.null, .null, .null])]).blockDomains
        = [ascii "c", ascii "b", []] := by
  decide

/-! ## Well-typed objects -/

theorem fieldOf_name (field : Field) : fieldOf field.name = some field := by
  cases field <;> rfl

/-- The names are matched without regard to case. -/
example : fieldOf (ascii "Auction_ID") = some .auctionId := by decide

/-- Among the members of a well-typed object only the one of its name writes a field. -/
theorem fieldOf_eq_some_iff {members : List (List UInt8 × Json UInt8)} (h : WellTyped members)
    {member : List UInt8 × Json UInt8} (hmember : member ∈ members) (field : Field) :
    fieldOf member.1 = some field ↔ member.1 = field.name := by
  obtain ⟨field', hname, -⟩ := h.typed member hmember
  rw [hname, fieldOf_name, Option.some_inj]
  exact ⟨congrArg Field.name, fun heq => Field.name_injective heq⟩

theorem stored_eq_readD {members : List (List UInt8 × Json UInt8)} (h : WellTyped members)
    (field : Field) {read? read?' : Json UInt8 → Option α}
    (hread : ∀ value, field.HasType value → read? value = read?' value) (default : α) :
    stored members field read? default
      = (Json.obj members).readD field.name read?' default := by
  have hvalue : ∀ member ∈ members, memberValue? field read? member
      = if member.1 = field.name then read? member.2 else none := by
    intro member hmember
    simp only [memberValue?, fieldOf_eq_some_iff h hmember]
  rw [stored, Loops.lastWrite_congr hvalue, Json.lastWrite_eq_lookup h.nodup, Json.readD,
    Json.member?]
  cases hlookup : members.lookup field.name with
  | none => rfl
  | some value => rw [Option.bind_some, Option.bind_some, hread value (h.hasType hlookup)]

/-- A slice that is stored once has no backing array before. -/
theorem storeMembers_eq_readD {members : List (List UInt8 × Json UInt8)} (h : WellTyped members)
    (field : Field) {store : Json UInt8 → α → α} {zero : α}
    {read? : Json UInt8 → Option (List α)}
    (hread : ∀ value, field.HasType value →
      read? value = some (storeSlice store zero value .nil).elements) :
    (storeMembers store zero field members .nil).elements
      = (Json.obj members).readD field.name read? [] := by
  have hstep : ∀ slice, ∀ member ∈ members,
      (if fieldOf member.1 = some field then storeSlice store zero member.2 slice else slice)
        = if member.1 = field.name then storeSlice store zero member.2 slice else slice := by
    intro slice member hmember
    simp only [fieldOf_eq_some_iff h hmember]
  rw [storeMembers, List.foldl_ext _ _ _ hstep, Json.foldl_eq_lookup h.nodup, Json.readD,
    Json.member?]
  cases hlookup : members.lookup field.name with
  | none => rfl
  | some value =>
      rw [Option.bind_some, hread value (h.hasType hlookup)]
      rfl

/-! ### Typed values fit the fields -/

theorem int64?_eq_int32? {value : Json χ} (h : Field.zoneFeature.HasType value) :
    int64? value = value.int32? := by
  obtain ⟨feature, hfeature, rfl, hread⟩ := h.int32
  have hint : -2 ^ 63 ≤ feature ∧ feature < 2 ^ 63 := by omega
  rw [hread, int64?, if_pos hint]

theorem uint64?_eq_uint32? {value : Json χ} (h : ∃ n : ℕ, n < 2 ^ 32 ∧ value = .int n) :
    uint64? value = value.uint32? := by
  obtain ⟨n, hn, rfl, hread⟩ := Field.HasType.uint32 h
  have huint : 0 ≤ (n : ℤ) ∧ (n : ℤ) < 2 ^ 64 := by omega
  rw [hread, uint64?, if_pos huint, Int.toNat_natCast]

theorem storeSlice_arr {store : Json χ → α → α} {zero : α} {mk : α → Json χ} {xs : List α}
    (hstore : ∀ x ∈ xs, store (mk x) zero = x) :
    (storeSlice store zero (.arr (xs.map mk)) .nil).elements = xs := by
  rw [storeSlice_elements]
  show storeSlots store zero (xs.map mk) [] = xs
  rw [storeSlots_nil, List.map_map]
  exact (List.map_congr_left hstore).trans (List.map_id xs)

theorem uint32s_eq_storeSlice {value : Json χ} (h : Field.categoryIds.HasType value) :
    value.listOf? Json.uint32? = some (storeSlice storeUint 0 value .nil).elements := by
  obtain ⟨ids, hids, rfl, hread⟩ := h.uint32s
  rw [hread]
  refine congrArg some (storeSlice_arr fun id hid => ?_).symm
  have huint : 0 ≤ (id : ℤ) ∧ (id : ℤ) < 2 ^ 64 := by
    have := hids id hid
    omega
  rw [storeUint, if_pos huint, Int.toNat_natCast]

theorem strings_eq_storeSlice {value : Json χ} (h : Field.blockDomains.HasType value) :
    value.listOf? Json.string? = some (storeSlice storeString [] value .nil).elements := by
  obtain ⟨domains, rfl, hread⟩ := h.strings
  rw [hread]
  exact congrArg some (storeSlice_arr fun _ _ => rfl).symm

/-- **From a well-typed object** the parser takes the request it asks for. -/
theorem parseRequest_wellTyped {members : List (List UInt8 × Json UInt8)}
    (h : WellTyped members) {scan : List UInt8 → Option (Json UInt8)} {body : List UInt8}
    (hscan : scan body = some (.obj members)) :
    parseRequest scan body = requestOf (.obj members) := by
  rw [parseRequest_obj hscan]
  ext1
  · exact stored_eq_readD h .auctionId (fun _ _ => rfl) []
  · rw [categoryIds_storedRequest]
    exact storeMembers_eq_readD h .categoryIds fun _ => uint32s_eq_storeSlice
  · exact stored_eq_readD h .zoneFeature (fun _ => int64?_eq_int32?) 0
  · exact stored_eq_readD h .zoneWidth (fun _ => uint64?_eq_uint32?) 0
  · exact stored_eq_readD h .zoneHeight (fun _ => uint64?_eq_uint32?) 0
  · rw [blockDomains_storedRequest]
    exact storeMembers_eq_readD h .blockDomains fun _ => strings_eq_storeSlice

end Go

end AuctionWorker
