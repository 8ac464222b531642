import AuctionWorker.PyAuction
import AuctionWorker.RequestBody

/-!
# The Python request parser

`python/server/request_parser.py`. `loads` stands for the decoding of the body
and `json.loads`, none where either raises its ValueError.

The parser checks no type: a request holds whatever the document had under the
six names, so that its fields are JSON values here (`RawRequest`). `in` and the
subscript work on the type the root happens to have; of repeated members a
dictionary holds the last.

**Main result** (`parseRequest_wellTyped`): from a well-typed object the parser
takes a request equal to the one it asks for, the number 0 being spelled 0.0
when the zone has no feature.
-/

namespace AuctionWorker

namespace Py

open Text

variable {χ : Type} [DecidableEq χ] [CodeUnit χ]

/-! ## Operators on a document -/

/-- `name in json` -/
def contains (json : Json χ) (name : List χ) : Except PyException Bool :=
  match json with
  | .obj members => .ok (members.reverse.lookup name).isSome
  | .arr elements => .ok (elements.any fun element => element.string? = some name)
  | .str s => .ok (find s name).isSome
  | _ => .error .typeError

/-- `json[name]` -/
def subscript (json : Json χ) (name : List χ) : Except PyException (Json χ) :=
  match json with
  | .obj members =>
      match members.reverse.lookup name with
      | some value => .ok value
      | none => .error .keyError
  | _ => .error .typeError

/-! ## `server/request_parser.py` -/

/-- `model.request.Request`, as the parser fills it. -/
structure RawRequest (χ : Type) where
  auctionId : Json χ
  categoryIds : Json χ
  feature : Json χ
  zoneWidth : Json χ
  zoneHeight : Json χ
  blockDomains : Json χ

/-- `if name in json: … = json[name]`, for a variable that starts at `default`. -/
def readMember (json : Json χ) (name : List χ) (default : Json χ) :
    Except PyException (Json χ) := do
  if ← contains json name then subscript json name else pure default

def parseRequest (loads : List UInt8 → Option (Json χ)) (data : List UInt8) :
    Except PyException (RawRequest χ) := do
  let json ← match loads data with
    | none => .error .valueError
    | some json => .ok json
  let auctionId ← readMember json (ascii "auction_id") (.str [])
  let categoryIds ← readMember json (ascii "category_ids") (.arr [])
  let feature ← readMember json (ascii "zone_feature") (.decimal 0 0)
  let zoneWidth ← readMember json (ascii "zone_width") (.int 0)
  let zoneHeight ← readMember json (ascii "zone_height") (.int 0)
  let blockDomains ← readMember json (ascii "block_domains") (.arr [])
  pure ⟨auctionId, categoryIds, feature, zoneWidth, zoneHeight, blockDomains⟩

/-! ## Equality with a request -/

/-- The fields are equal to those of `request`, numbers as numbers. -/
structure RawRequest.Equals (raw : RawRequest χ) (request : Request χ) : Prop where
  auctionId : raw.auctionId = .str request.auctionId
  categoryIds : raw.categoryIds = .nats request.categoryIds
  feature : raw.feature.number? = some (request.feature : ℚ)
  zoneWidth : raw.zoneWidth = .int request.zoneWidth
  zoneHeight : raw.zoneHeight = .int request.zoneHeight
  blockDomains : raw.blockDomains = .strs request.blockDomains

/-! ## Well-typed objects -/

section WellTyped

variable {members : List (List χ × Json χ)}

omit [CodeUnit χ] in
theorem readMember_obj (hnodup : (members.map Prod.fst).Nodup) (name : List χ)
    (default : Json χ) :
    readMember (.obj members) name default = .ok ((members.lookup name).getD default) := by
  rw [readMember, contains, subscript, Json.lookup_reverse hnodup]
  cases members.lookup name with
  | none => rfl
  | some value => rfl

/-- A typed member, or its default, is the reading of it. -/
theorem lookup_getD_readD (h : WellTyped members) (field : Field) {α : Type}
    {read? : Json χ → Option α} {zero : α} {default : Json χ} {P : Json χ → α → Prop}
    (hdefault : P default zero)
    (hread : ∀ value, field.HasType value → ∃ a, read? value = some a ∧ P value a) :
    P ((members.lookup field.name).getD default)
      ((Json.obj members).readD field.name read? zero) := by
  rw [Json.readD, Json.member?]
  cases hvalue : members.lookup field.name with
  | none => exact hdefault
  | some value =>
      obtain ⟨a, hread, hP⟩ := hread value (h.hasType hvalue)
      rw [Option.bind_some, hread]
      exact hP

/-- **From a well-typed object** the parser takes the request it asks for. -/
theorem parseRequest_wellTyped (h : WellTyped members) {loads : List UInt8 → Option (Json χ)}
    {data : List UInt8} (hloads : loads data = some (.obj members)) :
    ∃ raw, parseRequest loads data = .ok raw ∧ raw.Equals (requestOf (.obj members)) := by
  unfold parseRequest
  simp only [hloads, bind, Except.bind, readMember_obj h.nodup]
  refine ⟨_, rfl, ?_, ?_, ?_, ?_, ?_, ?_⟩
  · refine lookup_getD_readD h .auctionId (P := fun value id => value = .str id)
      rfl fun value htype => ?_
    obtain ⟨id, rfl, hread⟩ := htype.string
    exact ⟨id, hread, rfl⟩
  · refine lookup_getD_readD h .categoryIds (P := fun value ids => value = .nats ids)
      rfl fun value htype => ?_
    obtain ⟨ids, -, rfl, hread⟩ := htype.uint32s
    exact ⟨ids, hread, rfl⟩
  · refine lookup_getD_readD h .zoneFeature (P := fun value (n : ℤ) => value.number? = some (n : ℚ))
      (by simp [Json.number?]) fun value htype => ?_
    obtain ⟨feature, -, rfl, hread⟩ := htype.int32
    exact ⟨feature, hread, rfl⟩
  · refine lookup_getD_readD h .zoneWidth (P := fun value (n : ℕ) => value = .int n)
      rfl fun value htype => ?_
    obtain ⟨width, -, rfl, hread⟩ := Field.HasType.uint32 htype
    exact ⟨width, hread, rfl⟩
  · refine lookup_getD_readD h .zoneHeight (P := fun value (n : ℕ) => value = .int n)
      rfl fun value htype => ?_
    obtain ⟨height, -, rfl, hread⟩ := Field.HasType.uint32 htype
    exact ⟨height, hread, rfl⟩
  · refine lookup_getD_readD h .blockDomains (P := fun value domains => value = .strs domains)
      rfl fun value htype => ?_
    obtain ⟨domains, rfl, hread⟩ := htype.strings
    exact ⟨domains, hread, rfl⟩

end WellTyped

end Py

end AuctionWorker
