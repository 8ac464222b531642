import AuctionWorker.Json
import AuctionWorker.Model
import AuctionWorker.Utf8

/-!
# The request in a body

What a JSON document asks for, independent of the parsers: `requestOf` takes
each of the six members of `doc/request.md` if it is there with its type, and
the member's default otherwise. The parsers of the three implementations are
compared with it.

`WellTyped` are the documents that the documentation promises: every member is
one of the six, has its type and occurs once. The object of a request whose
numbers fit is one of them, and asks for the request (`Request.Fits.requestOf`).
`NulFree` requests have no U+0000
in their strings, which is what a NUL-terminated pointer preserves
(`mapText_cString_eq_self_iff`).
-/

namespace AuctionWorker

open Text

variable {χ ψ : Type}

/-! ## Change of units in a request -/

namespace Request

/-- Apply `f` to every string of a request. -/
def mapText (f : List χ → List ψ) (request : Request χ) : Request ψ where
  auctionId := f request.auctionId
  categoryIds := request.categoryIds
  feature := request.feature
  zoneWidth := request.zoneWidth
  zoneHeight := request.zoneHeight
  blockDomains := request.blockDomains.map f

theorem mapText_eq_self_iff {f : List χ → List χ} {request : Request χ} :
    request.mapText f = request
      ↔ f request.auctionId = request.auctionId ∧ ∀ domain ∈ request.blockDomains,
          f domain = domain := by
  have hdomains : request.blockDomains.map f = request.blockDomains
      ↔ ∀ domain ∈ request.blockDomains, f domain = domain := by
    simpa using List.map_eq_map_iff (f := f) (g := id) (l := request.blockDomains)
  rw [← hdomains]
  cases request with
  | mk auctionId categoryIds feature zoneWidth zoneHeight blockDomains =>
      simp only [mapText, Request.mk.injEq, true_and]

section CodeUnit

variable [CodeUnit χ]

/-- No string of the request contains U+0000. -/
def NulFree (request : Request χ) : Prop :=
  nul ∉ request.auctionId ∧ ∀ domain ∈ request.blockDomains, nul ∉ domain

instance [DecidableEq χ] (request : Request χ) : Decidable request.NulFree :=
  inferInstanceAs (Decidable (_ ∧ _))

theorem mapText_cString_eq_self_iff [DecidableEq χ] {request : Request χ} :
    request.mapText cString = request ↔ request.NulFree := by
  rw [mapText_eq_self_iff, NulFree, cString_eq_self_iff]
  exact and_congr_right fun _ => forall₂_congr fun _ _ => cString_eq_self_iff

end CodeUnit

theorem nulFree_utf8_iff {request : Request Char} :
    (request.mapText utf8).NulFree ↔ request.NulFree := by
  rw [NulFree, NulFree]
  refine and_congr (not_congr nul_mem_utf8_iff) ?_
  rw [mapText, List.forall_mem_map]
  exact forall₂_congr fun _ _ => not_congr nul_mem_utf8_iff

end Request

/-! ## The documented members -/

/-- The members of a request. -/
inductive Field where
  | auctionId
  | categoryIds
  | zoneFeature
  | zoneWidth
  | zoneHeight
  | blockDomains
deriving Repr, DecidableEq

namespace Field

def tag : Field → String
  | auctionId => "auction_id"
  | categoryIds => "category_ids"
  | zoneFeature => "zone_feature"
  | zoneWidth => "zone_width"
  | zoneHeight => "zone_height"
  | blockDomains => "block_domains"

theorem tag_ascii (field : Field) : ∀ c ∈ field.tag.toList, c.toNat < 128 := by
  have hall : (field.tag.toList.all fun c => c.toNat < 128) = true := by
    cases field <;> rfl
  simpa only [List.all_eq_true, decide_eq_true_eq] using hall

theorem tag_injective {a b : Field} (h : a.tag = b.tag) : a = b := by
  revert h
  cases a <;> cases b <;> decide

/-- The documented type of the member. -/
def HasType (value : Json χ) : Field → Prop
  | auctionId => ∃ id, value = .str id
  | categoryIds => ∃ ids : List ℕ, (∀ id ∈ ids, id < 2 ^ 32) ∧ value = .nats ids
  | zoneFeature => ∃ feature : ℤ, (-2 ^ 31 ≤ feature ∧ feature < 2 ^ 31) ∧ value = .int feature
  | zoneWidth => ∃ width : ℕ, width < 2 ^ 32 ∧ value = .int width
  | zoneHeight => ∃ height : ℕ, height < 2 ^ 32 ∧ value = .int height
  | blockDomains => ∃ domains : List (List χ), value = .strs domains

/-! ### A typed value is read without a loss -/

variable {value : Json χ}

theorem HasType.string (h : auctionId.HasType value) :
    ∃ id, value = .str id ∧ value.string? = some id := by
  obtain ⟨id, rfl⟩ := h
  exact ⟨id, rfl, rfl⟩

theorem HasType.int32 (h : zoneFeature.HasType value) :
    ∃ feature, (-2 ^ 31 ≤ feature ∧ feature < 2 ^ 31) ∧ value = .int feature
      ∧ value.int32? = some feature := by
  obtain ⟨feature, hfeature, rfl⟩ := h
  exact ⟨feature, hfeature, rfl, Json.int32?_int hfeature⟩

theorem HasType.uint32 (h : ∃ n : ℕ, n < 2 ^ 32 ∧ value = .int n) :
    ∃ n : ℕ, n < 2 ^ 32 ∧ value = .int n ∧ value.uint32? = some n := by
  obtain ⟨n, hn, rfl⟩ := h
  exact ⟨n, hn, rfl, Json.uint32?_int hn⟩

theorem HasType.uint32s (h : categoryIds.HasType value) :
    ∃ ids : List ℕ, (∀ id ∈ ids, id < 2 ^ 32) ∧ value = .nats ids
      ∧ value.listOf? Json.uint32? = some ids := by
  obtain ⟨ids, hids, rfl⟩ := h
  exact ⟨ids, hids, rfl, Json.listOf?_arr fun id hid => Json.uint32?_int (hids id hid)⟩

theorem HasType.strings (h : blockDomains.HasType value) :
    ∃ domains, value = .strs domains ∧ value.listOf? Json.string? = some domains := by
  obtain ⟨domains, rfl⟩ := h
  exact ⟨domains, rfl, Json.listOf?_arr fun _ _ => rfl⟩

theorem HasType.mapText {f : List χ → List ψ} {field : Field} (h : field.HasType value) :
    field.HasType (value.mapText f) := by
  cases field with
  | auctionId =>
      obtain ⟨id, rfl⟩ := h
      exact ⟨f id, rfl⟩
  | categoryIds =>
      obtain ⟨ids, hids, rfl⟩ := h
      exact ⟨ids, hids, Json.mapText_nats ids⟩
  | zoneFeature =>
      obtain ⟨feature, hfeature, rfl⟩ := h
      exact ⟨feature, hfeature, rfl⟩
  | zoneWidth | zoneHeight =>
      obtain ⟨n, hn, rfl⟩ := h
      exact ⟨n, hn, rfl⟩
  | blockDomains =>
      obtain ⟨domains, rfl⟩ := h
      exact ⟨domains.map f, Json.mapText_strs domains⟩

/-! ### Names -/

variable [CodeUnit χ]

def name (field : Field) : List χ :=
  ascii field.tag

theorem name_injective {a b : Field} (h : (a.name : List χ) = b.name) : a = b :=
  tag_injective (ascii_injective a.tag_ascii b.tag_ascii h)

theorem utf8_name (field : Field) : utf8 field.name = field.name :=
  utf8_ascii field.tag_ascii

end Field

/-! ## What a document asks for -/

section RequestOf

variable [DecidableEq χ] [CodeUnit χ]

/-- The request a document asks for: each member if it is there with its type,
else the member's default. -/
def requestOf (document : Json χ) : Request χ where
  auctionId := document.readD Field.auctionId.name Json.string? []
  categoryIds := document.readD Field.categoryIds.name (Json.listOf? Json.uint32?) []
  feature := document.readD Field.zoneFeature.name Json.int32? 0
  zoneWidth := document.readD Field.zoneWidth.name Json.uint32? 0
  zoneHeight := document.readD Field.zoneHeight.name Json.uint32? 0
  blockDomains := document.readD Field.blockDomains.name (Json.listOf? Json.string?) []

end RequestOf

/-- What a document asks for does not depend on the units. -/
theorem requestOf_utf8 (document : Json Char) :
    requestOf (document.mapText utf8) = (requestOf document).mapText utf8 := by
  have hids := Json.listOf?_mapText (f := utf8) Json.uint32?_mapText
  unfold requestOf Request.mapText
  simp only [← Field.utf8_name]
  rw [Json.readD_mapText utf8_injective hids, Json.readD_mapText utf8_injective Json.int32?_mapText,
    Json.readD_mapText utf8_injective Json.uint32?_mapText,
    Json.readD_mapText utf8_injective Json.uint32?_mapText,
    ← Json.readD_mapText_map utf8_injective Json.string?_mapText,
    ← Json.readD_mapText_map utf8_injective Json.listOf?_string?_mapText]
  rfl

/-- A parser that knows one text. -/
def parseOnly (text : List UInt8) (document : Json χ) (data : List UInt8) : Option (Json χ) :=
  if data = text then some document else none

theorem parseOnly_self (text : List UInt8) (document : Json χ) :
    parseOnly text document text = some document :=
  if_pos rfl

/-! ## Well-typed objects -/

/-- The members of an object as the documentation has them: distinct names, each
of them one of the six, with a value of its type. -/
structure WellTyped [CodeUnit χ] (members : List (List χ × Json χ)) : Prop where
  nodup : (members.map Prod.fst).Nodup
  typed : ∀ member ∈ members, ∃ field : Field, member.1 = field.name ∧ field.HasType member.2

namespace WellTyped

theorem hasType [DecidableEq χ] [CodeUnit χ] {members : List (List χ × Json χ)}
    (h : WellTyped members) {field : Field} {value : Json χ}
    (hvalue : members.lookup field.name = some value) : field.HasType value := by
  rw [Json.lookup_eq_some_iff_mem h.nodup] at hvalue
  obtain ⟨field', hname, htype⟩ := h.typed _ hvalue
  exact Field.name_injective hname ▸ htype

theorem singleton [CodeUnit χ] {field : Field} {value : Json χ} (h : field.HasType value) :
    WellTyped [(field.name, value)] where
  nodup := List.nodup_singleton _
  typed member hmember := by
    rw [List.mem_singleton] at hmember
    exact ⟨field, congrArg Prod.fst hmember, hmember ▸ h⟩

/-- The same members in bytes. -/
theorem utf8 {members : List (List Char × Json Char)} (h : WellTyped members) :
    WellTyped (Json.mapMembers utf8 members) where
  nodup := by
    rw [Json.mapMembers_eq_map, List.map_map]
    have hmap := h.nodup.map utf8_injective
    rwa [List.map_map] at hmap
  typed := by
    rw [Json.mapMembers_eq_map, List.forall_mem_map]
    intro member hmember
    obtain ⟨field, hname, htype⟩ := h.typed member hmember
    refine ⟨field, ?_, htype.mapText⟩
    rw [hname, Field.utf8_name]

end WellTyped

/-! ## The object of a request -/

namespace Request

variable [CodeUnit χ] {request : Request χ}

/-- A request as the members of an object. -/
def members (request : Request χ) : List (List χ × Json χ) :=
  [(Field.auctionId.name, .str request.auctionId),
    (Field.categoryIds.name, .nats request.categoryIds),
    (Field.zoneFeature.name, .int request.feature),
    (Field.zoneWidth.name, .int request.zoneWidth),
    (Field.zoneHeight.name, .int request.zoneHeight),
    (Field.blockDomains.name, .strs request.blockDomains)]

/-- The numbers of the request fit the types of its members. -/
structure Fits (request : Request χ) : Prop where
  categoryIds : ∀ id ∈ request.categoryIds, id < 2 ^ 32
  feature : -2 ^ 31 ≤ request.feature ∧ request.feature < 2 ^ 31
  zoneWidth : request.zoneWidth < 2 ^ 32
  zoneHeight : request.zoneHeight < 2 ^ 32

theorem Fits.wellTyped (h : request.Fits) : WellTyped request.members where
  nodup := by
    show ([Field.auctionId, .categoryIds, .zoneFeature, .zoneWidth, .zoneHeight,
      .blockDomains].map Field.name).Nodup
    exact List.Nodup.map (fun _ _ h => Field.name_injective h) (by decide)
  typed := by
    simp only [members, List.forall_mem_cons, List.not_mem_nil, false_implies, implies_true,
      and_true]
    exact ⟨⟨.auctionId, rfl, _, rfl⟩, ⟨.categoryIds, rfl, _, h.categoryIds, rfl⟩,
      ⟨.zoneFeature, rfl, _, h.feature, rfl⟩, ⟨.zoneWidth, rfl, _, h.zoneWidth, rfl⟩,
      ⟨.zoneHeight, rfl, _, h.zoneHeight, rfl⟩, ⟨.blockDomains, rfl, _, rfl⟩⟩

variable [DecidableEq χ]

theorem Fits.readD (h : request.Fits) (field : Field) {value : Json χ}
    (hmem : (field.name, value) ∈ request.members) {α : Type} {read? : Json χ → Option α}
    {a : α} (hread : read? value = some a) (default : α) :
    (Json.obj request.members).readD field.name read? default = a := by
  have hmember : (Json.obj request.members).member? field.name = some value :=
    (Json.lookup_eq_some_iff_mem h.wellTyped.nodup).mpr hmem
  rw [Json.readD, hmember, Option.bind_some, hread, Option.getD_some]

/-- The object of a request asks for it. -/
theorem Fits.requestOf (h : request.Fits) : requestOf (.obj request.members) = request := by
  ext1
  · exact h.readD .auctionId (.head _) (rfl : Json.string? _ = _) []
  · exact h.readD .categoryIds (.tail _ (.head _))
      (Json.listOf?_arr fun id hid => Json.uint32?_int (h.categoryIds id hid)) []
  · exact h.readD .zoneFeature (.tail _ (.tail _ (.head _))) (Json.int32?_int h.feature) 0
  · exact h.readD .zoneWidth (.tail _ (.tail _ (.tail _ (.head _))))
      (Json.uint32?_int h.zoneWidth) 0
  · exact h.readD .zoneHeight (.tail _ (.tail _ (.tail _ (.tail _ (.head _)))))
      (Json.uint32?_int h.zoneHeight) 0
  · exact h.readD .blockDomains (.tail _ (.tail _ (.tail _ (.tail _ (.tail _ (.head _))))))
      (Json.listOf?_arr fun _ _ => rfl) []

end Request

end AuctionWorker
