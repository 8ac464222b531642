import AuctionWorker.CppParser
import AuctionWorker.GoParser
import AuctionWorker.GoSelection

/-!
# Elements of `block_domains` that are no strings

C++ leaves them out of the request. In Go every element of an array has a slot of
the slice, and a value of another type leaves the slot as it is. A slot that no
member has reached holds the empty string, which occurs in every domain: one such
element blocks every ad (`Go.reaching_of_emptyEntry`). Any other slot still holds
the entry of an earlier member.

Without the element the outcome is the same exactly if the ads on offer to what Go
stores of the two bodies have winners of one text and price, or there are none
(`sameOutcome_iff`). So it is if a later member drops the array
(`sameOutcome_of_dropped`), or if both stored lists of entries block the same
advertisers (`sameOutcome_of_blockAlike`).
-/

namespace AuctionWorker

open Documented Text

/-! ## Two bodies -/

/-- An object that has an array of `block_domains` among its members. -/
def withDomains (before after : List (List UInt8 × Json UInt8)) (elements : List (Json UInt8)) :
    List (List UInt8 × Json UInt8) :=
  before ++ (Field.blockDomains.name, .arr elements) :: after

/-- Both libraries read two bodies as objects that differ in this array alone. -/
structure DifferInDomains (parse scan : List UInt8 → Option (Json UInt8))
    (body body' : List UInt8) (before after : List (List UInt8 × Json UInt8))
    (elements elements' : List (Json UInt8)) : Prop where
  parses : parse body = some (.obj (withDomains before after elements))
  parses' : parse body' = some (.obj (withDomains before after elements'))
  scans : scan body = some (.obj (withDomains before after elements))
  scans' : scan body' = some (.obj (withDomains before after elements'))

/-- Both bodies have the same outcome in C++, and under any runtime in Go. -/
structure SameOutcome (parse scan : List UInt8 → Option (Json UInt8)) (db : Database UInt8)
    (body body' : List UInt8) : Prop where
  cpp : (do Cpp.auction db (← Cpp.parseRequest parse body))
    = do Cpp.auction db (← Cpp.parseRequest parse body')
  go : ∀ runtime, Go.auction runtime Go.noFaults db (Go.parseRequest scan body)
    = Go.auction runtime Go.noFaults db (Go.parseRequest scan body')

section Bodies

variable {parse scan : List UInt8 → Option (Json UInt8)} {body body' : List UInt8}
  {before after : List (List UInt8 × Json UInt8)} {l₁ l₂ : List (Json UInt8)}
  {element : Json UInt8}

/-! ## C++ -/

/-- An element that is no string asks for nothing. -/
theorem requestOf_withDomains (helement : element.string? = none) :
    requestOf (.obj (withDomains before after (l₁ ++ element :: l₂)))
      = requestOf (.obj (withDomains before after (l₁ ++ l₂))) := by
  have hstrings : Json.listOf? Json.string? (.arr (l₁ ++ element :: l₂))
      = Json.listOf? Json.string? (.arr (l₁ ++ l₂)) := by
    show some ((l₁ ++ element :: l₂).filterMap Json.string?)
      = some ((l₁ ++ l₂).filterMap Json.string?)
    rw [List.filterMap_append, List.filterMap_append, List.filterMap_cons_none helement]
  ext1 <;> refine Json.readD_exchange (fun hname => ?_) before after _
  case categoryIds => cases Field.name_injective hname
  case blockDomains => exact hstrings
  all_goals rfl

theorem Cpp.parseRequest_withDomains (helement : element.string? = none)
    (h : DifferInDomains parse scan body body' before after (l₁ ++ element :: l₂) (l₁ ++ l₂)) :
    Cpp.parseRequest parse body = Cpp.parseRequest parse body' := by
  rw [Cpp.parseRequest_obj h.parses, Cpp.parseRequest_obj h.parses', requestOf_withDomains helement]

/-! ## Go: what is stored -/

namespace Go

/-- The slot holds the empty string before its element is decoded: no earlier member
has stored anything else there. -/
def FreshSlot (before : List (List UInt8 × Json UInt8)) (slot : ℕ) : Prop :=
  slotOf before .blockDomains Json.string? [] slot = []

/-- A later member is stored over the array: one of that name up to case, with an
array or null. -/
def Replaced (after : List (List UInt8 × Json UInt8)) : Prop :=
  ∃ member ∈ after, fieldOf member.1 = some .blockDomains
    ∧ (member.2 = .null ∨ ∃ elements, member.2 = .arr elements)

theorem storeMembers_of_not_replaced (h : ¬Replaced after) (slice : Slice (List UInt8)) :
    storeMembers storeString [] .blockDomains after slice = slice := by
  induction after with
  | nil => rfl
  | cons member after ih =>
      have hrest : ¬Replaced after := fun ⟨m, hm, hreplaces⟩ =>
        h ⟨m, List.mem_cons_of_mem _ hm, hreplaces⟩
      have hmember : (if fieldOf member.1 = some .blockDomains
          then storeSlice storeString [] member.2 slice else slice) = slice := by
        by_cases hfield : fieldOf member.1 = some .blockDomains
        · rw [if_pos hfield]
          cases hvalue : member.2 with
          | null => exact absurd ⟨member, List.mem_cons_self, hfield, Or.inl hvalue⟩ h
          | arr elements =>
              exact absurd ⟨member, List.mem_cons_self, hfield, Or.inr ⟨elements, hvalue⟩⟩ h
          | _ => rfl
        · rw [if_neg hfield]
      rw [storeMembers_cons, hmember]
      exact ih hrest

/-- Every slot is fresh before the first member of the name. -/
theorem freshSlot_of_forall_ne (h : ∀ member ∈ before, fieldOf member.1 ≠ some .blockDomains)
    (slot : ℕ) : FreshSlot before slot := by
  have hnot : ¬Replaced before := fun ⟨member, hmember, hfield, _⟩ => h member hmember hfield
  rw [FreshSlot, ← getD_backing_storeMembers storeString_eq, storeMembers_of_not_replaced hnot]
  rfl

/-- A later member drops the slice, and what was stored into it before. -/
def Dropped (after : List (List UInt8 × Json UInt8)) : Prop :=
  ∃ member ∈ after, fieldOf member.1 = some .blockDomains ∧ drops member.2 = true

theorem storeMembers_of_dropped (h : Dropped after) (slice slice' : Slice (List UInt8)) :
    storeMembers storeString [] .blockDomains after slice
      = storeMembers storeString [] .blockDomains after slice' := by
  obtain ⟨member, hmember, hfield, hdrops⟩ := h
  obtain ⟨earlier, later, rfl⟩ := List.append_of_mem hmember
  rw [storeMembers_append, storeMembers_append, storeMembers_cons, storeMembers_cons, if_pos hfield,
    if_pos hfield, storeSlice_of_drops storeString [] hdrops,
    storeSlice_of_drops storeString [] hdrops]

theorem stored_withDomains_of_ne {α : Type} {field : Field} (hne : field ≠ .blockDomains)
    (read? : Json UInt8 → Option α) (default : α) (elements : List (Json UInt8)) :
    stored (withDomains before after elements) field read? default
      = stored (before ++ after) field read? default := by
  have hnone : memberValue? field read? (Field.blockDomains.name, .arr elements) = none := by
    rw [memberValue?, fieldOf_name, if_neg fun h => hne (Option.some.inj h).symm]
  rw [stored, stored, withDomains, Loops.lastWrite_append, Loops.lastWrite_append,
    Loops.lastWrite_cons, hnone, Option.or_none]

/-- The array matters to no other field. -/
theorem storedRequest_withDomains (elements : List (Json UInt8)) :
    storedRequest (withDomains before after elements)
      = { storedRequest (before ++ after) with
          blockDomains := (storedRequest (withDomains before after elements)).blockDomains } := by
  ext1
  case categoryIds =>
    show _ = (storedRequest (before ++ after)).categoryIds
    rw [categoryIds_storedRequest, categoryIds_storedRequest, withDomains, storeMembers_append,
      storeMembers_append, storeMembers_cons, fieldOf_name, if_neg (by decide)]
  case blockDomains => rfl
  all_goals exact stored_withDomains_of_ne (by decide) _ _ elements

theorem blockDomains_withDomains (elements : List (Json UInt8)) :
    (storedRequest (withDomains before after elements)).blockDomains
      = (storeMembers storeString [] .blockDomains after
          (storeSlice storeString [] (.arr elements)
            (storeMembers storeString [] .blockDomains before .nil))).elements := by
  rw [blockDomains_storedRequest, withDomains, storeMembers_append, storeMembers_cons, fieldOf_name,
    if_pos rfl]

/-- A dropped array leaves no trace. -/
theorem storedRequest_of_dropped (h : Dropped after) (elements elements' : List (Json UInt8)) :
    storedRequest (withDomains before after elements)
      = storedRequest (withDomains before after elements') := by
  rw [storedRequest_withDomains, storedRequest_withDomains elements', blockDomains_withDomains,
    blockDomains_withDomains, storeMembers_of_dropped h]

/-- In a fresh slot, an element that is no string leaves the empty string. -/
theorem emptyEntry_of_freshSlot (hfresh : FreshSlot before l₁.length) (hlast : ¬Replaced after)
    (helement : element.string? = none) :
    [] ∈ (storedRequest (withDomains before after (l₁ ++ element :: l₂))).blockDomains := by
  have hmem := store_mem_storeSlots storeString [] l₁ l₂ element
    (storeMembers storeString [] .blockDomains before .nil).backing
  rw [getD_backing_storeMembers storeString_eq, hfresh, storeString_eq, helement,
    Option.getD_none] at hmem
  rw [blockDomains_withDomains, storeMembers_of_not_replaced hlast, storeSlice_elements]
  exact hmem

end Go

end Bodies

/-! ## Go: which ads are on offer -/

namespace Go

variable {χ : Type} {db : Database χ} {request : Request χ}

/-- The type of the ad's advertiser lets the ad pass: NULL is not delivered, and only
allow and deny block anything. -/
def TypeLets (db : Database χ) (request : Request χ) (ads : Ads χ) : Prop :=
  ∃ row ∈ db.advertisers, row.advertiserId = ads.advertiserId
    ∧ ∃ type, row.categoryBlockingType = some type
      ∧ (HasCategories db ads.advertiserId →
        (type = allowType → CategoriesMeet db request ads.advertiserId)
          ∧ (type = denyType → ¬CategoriesMeet db request ads.advertiserId))

/-- The ad takes part in the auction, whatever types are stored. -/
structure OnOffer (db : Database χ) (request : Request χ) (ads : Ads χ) : Prop where
  stored : ads ∈ db.adses
  size : SizeMatches db request ads
  domain : DomainAllowed db request ads
  category : TypeLets db request ads
  feature : HasFeature db ads

theorem eq_ALLOW_iff {type : Fin 256} : (type.val : ℤ) = ALLOW ↔ type = allowType := by
  rw [Fin.ext_iff]
  exact Nat.cast_inj (n := 0)

theorem eq_DENY_iff {type : Fin 256} : (type.val : ℤ) = DENY ↔ type = denyType := by
  rw [Fin.ext_iff]
  exact Nat.cast_inj (n := 1)

/-- The decision of the category stage on any type that is delivered. -/
theorem blocked_noFaults {ads : Ads χ} {advertiser : Advertiser χ ℤ}
    (hfetch : fetchAdvertiser .success db ads.advertiserId = (advertiser, none)) :
    blocked noFaults db request ads = false
      ↔ (HasCategories db ads.advertiserId →
        (advertiser.categoryBlockingType = ALLOW → CategoriesMeet db request ads.advertiserId)
          ∧ (advertiser.categoryBlockingType = DENY →
            ¬CategoriesMeet db request ads.advertiserId)) := by
  rcases fetchCategoryBlocking_success db ads.advertiserId with
    ⟨hnil, err, herr⟩ | ⟨hcats, hblocking⟩
  · simp [blocked, noFaults, hfetch, herr, hasCategories_iff, hnil]
  · rw [forall_prop_of_true (hasCategories_iff.mpr hcats)]
    simp only [blocked, noFaults, hfetch, hblocking, categoryBlocking_stored]
    by_cases hallow : advertiser.categoryBlockingType = ALLOW
    · simp [hallow, ALLOW, DENY]
    · by_cases hdeny : advertiser.categoryBlockingType = DENY
      · simp [hdeny, ALLOW, DENY]
      · simp [hallow, hdeny]

variable [DecidableEq χ]

theorem mem_reaching_noFaults {ads : Ads χ} :
    ads ∈ reaching noFaults db request ↔ OnOffer db request ads := by
  constructor
  · rintro ⟨⟨-, hstored, hsize, hdomain, hcategory⟩, hfeature⟩
    obtain ⟨row, hrow, hid, ⟨-, herr⟩ | ⟨type, htype, hfetch⟩⟩ := fetchAdvertiser_success hstored
    · simp [domainKept, noFaults, herr] at hdomain
    · refine ⟨hstored, hsize, (domainKept_of_fetch request hstored hfetch).mp hdomain, ?_, hfeature⟩
      refine ⟨row, hrow, hid, type, htype, fun hhas => ?_⟩
      have hdecision := (blocked_noFaults hfetch).mp hcategory hhas
      rwa [eq_ALLOW_iff, eq_DENY_iff] at hdecision
  · rintro ⟨hstored, hsize, hdomain, ⟨row, hrow, hid, type, htype, hlets⟩, hfeature⟩
    obtain ⟨row', hrow', hid', ⟨hnull, -⟩ | ⟨type', htype', hfetch⟩⟩ :=
      fetchAdvertiser_success hstored
    · obtain rfl := db.advertisers_inj hrow hrow' (hid.trans hid'.symm)
      cases hnull.symm.trans htype
    · obtain rfl := db.advertisers_inj hrow hrow' (hid.trans hid'.symm)
      obtain rfl := Option.some.inj (htype.symm.trans htype')
      refine ⟨⟨rfl, hstored, hsize, (domainKept_of_fetch request hstored hfetch).mpr hdomain, ?_⟩,
        hfeature⟩
      rw [blocked_noFaults hfetch, eq_ALLOW_iff, eq_DENY_iff]
      exact hlets

theorem reaching_noFaults : reaching noFaults db request = {ads | OnOffer db request ads} :=
  Set.ext fun _ => mem_reaching_noFaults

theorem reaching_eq_empty_iff :
    reaching noFaults db request = ∅ ↔ ∀ ads, ¬OnOffer db request ads := by
  rw [reaching_noFaults, Set.eq_empty_iff_forall_notMem]
  rfl

/-! ## Go: an empty entry -/

variable (db) in
theorem domainKept_of_emptyEntry (faults : Faults) (h : [] ∈ request.blockDomains) (ads : Ads χ) :
    domainKept faults db request ads = false := by
  unfold domainKept
  rcases fetchAdvertiser (faults (.domainAdvertiser ads.adsId)) db ads.advertiserId with
    ⟨advertiser, _ | err⟩
  · have hblocks : containBlockDomain request.blockDomains advertiser.domain = true :=
      blocks_iff.mpr ⟨[], h, List.nil_infix⟩
    simp [hblocks]
  · rfl

variable (db) in
/-- An empty entry blocks every ad. -/
theorem reaching_of_emptyEntry (faults : Faults) (h : [] ∈ request.blockDomains) :
    reaching faults db request = ∅ := by
  refine Set.eq_empty_iff_forall_notMem.mpr fun ads hads => ?_
  have hdomain := hads.1.domain
  rw [domainKept_of_emptyEntry db faults h] at hdomain
  cases hdomain

variable (db) in
/-- The answers to all requests that nothing reaches are the same. -/
theorem auction_of_reaching_empty (faults : Faults) :
    ∃ err, ∀ request, reaching faults db request = ∅ → ∀ runtime,
      auction runtime faults db request = .ok (⟨[], [], 0⟩, some err) := by
  rcases hfetch : fetchAdses (faults .adses) db with ⟨adses, _ | err⟩
  · refine ⟨.errorf "No appropriate ads found", fun request hempty runtime => ?_⟩
    obtain ⟨targetted, hok, hmem⟩ := adsTargetted_eq request runtime hfetch
    have hnil : targetted = [] := by
      refine List.eq_nil_iff_forall_not_mem.mpr fun ads hads => ?_
      have hreaching := ((hmem ads).mp hads).1
      rw [hempty] at hreaching
      exact hreaching
    have hsort : runtime.sortSlice less targetted = [] := by
      rw [hnil]
      exact (runtime.sortSlice_perm less []).eq_nil
    simp only [auction, auctionWinner, hfetch, hok, hsort, bind, Except.bind]
    rfl
  · refine ⟨err, fun request _ runtime => ?_⟩
    simp only [auction, auctionWinner, hfetch]
    rfl

end Go

/-! ## Go: what an answer shows -/

namespace Go

section Winners

variable {χ : Type} {db : Database χ} {request request' : Request χ}

theorem finite_onOffer : {ads | OnOffer db request ads}.Finite :=
  (List.finite_toSet db.adses).subset fun _ h => h.stored

theorem eq_of_bid_eq_some {out : Response χ × Option GoError} {response : Response χ}
    (h : bid out = some response) : out = (response, none) := by
  obtain ⟨response', _ | err⟩ := out
  · exact congrArg (·, none) (Option.some.inj h)
  · cases h

/-- The ad that is selected among those on offer. -/
def Selected (db : Database χ) (request : Request χ) (ads : Ads χ) : Prop :=
  Selection.Winner {ads | OnOffer db request ads} Ads.advertiserId (near noFaults db request) rank
    ads

/-- No ad is on offer to either request, or the selected ones have one text and
price. -/
def SameWinner (db : Database χ) (request request' : Request χ) : Prop :=
  ((∀ ads, ¬OnOffer db request ads) ∧ ∀ ads, ¬OnOffer db request' ads)
    ∨ ∃ ads other, Selected db request ads ∧ Selected db request' other
      ∧ ads.adsTxt = other.adsTxt ∧ ads.price = other.price

variable [DecidableEq χ]

variable (db request) in
theorem auction_selected (runtime : Runtime χ) :
    ∃ out winner, auction runtime noFaults db request = .ok out
      ∧ bid out = winner.map (respond request)
      ∧ Selection.Selects winner (Selected db request) := by
  obtain ⟨out, winner, hout, hbid, hselects⟩ := auction_reaching noFaults db request runtime
  rw [reaching_noFaults] at hselects
  exact ⟨out, winner, hout, hbid, hselects⟩

omit [DecidableEq χ] in
theorem eq_none_iff_onOffer {winner : Option (Ads χ)}
    (h : Selection.Selects winner (Selected db request)) :
    winner = none ↔ ∀ ads, ¬OnOffer db request ads := by
  rw [h.eq_none_iff_pool finite_onOffer, Set.eq_empty_iff_forall_notMem]
  rfl

/-- The auctions of two requests with one id answer alike exactly if their winners
look alike. -/
theorem auctions_eq_iff (hid : request.auctionId = request'.auctionId) :
    (∀ runtime, auction runtime noFaults db request = auction runtime noFaults db request')
      ↔ SameWinner db request request' := by
  constructor
  · intro hsame
    obtain ⟨out, winner, hout, hbid, hselects⟩ := auction_selected db request stableRuntime
    obtain ⟨out', winner', hout', hbid', hselects'⟩ := auction_selected db request' stableRuntime
    obtain rfl := Except.ok.inj (hout.symm.trans ((hsame stableRuntime).trans hout'))
    have hwinners := hbid.symm.trans hbid'
    cases winner with
    | none =>
        have hnone : winner' = none := Option.map_eq_none_iff.mp hwinners.symm
        exact Or.inl
          ⟨(eq_none_iff_onOffer hselects).mp rfl, (eq_none_iff_onOffer hselects').mp hnone⟩
    | some ads =>
        obtain ⟨other, rfl, hrespond⟩ := Option.map_eq_some_iff.mp hwinners.symm
        exact Or.inr ⟨ads, other, (hselects ads).mp rfl, (hselects' other).mp rfl,
          (congrArg Response.ads hrespond).symm, (congrArg Response.price hrespond).symm⟩
  · rintro (⟨hnone, hnone'⟩ | ⟨ads, other, hads, hother, htxt, hprice⟩) runtime
    · obtain ⟨err, hanswer⟩ := auction_of_reaching_empty db noFaults
      rw [hanswer _ (reaching_eq_empty_iff.mpr hnone), hanswer _ (reaching_eq_empty_iff.mpr hnone')]
    · obtain ⟨out, winner, hout, hbid, hselects⟩ := auction_selected db request runtime
      obtain ⟨out', winner', hout', hbid', hselects'⟩ := auction_selected db request' runtime
      rw [(hselects ads).mpr hads] at hbid
      rw [(hselects' other).mpr hother] at hbid'
      rw [hout, hout', eq_of_bid_eq_some hbid, eq_of_bid_eq_some hbid', respond, respond, hid, htxt,
        hprice]

omit [DecidableEq χ] in
/-- Entries that block the same advertisers leave the same winner. -/
theorem sameWinner_of_blockAlike (request : Request χ) {domains domains' : List (List χ)}
    (h : ∀ row ∈ db.advertisers, (∃ entry ∈ domains, entry <:+: row.domain)
      ↔ ∃ entry ∈ domains', entry <:+: row.domain) :
    SameWinner db { request with blockDomains := domains }
      { request with blockDomains := domains' } := by
  have hallowed : ∀ ads, DomainAllowed db { request with blockDomains := domains } ads
      ↔ DomainAllowed db { request with blockDomains := domains' } ads := by
    intro ads
    refine forall_congr' fun row => forall_congr' fun hrow => imp_congr_right fun _ => ?_
    have hblocked := not_congr (h row hrow)
    rwa [not_exists, not_exists, forall_congr' fun _ => not_and, forall_congr' fun _ => not_and]
      at hblocked
  have honOffer : ∀ ads, OnOffer db { request with blockDomains := domains } ads
      ↔ OnOffer db { request with blockDomains := domains' } ads := fun ads =>
    ⟨fun ⟨hstored, hsize, hdomain, hcategory, hfeature⟩ =>
        ⟨hstored, hsize, (hallowed ads).mp hdomain, hcategory, hfeature⟩,
      fun ⟨hstored, hsize, hdomain, hcategory, hfeature⟩ =>
        ⟨hstored, hsize, (hallowed ads).mpr hdomain, hcategory, hfeature⟩⟩
  by_cases hany : ∃ ads, OnOffer db { request with blockDomains := domains } ads
  · obtain ⟨w, hw⟩ := Selection.exists_winner Ads.advertiserId
      (near noFaults db { request with blockDomains := domains }) rank finite_onOffer hany
    refine Or.inr ⟨w, w, hw, ?_, rfl, rfl⟩
    rw [Set.ext honOffer] at hw
    exact hw
  · rw [not_exists] at hany
    exact Or.inl ⟨hany, fun ads hads => hany ads ((honOffer ads).mpr hads)⟩

/-- An empty entry leaves nothing on offer. -/
theorem sameWinner_iff_of_emptyEntry (h : [] ∈ request.blockDomains) :
    SameWinner db request request' ↔ ∀ ads, ¬OnOffer db request' ads := by
  have hnone : ∀ ads, ¬OnOffer db request ads :=
    reaching_eq_empty_iff.mp (reaching_of_emptyEntry db noFaults h)
  constructor
  · rintro (⟨-, hnone'⟩ | ⟨ads, -, hads, -⟩)
    · exact hnone'
    · exact absurd hads.1.1 (hnone ads)
  · exact fun hnone' => Or.inl ⟨hnone, hnone'⟩

end Winners

end Go

/-! ## The outcome -/

section Outcome

variable {parse scan : List UInt8 → Option (Json UInt8)} {body body' : List UInt8}
  {before after : List (List UInt8 × Json UInt8)} {l₁ l₂ : List (Json UInt8)}
  {element : Json UInt8}

/-- C++ reads one request from both bodies, so that Go decides. -/
theorem sameOutcome_iff_sameWinner (db : Database UInt8) (helement : element.string? = none)
    (h : DifferInDomains parse scan body body' before after (l₁ ++ element :: l₂) (l₁ ++ l₂)) :
    SameOutcome parse scan db body body'
      ↔ Go.SameWinner db (Go.storedRequest (withDomains before after (l₁ ++ element :: l₂)))
          (Go.storedRequest (withDomains before after (l₁ ++ l₂))) := by
  have hid : (Go.storedRequest (withDomains before after (l₁ ++ element :: l₂))).auctionId
      = (Go.storedRequest (withDomains before after (l₁ ++ l₂))).auctionId := by
    rw [Go.storedRequest_withDomains, Go.storedRequest_withDomains (l₁ ++ l₂)]
  rw [← Go.auctions_eq_iff hid, ← Go.parseRequest_obj h.scans, ← Go.parseRequest_obj h.scans']
  refine ⟨SameOutcome.go, fun hgo => ⟨?_, hgo⟩⟩
  rw [Cpp.parseRequest_withDomains helement h]

/-- If a later member drops the array, removing an element changes nothing. -/
theorem sameOutcome_of_dropped (db : Database UInt8) (helement : element.string? = none)
    (h : DifferInDomains parse scan body body' before after (l₁ ++ element :: l₂) (l₁ ++ l₂))
    (hdropped : Go.Dropped after) : SameOutcome parse scan db body body' := by
  refine ⟨?_, ?_⟩
  · rw [Cpp.parseRequest_withDomains helement h]
  · intro runtime
    rw [Go.parseRequest_obj h.scans, Go.parseRequest_obj h.scans',
      Go.storedRequest_of_dropped hdropped]

/-- Nor does it if the entries of both bodies block the same advertisers. -/
theorem sameOutcome_of_blockAlike {db : Database UInt8} (helement : element.string? = none)
    (h : DifferInDomains parse scan body body' before after (l₁ ++ element :: l₂) (l₁ ++ l₂))
    (hblocks : ∀ row ∈ db.advertisers,
      (∃ entry ∈ (Go.storedRequest (withDomains before after (l₁ ++ element :: l₂))).blockDomains,
          entry <:+: row.domain)
        ↔ ∃ entry ∈ (Go.storedRequest (withDomains before after (l₁ ++ l₂))).blockDomains,
          entry <:+: row.domain) :
    SameOutcome parse scan db body body' := by
  rw [sameOutcome_iff_sameWinner db helement h, Go.storedRequest_withDomains,
    Go.storedRequest_withDomains (l₁ ++ l₂)]
  exact Go.sameWinner_of_blockAlike _ hblocks

end Outcome

/-! ## One null -/

def nullBody : List UInt8 :=
  ascii "\x7b\"zone_width\":300,\"zone_height\":250,\"block_domains\":[null]\x7d"

def emptyBody : List UInt8 :=
  ascii "\x7b\"zone_width\":300,\"zone_height\":250,\"block_domains\":[]\x7d"

def zoneMembers : List (List UInt8 × Json UInt8) :=
  [(Field.zoneWidth.name, .int 300), (Field.zoneHeight.name, .int 250)]

/-- A parser that knows the two bodies. -/
def parseBoth (data : List UInt8) : Option (Json UInt8) :=
  (parseOnly nullBody (.obj (withDomains zoneMembers [] [.null])) data).or
    (parseOnly emptyBody (.obj (withDomains zoneMembers [] [])) data)

theorem differInDomains_nullBody :
    DifferInDomains parseBoth parseBoth nullBody emptyBody zoneMembers [] ([] ++ .null :: [])
      ([] ++ []) := by
  have hnull : parseBoth nullBody = some (.obj (withDomains zoneMembers [] [.null])) := by
    rw [parseBoth, parseOnly_self]
    rfl
  have hempty : parseBoth emptyBody = some (.obj (withDomains zoneMembers [] [])) := by
    rw [parseBoth, parseOnly_self, parseOnly, if_neg (by decide)]
    rfl
  exact ⟨hnull, hempty, hnull, hempty⟩

/-- One advertiser with one ad. -/
def domainsDatabase : Database UInt8 where
  advertisers := [⟨10, ascii "a", some denyType, ascii "a.example"⟩]
  adsSizes := [⟨8, 300, 250⟩]
  adses := [⟨12, 10, 50000, ascii "text", 8⟩]
  categoryBlockings := [⟨10, 4⟩]
  adsFeatures := [⟨12, 10⟩]
  advertisers_pk := by decide
  adsSizes_pk := by decide
  adses_pk := by decide
  categoryBlockings_pk := by decide
  adsFeatures_pk := by decide
  adses_advertiser_fk := by decide
  adses_size_fk := by decide
  categoryBlockings_fk := by decide
  adsFeatures_fk := by decide
  adsFeatures_int := by decide

/-- After a member that stores an entry, the null leaves it in its slot: nothing
contains `zzz`, and the same ad wins as without the null. -/
example {parse scan : List UInt8 → Option (Json UInt8)} {body body' : List UInt8}
    (h : DifferInDomains parse scan body body'
      (zoneMembers ++ [(Field.blockDomains.name, .arr [.str (ascii "zzz")])]) []
      ([] ++ .null :: []) ([] ++ [])) : SameOutcome parse scan domainsDatabase body body' :=
  sameOutcome_of_blockAlike rfl h (by decide)

end AuctionWorker
