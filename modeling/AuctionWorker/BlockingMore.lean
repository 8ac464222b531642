import AuctionWorker.CppSelection
import AuctionWorker.GoSelection

/-!
# Blocking more domains

Two requests that differ in their lists only: the second blocks at least the
domains of the first, and the categories are the same as sets. Domain blocking
removes whole advertisers, so that the representatives of the others stay as
they are: the second auction has a winner only if the first has one, at no
higher price, and the same one unless its advertiser is blocked
(`auction_blocksMore`). In particular the order and the multiplicity of the
entries of both lists do not matter.
-/

namespace AuctionWorker

open Documented

variable {χ : Type}

/-- `request'` blocks at least what `request` blocks and asks for the same
otherwise. -/
structure BlocksMore (request request' : Request χ) : Prop where
  auctionId : request'.auctionId = request.auctionId
  feature : request'.feature = request.feature
  zoneWidth : request'.zoneWidth = request.zoneWidth
  zoneHeight : request'.zoneHeight = request.zoneHeight
  blockDomains : ∀ entry ∈ request.blockDomains, entry ∈ request'.blockDomains
  categoryIds : ∀ categoryId, categoryId ∈ request'.categoryIds ↔ categoryId ∈ request.categoryIds

/-- How the winner may change when more domains are blocked. -/
structure BlocksSafely (db : Database χ) (request' : Request χ)
    (winner winner' : Option (Ads χ)) : Prop where
  nobid : winner = none → winner' = none
  price : ∀ w w', winner = some w → winner' = some w' → w'.price ≤ w.price
  unblocked : ∀ w, winner = some w → DomainAllowed db request' w → winner' = some w

section Offers

variable {db : Database χ} {request request' : Request χ}

theorem categoryAllowed_iff_of_blocksMore (h : BlocksMore request request') (ads : Ads χ) :
    CategoryAllowed db request' ads ↔ CategoryAllowed db request ads := by
  simp only [CategoryAllowed, CategoryRule, CategoriesMeet, h.categoryIds]

theorem mem_offers_of_blocksMore (h : BlocksMore request request') (ads : Ads χ) :
    ads ∈ offers db request' ↔ ads ∈ offers db request ∧ DomainAllowed db request' ads := by
  have hsize : SizeMatches db request' ads ↔ SizeMatches db request ads := by
    simp only [SizeMatches, h.zoneWidth, h.zoneHeight]
  constructor
  · rintro ⟨⟨hstored, hs, hdomain, hcategory⟩, hfeature⟩
    refine ⟨⟨⟨hstored, hsize.mp hs, fun row hrow hid entry hentry => ?_,
      (categoryAllowed_iff_of_blocksMore h ads).mp hcategory⟩, hfeature⟩, hdomain⟩
    exact hdomain row hrow hid entry (h.blockDomains entry hentry)
  · rintro ⟨⟨⟨hstored, hs, -, hcategory⟩, hfeature⟩, hdomain⟩
    exact ⟨⟨hstored, hsize.mpr hs, hdomain,
      (categoryAllowed_iff_of_blocksMore h ads).mpr hcategory⟩, hfeature⟩

/-- Blocking more removes whole advertisers. -/
theorem offers_group_of_blocksMore (h : BlocksMore request request') {a b : Ads χ}
    (ha : a ∈ offers db request') (hb : b ∈ offers db request)
    (hown : b.advertiserId = a.advertiserId) : b ∈ offers db request' := by
  refine (mem_offers_of_blocksMore h b).mpr ⟨hb, fun row hrow hid => ?_⟩
  exact ((mem_offers_of_blocksMore h a).mp ha).2 row hrow (hid.trans hown)

/-- **Blocking is safe** for every selection that ranks by the price first. -/
theorem blocksSafely {near : Ads χ → ℤ ×ₗ ℕ} {key : Ads χ → ℕ}
    (h : BlocksMore request request') {winner winner' : Option (Ads χ)}
    (hw : Selection.Selects winner (Selection.Winner (offers db request) Ads.advertiserId near
      fun ads => toLex (OrderDual.toDual ads.price, key ads)))
    (hw' : Selection.Selects winner' (Selection.Winner (offers db request') Ads.advertiserId near
      fun ads => toLex (OrderDual.toDual ads.price, key ads))) :
    BlocksSafely db request' winner winner' := by
  have hsub : offers db request' ⊆ offers db request := fun ads hads =>
    ((mem_offers_of_blocksMore h ads).mp hads).1
  have hgroups : ∀ a ∈ offers db request', ∀ b ∈ offers db request,
      b.advertiserId = a.advertiserId → b ∈ offers db request' := fun a ha b hb =>
    offers_group_of_blocksMore h ha hb
  refine ⟨fun hnone => ?_, fun w w' hsome hsome' => ?_, fun w hsome hdomain => ?_⟩
  · rw [hw'.eq_none_iff_pool offers_finite]
    rw [hw.eq_none_iff_pool offers_finite] at hnone
    exact Set.subset_eq_empty hsub hnone
  · have hle := Selection.rank_le_of_restrict hsub hgroups ((hw w).mp hsome) ((hw' w').mp hsome')
    rcases Prod.Lex.toLex_le_toLex.mp hle with hlt | ⟨heq, -⟩
    · exact (OrderDual.toDual_lt_toDual.mp hlt).le
    · exact (OrderDual.toDual_inj.mp heq).ge
  · have hwinner := (hw w).mp hsome
    exact (hw' w).mpr (hwinner.of_restrict hsub hgroups
      ((mem_offers_of_blocksMore h w).mpr ⟨hwinner.1.1, hdomain⟩))

end Offers

/-! ## The auctions -/

section Auctions

variable [DecidableEq χ] {db : Database χ} {request request' : Request χ}

omit [DecidableEq χ] in
theorem Cpp.exact_of_blocksMore (h : BlocksMore request request') (hexact : Cpp.Exact db request) :
    Cpp.Exact db request' := by
  intro a ha b hb hown hne
  rw [h.feature]
  exact hexact a ((mem_offers_of_blocksMore h a).mp ha).1 b
    ((mem_offers_of_blocksMore h b).mp hb).1 hown hne

omit [DecidableEq χ] in
theorem near_of_blocksMore (h : BlocksMore request request') :
    Documented.near db request' = Documented.near db request := by
  funext ads
  simp only [Documented.near, h.feature]

omit [DecidableEq χ] in
theorem Go.near_of_blocksMore (h : BlocksMore request request') :
    Go.near Go.noFaults db request' = Go.near Go.noFaults db request := by
  funext ads
  simp only [Go.near, h.feature]

theorem Cpp.auctionWinner_blocksMore (htypes : DocumentedTypes db)
    (h : BlocksMore request request') {winner : Option (Ads χ)}
    (hwinner : Cpp.auctionWinner db request = .ok winner) :
    ∃ winner', Cpp.auctionWinner db request' = .ok winner'
      ∧ BlocksSafely db request' winner winner' := by
  rcases Cpp.auctionWinner_cases request htypes with
    ⟨hexact, _, hok, hselects⟩ | ⟨-, herr⟩
  · obtain rfl := Except.ok.inj (hwinner.symm.trans hok)
    rcases Cpp.auctionWinner_cases request' htypes with
      ⟨-, winner', hok', hselects'⟩ | ⟨hexact', -⟩
    · rw [near_of_blocksMore h] at hselects'
      exact ⟨winner', hok', blocksSafely h hselects hselects'⟩
    · exact absurd (Cpp.exact_of_blocksMore h hexact) hexact'
  · rw [herr] at hwinner
    cases hwinner

theorem Go.auctionWinner_blocksMore (htypes : DocumentedTypes db)
    (h : BlocksMore request request') (runtime runtime' : Go.Runtime χ) :
    ∃ out out', Go.auctionWinner runtime Go.noFaults db request = .ok out
      ∧ Go.auctionWinner runtime' Go.noFaults db request' = .ok out'
      ∧ BlocksSafely db request' out.toOption out'.toOption := by
  obtain ⟨out, hout, hselects⟩ := Go.auctionWinner_spec Go.noFaults request
    runtime htypes
  obtain ⟨out', hout', hselects'⟩ := Go.auctionWinner_spec Go.noFaults request'
    runtime' htypes
  rw [Go.admitted_noFaults] at hselects hselects'
  rw [Go.near_of_blocksMore h] at hselects'
  exact ⟨out, out', hout, hout', blocksSafely h hselects hselects'⟩

omit [DecidableEq χ] in
/-- Requests that block each other's domains have the same offers. -/
theorem offers_of_blocksMore (h : BlocksMore request request') (h' : BlocksMore request' request) :
    offers db request' = offers db request :=
  Set.Subset.antisymm (fun ads hads => ((mem_offers_of_blocksMore h ads).mp hads).1)
    fun ads hads => ((mem_offers_of_blocksMore h' ads).mp hads).1

omit [DecidableEq χ] in
theorem respond_of_blocksMore (h : BlocksMore request request') :
    (respond request' : Ads χ → Response χ) = respond request := by
  funext ads
  rw [respond, respond, h.auctionId]

theorem Cpp.auction_sameLists (htypes : DocumentedTypes db) (h : BlocksMore request request')
    (h' : BlocksMore request' request) : Cpp.auction db request' = Cpp.auction db request := by
  rcases Cpp.auctionWinner_cases request htypes with
    ⟨hexact, winner, hok, hselects⟩ | ⟨hexact, herr⟩
  · rcases Cpp.auctionWinner_cases request' htypes with
      ⟨-, winner', hok', hselects'⟩ | ⟨hexact', -⟩
    · rw [near_of_blocksMore h, offers_of_blocksMore h h'] at hselects'
      rw [Cpp.auction, Cpp.auction, hok, hok', hselects'.eq hselects fun _ => Iff.rfl,
        respond_of_blocksMore h]
    · exact absurd (Cpp.exact_of_blocksMore h hexact) hexact'
  · rcases Cpp.auctionWinner_cases request' htypes with ⟨hexact', -⟩ | ⟨-, herr'⟩
    · exact absurd (Cpp.exact_of_blocksMore h' hexact') hexact
    · rw [Cpp.auction, Cpp.auction, herr, herr']
      rfl

theorem Go.auction_sameLists (htypes : DocumentedTypes db) (h : BlocksMore request request')
    (h' : BlocksMore request' request) (runtime runtime' : Go.Runtime χ) :
    ∃ out out', Go.auction runtime Go.noFaults db request = .ok out
      ∧ Go.auction runtime' Go.noFaults db request' = .ok out'
      ∧ Go.bid out' = Go.bid out := by
  obtain ⟨out, winner, hout, hbid, hselects⟩ := Go.auction_spec Go.noFaults request
    runtime htypes
  obtain ⟨out', winner', hout', hbid', hselects'⟩ := Go.auction_spec Go.noFaults request'
    runtime' htypes
  rw [Go.admitted_noFaults] at hselects hselects'
  rw [Go.near_of_blocksMore h, offers_of_blocksMore h h'] at hselects'
  refine ⟨out, out', hout, hout', ?_⟩
  rw [hbid, hbid', hselects'.eq hselects fun _ => Iff.rfl, respond_of_blocksMore h]

/-- **Blocking more domains.** In both languages the winner changes safely, and
requests whose lists hold the same entries have the same result. -/
theorem auction_blocksMore (htypes : DocumentedTypes db) (h : BlocksMore request request') :
    (DocumentedFeatures db → DocumentedFeature request.feature →
        ∃ winner, Cpp.auctionWinner db request = .ok winner)
      ∧ (∀ winner, Cpp.auctionWinner db request = .ok winner →
        ∃ winner', Cpp.auctionWinner db request' = .ok winner'
          ∧ BlocksSafely db request' winner winner')
      ∧ (∀ runtime runtime', ∃ out out',
        Go.auctionWinner runtime Go.noFaults db request = .ok out
          ∧ Go.auctionWinner runtime' Go.noFaults db request' = .ok out'
          ∧ BlocksSafely db request' out.toOption out'.toOption)
      ∧ (BlocksMore request' request →
        Cpp.auction db request' = Cpp.auction db request
          ∧ ∀ runtime runtime', ∃ out out',
            Go.auction runtime Go.noFaults db request = .ok out
              ∧ Go.auction runtime' Go.noFaults db request' = .ok out'
              ∧ Go.bid out' = Go.bid out) := by
  refine ⟨fun hfeatures hr => ?_, fun _ => Cpp.auctionWinner_blocksMore htypes h,
    Go.auctionWinner_blocksMore htypes h, fun h' => ⟨Cpp.auction_sameLists htypes h h',
      Go.auction_sameLists htypes h h'⟩⟩
  obtain ⟨winner, hwinner, -⟩ := Cpp.auctionWinner_eq htypes hfeatures hr
  exact ⟨winner, hwinner⟩

/-- The request that repeats its category and blocks a domain, twice. -/
def blockingRequest : Request Char :=
  ⟨"auction".toList, [1, 1], 10, 300, 250, ["b.example".toList, "b.example".toList]⟩

theorem auction_blocksMore_tieDatabase :
    (DocumentedFeatures tieDatabase → DocumentedFeature tieRequest.feature →
        ∃ winner, Cpp.auctionWinner tieDatabase tieRequest = .ok winner)
      ∧ (∀ winner, Cpp.auctionWinner tieDatabase tieRequest = .ok winner →
        ∃ winner', Cpp.auctionWinner tieDatabase blockingRequest = .ok winner'
          ∧ BlocksSafely tieDatabase blockingRequest winner winner')
      ∧ (∀ runtime runtime', ∃ out out',
        Go.auctionWinner runtime Go.noFaults tieDatabase tieRequest = .ok out
          ∧ Go.auctionWinner runtime' Go.noFaults tieDatabase blockingRequest = .ok out'
          ∧ BlocksSafely tieDatabase blockingRequest out.toOption out'.toOption)
      ∧ (BlocksMore blockingRequest tieRequest →
        Cpp.auction tieDatabase blockingRequest = Cpp.auction tieDatabase tieRequest
          ∧ ∀ runtime runtime', ∃ out out',
            Go.auction runtime Go.noFaults tieDatabase tieRequest = .ok out
              ∧ Go.auction runtime' Go.noFaults tieDatabase blockingRequest = .ok out'
              ∧ Go.bid out' = Go.bid out) :=
  auction_blocksMore (by decide)
    ⟨rfl, rfl, rfl, rfl, fun _ hentry => absurd hentry List.not_mem_nil,
      fun categoryId => by
        show categoryId ∈ [1, 1] ↔ categoryId ∈ [1]
        simp⟩

end Auctions

end AuctionWorker
