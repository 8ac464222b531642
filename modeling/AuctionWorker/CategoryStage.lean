import AuctionWorker.CppSelection
import AuctionWorker.GoSelection
import AuctionWorker.PySelection

/-!
# The category stage of the three implementations

The rule of `doc/category-blocking.md`, read literally, drops the ads of an
advertiser that allows its categories and has none. All three implementations
keep them: the fetcher reports an empty set of categories as absent, and the
stage blocks only when it has categories to block by. Apart from such
advertisers the stage follows the rule (`categoryStage_iff`).
-/

namespace AuctionWorker

open Documented

variable {χ : Type}

/-- The rule of the code: advertisers without categories are left alone. -/
def UnblockedOrRule (db : Database χ) (request : Request χ) (ads : Ads χ) : Prop :=
  ¬HasCategories db ads.advertiserId ∨ CategoryRule db request ads

section Stage

variable [DecidableEq χ]

/-- An ad that reaches the stage is passed on exactly if it satisfies `rule`. -/
structure CategoryStage (rule : Ads χ → Prop) (db : Database χ) (request : Request χ) : Prop where
  cpp : ∃ groups, Cpp.advertiserAdses db request = .ok groups
    ∧ ∀ ads ∈ Cpp.adsSatisfyDomain db request, PassedOn groups ads ↔ rule ads
  go : ∀ ads ∈ Go.advertiserSatisfyDomain Go.noFaults db request db.selectAdses,
    PassedOn (Go.advertiserAdses Go.noFaults db request db.selectAdses) ads ↔ rule ads
  py : ∃ reached groups, Py.adsSatisfyDomain Py.plainConnector db request = .ok reached
    ∧ Py.advertiserAdses Py.plainConnector db request = .ok groups
    ∧ ∀ ads ∈ reached, PassedOn groups ads ↔ rule ads

variable {db : Database χ} {request : Request χ}

omit [DecidableEq χ] in
/-- A stage that groups the allowed ones among the ads that reach it follows the
rule of the code. -/
theorem passedOn_iff {reached : List (Ads χ)} {groups : List (ℕ × List (Ads χ))}
    (h : Grouping.Groups Ads.advertiserId
      (reached.filter fun ads => CategoryAllowed db request ads) groups)
    {ads : Ads χ} (hads : ads ∈ reached) :
    PassedOn groups ads ↔ UnblockedOrRule db request ads := by
  rw [PassedOn, h.mem_entries_iff, List.mem_filter, decide_eq_true_eq, and_iff_right hads]
  exact imp_iff_not_or

/-- **The category stage.** In each implementation, an ad that reaches the stage
is passed on exactly if its advertiser has no categories or the documented rule
lets it pass. -/
theorem categoryStage_iff (htypes : DocumentedTypes db) :
    CategoryStage (UnblockedOrRule db request) db request := by
  refine ⟨?_, ?_, ?_⟩
  · obtain ⟨groups, hok, hgroups, -⟩ := Cpp.advertiserAdses_eq request htypes
    exact ⟨groups, hok, fun ads hads => passedOn_iff hgroups hads⟩
  · intro ads hads
    have hstored : ∀ ads ∈ db.selectAdses, ads ∈ db.adses := fun ads h => db.mem_selectAdses.mp h
    exact passedOn_iff (Go.advertiserAdses_groups Go.noFaults request
      (fun ads _ _ => htypes.of_ads ads) hstored) hads
  · obtain ⟨groups, hok, hgroups⟩ := Py.advertiserAdses_eq request htypes
    exact ⟨_, groups, Py.adsSatisfyDomain_eq htypes, hok, fun ads hads => passedOn_iff hgroups hads⟩

end Stage

/-! ## An advertiser that allows, without categories -/

def allowDatabase : Database Char where
  advertisers := [⟨1, "a".toList, some allowType, "a.example".toList⟩]
  adsSizes := [⟨3, 300, 250⟩]
  adses := [⟨1, 1, 50000, "kept".toList, 3⟩]
  categoryBlockings := []
  adsFeatures := [⟨1, 10⟩]
  advertisers_pk := by decide
  adsSizes_pk := by decide
  adses_pk := by decide
  categoryBlockings_pk := by decide
  adsFeatures_pk := by decide
  adses_advertiser_fk := by decide
  adses_size_fk := by decide
  categoryBlockings_fk := by decide
  adsFeatures_fk := by decide
  adsFeatures_int := by decide

/-- All three stages keep its ad, the literal rule drops it. -/
theorem categoryStage_allowDatabase :
    DocumentedTypes allowDatabase
      ∧ ¬CategoryStage (CategoryRule allowDatabase tieRequest) allowDatabase tieRequest := by
  refine ⟨by decide, fun h => ?_⟩
  obtain ⟨groups, hok, hrule⟩ := h.cpp
  have hgroups : Cpp.advertiserAdses allowDatabase tieRequest
      = .ok [(1, [⟨1, 1, 50000, "kept".toList, 3⟩])] := by decide
  obtain rfl := Except.ok.inj (hgroups.symm.trans hok)
  have hads : (⟨1, 1, 50000, "kept".toList, 3⟩ : Ads Char)
      ∈ Cpp.adsSatisfyDomain allowDatabase tieRequest := by decide
  have hpassed := (hrule _ hads).mp ⟨_, List.mem_singleton.mpr rfl, List.mem_singleton.mpr rfl⟩
  exact absurd hpassed (by decide)

/-- Both types, each with categories that the request meets and with others, and an
advertiser without categories. -/
def categoriesDatabase : Database Char where
  advertisers :=
    [⟨1, "a".toList, some allowType, "a.example".toList⟩,
      ⟨2, "b".toList, some allowType, "b.example".toList⟩,
      ⟨3, "c".toList, some denyType, "c.example".toList⟩,
      ⟨4, "d".toList, some denyType, "d.example".toList⟩,
      ⟨5, "e".toList, some allowType, "e.example".toList⟩]
  adsSizes := [⟨3, 300, 250⟩]
  adses :=
    [⟨1, 1, 50000, "allowed".toList, 3⟩, ⟨2, 2, 60000, "not allowed".toList, 3⟩,
      ⟨3, 3, 70000, "denied".toList, 3⟩, ⟨4, 4, 80000, "not denied".toList, 3⟩,
      ⟨5, 5, 90000, "kept".toList, 3⟩]
  categoryBlockings := [⟨1, 1⟩, ⟨1, 2⟩, ⟨2, 2⟩, ⟨3, 1⟩, ⟨4, 2⟩]
  adsFeatures := [⟨1, 10⟩, ⟨2, 20⟩, ⟨3, 30⟩, ⟨4, 40⟩, ⟨5, 50⟩]
  advertisers_pk := by decide
  adsSizes_pk := by decide
  adses_pk := by decide
  categoryBlockings_pk := by decide
  adsFeatures_pk := by decide
  adses_advertiser_fk := by decide
  adses_size_fk := by decide
  categoryBlockings_fk := by decide
  adsFeatures_fk := by decide
  adsFeatures_int := by decide

/-- The rule of the code keeps three of its five ads. -/
theorem categoryStage_iff_categoriesDatabase :
    CategoryStage (UnblockedOrRule categoriesDatabase tieRequest) categoriesDatabase tieRequest
      ∧ Go.advertiserAdses Go.noFaults categoriesDatabase tieRequest categoriesDatabase.selectAdses
        = [(1, [⟨1, 1, 50000, "allowed".toList, 3⟩]), (4, [⟨4, 4, 80000, "not denied".toList, 3⟩]),
          (5, [⟨5, 5, 90000, "kept".toList, 3⟩])] :=
  ⟨categoryStage_iff (by decide), by decide⟩

end AuctionWorker
