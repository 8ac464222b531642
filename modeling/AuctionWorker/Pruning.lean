import AuctionWorker.CppSelection
import AuctionWorker.GoSelection

/-!
# Pruning losers

Deleting ads that represent no advertiser leaves the result of an auction as it
is: every filter looks at one ad at a time, and the least element of a group
stays the least when others go (`auction_deleteAdses`). This is the law behind
any cache of the representatives. `prune` deletes all losers at once, `Go.prune`
those of the distance that the Go auction computes, and after that there is nothing
left to prune.

The C++ auction computes exact distances or overflows; the statement is about
the runs that return, which are all of them in the documented ranges. The Go
auction always returns, and its representatives are those of the distance it
computes.
-/

namespace AuctionWorker

open Documented

variable {χ : Type}

/-! ## The offers that stay -/

section Offers

variable {db : Database χ} {request : Request χ} {doomed : ℕ → Bool} {ads : Ads χ}

theorem mem_offers_deleteAdses : ads ∈ offers (db.deleteAdses doomed) request
    ↔ ads ∈ offers db request ∧ doomed ads.adsId = false := by
  constructor
  · rintro ⟨⟨hstored, hsize, hdomain, hcategory⟩, row, hrow, hid⟩
    obtain ⟨hads, hkeep⟩ := db.mem_deleteAdses.mp hstored
    exact ⟨⟨⟨hads, hsize, hdomain, hcategory⟩, row,
      (db.mem_deleteAdses_adsFeatures.mp hrow).1, hid⟩, hkeep⟩
  · rintro ⟨⟨⟨hads, hsize, hdomain, hcategory⟩, row, hrow, hid⟩, hkeep⟩
    exact ⟨⟨db.mem_deleteAdses.mpr ⟨hads, hkeep⟩, hsize, hdomain, hcategory⟩, row,
      db.mem_deleteAdses_adsFeatures.mpr ⟨hrow, by rwa [hid]⟩, hid⟩

/-- An ad that stays keeps its feature. -/
theorem featureOf_deleteAdses (h : ads ∈ offers (db.deleteAdses doomed) request) :
    featureOf (db.deleteAdses doomed) ads.adsId = featureOf db ads.adsId := by
  obtain ⟨-, row, hrow, hid⟩ := h
  rw [← hid, featureOf_eq hrow, featureOf_eq (db.mem_deleteAdses_adsFeatures.mp hrow).1]

/-- If no representative is deleted, the representatives stay the same, whatever
function of feature and id the nearness is. -/
theorem representative_deleteAdses (near : ℤ → ℕ → ℤ ×ₗ ℕ)
    (hkeep : ∀ ads, Selection.Representative (offers db request) Ads.advertiserId
      (fun ads => near (featureOf db ads.adsId) ads.adsId) ads → doomed ads.adsId = false)
    (ads : Ads χ) :
    Selection.Representative (offers (db.deleteAdses doomed) request) Ads.advertiserId
        (fun ads => near (featureOf (db.deleteAdses doomed) ads.adsId) ads.adsId) ads
      ↔ Selection.Representative (offers db request) Ads.advertiserId
        (fun ads => near (featureOf db ads.adsId) ads.adsId) ads := by
  rw [Selection.Representative.congr_near fun ads hads => by rw [featureOf_deleteAdses hads]]
  refine Selection.representative_of_prune offers_finite
    (fun ads hads => (mem_offers_deleteAdses.mp hads).1) (fun ads hads => ?_) ads
  exact mem_offers_deleteAdses.mpr ⟨hads.1, hkeep ads hads⟩

end Offers

/-! ## The representatives that an auction chooses -/

/-- The ad that the Go auction chooses for its advertiser. -/
def Go.Chosen (db : Database χ) (request : Request χ) (ads : Ads χ) : Prop :=
  Selection.Representative (offers db request) Ads.advertiserId (Go.near Go.noFaults db request)
    ads

/-! ## Deleting all other ads -/

/-- No ad of the list has the id. -/
def others (kept : List (Ads χ)) (adsId : ℕ) : Bool :=
  !kept.any fun ads => ads.adsId = adsId

section Others

variable {db : Database χ} {kept : List (Ads χ)} {ads : Ads χ}

theorem others_eq_false_iff {adsId : ℕ} :
    others kept adsId = false ↔ ∃ ads ∈ kept, ads.adsId = adsId := by
  simp only [others, Bool.not_eq_false', List.any_eq_true, decide_eq_true_eq]

theorem mem_deleteAdses_others (hkept : ∀ ads ∈ kept, ads ∈ db.adses) :
    ads ∈ (db.deleteAdses (others kept)).adses ↔ ads ∈ kept := by
  rw [db.mem_deleteAdses, others_eq_false_iff]
  constructor
  · rintro ⟨hads, other, hother, hid⟩
    rwa [← db.adses_inj (hkept other hother) hads hid]
  · exact fun h => ⟨hkept ads h, ads, h, rfl⟩

theorem deleteAdses_others_eq_self (h : ∀ ads ∈ db.adses, ads ∈ kept) :
    db.deleteAdses (others kept) = db :=
  db.deleteAdses_eq_self fun ads hads => others_eq_false_iff.mpr ⟨ads, h ads hads, rfl⟩

end Others

section Pruning

variable [DecidableEq χ]

/-- Delete every ad that represents no advertiser. -/
def prune (db : Database χ) (request : Request χ) : Database χ :=
  db.deleteAdses fun adsId => !(candidateList db request).any fun ads => ads.adsId = adsId

/-- The ads that the Go auction chooses. -/
def Go.chosenList (db : Database χ) (request : Request χ) : List (Ads χ) :=
  (offerList db request).filter fun ads =>
    ∀ other ∈ offerList db request, other.advertiserId = ads.advertiserId →
      Go.near Go.noFaults db request ads ≤ Go.near Go.noFaults db request other

/-- Delete every ad that the Go auction does not choose. -/
def Go.prune (db : Database χ) (request : Request χ) : Database χ :=
  db.deleteAdses fun adsId => !(Go.chosenList db request).any fun ads => ads.adsId = adsId

variable {db : Database χ} {request : Request χ}

theorem mem_prune {ads : Ads χ} : ads ∈ (prune db request).adses ↔ Candidate db request ads :=
  (mem_deleteAdses_others fun _ h => offers_stored (mem_candidateList.mp h).1).trans
    mem_candidateList

theorem candidate_prune (ads : Ads χ) :
    Candidate (prune db request) request ads ↔ Candidate db request ads :=
  representative_deleteAdses (fun feature adsId => toLex (|feature - request.feature|, adsId))
    (fun ads hads => others_eq_false_iff.mpr ⟨ads, mem_candidateList.mpr hads, rfl⟩) ads

/-- Pruning is idempotent. -/
theorem prune_prune : prune (prune db request) request = prune db request := by
  refine deleteAdses_others_eq_self fun ads hads => ?_
  exact mem_candidateList.mpr ((candidate_prune ads).mpr (mem_prune.mp hads))

theorem Go.mem_chosenList {ads : Ads χ} :
    ads ∈ Go.chosenList db request ↔ Go.Chosen db request ads := by
  simp only [Go.chosenList, List.mem_filter, decide_eq_true_eq, mem_offerList]
  rfl

theorem Go.mem_prune {ads : Ads χ} :
    ads ∈ (Go.prune db request).adses ↔ Go.Chosen db request ads :=
  (mem_deleteAdses_others fun _ h => offers_stored (Go.mem_chosenList.mp h).1).trans
    Go.mem_chosenList

theorem Go.chosen_prune (ads : Ads χ) :
    Go.Chosen (Go.prune db request) request ads ↔ Go.Chosen db request ads :=
  representative_deleteAdses
    (fun feature adsId => toLex (Go.distance request.feature feature, adsId))
    (fun ads hads => others_eq_false_iff.mpr ⟨ads, Go.mem_chosenList.mpr hads, rfl⟩) ads

/-- Pruning to what the Go auction chooses is idempotent, too. -/
theorem Go.prune_prune : Go.prune (Go.prune db request) request = Go.prune db request := by
  refine deleteAdses_others_eq_self fun ads hads => ?_
  exact Go.mem_chosenList.mpr ((Go.chosen_prune ads).mpr (Go.mem_prune.mp hads))

/-! ## The auctions -/

omit [DecidableEq χ] in
theorem Cpp.exact_deleteAdses {doomed : ℕ → Bool} (h : Cpp.Exact db request) :
    Cpp.Exact (db.deleteAdses doomed) request := by
  intro a ha b hb hown hne
  rw [featureOf_deleteAdses ha]
  exact h a (mem_offers_deleteAdses.mp ha).1 b (mem_offers_deleteAdses.mp hb).1 hown hne

/-- **Pruning losers is sound.** Deleting ads that represent no advertiser keeps
the result of every C++ run that returns (in the documented ranges each does),
and of the Go auction under any two runtimes; pruning to the representatives is
idempotent, for the documented ones and for those of the Go auction. -/
theorem auction_deleteAdses (htypes : DocumentedTypes db) :
    (DocumentedFeatures db → DocumentedFeature request.feature →
        ∃ result, Cpp.auction db request = .ok result)
      ∧ (∀ doomed, (∀ ads, Candidate db request ads → doomed ads.adsId = false) →
        ∀ result, Cpp.auction db request = .ok result →
          Cpp.auction (db.deleteAdses doomed) request = .ok result)
      ∧ (∀ doomed, (∀ ads, Go.Chosen db request ads → doomed ads.adsId = false) →
        ∀ runtime runtime', ∃ out out', Go.auction runtime Go.noFaults db request = .ok out
          ∧ Go.auction runtime' Go.noFaults (db.deleteAdses doomed) request = .ok out'
          ∧ Go.bid out = Go.bid out')
      ∧ prune (prune db request) request = prune db request
      ∧ Go.prune (Go.prune db request) request = Go.prune db request := by
  refine ⟨Cpp.exists_auction htypes, ?_, ?_, prune_prune, Go.prune_prune⟩
  · intro doomed hkeep result hresult
    obtain ⟨hexact, winner, rfl, hselects⟩ := Cpp.auction_eq_ok htypes hresult
    have hreps := representative_deleteAdses
      (fun feature adsId => toLex (|feature - request.feature|, adsId)) hkeep
    have htypes' : DocumentedTypes (db.deleteAdses doomed) := htypes
    rcases Cpp.auctionWinner_cases request htypes' with
      ⟨-, winner', hwinner', hselects'⟩ | ⟨hexact', -⟩
    · rw [Cpp.auction, hwinner', hselects'.eq hselects
        (Selection.Winner.congr_representative hreps)]
      rfl
    · exact absurd (Cpp.exact_deleteAdses hexact) hexact'
  · intro doomed hkeep runtime runtime'
    obtain ⟨out, winner, hout, hbid, hselects⟩ := Go.auction_spec Go.noFaults request
      runtime htypes
    have htypes' : DocumentedTypes (db.deleteAdses doomed) := htypes
    obtain ⟨out', winner', hout', hbid', hselects'⟩ := Go.auction_spec Go.noFaults request
      runtime' htypes'
    rw [Go.admitted_noFaults] at hselects hselects'
    have hreps := representative_deleteAdses
      (fun feature adsId => toLex (Go.distance request.feature feature, adsId)) hkeep
    refine ⟨out, out', hout, hout', ?_⟩
    rw [hbid, hbid', hselects'.eq hselects (Selection.Winner.congr_representative hreps)]

theorem auction_deleteAdses_tieDatabase :
    (DocumentedFeatures tieDatabase → DocumentedFeature tieRequest.feature →
        ∃ result, Cpp.auction tieDatabase tieRequest = .ok result)
      ∧ (∀ doomed, (∀ ads, Candidate tieDatabase tieRequest ads → doomed ads.adsId = false) →
        ∀ result, Cpp.auction tieDatabase tieRequest = .ok result →
          Cpp.auction (tieDatabase.deleteAdses doomed) tieRequest = .ok result)
      ∧ (∀ doomed, (∀ ads, Go.Chosen tieDatabase tieRequest ads → doomed ads.adsId = false) →
        ∀ runtime runtime', ∃ out out',
          Go.auction runtime Go.noFaults tieDatabase tieRequest = .ok out
          ∧ Go.auction runtime' Go.noFaults (tieDatabase.deleteAdses doomed) tieRequest = .ok out'
          ∧ Go.bid out = Go.bid out')
      ∧ prune (prune tieDatabase tieRequest) tieRequest = prune tieDatabase tieRequest
      ∧ Go.prune (Go.prune tieDatabase tieRequest) tieRequest = Go.prune tieDatabase tieRequest :=
  auction_deleteAdses (by decide)

end Pruning

end AuctionWorker
