import AuctionWorker.CategoryStage

/-!
# Types outside the documentation

The column `category_blocking_type` admits NULL and every value of a byte, the
documentation 0 and 1. Each implementation guards against the rest in its own way:

- C++ reads NULL as 0, and terminates when the category stage comes to a value
  that is neither allow nor deny;
- Go cannot scan NULL and drops the ad in the domain stage; it blocks nothing by
  any other value;
- Python raises in the domain stage.

They decide alike exactly if the advertisers of the ads of the requested size
have documented types (`treatedAlike_iff`).
-/

namespace AuctionWorker

open Documented

variable {χ : Type}

section Alike

variable [DecidableEq χ]

/-- The C++ and the Python stages complete, and in both stages all three
implementations decide alike on the ads of the advertiser that have the requested
size. -/
def TreatedAlike (db : Database χ) (request : Request χ) (advertiserId : ℕ) : Prop :=
  ∃ cpp reached py, Cpp.advertiserAdses db request = .ok cpp
    ∧ Py.adsSatisfyDomain Py.plainConnector db request = .ok reached
    ∧ Py.advertiserAdses Py.plainConnector db request = .ok py
    ∧ ∀ ads ∈ db.adses, ads.advertiserId = advertiserId → SizeMatches db request ads →
      ((ads ∈ Cpp.adsSatisfyDomain db request
            ↔ ads ∈ Go.advertiserSatisfyDomain Go.noFaults db request db.selectAdses)
          ∧ (ads ∈ reached
            ↔ ads ∈ Go.advertiserSatisfyDomain Go.noFaults db request db.selectAdses))
        ∧ (PassedOn cpp ads
            ↔ PassedOn (Go.advertiserAdses Go.noFaults db request db.selectAdses) ads)
        ∧ (PassedOn py ads
            ↔ PassedOn (Go.advertiserAdses Go.noFaults db request db.selectAdses) ads)

variable {db : Database χ} {request : Request χ}

/-- Python decodes the documented types only. -/
theorem typeDocumented_of_domainKept {ads : Ads χ} {keep : Bool} (hads : ads ∈ db.adses)
    (h : Py.domainKept db request ads = .ok keep) : TypeDocumented db ads := by
  obtain ⟨row, hrow, hid, hsel⟩ := selectAdvertiser_of_stored hads
  intro row' hrow' hid'
  obtain rfl := db.advertisers_inj hrow hrow' (hid.trans hid'.symm)
  unfold Py.domainKept Py.fetchAdvertiser Py.plainConnector at h
  simp only [hsel] at h
  unfold Py.CategoryBlockingType.ofColumn at h
  split at h
  · exact Or.inl ‹_›
  · exact Or.inr ‹_›
  · cases h

/-! ## Documented types of the requested size -/

theorem go_advertiserSatisfyDomain_eq (htypes : SizedTypes db request) :
    Go.advertiserSatisfyDomain Go.noFaults db request db.selectAdses
      = db.selectAdses.filter fun ads =>
        SizeMatches db request ads ∧ DomainAllowed db request ads :=
  Go.advertiserSatisfyDomain_eq
    (fun ads hads hsize => htypes ads (db.mem_selectAdses.mp hads) hsize)
    fun _ hads => db.mem_selectAdses.mp hads

theorem go_passedOn_iff (htypes : SizedTypes db request) (ads : Ads χ) :
    PassedOn (Go.advertiserAdses Go.noFaults db request db.selectAdses) ads
      ↔ ads ∈ (db.selectAdses.filter fun ads =>
          SizeMatches db request ads ∧ DomainAllowed db request ads).filter
        fun ads => CategoryAllowed db request ads := by
  have hgroups := Go.advertiserAdses_groups Go.noFaults request
    (fun ads hads hsize => htypes ads (db.mem_selectAdses.mp hads) hsize)
    fun _ hads => db.mem_selectAdses.mp hads
  rw [PassedOn, hgroups.mem_entries_iff, go_advertiserSatisfyDomain_eq htypes]
  rfl

/-- **The types.** The implementations treat the ads of an advertiser alike, and none
of them aborts or raises, exactly if the advertisers of all ads of the requested size
have documented types. -/
theorem treatedAlike_iff (advertiserId : ℕ) :
    TreatedAlike db request advertiserId ↔ SizedTypes db request := by
  constructor
  · rintro ⟨-, reached, -, -, hreached, -⟩ ads hads hsize
    obtain ⟨keep, hkeep⟩ := (Py.adsSatisfyDomain_eq_ok_iff.mp hreached).1 ads hads hsize
    exact typeDocumented_of_domainKept hads hkeep
  · intro htypes
    obtain ⟨cpp, hcpp, hcppGroups, -⟩ := Cpp.advertiserAdses_of_sizedTypes request htypes
    obtain ⟨py, hpy, hpyGroups⟩ := Py.advertiserAdses_of_sizedTypes request htypes
    have hgo := go_advertiserSatisfyDomain_eq htypes
    refine ⟨cpp, _, py, hcpp, Py.adsSatisfyDomain_of_sizedTypes htypes, hpy, fun ads _ _ _ => ?_⟩
    rw [hgo, go_passedOn_iff htypes, PassedOn, hcppGroups.mem_entries_iff, PassedOn,
      hpyGroups.mem_entries_iff, Cpp.adsSatisfyDomain_eq]
    exact ⟨⟨Iff.rfl, Iff.rfl⟩, Iff.rfl, Iff.rfl⟩

end Alike

/-! ## An advertiser of any type -/

/-- One advertiser of the given type, with a category and an ad. -/
def typedDatabase (type : Option (Fin 256)) : Database Char where
  advertisers := [⟨5, "a".toList, type, "a.example".toList⟩]
  adsSizes := [⟨4, 300, 250⟩]
  adses := [⟨6, 5, 50000, "typed".toList, 4⟩]
  categoryBlockings := [⟨5, 2⟩]
  adsFeatures := [⟨6, 10⟩]
  advertisers_pk := by simp
  adsSizes_pk := by simp
  adses_pk := by simp
  categoryBlockings_pk := by simp
  adsFeatures_pk := by simp
  adses_advertiser_fk := by simp
  adses_size_fk := by simp
  categoryBlockings_fk := by simp
  adsFeatures_fk := by simp
  adsFeatures_int := by simp

/-- By the type 2 C++ terminates, Go passes the ad on and Python raises. By NULL C++
drops the ad in the category stage and Go in the domain stage, and Python raises. -/
theorem not_treatedAlike_typedDatabase :
    (HasCategories (typedDatabase (some 2)) 5
        ∧ Cpp.advertiserAdses (typedDatabase (some 2)) tieRequest = .error .terminate
        ∧ Py.advertiserAdses Py.plainConnector (typedDatabase (some 2)) tieRequest
          = .error .valueError
        ∧ ¬TreatedAlike (typedDatabase (some 2)) tieRequest 5)
      ∧ HasCategories (typedDatabase none) 5
        ∧ Py.advertiserAdses Py.plainConnector (typedDatabase none) tieRequest
          = .error .valueError
        ∧ ¬TreatedAlike (typedDatabase none) tieRequest 5 := by
  have htwo : Py.advertiserAdses Py.plainConnector (typedDatabase (some 2)) tieRequest
      = .error .valueError := by decide
  have hnull : Py.advertiserAdses Py.plainConnector (typedDatabase none) tieRequest
      = .error .valueError := by decide
  refine ⟨⟨by decide, by decide, htwo, ?_⟩, by decide, hnull, ?_⟩
  · rintro ⟨-, -, py, -, -, hpy, -⟩
    cases htwo.symm.trans hpy
  · rintro ⟨-, -, py, -, -, hpy, -⟩
    cases hnull.symm.trans hpy

end AuctionWorker
