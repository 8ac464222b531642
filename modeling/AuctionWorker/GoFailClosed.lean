import AuctionWorker.GoSelection

/-!
# The Go auction under failing fetches

An auction fails closed if every winner is eligible by the stored rows, whatever
fetches fail. The Go auction does not: a failing `Ping` is reported as nil, so
that the size and the domain stage decide on zero values, and the category stage
keeps an ad whose advertiser or categories could not be fetched. `LetIn` lists
the ads that get past a stage in this way.

Such an ad does harm only if it wins. `auction_failsClosed_iff` says so exactly:
the auction fails closed under given faults if and only if every ad let in by
them is beaten, by an admitted ad of its own advertiser or by the representative
of another one.
-/

namespace AuctionWorker

namespace Go

open Documented

variable {χ : Type}

section Conditions

variable (faults : Faults) (db : Database χ) (request : Request χ) (ads : Ads χ)

/-- Admitted past a stage whose fetch failed, although the stored rows say no. -/
structure LetIn : Prop where
  admitted : ads ∈ admitted faults db request
  fault : (faults (.adSize ads.adsId) = .pingError ∧ ¬SizeMatches db request ads)
    ∨ (faults (.domainAdvertiser ads.adsId) = .pingError ∧ ¬DomainAllowed db request ads)
    ∨ ((faults (.categoryAdvertiser ads.adsId) ≠ .success
        ∨ faults (.categoryBlocking ads.adsId) ≠ .success) ∧ ¬CategoryAllowed db request ads)

/-- Another admitted ad keeps this one from winning. -/
def Beaten : Prop :=
  (∃ other ∈ admitted faults db request, other.advertiserId = ads.advertiserId
      ∧ near faults db request other < near faults db request ads)
    ∨ ∃ other, Selection.Representative (admitted faults db request) Ads.advertiserId
        (near faults db request) other ∧ rank other < rank ads

/-- Every ad that a fault lets in is beaten. -/
def LetInBeaten : Prop :=
  ∀ ads, LetIn faults db request ads → Beaten faults db request ads

end Conditions

/-- Whatever response the auction returns is for an eligible ad. -/
def FailsClosed [DecidableEq χ] (runtime : Runtime χ) (faults : Faults) (db : Database χ)
    (request : Request χ) : Prop :=
  ∀ response, auction runtime faults db request = .ok (response, none) →
    ∃ ads, auctionWinner runtime faults db request = .ok (.ok ads)
      ∧ response = respond request ads ∧ Eligible db request ads

variable {faults : Faults} {db : Database χ} {request : Request χ} {ads : Ads χ}

/-- Without a fault at a stage, an admitted ad satisfies its stored condition. -/
theorem letIn_iff : LetIn faults db request ads
    ↔ ads ∈ admitted faults db request ∧ ¬Eligible db request ads := by
  constructor
  · rintro ⟨hadmitted, hfault⟩
    refine ⟨hadmitted, fun heligible => ?_⟩
    rcases hfault with ⟨-, hsize⟩ | ⟨-, hdomain⟩ | ⟨-, hcategory⟩
    · exact hsize heligible.size
    · exact hdomain heligible.domain
    · exact hcategory heligible.category
  · rintro ⟨hadmitted, hineligible⟩
    refine ⟨hadmitted, ?_⟩
    obtain ⟨-, hstored, hsize, hdomain, hcategory⟩ := hadmitted.1
    by_contra hno
    simp only [not_or, not_and, not_not] at hno
    obtain ⟨hno_size, hno_domain, hno_category⟩ := hno
    refine hineligible ⟨hstored, ?_, ?_, ?_⟩
    · rcases (faults (.adSize ads.adsId)).trichotomy with hout | hout | hout
      · rwa [SizePasses, hout] at hsize
      · exact hno_size hout
      · exact absurd hsize hout.not_lets
    · rcases (faults (.domainAdvertiser ads.adsId)).trichotomy with hout | hout | hout
      · rwa [DomainPasses, hout] at hdomain
      · exact hno_domain hout
      · exact absurd hdomain hout.not_lets
    · by_contra hblocked
      have hsuccess : faults (.categoryAdvertiser ads.adsId) = .success
          ∧ faults (.categoryBlocking ads.adsId) = .success := by
        by_contra hfailed
        exact hblocked (hno_category (not_and_or.mp hfailed))
      rw [CategoryPasses, hsuccess.1, hsuccess.2] at hcategory
      exact hblocked hcategory

/-- An admitted ad that is not beaten wins. -/
theorem beaten_iff (h : ads ∈ admitted faults db request) :
    Beaten faults db request ads
      ↔ ¬Selection.Winner (admitted faults db request) Ads.advertiserId
          (near faults db request) rank ads := by
  constructor
  · rintro (⟨other, hother, hown, hnear⟩ | ⟨other, hother, hrank⟩) hwinner
    · exact hnear.not_ge (hwinner.1.2 other hother hown)
    · exact hrank.not_ge (hwinner.2 other hother)
  · intro hloses
    by_contra hbeaten
    simp only [Beaten, not_or, not_exists, not_and, not_lt] at hbeaten
    exact hloses ⟨⟨h, hbeaten.1⟩, hbeaten.2⟩

variable [DecidableEq χ]

/-- **Failing closed.** Under given faults, the Go auction fails closed exactly
when every ad let in by them is beaten. -/
theorem auction_failsClosed_iff (runtime : Runtime χ) (htypes : DocumentedTypes db) :
    FailsClosed runtime faults db request ↔ LetInBeaten faults db request := by
  obtain ⟨out, hout, hselects⟩ := auctionWinner_spec faults request runtime htypes
  constructor
  · intro hclosed ads hlet
    obtain ⟨hadmitted, hineligible⟩ := letIn_iff.mp hlet
    refine (beaten_iff hadmitted).mpr fun hwinner => hineligible ?_
    have hwon := (hselects ads).mpr hwinner
    cases out with
    | error err => cases hwon
    | ok winner =>
        obtain rfl := Option.some.inj hwon
        obtain ⟨ads', hout', -, heligible⟩ := hclosed (respond request winner)
          (by rw [auction, hout]; rfl)
        obtain rfl := Except.ok.inj (Except.ok.inj (hout.symm.trans hout'))
        exact heligible
  · intro hbeaten response hresponse
    rw [auction, hout] at hresponse
    cases out with
    | error err => cases hresponse
    | ok winner =>
        obtain rfl : respond request winner = response :=
          congrArg Prod.fst (Except.ok.inj hresponse)
        have hwinner := (hselects winner).mp rfl
        refine ⟨winner, hout, rfl, ?_⟩
        by_contra hineligible
        have hlet := letIn_iff.mpr ⟨hwinner.1.1, hineligible⟩
        exact (beaten_iff hwinner.1.1).mp (hbeaten winner hlet) hwinner

/-! ## A blocked ad delivered -/

/-- Both advertisers are blocked by their domains. -/
def blockedRequest : Request Char :=
  ⟨"auction".toList, [1], 10, 300, 250, ["a.example".toList, "b.example".toList]⟩

/-- The ping of one fetch fails: the advertiser of ad 1, in the domain stage. -/
def pingFault : Faults
  | .domainAdvertiser 1 => .pingError
  | _ => .success

/-- The auction answers with ad 1, whose advertiser's domain is blocked. -/
theorem auction_pingFault :
    auction stableRuntime pingFault tieDatabase blockedRequest
        = .ok (⟨"auction".toList, "second".toList, 50000⟩, none)
      ∧ DocumentedTypes tieDatabase
      ∧ ¬FailsClosed stableRuntime pingFault tieDatabase blockedRequest := by
  have hauction : auction stableRuntime pingFault tieDatabase blockedRequest
      = .ok (⟨"auction".toList, "second".toList, 50000⟩, none) := by decide +kernel
  refine ⟨hauction, by decide, fun hclosed => ?_⟩
  obtain ⟨ads, -, -, heligible⟩ := hclosed _ hauction
  have hnone : ∀ ads ∈ tieDatabase.adses, ¬DomainAllowed tieDatabase blockedRequest ads := by
    decide
  exact hnone ads heligible.stored heligible.domain

theorem auction_failsClosed_iff_pingFault :
    FailsClosed stableRuntime pingFault tieDatabase blockedRequest
      ↔ LetInBeaten pingFault tieDatabase blockedRequest :=
  auction_failsClosed_iff stableRuntime (by decide)

end Go

end AuctionWorker
