import AuctionWorker.CppSelection
import AuctionWorker.Dataset
import AuctionWorker.GoSelection

/-!
# Ties in the C++ auction

The documented auction breaks a tie of the price by `ads_id`, over all
advertisers. The C++ auction sorts by the price alone and keeps the order of the
advertisers among equal prices. Both return a candidate of the highest price, so
that the results can differ in its text only: `auction_isResult_iff` is the exact
condition under which they agree, and `tieDatabase` two advertisers on which they
do not.

The Go auction breaks ties by `ads_id`. On generated data the two orders agree,
because the generator numbers the ads advertiser by advertiser: whatever was drawn,
C++ and Go give the same answer (`auction_agree`).
-/

namespace AuctionWorker

namespace Cpp

open Documented

variable {χ : Type} [DecidableEq χ] {db : Database χ} {request : Request χ}

/-- The candidates that tie on the highest price. -/
def HighestPriced (db : Database χ) (request : Request χ) (ads : Ads χ) : Prop :=
  Candidate db request ads ∧ ∀ other, Candidate db request other → other.price ≤ ads.price

/-- Among the highest-priced candidates, the one of the smallest `ads_id` and the
one of the smallest `advertiser_id` have the same text. -/
def TiesAgree (db : Database χ) (request : Request χ) : Prop :=
  ∀ first second, HighestPriced db request first → HighestPriced db request second →
    (∀ other, HighestPriced db request other → first.adsId ≤ other.adsId) →
    (∀ other, HighestPriced db request other → second.advertiserId ≤ other.advertiserId) →
    first.adsTxt = second.adsTxt

omit [DecidableEq χ] in
/-- A winner whose rank starts with the price is a highest-priced candidate. -/
theorem winner_iff_highestPriced (key : Ads χ → ℕ) (ads : Ads χ) :
    Selection.Winner (offers db request) Ads.advertiserId (near db request)
        (fun a => toLex (OrderDual.toDual a.price, key a)) ads
      ↔ HighestPriced db request ads
        ∧ ∀ other, HighestPriced db request other → key ads ≤ key other :=
  Selection.winner_lex_iff ads

/-- **The C++ auction against the documentation.** It returns the documented
result exactly when the two tie rules pick the same text. -/
theorem auction_isResult_iff (htypes : DocumentedTypes db) (hfeatures : DocumentedFeatures db)
    (hr : DocumentedFeature request.feature) :
    (∃ result, auction db request = .ok result ∧ IsResult db request result)
      ↔ TiesAgree db request := by
  obtain ⟨winner, hwinner, hselects⟩ := auctionWinner_eq htypes hfeatures hr
  have hauction : auction db request = .ok (winner.map (respond request)) := by
    rw [auction, hwinner]
    rfl
  constructor
  · rintro ⟨result, hok, hresult⟩ first second hfirst hsecond hid hadvertiser
    obtain rfl := Except.ok.inj (hauction.symm.trans hok)
    have hw : Winner db request first :=
      (winner_iff_highestPriced Ads.adsId first).mpr ⟨hfirst, hid⟩
    have hv := (winner_iff_highestPriced Ads.advertiserId second).mpr ⟨hsecond, hadvertiser⟩
    have hsome := hresult.winner first hw
    rw [(hselects second).mpr hv, Option.map_some] at hsome
    exact congrArg Response.ads (Option.some.inj hsome.symm)
  · intro hties
    refine ⟨_, hauction, fun w hw => ?_, ?_⟩
    · obtain ⟨v, hv⟩ := Selection.exists_winner Ads.advertiserId (near db request)
        advertiserRank offers_finite ⟨w, hw.1.1⟩
      obtain ⟨hw', hid⟩ := (winner_iff_highestPriced Ads.adsId w).mp hw
      obtain ⟨hv', hadvertiser⟩ := (winner_iff_highestPriced Ads.advertiserId v).mp hv
      have htxt := hties w v hw' hv' hid hadvertiser
      have hprice : v.price = w.price := Nat.le_antisymm (hw'.2 v hv.1) (hv'.2 w hw.1)
      rw [(hselects v).mpr hv, Option.map_some, respond, respond, htxt, hprice]
    · rw [Option.map_eq_none_iff, hselects.eq_none_iff_pool offers_finite]
      constructor
      · rintro hempty ads ⟨hads, -⟩
        exact Set.notMem_empty ads (hempty ▸ hads)
      · intro hno
        refine Set.eq_empty_iff_forall_notMem.mpr fun ads hads => ?_
        obtain ⟨r, hr, -⟩ := Selection.exists_representative Ads.advertiserId (near db request)
          offers_finite hads
        exact hno r hr

/-! ## Two advertisers in the wrong order -/

/-- The documented winner is ad 1, the C++ auction returns ad 2. -/
theorem auction_tieDatabase :
    (DocumentedTypes tieDatabase ∧ DocumentedFeatures tieDatabase
        ∧ DocumentedFeature tieRequest.feature)
      ∧ auction tieDatabase tieRequest
        = .ok (some ⟨"auction".toList, "first".toList, 50000⟩)
      ∧ ¬∃ result, auction tieDatabase tieRequest = .ok result
        ∧ IsResult tieDatabase tieRequest result := by
  have hauction : auction tieDatabase tieRequest
      = .ok (some ⟨"auction".toList, "first".toList, 50000⟩) := by decide
  have hwinner : winner? tieDatabase tieRequest
      = some ⟨1, 2, 50000, "second".toList, 1⟩ := by decide
  refine ⟨by decide, hauction, ?_⟩
  rintro ⟨result, hok, hresult⟩
  obtain rfl := Except.ok.inj (hauction.symm.trans hok)
  have hsome := hresult.winner _ ((winner?_selects _).mp hwinner)
  exact absurd hsome (by decide)

/-- The characterisation applies to it: its ties do not agree. -/
theorem auction_isResult_iff_tieDatabase :
    (∃ result, auction tieDatabase tieRequest = .ok result
        ∧ IsResult tieDatabase tieRequest result) ↔ TiesAgree tieDatabase tieRequest :=
  auction_isResult_iff (by decide) (by decide) (by decide)

end Cpp

/-! ## Generated data -/

section Generated

open Documented CreateData

/-- On generated data both ranks order the candidates alike. -/
theorem rank_le_iff_advertiserRank_le {draws : List AdvertiserDraw} {request : Request Char}
    {a b : Ads Char} (ha : Candidate (createDatabase draws) request a)
    (hb : Candidate (createDatabase draws) request b) :
    rank a ≤ rank b ↔ Cpp.advertiserRank a ≤ Cpp.advertiserRank b := by
  have hids : a.adsId ≤ b.adsId ↔ a.advertiserId ≤ b.advertiserId := by
    have ha' := offers_stored ha.1
    have hb' := offers_stored hb.1
    rcases lt_trichotomy a.advertiserId b.advertiserId with hlt | heq | hgt
    · exact iff_of_true (adsId_lt_of_advertiserId_lt ha' hb' hlt).le hlt.le
    · rw [ha.unique hb heq]
      exact iff_of_true le_rfl le_rfl
    · exact iff_of_false (adsId_lt_of_advertiserId_lt hb' ha' hgt).not_ge hgt.not_ge
  simp only [rank, Cpp.advertiserRank, Prod.Lex.toLex_le_toLex, hids]

/-- **Agreement.** On generated data the C++ and the Go auction return, and give
the same answer to every request of the evaluation. -/
theorem auction_agree (draws : List AdvertiserDraw) (draw : RequestDraw)
    (runtime : Go.Runtime Char) :
    ∃ result out, Cpp.auction (createDatabase draws) draw.requestData = .ok result
      ∧ Go.auction runtime Go.noFaults (createDatabase draws) draw.requestData = .ok out
      ∧ Go.bid out = result := by
  have htypes := documentedTypes_createDatabase draws
  have hfeatures := documentedFeatures_createDatabase draws
  have hr : DocumentedFeature draw.requestData.feature := draw.zoneFeature_range
  obtain ⟨winner, hwinner, hselects⟩ := Cpp.auctionWinner_eq htypes hfeatures hr
  obtain ⟨out, winner', hout, hbid, hselects'⟩ := Go.auction_noFaults runtime htypes hfeatures hr
  refine ⟨winner.map (respond draw.requestData), out, by rw [Cpp.auction, hwinner]; rfl, hout, ?_⟩
  rw [hbid, hselects'.eq hselects fun ads => Selection.Winner.congr_rank
    (fun a b ha hb => rank_le_iff_advertiserRank_le ha hb) ads]

end Generated

end AuctionWorker
