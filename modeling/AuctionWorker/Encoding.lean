import AuctionWorker.CppSelection
import AuctionWorker.NonStringEntries
import AuctionWorker.ResponseSender
import AuctionWorker.Utf8Search

/-!
# Auctions in bytes and in characters

C++ and Go run the auction on the bytes of UTF-8, Python on characters. The only
thing an auction does to a string is to search for it in a domain. So a change of
units `f` that preserves substrings (`PreservesInfix`) commutes with the
documented selection (`selects_mapText`), and with the auctions of C++ and Go.
UTF-8 preserves substrings, so that their answers in bytes are the encodings of
their answers in characters (`auctions_utf8`).
-/

namespace AuctionWorker

open Text

variable {χ ψ : Type}

/-! ## Change of units in a database -/

namespace Ads

/-- Apply `f` to the text of an ad. -/
def mapText (f : List χ → List ψ) (ads : Ads χ) : Ads ψ where
  adsId := ads.adsId
  advertiserId := ads.advertiserId
  price := ads.price
  adsTxt := f ads.adsTxt
  sizeId := ads.sizeId

theorem mapText_injective {f : List χ → List ψ} (hf : Function.Injective f) :
    Function.Injective (mapText f) := by
  intro a b h
  cases a
  cases b
  simp only [mapText, Ads.mk.injEq] at h ⊢
  exact ⟨h.1, h.2.1, h.2.2.1, hf h.2.2.2.1, h.2.2.2.2⟩

end Ads

/-- Apply `f` to the strings of an advertiser. -/
def AdvertiserRow.mapText (f : List χ → List ψ) (row : AdvertiserRow χ) : AdvertiserRow ψ where
  advertiserId := row.advertiserId
  advertiserName := f row.advertiserName
  categoryBlockingType := row.categoryBlockingType
  domain := f row.domain

/-- Apply `f` to every string that is stored. -/
def Database.mapText (f : List χ → List ψ) (db : Database χ) : Database ψ where
  advertisers := db.advertisers.map (AdvertiserRow.mapText f)
  adsSizes := db.adsSizes
  adses := db.adses.map (Ads.mapText f)
  categoryBlockings := db.categoryBlockings
  adsFeatures := db.adsFeatures
  advertisers_pk := by
    rw [List.map_map]
    exact db.advertisers_pk
  adsSizes_pk := db.adsSizes_pk
  adses_pk := by
    rw [List.map_map]
    exact db.adses_pk
  categoryBlockings_pk := db.categoryBlockings_pk
  adsFeatures_pk := db.adsFeatures_pk
  adses_advertiser_fk := List.forall_mem_map.mpr fun ads hads => by
    obtain ⟨row, hrow, hid⟩ := db.adses_advertiser_fk ads hads
    exact ⟨row.mapText f, List.mem_map_of_mem hrow, hid⟩
  adses_size_fk := List.forall_mem_map.mpr db.adses_size_fk
  categoryBlockings_fk category hcategory := by
    obtain ⟨row, hrow, hid⟩ := db.categoryBlockings_fk category hcategory
    exact ⟨row.mapText f, List.mem_map_of_mem hrow, hid⟩
  adsFeatures_fk feature hfeature := by
    obtain ⟨ads, hads, hid⟩ := db.adsFeatures_fk feature hfeature
    exact ⟨ads.mapText f, List.mem_map_of_mem hads, hid⟩
  adsFeatures_int := db.adsFeatures_int

theorem map_respond_mapText (f : List χ → List ψ) (request : Request χ)
    (winner : Option (Ads χ)) :
    (winner.map (Ads.mapText f)).map (respond (request.mapText f))
      = (winner.map (respond request)).map (Response.mapText f) := by
  cases winner <;> rfl

theorem documentedTypes_mapText {f : List χ → List ψ} {db : Database χ}
    (h : DocumentedTypes db) : DocumentedTypes (db.mapText f) :=
  List.forall_mem_map.mpr h

/-! ## Substrings -/

/-- `f` keeps what occurs in what. -/
def PreservesInfix (f : List χ → List ψ) : Prop :=
  ∀ s t, f t <:+: f s ↔ t <:+: s

theorem preservesInfix_utf8 : PreservesInfix utf8 :=
  fun _ _ => utf8_infix_iff

/-- Strings that occur in each other are equal. -/
theorem PreservesInfix.injective {f : List χ → List ψ} (hf : PreservesInfix f) :
    Function.Injective f := by
  intro s t h
  have hst : s <:+: t := (hf t s).mp (h ▸ List.infix_rfl)
  have hts : t <:+: s := (hf s t).mp (h ▸ List.infix_rfl)
  exact hst.eq_of_length_le hts.length_le

/-! ## The documented auction -/

namespace Documented

variable {f : List χ → List ψ} (hf : PreservesInfix f) (db : Database χ) (request : Request χ)

include hf in
theorem domainAllowed_mapText (ads : Ads χ) :
    DomainAllowed (db.mapText f) (request.mapText f) (ads.mapText f)
      ↔ DomainAllowed db request ads := by
  have hrows : ∀ row : AdvertiserRow χ,
      (∀ entry ∈ request.blockDomains.map f, ¬entry <:+: f row.domain)
        ↔ ∀ entry ∈ request.blockDomains, ¬entry <:+: row.domain := by
    intro row
    rw [List.forall_mem_map]
    exact forall₂_congr fun entry _ => not_congr (hf row.domain entry)
  constructor
  · intro h row hrow hid
    exact (hrows row).mp (h (row.mapText f) (List.mem_map_of_mem hrow) hid)
  · intro h
    exact List.forall_mem_map.mpr fun row hrow hid => (hrows row).mpr (h row hrow hid)

theorem categoryAllowed_mapText (ads : Ads χ) :
    CategoryAllowed (db.mapText f) (request.mapText f) (ads.mapText f)
      ↔ CategoryAllowed db request ads := by
  refine imp_congr_right fun _ => ?_
  constructor
  · rintro ⟨_, hmem, hid, hrule⟩
    obtain ⟨row, hrow, rfl⟩ := List.mem_map.mp hmem
    exact ⟨row, hrow, hid, hrule⟩
  · rintro ⟨row, hrow, hid, hrule⟩
    exact ⟨row.mapText f, List.mem_map_of_mem hrow, hid, hrule⟩

include hf

theorem mem_offers_mapText (ads : Ads χ) :
    ads.mapText f ∈ offers (db.mapText f) (request.mapText f) ↔ ads ∈ offers db request := by
  have hstored : ads.mapText f ∈ (db.mapText f).adses ↔ ads ∈ db.adses :=
    List.mem_map_of_injective (Ads.mapText_injective hf.injective)
  constructor
  · rintro ⟨⟨hmem, hsize, hdomain, hcategory⟩, hfeature⟩
    exact ⟨⟨hstored.mp hmem, hsize, (domainAllowed_mapText hf db request ads).mp hdomain,
      (categoryAllowed_mapText db request ads).mp hcategory⟩, hfeature⟩
  · rintro ⟨⟨hmem, hsize, hdomain, hcategory⟩, hfeature⟩
    exact ⟨⟨hstored.mpr hmem, hsize, (domainAllowed_mapText hf db request ads).mpr hdomain,
      (categoryAllowed_mapText db request ads).mpr hcategory⟩, hfeature⟩

/-- The offers are those of the database in the other units. -/
theorem offers_mapText :
    offers (db.mapText f) (request.mapText f) = Ads.mapText f '' offers db request := by
  ext ads
  constructor
  · intro hads
    obtain ⟨ads, -, rfl⟩ := List.mem_map.mp (offers_stored hads)
    exact ⟨ads, (mem_offers_mapText hf db request ads).mp hads, rfl⟩
  · rintro ⟨ads, hads, rfl⟩
    exact (mem_offers_mapText hf db request ads).mpr hads

/-- **Selection in other units.** Whatever ranks the candidates, the winner is the
encoding of the winner. -/
theorem selects_mapText {β : Type} [LinearOrder β] {rank : Ads χ → β} {rank' : Ads ψ → β}
    (hrank : ∀ ads, rank' (ads.mapText f) = rank ads) {winner : Option (Ads χ)}
    (h : Selection.Selects winner
      (Selection.Winner (offers db request) Ads.advertiserId (near db request) rank)) :
    Selection.Selects (winner.map (Ads.mapText f))
      (Selection.Winner (offers (db.mapText f) (request.mapText f)) Ads.advertiserId
        (near (db.mapText f) (request.mapText f)) rank') := by
  intro ads
  have hg := Ads.mapText_injective hf.injective
  rw [offers_mapText hf, Option.map_eq_some_iff]
  constructor
  · rintro ⟨ads, hads, rfl⟩
    exact (Selection.winner_image (fun _ => rfl) (fun _ => rfl) hrank hg).mpr ((h ads).mp hads)
  · intro hads
    obtain ⟨ads, -, rfl⟩ := hads.1.1
    refine ⟨ads, (h ads).mpr ?_, rfl⟩
    exact (Selection.winner_image (fun _ => rfl) (fun _ => rfl) hrank hg).mp hads

end Documented

/-! ## C++ -/

section Auctions

variable [DecidableEq χ] [DecidableEq ψ] {f : List χ → List ψ} (hf : PreservesInfix f)
  (db : Database χ) (request : Request χ)

include hf

omit [DecidableEq χ] [DecidableEq ψ] in
theorem Cpp.exact_mapText :
    Cpp.Exact (db.mapText f) (request.mapText f) ↔ Cpp.Exact db request := by
  have hg := Ads.mapText_injective hf.injective
  simp only [Cpp.Exact, Documented.offers_mapText hf, Set.forall_mem_image, hg.ne_iff]
  rfl

/-- The C++ auction in other units returns and aborts alike. -/
theorem Cpp.auction_mapText (htypes : DocumentedTypes db) :
    Cpp.auction (db.mapText f) (request.mapText f)
      = (Cpp.auction db request).map (Option.map (Response.mapText f)) := by
  rcases Cpp.auctionWinner_cases request htypes with
    ⟨hexact, winner, hwinner, hselects⟩ | ⟨hexact, herr⟩
  · rcases Cpp.auctionWinner_cases (request.mapText f) (documentedTypes_mapText htypes) with
      ⟨-, winner', hwinner', hselects'⟩ | ⟨hexact', -⟩
    · obtain rfl := hselects'.eq (Documented.selects_mapText hf db request (fun _ => rfl) hselects)
        fun _ => Iff.rfl
      rw [Cpp.auction, Cpp.auction, hwinner, hwinner']
      exact congrArg Except.ok (map_respond_mapText f request winner)
    · exact absurd ((Cpp.exact_mapText hf db request).mpr hexact) hexact'
  · rcases Cpp.auctionWinner_cases (request.mapText f) (documentedTypes_mapText htypes) with
      ⟨hexact', -⟩ | ⟨-, herr'⟩
    · exact absurd ((Cpp.exact_mapText hf db request).mp hexact') hexact
    · rw [Cpp.auction, Cpp.auction, herr, herr']
      rfl

/-! ## Go -/

omit [DecidableEq χ] [DecidableEq ψ] in
theorem Go.onOffer_mapText (ads : Ads χ) :
    Go.OnOffer (db.mapText f) (request.mapText f) (ads.mapText f) ↔ Go.OnOffer db request ads := by
  have hstored : ads.mapText f ∈ (db.mapText f).adses ↔ ads ∈ db.adses :=
    List.mem_map_of_injective (Ads.mapText_injective hf.injective)
  have hlets : Go.TypeLets (db.mapText f) (request.mapText f) (ads.mapText f)
      ↔ Go.TypeLets db request ads := by
    constructor
    · rintro ⟨_, hmem, hid, hlets⟩
      obtain ⟨row, hrow, rfl⟩ := List.mem_map.mp hmem
      exact ⟨row, hrow, hid, hlets⟩
    · rintro ⟨row, hrow, hid, hlets⟩
      exact ⟨row.mapText f, List.mem_map_of_mem hrow, hid, hlets⟩
  constructor
  · rintro ⟨hmem, hsize, hdomain, hcategory, hfeature⟩
    exact ⟨hstored.mp hmem, hsize, (Documented.domainAllowed_mapText hf db request ads).mp hdomain,
      hlets.mp hcategory, hfeature⟩
  · rintro ⟨hmem, hsize, hdomain, hcategory, hfeature⟩
    exact ⟨hstored.mpr hmem, hsize,
      (Documented.domainAllowed_mapText hf db request ads).mpr hdomain, hlets.mpr hcategory,
      hfeature⟩

theorem Go.reaching_mapText :
    Go.reaching Go.noFaults (db.mapText f) (request.mapText f)
      = Ads.mapText f '' Go.reaching Go.noFaults db request := by
  ext ads
  constructor
  · intro hads
    obtain ⟨ads, -, rfl⟩ := List.mem_map.mp (Go.reaching_stored hads)
    refine ⟨ads, Go.mem_reaching_noFaults.mpr ?_, rfl⟩
    exact (Go.onOffer_mapText hf db request ads).mp (Go.mem_reaching_noFaults.mp hads)
  · rintro ⟨ads, hads, rfl⟩
    refine Go.mem_reaching_noFaults.mpr ?_
    exact (Go.onOffer_mapText hf db request ads).mpr (Go.mem_reaching_noFaults.mp hads)

/-- The Go auction in other units makes the same bid, whatever types are stored. -/
theorem Go.bid_mapText (runtime : Go.Runtime χ) (runtime' : Go.Runtime ψ) :
    ∃ out out', Go.auction runtime Go.noFaults db request = .ok out
      ∧ Go.auction runtime' Go.noFaults (db.mapText f) (request.mapText f) = .ok out'
      ∧ Go.bid out' = (Go.bid out).map (Response.mapText f) := by
  obtain ⟨out, winner, hout, hbid, hselects⟩ := Go.auction_reaching Go.noFaults db request runtime
  obtain ⟨out', winner', hout', hbid', hselects'⟩ :=
    Go.auction_reaching Go.noFaults (db.mapText f) (request.mapText f) runtime'
  refine ⟨out, out', hout, hout', ?_⟩
  have hg := Ads.mapText_injective hf.injective
  have hwinner : winner' = winner.map (Ads.mapText f) := by
    refine Option.ext fun ads => ?_
    rw [hselects' ads, Go.reaching_mapText hf, Option.map_eq_some_iff]
    constructor
    · intro hads
      obtain ⟨ads, -, rfl⟩ := hads.1.1
      refine ⟨ads, (hselects ads).mpr ?_, rfl⟩
      exact (Selection.winner_image (fun _ => rfl) (fun _ => rfl) (fun _ => rfl) hg).mp hads
    · rintro ⟨ads, hads, rfl⟩
      refine (Selection.winner_image (fun _ => rfl) (fun _ => rfl) (fun _ => rfl) hg).mpr ?_
      exact (hselects ads).mp hads
  rw [hbid, hbid', hwinner, map_respond_mapText]

end Auctions

/-! ## UTF-8 -/

/-- The C++ and the Go auction on the bytes of a database and a request answer with the
bytes of what they answer on the characters. -/
structure SameInBytes (db : Database Char) (request : Request Char) : Prop where
  cpp : Cpp.auction (db.mapText utf8) (request.mapText utf8)
    = (Cpp.auction db request).map (Option.map (Response.mapText utf8))
  go : ∀ (runtime : Go.Runtime Char) (runtime' : Go.Runtime UInt8), ∃ out out',
    Go.auction runtime Go.noFaults db request = .ok out
      ∧ Go.auction runtime' Go.noFaults (db.mapText utf8) (request.mapText utf8) = .ok out'
      ∧ Go.bid out' = (Go.bid out).map (Response.mapText utf8)

/-- **Bytes and characters.** Whatever Unicode strings are stored and requested, the
search for blocked domains in bytes makes no difference to an auction. -/
theorem auctions_utf8 {db : Database Char} (htypes : DocumentedTypes db)
    (request : Request Char) : SameInBytes db request where
  cpp := Cpp.auction_mapText preservesInfix_utf8 db request htypes
  go := Go.bid_mapText preservesInfix_utf8 db request

theorem auctions_utf8_tieDatabase :
    SameInBytes Documented.tieDatabase Documented.tieRequest :=
  auctions_utf8 (by decide) Documented.tieRequest

end AuctionWorker
