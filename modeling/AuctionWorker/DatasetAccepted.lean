import AuctionWorker.Dataset

/-!
# The schema accepts what the generator writes

`Accepted` lists what the schema, and the queries of the implementations, demand
of the five tables. The keys come from the invariant of the generator's loops
(`Written`), the domains and the categories of every advertiser from a second
one (`Supplied`).

A domain is filled up by `random_prohibit_string`. In its loop the length of the
pieces and what remains of the length add up to the length asked for
(`prohibitLoop_length`), the filler takes the rest, and the shuffle only permutes
the pieces. Every piece is at least one character long, so that the loop ends
after at most as many choices as the length asked for (`prohibitLoop_choices_le`).
-/

namespace AuctionWorker

namespace CreateData

/-! ## `random_prohibit_string` -/

theorem prohibitLoop_length (draw : ProhibitDraw) (remainingLen i : ℕ)
    (result : List (List Char)) :
    (prohibitLoop draw remainingLen i result).1.flatten.length
        + (prohibitLoop draw remainingLen i result).2
      = result.flatten.length + remainingLen := by
  induction remainingLen, i, result using prohibitLoop.induct draw with
  | case1 remainingLen i result hpos hfits ih =>
      rw [prohibitLoop, if_pos hpos, if_pos hfits, ih, List.flatten_append, List.length_append,
        List.flatten_singleton]
      omega
  | case2 remainingLen i result hpos hlong =>
      rw [prohibitLoop, if_pos hpos, if_neg hlong]
  | case3 remainingLen i result hend =>
      rw [prohibitLoop, if_neg hend]

/-- The loop ends after at most as many choices as there are characters to fill. -/
theorem prohibitLoop_choices_le (draw : ProhibitDraw) (remainingLen i : ℕ)
    (result : List (List Char)) :
    (prohibitLoop draw remainingLen i result).1.length ≤ result.length + remainingLen := by
  induction remainingLen, i, result using prohibitLoop.induct draw with
  | case1 remainingLen i result hpos hfits ih =>
      have hpiece := length_pos_of_mem_prohibit (draw.choice_mem i)
      rw [prohibitLoop, if_pos hpos, if_pos hfits]
      rw [List.length_append, List.length_singleton] at ih
      omega
  | case2 remainingLen i result hpos hlong =>
      rw [prohibitLoop, if_pos hpos, if_neg hlong]
      exact Nat.le_add_right ..
  | case3 remainingLen i result hend =>
      rw [prohibitLoop, if_neg hend]
      exact Nat.le_add_right ..

theorem randomProhibitString_length (draw : ProhibitDraw) (length : ℕ) :
    (randomProhibitString draw length).length = length := by
  have hshuffle : ∀ l, (draw.shuffle l).flatten.length = l.flatten.length :=
    fun l => (draw.shuffle_perm l).flatten.length_eq
  have hloop := prohibitLoop_length draw length 0 []
  rw [randomProhibitString]
  split
  case h_1 result remainingLen heq =>
    rw [heq, List.flatten_nil, List.length_nil, Nat.zero_add] at hloop
    dsimp only at hloop ⊢
    rw [hshuffle]
    split
    · rw [List.flatten_append, List.length_append, List.flatten_singleton,
        (draw.filler remainingLen).text_length, hloop]
    · omega

/-! ## Domains and categories -/

/-- What the files hold of every advertiser written so far. -/
structure Supplied (files : Files) : Prop where
  domains : ∀ row ∈ files.advertisers, row.domain.length = 36
  categories : ∀ row ∈ files.advertisers,
    ∃ category ∈ files.categoryBlockings, category.advertiserId = row.advertiserId

theorem supplied_nil : Supplied ⟨[], [], [], []⟩ :=
  ⟨fun _ h => absurd h List.not_mem_nil, fun _ h => absurd h List.not_mem_nil⟩

theorem supplied_advertiserStep {state : Files × ℕ} (h : Supplied state.1)
    (draw : AdvertiserDraw × ℕ) : Supplied (advertiserStep state draw).1 := by
  simp only [advertiserStep, categoryLoop_eq, adsLoop_eq]
  constructor
  · intro row hrow
    rcases List.mem_append.mp hrow with hrow | hrow
    · exact h.domains row hrow
    · obtain rfl := List.mem_singleton.mp hrow
      rw [List.length_append, randomProhibitString_length]
      rfl
  · intro row hrow
    rcases List.mem_append.mp hrow with hrow | hrow
    · obtain ⟨category, hcategory, hid⟩ := h.categories row hrow
      exact ⟨category, List.mem_append_left _ hcategory, hid⟩
    · -- the new advertiser has drawn a category
      obtain rfl := List.mem_singleton.mp hrow
      obtain ⟨categoryId, hmem⟩ := List.exists_mem_of_length_pos draw.1.categoryIds_length.1
      exact ⟨⟨draw.2, categoryId⟩,
        List.mem_append_right _ (List.mem_map_of_mem hmem), rfl⟩

theorem supplied_createData (draws : List AdvertiserDraw) :
    Supplied ((draws.zipIdx 1).foldl advertiserStep (⟨[], [], [], []⟩, 0)).1 :=
  List.foldlRecOn (motive := fun state : Files × ℕ => Supplied state.1) (draws.zipIdx 1)
    advertiserStep supplied_nil fun _ h draw _ => supplied_advertiserStep h draw

/-! ## The tables -/

/-- What the schema demands of the tables, and what a load may silently drop. -/
structure Accepted (tables : Tables Char) : Prop where
  advertisers_unique : (tables.advertisers.map AdvertiserRow.advertiserId).Nodup
  adsSizes_unique : (tables.adsSizes.map AdSize.sizeId).Nodup
  adses_unique : (tables.adses.map Ads.adsId).Nodup
  adses_counted : tables.adses.map Ads.adsId = List.range' 1 tables.adses.length
  categories_unique : tables.categoryBlockings.Nodup
  categories_some : ∀ row ∈ tables.advertisers,
    ∃ category ∈ tables.categoryBlockings, category.advertiserId = row.advertiserId
  adses_advertiser : ∀ ads ∈ tables.adses,
    ∃ row ∈ tables.advertisers, row.advertiserId = ads.advertiserId
  adses_size : ∀ ads ∈ tables.adses, ∃ size ∈ tables.adsSizes, size.sizeId = ads.sizeId
  categories_advertiser : ∀ category ∈ tables.categoryBlockings,
    ∃ row ∈ tables.advertisers, row.advertiserId = category.advertiserId
  features_ads : ∀ feature ∈ tables.adsFeatures, ∃ ads ∈ tables.adses, ads.adsId = feature.adsId
  features_one : ∀ ads ∈ tables.adses,
    (tables.adsFeatures.map AdsFeature.adsId).count ads.adsId = 1
  domains : ∀ row ∈ tables.advertisers, row.domain.length = 36

/-- The ids of the features are those of the ads, row by row. -/
theorem features_adsId (draws : List AdvertiserDraw) :
    (createData draws).adsFeatures.map AdsFeature.adsId
      = (createData draws).adses.map Ads.adsId :=
  (written_createData draws).features.trans (written_createData draws).adses.symm

theorem adses_counted (draws : List AdvertiserDraw) :
    (createData draws).adses.map Ads.adsId = List.range' 1 (createData draws).adses.length := by
  have hids := (written_createData draws).adses
  have hlength := congrArg List.length hids
  rw [List.length_map, List.length_range'] at hlength
  rw [createData, hids, hlength]

/-- **Accepted data.** Whatever is drawn, the generated tables are accepted, and
`random_prohibit_string` returns as many characters as it is asked for. -/
theorem createData_accepted :
    (∀ draws : List AdvertiserDraw, Accepted (createData draws))
      ∧ ∀ (draw : ProhibitDraw) (length : ℕ),
        (prohibitLoop draw length 0 []).1.length ≤ length
          ∧ (randomProhibitString draw length).length = length := by
  constructor
  · intro draws
    have hsupplied := supplied_createData draws
    exact {
      advertisers_unique := (createDatabase draws).advertisers_pk
      adsSizes_unique := (createDatabase draws).adsSizes_pk
      adses_unique := (createDatabase draws).adses_pk
      adses_counted := adses_counted draws
      categories_unique := (createDatabase draws).categoryBlockings_pk
      categories_some := hsupplied.categories
      adses_advertiser := (createDatabase draws).adses_advertiser_fk
      adses_size := (createDatabase draws).adses_size_fk
      categories_advertiser := (createDatabase draws).categoryBlockings_fk
      features_ads := (createDatabase draws).adsFeatures_fk
      features_one := by
        intro ads hads
        rw [features_adsId]
        exact List.count_eq_one_of_mem (createDatabase draws).adses_pk
          (List.mem_map_of_mem (f := Ads.adsId) hads)
      domains := hsupplied.domains }
  · intro draw length
    have hchoices := prohibitLoop_choices_le draw length 0 []
    rw [List.length_nil, Nat.zero_add] at hchoices
    exact ⟨hchoices, randomProhibitString_length draw length⟩

end CreateData

end AuctionWorker
