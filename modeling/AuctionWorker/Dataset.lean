import AuctionWorker.CreateData

/-!
# What the generator writes

The invariant of the generator's nested loops (`Written`): after `n` advertisers,
their ids are `1 … n`, the ids of all ads are `1 … sum_ads` in the order in
which they were written, and the ads are ordered by their advertisers. One
advertiser extends it (`written_advertiserStep`), so that it holds of the whole
run (`written_run`). The tables satisfy the schema (`createDatabase`), and an ad
of a later advertiser has a larger id (`adsId_lt_of_advertiserId_lt`). Every text
consists of letters, digits and the dot of `.com` (`Legible`).
-/

namespace AuctionWorker

namespace CreateData

/-! ## The inner loops -/

/-- The rows of one advertiser's ads. -/
def adsRows (advertiserId sumAds : ℕ) (draws : List (AdsDraw × ℕ)) : List (Ads Char) :=
  draws.map fun draw =>
    ⟨draw.2 + sumAds, advertiserId, draw.1.price, draw.1.adsTxt.text, draw.1.sizeId⟩

def featureRows (sumAds : ℕ) (draws : List (AdsDraw × ℕ)) : List AdsFeature :=
  draws.map fun draw => ⟨draw.2 + sumAds, draw.1.feature⟩

theorem adsLoop_eq (advertiserId sumAds : ℕ) (draws : List (AdsDraw × ℕ)) (files : Files) :
    draws.foldl (adsStep advertiserId sumAds) files
      = { files with
          adses := files.adses ++ adsRows advertiserId sumAds draws
          adsFeatures := files.adsFeatures ++ featureRows sumAds draws } := by
  induction draws generalizing files with
  | nil => simp [adsRows, featureRows]
  | cons draw draws ih => simp [ih, adsStep, adsRows, featureRows]

theorem categoryLoop_eq (advertiserId : ℕ) (categoryIds : List ℕ) (files : Files) :
    categoryIds.foldl (categoryStep advertiserId) files
      = { files with
          categoryBlockings := files.categoryBlockings
            ++ categoryIds.map fun categoryId => ⟨advertiserId, categoryId⟩ } := by
  induction categoryIds generalizing files with
  | nil => simp
  | cons categoryId categoryIds ih => simp [ih, categoryStep]

/-- The ids of one advertiser's ads continue those written before. -/
theorem zipIdx_adsId (sumAds : ℕ) (draws : List AdsDraw) :
    ((draws.zipIdx 1).map fun draw => draw.2 + sumAds) = List.range' (1 + sumAds) draws.length := by
  have hsplit : ((draws.zipIdx 1).map fun draw => draw.2 + sumAds)
      = ((draws.zipIdx 1).map Prod.snd).map (sumAds + ·) := by
    rw [List.map_map]
    exact List.map_congr_left fun draw _ => Nat.add_comm _ _
  rw [hsplit, List.zipIdx_map_snd, List.map_add_range', Nat.add_comm]

theorem adsRows_adsId (advertiserId sumAds : ℕ) (draws : List AdsDraw) :
    (adsRows advertiserId sumAds (draws.zipIdx 1)).map Ads.adsId
      = List.range' (1 + sumAds) draws.length := by
  rw [← zipIdx_adsId, adsRows, List.map_map]
  rfl

theorem featureRows_adsId (sumAds : ℕ) (draws : List AdsDraw) :
    (featureRows sumAds (draws.zipIdx 1)).map AdsFeature.adsId
      = List.range' (1 + sumAds) draws.length := by
  rw [← zipIdx_adsId, featureRows, List.map_map]
  rfl

theorem mem_adsRows {advertiserId sumAds : ℕ} {draws : List (AdsDraw × ℕ)} {ads : Ads Char}
    (h : ads ∈ adsRows advertiserId sumAds draws) :
    ads.advertiserId = advertiserId ∧ ads.sizeId ∈ ADS_SIZE_IDS := by
  obtain ⟨draw, -, rfl⟩ := List.mem_map.mp h
  exact ⟨rfl, draw.1.sizeId_mem⟩

/-! ## The invariant -/

/-- What the files hold after `n` advertisers. -/
structure Written (n : ℕ) (files : Files) (sumAds : ℕ) : Prop where
  advertisers : files.advertisers.map AdvertiserRow.advertiserId = List.range' 1 n
  types : ∀ row ∈ files.advertisers,
    row.categoryBlockingType = some allowType ∨ row.categoryBlockingType = some denyType
  adses : files.adses.map Ads.adsId = List.range' 1 sumAds
  owned : ∀ ads ∈ files.adses, 1 ≤ ads.advertiserId ∧ ads.advertiserId ≤ n
  sized : ∀ ads ∈ files.adses, ads.sizeId ∈ ADS_SIZE_IDS
  ordered : files.adses.Pairwise fun a b => a.advertiserId ≤ b.advertiserId
  categories : files.categoryBlockings.Nodup
  categories_owned : ∀ row ∈ files.categoryBlockings, 1 ≤ row.advertiserId ∧ row.advertiserId ≤ n
  features : files.adsFeatures.map AdsFeature.adsId = List.range' 1 sumAds
  features_range : ∀ row ∈ files.adsFeatures, DocumentedFeature row.feature

theorem written_nil : Written 0 ⟨[], [], [], []⟩ 0 := by
  refine ⟨rfl, ?_, rfl, ?_, ?_, List.Pairwise.nil, List.nodup_nil, ?_, rfl, ?_⟩ <;>
    exact fun _ h => absurd h List.not_mem_nil

/-- One advertiser extends the files. -/
theorem written_advertiserStep {n : ℕ} {state : Files × ℕ} (h : Written n state.1 state.2)
    (draw : AdvertiserDraw) :
    Written (n + 1) (advertiserStep state (draw, n + 1)).1
      (advertiserStep state (draw, n + 1)).2 := by
  obtain ⟨files, sumAds⟩ := state
  simp only [advertiserStep, categoryLoop_eq, adsLoop_eq]
  refine ⟨?_, ?_, ?_, ?_, ?_, ?_, ?_, ?_, ?_, ?_⟩
  · -- the new advertiser continues the ids
    rw [List.map_append, h.advertisers, List.range'_concat]
    simp [Nat.add_comm]
  · intro row hrow
    rcases List.mem_append.mp hrow with hrow | hrow
    · exact h.types row hrow
    · obtain rfl := List.mem_singleton.mp hrow
      rcases draw.categoryBlockingType_range with htype | htype
      · exact Or.inl (congrArg some htype)
      · exact Or.inr (congrArg some htype)
  · rw [List.map_append, h.adses, adsRows_adsId, List.range'_append_1]
  · intro ads hads
    rcases List.mem_append.mp hads with hads | hads
    · have := h.owned ads hads
      omega
    · have := (mem_adsRows hads).1
      omega
  · intro ads hads
    rcases List.mem_append.mp hads with hads | hads
    · exact h.sized ads hads
    · exact (mem_adsRows hads).2
  · -- earlier ads belong to earlier advertisers
    refine List.pairwise_append.mpr ⟨h.ordered, ?_, fun a ha b hb => ?_⟩
    · refine List.pairwise_of_forall_mem_list fun a ha b hb => ?_
      rw [(mem_adsRows ha).1, (mem_adsRows hb).1]
    · have := h.owned a ha
      have := (mem_adsRows hb).1
      omega
  · -- a new advertiser has no categories yet
    refine List.nodup_append.mpr ⟨h.categories, ?_, fun a ha b hb heq => ?_⟩
    · exact draw.categoryIds_nodup.map fun a b hab => congrArg CategoryBlockingRow.categoryId hab
    · obtain ⟨categoryId, -, rfl⟩ := List.mem_map.mp hb
      have := h.categories_owned a ha
      have := congrArg CategoryBlockingRow.advertiserId heq
      dsimp only at this
      omega
  · intro row hrow
    rcases List.mem_append.mp hrow with hrow | hrow
    · have := h.categories_owned row hrow
      omega
    · obtain ⟨categoryId, -, rfl⟩ := List.mem_map.mp hrow
      exact ⟨Nat.le_add_left 1 n, le_rfl⟩
  · rw [List.map_append, h.features, featureRows_adsId, List.range'_append_1]
  · intro row hrow
    rcases List.mem_append.mp hrow with hrow | hrow
    · exact h.features_range row hrow
    · obtain ⟨draw, -, rfl⟩ := List.mem_map.mp hrow
      exact draw.1.feature_range

/-- The whole run keeps the invariant. -/
theorem written_run (draws : List AdvertiserDraw) {n : ℕ} (state : Files × ℕ)
    (h : Written n state.1 state.2) :
    Written (n + draws.length) ((draws.zipIdx (n + 1)).foldl advertiserStep state).1
      ((draws.zipIdx (n + 1)).foldl advertiserStep state).2 := by
  induction draws generalizing n state with
  | nil => exact h
  | cons draw draws ih =>
      have hrun := ih _ (written_advertiserStep h draw)
      rw [List.zipIdx_cons, List.foldl_cons, List.length_cons]
      rwa [Nat.add_right_comm, Nat.add_assoc] at hrun

/-! ## The database -/

theorem written_createData (draws : List AdvertiserDraw) :
    Written draws.length ((draws.zipIdx 1).foldl advertiserStep (⟨[], [], [], []⟩, 0)).1
      ((draws.zipIdx 1).foldl advertiserStep (⟨[], [], [], []⟩, 0)).2 := by
  have hrun := written_run draws (⟨[], [], [], []⟩, 0) written_nil
  rwa [Nat.zero_add] at hrun

theorem adsSizes_sizeId : adsSizes.map AdSize.sizeId = ADS_SIZE_IDS := by
  decide

/-- Ids that are counted up are distinct, and each of them is there. -/
theorem exists_of_map_eq_range' {ρ : Type} {key : ρ → ℕ} {rows : List ρ} {n k : ℕ}
    (h : rows.map key = List.range' 1 n) (hk : 1 ≤ k ∧ k ≤ n) : ∃ row ∈ rows, key row = k := by
  have hmem : k ∈ rows.map key := by
    rw [h, List.mem_range'_1]
    omega
  exact List.mem_map.mp hmem

/-- The generated tables satisfy the schema. -/
def createDatabase (draws : List AdvertiserDraw) : Database Char where
  toTables := createData draws
  advertisers_pk := by
    rw [createData, (written_createData draws).advertisers]
    exact List.nodup_range'
  adsSizes_pk := by
    show (adsSizes.map AdSize.sizeId).Nodup
    decide
  adses_pk := by
    rw [createData, (written_createData draws).adses]
    exact List.nodup_range'
  categoryBlockings_pk := (written_createData draws).categories
  adsFeatures_pk := by
    rw [createData, (written_createData draws).features]
    exact List.nodup_range'
  adses_advertiser_fk ads hads :=
    exists_of_map_eq_range' (written_createData draws).advertisers
      ((written_createData draws).owned ads hads)
  adses_size_fk ads hads := by
    have hsized := (written_createData draws).sized ads hads
    rw [← adsSizes_sizeId] at hsized
    exact List.mem_map.mp hsized
  categoryBlockings_fk row hrow :=
    exists_of_map_eq_range' (written_createData draws).advertisers
      ((written_createData draws).categories_owned row hrow)
  adsFeatures_fk row hrow := by
    have hmem : row.adsId ∈ List.range' 1 _ :=
      (written_createData draws).features ▸ List.mem_map_of_mem (f := AdsFeature.adsId) hrow
    rw [← (written_createData draws).adses] at hmem
    exact List.mem_map.mp hmem
  adsFeatures_int row hrow := by
    have := (written_createData draws).features_range row hrow
    unfold DocumentedFeature at this
    omega

theorem documentedTypes_createDatabase (draws : List AdvertiserDraw) :
    DocumentedTypes (createDatabase draws) :=
  (written_createData draws).types

theorem documentedFeatures_createDatabase (draws : List AdvertiserDraw) :
    DocumentedFeatures (createDatabase draws) :=
  (written_createData draws).features_range

/-- **The invariant of the generator.** An ad of a later advertiser has a larger
id. -/
theorem adsId_lt_of_advertiserId_lt {draws : List AdvertiserDraw} {a b : Ads Char}
    (ha : a ∈ (createDatabase draws).adses) (hb : b ∈ (createDatabase draws).adses)
    (h : a.advertiserId < b.advertiserId) : a.adsId < b.adsId := by
  have hwritten := written_createData draws
  have hids : (createDatabase draws).adses.Pairwise fun a b => a.adsId < b.adsId := by
    refine List.pairwise_map.mp ?_
    show List.Pairwise (· < ·) ((createData draws).adses.map Ads.adsId)
    rw [createData, hwritten.adses]
    exact List.pairwise_lt_range'
  have hboth : (createDatabase draws).adses.Pairwise fun a b =>
      (a.advertiserId < b.advertiserId → a.adsId < b.adsId)
        ∧ (b.advertiserId < a.advertiserId → b.adsId < a.adsId) :=
    hids.imp₂ (fun a b hlt hle => ⟨fun _ => hlt, fun hgt => absurd hgt hle.not_gt⟩)
      hwritten.ordered
  have : Std.Symm fun a b : Ads Char => (a.advertiserId < b.advertiserId → a.adsId < b.adsId)
      ∧ (b.advertiserId < a.advertiserId → b.adsId < a.adsId) :=
    ⟨fun _ _ hab => ⟨hab.2, hab.1⟩⟩
  refine (hboth.forall_of_forall (fun x _ => ?_) ha hb).1 h
  exact ⟨fun hlt => absurd hlt (lt_irrefl _), fun hlt => absurd hlt (lt_irrefl _)⟩

/-! ## Texts and numbers -/

theorem prohibitLoop_alphanum (draw : ProhibitDraw) (remainingLen i : ℕ)
    {result : List (List Char)} (h : ∀ s ∈ result, ∀ c ∈ s, c.isAlphanum) :
    ∀ s ∈ (prohibitLoop draw remainingLen i result).1, ∀ c ∈ s, c.isAlphanum := by
  induction remainingLen, i, result using prohibitLoop.induct draw with
  | case1 remainingLen i result hpos hfits ih =>
      rw [prohibitLoop, if_pos hpos, if_pos hfits]
      refine ih (List.forall_mem_append.mpr ⟨h, List.forall_mem_singleton.mpr ?_⟩)
      exact isAlphanum_of_mem_prohibit (draw.choice_mem i)
  | case2 remainingLen i result hpos hlong => rwa [prohibitLoop, if_pos hpos, if_neg hlong]
  | case3 remainingLen i result hend => rwa [prohibitLoop, if_neg hend]

theorem RandomString.alphanum {length : ℕ} (draw : RandomString length) :
    ∀ c ∈ draw.text, c.isAlphanum :=
  fun c hc => isAlphanum_of_mem_letters (draw.text_mem c hc)

theorem randomProhibitString_alphanum (draw : ProhibitDraw) (length : ℕ) :
    ∀ c ∈ randomProhibitString draw length, c.isAlphanum := by
  have hshuffle : ∀ {l : List (List Char)}, (∀ s ∈ l, ∀ c ∈ s, c.isAlphanum) →
      ∀ c ∈ (draw.shuffle l).flatten, c.isAlphanum := by
    intro l hl c hc
    obtain ⟨s, hs, hc⟩ := List.mem_flatten.mp hc
    exact hl s ((draw.shuffle_perm l).mem_iff.mp hs) c hc
  have hloop := prohibitLoop_alphanum draw length 0
    (List.forall_mem_nil fun s : List Char => ∀ c ∈ s, c.isAlphanum)
  rw [randomProhibitString]
  split
  case h_1 result remainingLen heq =>
    rw [heq] at hloop
    refine hshuffle ?_
    split
    · refine List.forall_mem_append.mpr ⟨hloop, List.forall_mem_singleton.mpr ?_⟩
      exact (draw.filler remainingLen).alphanum
    · exact hloop

/-- The texts are letters and digits, a domain also has a dot, and the numbers are in
the ranges they were drawn from. -/
structure Legible (files : Files) : Prop where
  names : ∀ row ∈ files.advertisers,
    row.advertiserName.length = 16 ∧ ∀ c ∈ row.advertiserName, c.isAlphanum
  domains : ∀ row ∈ files.advertisers, ∀ c ∈ row.domain, c.isAlphanum ∨ c = '.'
  texts : ∀ ads ∈ files.adses, ads.adsTxt.length = 64 ∧ ∀ c ∈ ads.adsTxt, c.isAlphanum
  prices : ∀ ads ∈ files.adses, 100 ≤ ads.price ∧ ads.price ≤ 1000000
  categories : ∀ row ∈ files.categoryBlockings, 1 ≤ row.categoryId ∧ row.categoryId < 21

theorem legible_nil : Legible ⟨[], [], [], []⟩ := by
  refine ⟨?_, ?_, ?_, ?_, ?_⟩ <;> exact fun _ h => absurd h List.not_mem_nil

theorem legible_advertiserStep {state : Files × ℕ} (h : Legible state.1)
    (draw : AdvertiserDraw × ℕ) : Legible (advertiserStep state draw).1 := by
  simp only [advertiserStep, categoryLoop_eq, adsLoop_eq]
  refine ⟨?_, ?_, ?_, ?_, ?_⟩
  · refine List.forall_mem_append.mpr ⟨h.names, List.forall_mem_singleton.mpr ?_⟩
    exact ⟨draw.1.advertiserName.text_length, draw.1.advertiserName.alphanum⟩
  · refine List.forall_mem_append.mpr ⟨h.domains, List.forall_mem_singleton.mpr fun c hc => ?_⟩
    rcases List.mem_append.mp hc with hc | hc
    · exact .inl (randomProhibitString_alphanum _ 32 c hc)
    · have hcom : (".com".toList.all fun c => c.isAlphanum || c == '.') = true := rfl
      simpa using List.all_eq_true.mp hcom c hc
  · refine List.forall_mem_append.mpr ⟨h.texts, List.forall_mem_map.mpr fun ads _ => ?_⟩
    exact ⟨ads.1.adsTxt.text_length, ads.1.adsTxt.alphanum⟩
  · refine List.forall_mem_append.mpr ⟨h.prices, List.forall_mem_map.mpr fun ads _ => ?_⟩
    exact ads.1.price_range
  · exact List.forall_mem_append.mpr
      ⟨h.categories, List.forall_mem_map.mpr draw.1.categoryIds_range⟩

theorem legible_createData (draws : List AdvertiserDraw) :
    Legible ((draws.zipIdx 1).foldl advertiserStep (⟨[], [], [], []⟩, 0)).1 :=
  List.foldlRecOn (motive := fun state : Files × ℕ => Legible state.1) (draws.zipIdx 1)
    advertiserStep legible_nil fun _ h draw _ => legible_advertiserStep h draw

/-! ## One advertiser -/

/-- The letter `a` drawn again and again. -/
def repeatedLetter (length : ℕ) : RandomString length where
  text := List.replicate length 'a'
  text_length := List.length_replicate
  text_mem c hc := by
    rw [List.eq_of_mem_replicate hc]
    decide

theorem denyType_drawn : denyType = 0 ∨ denyType = 1 :=
  .inr rfl

/-- One advertiser that denies the category 7, with one ad at the price 5.0000. -/
def oneAdvertiser : AdvertiserDraw where
  advertiserName := repeatedLetter 16
  categoryBlockingType := denyType
  categoryBlockingType_range := denyType_drawn
  advertiserDomain :=
    ⟨fun _ => "Web".toList, fun _ => by decide, repeatedLetter, id, List.Perm.refl⟩
  categoryIds := [7]
  categoryIds_nodup := by decide
  categoryIds_range := by decide
  categoryIds_length := by decide
  adses := [⟨50000, by decide, repeatedLetter 64, 1, by decide, 12, by decide⟩]

end CreateData

end AuctionWorker
