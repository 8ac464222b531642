import AuctionWorker.Model

/-!
# The database

The five tables of `sql/schema.sql`. `Tables` holds the rows, `Database` adds
what the schema promises about them: primary keys, foreign keys and the range of
the signed column. The rows of `adses`, `ads_sizes` and `ads_features` have
exactly the fields of their model classes, so these serve as row types.

The queries are those of `fetch_model_from_db`: all ads ordered by `ads_id`, one
row by its key (`selectOne`), and the category ids of an advertiser. A table
keeps its rows in any order, and a query without `ORDER BY` returns them in that
order.

`deleteAdses` removes ads together with their features, as the foreign key of
`ads_features` demands.
-/

namespace AuctionWorker

variable {χ : Type}

/-! ## Tables -/

/-- A row of `advertisers`; `category_blocking_type` is `tinyint unsigned NULL`. -/
structure AdvertiserRow (χ : Type) where
  advertiserId : ℕ
  advertiserName : List χ
  categoryBlockingType : Option (Fin 256)
  domain : List χ
deriving Repr, DecidableEq

/-- The `category_blocking_type` of an advertiser that allows its categories. -/
abbrev allowType : Fin 256 :=
  0

/-- The `category_blocking_type` of an advertiser that denies its categories. -/
abbrev denyType : Fin 256 :=
  1

/-- A row of `category_blockings`. -/
structure CategoryBlockingRow where
  advertiserId : ℕ
  categoryId : ℕ
deriving Repr, DecidableEq

structure Tables (χ : Type) where
  advertisers : List (AdvertiserRow χ)
  adsSizes : List AdSize
  adses : List (Ads χ)
  categoryBlockings : List CategoryBlockingRow
  adsFeatures : List AdsFeature

/-- Tables that satisfy the constraints of the schema. -/
structure Database (χ : Type) extends Tables χ where
  advertisers_pk : (advertisers.map AdvertiserRow.advertiserId).Nodup
  adsSizes_pk : (adsSizes.map AdSize.sizeId).Nodup
  adses_pk : (adses.map Ads.adsId).Nodup
  categoryBlockings_pk : categoryBlockings.Nodup
  adsFeatures_pk : (adsFeatures.map AdsFeature.adsId).Nodup
  adses_advertiser_fk : ∀ ads ∈ adses, ∃ row ∈ advertisers, row.advertiserId = ads.advertiserId
  adses_size_fk : ∀ ads ∈ adses, ∃ row ∈ adsSizes, row.sizeId = ads.sizeId
  categoryBlockings_fk : ∀ category ∈ categoryBlockings,
    ∃ row ∈ advertisers, row.advertiserId = category.advertiserId
  adsFeatures_fk : ∀ feature ∈ adsFeatures, ∃ row ∈ adses, row.adsId = feature.adsId
  adsFeatures_int : ∀ row ∈ adsFeatures, -2 ^ 31 ≤ row.feature ∧ row.feature < 2 ^ 31

/-! ## Queries -/

/-- `SELECT … FROM rows WHERE key = k LIMIT 1`. -/
def selectOne {ρ : Type} (key : ρ → ℕ) (rows : List ρ) (k : ℕ) : List ρ :=
  (rows.filter fun row => key row = k).take 1

/-- `SELECT … FROM adses ORDER BY ads_id`. -/
def Tables.selectAdses (db : Tables χ) : List (Ads χ) :=
  db.adses.insertionSort fun a b => a.adsId ≤ b.adsId

def Tables.selectAdSize (db : Tables χ) (sizeId : ℕ) : List AdSize :=
  selectOne AdSize.sizeId db.adsSizes sizeId

def Tables.selectAdvertiser (db : Tables χ) (advertiserId : ℕ) : List (AdvertiserRow χ) :=
  selectOne AdvertiserRow.advertiserId db.advertisers advertiserId

def Tables.selectAdsFeature (db : Tables χ) (adsId : ℕ) : List AdsFeature :=
  selectOne AdsFeature.adsId db.adsFeatures adsId

/-- `SELECT category_id FROM category_blockings WHERE advertiser_id = ?`. -/
def Tables.selectCategoryIds (db : Tables χ) (advertiserId : ℕ) : List ℕ :=
  (db.categoryBlockings.filter fun row => row.advertiserId = advertiserId).map
    CategoryBlockingRow.categoryId

/-! ## What the queries return -/

section SelectOne

variable {ρ : Type} {key : ρ → ℕ} {rows : List ρ} {k : ℕ}

theorem selectOne_eq_singleton (hpk : (rows.map key).Nodup) {row : ρ} (hrow : row ∈ rows)
    (hk : key row = k) : selectOne key rows k = [row] := by
  have hnd : (rows.filter fun r => key r = k).Nodup := hpk.of_map.filter _
  have hall : ∀ r ∈ rows.filter (fun r => key r = k), r = row := by
    intro r hr
    obtain ⟨hr, hrk⟩ := List.mem_filter.mp hr
    exact List.inj_on_of_nodup_map hpk hr hrow ((of_decide_eq_true hrk).trans hk.symm)
  have hmem : row ∈ rows.filter fun r => key r = k :=
    List.mem_filter.mpr ⟨hrow, decide_eq_true hk⟩
  unfold selectOne
  cases hf : rows.filter fun r => key r = k with
  | nil => rw [hf] at hmem; cases hmem
  | cons r rest =>
      rw [hf] at hall
      rw [hall r (List.mem_cons_self ..)]
      rfl

theorem selectOne_eq_nil (h : ∀ row ∈ rows, key row ≠ k) : selectOne key rows k = [] := by
  have hf : (rows.filter fun r => key r = k) = [] :=
    List.filter_eq_nil_iff.mpr fun r hr => by simpa using h r hr
  rw [selectOne, hf]
  rfl

/-- A query by primary key returns the row with that key, or no row. -/
theorem selectOne_cases (hpk : (rows.map key).Nodup) (k : ℕ) :
    (∃ row ∈ rows, key row = k ∧ selectOne key rows k = [row])
      ∨ ((∀ row ∈ rows, key row ≠ k) ∧ selectOne key rows k = []) := by
  by_cases h : ∃ row ∈ rows, key row = k
  · obtain ⟨row, hrow, hk⟩ := h
    exact Or.inl ⟨row, hrow, hk, selectOne_eq_singleton hpk hrow hk⟩
  · have hno : ∀ row ∈ rows, key row ≠ k := fun row hrow hk => h ⟨row, hrow, hk⟩
    exact Or.inr ⟨hno, selectOne_eq_nil hno⟩

end SelectOne

namespace Database

variable (db : Database χ)

@[simp] theorem mem_selectAdses {ads : Ads χ} : ads ∈ db.selectAdses ↔ ads ∈ db.adses :=
  List.mem_insertionSort _

/-- The ads come in strictly increasing order of their ids. -/
theorem selectAdses_sorted : db.selectAdses.Pairwise fun a b => a.adsId < b.adsId := by
  have hle : db.selectAdses.Pairwise fun a b => a.adsId ≤ b.adsId := by
    have : Std.Total fun a b : Ads χ => a.adsId ≤ b.adsId := ⟨fun a b => Nat.le_total _ _⟩
    have : IsTrans (Ads χ) fun a b => a.adsId ≤ b.adsId := ⟨fun _ _ _ => Nat.le_trans⟩
    exact List.pairwise_insertionSort _ _
  have hnd : (db.selectAdses.map Ads.adsId).Nodup :=
    ((List.perm_insertionSort _ _).map _).nodup_iff.mpr db.adses_pk
  have hne : db.selectAdses.Pairwise fun a b => a.adsId ≠ b.adsId :=
    List.pairwise_map.mp hnd
  exact hle.imp₂ (fun _ _ h h' => lt_of_le_of_ne h h') hne

@[simp] theorem mem_selectCategoryIds {advertiserId categoryId : ℕ} :
    categoryId ∈ db.selectCategoryIds advertiserId
      ↔ (⟨advertiserId, categoryId⟩ : CategoryBlockingRow) ∈ db.categoryBlockings := by
  simp only [Tables.selectCategoryIds, List.mem_map, List.mem_filter, decide_eq_true_eq]
  constructor
  · rintro ⟨row, ⟨hrow, rfl⟩, rfl⟩
    exact hrow
  · exact fun h => ⟨_, ⟨h, rfl⟩, rfl⟩

/-- Two ads with one id are the same ad. -/
theorem adses_inj {a b : Ads χ} (ha : a ∈ db.adses) (hb : b ∈ db.adses)
    (h : a.adsId = b.adsId) : a = b :=
  List.inj_on_of_nodup_map db.adses_pk ha hb h

theorem advertisers_inj {a b : AdvertiserRow χ} (ha : a ∈ db.advertisers)
    (hb : b ∈ db.advertisers) (h : a.advertiserId = b.advertiserId) : a = b :=
  List.inj_on_of_nodup_map db.advertisers_pk ha hb h

/-! ## Deleting ads -/

/-- Delete the ads whose ids are in `doomed`, and their features. -/
def deleteAdses (doomed : ℕ → Bool) : Database χ where
  advertisers := db.advertisers
  adsSizes := db.adsSizes
  adses := db.adses.filter fun ads => !doomed ads.adsId
  categoryBlockings := db.categoryBlockings
  adsFeatures := db.adsFeatures.filter fun row => !doomed row.adsId
  advertisers_pk := db.advertisers_pk
  adsSizes_pk := db.adsSizes_pk
  adses_pk := db.adses_pk.sublist (List.filter_sublist.map _)
  categoryBlockings_pk := db.categoryBlockings_pk
  adsFeatures_pk := db.adsFeatures_pk.sublist (List.filter_sublist.map _)
  adses_advertiser_fk ads h := db.adses_advertiser_fk ads (List.mem_of_mem_filter h)
  adses_size_fk ads h := db.adses_size_fk ads (List.mem_of_mem_filter h)
  categoryBlockings_fk := db.categoryBlockings_fk
  adsFeatures_fk row h := by
    obtain ⟨hrow, hkeep⟩ := List.mem_filter.mp h
    obtain ⟨ads, hads, hid⟩ := db.adsFeatures_fk row hrow
    exact ⟨ads, List.mem_filter.mpr ⟨hads, by rwa [hid]⟩, hid⟩
  adsFeatures_int row h := db.adsFeatures_int row (List.mem_of_mem_filter h)

@[simp] theorem mem_deleteAdses {doomed : ℕ → Bool} {ads : Ads χ} :
    ads ∈ (db.deleteAdses doomed).adses ↔ ads ∈ db.adses ∧ doomed ads.adsId = false := by
  simp [deleteAdses, List.mem_filter]

@[simp] theorem mem_deleteAdses_adsFeatures {doomed : ℕ → Bool} {row : AdsFeature} :
    row ∈ (db.deleteAdses doomed).adsFeatures
      ↔ row ∈ db.adsFeatures ∧ doomed row.adsId = false := by
  simp [deleteAdses, List.mem_filter]

/-- The ads that stay come in the same order. -/
theorem selectAdses_deleteAdses (doomed : ℕ → Bool) :
    (db.deleteAdses doomed).selectAdses = db.selectAdses.filter fun ads => !doomed ads.adsId := by
  refine List.Perm.eq_of_pairwise (fun a b _ _ hab hba => absurd hab (Nat.lt_asymm hba))
    (db.deleteAdses doomed).selectAdses_sorted (db.selectAdses_sorted.filter _) ?_
  exact (List.perm_insertionSort _ _).trans ((List.perm_insertionSort _ _).symm.filter _)

/-- An ad that stays keeps its feature row. -/
theorem selectAdsFeature_deleteAdses {doomed : ℕ → Bool} {adsId : ℕ} (h : doomed adsId = false) :
    (db.deleteAdses doomed).selectAdsFeature adsId = db.selectAdsFeature adsId := by
  unfold Tables.selectAdsFeature selectOne deleteAdses
  rw [List.filter_filter]
  refine congrArg (List.take 1) (List.filter_congr fun row _ => ?_)
  by_cases hid : row.adsId = adsId
  · simp [hid, h]
  · simp [hid]

/-- Deleting no ad changes nothing. -/
theorem deleteAdses_eq_self {doomed : ℕ → Bool} (h : ∀ ads ∈ db.adses, doomed ads.adsId = false) :
    db.deleteAdses doomed = db := by
  have hadses : (db.adses.filter fun ads => !doomed ads.adsId) = db.adses :=
    List.filter_eq_self.mpr fun ads hads => by rw [h ads hads]; rfl
  have hfeatures : (db.adsFeatures.filter fun row => !doomed row.adsId) = db.adsFeatures := by
    refine List.filter_eq_self.mpr fun row hrow => ?_
    obtain ⟨ads, hads, hid⟩ := db.adsFeatures_fk row hrow
    rw [← hid, h ads hads]
    rfl
  cases db
  simp only [deleteAdses, hadses, hfeatures]

end Database

end AuctionWorker
