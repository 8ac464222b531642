import AuctionWorker.Documented
import AuctionWorker.GoConnector

/-!
# What the Go fetchers report

The comments of the connector promise an error whenever it cannot connect or has
no data, and its callers treat a nil error as real data. `Reports` states this
promise of a fetch: its error is nil exactly if the access to the database
delivered a row, and then the model is the stored one.

An `Access` lists what `sqlx.Open`, `Ping` and the query do, or would do if they
were reached. All five fetchers keep the promise in every access but those in
which `Open` succeeds and `Ping` fails (`fetchers_report_iff`): there both
connector functions return nil.
-/

namespace AuctionWorker

namespace Go

open Documented

variable {χ ρ α β : Type}

/-! ## Accesses -/

/-- How the query of an access goes. -/
inductive Query where
  | success
  | noRow
  /-- The error comes after some rows were scanned. -/
  | error (scanned : ℕ)
deriving Repr, DecidableEq

def Query.outcome : Query → Outcome
  | .success => .success
  | .noRow => .noRow
  | .error scanned => .queryError scanned

/-- What the query returns if these rows match it, and nothing if it fails. A row
that does not convert to its Go type makes it fail. -/
def Query.models (scan : ρ → Option α) (rows : List ρ) : Query → Option (List α)
  | .success => rows.mapM scan
  | .noRow => some []
  | .error _ => none

structure Access where
  openFails : Bool
  pingFails : Bool
  query : Query
deriving Repr, DecidableEq

/-- The first failure ends the access. -/
def Access.outcome (access : Access) : Outcome :=
  if access.openFails then .openError
  else if access.pingFails then .pingError
  else access.query.outcome

/-- The connection was made, the query succeeded and it returned a row. -/
structure Access.Delivers (access : Access) (scan : ρ → Option α) (rows : List ρ) : Prop where
  opens : access.openFails = false
  pings : access.pingFails = false
  returns : ∃ models, access.query.models scan rows = some models ∧ models ≠ []

/-- A fetch reports every failure and returns only stored data. -/
structure Reports (access : Access) (scan : ρ → Option α) (rows : List ρ)
    (Stored : β → Prop) (fetched : β × Option GoError) : Prop where
  nil_iff : fetched.2 = none ↔ access.Delivers scan rows
  stored : fetched.2 = none → Stored fetched.1

/-- A fetch that returns an error when `Open` fails and nil when `Ping` fails, and
is right about its query, reports in all accesses but those whose `Ping` fails. -/
theorem reports_iff {access : Access} {scan : ρ → Option α} {rows : List ρ} {Stored : β → Prop}
    (fetch : Outcome → β × Option GoError)
    (hopen : (fetch .openError).2 ≠ none) (hping : (fetch .pingError).2 = none)
    (hquery : ∀ query : Query, (fetch query.outcome).2 = none
      ↔ ∃ models, query.models scan rows = some models ∧ models ≠ [])
    (hstored : ∀ query : Query, (fetch query.outcome).2 = none → Stored (fetch query.outcome).1) :
    Reports access scan rows Stored (fetch access.outcome)
      ↔ access.openFails = true ∨ access.pingFails = false := by
  obtain ⟨openFails, pingFails, query⟩ := access
  cases openFails with
  | true =>
      have hout : Access.outcome ⟨true, pingFails, query⟩ = .openError := rfl
      rw [hout]
      have hnone : ¬Access.Delivers ⟨true, pingFails, query⟩ scan rows := fun h => nomatch h.opens
      exact iff_of_true ⟨iff_of_false hopen hnone, fun h => absurd h hopen⟩ (Or.inl rfl)
  | false =>
      cases pingFails with
      | true =>
          have hout : Access.outcome ⟨false, true, query⟩ = .pingError := rfl
          rw [hout]
          refine iff_of_false (fun h => ?_) (by simp)
          have hdelivers := h.nil_iff.mp hping
          cases hdelivers.pings
      | false =>
          have hout : Access.outcome ⟨false, false, query⟩ = query.outcome := rfl
          rw [hout]
          refine iff_of_true ⟨(hquery query).trans ?_, hstored query⟩ (Or.inr rfl)
          exact ⟨fun h => ⟨rfl, rfl, h⟩, fun h => h.returns⟩

/-! ## The connector -/

/-- A query for a slice. -/
theorem Query.models_some (query : Query) (rows : List ρ) :
    (∃ models, query.models some rows = some models ∧ models ≠ [])
      ↔ query = .success ∧ rows ≠ [] := by
  have hall : rows.mapM some = some rows := by
    simpa using List.mapM_pure (m := Option) (l := rows) (f := id)
  cases query with
  | success => simp [Query.models, hall]
  | noRow => simp [Query.models]
  | error scanned => simp [Query.models]

theorem fetchModels_nil_iff (query : Query) (rows : List ρ) :
    (fetchModels query.outcome rows).2 = none ↔ query = .success ∧ rows ≠ [] := by
  cases query with
  | success => simp [fetchModels, dbSelect, Query.outcome, List.isEmpty_iff]
  | noRow => simp [fetchModels, dbSelect, Query.outcome]
  | error scanned => simp [fetchModels, dbSelect, Query.outcome]

/-- An error after some rows is not hidden by the check for an empty slice. -/
theorem fetchSliceByID_nil_iff (query : Query) (rows : List ρ) :
    (fetchSliceByID query.outcome rows).2 = none ↔ query = .success ∧ rows ≠ [] := by
  cases query with
  | success => simp [fetchSliceByID, dbSelect, Query.outcome, List.isEmpty_iff]
  | noRow => simp [fetchSliceByID, dbSelect, Query.outcome]
  | error scanned =>
      by_cases hempty : (rows.take scanned).isEmpty
      · simp [fetchSliceByID, dbSelect, Query.outcome, hempty]
      · simp [fetchSliceByID, dbSelect, Query.outcome, hempty]

/-- A query for one row, which has at most one row to return. -/
theorem fetchModelByID_nil_iff {scan : ρ → Option α} (zero : α) {rows : List ρ}
    (hrows : rows.length ≤ 1) (query : Query) :
    (fetchModelByID query.outcome scan zero rows).2 = none
      ↔ ∃ models, query.models scan rows = some models ∧ models ≠ [] := by
  cases query with
  | success =>
      match rows, hrows with
      | [], _ => simp [fetchModelByID, dbGet, Query.outcome, Query.models]
      | [row], _ =>
          cases hscan : scan row with
          | none => simp [fetchModelByID, dbGet, Query.outcome, Query.models, hscan]
          | some model => simp [fetchModelByID, dbGet, Query.outcome, Query.models, hscan]
  | noRow => simp [fetchModelByID, dbGet, Query.outcome, Query.models]
  | error scanned => simp [fetchModelByID, dbGet, Query.outcome, Query.models]

theorem fetchModelByID_scans {scan : ρ → Option α} {zero model : α} {rows : List ρ} {query : Query}
    (h : fetchModelByID query.outcome scan zero rows = (model, none)) :
    ∃ row ∈ rows, scan row = some model := by
  cases query with
  | success =>
      cases rows with
      | nil => cases h
      | cons row rest =>
          cases hscan : scan row with
          | none => simp [fetchModelByID, dbGet, Query.outcome, hscan] at h
          | some found =>
              have hmodel : found = model := by
                simpa [fetchModelByID, dbGet, Query.outcome, hscan] using h
              exact ⟨row, List.mem_cons_self .., hmodel ▸ hscan⟩
  | noRow => cases h
  | error scanned => cases h

/-! ## The fetchers -/

/-- The rows of `adses`, all of them and in order. -/
structure StoredAdses (db : Database χ) (adses : List (Ads χ)) : Prop where
  nonempty : adses ≠ []
  stored : ∀ ads, ads ∈ adses ↔ ads ∈ db.adses
  sorted : adses.Pairwise fun a b => a.adsId < b.adsId

def StoredAdSize (db : Database χ) (sizeId : ℕ) (size : AdSize) : Prop :=
  size ∈ db.adsSizes ∧ size.sizeId = sizeId

/-- The category ids of an advertiser, each of them once. -/
structure StoredCategoryBlocking (db : Database χ) (advertiserId : ℕ)
    (blocking : CategoryBlocking) : Prop where
  nonempty : blocking.categoryIds ≠ []
  nodup : blocking.categoryIds.Nodup
  advertiser : blocking.advertiserId = advertiserId
  stored : ∀ categoryId, categoryId ∈ blocking.categoryIds
    ↔ (⟨advertiserId, categoryId⟩ : CategoryBlockingRow) ∈ db.categoryBlockings

def StoredAdvertiser (db : Database χ) (advertiserId : ℕ) (advertiser : Advertiser χ ℤ) : Prop :=
  ∃ row ∈ db.advertisers, ∃ type, row.advertiserId = advertiserId
    ∧ row.categoryBlockingType = some type
    ∧ advertiser = ⟨advertiserId, row.advertiserName, (type.val : ℤ), row.domain⟩

def StoredAdsFeature (db : Database χ) (adsId : ℕ) (feature : AdsFeature) : Prop :=
  feature ∈ db.adsFeatures ∧ feature.adsId = adsId

section SelectOne

variable {key : ρ → ℕ} {rows : List ρ} {k : ℕ}

theorem length_selectOne_le : (selectOne key rows k).length ≤ 1 := by
  rw [selectOne, List.length_take]
  exact Nat.min_le_left ..

theorem of_mem_selectOne {row : ρ} (h : row ∈ selectOne key rows k) : row ∈ rows ∧ key row = k := by
  have hrow := List.mem_filter.mp (List.mem_of_mem_take h)
  exact ⟨hrow.1, of_decide_eq_true hrow.2⟩

end SelectOne

theorem selectCategoryIds_nodup (db : Database χ) (advertiserId : ℕ) :
    (db.selectCategoryIds advertiserId).Nodup := by
  refine (db.categoryBlockings_pk.filter _).map_on fun a ha b hb hcategory => ?_
  have hida := of_decide_eq_true (List.mem_filter.mp ha).2
  have hidb := of_decide_eq_true (List.mem_filter.mp hb).2
  cases a
  cases b
  simp_all

/-- A fetcher passes an error of the connector on, and wraps what it reads otherwise. -/
structure Wraps (fetch : Outcome → β × Option GoError) (read : Outcome → α × Option GoError)
    (wrap : α → β) : Prop where
  error : ∀ outcome models err, read outcome = (models, some err) → (fetch outcome).2 = some err
  model : ∀ outcome models, read outcome = (models, none) → fetch outcome = (wrap models, none)

theorem Wraps.error_eq {fetch : Outcome → β × Option GoError} {read : Outcome → α × Option GoError}
    {wrap : α → β} (h : Wraps fetch read wrap) (outcome : Outcome) :
    (fetch outcome).2 = (read outcome).2 := by
  cases hread : read outcome with
  | mk models err =>
      cases err with
      | some err => exact h.error outcome models err hread
      | none => rw [h.model outcome models hread]

/-- A fetcher that puts the columns of one row into its model. -/
theorem fetchModelByID_reports_iff {scan : ρ → Option α} {rows : List ρ} {Stored : β → Prop}
    (access : Access) (fetch : Outcome → β × Option GoError) (zero : α) (wrap : α → β)
    (hrows : rows.length ≤ 1)
    (hwraps : Wraps fetch (fun outcome => fetchModelByID outcome scan zero rows) wrap)
    (hstored : ∀ row ∈ rows, ∀ model, scan row = some model → Stored (wrap model)) :
    Reports access scan rows Stored (fetch access.outcome)
      ↔ access.openFails = true ∨ access.pingFails = false := by
  refine reports_iff fetch ?_ (hwraps.error_eq .pingError) ?_ ?_
  · rw [hwraps.error_eq]
    exact Option.some_ne_none _
  · intro query
    rw [hwraps.error_eq]
    exact fetchModelByID_nil_iff zero hrows query
  · intro query h
    rw [hwraps.error_eq] at h
    have hfetched : fetchModelByID query.outcome scan zero rows
        = ((fetchModelByID query.outcome scan zero rows).1, none) := Prod.ext rfl h
    obtain ⟨row, hrow, hscan⟩ := fetchModelByID_scans hfetched
    rw [hwraps.model _ _ hfetched]
    exact hstored row hrow _ hscan

section Fetchers

variable (access : Access) (db : Database χ)

theorem fetchAdses_reports_iff :
    Reports access some db.selectAdses (StoredAdses db) (fetchAdses access.outcome db)
      ↔ access.openFails = true ∨ access.pingFails = false := by
  refine reports_iff (fun outcome => fetchAdses outcome db) (Option.some_ne_none _) rfl ?_ ?_
  · intro query
    rw [Query.models_some]
    exact fetchModels_nil_iff query db.selectAdses
  · intro query h
    obtain ⟨rfl, hne⟩ := (fetchModels_nil_iff query db.selectAdses).mp h
    exact ⟨hne, fun ads => db.mem_selectAdses, db.selectAdses_sorted⟩

theorem fetchAdSize_reports_iff (sizeId : ℕ) :
    Reports access (fun row : AdSize => some (row.adsWidth, row.adsHeight))
        (db.selectAdSize sizeId) (StoredAdSize db sizeId) (fetchAdSize access.outcome db sizeId)
      ↔ access.openFails = true ∨ access.pingFails = false := by
  refine fetchModelByID_reports_iff access (fun outcome => fetchAdSize outcome db sizeId)
    (0, 0) (fun model => ⟨sizeId, model.1, model.2⟩) length_selectOne_le ?_ ?_
  · refine ⟨?_, ?_⟩
    · intro outcome model err h
      rw [fetchAdSize, h]
    · intro outcome model h
      rw [fetchAdSize, h]
  · rintro row hrow model ⟨⟩
    obtain ⟨hstored, rfl⟩ := of_mem_selectOne hrow
    exact ⟨hstored, rfl⟩

theorem fetchCategoryBlocking_reports_iff (advertiserId : ℕ) :
    Reports access some (db.selectCategoryIds advertiserId)
        (StoredCategoryBlocking db advertiserId)
        (fetchCategoryBlocking access.outcome db advertiserId)
      ↔ access.openFails = true ∨ access.pingFails = false := by
  have hwraps : Wraps (fun outcome => fetchCategoryBlocking outcome db advertiserId)
      (fun outcome => fetchSliceByID outcome (db.selectCategoryIds advertiserId))
      (fun categoryIds => ⟨advertiserId, categoryIds⟩) := by
    refine ⟨?_, ?_⟩
    · intro outcome categoryIds err h
      rw [fetchCategoryBlocking, h]
    · intro outcome categoryIds h
      rw [fetchCategoryBlocking, h]
  refine reports_iff (fun outcome => fetchCategoryBlocking outcome db advertiserId)
    (Option.some_ne_none _) rfl ?_ ?_
  · intro query
    rw [Query.models_some, hwraps.error_eq]
    exact fetchSliceByID_nil_iff query _
  · intro query h
    rw [hwraps.error_eq] at h
    obtain ⟨rfl, hne⟩ := (fetchSliceByID_nil_iff query _).mp h
    have hread : fetchSliceByID Query.success.outcome (db.selectCategoryIds advertiserId)
        = (db.selectCategoryIds advertiserId, none) := Prod.ext rfl h
    rw [hwraps.model _ _ hread]
    exact ⟨hne, selectCategoryIds_nodup db advertiserId, rfl, fun _ => db.mem_selectCategoryIds⟩

theorem fetchAdvertiser_reports_iff (advertiserId : ℕ) :
    Reports access scanAdvertiser (db.selectAdvertiser advertiserId)
        (StoredAdvertiser db advertiserId) (fetchAdvertiser access.outcome db advertiserId)
      ↔ access.openFails = true ∨ access.pingFails = false := by
  refine fetchModelByID_reports_iff access (fun outcome => fetchAdvertiser outcome db advertiserId)
    ([], 0, []) (fun model => ⟨advertiserId, model.1, model.2.1, model.2.2⟩)
    length_selectOne_le ?_ ?_
  · refine ⟨?_, ?_⟩
    · intro outcome model err h
      rw [fetchAdvertiser, h]
    · intro outcome model h
      rw [fetchAdvertiser, h]
  · intro row hrow model hscan
    obtain ⟨hrow, hid⟩ := of_mem_selectOne hrow
    obtain ⟨type, htype, rfl⟩ := Option.map_eq_some_iff.mp hscan
    exact ⟨row, hrow, type, hid, htype, rfl⟩

theorem fetchAdsFeature_reports_iff (adsId : ℕ) :
    Reports access (fun row : AdsFeature => some row.feature) (db.selectAdsFeature adsId)
        (StoredAdsFeature db adsId) (fetchAdsFeature access.outcome db adsId)
      ↔ access.openFails = true ∨ access.pingFails = false := by
  refine fetchModelByID_reports_iff access (fun outcome => fetchAdsFeature outcome db adsId)
    0 (fun feature => ⟨adsId, feature⟩) length_selectOne_le ?_ ?_
  · refine ⟨?_, ?_⟩
    · intro outcome model err h
      rw [fetchAdsFeature, h]
    · intro outcome model h
      rw [fetchAdsFeature, h]
  · rintro row hrow model ⟨⟩
    obtain ⟨hstored, rfl⟩ := of_mem_selectOne hrow
    exact ⟨hstored, rfl⟩

end Fetchers

/-- **Reported failures.** Each of the five fetchers reports every failure and
returns only stored data, exactly if no failing `Ping` ends the access. -/
theorem fetchers_report_iff (access : Access) (db : Database χ) (sizeId advertiserId adsId : ℕ) :
    (Reports access some db.selectAdses (StoredAdses db) (fetchAdses access.outcome db)
        ↔ access.openFails = true ∨ access.pingFails = false)
      ∧ (Reports access (fun row : AdSize => some (row.adsWidth, row.adsHeight))
          (db.selectAdSize sizeId) (StoredAdSize db sizeId) (fetchAdSize access.outcome db sizeId)
        ↔ access.openFails = true ∨ access.pingFails = false)
      ∧ (Reports access scanAdvertiser (db.selectAdvertiser advertiserId)
          (StoredAdvertiser db advertiserId) (fetchAdvertiser access.outcome db advertiserId)
        ↔ access.openFails = true ∨ access.pingFails = false)
      ∧ (Reports access some (db.selectCategoryIds advertiserId)
          (StoredCategoryBlocking db advertiserId)
          (fetchCategoryBlocking access.outcome db advertiserId)
        ↔ access.openFails = true ∨ access.pingFails = false)
      ∧ (Reports access (fun row : AdsFeature => some row.feature) (db.selectAdsFeature adsId)
          (StoredAdsFeature db adsId) (fetchAdsFeature access.outcome db adsId)
        ↔ access.openFails = true ∨ access.pingFails = false) :=
  ⟨fetchAdses_reports_iff access db, fetchAdSize_reports_iff access db sizeId,
    fetchAdvertiser_reports_iff access db advertiserId,
    fetchCategoryBlocking_reports_iff access db advertiserId,
    fetchAdsFeature_reports_iff access db adsId⟩

/-! ## A size that nobody stored -/

/-- `Open` succeeds and `Ping` fails. -/
def unreachable : Access :=
  ⟨false, true, .success⟩

theorem fetchAdSize_unreachable :
    fetchAdSize unreachable.outcome tieDatabase 1 = (⟨1, 0, 0⟩, none)
      ∧ (⟨1, 0, 0⟩ : AdSize) ∉ tieDatabase.adsSizes
      ∧ ¬Reports unreachable (fun row : AdSize => some (row.adsWidth, row.adsHeight))
        (tieDatabase.selectAdSize 1) (StoredAdSize tieDatabase 1)
        (fetchAdSize unreachable.outcome tieDatabase 1) := by
  have hfetched : fetchAdSize unreachable.outcome tieDatabase 1 = (⟨1, 0, 0⟩, none) := rfl
  have hmissing : (⟨1, 0, 0⟩ : AdSize) ∉ tieDatabase.adsSizes := by decide
  refine ⟨hfetched, hmissing, fun h => ?_⟩
  have hstored : StoredAdSize tieDatabase 1 (fetchAdSize unreachable.outcome tieDatabase 1).1 :=
    h.stored (by rw [hfetched])
  rw [hfetched] at hstored
  exact hmissing hstored.1

end Go

end AuctionWorker
