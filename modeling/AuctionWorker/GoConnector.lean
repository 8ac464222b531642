import AuctionWorker.Float64
import AuctionWorker.Loops
import AuctionWorker.Schema

/-!
# The Go connector, category blocking and feature targeting

`golang/connector`, `golang/blocking` and `golang/targeting`. A function that
returns `(T, error)` is a pair of the value and an optional error, as in the
source: the value is there even when the error is not nil.

Every fetch takes the `Outcome` of its database access, so that any pattern of
failures can be put under an auction. The connector returns nil when `Ping`
fails, and its caller goes on with the zero value of what it wanted to fetch.
-/

namespace AuctionWorker

namespace Go

variable {χ : Type}

/-- The errors a fetch or an auction can return. -/
inductive GoError where
  /-- `fmt.Errorf` with this text -/
  | errorf (text : String)
  /-- an error of `sqlx.Open`, or of the query itself -/
  | driver
  /-- `sql.ErrNoRows` -/
  | noRows
  /-- a column that does not convert to its Go type -/
  | scan
deriving Repr, DecidableEq

/-- How one database access goes. A query may fail after it has delivered some
rows. -/
inductive Outcome where
  | success
  | noRow
  | openError
  | pingError
  | queryError (scanned : ℕ)
deriving Repr, DecidableEq

/-! ## `connector/mysql_connector.go` -/

section MySQLConnector

variable {ρ α : Type} (outcome : Outcome)

/-- `db.Select`: append every row to the models. -/
def dbSelect (rows : List ρ) : List ρ × Option GoError :=
  match outcome with
  | .noRow => ([], none)
  | .queryError scanned => (rows.take scanned, some .driver)
  | _ => (rows, none)

/-- `db.Get`: scan the first row into the model, whose zero value is `zero`. -/
def dbGet (scan : ρ → Option α) (zero : α) (rows : List ρ) : α × Option GoError :=
  match outcome, rows with
  | .queryError _, _ => (zero, some .driver)
  | .noRow, _ => (zero, some .noRows)
  | _, [] => (zero, some .noRows)
  | _, row :: _ =>
      match scan row with
      | none => (zero, some .scan)
      | some model => (model, none)

def noData : GoError :=
  .errorf "no data found on mysql server"

def fetchModels (rows : List ρ) : List ρ × Option GoError :=
  match outcome with
  | .openError => ([], some .driver)
  | .pingError => ([], none)
  | _ =>
      match dbSelect outcome rows with
      | (models, some err) => (models, some err)
      | (models, none) => (models, if models.isEmpty then some noData else none)

/-- `fetchModelByID` for a model that is a slice. -/
def fetchSliceByID (rows : List ρ) : List ρ × Option GoError :=
  match outcome with
  | .openError => ([], some .driver)
  | .pingError => ([], none)
  | _ =>
      match dbSelect outcome rows with
      | (models, err) => (models, if models.isEmpty then some noData else err)

/-- `fetchModelByID` for any other model. -/
def fetchModelByID (scan : ρ → Option α) (zero : α) (rows : List ρ) : α × Option GoError :=
  match outcome with
  | .openError => (zero, some .driver)
  | .pingError => (zero, none)
  | _ => dbGet outcome scan zero rows

end MySQLConnector

/-! ## `connector/fetch_model_from_db.go` -/

section Fetch

variable (outcome : Outcome) (db : Database χ)

def fetchAdses : List (Ads χ) × Option GoError :=
  fetchModels outcome db.selectAdses

def fetchAdSize (sizeId : ℕ) : AdSize × Option GoError :=
  match fetchModelByID outcome (fun row : AdSize => some (row.adsWidth, row.adsHeight)) (0, 0)
      (db.selectAdSize sizeId) with
  | (_, some err) => (⟨0, 0, 0⟩, some err)
  | ((adsWidth, adsHeight), none) => (⟨sizeId, adsWidth, adsHeight⟩, none)

def fetchCategoryBlocking (advertiserId : ℕ) : CategoryBlocking × Option GoError :=
  match fetchSliceByID outcome (db.selectCategoryIds advertiserId) with
  | (_, some err) => (⟨0, []⟩, some err)
  | (categoryIds, none) => (⟨advertiserId, categoryIds⟩, none)

/-- A NULL type does not convert to a `CategoryBlockingType`. -/
def scanAdvertiser (row : AdvertiserRow χ) : Option (List χ × ℤ × List χ) :=
  row.categoryBlockingType.map fun type => (row.advertiserName, (type.val : ℤ), row.domain)

def fetchAdvertiser (advertiserId : ℕ) : Advertiser χ ℤ × Option GoError :=
  match fetchModelByID outcome scanAdvertiser ([], 0, []) (db.selectAdvertiser advertiserId) with
  | (_, some err) => (⟨0, [], 0, []⟩, some err)
  | ((advertiserName, categoryBlockingTypeId, advertiserDomain), none) =>
      (⟨advertiserId, advertiserName, categoryBlockingTypeId, advertiserDomain⟩, none)

def fetchAdsFeature (adsId : ℕ) : AdsFeature × Option GoError :=
  match fetchModelByID outcome (fun row : AdsFeature => some row.feature) 0
      (db.selectAdsFeature adsId) with
  | (_, some err) => (⟨0, 0⟩, some err)
  | (adsFeature, none) => (⟨adsId, adsFeature⟩, none)

end Fetch

/-! ## `blocking/category_blocking.go` -/

/-- `model.ALLOW` -/
def ALLOW : ℤ := 0

/-- `model.DENY` -/
def DENY : ℤ := 1

def categoryBlocking (advertiser : Advertiser χ ℤ) (blocking : CategoryBlocking)
    (requestCategory : List ℕ) : Bool :=
  let includeIds := blocking.categoryIds.foldl
    (fun includeIds categoryId => includeIds || requestCategory.contains categoryId) false
  if advertiser.categoryBlockingType = ALLOW then !includeIds
  else if advertiser.categoryBlockingType = DENY then includeIds
  else false

/-! ## `targeting/feature_targeting.go` -/

/-- The ways in which a handler panics. -/
inductive Panic where
  | indexOutOfRange
deriving Repr, DecidableEq

/-- `math.Abs(float64(feature - request_feature))`. -/
def distance (requestFeature feature : ℤ) : ℤ :=
  |Float64.ofInt (Float64.wrap (feature - requestFeature))|

def featureTargeting (adsFeatures : List AdsFeature) (requestFeature : ℤ) :
    Except Panic AdsFeature :=
  let nearest := Loops.sentinelScan (fun row : AdsFeature => distance requestFeature row.feature)
    Float64.maxValue adsFeatures
  match adsFeatures[nearest.2]? with
  | none => .error .indexOutOfRange
  | some adsFeature => .ok adsFeature

/-! ## Failing fetches -/

/-- The outcomes that end in an error, whatever is stored. -/
inductive Outcome.Failed : Outcome → Prop where
  | noRow : Outcome.Failed .noRow
  | openError : Outcome.Failed .openError
  | queryError (scanned : ℕ) : Outcome.Failed (.queryError scanned)

/-- A failing `Ping` is neither a success nor an error. -/
theorem Outcome.trichotomy (outcome : Outcome) :
    outcome = .success ∨ outcome = .pingError ∨ outcome.Failed := by
  cases outcome with
  | success => exact Or.inl rfl
  | pingError => exact Or.inr (Or.inl rfl)
  | noRow => exact Or.inr (Or.inr .noRow)
  | openError => exact Or.inr (Or.inr .openError)
  | queryError scanned => exact Or.inr (Or.inr (.queryError scanned))

section Failing

variable {outcome : Outcome} (h : outcome.Failed) (db : Database χ)

include h

theorem fetchAdses_failed : ∃ models err, fetchAdses outcome db = (models, some err) := by
  cases h with
  | noRow => exact ⟨_, _, rfl⟩
  | openError => exact ⟨_, _, rfl⟩
  | queryError scanned => exact ⟨_, _, rfl⟩

theorem fetchModelByID_failed {ρ α : Type} (scan : ρ → Option α) (zero : α) (rows : List ρ) :
    ∃ err, fetchModelByID outcome scan zero rows = (zero, some err) := by
  cases h with
  | noRow => exact ⟨_, rfl⟩
  | openError => exact ⟨_, rfl⟩
  | queryError scanned => exact ⟨_, rfl⟩

theorem fetchSliceByID_failed {ρ : Type} (rows : List ρ) :
    ∃ models err, fetchSliceByID outcome rows = (models, some err) := by
  cases h with
  | noRow => exact ⟨_, _, rfl⟩
  | openError => exact ⟨_, _, rfl⟩
  | queryError scanned =>
      unfold fetchSliceByID dbSelect
      dsimp only
      split
      · exact ⟨_, _, rfl⟩
      · exact ⟨_, _, rfl⟩

theorem fetchAdSize_failed (sizeId : ℕ) :
    ∃ err, fetchAdSize outcome db sizeId = (⟨0, 0, 0⟩, some err) := by
  obtain ⟨err, herr⟩ := fetchModelByID_failed h
    (fun row : AdSize => some (row.adsWidth, row.adsHeight)) (0, 0) (db.selectAdSize sizeId)
  exact ⟨err, by rw [fetchAdSize, herr]⟩

theorem fetchCategoryBlocking_failed (advertiserId : ℕ) :
    ∃ err, fetchCategoryBlocking outcome db advertiserId = (⟨0, []⟩, some err) := by
  obtain ⟨models, err, herr⟩ := fetchSliceByID_failed h (db.selectCategoryIds advertiserId)
  exact ⟨err, by rw [fetchCategoryBlocking, herr]⟩

theorem fetchAdvertiser_failed (advertiserId : ℕ) :
    ∃ err, fetchAdvertiser outcome db advertiserId = (⟨0, [], 0, []⟩, some err) := by
  obtain ⟨err, herr⟩ := fetchModelByID_failed h scanAdvertiser ([], 0, [])
    (db.selectAdvertiser advertiserId)
  exact ⟨err, by rw [fetchAdvertiser, herr]⟩

theorem fetchAdsFeature_failed (adsId : ℕ) :
    ∃ err, fetchAdsFeature outcome db adsId = (⟨0, 0⟩, some err) := by
  obtain ⟨err, herr⟩ := fetchModelByID_failed h (fun row : AdsFeature => some row.feature) 0
    (db.selectAdsFeature adsId)
  exact ⟨err, by rw [fetchAdsFeature, herr]⟩

end Failing

end Go

end AuctionWorker
