import AuctionWorker.Grouping
import AuctionWorker.Loops
import AuctionWorker.Schema

/-!
# The Python auction

`python/connector/fetch_model_from_db.py`, `python/blocking`, `python/targeting`
and `python/server/auction.py`, over an arbitrary monad with exceptions: what a
fetch does to connections is left to the `MySQLConnector`, and a fetcher is the
body of a `with` over the rows of its query. `plainConnector` delivers the rows
and nothing else.

A row is tested by truthiness where the source does so: a row of a query is a
non-empty tuple and always true, a feature is true unless it is 0.
-/

namespace AuctionWorker

namespace Py

variable {χ : Type}

inductive PyException where
  | valueError
  | typeError
  | keyError
  | indexError
  | driver
deriving Repr, DecidableEq

/-- `with mysql_connector.fetchModels(query) as cursor: body`, for a query that
selects `rows`. -/
structure MySQLConnector (m : Type → Type) where
  fetch : {ρ α : Type} → List ρ → (List ρ → Except PyException α) → m α

/-- Every access succeeds. -/
def plainConnector : MySQLConnector (Except PyException) where
  fetch rows body := body rows

inductive CategoryBlockingType where
  | ALLOW
  | DENY
deriving Repr, DecidableEq

/-- `CategoryBlockingType(value)`; a value that is no member raises. -/
def CategoryBlockingType.ofColumn : Option (Fin 256) → Except PyException CategoryBlockingType
  | some 0 => .ok .ALLOW
  | some 1 => .ok .DENY
  | _ => .error .valueError

/-! ## `blocking/category_blocking.py` -/

def categoryBlocking (advertiser : Advertiser χ CategoryBlockingType)
    (blocking : CategoryBlocking) (requestCategory : List ℕ) : Bool :=
  let includingAds := blocking.categoryIds.foldl
    (fun includingAds categoryId => includingAds || requestCategory.contains categoryId) false
  if advertiser.categoryBlockingType = .ALLOW then !includingAds else includingAds

/-! ## `targeting/feature_targeting.py` -/

/-- `sys.maxsize` -/
def maxsize : ℤ :=
  2 ^ 63 - 1

def featureTargeting (adsFeatures : List AdsFeature) (requestFeature : ℤ) :
    Except PyException AdsFeature :=
  let nearest := Loops.sentinelScan
    (fun adsFeature : AdsFeature => |requestFeature - adsFeature.feature|) maxsize adsFeatures
  match adsFeatures[nearest.2]? with
  | none => .error .indexError
  | some adsFeature => .ok adsFeature

/-! ## `connector/fetch_model_from_db.py` -/

section Fetch

variable {m : Type → Type} (connector : MySQLConnector m) (db : Database χ)

def fetchAdses : m (List (Ads χ)) :=
  connector.fetch db.selectAdses fun data => .ok data

def fetchAdSize (sizeId : ℕ) : m (Option AdSize) :=
  connector.fetch (db.selectAdSize sizeId) fun
    | [] => .ok none
    | row :: _ => .ok (some ⟨sizeId, row.adsWidth, row.adsHeight⟩)

def fetchCategoryBlocking (advertiserId : ℕ) : m (Option CategoryBlocking) :=
  connector.fetch (db.selectCategoryIds advertiserId) fun categoryIds =>
    .ok (if categoryIds.isEmpty then none else some ⟨advertiserId, categoryIds⟩)

def fetchAdvertiser (advertiserId : ℕ) : m (Option (Advertiser χ CategoryBlockingType)) :=
  connector.fetch (db.selectAdvertiser advertiserId) fun
    | [] => .ok none
    | row :: _ => do
        let categoryBlockingType ← CategoryBlockingType.ofColumn row.categoryBlockingType
        pure (some ⟨advertiserId, row.advertiserName, categoryBlockingType, row.domain⟩)

/-- Without a row, `fetchone` returns None and the unpacking raises. -/
def fetchAdsFeature (adsId : ℕ) : m (Option AdsFeature) :=
  connector.fetch (db.selectAdsFeature adsId) fun
    | [] => .error .typeError
    | row :: _ => .ok (if row.feature ≠ 0 then some ⟨adsId, row.feature⟩ else none)

end Fetch

/-! ## `server/auction.py` -/

section Auction

variable [DecidableEq χ] {m : Type → Type} [Monad m] [MonadExceptOf PyException m]
  (connector : MySQLConnector m) (db : Database χ) (request : Request χ)

def sizeStep (adsesSatisfySize : List (Ads χ)) (ads : Ads χ) : m (List (Ads χ)) := do
  match ← fetchAdSize connector db ads.sizeId with
  | none => pure adsesSatisfySize
  | some adSize =>
      if adSize.adsWidth = request.zoneWidth ∧ adSize.adsHeight = request.zoneHeight then
        pure (adsesSatisfySize ++ [ads])
      else pure adsesSatisfySize

/-- The inner loop of the domain stage with its flag `is_contained_block_domain`. -/
def isContainedBlockDomain (blockDomains : List (List χ)) (advertiserDomain : List χ) : Bool :=
  blockDomains.foldl
    (fun flag domain => if (Text.find advertiserDomain domain).isSome then true else flag)
    false

def domainStep (adsSatisfyDomain : List (Ads χ)) (ads : Ads χ) : m (List (Ads χ)) := do
  match ← fetchAdvertiser connector db ads.advertiserId with
  | none => pure adsSatisfyDomain
  | some advertiser =>
      if isContainedBlockDomain request.blockDomains advertiser.domain then pure adsSatisfyDomain
      else pure (adsSatisfyDomain ++ [ads])

/-- The ads that reach the category stage. -/
def adsSatisfyDomain : m (List (Ads χ)) := do
  let adses ← fetchAdses connector db
  let adsesSatisfySize ← adses.foldlM (sizeStep connector db request) []
  adsesSatisfySize.foldlM (domainStep connector db request) []

/-- The category decision for one ad: blocked only if both fetches deliver. -/
def blocked (ads : Ads χ) : m Bool := do
  let advertiser ← fetchAdvertiser connector db ads.advertiserId
  let blocking ← fetchCategoryBlocking connector db ads.advertiserId
  match advertiser, blocking with
  | some advertiser, some blocking =>
      pure (categoryBlocking advertiser blocking request.categoryIds)
  | _, _ => pure false

/-- A dictionary iterates in the order in which its keys were inserted. -/
def categoryStep (advertiserAdses : List (ℕ × List (Ads χ))) (ads : Ads χ) :
    m (List (ℕ × List (Ads χ))) := do
  if ← blocked connector db request ads then pure advertiserAdses
  else pure (Grouping.pushBack advertiserAdses ads.advertiserId ads)

def advertiserAdses : m (List (ℕ × List (Ads χ))) := do
  (← adsSatisfyDomain connector db request).foldlM (categoryStep connector db request) []

/-- One step of the first inner loop of the targeting stage. -/
def featureStep (adsFeatures : List AdsFeature) (ads : Ads χ) : m (List AdsFeature) := do
  match ← fetchAdsFeature connector db ads.adsId with
  | none => pure adsFeatures
  | some adsFeature => pure (adsFeatures ++ [adsFeature])

def adsFeatures (advAdses : List (Ads χ)) : m (List AdsFeature) :=
  advAdses.foldlM (featureStep connector db) []

/-- The second inner loop appends every ad with the id of the best feature. -/
def targetStep (adsTargetted : List (Ads χ)) (group : ℕ × List (Ads χ)) :
    m (List (Ads χ)) := do
  let features ← adsFeatures connector db group.2
  if 0 < features.length then do
    let bestAds ← MonadExcept.ofExcept (featureTargeting features request.feature)
    pure (group.2.foldl
      (fun adsTargetted ads =>
        if ads.adsId = bestAds.adsId then adsTargetted ++ [ads] else adsTargetted)
      adsTargetted)
  else pure adsTargetted

/-- `key=lambda ads: (ads.price, -ads.ads_id)` -/
def sortKey (ads : Ads χ) : ℕ ×ₗ ℤ :=
  toLex (ads.price, -ads.adsId)

/-- `sort` with `reverse=True`: falling keys, stable. -/
def sortReverse (adses : List (Ads χ)) : List (Ads χ) :=
  adses.insertionSort fun a b => sortKey b ≤ sortKey a

def auctionWinner : m (Option (Ads χ)) := do
  let groups ← advertiserAdses connector db request
  let adsTargetted ← groups.foldlM (targetStep connector db request) []
  pure (sortReverse adsTargetted).head?

def auction : m (Option (Response χ)) := do
  pure ((← auctionWinner connector db request).map (respond request))

end Auction

end Py

end AuctionWorker
