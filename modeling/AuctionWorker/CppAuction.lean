import AuctionWorker.Grouping
import AuctionWorker.Schema

/-!
# The C++ auction

`cpp/src`: the fetchers over the database, category blocking, feature targeting
and `auction`, loop by loop. Every query is taken to succeed; a query that
throws leaves `auction` without a result (`CppConnections`).

An abort of the process is the error of `Except Abort`: `std::terminate` in the
category switch, a failing `assert`, and the undefined behaviour the code can
run into, signed overflow and the minimum of an empty range.

`auction` is cut at the winner: `auctionWinner` runs up to
`ads_targetted.front()`, `auction` builds the response.
-/

namespace AuctionWorker

namespace Cpp

variable {χ : Type}

/-- The ways in which the process stops being a server. -/
inductive Abort where
  | terminate
  | assertion
  | signedOverflow
  | emptyRange
deriving Repr, DecidableEq

/-! ## `connector/fetch_model_from_db.cpp` -/

section Fetch

variable (db : Database χ)

def fetchAdses : List (Ads χ) :=
  db.selectAdses

def fetchAdSize (sizeId : ℕ) : Option AdSize :=
  match db.selectAdSize sizeId with
  | [] => none
  | row :: _ => some ⟨sizeId, row.adsWidth, row.adsHeight⟩

def fetchCategoryBlocking (advertiserId : ℕ) : Option CategoryBlocking :=
  let categoryIds := db.selectCategoryIds advertiserId
  if categoryIds.isEmpty then none else some ⟨advertiserId, categoryIds⟩

/-- The enumeration is cast from the column without a check, so that it holds
any integer; `getInt` reads 0 from NULL. -/
def fetchAdvertiser (advertiserId : ℕ) : Option (Advertiser χ ℤ) :=
  match db.selectAdvertiser advertiserId with
  | [] => none
  | row :: _ =>
      let categoryBlockingType : ℤ :=
        match row.categoryBlockingType with
        | none => 0
        | some type => type.val
      some ⟨advertiserId, row.advertiserName, categoryBlockingType, row.domain⟩

def fetchAdsFeature (adsId : ℕ) : Option AdsFeature :=
  match db.selectAdsFeature adsId with
  | [] => none
  | row :: _ => some ⟨adsId, row.feature⟩

end Fetch

/-! ## `blocking/category_blocking.cpp` -/

/-- `CategoryBlockingType::ALLOW` -/
def ALLOW : ℤ := 0

/-- `CategoryBlockingType::DENY` -/
def DENY : ℤ := 1

def categoryBlocking (advertiser : Advertiser χ ℤ) (blocking : CategoryBlocking)
    (requestCategory : List ℕ) : Except Abort Bool :=
  let includingIds := blocking.categoryIds.any fun categoryId => requestCategory.contains categoryId
  if advertiser.categoryBlockingType = ALLOW then .ok (!includingIds)
  else if advertiser.categoryBlockingType = DENY then .ok includingIds
  else .error .terminate

/-! ## `targeting/feature_targeting.cpp` -/

/-- The result of a signed 32-bit operation. -/
def int32 (n : ℤ) : Except Abort ℤ :=
  if -2 ^ 31 ≤ n ∧ n < 2 ^ 31 then .ok n else .error .signedOverflow

/-- The projection `std::abs(request_feature - feature)`. -/
def distance (requestFeature feature : ℤ) : Except Abort ℤ := do
  let difference ← int32 (requestFeature - feature)
  int32 (if difference < 0 then -difference else difference)

/-- One step of `std::ranges::min`: a strictly smaller projection replaces the
result. -/
def minStep (requestFeature : ℤ) (result tmp : AdsFeature) : Except Abort AdsFeature := do
  let ofTmp ← distance requestFeature tmp.feature
  let ofResult ← distance requestFeature result.feature
  pure (if ofTmp < ofResult then tmp else result)

def featureTargeting (adsFeatures : List AdsFeature) (requestFeature : ℤ) :
    Except Abort AdsFeature :=
  match adsFeatures with
  | [] => .error .emptyRange
  | first :: rest => rest.foldlM (minStep requestFeature) first

/-! ## `server/auction.cpp` -/

section Auction

variable [DecidableEq χ] (db : Database χ) (request : Request χ)

def sizeStep (adsesSatisfySize : List (Ads χ)) (ads : Ads χ) : List (Ads χ) :=
  match fetchAdSize db ads.sizeId with
  | none => adsesSatisfySize
  | some adSize =>
      if adSize.adsWidth = request.zoneWidth ∧ adSize.adsHeight = request.zoneHeight then
        adsesSatisfySize ++ [ads]
      else adsesSatisfySize

def adsesSatisfySize : List (Ads χ) :=
  (fetchAdses db).foldl (sizeStep db request) []

/-- The inner loop of the domain stage with its flag `is_contain_block_domain`. -/
def isContainBlockDomain (blockDomains : List (List χ)) (advertiserDomain : List χ) : Bool :=
  blockDomains.foldl
    (fun flag targetDomain =>
      if (Text.find advertiserDomain targetDomain).isSome then true else flag)
    false

def domainStep (adsSatisfyDomain : List (Ads χ)) (ads : Ads χ) : List (Ads χ) :=
  match fetchAdvertiser db ads.advertiserId with
  | none => adsSatisfyDomain
  | some advertiser =>
      if isContainBlockDomain request.blockDomains advertiser.domain then adsSatisfyDomain
      else adsSatisfyDomain ++ [ads]

/-- The ads that reach the category stage. -/
def adsSatisfyDomain : List (Ads χ) :=
  (adsesSatisfySize db request).foldl (domainStep db request) []

/-- The category decision for one ad: blocked only if both fetches deliver. -/
def blocked (ads : Ads χ) : Except Abort Bool :=
  match fetchAdvertiser db ads.advertiserId, fetchCategoryBlocking db ads.advertiserId with
  | some advertiser, some blocking => categoryBlocking advertiser blocking request.categoryIds
  | _, _ => .ok false

/-- `std::map` iterates in increasing order of its keys. -/
def categoryStep (advertiserAdses : List (ℕ × List (Ads χ))) (ads : Ads χ) :
    Except Abort (List (ℕ × List (Ads χ))) := do
  if ← blocked db request ads then pure advertiserAdses
  else pure (Grouping.pushBackOrd advertiserAdses ads.advertiserId ads)

def advertiserAdses : Except Abort (List (ℕ × List (Ads χ))) :=
  (adsSatisfyDomain db request).foldlM (categoryStep db request) []

/-- The inner loop of the targeting stage. -/
def adsFeatures (advAdses : List (Ads χ)) : List AdsFeature :=
  advAdses.foldl
    (fun adsFeatures ads =>
      match fetchAdsFeature db ads.adsId with
      | none => adsFeatures
      | some adsFeature => adsFeatures ++ [adsFeature])
    []

def targetStep (adsTargetted : List (Ads χ)) (group : ℕ × List (Ads χ)) :
    Except Abort (List (Ads χ)) :=
  if (adsFeatures db group.2).isEmpty then pure adsTargetted
  else do
    let bestAds ← featureTargeting (adsFeatures db group.2) request.feature
    match group.2.find? fun ads => ads.adsId = bestAds.adsId with
    | none => .error .assertion
    | some ads => pure (adsTargetted ++ [ads])

/-- The ads that survive targeting, one for each advertiser. -/
def adsTargetted : Except Abort (List (Ads χ)) := do
  (← advertiserAdses db request).foldlM (targetStep db request) []

/-- `std::ranges::stable_sort` with `std::greater` on the price. -/
def sortByPrice (adses : List (Ads χ)) : List (Ads χ) :=
  adses.insertionSort fun a b => b.price ≤ a.price

def auctionWinner : Except Abort (Option (Ads χ)) := do
  pure (sortByPrice (← adsTargetted db request)).head?

def auction : Except Abort (Option (Response χ)) := do
  pure ((← auctionWinner db request).map (respond request))

end Auction

end Cpp

end AuctionWorker
