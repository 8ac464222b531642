import AuctionWorker.GoConnector
import AuctionWorker.Grouping

/-!
# The Go auction

`golang/server/auction.go`, loop by loop, over any assignment of outcomes to its
fetches. An auction makes each `FetchCall` at most once, so a function on them
is such an assignment.

The language leaves two things open: the order in which a map is ranged over,
and where `sort.Slice` puts elements that compare equal. A `Runtime` is one way
to settle both, and what holds for every `Runtime` holds for every execution.

`auctionWinner` runs up to the winner, `auction` builds the response and `bid`
is what `AuctionHandler` sends.
-/

namespace AuctionWorker

namespace Go

variable {χ : Type}

/-! ## What the language leaves open -/

/-- `sort.Slice` needs a strict weak order. -/
structure StrictWeak {α : Type} (less : α → α → Bool) : Prop where
  irrefl : ∀ a, less a a = false
  trans : ∀ a b c, less a b → less b c → less a c
  negTrans : ∀ a b c, less a b = false → less b c = false → less a c = false

structure Runtime (χ : Type) where
  rangeMap : List (ℕ × List (Ads χ)) → List (ℕ × List (Ads χ))
  rangeMap_perm : ∀ m, (rangeMap m).Perm m
  sortSlice : (Ads χ → Ads χ → Bool) → List (Ads χ) → List (Ads χ)
  sortSlice_perm : ∀ less l, (sortSlice less l).Perm l
  sortSlice_sorted : ∀ less l, StrictWeak less →
    (sortSlice less l).Pairwise fun a b => less b a = false

/-- A fetch of one auction: where it stands in the code, and for which ad. -/
inductive FetchCall where
  | adses
  | adSize (adsId : ℕ)
  | domainAdvertiser (adsId : ℕ)
  | categoryAdvertiser (adsId : ℕ)
  | categoryBlocking (adsId : ℕ)
  | adsFeature (adsId : ℕ)
deriving Repr, DecidableEq

/-- The outcomes of all fetches. -/
abbrev Faults := FetchCall → Outcome

/-- Every fetch succeeds. -/
def noFaults : Faults :=
  fun _ => .success

/-! ## `server/auction.go` -/

section Auction

variable [DecidableEq χ] (runtime : Runtime χ) (faults : Faults) (db : Database χ)
  (request : Request χ)

def sizeStep (advertiserSatisfySize : List (Ads χ)) (ads : Ads χ) : List (Ads χ) :=
  match fetchAdSize (faults (.adSize ads.adsId)) db ads.sizeId with
  | (_, some _) => advertiserSatisfySize
  | (adSize, none) =>
      if adSize.adsWidth = request.zoneWidth ∧ adSize.adsHeight = request.zoneHeight then
        advertiserSatisfySize ++ [ads]
      else advertiserSatisfySize

def advertiserSatisfySize (adses : List (Ads χ)) : List (Ads χ) :=
  adses.foldl (sizeStep faults db request) []

/-- The inner loop of the domain stage with its flag `contain_block_domain`. -/
def containBlockDomain (blockDomains : List (List χ)) (advertiserDomain : List χ) : Bool :=
  blockDomains.foldl
    (fun flag blockDomain =>
      if (Text.find advertiserDomain blockDomain).isSome then true else flag)
    false

def domainStep (advertiserSatisfyDomain : List (Ads χ)) (ads : Ads χ) : List (Ads χ) :=
  match fetchAdvertiser (faults (.domainAdvertiser ads.adsId)) db ads.advertiserId with
  | (_, some _) => advertiserSatisfyDomain
  | (advertiser, none) =>
      if containBlockDomain request.blockDomains advertiser.domain then advertiserSatisfyDomain
      else advertiserSatisfyDomain ++ [ads]

/-- The ads that reach the category stage. -/
def advertiserSatisfyDomain (adses : List (Ads χ)) : List (Ads χ) :=
  (advertiserSatisfySize faults db request adses).foldl (domainStep faults db request) []

/-- The category decision for one ad: blocked only if neither fetch returns an
error. -/
def blocked (ads : Ads χ) : Bool :=
  match fetchAdvertiser (faults (.categoryAdvertiser ads.adsId)) db ads.advertiserId,
    fetchCategoryBlocking (faults (.categoryBlocking ads.adsId)) db ads.advertiserId with
  | (advertiser, none), (blocking, none) =>
      categoryBlocking advertiser blocking request.categoryIds
  | _, _ => false

def categoryStep (advertiserAdses : List (ℕ × List (Ads χ))) (ads : Ads χ) :
    List (ℕ × List (Ads χ)) :=
  if blocked faults db request ads then advertiserAdses
  else Grouping.pushBack advertiserAdses ads.advertiserId ads

def advertiserAdses (adses : List (Ads χ)) : List (ℕ × List (Ads χ)) :=
  (advertiserSatisfyDomain faults db request adses).foldl (categoryStep faults db request) []

/-- The first inner loop of the targeting stage. -/
def adsFeatures (advAdses : List (Ads χ)) : List AdsFeature :=
  advAdses.foldl
    (fun adsFeatures ads =>
      match fetchAdsFeature (faults (.adsFeature ads.adsId)) db ads.adsId with
      | (_, some _) => adsFeatures
      | (adsFeature, none) => adsFeatures ++ [adsFeature])
    []

/-- The second inner loop appends every ad with the id of the best feature. -/
def targetStep (adsTargetted : List (Ads χ)) (group : ℕ × List (Ads χ)) :
    Except Panic (List (Ads χ)) :=
  if 0 < (adsFeatures faults db group.2).length then do
    let bestAds ← featureTargeting (adsFeatures faults db group.2) request.feature
    pure (group.2.foldl
      (fun adsTargetted ads =>
        if ads.adsId = bestAds.adsId then adsTargetted ++ [ads] else adsTargetted)
      adsTargetted)
  else pure adsTargetted

/-- The comparator of the final sort. -/
def less (a b : Ads χ) : Bool :=
  if a.price ≠ b.price then a.price > b.price else a.adsId < b.adsId

def auctionWinner : Except Panic (Except GoError (Ads χ)) :=
  match fetchAdses (faults .adses) db with
  | (_, some err) => pure (.error err)
  | (adses, none) => do
      let adsTargetted ← (runtime.rangeMap (advertiserAdses faults db request adses)).foldlM
        (targetStep faults db request) []
      match runtime.sortSlice less adsTargetted with
      | [] => pure (.error (.errorf "No appropriate ads found"))
      | winner :: _ => pure (.ok winner)

def auction : Except Panic (Response χ × Option GoError) := do
  match ← auctionWinner runtime faults db request with
  | .error err => pure (⟨[], [], 0⟩, some err)
  | .ok winner => pure (respond request winner, none)

end Auction

/-- What `AuctionHandler` answers: the response, or no bid on an error. -/
def bid : Response χ × Option GoError → Option (Response χ)
  | (_, some _) => none
  | (response, none) => some response

/-! ## One runtime -/

/-- A runtime that ranges in insertion order and sorts stably. -/
def stableRuntime : Runtime χ where
  rangeMap m := m
  rangeMap_perm _ := List.Perm.refl _
  sortSlice less l := l.insertionSort fun a b => less b a = false
  sortSlice_perm _ _ := List.perm_insertionSort _ _
  sortSlice_sorted less l h := by
    have : Std.Total fun a b : Ads χ => less b a = false := by
      refine ⟨fun a b => ?_⟩
      cases hab : less a b with
      | false => exact Or.inr rfl
      | true =>
          refine Or.inl (Bool.eq_false_iff.mpr fun hba => ?_)
          exact absurd (h.trans a b a hab hba) (by simp [h.irrefl])
    have : IsTrans (Ads χ) fun a b => less b a = false :=
      ⟨fun a b c hab hbc => h.negTrans c b a hbc hab⟩
    exact List.pairwise_insertionSort _ _

end Go

end AuctionWorker
