import AuctionWorker.FirstFault
import AuctionWorker.GoSelection

/-!
# The fetches of a Go auction

`golang/server/auction.go` once more, loop by loop, with a log of the fetches that it
makes. The log holds the calls of `fetchCalls`, in an order that depends on how the map
is ranged over, and what an auction returns is what it returns without the log
(`auction_logs`).

No fetch is made twice, whatever the database holds and whatever fails
(`auction_fetchesOnce`). So a function from the calls to their outcomes is the same as
any sequence of outcomes.
-/

namespace AuctionWorker

namespace Go

open FirstFault

variable {χ α β : Type}

/-! ## The auction with a log -/

abbrev Session : Type → Type :=
  ExceptT Panic (StateM (List FetchCall))

namespace Logged

/-- A fetch goes as its call goes. -/
def make (faults : Faults) (call : FetchCall) (fetch : Outcome → α) : Session α := do
  modify fun log => log ++ [call]
  pure (fetch (faults call))

section Auction

variable [DecidableEq χ] (runtime : Runtime χ) (faults : Faults) (db : Database χ)
  (request : Request χ)

def sizeStep (advertiserSatisfySize : List (Ads χ)) (ads : Ads χ) : Session (List (Ads χ)) := do
  match ← make faults (.adSize ads.adsId) fun outcome => fetchAdSize outcome db ads.sizeId with
  | (_, some _) => pure advertiserSatisfySize
  | (adSize, none) =>
      if adSize.adsWidth = request.zoneWidth ∧ adSize.adsHeight = request.zoneHeight then
        pure (advertiserSatisfySize ++ [ads])
      else pure advertiserSatisfySize

def domainStep (advertiserSatisfyDomain : List (Ads χ)) (ads : Ads χ) :
    Session (List (Ads χ)) := do
  match ← make faults (.domainAdvertiser ads.adsId)
      fun outcome => fetchAdvertiser outcome db ads.advertiserId with
  | (_, some _) => pure advertiserSatisfyDomain
  | (advertiser, none) =>
      if containBlockDomain request.blockDomains advertiser.domain then
        pure advertiserSatisfyDomain
      else pure (advertiserSatisfyDomain ++ [ads])

def blocked (ads : Ads χ) : Session Bool := do
  let advertiser ← make faults (.categoryAdvertiser ads.adsId)
    fun outcome => fetchAdvertiser outcome db ads.advertiserId
  let blocking ← make faults (.categoryBlocking ads.adsId)
    fun outcome => fetchCategoryBlocking outcome db ads.advertiserId
  match advertiser, blocking with
  | (advertiser, none), (blocking, none) =>
      pure (categoryBlocking advertiser blocking request.categoryIds)
  | _, _ => pure false

def categoryStep (advertiserAdses : List (ℕ × List (Ads χ))) (ads : Ads χ) :
    Session (List (ℕ × List (Ads χ))) := do
  if ← blocked faults db request ads then pure advertiserAdses
  else pure (Grouping.pushBack advertiserAdses ads.advertiserId ads)

def featureStep (adsFeatures : List AdsFeature) (ads : Ads χ) : Session (List AdsFeature) := do
  match ← make faults (.adsFeature ads.adsId)
      fun outcome => fetchAdsFeature outcome db ads.adsId with
  | (_, some _) => pure adsFeatures
  | (adsFeature, none) => pure (adsFeatures ++ [adsFeature])

def targetStep (adsTargetted : List (Ads χ)) (group : ℕ × List (Ads χ)) :
    Session (List (Ads χ)) := do
  let adsFeatures ← group.2.foldlM (featureStep faults db) []
  if 0 < adsFeatures.length then do
    let bestAds ← MonadExcept.ofExcept (featureTargeting adsFeatures request.feature)
    pure (group.2.foldl
      (fun adsTargetted ads =>
        if ads.adsId = bestAds.adsId then adsTargetted ++ [ads] else adsTargetted)
      adsTargetted)
  else pure adsTargetted

def auctionWinner : Session (Except GoError (Ads χ)) := do
  match ← make faults .adses fun outcome => fetchAdses outcome db with
  | (_, some err) => pure (.error err)
  | (adses, none) => do
      let advertiserSatisfySize ← adses.foldlM (sizeStep faults db request) []
      let advertiserSatisfyDomain ←
        advertiserSatisfySize.foldlM (domainStep faults db request) []
      let advertiserAdses ← advertiserSatisfyDomain.foldlM (categoryStep faults db request) []
      let adsTargetted ← (runtime.rangeMap advertiserAdses).foldlM
        (targetStep faults db request) []
      match runtime.sortSlice less adsTargetted with
      | [] => pure (.error (.errorf "No appropriate ads found"))
      | winner :: _ => pure (.ok winner)

def auction : Session (Response χ × Option GoError) := do
  match ← auctionWinner runtime faults db request with
  | .error err => pure (⟨[], [], 0⟩, some err)
  | .ok winner => pure (respond request winner, none)

end Auction

end Logged

/-! ## The calls -/

section Calls

variable [DecidableEq χ] (faults : Faults) (db : Database χ) (request : Request χ)

/-- The ads that are passed on to targeting. -/
def passedOn (adses : List (Ads χ)) : List (Ads χ) :=
  (advertiserSatisfyDomain faults db request adses).filter fun ads =>
    !blocked faults db request ads

/-- The fetches of an auction, loop by loop. -/
def fetchCalls : List FetchCall :=
  .adses :: match fetchAdses (faults .adses) db with
    | (_, some _) => []
    | (adses, none) =>
        adses.map (fun ads => .adSize ads.adsId)
          ++ ((advertiserSatisfySize faults db request adses).map fun ads =>
            .domainAdvertiser ads.adsId)
          ++ ((advertiserSatisfyDomain faults db request adses).flatMap fun ads =>
            [.categoryAdvertiser ads.adsId, .categoryBlocking ads.adsId])
          ++ ((passedOn faults db request adses).map fun ads => .adsFeature ads.adsId)

end Calls

/-! ## What is logged -/

/-- `x` returns what `y` does, and logs the calls in some order. -/
abbrev Logs (x : Session α) (y : Except Panic α) (calls : List FetchCall) : Prop :=
  Metered (fun _ => True) ∅ (fun log : List FetchCall => (log : Multiset FetchCall)) x y calls

theorem logs_make (faults : Faults) (call : FetchCall) (fetch : Outcome → α) :
    Logs (Logged.make faults call fetch) (.ok (fetch (faults call))) [call] where
  failStop _ _ := ⟨trivial, .inr rfl⟩
  le _ _ := le_rfl
  eq _ _ _ _ := rfl

theorem logs_ofExcept (r : Except Panic α) : Logs (MonadExcept.ofExcept r) r [] := by
  cases r with
  | error err => exact .ofExcept (.error err)
  | ok a => exact .ofExcept (.ok a)

theorem logs_bind_ok {x : Session α} {a : α} {f : α → Session β} {y : Except Panic β}
    {calls calls' : List FetchCall} (hx : Logs x (.ok a) calls) (hf : Logs (f a) y calls') :
    Logs (x >>= f) y (calls ++ calls') :=
  Metered.bind_ok hx hf

theorem Logs.perm {x : Session α} {y : Except Panic α} {calls calls' : List FetchCall}
    (h : Logs x y calls) (hperm : calls.Perm calls') : Logs x y calls' := by
  rwa [Logs, ← Multiset.coe_eq_coe.mpr hperm]

theorem logs_foldlM {f : β → α → Session β} {g : β → α → Except Panic β}
    {calls : α → List FetchCall} (hfg : ∀ b a, Logs (f b a) (g b a) (calls a)) (l : List α)
    (b : β) : Logs (l.foldlM f b) (l.foldlM g b) (l.flatMap calls) := by
  have hsum : (l.map fun a => (calls a : Multiset FetchCall)).sum = (l.flatMap calls : List _) := by
    induction l with
    | nil => rfl
    | cons a l ih =>
        rw [List.map_cons, List.sum_cons, ih]
        rfl
  have hfold := Metered.foldlM hfg l b
  rwa [hsum] at hfold

theorem logs_foldl {f : β → α → Session β} {g : β → α → β} {calls : α → List FetchCall}
    (hfg : ∀ b a, Logs (f b a) (.ok (g b a)) (calls a)) (l : List α) (b : β) :
    Logs (l.foldlM f b) (.ok (l.foldl g b)) (l.flatMap calls) := by
  have hfold := logs_foldlM hfg l b
  rwa [show (l.foldlM (fun b a => (.ok (g b a) : Except Panic β)) b) = .ok (l.foldl g b) from
    List.foldlM_pure] at hfold

section Steps

variable (faults : Faults) (db : Database χ) (request : Request χ)

theorem sizeStep_logs (adses : List (Ads χ)) (ads : Ads χ) :
    Logs (Logged.sizeStep faults db request adses ads) (.ok (sizeStep faults db request adses ads))
      [.adSize ads.adsId] := by
  refine Metered.bind_ok_free (logs_make faults _ _) ?_
  rw [sizeStep]
  rcases fetchAdSize (faults (.adSize ads.adsId)) db ads.sizeId with ⟨adSize, _ | err⟩
  · dsimp only
    split
    · exact .pure _
    · exact .pure _
  · exact .pure _

theorem blocked_logs (ads : Ads χ) :
    Logs (Logged.blocked faults db request ads) (.ok (blocked faults db request ads))
      [.categoryAdvertiser ads.adsId, .categoryBlocking ads.adsId] := by
  refine logs_bind_ok (logs_make faults _ _) (Metered.bind_ok_free (logs_make faults _ _) ?_)
  rw [blocked]
  rcases fetchAdvertiser (faults (.categoryAdvertiser ads.adsId)) db ads.advertiserId with
    ⟨advertiser, _ | err⟩
  · rcases fetchCategoryBlocking (faults (.categoryBlocking ads.adsId)) db ads.advertiserId with
      ⟨blocking, _ | err⟩
    · exact .pure _
    · exact .pure _
  · exact .pure _

theorem categoryStep_logs (groups : List (ℕ × List (Ads χ))) (ads : Ads χ) :
    Logs (Logged.categoryStep faults db request groups ads)
      (.ok (categoryStep faults db request groups ads))
      [.categoryAdvertiser ads.adsId, .categoryBlocking ads.adsId] := by
  refine (blocked_logs faults db request ads).bind_ok_free ?_
  rw [categoryStep]
  cases blocked faults db request ads with
  | true => exact .pure _
  | false => exact .pure _

theorem featureStep_logs (features : List AdsFeature) (ads : Ads χ) :
    Logs (Logged.featureStep faults db features ads)
      (.ok (match fetchAdsFeature (faults (.adsFeature ads.adsId)) db ads.adsId with
        | (_, some _) => features
        | (adsFeature, none) => features ++ [adsFeature]))
      [.adsFeature ads.adsId] := by
  refine Metered.bind_ok_free (logs_make faults _ _) ?_
  rcases fetchAdsFeature (faults (.adsFeature ads.adsId)) db ads.adsId with ⟨adsFeature, _ | err⟩
  · exact .pure _
  · exact .pure _

theorem targetStep_logs (adsTargetted : List (Ads χ)) (group : ℕ × List (Ads χ)) :
    Logs (Logged.targetStep faults db request adsTargetted group)
      (targetStep faults db request adsTargetted group)
      (group.2.flatMap fun ads => [.adsFeature ads.adsId]) := by
  refine (logs_foldl (featureStep_logs faults db) group.2 []).bind_ok_free ?_
  rw [targetStep]
  show Logs (if 0 < (adsFeatures faults db group.2).length then _ else _) _ []
  split
  · exact (logs_ofExcept _).bind_free fun bestAds _ => .pure _
  · exact .pure _

variable [DecidableEq χ]

theorem domainStep_logs (adses : List (Ads χ)) (ads : Ads χ) :
    Logs (Logged.domainStep faults db request adses ads)
      (.ok (domainStep faults db request adses ads)) [.domainAdvertiser ads.adsId] := by
  refine Metered.bind_ok_free (logs_make faults _ _) ?_
  rw [domainStep]
  rcases fetchAdvertiser (faults (.domainAdvertiser ads.adsId)) db ads.advertiserId with
    ⟨advertiser, _ | err⟩
  · dsimp only
    split
    · exact .pure _
    · exact .pure _
  · exact .pure _

/-- The features are fetched group by group. -/
theorem perm_featureCalls (runtime : Runtime χ) (adses : List (Ads χ)) :
    ((runtime.rangeMap (advertiserAdses faults db request adses)).flatMap fun group =>
        group.2.flatMap fun ads => [FetchCall.adsFeature ads.adsId]).Perm
      ((passedOn faults db request adses).map fun ads => .adsFeature ads.adsId) := by
  have hgroups := (advertiserAdses_kept faults db request adses).perm (runtime.rangeMap_perm _)
  have hperm := hgroups.perm_entries.map fun ads => FetchCall.adsFeature ads.adsId
  rw [List.map_flatMap] at hperm
  simp only [List.map_eq_flatMap] at hperm ⊢
  exact hperm

end Steps

/-- **The log.** An auction logs its calls, and otherwise goes as it goes without a log. -/
theorem auction_logs [DecidableEq χ] (runtime : Runtime χ) (faults : Faults) (db : Database χ)
    (request : Request χ) :
    Logs (Logged.auction runtime faults db request) (auction runtime faults db request)
      (fetchCalls faults db request) := by
  have hwinner : Logs (Logged.auctionWinner runtime faults db request)
      (auctionWinner runtime faults db request) (fetchCalls faults db request) := by
    refine logs_bind_ok (logs_make faults .adses _) ?_
    rw [auctionWinner]
    rcases hfetch : fetchAdses (faults .adses) db with ⟨adses, _ | err⟩
    · dsimp only
      have hperm := (perm_featureCalls faults db request runtime adses).append_left
        (adses.map (fun ads => FetchCall.adSize ads.adsId)
          ++ ((advertiserSatisfySize faults db request adses).map fun ads =>
            .domainAdvertiser ads.adsId)
          ++ ((advertiserSatisfyDomain faults db request adses).flatMap fun ads =>
            [.categoryAdvertiser ads.adsId, .categoryBlocking ads.adsId]))
      refine Logs.perm ?_ hperm
      simp only [List.map_eq_flatMap, List.append_assoc]
      refine logs_bind_ok (logs_foldl (sizeStep_logs faults db request) adses []) ?_
      refine logs_bind_ok (logs_foldl (domainStep_logs faults db request) _ []) ?_
      refine logs_bind_ok (logs_foldl (categoryStep_logs faults db request) _ []) ?_
      refine (logs_foldlM (targetStep_logs faults db request) _ []).bind_free ?_
      intro adsTargetted _
      cases runtime.sortSlice less adsTargetted with
      | nil => exact .pure _
      | cons winner rest => exact .pure _
    · exact .pure _
  refine hwinner.bind_free fun out _ => ?_
  cases out with
  | error err => exact .pure _
  | ok winner => exact .pure _

/-! ## No fetch is made twice -/

/-- The loop that makes a call. -/
def FetchCall.stage : FetchCall → ℕ
  | .adses => 0
  | .adSize _ => 1
  | .domainAdvertiser _ => 2
  | .categoryAdvertiser _ | .categoryBlocking _ => 3
  | .adsFeature _ => 4

/-- Calls up to the loop `n`, none of them twice. -/
def Staged (n : ℕ) (calls : List FetchCall) : Prop :=
  calls.Nodup ∧ ∀ call ∈ calls, call.stage ≤ n

theorem Staged.append {n : ℕ} {calls calls' : List FetchCall} (h : Staged n calls)
    (hnodup : calls'.Nodup) (hstage : ∀ call ∈ calls', call.stage = n + 1) :
    Staged (n + 1) (calls ++ calls') := by
  obtain ⟨hcalls, hle⟩ := h
  refine ⟨List.nodup_append.mpr ⟨hcalls, hnodup, fun call hcall call' hcall' heq => ?_⟩,
    List.forall_mem_append.mpr ⟨fun call hcall => Nat.le_succ_of_le (hle call hcall),
      fun call hcall => (hstage call hcall).le⟩⟩
  have hlast := hle call hcall
  rw [heq, hstage call' hcall'] at hlast
  exact Nat.not_succ_le_self n hlast

/-- Calls of one kind for ads with different ids. -/
theorem nodup_calls {l : List (Ads χ)} (call : ℕ → FetchCall) (hcall : Function.Injective call)
    (hids : (l.map Ads.adsId).Nodup) : (l.map fun ads => call ads.adsId).Nodup := by
  have hmap := hids.map hcall
  rwa [List.map_map] at hmap

theorem nodup_categoryCalls {l : List (Ads χ)} (hids : (l.map Ads.adsId).Nodup) :
    (l.flatMap fun ads =>
      [FetchCall.categoryAdvertiser ads.adsId, .categoryBlocking ads.adsId]).Nodup := by
  refine List.nodup_flatMap.mpr ⟨fun ads _ => by simp, ?_⟩
  refine (List.pairwise_map.mp hids).imp fun hne => ?_
  simp [Function.onFun, hne.symm]

theorem stage_categoryCalls {l : List (Ads χ)} :
    ∀ call ∈ l.flatMap fun ads =>
      [FetchCall.categoryAdvertiser ads.adsId, .categoryBlocking ads.adsId], call.stage = 3 := by
  intro call hcall
  obtain ⟨ads, -, hmem⟩ := List.mem_flatMap.mp hcall
  simp only [List.mem_cons, List.not_mem_nil, or_false] at hmem
  rcases hmem with rfl | rfl
  · rfl
  · rfl

theorem nodup_adsIds {outcome : Outcome} {db : Database χ} {adses : List (Ads χ)}
    (hfetch : fetchAdses outcome db = (adses, none)) : (adses.map Ads.adsId).Nodup := by
  rw [stored_of_fetchAdses hfetch]
  split
  · exact ((List.perm_insertionSort _ _).map _).nodup_iff.mpr db.adses_pk
  · exact List.nodup_nil

section Once

variable [DecidableEq χ] (runtime : Runtime χ) (faults : Faults) (db : Database χ)
  (request : Request χ)

theorem fetchCalls_nodup : (fetchCalls faults db request).Nodup := by
  have hfirst : Staged 0 [.adses] := ⟨List.nodup_singleton _, by simp [FetchCall.stage]⟩
  rw [fetchCalls]
  rcases hfetch : fetchAdses (faults .adses) db with ⟨adses, _ | err⟩
  · have hids := nodup_adsIds hfetch
    have hsized : ((advertiserSatisfySize faults db request adses).map Ads.adsId).Nodup := by
      rw [advertiserSatisfySize_eq]
      exact hids.sublist (List.filter_sublist.map _)
    have hdomain : ((advertiserSatisfyDomain faults db request adses).map Ads.adsId).Nodup := by
      rw [advertiserSatisfyDomain_kept]
      exact hids.sublist (List.filter_sublist.map _)
    have hpassed : ((passedOn faults db request adses).map Ads.adsId).Nodup :=
      hdomain.sublist (List.filter_sublist.map _)
    have hsizes := hfirst.append (nodup_calls .adSize (fun _ _ => FetchCall.adSize.inj) hids)
      (List.forall_mem_map.mpr fun _ _ => rfl)
    have hadvertisers := hsizes.append
      (nodup_calls .domainAdvertiser (fun _ _ => FetchCall.domainAdvertiser.inj) hsized)
      (List.forall_mem_map.mpr fun _ _ => rfl)
    have hcategories := hadvertisers.append (nodup_categoryCalls hdomain) stage_categoryCalls
    have hfeatures := hcategories.append
      (nodup_calls .adsFeature (fun _ _ => FetchCall.adsFeature.inj) hpassed)
      (List.forall_mem_map.mpr fun _ _ => rfl)
    simpa only [List.append_assoc, List.cons_append, List.nil_append] using hfeatures.1
  · exact hfirst.1

theorem length_fetchCalls {adses : List (Ads χ)}
    (hfetch : fetchAdses (faults .adses) db = (adses, none)) :
    (fetchCalls faults db request).length
      = 1 + adses.length + (advertiserSatisfySize faults db request adses).length
        + 2 * (advertiserSatisfyDomain faults db request adses).length
        + (passedOn faults db request adses).length := by
  have hcategories : ((advertiserSatisfyDomain faults db request adses).flatMap fun ads =>
      [FetchCall.categoryAdvertiser ads.adsId, .categoryBlocking ads.adsId]).length
      = 2 * (advertiserSatisfyDomain faults db request adses).length := by
    simp [List.length_flatMap, mul_comm]
  rw [fetchCalls, hfetch, List.length_cons, List.length_append, List.length_append,
    List.length_append, hcategories, List.length_map, List.length_map, List.length_map]
  omega

theorem length_fetchCalls_le : (fetchCalls faults db request).length ≤ 1 + 5 * db.adses.length := by
  rcases hfetch : fetchAdses (faults .adses) db with ⟨adses, _ | err⟩
  · have hadses : adses.length ≤ db.adses.length := by
      rw [stored_of_fetchAdses hfetch]
      split
      · exact (List.length_insertionSort _ _).le
      · exact Nat.zero_le _
    have hsized : (advertiserSatisfySize faults db request adses).length ≤ adses.length := by
      rw [advertiserSatisfySize_eq]
      exact List.length_filter_le _ _
    have hdomain : (advertiserSatisfyDomain faults db request adses).length ≤ adses.length := by
      rw [advertiserSatisfyDomain_kept]
      exact List.length_filter_le _ _
    have hpassed : (passedOn faults db request adses).length
        ≤ (advertiserSatisfyDomain faults db request adses).length :=
      List.length_filter_le _ _
    rw [length_fetchCalls faults db request hfetch]
    omega
  · rw [fetchCalls, hfetch]
    exact Nat.le_add_right 1 _

/-- The log of an auction. -/
theorem log_perm :
    (run (Logged.auction runtime faults db request) []).2.Perm (fetchCalls faults db request) := by
  have hlogs := auction_logs runtime faults db request
  obtain ⟨out, -, hout, -⟩ := auction_reaching faults db request runtime
  have heq := hlogs.eq [] out trivial ((hlogs.failStop.eq_of_empty trivial).trans hout)
  simpa using heq

theorem length_log_le :
    (run (Logged.auction runtime faults db request) []).2.length ≤ 1 + 5 * db.adses.length :=
  (log_perm runtime faults db request).length_eq.trans_le (length_fetchCalls_le faults db request)

/-- **Every fetch once.** Whatever the database holds, whatever fails and however the map
is ranged over, an auction makes no fetch twice, and at most five for each ad. -/
theorem auction_fetchesOnce :
    let out := run (Logged.auction runtime faults db request) []
    out.1 = auction runtime faults db request ∧ out.2.Nodup
      ∧ out.2.length ≤ 1 + 5 * db.adses.length :=
  ⟨(auction_logs runtime faults db request).failStop.eq_of_empty trivial,
    (log_perm runtime faults db request).nodup_iff.mpr (fetchCalls_nodup faults db request),
    length_log_le runtime faults db request⟩

end Once

end Go

end AuctionWorker
