import AuctionWorker.CppAuction
import AuctionWorker.PyConnections

/-!
# The connections of a C++ auction

`cpp/src/connector/mysql_connector.cpp` with the connections it opens and the mutex it
locks, under any pattern of exceptions of the MySQL driver. The guard of the mutex and
the connection are objects of `fetchModels` and `fetchModelByID`, so that their
destructors run however the function ends; the rows are read after that.

No exception is caught on the way out of an auction, and outside of it there is only
libevent, so that an exception ends the process as an abort does.

However the driver throws, an auction leaves no connection open and the mutex unlocked,
and throws or comes to what it comes to over a driver that never throws
(`auction_makes`).
-/

namespace AuctionWorker

namespace Cpp

open FirstFault

variable {χ ρ α β : Type}

/-! ## `connector/mysql_connector.cpp` -/

/-- Which calls on the driver throw in one fetch. -/
structure Throws where
  connect : Bool
  /-- `createStatement()`, `prepareStatement(query)` or `setUInt(1, id)` -/
  statement : Bool
  executeQuery : Bool
  /-- `next()` or a getter of the result set -/
  read : Bool
deriving Repr, DecidableEq

/-- How the process ends. -/
inductive Stop where
  | abort (reason : Abort)
  | sqlException
  /-- the thread locks the mutex that it holds -/
  | deadlock
deriving Repr, DecidableEq

structure Resources where
  connections : Py.Connections
  /-- `mut` is held by this thread. -/
  locked : Bool
deriving Repr, DecidableEq

abbrev Session : Type → Type :=
  ExceptT Stop (StateM Resources)

/-- An object that lives to the end of a scope: `body` runs between its constructor and
its destructor, which runs however the body ends. -/
def withObject (constructor : Session α) (destructor : α → Session Unit) (body : α → Session β) :
    Session β := do
  let object ← constructor
  let result ← observing (body object)
  destructor object
  MonadExcept.ofExcept result

section MySQLConnector

-- what the driver does, by the number of calls of `connect` before the fetch
variable (driver : ℕ → Throws)

/-- A call on the driver that returns, or throws. -/
def call (throws : Bool) : Session Unit :=
  if throws then throw .sqlException else pure ()

/-- `driver->connect(…)` -/
def connect : Session ℕ := do
  let con := (← get).connections.calls
  modify fun s => { s with connections := s.connections.refused }
  call (driver con).connect
  modify fun s => { s with
    connections := { s.connections with opened := s.connections.opened ++ [con] } }
  pure con

/-- `~Connection` -/
def close (con : ℕ) : Session Unit :=
  modify fun s => { s with
    connections := { s.connections with closed := s.connections.closed ++ [con] } }

/-- `mut.lock()` -/
def lock : Session Unit := do
  if (← get).locked then throw .deadlock else modify fun s => { s with locked := true }

/-- `mut.unlock()` -/
def unlock : Session Unit :=
  modify fun s => { s with locked := false }

/-- `fetchModels` and `fetchModelByID` -/
def fetchModels : Session ℕ :=
  withObject lock (fun _ => unlock) fun _ =>
    withObject (connect driver) close fun con => do
      call (driver con).statement
      call (driver con).executeQuery
      pure con

end MySQLConnector

/-- A query that selects `rows`, and what the fetcher makes of them. -/
structure MySQLConnector (m : Type → Type) where
  fetch : {ρ α : Type} → List ρ → (List ρ → α) → m α

def trackedConnector (driver : ℕ → Throws) : MySQLConnector Session where
  fetch rows body := do
    let con ← fetchModels driver
    call (driver con).read
    pure (body rows)

/-! ## One fetch -/

/-- The calls of a fetch in which nothing throws. -/
def Throws.quiet : Throws :=
  ⟨false, false, false, false⟩

/-- No connection is left open, and the mutex is free. -/
def Resources.Released (s : Resources) : Prop :=
  s.connections.Balanced ∧ s.locked = false

section Fetch

variable (driver : ℕ → Throws) (s : Resources)

theorem run_call (throws : Bool) :
    run (call throws) s = if throws then (.error .sqlException, s) else (.ok (), s) := by
  cases throws with
  | false => rfl
  | true => rfl

/-- The constructor succeeds: what the scope ends with is what its body ends with. -/
theorem run_withObject {constructor : Session α} {destructor : α → Session Unit}
    {body : α → Session β} {object : α} {s s₁ s₂ s₃ : Resources} {r : Except Stop β}
    (hconstructor : run constructor s = (.ok object, s₁)) (hbody : run (body object) s₁ = (r, s₂))
    (hdestructor : run (destructor object) s₂ = (.ok (), s₃)) :
    run (withObject constructor destructor body) s = (r, s₃) := by
  rw [withObject, run_bind_ok hconstructor, run_bind_ok (run_observing hbody),
    run_bind_ok hdestructor, run_ofExcept]

/-- The constructor throws: there is nothing to destroy. -/
theorem run_withObject_error {constructor : Session α} {destructor : α → Session Unit}
    {body : α → Session β} {s s₁ : Resources} {err : Stop}
    (hconstructor : run constructor s = (.error err, s₁)) :
    run (withObject constructor destructor body) s = (.error err, s₁) :=
  run_bind_error hconstructor

theorem run_lock (h : s.locked = false) : run lock s = (.ok (), { s with locked := true }) := by
  have hlock : run lock s
      = run (if s.locked then throw .deadlock else modify fun s => { s with locked := true }) s :=
    rfl
  rw [hlock, h]
  rfl

theorem run_connect :
    run (connect driver) s
      = if (driver s.connections.calls).connect then
          (.error .sqlException, { s with connections := s.connections.refused })
        else (.ok s.connections.calls, { s with connections := s.connections.accepted }) := by
  have hcall : run (connect driver) s = run (do
      call (driver s.connections.calls).connect
      modify fun t => { t with
        connections := { t.connections with
          opened := t.connections.opened ++ [s.connections.calls] } }
      pure s.connections.calls) { s with connections := s.connections.refused } := rfl
  rw [hcall, run_bind_ite (run_call _ _)]
  rfl

/-- The statement and the query, and the connection closed after them. -/
theorem run_fetchModels (h : s.locked = false) :
    run (fetchModels driver) s
      = if (driver s.connections.calls).connect then
          (.error .sqlException, { s with connections := s.connections.refused })
        else (if (driver s.connections.calls).statement
            || (driver s.connections.calls).executeQuery then .error .sqlException
          else .ok s.connections.calls, { s with connections := s.connections.finished }) := by
  have hbody : ∀ t : Resources, run (do
        call (driver s.connections.calls).statement
        call (driver s.connections.calls).executeQuery
        pure s.connections.calls) t
      = (if (driver s.connections.calls).statement
          || (driver s.connections.calls).executeQuery then .error .sqlException
        else .ok s.connections.calls, t) := by
    intro t
    rw [run_bind_ite (run_call t _), run_bind_ite (run_call t _)]
    cases (driver s.connections.calls).statement with
    | true => rfl
    | false => cases (driver s.connections.calls).executeQuery <;> rfl
  have hunlocked : ∀ connections : Py.Connections,
      ({ connections := connections, locked := false } : Resources)
        = { s with connections := connections } := by
    intro connections
    rw [← h]
  have hconnect := run_connect driver { s with locked := true }
  by_cases hthrows : (driver s.connections.calls).connect
  · rw [if_pos hthrows] at hconnect ⊢
    refine (run_withObject (run_lock s h) (run_withObject_error hconnect) rfl).trans ?_
    exact congrArg _ (hunlocked _)
  · rw [if_neg hthrows] at hconnect ⊢
    have hinner : run (withObject (connect driver) close fun con => do
          call (driver con).statement
          call (driver con).executeQuery
          pure con) { s with locked := true }
        = (if (driver s.connections.calls).statement
            || (driver s.connections.calls).executeQuery then .error .sqlException
          else .ok s.connections.calls, ⟨s.connections.finished, true⟩) :=
      run_withObject hconnect (hbody _) rfl
    refine (run_withObject (run_lock s h) hinner rfl).trans ?_
    exact congrArg _ (hunlocked _)

end Fetch

theorem Resources.Released.refused {s : Resources} (h : s.Released) :
    Resources.Released { s with connections := s.connections.refused } := by
  obtain ⟨⟨hcloses, hopened, hclosed⟩, hlocked⟩ := h
  refine ⟨⟨hcloses, fun conn hconn => ?_, fun conn hconn => ?_⟩, hlocked⟩
  · exact (hopened conn hconn).trans (Nat.lt_succ_self _)
  · exact (hclosed conn hconn).trans (Nat.lt_succ_self _)

theorem Resources.Released.finished {s : Resources} (h : s.Released) :
    Resources.Released { s with connections := s.connections.finished } :=
  ⟨h.1.finished, h.2⟩

/-- However the driver throws, `x` releases what it takes, and throws one of the faults
or comes to the outcome. -/
abbrev Closes (faults : Set Stop) (x : Session α) (outcome : Except Stop α) : Prop :=
  FailStop Resources.Released faults x outcome

/-- The number of calls of `connect`. -/
def Resources.calls (s : Resources) : ℕ :=
  s.connections.calls

/-- `x` closes, and makes up to `n` fetches, and `n` of them if it returns. -/
abbrev Makes (faults : Set Stop) (x : Session α) (outcome : Except Stop α) (n : ℕ) : Prop :=
  Metered Resources.Released faults Resources.calls x outcome n

/-- How a fetch ends. -/
theorem run_fetch_cases (driver : ℕ → Throws) (rows : List ρ) (body : List ρ → α) {s : Resources}
    (hs : s.Released) : ∃ r s', run ((trackedConnector driver).fetch rows body) s = (r, s')
      ∧ s'.Released ∧ s'.calls = s.calls + 1
      ∧ (r = .ok (body rows) ∨ r = .error .sqlException ∧ driver s.calls ≠ .quiet) := by
  have hmodels := run_fetchModels driver s hs.2
  have hquiet : ∀ {p : Throws → Bool}, p .quiet = false → p (driver s.connections.calls) = true →
      driver s.calls ≠ .quiet := by
    intro p hp hthrows heq
    rw [show driver s.connections.calls = .quiet from heq, hp] at hthrows
    cases hthrows
  by_cases hconnect : (driver s.connections.calls).connect
  · rw [if_pos hconnect] at hmodels
    exact ⟨_, _, run_bind_error hmodels, hs.refused, rfl, .inr ⟨rfl, hquiet rfl hconnect⟩⟩
  · rw [if_neg hconnect] at hmodels
    by_cases hquery : (driver s.connections.calls).statement
        || (driver s.connections.calls).executeQuery
    · rw [if_pos hquery] at hmodels
      refine ⟨_, _, run_bind_error hmodels, hs.finished, rfl, .inr ⟨rfl, ?_⟩⟩
      exact hquiet (p := fun throws => throws.statement || throws.executeQuery) rfl hquery
    · rw [if_neg hquery] at hmodels
      have hrun : run ((trackedConnector driver).fetch rows body) s
          = if (driver s.connections.calls).read then
              (.error .sqlException, { s with connections := s.connections.finished })
            else (.ok (body rows), { s with connections := s.connections.finished }) :=
        (run_bind_ok hmodels).trans (run_bind_ite (run_call _ _))
      by_cases hread : (driver s.connections.calls).read
      · rw [if_pos hread] at hrun
        exact ⟨_, _, hrun, hs.finished, rfl, .inr ⟨rfl, hquiet rfl hread⟩⟩
      · rw [if_neg hread] at hrun
        exact ⟨_, _, hrun, hs.finished, rfl, .inl rfl⟩

/-- **One fetch** closes what it has opened and unlocks what it has locked, and throws
or delivers its rows. -/
theorem fetch_makes {driver : ℕ → Throws} {faults : Set Stop}
    (hdriver : ∀ n, driver n ≠ .quiet → .sqlException ∈ faults) (rows : List ρ)
    (body : List ρ → α) :
    Makes faults ((trackedConnector driver).fetch rows body) (.ok (body rows)) 1 := by
  refine ⟨fun s hs => ?_, fun s hs => ?_, fun s a hs _ => ?_⟩
  · obtain ⟨r, s', hrun, hs', -, hr⟩ := run_fetch_cases driver rows body hs
    rw [hrun]
    refine ⟨hs', ?_⟩
    rcases hr with rfl | ⟨rfl, hthrows⟩
    · exact .inr rfl
    · exact .inl ⟨_, hdriver _ hthrows, rfl⟩
  · obtain ⟨r, s', hrun, -, hcalls, -⟩ := run_fetch_cases driver rows body hs
    rw [hrun]
    exact hcalls.le
  · obtain ⟨r, s', hrun, -, hcalls, -⟩ := run_fetch_cases driver rows body hs
    rw [hrun]
    exact hcalls

/-! ## The auction over a connector -/

namespace Tracked

section Fetch

variable {m : Type → Type} (connector : MySQLConnector m) (db : Database χ)

def fetchAdses : m (List (Ads χ)) :=
  connector.fetch db.selectAdses fun rows => rows

def fetchAdSize (sizeId : ℕ) : m (Option AdSize) :=
  connector.fetch (db.selectAdSize sizeId) fun
    | [] => none
    | row :: _ => some ⟨sizeId, row.adsWidth, row.adsHeight⟩

def fetchCategoryBlocking (advertiserId : ℕ) : m (Option CategoryBlocking) :=
  connector.fetch (db.selectCategoryIds advertiserId) fun categoryIds =>
    if categoryIds.isEmpty then none else some ⟨advertiserId, categoryIds⟩

def fetchAdvertiser (advertiserId : ℕ) : m (Option (Advertiser χ ℤ)) :=
  connector.fetch (db.selectAdvertiser advertiserId) fun
    | [] => none
    | row :: _ =>
        let categoryBlockingType : ℤ :=
          match row.categoryBlockingType with
          | none => 0
          | some type => type.val
        some ⟨advertiserId, row.advertiserName, categoryBlockingType, row.domain⟩

def fetchAdsFeature (adsId : ℕ) : m (Option AdsFeature) :=
  connector.fetch (db.selectAdsFeature adsId) fun
    | [] => none
    | row :: _ => some ⟨adsId, row.feature⟩

end Fetch

section Auction

variable [DecidableEq χ] {m : Type → Type} [Monad m] [MonadExceptOf Stop m]
  (connector : MySQLConnector m) (db : Database χ) (request : Request χ)

/-- A part of the auction that makes no fetch. -/
def ofAbort (r : Except Abort α) : m α :=
  MonadExcept.ofExcept (r.mapError Stop.abort)

def sizeStep (adsesSatisfySize : List (Ads χ)) (ads : Ads χ) : m (List (Ads χ)) := do
  match ← fetchAdSize connector db ads.sizeId with
  | none => pure adsesSatisfySize
  | some adSize =>
      if adSize.adsWidth = request.zoneWidth ∧ adSize.adsHeight = request.zoneHeight then
        pure (adsesSatisfySize ++ [ads])
      else pure adsesSatisfySize

def domainStep (adsSatisfyDomain : List (Ads χ)) (ads : Ads χ) : m (List (Ads χ)) := do
  match ← fetchAdvertiser connector db ads.advertiserId with
  | none => pure adsSatisfyDomain
  | some advertiser =>
      if isContainBlockDomain request.blockDomains advertiser.domain then pure adsSatisfyDomain
      else pure (adsSatisfyDomain ++ [ads])

def adsSatisfyDomain : m (List (Ads χ)) := do
  let adses ← fetchAdses connector db
  let adsesSatisfySize ← adses.foldlM (sizeStep connector db request) []
  adsesSatisfySize.foldlM (domainStep connector db request) []

def blocked (ads : Ads χ) : m Bool := do
  let advertiser ← fetchAdvertiser connector db ads.advertiserId
  let blocking ← fetchCategoryBlocking connector db ads.advertiserId
  match advertiser, blocking with
  | some advertiser, some blocking =>
      ofAbort (categoryBlocking advertiser blocking request.categoryIds)
  | _, _ => pure false

def categoryStep (advertiserAdses : List (ℕ × List (Ads χ))) (ads : Ads χ) :
    m (List (ℕ × List (Ads χ))) := do
  if ← blocked connector db request ads then pure advertiserAdses
  else pure (Grouping.pushBackOrd advertiserAdses ads.advertiserId ads)

def advertiserAdses : m (List (ℕ × List (Ads χ))) := do
  (← adsSatisfyDomain connector db request).foldlM (categoryStep connector db request) []

def featureStep (adsFeatures : List AdsFeature) (ads : Ads χ) : m (List AdsFeature) := do
  match ← fetchAdsFeature connector db ads.adsId with
  | none => pure adsFeatures
  | some adsFeature => pure (adsFeatures ++ [adsFeature])

def targetStep (adsTargetted : List (Ads χ)) (group : ℕ × List (Ads χ)) :
    m (List (Ads χ)) := do
  let adsFeatures ← group.2.foldlM (featureStep connector db) []
  if adsFeatures.isEmpty then pure adsTargetted
  else do
    let bestAds ← ofAbort (featureTargeting adsFeatures request.feature)
    match group.2.find? fun ads => ads.adsId = bestAds.adsId with
    | none => ofAbort (.error .assertion)
    | some ads => pure (adsTargetted ++ [ads])

def auctionWinner : m (Option (Ads χ)) := do
  let advertiserAdses ← advertiserAdses connector db request
  let adsTargetted ← advertiserAdses.foldlM (targetStep connector db request) []
  pure (sortByPrice adsTargetted).head?

def auction : m (Option (Response χ)) := do
  pure ((← auctionWinner connector db request).map (respond request))

end Auction

end Tracked

/-! ## A driver that throws -/

/-- The outcome over a driver that never throws. -/
def undisturbed (r : Except Abort α) : Except Stop α :=
  r.mapError Stop.abort

theorem undisturbed_bind (r : Except Abort α) (f : α → Except Abort β) :
    undisturbed (r >>= f) = undisturbed r >>= fun a => undisturbed (f a) := by
  cases r with
  | error err => rfl
  | ok a => rfl

theorem undisturbed_toOption (r : Except Abort α) : (undisturbed r).toOption = r.toOption := by
  cases r with
  | error err => rfl
  | ok a => rfl

theorem undisturbed_foldlM (f : β → α → Except Abort β) (l : List α) (b : β) :
    undisturbed (l.foldlM f b) = l.foldlM (fun b a => undisturbed (f b a)) b := by
  induction l generalizing b with
  | nil => rfl
  | cons a l ih =>
      rw [List.foldlM_cons, List.foldlM_cons, undisturbed_bind]
      exact congrArg _ (funext ih)

theorem makes_ofAbort {faults : Set Stop} (r : Except Abort α) :
    Makes faults (Tracked.ofAbort r) (undisturbed r) 0 := by
  cases r with
  | error err => exact .ofExcept (.error (Stop.abort err))
  | ok a => exact .ofExcept (.ok a)

/-- A loop that makes `n` fetches in every step. -/
theorem makes_foldlM {faults : Set Stop} {f : β → α → Session β} {g : β → α → Except Stop β}
    {n : ℕ} (hfg : ∀ b a, Makes faults (f b a) (g b a) n) (l : List α) (b : β) :
    Makes faults (l.foldlM f b) (l.foldlM g b) (l.length * n) := by
  have hfold := Metered.foldlM hfg l b
  rwa [List.map_const', List.sum_replicate, smul_eq_mul] at hfold

theorem makes_foldl {faults : Set Stop} {f : β → α → Session β} {g : β → α → β}
    (hfg : ∀ b a, Makes faults (f b a) (.ok (g b a)) 1) (l : List α) (b : β) :
    Makes faults (l.foldlM f b) (.ok (l.foldl g b)) l.length := by
  have hfold := makes_foldlM hfg l b
  rwa [mul_one, show (l.foldlM (fun b a => (.ok (g b a) : Except Stop β)) b) = .ok (l.foldl g b)
    from List.foldlM_pure] at hfold

section Auction

-- an exception of the driver counts among the faults, if there are any
variable {driver : ℕ → Throws} {faults : Set Stop}
  (hdriver : ∀ n, driver n ≠ .quiet → .sqlException ∈ faults) (db : Database χ)
  (request : Request χ)

include hdriver

theorem fetchAdvertiser_makes (advertiserId : ℕ) :
    Makes faults (Tracked.fetchAdvertiser (trackedConnector driver) db advertiserId)
      (.ok (fetchAdvertiser db advertiserId)) 1 :=
  fetch_makes hdriver _ _

theorem sizeStep_makes (adses : List (Ads χ)) (ads : Ads χ) :
    Makes faults (Tracked.sizeStep (trackedConnector driver) db request adses ads)
      (.ok (sizeStep db request adses ads)) 1 := by
  have hfetch : Makes faults (Tracked.fetchAdSize (trackedConnector driver) db ads.sizeId)
      (.ok (fetchAdSize db ads.sizeId)) 1 := fetch_makes hdriver _ _
  refine hfetch.bind_ok_free ?_
  rw [sizeStep]
  cases fetchAdSize db ads.sizeId with
  | none => exact .pure _
  | some adSize =>
      dsimp only
      split
      · exact .pure _
      · exact .pure _

theorem featureStep_makes (adsFeatures : List AdsFeature) (ads : Ads χ) :
    Makes faults (Tracked.featureStep (trackedConnector driver) db adsFeatures ads)
      (.ok (match fetchAdsFeature db ads.adsId with
        | none => adsFeatures
        | some adsFeature => adsFeatures ++ [adsFeature])) 1 := by
  have hfetch : Makes faults (Tracked.fetchAdsFeature (trackedConnector driver) db ads.adsId)
      (.ok (fetchAdsFeature db ads.adsId)) 1 := fetch_makes hdriver _ _
  refine hfetch.bind_ok_free ?_
  cases fetchAdsFeature db ads.adsId with
  | none => exact .pure _
  | some adsFeature => exact .pure _

theorem blocked_makes (ads : Ads χ) :
    Makes faults (Tracked.blocked (trackedConnector driver) db request ads)
      (undisturbed (blocked db request ads)) 2 := by
  have hblocking : Makes faults
      (Tracked.fetchCategoryBlocking (trackedConnector driver) db ads.advertiserId)
      (.ok (fetchCategoryBlocking db ads.advertiserId)) 1 := fetch_makes hdriver _ _
  refine (fetchAdvertiser_makes hdriver db _).bind_ok (m := 1) ?_
  refine hblocking.bind_ok_free ?_
  rw [blocked]
  cases fetchAdvertiser db ads.advertiserId with
  | none => exact .pure _
  | some advertiser =>
      cases fetchCategoryBlocking db ads.advertiserId with
      | none => exact .pure _
      | some blocking => exact makes_ofAbort _

theorem categoryStep_makes (groups : List (ℕ × List (Ads χ))) (ads : Ads χ) :
    Makes faults (Tracked.categoryStep (trackedConnector driver) db request groups ads)
      (undisturbed (categoryStep db request groups ads)) 2 := by
  rw [categoryStep, undisturbed_bind]
  refine (blocked_makes hdriver db request ads).bind_free fun isBlocked _ => ?_
  cases isBlocked with
  | true => exact .pure _
  | false => exact .pure _

/-- Every ad of a group has its feature fetched. -/
theorem targetStep_makes (adsTargetted : List (Ads χ)) (group : ℕ × List (Ads χ)) :
    Makes faults (Tracked.targetStep (trackedConnector driver) db request adsTargetted group)
      (undisturbed (targetStep db request adsTargetted group)) group.2.length := by
  have hfeatures := makes_foldl (featureStep_makes hdriver db) group.2 []
  refine hfeatures.bind_ok_free ?_
  rw [targetStep]
  show Makes faults (if (adsFeatures db group.2).isEmpty then _ else _) _ 0
  split
  · exact .pure _
  · rw [undisturbed_bind]
    refine (makes_ofAbort _).bind_free fun bestAds _ => ?_
    cases group.2.find? fun ads => ads.adsId = bestAds.adsId with
    | none => exact makes_ofAbort _
    | some ads => exact .pure _

variable [DecidableEq χ]

theorem domainStep_makes (adses : List (Ads χ)) (ads : Ads χ) :
    Makes faults (Tracked.domainStep (trackedConnector driver) db request adses ads)
      (.ok (domainStep db request adses ads)) 1 := by
  refine (fetchAdvertiser_makes hdriver db _).bind_ok_free ?_
  rw [domainStep]
  cases fetchAdvertiser db ads.advertiserId with
  | none => exact .pure _
  | some advertiser =>
      dsimp only
      split
      · exact .pure _
      · exact .pure _

/-- The fetches of an auction, loop by loop. -/
def fetchCount (db : Database χ) (request : Request χ) : ℕ :=
  1 + ((fetchAdses db).length + (adsesSatisfySize db request).length)
    + (adsSatisfyDomain db request).length * 2
    + (advertiserAdses db request).toOption.elim 0 fun groups =>
        (groups.map fun group => group.2.length).sum

theorem adsSatisfyDomain_makes :
    Makes faults (Tracked.adsSatisfyDomain (trackedConnector driver) db request)
      (.ok (adsSatisfyDomain db request))
      (1 + ((fetchAdses db).length + (adsesSatisfySize db request).length)) := by
  have hadses : Makes faults (Tracked.fetchAdses (trackedConnector driver) db)
      (.ok (fetchAdses db)) 1 :=
    fetch_makes hdriver _ _
  refine hadses.bind_ok ((makes_foldl (sizeStep_makes hdriver db request) _ []).bind_ok ?_)
  exact makes_foldl (domainStep_makes hdriver db request) _ []

/-- **However the driver throws**, an auction leaves no connection open and the mutex
unlocked, and throws or comes to what it comes to over a driver that never throws; it
makes no more fetches than its loops have, and all of them if it returns. -/
theorem auction_makes :
    Makes faults (Tracked.auction (trackedConnector driver) db request)
      (undisturbed (auction db request)) (fetchCount db request) := by
  have hgroups : Makes faults (Tracked.advertiserAdses (trackedConnector driver) db request)
      (undisturbed (advertiserAdses db request))
      (1 + ((fetchAdses db).length + (adsesSatisfySize db request).length)
        + (adsSatisfyDomain db request).length * 2) := by
    rw [advertiserAdses, undisturbed_foldlM]
    exact (adsSatisfyDomain_makes hdriver db request).bind_ok
      (makes_foldlM (categoryStep_makes hdriver db request) _ [])
  have hwinner : Makes faults (Tracked.auctionWinner (trackedConnector driver) db request)
      (undisturbed (auctionWinner db request)) (fetchCount db request) := by
    rw [auctionWinner, adsTargetted, undisturbed_bind, undisturbed_bind, bind_assoc, fetchCount,
      ← undisturbed_toOption]
    refine hgroups.bind_cost fun groups _ => ?_
    rw [undisturbed_foldlM]
    refine (Metered.foldlM (targetStep_makes hdriver db request) groups []).bind_free ?_
    exact fun adsTargetted _ => .pure _
  rw [auction, undisturbed_bind]
  exact hwinner.bind_free fun winner _ => .pure _

end Auction

/-- Before the first request. -/
def Resources.start : Resources :=
  ⟨⟨0, [], []⟩, false⟩

theorem Resources.released_start : Resources.start.Released :=
  ⟨⟨List.forall_mem_nil _, List.forall_mem_nil _, List.forall_mem_nil _⟩, rfl⟩

/-- The driver counts as one that throws. -/
theorem throws_mem (driver : ℕ → Throws) (n : ℕ) (_ : driver n ≠ .quiet) :
    Stop.sqlException ∈ ({.sqlException} : Set Stop) :=
  Set.mem_singleton _

end Cpp

end AuctionWorker
