import AuctionWorker.Documented
import AuctionWorker.FirstFault
import AuctionWorker.PyAuction

/-!
# The connections of a Python auction

`python/connector/mysql_connector.py` with the connections it opens and closes,
under any pattern of exceptions of the MySQL driver. A fetch opens a connection
in `fetchModels` or `fetchModelByID` and closes it in the `__exit__` of the
results that they return, so that a connection is lost when `cursor()` or
`execute()` raises before there are results, or `cursor.close()` before the
connection is closed.

No exception is caught on the way out of an auction. So the first exception of
the driver ends it, and decides whether every connection has been closed
(`auction_closesAll_iff`).
-/

namespace AuctionWorker

namespace Py

variable {χ ρ α : Type}

/-! ## `connector/mysql_connector.py` -/

/-- Which calls on the driver raise in one fetch. -/
structure Raises where
  connect : Bool
  cursor : Bool
  execute : Bool
  /-- `cursor.fetchone()` or `cursor.fetchall()` -/
  fetch : Bool
  cursorClose : Bool
  close : Bool
deriving Repr, DecidableEq

/-- The connections of a run. A connection is named by the number of calls of
`connect` before its own. -/
structure Connections where
  calls : ℕ
  /-- what `connect` returned -/
  opened : List ℕ
  /-- the calls of `close()` -/
  closed : List ℕ
deriving Repr, DecidableEq

abbrev Session : Type → Type :=
  ExceptT PyException (StateM Connections)

section MySQLConnector

-- what the driver does, by the number of calls of `connect` before the fetch
variable (driver : ℕ → Raises)

/-- A call on the driver that returns, or raises. -/
def call (raises : Bool) : Session Unit :=
  if raises then throw .driver else pure ()

/-- `mysql.connector.connect(…)` -/
def connect : Session ℕ := do
  let conn := (← get).calls
  modify fun connections => { connections with calls := conn + 1 }
  call (driver conn).connect
  modify fun connections => { connections with opened := connections.opened ++ [conn] }
  pure conn

/-- `conn.close()` -/
def close (conn : ℕ) : Session Unit := do
  modify fun connections => { connections with closed := connections.closed ++ [conn] }
  call (driver conn).close

/-- `fetchModels` and `fetchModelByID`; the `MySQLResults` hold the connection. -/
def fetchModels : Session ℕ := do
  let conn ← connect driver
  call (driver conn).cursor
  call (driver conn).execute
  pure conn

/-- `MySQLResults.__exit__` -/
def exit (conn : ℕ) : Session Unit := do
  call (driver conn).cursorClose
  close driver conn

/-- A `with` statement over the results. `__exit__` runs however the body ends, and
what it raises replaces an exception of the body. -/
def withResults (conn : ℕ) (body : Session α) : Session α := do
  let result ← observing body
  exit driver conn
  MonadExcept.ofExcept result

def trackedConnector : MySQLConnector Session where
  fetch rows body := do
    let conn ← fetchModels driver
    withResults driver conn do
      call (driver conn).fetch
      MonadExcept.ofExcept (body rows)

end MySQLConnector

/-! ## Which connections are closed -/

/-- The calls of a fetch in which nothing raises. -/
def Raises.quiet : Raises :=
  ⟨false, false, false, false, false, false⟩

/-- A connection is made, and an exception comes before it is closed. -/
def Raises.Leaks (raises : Raises) : Prop :=
  raises.connect = false
    ∧ (raises.cursor = true ∨ raises.execute = true ∨ raises.cursorClose = true)

/-- Every connection has been closed, and closed once. -/
def Connections.ClosesAll (connections : Connections) : Prop :=
  ∀ conn ∈ connections.opened, connections.closed.count conn = 1

/-- What holds between the fetches. -/
structure Connections.Balanced (connections : Connections) : Prop where
  closesAll : connections.ClosesAll
  opened_lt : ∀ conn ∈ connections.opened, conn < connections.calls
  closed_lt : ∀ conn ∈ connections.closed, conn < connections.calls

namespace Connections

/-- After a call of `connect` that raises. -/
def refused (connections : Connections) : Connections :=
  { connections with calls := connections.calls + 1 }

/-- After a call of `connect` that returns. -/
def accepted (connections : Connections) : Connections :=
  { connections.refused with opened := connections.opened ++ [connections.calls] }

/-- After a fetch that closes its connection. -/
def finished (connections : Connections) : Connections :=
  { connections.accepted with closed := connections.closed ++ [connections.calls] }

variable {connections : Connections}

theorem Balanced.refused_closesAll (h : connections.Balanced) : connections.refused.ClosesAll :=
  h.closesAll

theorem Balanced.not_accepted_closesAll (h : connections.Balanced) :
    ¬connections.accepted.ClosesAll := by
  intro hcloses
  have hone : connections.closed.count connections.calls = 1 :=
    hcloses connections.calls (List.mem_append_right _ (List.mem_singleton_self _))
  have hmem : connections.calls ∈ connections.closed := List.count_pos_iff.mp (by omega)
  exact lt_irrefl _ (h.closed_lt _ hmem)

/-- The next name is larger than all before it. -/
theorem lt_succ_of_mem_append {conns : List ℕ} {n : ℕ} (h : ∀ conn ∈ conns, conn < n) :
    ∀ conn ∈ conns ++ [n], conn < n + 1 := by
  intro conn hconn
  rcases List.mem_append.mp hconn with hold | hlast
  · exact (h conn hold).trans (Nat.lt_succ_self _)
  · obtain rfl := List.mem_singleton.mp hlast
    exact Nat.lt_succ_self _

theorem Balanced.finished (h : connections.Balanced) : connections.finished.Balanced := by
  have hnew : connections.closed.count connections.calls = 0 :=
    List.count_eq_zero.mpr fun hmem => lt_irrefl _ (h.closed_lt _ hmem)
  refine ⟨?_, lt_succ_of_mem_append h.opened_lt, lt_succ_of_mem_append h.closed_lt⟩
  intro conn hconn
  have hcount : connections.finished.closed.count conn
      = connections.closed.count conn + [connections.calls].count conn := List.count_append
  rw [hcount]
  rcases List.mem_append.mp hconn with hold | hlast
  · have hne : connections.calls ≠ conn := (h.opened_lt conn hold).ne'
    rw [h.closesAll conn hold, List.count_singleton, if_neg (by simpa using hne)]
  · obtain rfl := List.mem_singleton.mp hlast
    rw [hnew, List.count_singleton_self]

end Connections

/-! ## What a fetch does -/

section Fetch

open FirstFault

variable (driver : ℕ → Raises) (s : Connections)

theorem run_call (raises : Bool) :
    run (call raises) s = if raises then (.error .driver, s) else (.ok (), s) := by
  cases raises with
  | false => rfl
  | true => rfl

theorem run_connect :
    run (connect driver) s
      = if (driver s.calls).connect then (.error .driver, s.refused)
        else (.ok s.calls, s.accepted) := by
  have hcall : run (connect driver) s = run (do
      call (driver s.calls).connect
      modify fun connections => { connections with opened := connections.opened ++ [s.calls] }
      pure s.calls) s.refused := rfl
  rw [hcall, run_bind_ite (run_call s.refused _)]
  rfl

/-- `__exit__` leaves the connection open if the cursor does not close. -/
theorem run_exit (conn : ℕ) :
    run (exit driver conn) s
      = if (driver conn).cursorClose then (.error .driver, s)
        else run (call (driver conn).close) { s with closed := s.closed ++ [conn] } := by
  rw [exit, run_bind_ite (run_call s _)]
  rfl

/-- A body that leaves the connections alone. -/
theorem run_withResults (conn : ℕ) {body : Session α} {result : Except PyException α}
    (hbody : run body s = (result, s)) :
    run (withResults driver conn body) s
      = if (driver conn).cursorClose then (.error .driver, s)
        else (if (driver conn).close then .error .driver else result,
          { s with closed := s.closed ++ [conn] }) := by
  rw [withResults, run_bind_ok (run_observing hbody)]
  have hexit := run_exit driver s conn
  by_cases hcursor : (driver conn).cursorClose
  · rw [if_pos hcursor] at hexit ⊢
    exact run_bind_error hexit
  · rw [if_neg hcursor, run_call] at hexit
    rw [if_neg hcursor, run_bind_ite hexit, run_ofExcept]
    split <;> rfl

/-- The result of a fetch, and what it leaves of the connections. -/
theorem run_fetch (rows : List ρ) (body : List ρ → Except PyException α) :
    run ((trackedConnector driver).fetch rows body) s
      = if (driver s.calls).connect then (.error .driver, s.refused)
        else if (driver s.calls).cursor || (driver s.calls).execute
          || (driver s.calls).cursorClose then (.error .driver, s.accepted)
        else (if (driver s.calls).close || (driver s.calls).fetch then .error .driver
          else body rows, s.finished) := by
  have hbody : run (do
        call (driver s.calls).fetch
        (MonadExcept.ofExcept (body rows) : Session α)) s.accepted
      = (if (driver s.calls).fetch then .error .driver else body rows, s.accepted) := by
    rw [run_bind_ite (run_call s.accepted _), run_ofExcept]
    split <;> rfl
  simp only [trackedConnector, fetchModels, bind_assoc, pure_bind]
  rw [run_bind_ite (run_connect driver s), run_bind_ite (run_call s.accepted _),
    run_bind_ite (run_call s.accepted _), run_withResults driver s.accepted s.calls hbody]
  -- the three calls before the connection is closed, in one condition
  cases (driver s.calls).cursor with
  | true => rfl
  | false =>
      cases (driver s.calls).execute with
      | true => rfl
      | false =>
          cases (driver s.calls).close with
          | true => rfl
          | false => rfl

end Fetch

/-! ## Auctions -/

/-- The driver raises in the fetch of this number. -/
def Raised (driver : ℕ → Raises) (n : ℕ) : Prop :=
  driver n ≠ .quiet

/-- Faults are exceptions of the driver; a fetch with a fault loses its connection
or not. -/
def setting (driver : ℕ → Raises) : FirstFault.Setting Connections where
  clock := Connections.calls
  Fault := Raised driver
  Inv := Connections.Balanced
  Broken n connections := connections.ClosesAll ↔ ¬(driver n).Leaks

section Follows

open FirstFault

variable (driver : ℕ → Raises) (db : Database χ) (request : Request χ)

/-- A driver that never raises. -/
abbrev quietDriver : ℕ → Raises :=
  fun _ => .quiet

theorem run_fetch_of_quiet {driver : ℕ → Raises} {s : Connections} (h : driver s.calls = .quiet)
    (rows : List ρ) (body : List ρ → Except PyException α) :
    run ((trackedConnector driver).fetch rows body) s = (body rows, s.finished) := by
  rw [run_fetch, h]
  rfl

/-- A fetch in which the driver raises ends in an exception, and leaves a connection
open only if it leaks. -/
theorem run_fetch_of_raised {driver : ℕ → Raises} {s : Connections} (hs : s.Balanced)
    (h : Raised driver s.calls) (rows : List ρ) (body : List ρ → Except PyException α) :
    ∃ err s', run ((trackedConnector driver).fetch rows body) s = (.error err, s')
      ∧ (s'.ClosesAll ↔ ¬(driver s.calls).Leaks) := by
  rw [run_fetch]
  by_cases hconnect : (driver s.calls).connect
  · refine ⟨_, _, if_pos hconnect, iff_of_true hs.refused_closesAll fun hleaks => ?_⟩
    rw [hleaks.1] at hconnect
    cases hconnect
  · rw [if_neg hconnect]
    by_cases hlost : (driver s.calls).cursor || (driver s.calls).execute
      || (driver s.calls).cursorClose
    · refine ⟨_, _, if_pos hlost, iff_of_false hs.not_accepted_closesAll fun hkept => hkept ?_⟩
      simp only [Bool.or_eq_true, or_assoc] at hlost
      exact ⟨Bool.eq_false_of_not_eq_true hconnect, hlost⟩
    · rw [if_neg hlost]
      have hlate : (driver s.calls).close || (driver s.calls).fetch := by
        by_contra hnone
        refine h ?_
        revert hconnect hlost hnone
        generalize driver s.calls = raises
        intro hconnect hlost hnone
        cases raises
        simp_all [Raises.quiet]
      refine ⟨.driver, s.finished, by rw [if_pos hlate], iff_of_true hs.finished.closesAll ?_⟩
      intro hleaks
      refine hlost ?_
      simp only [Bool.or_eq_true, or_assoc]
      exact hleaks.2

theorem fetch_follows (rows : List ρ) (body : List ρ → Except PyException α) :
    Follows (setting driver) ((trackedConnector driver).fetch rows body)
      ((trackedConnector quietDriver).fetch rows body) := by
  have hquiet : ∀ s, run ((trackedConnector quietDriver).fetch rows body) s
      = (body rows, s.finished) := fun s => run_fetch_of_quiet rfl rows body
  constructor
  · intro s
    rw [hquiet]
    exact Nat.le_succ _
  · intro s hs
    rw [hquiet]
    exact Connections.Balanced.finished hs
  · intro s hnone
    rw [hquiet] at hnone ⊢
    exact run_fetch_of_quiet (not_not.mp (hnone s.calls le_rfl (Nat.lt_succ_self _))) rows body
  · intro s n hs hfirst
    rw [hquiet] at hfirst
    obtain rfl : s.calls = n := le_antisymm hfirst.start_le (Nat.le_of_lt_succ hfirst.lt_finish)
    exact run_fetch_of_raised hs hfirst.fault rows body

theorem fetchAdses_follows :
    Follows (setting driver) (fetchAdses (trackedConnector driver) db)
      (fetchAdses (trackedConnector quietDriver) db) :=
  fetch_follows driver _ _

theorem fetchAdvertiser_follows (advertiserId : ℕ) :
    Follows (setting driver) (fetchAdvertiser (trackedConnector driver) db advertiserId)
      (fetchAdvertiser (trackedConnector quietDriver) db advertiserId) :=
  fetch_follows driver _ _

theorem sizeStep_follows (adses : List (Ads χ)) (ads : Ads χ) :
    Follows (setting driver) (sizeStep (trackedConnector driver) db request adses ads)
      (sizeStep (trackedConnector quietDriver) db request adses ads) := by
  refine (fetch_follows driver _ _).bind fun adSize => ?_
  cases adSize with
  | none => exact .pure _
  | some adSize =>
      dsimp only
      split
      · exact .pure _
      · exact .pure _

theorem featureStep_follows (features : List AdsFeature) (ads : Ads χ) :
    Follows (setting driver) (featureStep (trackedConnector driver) db features ads)
      (featureStep (trackedConnector quietDriver) db features ads) := by
  refine (fetch_follows driver _ _).bind fun adsFeature => ?_
  cases adsFeature with
  | none => exact .pure _
  | some adsFeature => exact .pure _

theorem blocked_follows (ads : Ads χ) :
    Follows (setting driver) (blocked (trackedConnector driver) db request ads)
      (blocked (trackedConnector quietDriver) db request ads) := by
  refine (fetchAdvertiser_follows driver db _).bind fun advertiser => ?_
  refine (fetch_follows driver _ _).bind fun blocking => ?_
  cases advertiser with
  | none => exact .pure _
  | some advertiser =>
      cases blocking with
      | none => exact .pure _
      | some blocking => exact .pure _

theorem categoryStep_follows (groups : List (ℕ × List (Ads χ))) (ads : Ads χ) :
    Follows (setting driver) (categoryStep (trackedConnector driver) db request groups ads)
      (categoryStep (trackedConnector quietDriver) db request groups ads) := by
  refine (blocked_follows driver db request ads).bind fun isBlocked => ?_
  split
  · exact .pure _
  · exact .pure _

theorem targetStep_follows (adsTargetted : List (Ads χ)) (group : ℕ × List (Ads χ)) :
    Follows (setting driver) (targetStep (trackedConnector driver) db request adsTargetted group)
      (targetStep (trackedConnector quietDriver) db request adsTargetted group) := by
  refine (Follows.foldlM (featureStep_follows driver db) group.2 []).bind fun features => ?_
  split
  · exact (Follows.ofExcept _).bind fun bestAds => .pure _
  · exact .pure _

variable [DecidableEq χ]

theorem domainStep_follows (adses : List (Ads χ)) (ads : Ads χ) :
    Follows (setting driver) (domainStep (trackedConnector driver) db request adses ads)
      (domainStep (trackedConnector quietDriver) db request adses ads) := by
  refine (fetchAdvertiser_follows driver db _).bind fun advertiser => ?_
  cases advertiser with
  | none => exact .pure _
  | some advertiser =>
      dsimp only
      split
      · exact .pure _
      · exact .pure _

theorem adsSatisfyDomain_follows :
    Follows (setting driver) (adsSatisfyDomain (trackedConnector driver) db request)
      (adsSatisfyDomain (trackedConnector quietDriver) db request) := by
  refine (fetchAdses_follows driver db).bind fun adses => ?_
  refine (Follows.foldlM (sizeStep_follows driver db request) adses []).bind fun sized => ?_
  exact Follows.foldlM (domainStep_follows driver db request) sized []

theorem advertiserAdses_follows :
    Follows (setting driver) (advertiserAdses (trackedConnector driver) db request)
      (advertiserAdses (trackedConnector quietDriver) db request) :=
  (adsSatisfyDomain_follows driver db request).bind fun adses =>
    Follows.foldlM (categoryStep_follows driver db request) adses []

/-- Up to the first exception of the driver, an auction is the undisturbed one. -/
theorem auction_follows :
    Follows (setting driver) (auction (trackedConnector driver) db request)
      (auction (trackedConnector quietDriver) db request) := by
  have hwinner : Follows (setting driver) (auctionWinner (trackedConnector driver) db request)
      (auctionWinner (trackedConnector quietDriver) db request) := by
    refine (advertiserAdses_follows driver db request).bind fun groups => ?_
    refine (Follows.foldlM (targetStep_follows driver db request) groups []).bind ?_
    exact fun adsTargetted => .pure _
  exact hwinner.bind fun winner => .pure _

end Follows

section Auction

variable [DecidableEq χ] (driver : ℕ → Raises) (db : Database χ) (request : Request χ)

/-- What an auction returns or raises, and the connections when it has. -/
def auctionSession : Except PyException (Option (Response χ)) × Connections :=
  (auction (trackedConnector driver) db request).run ⟨0, [], []⟩

/-- The number of fetches of an auction whose driver never raises. If the auction
returns, the stored rows determine it (`fetches_eq`). -/
def fetches : ℕ :=
  (auctionSession quietDriver db request).2.calls

/-- The first fetch of the auction in which the driver raises, if there is one, does
not leak its connection. -/
def FirstRaiseCloses : Prop :=
  ∀ n < fetches db request, Raised driver n → (∀ k < n, ¬Raised driver k) → ¬(driver n).Leaks

/-- **Closed connections.** When an auction has ended, every connection it opened has
been closed once, exactly if the first exception of the driver lets it. -/
theorem auction_closesAll_iff :
    (auctionSession driver db request).2.ClosesAll ↔ FirstRaiseCloses driver db request := by
  have hstart : Connections.Balanced ⟨0, [], []⟩ := by
    refine ⟨?_, ?_, ?_⟩
    · intro conn hconn
      cases hconn
    · intro conn hconn
      cases hconn
    · intro conn hconn
      cases hconn
  have hiff := (auction_follows driver db request).holds_iff Connections.ClosesAll
    (fun n => (driver n).Leaks) (fun s hs => hs.closesAll) (fun n s _ hs => hs) hstart
  refine hiff.trans ⟨fun h n hlt hraised hquiet => ?_, fun h n hfirst => ?_⟩
  · exact h n ⟨Nat.zero_le n, hlt, hraised, fun k _ => hquiet k⟩
  · exact h n hfirst.lt_finish hfirst.fault fun k => hfirst.quiet k (Nat.zero_le k)

end Auction

/-! ## A connection that stays open -/

open Documented

/-- The query for the ads raises. -/
def executeFault : ℕ → Raises
  | 0 => ⟨false, false, true, false, false, false⟩
  | _ => .quiet

theorem auction_executeFault :
    auctionSession executeFault tieDatabase tieRequest = (.error .driver, ⟨1, [0], []⟩)
      ∧ ¬(auctionSession executeFault tieDatabase tieRequest).2.ClosesAll := by
  have hsession : auctionSession executeFault tieDatabase tieRequest
      = (.error .driver, ⟨1, [0], []⟩) := rfl
  refine ⟨hsession, fun hcloses => ?_⟩
  rw [hsession] at hcloses
  have hone : ([] : List ℕ).count 0 = 1 := hcloses 0 (List.mem_singleton_self 0)
  cases hone

end Py

end AuctionWorker
