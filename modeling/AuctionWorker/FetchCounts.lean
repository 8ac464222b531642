import AuctionWorker.CategoryTypes
import AuctionWorker.CppConnections
import AuctionWorker.GoFetchCalls
import AuctionWorker.PyFailStop

/-!
# How many fetches an auction makes

All three implementations of `auction` fetch in their loops, and every fetch opens a
connection. How many there are depends on how many ads pass the documented conditions
(`fetchCount`), and is the same for all three if the types they look at are documented.
An exception of the driver only cuts them short (`fetchedByAll`). A Python auction that
returns has looked at documented types only, so that it has made this many
(`Py.fetches_eq`).
-/

namespace AuctionWorker

namespace Documented

variable {χ : Type}

/-! ## The documented count -/

section Filters

variable (db : Database χ)

theorem length_selectAdses : db.selectAdses.length = db.adses.length :=
  List.length_insertionSort _ _

/-- The conditions are tested on the ads in the order of their ids. -/
theorem length_filter_selectAdses (p : Ads χ → Bool) :
    (db.selectAdses.filter p).length = db.adses.countP p := by
  rw [← List.countP_eq_length_filter]
  exact (List.perm_insertionSort _ _).countP_eq p

theorem length_filter_filter_selectAdses (p q : Ads χ → Prop) [DecidablePred p] [DecidablePred q] :
    ((db.selectAdses.filter fun ads => p ads).filter fun ads => q ads).length
      = db.adses.countP fun ads => p ads ∧ q ads := by
  rw [List.filter_filter, ← length_filter_selectAdses]
  congr 1
  refine List.filter_congr fun ads _ => ?_
  rw [Bool.and_comm, Bool.decide_and]

end Filters

section Count

variable [DecidableEq χ]

variable (db : Database χ) (request : Request χ)

/-- All ads, the size of each, the advertiser of each that has the size, the advertiser
and its categories again for each that is not blocked by its domain, and the feature of
each eligible one. -/
def fetchCount : ℕ :=
  1 + db.adses.length
    + db.adses.countP (fun ads => SizeMatches db request ads)
    + 2 * db.adses.countP (fun ads => SizeMatches db request ads ∧ DomainAllowed db request ads)
    + db.adses.countP fun ads => (SizeMatches db request ads ∧ DomainAllowed db request ads)
        ∧ CategoryAllowed db request ads

end Count

end Documented

open Documented

variable {χ : Type} [DecidableEq χ] {db : Database χ} {request : Request χ}

/-! ## The loops -/

theorem Cpp.fetchCount_eq (htypes : SizedTypes db request) :
    Cpp.fetchCount db request = Documented.fetchCount db request := by
  obtain ⟨groups, hgroups, hgrouped, -⟩ := Cpp.advertiserAdses_of_sizedTypes request htypes
  have hall : (Cpp.fetchAdses db).length = db.adses.length := length_selectAdses db
  rw [Cpp.adsSatisfyDomain_eq] at hgrouped
  rw [Cpp.fetchCount, hgroups, hall, Cpp.adsesSatisfySize_eq, Cpp.adsSatisfyDomain_eq,
    length_filter_selectAdses, length_filter_selectAdses]
  show _ + (groups.map fun group => group.2.length).sum = _
  rw [hgrouped.sum_length, length_filter_filter_selectAdses, Documented.fetchCount]
  omega

theorem Py.fetchCount_eq (htypes : SizedTypes db request) :
    Py.fetchCount db request = Documented.fetchCount db request := by
  obtain ⟨groups, hgroups, hgrouped⟩ := Py.advertiserAdses_of_sizedTypes request htypes
  rw [Py.fetchCount, hgroups, length_selectAdses, Py.adsesSatisfySize_eq,
    Py.adsSatisfyDomain_of_sizedTypes htypes]
  show 1 + (_ + (List.filter _ _).length) + (List.filter _ _).length * 2
    + (groups.map fun group => group.2.length).sum = _
  rw [hgrouped.sum_length, length_filter_filter_selectAdses, length_filter_selectAdses,
    length_filter_selectAdses, Documented.fetchCount]
  omega

/-- Without faults, Go makes as many fetches. -/
theorem Go.length_fetchCalls_noFaults (htypes : SizedTypes db request) :
    (Go.fetchCalls Go.noFaults db request).length = Documented.fetchCount db request := by
  rcases hfetch : Go.fetchAdses (Go.noFaults .adses) db with ⟨adses, _ | err⟩
  · obtain rfl : adses = db.selectAdses := Go.stored_of_fetchAdses hfetch
    have hsized : Go.advertiserSatisfySize Go.noFaults db request db.selectAdses
        = db.selectAdses.filter fun ads => SizeMatches db request ads :=
      Go.advertiserSatisfySize_eq _
    have hdomain := go_advertiserSatisfyDomain_eq htypes
    have hpassed : Go.passedOn Go.noFaults db request db.selectAdses
        = (db.selectAdses.filter fun ads =>
            SizeMatches db request ads ∧ DomainAllowed db request ads).filter
              fun ads => CategoryAllowed db request ads := by
      rw [Go.passedOn, hdomain]
      refine List.filter_congr fun ads hads => ?_
      obtain ⟨hmem, hreached⟩ := List.mem_filter.mp hads
      have hstored := db.mem_selectAdses.mp hmem
      have htype := htypes ads hstored (of_decide_eq_true hreached).1
      rw [Go.blocked_eq htype hstored, Bool.not_not]
      rfl
    rw [Go.length_fetchCalls Go.noFaults db request hfetch, hsized, hdomain, hpassed,
      length_filter_filter_selectAdses, length_filter_selectAdses, length_filter_selectAdses,
      length_selectAdses, Documented.fetchCount]
  · have hnone : db.adses = [] :=
      List.eq_nil_iff_forall_not_mem.mpr (Go.no_ads_of_fetchAdses hfetch)
    rw [Go.fetchCalls, hfetch, Documented.fetchCount, hnone]
    rfl

/-! ## Python -/

namespace Py

theorem auctionSession_calls (htypes : SizedTypes db request) (driver : ℕ → Raises) :
    (auctionSession driver db request).2.calls ≤ Documented.fetchCount db request
      ∧ ∀ result, (auctionSession driver db request).1 = .ok result →
        (auctionSession driver db request).2.calls = Documented.fetchCount db request := by
  have hdriver : ∀ n, Raised driver n → PyException.driver ∈ ({.driver} : Set PyException) :=
    fun _ _ => Set.mem_singleton _
  have hmakes := auction_makes hdriver db request
  rw [fetchCount_eq htypes] at hmakes
  have hle := hmakes.le ⟨0, [], []⟩ trivial
  have heq := fun result => hmakes.eq ⟨0, [], []⟩ result trivial
  simp only [zero_add] at hle heq
  exact ⟨hle, heq⟩

/-- An auction that returns has decoded the type of every ad of the requested size. -/
theorem sizedTypes_of_ok {result : Option (Response χ)}
    (h : auction plainConnector db request = .ok result) : SizedTypes db request := by
  cases hreached : adsSatisfyDomain plainConnector db request with
  | error err =>
      rw [auction, auctionWinner, advertiserAdses, hreached] at h
      cases h
  | ok reached =>
      intro ads hads hsize
      obtain ⟨keep, hkeep⟩ := (adsSatisfyDomain_eq_ok_iff.mp hreached).1 ads hads hsize
      exact typeDocumented_of_domainKept hads hkeep

/-- **The count of an undisturbed auction** that returns is the documented one. -/
theorem fetches_eq {result : Option (Response χ)}
    (h : auction plainConnector db request = .ok result) :
    fetches db request = Documented.fetchCount db request :=
  (auctionSession_calls (sizedTypes_of_ok h) quietDriver).2 result
    ((auctionSession_quiet db request).trans h)

end Py

/-! ## The implementations -/

/-- An auction makes the documented number of fetches; over a driver that may throw, no
more, and as many if it returns. -/
structure FetchedByAll (db : Database χ) (request : Request χ) : Prop where
  cpp : ∀ driver,
    let out := FirstFault.run (Cpp.Tracked.auction (Cpp.trackedConnector driver) db request) .start
    out.2.calls ≤ fetchCount db request
      ∧ ∀ result, out.1 = .ok result → out.2.calls = fetchCount db request
  go : ∀ runtime,
    (FirstFault.run (Go.Logged.auction runtime Go.noFaults db request) []).2.length
      = fetchCount db request
  py : ∀ driver,
    (Py.auctionSession driver db request).2.calls ≤ fetchCount db request
      ∧ ∀ result, (Py.auctionSession driver db request).1 = .ok result →
        (Py.auctionSession driver db request).2.calls = fetchCount db request

/-- **The number of fetches.** -/
theorem fetchedByAll (htypes : SizedTypes db request) : FetchedByAll db request where
  cpp driver := by
    have hmakes := Cpp.auction_makes (Cpp.throws_mem driver) db request
    rw [Cpp.fetchCount_eq htypes] at hmakes
    have hle := hmakes.le .start Cpp.Resources.released_start
    have heq := fun result => hmakes.eq .start result Cpp.Resources.released_start
    rw [show Cpp.Resources.start.calls = 0 from rfl, zero_add] at hle
    simp only [show Cpp.Resources.start.calls = 0 from rfl, zero_add] at heq
    exact ⟨hle, heq⟩
  go runtime := by
    rw [← Go.length_fetchCalls_noFaults htypes]
    exact (Go.log_perm runtime Go.noFaults db request).length_eq
  py driver := Py.auctionSession_calls htypes driver

example : fetchCount tieDatabase tieRequest = 11 := by decide

theorem fetchedByAll_tieDatabase : FetchedByAll tieDatabase tieRequest :=
  have htypes : DocumentedTypes tieDatabase := by decide
  fetchedByAll fun ads _ _ => htypes.of_ads ads

end AuctionWorker
