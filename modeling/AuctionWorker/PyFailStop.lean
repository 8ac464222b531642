import AuctionWorker.PyConnections

/-!
# Exceptions of the driver end a Python auction

Under any pattern of exceptions of the MySQL driver, and whatever is left of earlier
connections, an auction of `python/server/auction.py` ends in the exception or comes to
what it comes to over a driver that never raises (`auction_makes`). So an exception
never changes a response, and an auction returns one exactly if the driver raises in
none of its fetches (`auction_ok_iff`).
-/

namespace AuctionWorker

namespace Py

open FirstFault

variable {χ ρ α β : Type}

/-- Nothing is asked of the connections. -/
abbrev Always (_ : Connections) : Prop :=
  True

/-- However the driver raises, `x` raises one of the faults or comes to the outcome, with
up to `n` fetches, and with `n` of them if it returns. -/
abbrev Makes (faults : Set PyException) (x : Session α) (outcome : Except PyException α) (n : ℕ) :
    Prop :=
  Metered Always faults Connections.calls x outcome n

section Makes

-- an exception of the driver counts among the faults, if there are any
variable {driver : ℕ → Raises} {faults : Set PyException}
  (hdriver : ∀ n, Raised driver n → .driver ∈ faults) (db : Database χ) (request : Request χ)

/-- How a fetch ends. -/
theorem run_fetch_cases (driver : ℕ → Raises) (rows : List ρ)
    (body : List ρ → Except PyException α) (s : Connections) :
    ∃ r s', run ((trackedConnector driver).fetch rows body) s = (r, s') ∧ s'.calls = s.calls + 1
      ∧ (r = body rows ∨ r = .error .driver ∧ Raised driver s.calls) := by
  by_cases hquiet : driver s.calls = .quiet
  · exact ⟨_, _, run_fetch_of_quiet hquiet rows body, rfl, .inl rfl⟩
  · rw [run_fetch]
    split_ifs
    · exact ⟨_, _, rfl, rfl, .inr ⟨rfl, hquiet⟩⟩
    · exact ⟨_, _, rfl, rfl, .inr ⟨rfl, hquiet⟩⟩
    · exact ⟨_, _, rfl, rfl, .inr ⟨rfl, hquiet⟩⟩
    · exact ⟨_, _, rfl, rfl, .inl rfl⟩

/-- A loop that makes `n` fetches in every step. -/
theorem makes_foldlM {f : β → α → Session β} {g : β → α → Except PyException β} {n : ℕ}
    (hfg : ∀ b a, Makes faults (f b a) (g b a) n) (l : List α) (b : β) :
    Makes faults (l.foldlM f b) (l.foldlM g b) (l.length * n) := by
  have hfold := Metered.foldlM hfg l b
  rwa [List.map_const', List.sum_replicate, smul_eq_mul] at hfold

include hdriver

theorem fetch_makes (rows : List ρ) (body : List ρ → Except PyException α) :
    Makes faults ((trackedConnector driver).fetch rows body) (plainConnector.fetch rows body)
      1 := by
  refine ⟨fun s _ => ⟨trivial, ?_⟩, fun s _ => ?_, fun s a _ _ => ?_⟩
  · obtain ⟨r, s', hrun, -, hr⟩ := run_fetch_cases driver rows body s
    rw [hrun]
    rcases hr with rfl | ⟨rfl, hraised⟩
    · exact .inr rfl
    · exact .inl ⟨_, hdriver _ hraised, rfl⟩
  · obtain ⟨r, s', hrun, hcalls, -⟩ := run_fetch_cases driver rows body s
    rw [hrun]
    exact hcalls.le
  · obtain ⟨r, s', hrun, hcalls, -⟩ := run_fetch_cases driver rows body s
    rw [hrun]
    exact hcalls

theorem fetchAdvertiser_makes (advertiserId : ℕ) :
    Makes faults (fetchAdvertiser (trackedConnector driver) db advertiserId)
      (fetchAdvertiser plainConnector db advertiserId) 1 :=
  fetch_makes hdriver _ _

theorem sizeStep_makes (adses : List (Ads χ)) (ads : Ads χ) :
    Makes faults (sizeStep (trackedConnector driver) db request adses ads)
      (sizeStep plainConnector db request adses ads) 1 := by
  refine Metered.bind_free (fetch_makes hdriver _ _) fun adSize _ => ?_
  cases adSize with
  | none => exact .pure _
  | some adSize =>
      dsimp only
      split
      · exact .pure _
      · exact .pure _

theorem featureStep_makes (features : List AdsFeature) (ads : Ads χ) :
    Makes faults (featureStep (trackedConnector driver) db features ads)
      (featureStep plainConnector db features ads) 1 := by
  refine Metered.bind_free (fetch_makes hdriver _ _) fun adsFeature _ => ?_
  cases adsFeature with
  | none => exact .pure _
  | some adsFeature => exact .pure _

theorem blocked_makes (ads : Ads χ) :
    Makes faults (blocked (trackedConnector driver) db request ads)
      (blocked plainConnector db request ads) 2 := by
  refine (fetchAdvertiser_makes hdriver db _).bind (m := 1) fun advertiser _ => ?_
  refine Metered.bind_free (fetch_makes hdriver _ _) fun blocking _ => ?_
  cases advertiser with
  | none => exact .pure _
  | some advertiser =>
      cases blocking with
      | none => exact .pure _
      | some blocking => exact .pure _

theorem categoryStep_makes (groups : List (ℕ × List (Ads χ))) (ads : Ads χ) :
    Makes faults (categoryStep (trackedConnector driver) db request groups ads)
      (categoryStep plainConnector db request groups ads) 2 := by
  refine (blocked_makes hdriver db request ads).bind_free fun isBlocked _ => ?_
  split
  · exact .pure _
  · exact .pure _

/-- Every ad of a group has its feature fetched. -/
theorem targetStep_makes (adsTargetted : List (Ads χ)) (group : ℕ × List (Ads χ)) :
    Makes faults (targetStep (trackedConnector driver) db request adsTargetted group)
      (targetStep plainConnector db request adsTargetted group) group.2.length := by
  have hfeatures := makes_foldlM (featureStep_makes hdriver db) group.2 []
  rw [mul_one] at hfeatures
  refine hfeatures.bind_free fun features _ => ?_
  split
  · exact (Metered.ofExcept _).bind_free fun bestAds _ => .pure _
  · exact .pure _

variable [DecidableEq χ]

theorem domainStep_makes (adses : List (Ads χ)) (ads : Ads χ) :
    Makes faults (domainStep (trackedConnector driver) db request adses ads)
      (domainStep plainConnector db request adses ads) 1 := by
  refine (fetchAdvertiser_makes hdriver db _).bind_free fun advertiser _ => ?_
  cases advertiser with
  | none => exact .pure _
  | some advertiser =>
      dsimp only
      split
      · exact .pure _
      · exact .pure _

/-- The fetches of an auction, loop by loop, up to an exception. -/
def fetchCount (db : Database χ) (request : Request χ) : ℕ :=
  1 + (db.selectAdses.length
      + (db.selectAdses.foldlM (sizeStep plainConnector db request) []).toOption.elim 0 List.length)
    + (adsSatisfyDomain plainConnector db request).toOption.elim 0 (fun adses => adses.length * 2)
    + (advertiserAdses plainConnector db request).toOption.elim 0 fun groups =>
        (groups.map fun group => group.2.length).sum

theorem adsSatisfyDomain_makes :
    Makes faults (adsSatisfyDomain (trackedConnector driver) db request)
      (adsSatisfyDomain plainConnector db request)
      (1 + (db.selectAdses.length + (db.selectAdses.foldlM
        (sizeStep plainConnector db request) []).toOption.elim 0 List.length)) := by
  have hadses : Makes faults (fetchAdses (trackedConnector driver) db)
      (.ok db.selectAdses) 1 := fetch_makes hdriver _ _
  have hsized := makes_foldlM (sizeStep_makes hdriver db request) db.selectAdses []
  have hdomain : ∀ sized : List (Ads χ),
      Makes faults (sized.foldlM (domainStep (trackedConnector driver) db request) [])
        (sized.foldlM (domainStep plainConnector db request) []) sized.length := by
    intro sized
    have hfold := makes_foldlM (domainStep_makes hdriver db request) sized []
    rwa [mul_one] at hfold
  rw [mul_one] at hsized
  exact hadses.bind_ok (hsized.bind_cost fun sized _ => hdomain sized)

theorem auction_makes :
    Makes faults (auction (trackedConnector driver) db request)
      (auction plainConnector db request) (fetchCount db request) := by
  have hgroups : Makes faults (advertiserAdses (trackedConnector driver) db request)
      (advertiserAdses plainConnector db request) _ :=
    (adsSatisfyDomain_makes hdriver db request).bind_cost fun adses _ =>
      makes_foldlM (categoryStep_makes hdriver db request) adses []
  have hwinner : Makes faults (auctionWinner (trackedConnector driver) db request)
      (auctionWinner plainConnector db request) (fetchCount db request) := by
    refine hgroups.bind_cost fun groups _ => ?_
    exact (Metered.foldlM (targetStep_makes hdriver db request) groups []).bind_free
      fun adsTargetted _ => .pure _
  exact hwinner.bind_free fun winner _ => .pure _

end Makes

section Auction

variable [DecidableEq χ] (driver : ℕ → Raises) (db : Database χ) (request : Request χ)

/-- What an auction returns, it returns over a driver that never raises. -/
theorem auction_ok {result : Option (Response χ)} {s : Connections}
    (h : (run (auction (trackedConnector driver) db request) s).1 = .ok result) :
    auction plainConnector db request = .ok result := by
  have hdriver : ∀ n, Raised driver n → PyException.driver ∈ ({.driver} : Set PyException) :=
    fun _ _ => Set.mem_singleton _
  rcases ((auction_makes hdriver db request).failStop s trivial).2 with ⟨err, -, hfault⟩ | hplain
  · rw [h] at hfault
    cases hfault
  · exact hplain.symm.trans h

theorem auctionSession_quiet :
    (auctionSession quietDriver db request).1 = auction plainConnector db request := by
  have hnever : ∀ n, Raised quietDriver n → PyException.driver ∈ (∅ : Set PyException) :=
    fun n hraised => absurd rfl hraised
  exact (auction_makes hnever db request).failStop.eq_of_empty trivial

/-- **Exceptions do not change responses.** An auction comes to a response, or to no
bid, exactly if this is the outcome over a driver that never raises and the driver
raises in none of the fetches up to there. -/
theorem auction_ok_iff (result : Option (Response χ)) :
    (auctionSession driver db request).1 = .ok result
      ↔ auction plainConnector db request = .ok result
        ∧ ∀ n < fetches db request, ¬Raised driver n := by
  have hbalanced : Connections.Balanced ⟨0, [], []⟩ :=
    ⟨List.forall_mem_nil _, List.forall_mem_nil _, List.forall_mem_nil _⟩
  constructor
  · intro h
    refine ⟨auction_ok driver db request h, fun n hn hraised => ?_⟩
    rcases Setting.quiet_or_first (S := setting driver) 0 (fetches db request) with
      hquiet | ⟨k, hfirst⟩
    · exact hquiet n n.zero_le hn hraised
    · obtain ⟨err, s', herr, -⟩ :=
        (auction_follows driver db request).broken ⟨0, [], []⟩ k hbalanced hfirst
      have herror : (auctionSession driver db request).1 = .error err := congrArg Prod.fst herr
      rw [h] at herror
      cases herror
  · rintro ⟨hplain, hquiet⟩
    have hsame : auctionSession driver db request = auctionSession quietDriver db request :=
      (auction_follows driver db request).same ⟨0, [], []⟩ fun n _ hn => hquiet n hn
    rw [hsame, auctionSession_quiet]
    exact hplain

end Auction

end Py

end AuctionWorker
