import AuctionWorker.GoFetchCalls
import AuctionWorker.GoPool
import AuctionWorker.Handlers

/-!
# The auction endpoint of the Go server

`main` of `golang/main.go` sets up `AuctionHandler` as the callback of the endpoint. It
replies to every body, whichever of its fetches fail, so that it never panics and no
token is ever left in the channel: in every state of every run the slots are accounted
for. Its auction makes at most five fetches for each ad, so that the requests that have
arrived are answered after a known number of steps, whichever of them moves
(`endpoint_answers`).
-/

namespace AuctionWorker

namespace Go

open FirstFault Text Machine

namespace Pool

variable {scan : List UInt8 → Option (Json UInt8)} {db : Database UInt8}

/-- A request makes the fetches of its auction, and panics only where the handler does, on
some body and under some outcomes of the fetches. -/
def Handles (scan : List UInt8 → Option (Json UInt8)) (db : Database UInt8) : PoolAction → Prop
  | .arrive fetches => ∃ data runtime faults,
      fetches = (FirstFault.run
        (Logged.auction runtime faults db (parseRequest scan data)) []).2.length
  | .cbPanic _ | .fetchPanic _ => ∃ data runtime faults panic,
      auctionHandler scan runtime faults db data = .error panic
  | _ => True

theorem auctionHandler_ne_error (runtime : Runtime UInt8) (faults : Faults) (data : List UInt8)
    (panic : Panic) : auctionHandler scan runtime faults db data ≠ .error panic := by
  intro h
  obtain ⟨out, -, hout, -⟩ := auction_reaching faults db (parseRequest scan data) runtime
  rw [auctionHandler_bid hout] at h
  cases h

/-- Nothing panics. -/
theorem panicked_step {capacity : ℕ} {s s' : Pool} {a : PoolAction} (ha : Handles scan db a)
    (h : s.step capacity a = some s') :
    s'.endpoint.count (· == .panicked) = s.endpoint.count (· == .panicked) := by
  cases a with
  | arrive fetches =>
      obtain rfl := Option.some.inj h
      simp [Endpoint.count, endpoint, Callback.handler]
  | cbPanic i =>
      obtain ⟨data, runtime, faults, panic, herror⟩ := ha
      exact absurd herror (auctionHandler_ne_error runtime faults data panic)
  | fetchPanic i =>
      obtain ⟨data, runtime, faults, panic, herror⟩ := ha
      exact absurd herror (auctionHandler_ne_error runtime faults data panic)
  | acquire i =>
      have hserves : (PoolAction.acquire i).Serves := trivial
      exact panicked_serves hserves h
  | fetch i =>
      have hserves : (PoolAction.fetch i).Serves := trivial
      exact panicked_serves hserves h
  | lock i =>
      have hserves : (PoolAction.lock i).Serves := trivial
      exact panicked_serves hserves h
  | unlock i =>
      have hserves : (PoolAction.unlock i).Serves := trivial
      exact panicked_serves hserves h
  | cbReturn i =>
      have hserves : (PoolAction.cbReturn i).Serves := trivial
      exact panicked_serves hserves h
  | release i =>
      have hserves : (PoolAction.release i).Serves := trivial
      exact panicked_serves hserves h

/-- Without a panic, the tokens are the requests that occupy a slot. -/
theorem slots_of_panicked {capacity : ℕ} {s : Endpoint} (hinv : Endpoint.Inv capacity s)
    (hpanicked : s.count (· == .panicked) = 0) : Endpoint.Slots capacity s := by
  refine (Endpoint.slots_of_tokens hinv).mpr (hinv.tokens.trans ?_)
  refine List.countP_congr fun handler hmem => ?_
  cases handler with
  | panicked => exact absurd rfl (List.countP_eq_zero.mp hpanicked _ hmem)
  | _ => exact Iff.rfl

/-! ## The number of steps -/

/-- The most steps of one request. -/
def mostSteps (db : Database UInt8) : ℕ :=
  15 * db.adses.length + 6

/-- No request has more steps to make. -/
def Short (db : Database UInt8) (s : Pool) : Prop :=
  ∀ c ∈ s.handlers, c.work ≤ mostSteps db

/-- A request that has moved has no more steps to make than before. -/
theorem Goes.work_le {capacity : ℕ} {s s' : Pool} {a : PoolAction} {i : ℕ} {before after : Callback}
    (h : Goes capacity s s' a i before after) : after.work ≤ before.work := by
  by_cases hserves : a.Serves
  · exact Nat.le_of_succ_le (h.work_eq hserves).le
  · cases h with
    | fetchPanic hthreads hlocked => exact Nat.zero_le _
    | cbPanic hthreads hlocked => exact Nat.zero_le _
    | _ => exact absurd trivial hserves

theorem short_step {capacity : ℕ} {s s' : Pool} {a : PoolAction} (hs : s.Short db)
    (ha : Handles scan db a) (h : s.step capacity a = some s') : s'.Short db := by
  rcases step_spec h with ⟨fetches, rfl, rfl⟩ | ⟨i, before, after, hmoved, hgoes⟩
  · obtain ⟨data, runtime, faults, rfl⟩ := ha
    have hlength := length_log_le runtime faults db (parseRequest scan data)
    refine List.forall_mem_append.mpr ⟨hs, List.forall_mem_singleton.mpr ?_⟩
    rw [Callback.work, mostSteps]
    omega
  · have hbefore := hs before (List.mem_of_getElem? hmoved.before)
    intro c hc
    rw [hmoved.handlers] at hc
    rcases List.mem_or_eq_of_mem_set hc with hold | rfl
    · exact hs c hold
    · exact hgoes.work_le.trans hbefore

/-- **The auction endpoint** with a place in its channel keeps its slots in every run, and
answers the requests that have arrived: their steps are counted, and until all are done
there is a next one. -/
theorem endpoint_answers {capacity : ℕ} (hcapacity : 0 < capacity)
    {before as : List PoolAction} {s s' : Pool} (hbefore : ∀ a ∈ before, Handles scan db a)
    (hreached : run (step capacity) start before = some s) (hserves : ∀ a ∈ as, a.Serves)
    (hrun : run (step capacity) s as = some s') :
    Endpoint.Slots capacity s'.endpoint ∧ as.length ≤ s.handlers.length * mostSteps db
      ∧ ((∀ c ∈ s'.handlers, c = .done)
        ∨ ∃ a : PoolAction, a.Serves ∧ (s'.step capacity a).isSome) := by
  have hsteps : Steps (step capacity) (fun _ a => Handles scan db a) start before :=
    steps_of_forall hbefore
  have hstart : start.endpoint.count (· == .panicked) = 0 := rfl
  have hnone : s.endpoint.count (· == .panicked) = 0 := by
    refine holds_of_steps (I := fun s => s.endpoint.count (· == .panicked) = 0)
      (fun s a s' h ha hstep => ?_) hstart hsteps hreached
    exact (panicked_step ha hstep).trans h
  have hempty : start.Short db := List.forall_mem_nil _
  have hshort : s.Short db := by
    refine holds_of_steps (I := Short db) (fun s a s' h ha hstep => ?_) hempty hsteps hreached
    exact short_step h ha hstep
  obtain ⟨hcount, hlength, hend⟩ :=
    serves_of_reached hreached (hnone.trans_lt hcapacity) hserves hrun
  have hnone' := hcount.trans hnone
  obtain ⟨hinv, -⟩ := reached (run_append hreached hrun)
  refine ⟨slots_of_panicked hinv hnone', ?_, hend.imp_left fun hfinished c hc => ?_⟩
  · have hwork : s.work ≤ (s.handlers.map Callback.work).length • mostSteps db :=
      List.sum_le_card_nsmul _ _ (List.forall_mem_map.mpr hshort)
    rw [List.length_map, smul_eq_mul] at hwork
    omega
  · cases c with
    | done => rfl
    | panicked =>
        have hmem : Handler.panicked ∈ s'.endpoint.handlers := List.mem_map_of_mem hc
        exact absurd rfl (List.countP_eq_zero.mp hnone' _ hmem)
    | _ => cases hfinished _ hc

/-- Two requests at the endpoint of `N_Thread` places, one of them in a fetch. Their fetches
for the ads fail. -/
theorem endpoint_answers_two :
    let s : Pool := ⟨2, false, [.locking 0, .running 1]⟩
    let s' : Pool := ⟨2, true, [.fetching 0, .running 1]⟩
    Endpoint.Slots N_Thread s'.endpoint
      ∧ [PoolAction.lock 0].length
        ≤ s.handlers.length * mostSteps (Documented.tieDatabase.mapText utf8)
      ∧ ((∀ c ∈ s'.handlers, c = .done)
        ∨ ∃ a : PoolAction, a.Serves ∧ (s'.step N_Thread a).isSome) := by
  have hreached : run (step N_Thread) start [.arrive 1, .arrive 1, .acquire 0, .acquire 1, .fetch 0]
      = some ⟨2, false, [.locking 0, .running 1]⟩ := rfl
  have hrun : run (step N_Thread) ⟨2, false, [.locking 0, .running 1]⟩ [.lock 0]
      = some ⟨2, true, [.fetching 0, .running 1]⟩ := rfl
  have harrive : Handles (fun _ => none) (Documented.tieDatabase.mapText utf8) (.arrive 1) :=
    ⟨[], stableRuntime, fun _ => .openError, rfl⟩
  have hbefore : ∀ a ∈ [PoolAction.arrive 1, .arrive 1, .acquire 0, .acquire 1, .fetch 0],
      Handles (fun _ => none) (Documented.tieDatabase.mapText utf8) a := by
    simp only [List.forall_mem_cons, List.not_mem_nil, false_implies, implies_true, and_true]
    exact ⟨harrive, harrive, trivial, trivial, trivial⟩
  exact endpoint_answers (by decide) hbefore hreached (List.forall_mem_singleton.mpr trivial) hrun

end Pool

end Go

end AuctionWorker
