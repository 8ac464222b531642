import AuctionWorker.GoServer

/-!
# The endpoint and the connector of the Go server

All callbacks of the endpoint in `golang/server/server.go` share one `MySQLConnector`,
whose `fetchModels` and `fetchModelByID` in `golang/connector/mysql_connector.go` lock
`mut`, open a connection, and close it and unlock `mut` by `defer`. A callback makes some
number of fetches and returns, or panics: in a fetch, so that the deferred calls run, or
outside of one.

- `refines`: without the fetches, the runs are those of the endpoint alone, so that what
  is known of its slots holds here.
- `exclusive`: in every state of every run, panics included, at most one request is
  between the lock and the unlock, and `mut` is locked exactly if there is one.
- `drains`: as long as fewer callbacks have panicked than the channel has places, the
  requests that have arrived are answered, whichever of them moves: nobody waits for
  good, and the number of steps is known.
-/

namespace AuctionWorker

namespace Go

open Machine

/-! ## Handlers that fetch -/

/-- Where the handler of a request stands, with the number of fetches that its callback
has still to make. -/
inductive Callback where
  /-- at `threads <- struct{}{}` -/
  | waiting (fetches : ℕ)
  /-- in the callback, outside of a fetch -/
  | running (fetches : ℕ)
  /-- at `mut.Lock()` -/
  | locking (fetches : ℕ)
  /-- between `mut.Lock()` and `mut.Unlock()` -/
  | fetching (fetches : ℕ)
  /-- at `<-threads` -/
  | returned
  | done
  /-- unwound by a panic of the callback -/
  | panicked
deriving Repr, DecidableEq

namespace Callback

/-- As the endpoint sees it. -/
def handler : Callback → Handler
  | .waiting _ => .waiting
  | .running _ | .locking _ | .fetching _ => .running
  | .returned => .returned
  | .done => .done
  | .panicked => .panicked

/-- 1 between the lock and the unlock. -/
def inFetch : Callback → ℕ
  | .fetching _ => 1
  | _ => 0

def finished : Callback → Bool
  | .done | .panicked => true
  | _ => false

/-- The number of steps to the end of the request. -/
def work : Callback → ℕ
  | .waiting fetches => 3 * fetches + 3
  | .running fetches => 3 * fetches + 2
  | .locking fetches => 3 * fetches + 4
  | .fetching fetches => 3 * fetches + 3
  | .returned => 1
  | .done | .panicked => 0

end Callback

/-- The tokens in the channel, whether `mut` is locked, and a handler for each request
so far. -/
structure Pool where
  threads : ℕ
  locked : Bool
  handlers : List Callback
deriving Repr, DecidableEq

inductive PoolAction where
  | arrive (fetches : ℕ)
  | acquire (i : ℕ)
  /-- the callback comes to a fetch -/
  | fetch (i : ℕ)
  | lock (i : ℕ)
  /-- the fetch returns -/
  | unlock (i : ℕ)
  /-- the fetch panics -/
  | fetchPanic (i : ℕ)
  | cbReturn (i : ℕ)
  /-- the callback panics outside of a fetch -/
  | cbPanic (i : ℕ)
  | release (i : ℕ)
deriving Repr, DecidableEq

namespace PoolAction

/-- What the endpoint sees of it. -/
def endpointAction : PoolAction → Option EndpointAction
  | .arrive _ => some .arrive
  | .acquire i => some (.acquire i)
  | .fetch _ | .lock _ | .unlock _ => none
  | .fetchPanic i | .cbPanic i => some (.cbPanic i)
  | .cbReturn i => some (.cbReturn i)
  | .release i => some (.release i)

/-- A step of a request that goes on. -/
def Serves : PoolAction → Prop
  | .arrive _ | .fetchPanic _ | .cbPanic _ => False
  | _ => True

end PoolAction

namespace Pool

/-- The handler `i` goes where `f` takes it. -/
def move (s : Pool) (i : ℕ) (f : Callback → Option Callback) : Option Pool :=
  (s.handlers[i]?.bind f).map fun after => { s with handlers := s.handlers.set i after }

def step (capacity : ℕ) (s : Pool) : PoolAction → Option Pool
  | .arrive fetches => some { s with handlers := s.handlers ++ [.waiting fetches] }
  | .acquire i =>
      if s.threads < capacity then
        (s.move i fun | .waiting fetches => some (.running fetches) | _ => none).map
          fun s => { s with threads := s.threads + 1 }
      else none
  | .fetch i => s.move i fun | .running (fetches + 1) => some (.locking fetches) | _ => none
  | .lock i =>
      if s.locked then none
      else (s.move i fun | .locking fetches => some (.fetching fetches) | _ => none).map
        fun s => { s with locked := true }
  | .unlock i =>
      (s.move i fun | .fetching fetches => some (.running fetches) | _ => none).map
        fun s => { s with locked := false }
  | .fetchPanic i =>
      (s.move i fun | .fetching _ => some .panicked | _ => none).map
        fun s => { s with locked := false }
  | .cbReturn i => s.move i fun | .running 0 => some .returned | _ => none
  | .cbPanic i => s.move i fun | .running _ => some .panicked | _ => none
  | .release i =>
      if 0 < s.threads then
        (s.move i fun | .returned => some .done | _ => none).map
          fun s => { s with threads := s.threads - 1 }
      else none

/-- Before the first request. -/
def start : Pool :=
  ⟨0, false, []⟩

/-- The endpoint without the fetches. -/
def endpoint (s : Pool) : Endpoint :=
  ⟨s.threads, s.handlers.map Callback.handler⟩

/-- The number of steps to the end of all requests. -/
def work (s : Pool) : ℕ :=
  (s.handlers.map Callback.work).sum

/-- The number of requests in a fetch. -/
def fetching (s : Pool) : ℕ :=
  (s.handlers.map Callback.inFetch).sum

/-- Mutual exclusion: one request in a fetch if `mut` is locked, else none. -/
def Exclusive (s : Pool) : Prop :=
  s.fetching = if s.locked then 1 else 0

/-! ## What a step does -/

/-- One handler went from `before` to `after`. -/
structure Moved (s s' : Pool) (i : ℕ) (before after : Callback) : Prop where
  before : s.handlers[i]? = some before
  handlers : s'.handlers = s.handlers.set i after

/-- What the action of a handler asks for, and what it does to the channel and `mut`. -/
inductive Goes (capacity : ℕ) (s s' : Pool) : PoolAction → ℕ → Callback → Callback → Prop
  | acquire {i fetches : ℕ} (hfree : s.threads < capacity) (hthreads : s'.threads = s.threads + 1)
      (hlocked : s'.locked = s.locked) :
      Goes capacity s s' (.acquire i) i (.waiting fetches) (.running fetches)
  | fetch {i fetches : ℕ} (hthreads : s'.threads = s.threads) (hlocked : s'.locked = s.locked) :
      Goes capacity s s' (.fetch i) i (.running (fetches + 1)) (.locking fetches)
  | lock {i fetches : ℕ} (hthreads : s'.threads = s.threads) (hfree : s.locked = false)
      (hlocked : s'.locked = true) :
      Goes capacity s s' (.lock i) i (.locking fetches) (.fetching fetches)
  | unlock {i fetches : ℕ} (hthreads : s'.threads = s.threads) (hlocked : s'.locked = false) :
      Goes capacity s s' (.unlock i) i (.fetching fetches) (.running fetches)
  | fetchPanic {i fetches : ℕ} (hthreads : s'.threads = s.threads) (hlocked : s'.locked = false) :
      Goes capacity s s' (.fetchPanic i) i (.fetching fetches) .panicked
  | cbReturn {i : ℕ} (hthreads : s'.threads = s.threads) (hlocked : s'.locked = s.locked) :
      Goes capacity s s' (.cbReturn i) i (.running 0) .returned
  | cbPanic {i fetches : ℕ} (hthreads : s'.threads = s.threads) (hlocked : s'.locked = s.locked) :
      Goes capacity s s' (.cbPanic i) i (.running fetches) .panicked
  | release {i : ℕ} (hpos : 0 < s.threads) (hthreads : s'.threads = s.threads - 1)
      (hlocked : s'.locked = s.locked) :
      Goes capacity s s' (.release i) i .returned .done

theorem move_spec {s s' : Pool} {i : ℕ} {f : Callback → Option Callback}
    (h : s.move i f = some s') : ∃ before after, f before = some after
      ∧ Moved s s' i before after ∧ s'.threads = s.threads ∧ s'.locked = s.locked := by
  obtain ⟨after, hafter, rfl⟩ := Option.map_eq_some_iff.mp h
  obtain ⟨before, hbefore, hf⟩ := Option.bind_eq_some_iff.mp hafter
  exact ⟨before, after, hf, ⟨hbefore, rfl⟩, rfl, rfl⟩

theorem step_spec {capacity : ℕ} {s s' : Pool} {a : PoolAction} (h : s.step capacity a = some s') :
    (∃ fetches, a = .arrive fetches
      ∧ s' = { s with handlers := s.handlers ++ [.waiting fetches] })
      ∨ ∃ i before after, Moved s s' i before after ∧ Goes capacity s s' a i before after := by
  cases a with
  | arrive fetches => exact .inl ⟨fetches, rfl, (Option.some.inj h).symm⟩
  | acquire i =>
      rw [step] at h
      split at h
      · rename_i hfree
        obtain ⟨t, hmove, rfl⟩ := Option.map_eq_some_iff.mp h
        obtain ⟨before, after, hf, hmoved, hthreads, hlocked⟩ := move_spec hmove
        split at hf
        · obtain rfl := Option.some.inj hf
          exact .inr ⟨i, _, _, ⟨hmoved.before, hmoved.handlers⟩,
            .acquire hfree (congrArg (· + 1) hthreads) hlocked⟩
        · cases hf
      · cases h
  | fetch i =>
      obtain ⟨before, after, hf, hmoved, hthreads, hlocked⟩ := move_spec h
      split at hf
      · obtain rfl := Option.some.inj hf
        exact .inr ⟨i, _, _, hmoved, .fetch hthreads hlocked⟩
      · cases hf
  | lock i =>
      rw [step] at h
      split at h
      · cases h
      · rename_i hfree
        obtain ⟨t, hmove, rfl⟩ := Option.map_eq_some_iff.mp h
        obtain ⟨before, after, hf, hmoved, hthreads, -⟩ := move_spec hmove
        split at hf
        · obtain rfl := Option.some.inj hf
          exact .inr ⟨i, _, _, ⟨hmoved.before, hmoved.handlers⟩,
            .lock hthreads (Bool.eq_false_of_not_eq_true hfree) rfl⟩
        · cases hf
  | unlock i =>
      obtain ⟨t, hmove, rfl⟩ := Option.map_eq_some_iff.mp h
      obtain ⟨before, after, hf, hmoved, hthreads, -⟩ := move_spec hmove
      split at hf
      · obtain rfl := Option.some.inj hf
        exact .inr ⟨i, _, _, ⟨hmoved.before, hmoved.handlers⟩, .unlock hthreads rfl⟩
      · cases hf
  | fetchPanic i =>
      obtain ⟨t, hmove, rfl⟩ := Option.map_eq_some_iff.mp h
      obtain ⟨before, after, hf, hmoved, hthreads, -⟩ := move_spec hmove
      split at hf
      · obtain rfl := Option.some.inj hf
        exact .inr ⟨i, _, _, ⟨hmoved.before, hmoved.handlers⟩, .fetchPanic hthreads rfl⟩
      · cases hf
  | cbReturn i =>
      obtain ⟨before, after, hf, hmoved, hthreads, hlocked⟩ := move_spec h
      split at hf
      · obtain rfl := Option.some.inj hf
        exact .inr ⟨i, _, _, hmoved, .cbReturn hthreads hlocked⟩
      · cases hf
  | cbPanic i =>
      obtain ⟨before, after, hf, hmoved, hthreads, hlocked⟩ := move_spec h
      split at hf
      · obtain rfl := Option.some.inj hf
        exact .inr ⟨i, _, _, hmoved, .cbPanic hthreads hlocked⟩
      · cases hf
  | release i =>
      rw [step] at h
      split at h
      · rename_i hpos
        obtain ⟨t, hmove, rfl⟩ := Option.map_eq_some_iff.mp h
        obtain ⟨before, after, hf, hmoved, hthreads, hlocked⟩ := move_spec hmove
        split at hf
        · obtain rfl := Option.some.inj hf
          exact .inr ⟨i, _, _, ⟨hmoved.before, hmoved.handlers⟩,
            .release hpos (congrArg (· - 1) hthreads) hlocked⟩
        · cases hf
      · cases h

section Moved

variable {s s' : Pool} {i : ℕ} {before after : Callback} (h : Moved s s' i before after)

include h

theorem Moved.work_eq : s'.work + before.work = s.work + after.work := by
  rw [work, h.handlers]
  exact sum_map_set_add Callback.work h.before after

theorem Moved.fetching_eq :
    s'.fetching + before.inFetch = s.fetching + after.inFetch := by
  rw [fetching, h.handlers]
  exact sum_map_set_add Callback.inFetch h.before after

theorem Moved.endpoint_before : s.endpoint.handlers[i]? = some before.handler := by
  rw [endpoint, List.getElem?_map, h.before]
  rfl

theorem Moved.endpoint_handlers :
    s'.endpoint.handlers = s.endpoint.handlers.set i after.handler := by
  rw [endpoint, endpoint, h.handlers, List.map_set]

end Moved

/-! ## The endpoint -/

theorem endpoint_eq (s : Pool) : s.endpoint = ⟨s.threads, s.endpoint.handlers⟩ :=
  rfl

/-- A step is the one that the endpoint sees, or none. -/
theorem step_endpoint {capacity : ℕ} (s : Pool) (a : PoolAction) (s' : Pool)
    (h : s.step capacity a = some s') :
    a.endpointAction.elim (some s.endpoint) (s.endpoint.step capacity) = some s'.endpoint := by
  rcases step_spec h with ⟨fetches, rfl, rfl⟩ | ⟨i, before, after, hmoved, hgoes⟩
  · simp [PoolAction.endpointAction, Endpoint.step, endpoint, Callback.handler]
  · have hbefore := hmoved.endpoint_before
    have hmove : s.endpoint.move i before.handler after.handler
        = some ⟨s.threads, s'.endpoint.handlers⟩ := by
      rw [Endpoint.move, if_pos hbefore, hmoved.endpoint_handlers]
      rfl
    -- a step within the callback
    have hsame : before.handler = after.handler → s'.threads = s.threads →
        some s.endpoint = some s'.endpoint := by
      intro heq hthreads
      obtain ⟨hlt, hget⟩ := List.getElem?_eq_some_iff.mp hbefore
      rw [endpoint_eq s', hmoved.endpoint_handlers, ← heq, ← hget, List.set_getElem_self, hthreads]
      rfl
    have hother : s'.threads = s.threads →
        s.endpoint.move i before.handler after.handler = some s'.endpoint := by
      intro hthreads
      rw [hmove, endpoint_eq s', hthreads]
    cases hgoes with
    | acquire hfree hthreads hlocked =>
        show (if s.threads < capacity then Option.map _ (s.endpoint.move i _ _) else none) = _
        rw [if_pos hfree]
        refine (congrArg (Option.map _) hmove).trans ?_
        rw [endpoint_eq s', hthreads]
        rfl
    | fetch hthreads hlocked => exact hsame rfl hthreads
    | lock hthreads hfree hlocked => exact hsame rfl hthreads
    | unlock hthreads hlocked => exact hsame rfl hthreads
    | fetchPanic hthreads hlocked => exact hother hthreads
    | cbReturn hthreads hlocked => exact hother hthreads
    | cbPanic hthreads hlocked => exact hother hthreads
    | release hpos hthreads hlocked =>
        show (if 0 < s.threads then Option.map _ (s.endpoint.move i _ _) else none) = _
        rw [if_pos hpos]
        refine (congrArg (Option.map _) hmove).trans ?_
        rw [endpoint_eq s', hthreads]
        rfl

/-- **Refinement.** Without the fetches, a run is a run of the endpoint. -/
theorem refines {capacity : ℕ} {s s' : Pool} {as : List PoolAction}
    (h : run (step capacity) s as = some s') :
    run (Endpoint.step capacity) s.endpoint (as.filterMap PoolAction.endpointAction)
      = some s'.endpoint :=
  run_filterMap step_endpoint h

/-- A request that makes a fetch. -/
theorem refines_fetch :
    run (Endpoint.step N_Thread) start.endpoint
      ([PoolAction.arrive 1, .acquire 0, .fetch 0, .lock 0, .unlock 0].filterMap
        PoolAction.endpointAction)
      = some (endpoint ⟨1, false, [.running 0]⟩) := by
  have hrun : run (step N_Thread) start [.arrive 1, .acquire 0, .fetch 0, .lock 0, .unlock 0]
      = some ⟨1, false, [.running 0]⟩ := rfl
  exact refines hrun

/-! ## Mutual exclusion -/

theorem exclusive_step {capacity : ℕ} (s : Pool) (a : PoolAction) (s' : Pool)
    (hs : s.Exclusive) (h : s.step capacity a = some s') : s'.Exclusive := by
  unfold Exclusive at hs ⊢
  rcases step_spec h with ⟨fetches, rfl, rfl⟩ | ⟨i, before, after, hmoved, hgoes⟩
  · rw [← hs]
    simp [fetching, Callback.inFetch]
  · have hfetching := hmoved.fetching_eq
    -- nobody is in a fetch as long as `mut` is free, and the only one gives it back
    have hgives : ∀ {fetches}, before = .fetching fetches → after.inFetch = 0 →
        s'.locked = false → s'.fetching = if s'.locked then 1 else 0 := by
      rintro fetches rfl hafter hlocked
      have hbefore : Callback.inFetch (.fetching fetches) = 1 := rfl
      rw [hlocked, if_neg Bool.false_ne_true]
      split_ifs at hs
      all_goals omega
    have hkeeps : before.inFetch = 0 → after.inFetch = 0 → s'.locked = s.locked →
        s'.fetching = if s'.locked then 1 else 0 := by
      intro hbefore hafter hlocked
      rw [hlocked, ← hs]
      omega
    cases hgoes with
    | acquire hfree hthreads hlocked => exact hkeeps rfl rfl hlocked
    | fetch hthreads hlocked => exact hkeeps rfl rfl hlocked
    | lock hthreads hfree hlocked =>
        rw [hfree, if_neg Bool.false_ne_true] at hs
        rw [hlocked, if_pos rfl]
        simpa [hs, Callback.inFetch] using hfetching
    | unlock hthreads hlocked => exact hgives rfl rfl hlocked
    | fetchPanic hthreads hlocked => exact hgives rfl rfl hlocked
    | cbReturn hthreads hlocked => exact hkeeps rfl rfl hlocked
    | cbPanic hthreads hlocked => exact hkeeps rfl rfl hlocked
    | release hpos hthreads hlocked => exact hkeeps rfl rfl hlocked

theorem exclusive (capacity : ℕ) (as : List PoolAction) :
    Throughout (step capacity) Exclusive start as := by
  have hstart : start.Exclusive := rfl
  exact throughout_of_step exclusive_step (fun _ hs => hs) hstart as

/-! ## Nobody waits for good -/

theorem Goes.work_eq {capacity : ℕ} {s s' : Pool} {a : PoolAction} {i : ℕ} {before after : Callback}
    (hserves : a.Serves) (h : Goes capacity s s' a i before after) :
    after.work + 1 = before.work := by
  cases h with
  | fetchPanic hthreads hlocked => exact hserves.elim
  | cbPanic hthreads hlocked => exact hserves.elim
  | acquire hfree hthreads hlocked => rfl
  | fetch hthreads hlocked =>
      simp only [Callback.work]
      omega
  | lock hthreads hfree hlocked => rfl
  | unlock hthreads hlocked => rfl
  | cbReturn hthreads hlocked => rfl
  | release hpos hthreads hlocked => rfl

/-- A step of a request that goes on is one unit of the work that is left. -/
theorem work_step {capacity : ℕ} {s s' : Pool} {a : PoolAction} (hserves : a.Serves)
    (h : s.step capacity a = some s') : s'.work + 1 = s.work := by
  rcases step_spec h with ⟨fetches, rfl, rfl⟩ | ⟨i, before, after, hmoved, hgoes⟩
  · exact hserves.elim
  · have hwork := hmoved.work_eq
    have hone := hgoes.work_eq hserves
    omega

/-- Without a request in a fetch, `mut` is free. -/
theorem Exclusive.locked_eq {s : Pool} (hs : s.Exclusive)
    (hnone : ∀ c ∈ s.handlers, c.inFetch = 0) : s.locked = false := by
  have hzero : s.fetching = 0 := List.sum_eq_zero (List.forall_mem_map.mpr hnone)
  by_contra hlocked
  rw [Exclusive, hzero, if_pos (by simpa using hlocked)] at hs
  cases hs

/-- Where only panicked callbacks hold a token, the others find the channel free. -/
theorem threads_lt {capacity : ℕ} {s : Pool} (hinv : Endpoint.Inv capacity s.endpoint)
    (hpanics : s.endpoint.count (· == .panicked) < capacity)
    (hnone : ∀ c ∈ s.handlers, c.handler.holdsToken → c = .panicked) : s.threads < capacity := by
  have hcount : s.endpoint.count Handler.holdsToken = s.endpoint.count (· == .panicked) := by
    refine List.countP_congr (List.forall_mem_map.mpr fun c hc => ?_)
    constructor
    · intro hholds
      obtain rfl := hnone c hc hholds
      rfl
    · intro hpanicked
      rw [beq_iff_eq.mp hpanicked]
      rfl
  exact (hinv.tokens.trans hcount).trans_lt hpanics

/-- **No deadlock.** As long as a request is not finished and the channel has a place
that no panic has taken, some request can go on. -/
theorem exists_step {capacity : ℕ} {s : Pool} (hexclusive : s.Exclusive)
    (hinv : Endpoint.Inv capacity s.endpoint)
    (hpanics : s.endpoint.count (· == .panicked) < capacity)
    (hunfinished : ∃ c ∈ s.handlers, c.finished = false) :
    ∃ a : PoolAction, a.Serves ∧ (s.step capacity a).isSome := by
  by_cases hfetching : ∃ c ∈ s.handlers, c.inFetch ≠ 0
  · obtain ⟨c, hc, hin⟩ := hfetching
    obtain ⟨i, hi⟩ := List.mem_iff_getElem?.mp hc
    cases c with
    | fetching fetches => exact ⟨.unlock i, trivial, by simp [step, move, hi]⟩
    | _ => exact absurd rfl hin
  push Not at hfetching
  by_cases hlocking : ∃ fetches, Callback.locking fetches ∈ s.handlers
  · obtain ⟨fetches, hc⟩ := hlocking
    obtain ⟨i, hi⟩ := List.mem_iff_getElem?.mp hc
    have hfree := hexclusive.locked_eq hfetching
    exact ⟨.lock i, trivial, by simp [step, move, hi, hfree]⟩
  by_cases hrunning : ∃ fetches, Callback.running fetches ∈ s.handlers
  · obtain ⟨fetches, hc⟩ := hrunning
    obtain ⟨i, hi⟩ := List.mem_iff_getElem?.mp hc
    cases fetches with
    | zero => exact ⟨.cbReturn i, trivial, by simp [step, move, hi]⟩
    | succ fetches => exact ⟨.fetch i, trivial, by simp [step, move, hi]⟩
  by_cases hreturned : Callback.returned ∈ s.handlers
  · obtain ⟨i, hi⟩ := List.mem_iff_getElem?.mp hreturned
    have hpos : 0 < s.threads := by
      rw [show s.threads = s.endpoint.threads from rfl, hinv.tokens]
      exact List.countP_pos_iff.mpr ⟨.returned, List.mem_map_of_mem hreturned, rfl⟩
    exact ⟨.release i, trivial, by simp [step, move, hi, hpos]⟩
  -- the rest is waiting at the channel, done or panicked
  have hlt : s.threads < capacity := by
    refine threads_lt hinv hpanics fun c hc hholds => ?_
    cases c with
    | running fetches => exact absurd ⟨fetches, hc⟩ hrunning
    | locking fetches => exact absurd ⟨fetches, hc⟩ hlocking
    | fetching fetches => exact absurd (hfetching _ hc) Nat.one_ne_zero
    | returned => exact absurd hc hreturned
    | panicked => rfl
    | waiting fetches => cases hholds
    | done => cases hholds
  obtain ⟨c, hc, hfinished⟩ := hunfinished
  obtain ⟨i, hi⟩ := List.mem_iff_getElem?.mp hc
  cases c with
  | waiting fetches => exact ⟨.acquire i, trivial, by simp [step, move, hi, hlt]⟩
  | running fetches => exact absurd ⟨fetches, hc⟩ hrunning
  | locking fetches => exact absurd ⟨fetches, hc⟩ hlocking
  | fetching fetches => exact absurd (hfetching _ hc) Nat.one_ne_zero
  | returned => exact absurd hc hreturned
  | done => cases hfinished
  | panicked => cases hfinished

/-- The steps of requests that go on leave the panicked ones as they are. -/
theorem panicked_serves {capacity : ℕ} {s s' : Pool} {a : PoolAction} (hserves : a.Serves)
    (h : s.step capacity a = some s') :
    s'.endpoint.count (· == .panicked) = s.endpoint.count (· == .panicked) := by
  rcases step_spec h with ⟨fetches, rfl, rfl⟩ | ⟨i, before, after, hmoved, hgoes⟩
  · exact hserves.elim
  · obtain ⟨hlt, hget⟩ := List.getElem?_eq_some_iff.mp hmoved.endpoint_before
    rw [Endpoint.count, hmoved.endpoint_handlers, List.countP_set hlt, hget]
    cases hgoes with
    | fetchPanic hthreads hlocked => exact hserves.elim
    | cbPanic hthreads hlocked => exact hserves.elim
    | _ => rfl

/-- What holds of every state that a run reaches. -/
theorem reached {capacity : ℕ} {as : List PoolAction} {s : Pool}
    (h : run (step capacity) start as = some s) :
    Endpoint.Inv capacity s.endpoint ∧ s.Exclusive := by
  have hstart : start.Exclusive := rfl
  have hendpoint := run_filterMap step_endpoint h
  have hinv := throughout_of_step Endpoint.inv_step (fun _ h => h) (Endpoint.inv_start capacity)
    (as.filterMap PoolAction.endpointAction)
  exact ⟨hinv _ List.prefix_rfl _ hendpoint,
    throughout_of_step exclusive_step (fun _ h => h) hstart as _ List.prefix_rfl _ h⟩

theorem serves_of_reached {capacity : ℕ} {before as : List PoolAction} {s s' : Pool}
    (hreached : run (step capacity) start before = some s)
    (hpanics : s.endpoint.count (· == .panicked) < capacity)
    (hserves : ∀ a ∈ as, a.Serves) (hrun : run (step capacity) s as = some s') :
    s'.endpoint.count (· == .panicked) = s.endpoint.count (· == .panicked)
      ∧ as.length + s'.work = s.work
      ∧ ((∀ c ∈ s'.handlers, c.finished)
        ∨ ∃ a : PoolAction, a.Serves ∧ (s'.step capacity a).isSome) := by
  obtain ⟨hinv, hexclusive⟩ := reached (run_append hreached hrun)
  have hsteps : Steps (step capacity) (fun _ a => a.Serves) s as := steps_of_forall hserves
  have hcount : s'.endpoint.count (· == .panicked) = s.endpoint.count (· == .panicked) := by
    refine holds_of_steps
      (I := fun t => t.endpoint.count (· == .panicked) = s.endpoint.count (· == .panicked))
      (fun s a s' h hserves hstep => ?_) rfl hsteps hrun
    exact (panicked_serves hserves hstep).trans h
  have hlength : as.length + s'.work = s.work + (as.map fun _ => 0).sum :=
    length_add_eq (fun s a s' => work_step) hsteps hrun
  refine ⟨hcount, by simpa using hlength, ?_⟩
  by_cases hfinished : ∀ c ∈ s'.handlers, c.finished
  · exact .inl hfinished
  · push Not at hfinished
    simp only [Bool.not_eq_true] at hfinished
    exact .inr (exists_step hexclusive hinv (hcount.trans_lt hpanics) hfinished)

/-- **The requests are answered.** From any state of any run in which fewer callbacks
have panicked than the channel has places, requests that go on take as many steps as
there is work, and until all are finished there is a next one. -/
theorem drains {capacity : ℕ} {before as : List PoolAction} {s s' : Pool}
    (hreached : run (step capacity) start before = some s)
    (hpanics : s.endpoint.count (· == .panicked) < capacity)
    (hserves : ∀ a ∈ as, a.Serves) (hrun : run (step capacity) s as = some s') :
    as.length + s'.work = s.work
      ∧ ((∀ c ∈ s'.handlers, c.finished)
        ∨ ∃ a : PoolAction, a.Serves ∧ (s'.step capacity a).isSome) :=
  (serves_of_reached hreached hpanics hserves hrun).2

/-- The first request has panicked in a fetch, the second goes into one. -/
theorem drains_panicked :
    let s : Pool := ⟨2, false, [.panicked, .running 1]⟩
    let s' : Pool := ⟨2, true, [.panicked, .fetching 0]⟩
    [PoolAction.fetch 1, .lock 1].length + s'.work = s.work
      ∧ ((∀ c ∈ s'.handlers, c.finished)
        ∨ ∃ a : PoolAction, a.Serves ∧ (s'.step N_Thread a).isSome) := by
  have hreached : run (step N_Thread) start [.arrive 1, .acquire 0, .fetch 0, .lock 0,
      .fetchPanic 0, .arrive 1, .acquire 1] = some ⟨2, false, [.panicked, .running 1]⟩ := rfl
  have hrun : run (step N_Thread) ⟨2, false, [.panicked, .running 1]⟩ [.fetch 1, .lock 1]
      = some ⟨2, true, [.panicked, .fetching 0]⟩ := rfl
  refine drains hreached (by decide) ?_ hrun
  simp only [List.forall_mem_cons, List.not_mem_nil, false_implies, implies_true, and_true]
  exact ⟨trivial, trivial⟩

end Pool

end Go

end AuctionWorker
