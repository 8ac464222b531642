import AuctionWorker.Machine

/-!
# The threads of the C++ server

`main` of `cpp/src/main.cpp` starts the workers in `HttpServer::run` and returns.
Then `server` goes out of scope: its vector destroys every `HttpThread`, in an
order the standard library chooses. The destructor of an `HttpThread` closes
`sock` and destroys the members, the last one declared first: `http`, `ev_base`,
and then `worker`, which waits for its thread.

The worker of a thread enters `event_base_dispatch` at some time after its start
and leaves it at some later time, or never.

- `Safe`: a worker that may still use the resources of its thread finds them open.
- `safe_iff`: a run keeps `Safe` exactly if no destructor closes the socket of a
  thread whose worker is busy.
-/

namespace AuctionWorker

namespace Cpp

open Machine

/-! ## `server/server.cpp` -/

/-- `config::n_thread` -/
abbrev n_thread : ℕ :=
  3

inductive Resource where
  | opened
  | released
deriving Repr, DecidableEq

inductive Worker where
  | notStarted
  /-- before `event_base_dispatch` -/
  | started
  | dispatching
  /-- `event_base_dispatch` has returned -/
  | returned
deriving Repr, DecidableEq

/-- The worker has been started and its dispatch has not returned. -/
def Worker.busy : Worker → Bool
  | .started | .dispatching => true
  | _ => false

/-- The members as declared, and whether the destructor has completed. -/
structure HttpThread where
  worker : Worker
  ev_base : Resource
  http : Resource
  sock : Resource
  destroyed : Bool
deriving Repr, DecidableEq

def HttpThread.Opened (thread : HttpThread) : Prop :=
  thread.ev_base = .opened ∧ thread.http = .opened ∧ thread.sock = .opened

/-- A busy worker finds its event loop, its `evhttp` and its socket open. -/
def HttpThread.Safe (thread : HttpThread) : Prop :=
  thread.worker.busy → thread.Opened

/-- What the destructor of an `HttpThread` does next. -/
inductive Destructor where
  /-- `close(sock)` -/
  | body
  | http
  | ev_base
  | worker
deriving Repr, DecidableEq

/-- Where the main thread stands. -/
inductive Main (n : ℕ) where
  /-- in `HttpServer::run`, which has started `i` workers -/
  | run (i : ℕ)
  /-- in the destructor of `threads`, between two elements -/
  | threads
  | element (i : Fin n) (next : Destructor)
  | exited
deriving Repr, DecidableEq

structure HttpServer (n : ℕ) where
  main : Main n
  threads : Fin n → HttpThread

inductive ServerAction (n : ℕ) where
  /-- the main thread goes on -/
  | main
  /-- the destructor of `threads` turns to the element `i` -/
  | destroy (i : Fin n)
  /-- worker `i` calls `event_base_dispatch` -/
  | enter (i : Fin n)
  | dispatchReturns (i : Fin n)
deriving Repr, DecidableEq

namespace HttpServer

variable {n : ℕ}

def update (s : HttpServer n) (i : Fin n) (thread : HttpThread) : HttpServer n :=
  { s with threads := Function.update s.threads i thread }

/-- `~HttpThread` of the element `i` -/
def destructor (s : HttpServer n) (i : Fin n) : Destructor → Option (HttpServer n)
  | .body =>
      some { s.update i { s.threads i with sock := .released } with main := .element i .http }
  | .http =>
      some { s.update i { s.threads i with http := .released } with main := .element i .ev_base }
  | .ev_base =>
      some { s.update i { s.threads i with ev_base := .released } with
        main := .element i .worker }
  | .worker =>
      -- the destructor of the `jthread` waits for the worker
      if (s.threads i).worker.busy then none
      else some { s.update i { s.threads i with destroyed := true } with main := .threads }

def step (s : HttpServer n) : ServerAction n → Option (HttpServer n)
  | .main =>
      match s.main with
      | .run i =>
          if h : i < n then
            some { s.update ⟨i, h⟩ { s.threads ⟨i, h⟩ with worker := .started } with
              main := .run (i + 1) }
          else some { s with main := .threads }
      | .threads =>
          if ∀ i, (s.threads i).destroyed then some { s with main := .exited } else none
      | .element i next => s.destructor i next
      | .exited => none
  | .destroy i =>
      if s.main = .threads ∧ (s.threads i).destroyed = false then
        some { s with main := .element i .body }
      else none
  | .enter i =>
      if (s.threads i).worker = .started then
        some (s.update i { s.threads i with worker := .dispatching })
      else none
  | .dispatchReturns i =>
      if (s.threads i).worker = .dispatching then
        some (s.update i { s.threads i with worker := .returned })
      else none

/-- `server` as constructed, before `server.run()`. -/
def start (n : ℕ) : HttpServer n where
  main := .run 0
  threads _ := ⟨.notStarted, .opened, .opened, .opened, false⟩

/-! ## Invariants -/

def Safe (s : HttpServer n) : Prop :=
  ∀ i, (s.threads i).Safe

/-- What every run keeps: `run` releases nothing, and a destructor that is past its
body has closed the socket. -/
structure Inv (s : HttpServer n) : Prop where
  run : ∀ k, s.main = .run k → ∀ i, (s.threads i).Opened
  element : ∀ i next, s.main = .element i next → next ≠ .body →
    (s.threads i).sock = .released

/-- The socket that this step closes belongs to a worker that is not busy. -/
def ClosesIdle (s : HttpServer n) (a : ServerAction n) : Prop :=
  ∀ i, a = .main → s.main = .element i .body → (s.threads i).worker.busy = false

/-- Where one thread changes, only that thread matters. -/
theorem safe_update {s s' : HttpServer n} {i : Fin n} {thread : HttpThread} (hs : s.Safe)
    (h : s'.threads = Function.update s.threads i thread) : s'.Safe ↔ thread.Safe := by
  constructor
  · intro hsafe
    have := hsafe i
    rwa [h, Function.update_self] at this
  · intro hthread j
    rw [h]
    rcases eq_or_ne j i with rfl | hne
    · rwa [Function.update_self]
    · rw [Function.update_of_ne hne]
      exact hs j

/-! ## What a step does -/

theorem destructor_spec {s s' : HttpServer n} {i : Fin n} {next : Destructor}
    (h : s.destructor i next = some s') :
    (s'.main = .threads ∨ ∃ next', next' ≠ .body ∧ s'.main = .element i next')
      ∧ ∃ thread, s'.threads = Function.update s.threads i thread
        ∧ (next = .body ∨ (s.threads i).sock = .released → thread.sock = .released)
        ∧ thread.worker = (s.threads i).worker := by
  cases next with
  | body =>
      obtain rfl := Option.some.inj h
      exact ⟨.inr ⟨.http, by simp, rfl⟩, _, rfl, fun _ => rfl, rfl⟩
  | http =>
      obtain rfl := Option.some.inj h
      exact ⟨.inr ⟨.ev_base, by simp, rfl⟩, _, rfl, by simp, rfl⟩
  | ev_base =>
      obtain rfl := Option.some.inj h
      exact ⟨.inr ⟨.worker, by simp, rfl⟩, _, rfl, by simp, rfl⟩
  | worker =>
      rw [destructor] at h
      split at h
      · cases h
      · obtain rfl := Option.some.inj h
        exact ⟨.inl rfl, _, rfl, by simp, rfl⟩

theorem step_run {s s' : HttpServer n} {k : ℕ} (hmain : s.main = .run k)
    (h : s.step .main = some s') :
    (∃ i, s'.threads = Function.update s.threads i { s.threads i with worker := .started }
        ∧ s'.main = .run (k + 1))
      ∨ s'.threads = s.threads ∧ s'.main = .threads := by
  simp only [step, hmain] at h
  split at h
  · obtain rfl := Option.some.inj h
    exact .inl ⟨_, rfl, rfl⟩
  · obtain rfl := Option.some.inj h
    exact .inr ⟨rfl, rfl⟩

theorem step_threads {s s' : HttpServer n} (hmain : s.main = .threads)
    (h : s.step .main = some s') : s'.threads = s.threads ∧ s'.main = .exited := by
  simp only [step, hmain] at h
  split at h
  · obtain rfl := Option.some.inj h
    exact ⟨rfl, rfl⟩
  · cases h

theorem step_element {s s' : HttpServer n} {i : Fin n} {next : Destructor}
    (hmain : s.main = .element i next) (h : s.step .main = some s') :
    s.destructor i next = some s' := by
  simpa only [step, hmain] using h

theorem step_destroy {s s' : HttpServer n} {i : Fin n} (h : s.step (.destroy i) = some s') :
    s'.threads = s.threads ∧ s'.main = .element i .body := by
  rw [step] at h
  split at h
  · obtain rfl := Option.some.inj h
    exact ⟨rfl, rfl⟩
  · cases h

/-- A worker moves on, and the main thread stays where it is. -/
theorem step_enter {s s' : HttpServer n} {i : Fin n} (h : s.step (.enter i) = some s') :
    (s.threads i).worker = .started ∧ s'.main = s.main
      ∧ s'.threads = Function.update s.threads i { s.threads i with worker := .dispatching } := by
  rw [step] at h
  split at h
  · obtain rfl := Option.some.inj h
    exact ⟨‹_›, rfl, rfl⟩
  · cases h

theorem step_dispatchReturns {s s' : HttpServer n} {i : Fin n}
    (h : s.step (.dispatchReturns i) = some s') :
    s'.main = s.main
      ∧ s'.threads = Function.update s.threads i { s.threads i with worker := .returned } := by
  rw [step] at h
  split at h
  · obtain rfl := Option.some.inj h
    exact ⟨rfl, rfl⟩
  · cases h

/-! ## Runs -/

theorem resources_of_worker {s s' : HttpServer n} {i : Fin n} {w : Worker}
    (h : s'.threads = Function.update s.threads i { s.threads i with worker := w }) (j : Fin n) :
    s'.threads j = { s.threads j with worker := (s'.threads j).worker } := by
  rw [h]
  rcases eq_or_ne j i with rfl | hne
  · rw [Function.update_self]
  · rw [Function.update_of_ne hne]

theorem inv_of_worker {s s' : HttpServer n} {i : Fin n} {w : Worker} (hs : Inv s)
    (hthreads : s'.threads = Function.update s.threads i { s.threads i with worker := w })
    (hmain : s'.main = s.main ∨ ∃ k k', s.main = .run k ∧ s'.main = .run k') : Inv s' := by
  have hres := resources_of_worker hthreads
  refine ⟨fun k hk j => ?_, fun j next hnext hne => ?_⟩
  · obtain ⟨k', hk'⟩ : ∃ k', s.main = .run k' := by
      rcases hmain with hmain | ⟨k', -, hk', -⟩
      · exact ⟨k, hmain ▸ hk⟩
      · exact ⟨k', hk'⟩
    rw [hres j]
    exact hs.run k' hk' j
  · rcases hmain with hmain | ⟨-, k', -, hk'⟩
    · rw [hres j]
      exact hs.element j next (hmain ▸ hnext) hne
    · exact nomatch hk'.symm.trans hnext

theorem inv_start (n : ℕ) : Inv (start n) :=
  ⟨fun _ _ _ => ⟨rfl, rfl, rfl⟩, fun _ _ h => nomatch h⟩

/-- Between two elements and at the end the main thread promises nothing. -/
theorem inv_between {s : HttpServer n} (h : s.main = .threads ∨ s.main = .exited) : Inv s := by
  rcases h with h | h
  · exact ⟨by simp [h], by simp [h]⟩
  · exact ⟨by simp [h], by simp [h]⟩

theorem inv_step (s : HttpServer n) (a : ServerAction n) (s' : HttpServer n) (hs : Inv s)
    (h : s.step a = some s') : Inv s' := by
  cases a with
  | main =>
      cases hmain : s.main with
      | run k =>
          rcases step_run hmain h with ⟨i, hthreads, hmain'⟩ | ⟨-, hmain'⟩
          · exact inv_of_worker hs hthreads (.inr ⟨k, _, hmain, hmain'⟩)
          · exact inv_between (by simp [hmain'])
      | threads =>
          obtain ⟨-, hmain'⟩ := step_threads hmain h
          exact inv_between (by simp [hmain'])
      | element i next =>
          obtain ⟨hmain', thread, hthreads, hsock, -⟩ := destructor_spec (step_element hmain h)
          rcases hmain' with hmain' | ⟨next', -, hmain'⟩
          · exact inv_between (by simp [hmain'])
          · refine ⟨fun _ hk => (nomatch hmain'.symm.trans hk), fun j _ hj _ => ?_⟩
            obtain ⟨rfl, -⟩ := Main.element.inj (hmain'.symm.trans hj)
            rw [hthreads, Function.update_self]
            refine hsock ((eq_or_ne next .body).imp_right fun hne => ?_)
            exact hs.element i next hmain hne
      | exited => simp [step, hmain] at h
  | destroy i =>
      obtain ⟨-, hmain'⟩ := step_destroy h
      refine ⟨fun _ hk => (nomatch hmain'.symm.trans hk), fun j next hj hne => ?_⟩
      exact absurd (Main.element.inj (hmain'.symm.trans hj)).2.symm hne
  | enter i =>
      obtain ⟨-, hmain', hthreads⟩ := step_enter h
      exact inv_of_worker hs hthreads (.inl hmain')
  | dispatchReturns i =>
      obtain ⟨hmain', hthreads⟩ := step_dispatchReturns h
      exact inv_of_worker hs hthreads (.inl hmain')

/-- The destructor of a safe thread leaves it safe exactly if its body, when it is
the body that runs, finds the worker idle. -/
theorem safe_destructor {s s' : HttpServer n} {i : Fin n} {next : Destructor} (hs : Inv s)
    (hsafe : s.Safe) (hmain : s.main = .element i next) (h : s.destructor i next = some s') :
    s'.Safe ↔ (next = .body → (s.threads i).worker.busy = false) := by
  obtain ⟨-, thread, hthreads, hsock, hworker⟩ := destructor_spec h
  have hclosed : thread.sock = .released :=
    hsock ((eq_or_ne next .body).imp_right fun hne => hs.element i next hmain hne)
  have hthread : thread.Safe ↔ (s.threads i).worker.busy = false := by
    simp [HttpThread.Safe, HttpThread.Opened, hclosed, hworker]
  rw [safe_update hsafe hthreads, hthread]
  refine ⟨fun hidle _ => hidle, fun hidle => ?_⟩
  rcases eq_or_ne next .body with hbody | hne
  · exact hidle hbody
  · -- past the body the socket is closed already, so the worker is idle
    by_contra hbusy
    have hopened := hsafe i (by simpa using hbusy)
    exact absurd (hopened.2.2.symm.trans (hs.element i next hmain hne)) (by simp)

theorem safe_step {s s' : HttpServer n} {a : ServerAction n} (hs : Inv s) (hsafe : s.Safe)
    (h : s.step a = some s') : s'.Safe ↔ s.ClosesIdle a := by
  cases a with
  | main =>
      cases hmain : s.main with
      | run k =>
          refine iff_of_true ?_ (by simp [ClosesIdle, hmain])
          rcases step_run hmain h with ⟨i, hthreads, -⟩ | ⟨hthreads, -⟩
          · exact (safe_update hsafe hthreads).mpr fun _ => hs.run k hmain i
          · exact fun i => hthreads ▸ hsafe i
      | threads =>
          obtain ⟨hthreads, -⟩ := step_threads hmain h
          exact iff_of_true (fun i => hthreads ▸ hsafe i) (by simp [ClosesIdle, hmain])
      | element i next =>
          rw [safe_destructor hs hsafe hmain (step_element hmain h)]
          simp only [ClosesIdle, hmain, Main.element.injEq, forall_const]
          exact ⟨fun hidle j hj => hj.1 ▸ hidle hj.2, fun hidle hbody => hidle i ⟨rfl, hbody⟩⟩
      | exited => simp [step, hmain] at h
  | destroy i =>
      obtain ⟨hthreads, -⟩ := step_destroy h
      exact iff_of_true (fun i => hthreads ▸ hsafe i) (by simp [ClosesIdle])
  | enter i =>
      obtain ⟨hstarted, -, hthreads⟩ := step_enter h
      refine iff_of_true ((safe_update hsafe hthreads).mpr fun _ => ?_) (by simp [ClosesIdle])
      exact hsafe i (by rw [hstarted]; rfl)
  | dispatchReturns i =>
      obtain ⟨-, hthreads⟩ := step_dispatchReturns h
      exact iff_of_true ((safe_update hsafe hthreads).mpr (by simp [HttpThread.Safe, Worker.busy]))
        (by simp [ClosesIdle])

/-- **Lifetimes.** In a run of the server every busy worker finds its resources open in
every state exactly if every socket is closed while the worker of its thread is idle. -/
theorem safe_iff (n : ℕ) (as : List (ServerAction n)) :
    Throughout step Safe (start n) as ↔ Steps step ClosesIdle (start n) as := by
  refine throughout_iff_steps inv_step (fun s a s' hs hsafe h => safe_step hs hsafe h)
    (inv_start n) (fun i => ?_) as
  exact fun _ => ⟨rfl, rfl, rfl⟩

/-- `run` starts the workers and `main` returns at once: thread 0 dispatches when the
destructor of the vector turns to it. -/
def returnsFromMain : List (ServerAction n_thread) :=
  [.main, .main, .main, .enter 0, .main, .destroy 0, .main]

/-- Worker 0 is left with a closed socket, and its destructor goes on to free the
`evhttp` and the event loop below it. -/
theorem not_safe_of_returnsFromMain :
    (run step (start n_thread) returnsFromMain).map (fun s => (s.main, s.threads 0))
        = some (.element 0 .http, ⟨.dispatching, .opened, .opened, .released, false⟩)
      ∧ ¬ Throughout step Safe (start n_thread) returnsFromMain := by
  have hrun : (run step (start n_thread) returnsFromMain).map (fun s => (s.main, s.threads 0))
      = some (.element 0 .http, ⟨.dispatching, .opened, .opened, .released, false⟩) := by decide
  refine ⟨hrun, fun h => ?_⟩
  obtain ⟨s, hs, hthread⟩ := Option.map_eq_some_iff.mp hrun
  have hsafe := h returnsFromMain List.prefix_rfl s hs 0
  rw [(Prod.mk.inj hthread).2] at hsafe
  exact absurd (hsafe rfl).2.2 (by decide)

end HttpServer

end Cpp

end AuctionWorker
