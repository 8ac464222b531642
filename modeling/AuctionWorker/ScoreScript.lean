import AuctionWorker.Machine

/-!
# The workers of the score script

`test/calculate_performance.py` puts the generated requests into a queue. `N_WORKER`
threads run `send_request`: each takes a request out, posts it, and appends the
answer to `response`, or puts the request back if the connection fails or the
status is neither 200 nor 204. A worker ends when the queue is empty for as long
as `get` waits, while others may still hold requests and put them back.

- `Accounted`: the generated requests are those in the queue, those a worker
  holds, and those answered.
- `accounted`: so in every state of every run, and once all of at least one
  worker have ended, every request has its one answer.
-/

namespace AuctionWorker

namespace ScoreScript

open Machine

/-! ## `send_request` -/

/-- What `requests.post` comes to: an exception, or a status code and a text. -/
inductive Post (τ : Type*) where
  | failed
  | responded (status_code : ℕ) (text : τ)

/-- Where a worker stands, with the request it holds in `data`. -/
inductive Worker (ρ τ : Type*) where
  /-- at `que.get` -/
  | getting
  | posting (data : ρ)
  /-- at `que.put`, after an exception or with another status code -/
  | puttingBack (data : ρ) (failed : Bool)
  /-- at `response.append` -/
  | appending (data : ρ) (text : τ)
  /-- `que.get` has timed out -/
  | leaving
  | done

/-- An element of `response`, beside the request it answers. The script keeps the
text alone. -/
structure Entry (ρ τ : Type*) where
  data : ρ
  text : τ

structure State (n : ℕ) (ρ τ : Type*) where
  que : List ρ
  workers : Fin n → Worker ρ τ
  response : List (Entry ρ τ)
  done_threads : ℕ
  server_alive : Bool

inductive Action (n : ℕ) (τ : Type*) where
  | get (i : Fin n)
  | timeout (i : Fin n)
  | leave (i : Fin n)
  | post (i : Fin n) (r : Post τ)
  | putBack (i : Fin n)
  | append (i : Fin n)

variable {n : ℕ} {ρ τ : Type*}

namespace State

def setWorker (s : State n ρ τ) (i : Fin n) (worker : Worker ρ τ) : State n ρ τ :=
  { s with workers := Function.update s.workers i worker }

/-- The branches on `r.status_code`. `noContents` is the text for status 204, which
names the `auction_id` of the request. -/
def onStatus (noContents : ρ → τ) (data : ρ) (status_code : ℕ) (text : τ) : Worker ρ τ :=
  if status_code = 200 then .appending data text
  else if status_code = 204 then .appending data (noContents data)
  else .puttingBack data false

/-- One step of a worker. -/
def step (noContents : ρ → τ) (s : State n ρ τ) : Action n τ → Option (State n ρ τ)
  | .get i =>
      match s.workers i, s.que with
      | .getting, data :: que => some { s.setWorker i (.posting data) with que := que }
      | _, _ => none
  | .timeout i =>
      match s.workers i, s.que with
      | .getting, [] => some (s.setWorker i .leaving)
      | _, _ => none
  | .leave i =>
      match s.workers i with
      | .leaving => some { s.setWorker i .done with done_threads := s.done_threads + 1 }
      | _ => none
  | .post i r =>
      match s.workers i, r with
      | .posting data, .failed => some (s.setWorker i (.puttingBack data true))
      | .posting data, .responded status_code text =>
          some { s.setWorker i (onStatus noContents data status_code text) with
            server_alive := true }
      | _, _ => none
  | .putBack i =>
      match s.workers i with
      | .puttingBack data failed =>
          some { s.setWorker i .getting with
            que := s.que ++ [data], server_alive := !failed && s.server_alive }
      | _ => none
  | .append i =>
      match s.workers i with
      | .appending data text =>
          some { s.setWorker i .getting with response := s.response ++ [⟨data, text⟩] }
      | _ => none

/-- The queue is filled before the workers start. -/
def start (generated : List ρ) : State n ρ τ where
  que := generated
  workers _ := .getting
  response := []
  done_threads := 0
  server_alive := true

/-! ## Requests -/

/-- The request the worker has taken out of the queue and neither put back nor
answered. -/
def held : Worker ρ τ → Multiset ρ
  | .posting data | .puttingBack data _ | .appending data _ => {data}
  | _ => 0

/-- The worker will take no further request. -/
def ended : Worker ρ τ → Bool
  | .leaving | .done => true
  | _ => false

def answered (s : State n ρ τ) : Multiset ρ :=
  s.response.map Entry.data

/-- Every generated request is in one place. -/
def Accounted (generated : List ρ) (s : State n ρ τ) : Prop :=
  (generated : Multiset ρ) = s.que + (∑ i, held (s.workers i)) + s.answered

/-- As long as a request waits, some worker is there to come back for it. -/
def Attended (s : State n ρ τ) : Prop :=
  s.que = [] ∨ ∃ i, ended (s.workers i) = false

/-! ## What a step does -/

/-- The worker `i` comes to `worker`, and a request it gives or takes changes place. -/
structure Moved (s s' : State n ρ τ) (i : Fin n) (worker : Worker ρ τ) : Prop where
  workers : s'.workers = Function.update s.workers i worker
  requests : (s'.que : Multiset ρ) + held worker + s'.answered
    = s.que + held (s.workers i) + s.answered
  ends : ended worker → s'.que = [] ∨ ended (s.workers i) ∧ s'.que = s.que

@[simp] theorem held_onStatus (noContents : ρ → τ) (data : ρ) (status_code : ℕ) (text : τ) :
    held (onStatus noContents data status_code text) = {data} := by
  unfold onStatus
  split_ifs <;> rfl

@[simp] theorem ended_onStatus (noContents : ρ → τ) (data : ρ) (status_code : ℕ) (text : τ) :
    ended (onStatus noContents data status_code text) = false := by
  unfold onStatus
  split_ifs <;> rfl

theorem step_get {noContents : ρ → τ} {s s' : State n ρ τ} {i : Fin n}
    (h : s.step noContents (.get i) = some s') : ∃ worker, Moved s s' i worker := by
  rw [step] at h
  split at h
  · rename_i data que hworker hque
    obtain rfl := Option.some.inj h
    refine ⟨.posting data, rfl, ?_, fun hended => nomatch hended⟩
    simp only [hworker, hque, held, add_zero, ← Multiset.cons_coe, ← Multiset.singleton_add]
    exact congrArg (· + s.answered) (add_comm _ _)
  · cases h

theorem step_timeout {noContents : ρ → τ} {s s' : State n ρ τ} {i : Fin n}
    (h : s.step noContents (.timeout i) = some s') : ∃ worker, Moved s s' i worker := by
  rw [step] at h
  split at h
  · rename_i hworker hque
    obtain rfl := Option.some.inj h
    exact ⟨.leaving, rfl, by simp [hworker, held, setWorker, answered], fun _ => .inl hque⟩
  · cases h

theorem step_leave {noContents : ρ → τ} {s s' : State n ρ τ} {i : Fin n}
    (h : s.step noContents (.leave i) = some s') : ∃ worker, Moved s s' i worker := by
  rw [step] at h
  split at h
  · rename_i hworker
    obtain rfl := Option.some.inj h
    refine ⟨.done, rfl, by simp [hworker, held, setWorker, answered], fun _ => .inr ⟨?_, rfl⟩⟩
    rw [hworker]
    rfl
  · cases h

theorem step_post {noContents : ρ → τ} {s s' : State n ρ τ} {i : Fin n} {r : Post τ}
    (h : s.step noContents (.post i r) = some s') : ∃ worker, Moved s s' i worker := by
  simp only [step] at h
  split at h
  · rename_i data hworker
    obtain rfl := Option.some.inj h
    refine ⟨.puttingBack data true, rfl, ?_, fun hended => nomatch hended⟩
    simp [hworker, held, setWorker, answered]
  · rename_i data status_code text hworker
    obtain rfl := Option.some.inj h
    refine ⟨_, rfl, ?_, fun hended => ?_⟩
    · rw [held_onStatus, hworker]
      rfl
    · rw [ended_onStatus] at hended
      cases hended
  · cases h

theorem step_putBack {noContents : ρ → τ} {s s' : State n ρ τ} {i : Fin n}
    (h : s.step noContents (.putBack i) = some s') : ∃ worker, Moved s s' i worker := by
  rw [step] at h
  split at h
  · rename_i data failed hworker
    obtain rfl := Option.some.inj h
    refine ⟨.getting, rfl, ?_, fun hended => nomatch hended⟩
    simp only [hworker, held, add_zero, ← Multiset.coe_add, Multiset.coe_singleton]
    rfl
  · cases h

theorem step_append {noContents : ρ → τ} {s s' : State n ρ τ} {i : Fin n}
    (h : s.step noContents (.append i) = some s') : ∃ worker, Moved s s' i worker := by
  rw [step] at h
  split at h
  · rename_i data text hworker
    obtain rfl := Option.some.inj h
    refine ⟨.getting, rfl, ?_, fun hended => nomatch hended⟩
    simp only [hworker, held, add_zero, answered, List.map_append, List.map_singleton,
      ← Multiset.coe_add, Multiset.coe_singleton, add_assoc]
    exact congrArg _ (add_comm _ _)
  · cases h

theorem step_spec {noContents : ρ → τ} {s s' : State n ρ τ} {a : Action n τ}
    (h : s.step noContents a = some s') : ∃ i worker, Moved s s' i worker := by
  cases a with
  | get i => exact ⟨i, step_get h⟩
  | timeout i => exact ⟨i, step_timeout h⟩
  | leave i => exact ⟨i, step_leave h⟩
  | post i r => exact ⟨i, step_post h⟩
  | putBack i => exact ⟨i, step_putBack h⟩
  | append i => exact ⟨i, step_append h⟩

/-! ## Runs -/

theorem accounted_step {noContents : ρ → τ} {generated : List ρ} {s s' : State n ρ τ}
    {a : Action n τ} (hs : s.Accounted generated) (h : s.step noContents a = some s') :
    s'.Accounted generated := by
  obtain ⟨i, worker, hworkers, hrequests, -⟩ := step_spec h
  have hsum := sum_update_add held s.workers i worker
  rw [Accounted, hworkers]
  refine hs.trans (add_right_cancel (b := held (s.workers i) + held worker) ?_)
  calc s.que + (∑ j, held (s.workers j)) + s.answered + (held (s.workers i) + held worker)
      = (s.que + held (s.workers i) + s.answered)
          + ((∑ j, held (s.workers j)) + held worker) := by abel
    _ = (s'.que + held worker + s'.answered)
          + ((∑ j, held (Function.update s.workers i worker j)) + held (s.workers i)) := by
        rw [hrequests, hsum]
    _ = s'.que + (∑ j, held (Function.update s.workers i worker j)) + s'.answered
          + (held (s.workers i) + held worker) := by abel

theorem attended_step {noContents : ρ → τ} {s s' : State n ρ τ} {a : Action n τ}
    (hs : s.Attended) (h : s.step noContents a = some s') : s'.Attended := by
  obtain ⟨i, worker, hworkers, -, hends⟩ := step_spec h
  cases hended : ended worker with
  | false => exact .inr ⟨i, by rwa [hworkers, Function.update_self]⟩
  | true =>
      rcases hends hended with hque | ⟨hbefore, hque⟩
      · exact .inl hque
      · -- the worker had ended before, so another one attends to the queue
        refine hs.imp (hque ▸ ·) fun ⟨j, hj⟩ => ⟨j, ?_⟩
        have hne : j ≠ i := by
          rintro rfl
          rw [hbefore] at hj
          cases hj
        rwa [hworkers, Function.update_of_ne hne]

/-- **Every request once.** In every state of every run the generated requests are in
the queue, held by a worker or answered. When all of at least one worker are done,
`response` has one entry for each of them. -/
theorem accounted (noContents : ρ → τ) (generated : List ρ) (as : List (Action n τ)) :
    Throughout (step noContents)
      (fun s => s.Accounted generated
        ∧ (0 < n → (∀ i, s.workers i = .done) → (s.response.map Entry.data).Perm generated))
      (start generated) as := by
  refine throughout_of_step (I := fun s => s.Accounted generated ∧ (0 < n → s.Attended))
    ?_ ?_ ⟨?_, fun hn => .inr ⟨⟨0, hn⟩, rfl⟩⟩ as
  · rintro s a s' ⟨haccounted, hattended⟩ h
    exact ⟨accounted_step haccounted h, fun hn => attended_step (hattended hn) h⟩
  · rintro s ⟨haccounted, hattended⟩
    refine ⟨haccounted, fun hn hdone => ?_⟩
    have hque : s.que = [] := (hattended hn).resolve_right (by simp [hdone, ended])
    have hsum : ∑ i, held (s.workers i) = 0 := Finset.sum_eq_zero fun i _ => by
      rw [hdone i]
      rfl
    rw [Accounted, hque, hsum] at haccounted
    exact Multiset.coe_eq_coe.mp (by simpa [answered] using haccounted.symm)
  · simp [Accounted, start, held, answered]

/-- Without workers nobody is left to be done, and the requests stay in the queue. -/
theorem not_answered_without_workers :
    ¬ Throughout (step fun data => data)
      (fun s : State 0 String String => s.Accounted ["request"]
        ∧ ((∀ i, s.workers i = .done) → (s.response.map Entry.data).Perm ["request"]))
      (start ["request"]) [] := by
  intro h
  have hperm := (throughout_nil.mp h).2 fun i => i.elim0
  exact absurd hperm.length_eq (by decide)

end State

end ScoreScript

end AuctionWorker
