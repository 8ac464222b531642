import AuctionWorker.ScoreScript

/-!
# The length of a run of the score script

`test/calculate_performance.py` ends when all workers and `progress_bar` have ended.

- A run takes three steps for every request and every attempt that fails, and two for
  every worker, whoever moves when; until all workers are done, one of them can move
  (`length_of_run`). So a run goes on for ever only if attempts fail for ever.
- In every state of every run the bar of `progress_bar` is as wide as it should be, and
  its loop ends exactly when all requests are answered or all workers are done
  (`progressBar`).

The counts and the rate that are printed beside the bar are not modelled.
-/

namespace AuctionWorker

namespace ScoreScript

/-! ## `progress_bar` -/

def BAR_WIDTH : ℕ :=
  20

/-- `"#" * processed + "-" * (BAR_WIDTH - processed)` for `count` answers -/
def bar (total count : ℕ) : List Char :=
  let processed := count * BAR_WIDTH / total
  List.replicate processed '#' ++ List.replicate (BAR_WIDTH - processed) '-'

theorem length_bar {total count : ℕ} (h : count ≤ total) :
    (bar total count).length = BAR_WIDTH := by
  have hprocessed : count * BAR_WIDTH / total ≤ BAR_WIDTH := by
    refine Nat.div_le_of_le_mul ?_
    exact Nat.mul_le_mul_right BAR_WIDTH h
  rw [bar, List.length_append, List.length_replicate, List.length_replicate]
  exact Nat.add_sub_cancel' hprocessed

namespace State

open Machine

variable {n : ℕ} {ρ τ : Type*}

/-- `progress_bar` leaves its loop; `n` stands for `N_WORKER`. -/
def BarEnds (total : ℕ) (s : State n ρ τ) : Prop :=
  total ≤ s.response.length ∨ n ≤ s.done_threads

/-! ## Work -/

/-- The steps of a worker to its end, if it gets no further request. -/
def stepsLeft : Worker ρ τ → ℕ
  | .getting => 2
  | .posting _ => 4
  | .puttingBack _ _ => 6
  | .appending _ _ => 3
  | .leaving => 1
  | .done => 0

/-- The steps to the end of the script, if no attempt fails. -/
def work (s : State n ρ τ) : ℕ :=
  3 * s.que.length + ∑ i, stepsLeft (s.workers i)

/-- An attempt after which the request goes back into the queue. -/
def fails : Action n τ → Bool
  | .post _ .failed => true
  | .post _ (.responded status_code _) => status_code ≠ 200 && status_code ≠ 204
  | _ => false

/-- 1 for a worker that is done. -/
def isDone : Worker ρ τ → ℕ
  | .done => 1
  | _ => 0

/-- `done_threads` counts the workers that are done. -/
def Counted (s : State n ρ τ) : Prop :=
  s.done_threads = ∑ i, isDone (s.workers i)

/-! ## What a step does -/

/-- The worker `i` comes to `worker`: what is left in the queue and to do, and who is done. -/
structure Worked (s s' : State n ρ τ) (i : Fin n) (worker : Worker ρ τ) (more : ℕ) : Prop where
  workers : s'.workers = Function.update s.workers i worker
  steps : 3 * s'.que.length + stepsLeft worker + 1
    = 3 * s.que.length + stepsLeft (s.workers i) + more
  done_threads : s'.done_threads + isDone (s.workers i) = s.done_threads + isDone worker

variable {noContents : ρ → τ} {s s' : State n ρ τ}

theorem step_worked {a : Action n τ} (h : s.step noContents a = some s') :
    ∃ i worker, Worked s s' i worker (if fails a then 3 else 0) := by
  cases a with
  | get i =>
      rw [step] at h
      split at h
      · rename_i data que hworker hque
        obtain rfl := Option.some.inj h
        refine ⟨i, _, rfl, ?_, ?_⟩
        · simp only [hworker, hque, stepsLeft, fails, List.length_cons]
          rfl
        · simp [hworker, isDone, setWorker]
      · cases h
  | timeout i =>
      rw [step] at h
      split at h
      · rename_i hworker hque
        obtain rfl := Option.some.inj h
        exact ⟨i, _, rfl, by simp [hworker, stepsLeft, fails, setWorker],
          by simp [hworker, isDone, setWorker]⟩
      · cases h
  | leave i =>
      rw [step] at h
      split at h
      · rename_i hworker
        obtain rfl := Option.some.inj h
        exact ⟨i, _, rfl, by simp [hworker, stepsLeft, fails, setWorker],
          by simp [hworker, isDone]⟩
      · cases h
  | post i r =>
      simp only [step] at h
      split at h
      · rename_i data hworker
        obtain rfl := Option.some.inj h
        exact ⟨i, _, rfl, by simp [hworker, stepsLeft, fails, setWorker],
          by simp [hworker, isDone, setWorker]⟩
      · rename_i data status_code text hworker
        obtain rfl := Option.some.inj h
        refine ⟨i, onStatus noContents data status_code text, rfl, ?_, ?_⟩
        · simp only [hworker, fails, onStatus, setWorker]
          split_ifs <;> simp_all [stepsLeft]
        · simp only [hworker, onStatus, setWorker]
          split_ifs <;> simp [isDone]
      · cases h
  | putBack i =>
      rw [step] at h
      split at h
      · rename_i data failed hworker
        obtain rfl := Option.some.inj h
        refine ⟨i, _, rfl, ?_, by simp [hworker, isDone, setWorker]⟩
        simp only [hworker, stepsLeft, fails, List.length_append, List.length_singleton,
          Bool.false_eq_true, if_false]
        omega
      · cases h
  | append i =>
      rw [step] at h
      split at h
      · rename_i data text hworker
        obtain rfl := Option.some.inj h
        exact ⟨i, _, rfl, by simp [hworker, stepsLeft, fails, setWorker],
          by simp [hworker, isDone, setWorker]⟩
      · cases h

/-! ## The length of a run -/

theorem work_step {a : Action n τ} (h : s.step noContents a = some s') :
    s'.work + 1 = s.work + if fails a then 3 else 0 := by
  obtain ⟨i, worker, hworkers, hsteps, -⟩ := step_worked h
  have hsum := sum_update_add stepsLeft s.workers i worker
  rw [work, work, hworkers]
  omega

theorem counted_step (s : State n ρ τ) (a : Action n τ) (s' : State n ρ τ) (hs : s.Counted)
    (h : s.step noContents a = some s') : s'.Counted := by
  obtain ⟨i, worker, hworkers, -, hdone⟩ := step_worked h
  have hsum := sum_update_add isDone s.workers i worker
  rw [Counted] at hs ⊢
  rw [hworkers]
  omega

/-- A worker that is not done has something to do. -/
theorem exists_step {i : Fin n} (hi : s.workers i ≠ .done) :
    ∃ a, (s.step noContents a).isSome := by
  cases hworker : s.workers i with
  | getting =>
      cases hque : s.que with
      | nil => exact ⟨.timeout i, by simp [step, hworker, hque]⟩
      | cons data que => exact ⟨.get i, by simp [step, hworker, hque]⟩
  | posting data => exact ⟨.post i .failed, by simp [step, hworker]⟩
  | puttingBack data failed => exact ⟨.putBack i, by simp [step, hworker]⟩
  | appending data text => exact ⟨.append i, by simp [step, hworker]⟩
  | leaving => exact ⟨.leave i, by simp [step, hworker]⟩
  | done => exact absurd hworker hi

/-- **The length of a run**: three steps for every request and every attempt that fails,
two for every worker, of which those that are left are still to come. -/
theorem length_of_run (noContents : ρ → τ) {generated : List ρ} {as : List (Action n τ)}
    (hrun : run (step noContents) (start generated) as = some s) :
    as.length + s.work = 3 * generated.length + 2 * n + 3 * as.countP fails
      ∧ ((∀ i, s.workers i = .done) ∨ ∃ a, (s.step noContents a).isSome) := by
  have hlength : as.length + s.work
      = (start generated : State n ρ τ).work + (as.map fun a => if fails a then 3 else 0).sum :=
    length_add_eq (fun s a s' _ => work_step) (steps_of_forall fun _ _ => trivial) hrun
  have hstart : (start generated : State n ρ τ).work = 3 * generated.length + 2 * n := by
    simp [work, start, stepsLeft, mul_comm]
  have hfails : ∀ as : List (Action n τ),
      (as.map fun a => if fails a then 3 else 0).sum = 3 * as.countP fails := by
    intro as
    induction as with
    | nil => rfl
    | cons a as ih =>
        rw [List.map_cons, List.sum_cons, List.countP_cons, ih]
        split_ifs <;> omega
  refine ⟨by rw [hlength, hstart, hfails], ?_⟩
  by_cases hdone : ∀ i, s.workers i = .done
  · exact .inl hdone
  · push Not at hdone
    obtain ⟨i, hi⟩ := hdone
    exact .inr (exists_step hi)

/-- One worker, one request, and a server that is up at the second attempt. -/
theorem length_of_run_secondAttempt :
    let as : List (Action 1 String) := [.get 0, .post 0 .failed, .putBack 0, .get 0,
      .post 0 (.responded 204 ""), .append 0, .timeout 0, .leave 0]
    ∃ s, run (step id) (start ["request"]) as = some s
      ∧ as.length + s.work = 3 * ["request"].length + 2 * 1 + 3 * as.countP fails
      ∧ ((∀ i, s.workers i = .done) ∨ ∃ a, (s.step id a).isSome) :=
  ⟨_, rfl, length_of_run id rfl⟩

/-! ## The bar -/

theorem Accounted.length_eq {generated : List ρ} (h : s.Accounted generated) :
    generated.length
      = s.que.length + (∑ i, held (s.workers i)).card + s.response.length := by
  have hcard := congrArg Multiset.card h
  simpa [answered] using hcard

/-- All requests are answered as soon as there are as many answers. -/
theorem Accounted.answered_iff {generated : List ρ} (h : s.Accounted generated) :
    (s.response.map Entry.data).Perm generated ↔ generated.length ≤ s.response.length := by
  constructor
  · intro hperm
    exact (hperm.length_eq.symm.trans (List.length_map _)).le
  · intro hle
    have hlength := h.length_eq
    have hque : s.que = [] := List.length_eq_zero_iff.mp (by omega)
    have hheld : ∑ i, held (s.workers i) = 0 := Multiset.card_eq_zero.mp (by omega)
    rw [Accounted, hque, hheld] at h
    exact Multiset.coe_eq_coe.mp (by simpa [answered] using h.symm)

theorem isDone_le (worker : Worker ρ τ) : isDone worker ≤ 1 := by
  cases worker <;> simp [isDone]

theorem Counted.done_iff (h : s.Counted) : n ≤ s.done_threads ↔ ∀ i, s.workers i = .done := by
  constructor
  · intro hle i
    by_contra hi
    have hzero : isDone (s.workers i) < 1 := by
      cases hworker : s.workers i with
      | done => exact absurd hworker hi
      | _ => exact Nat.one_pos
    have hlt : ∑ i, isDone (s.workers i) < ∑ _i : Fin n, 1 :=
      Finset.sum_lt_sum (fun j _ => isDone_le _) ⟨i, Finset.mem_univ i, hzero⟩
    rw [← h, Fin.sum_const, smul_eq_mul, mul_one] at hlt
    omega
  · intro hdone
    rw [h]
    simp [hdone, isDone]

/-- **The progress bar** in every state of every run: it is `BAR_WIDTH` wide, and its loop
ends when all requests are answered or all workers are done. -/
theorem progressBar (noContents : ρ → τ) (generated : List ρ) (as : List (Action n τ)) :
    Throughout (step noContents)
      (fun s => (bar generated.length s.response.length).length = BAR_WIDTH
        ∧ (s.BarEnds generated.length ↔ (s.response.map Entry.data).Perm generated
          ∨ ∀ i, s.workers i = .done))
      (start generated) as := by
  refine throughout_of_step (I := fun s => s.Accounted generated ∧ s.Counted) ?_ ?_ ⟨?_, ?_⟩ as
  · rintro s a s' ⟨haccounted, hcounted⟩ h
    exact ⟨accounted_step haccounted h, counted_step s a s' hcounted h⟩
  · rintro s ⟨haccounted, hcounted⟩
    refine ⟨length_bar ?_, or_congr haccounted.answered_iff.symm hcounted.done_iff⟩
    have hlength := haccounted.length_eq
    omega
  · simp [Accounted, start, held, answered]
  · simp [Counted, start, isDone]

end State

end ScoreScript

end AuctionWorker
