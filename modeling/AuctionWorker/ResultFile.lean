import AuctionWorker.ScoreScript

/-!
# The result file

`test/calculate_performance.py` sorts the answers of an evaluation, writes them line by
line into `test/result.json`, and compares the file with the expected one.

- Two files are the same exactly if they hold the same answers, each as often
  (`resultFile_eq_iff`).
- If what the workers accept is a function of the request, the answers do not depend
  on the number of workers, on their interleaving, or on how often a connection fails
  or another status code comes back (`response_perm`).
-/

namespace AuctionWorker

/-! ## The file -/

/-- `"\n".join(response) + "\n"`, after `response.sort()` -/
def resultFile (response : List (List Char)) : List Char :=
  ['\n'].intercalate (response.insertionSort (· ≤ ·)) ++ ['\n']

theorem insertionSort_eq_iff {l l' : List (List Char)} :
    l.insertionSort (· ≤ ·) = l'.insertionSort (· ≤ ·) ↔ l.Perm l' := by
  constructor
  · intro h
    exact (List.perm_insertionSort _ l).symm.trans (h ▸ List.perm_insertionSort _ l')
  · intro h
    refine List.Perm.eq_of_pairwise (fun s t _ _ => le_antisymm)
      (List.pairwise_insertionSort _ l) (List.pairwise_insertionSort _ l') ?_
    exact (List.perm_insertionSort _ l).trans (h.trans (List.perm_insertionSort _ l').symm)

/-- The sorted answers are read back from the file. -/
theorem splitOn_sorted {response : List (List Char)} (hlines : ∀ text ∈ response, '\n' ∉ text)
    (hne : response ≠ []) :
    (['\n'].intercalate (response.insertionSort (· ≤ ·))).splitOn '\n'
      = response.insertionSort (· ≤ ·) := by
  refine List.splitOn_intercalate '\n' (fun text htext => ?_) ?_
  · exact hlines text ((List.mem_insertionSort _).mp htext)
  · rw [← List.length_pos_iff, List.length_insertionSort]
    exact List.length_pos_iff.mpr hne

/-- **The same file** for the same answers, each as often. -/
theorem resultFile_eq_iff {response response' : List (List Char)}
    (hlines : ∀ text ∈ response, '\n' ∉ text) (hlines' : ∀ text ∈ response', '\n' ∉ text)
    (hne : response ≠ []) (hne' : response' ≠ []) :
    resultFile response = resultFile response' ↔ response.Perm response' := by
  rw [← insertionSort_eq_iff]
  constructor
  · intro h
    have hsplit := congrArg (List.splitOn '\n') (List.append_cancel_right h)
    rwa [splitOn_sorted hlines hne, splitOn_sorted hlines' hne'] at hsplit
  · intro h
    rw [resultFile, resultFile, h]

/-! ## The answers of a run -/

namespace ScoreScript

namespace State

open Machine

variable {n : ℕ} {ρ τ : Type*}

section Answers

variable (noContents answer : ρ → τ) (generated : List ρ)

/-- What the worker takes for an answer to its request is the answer. -/
def Conforms (s : State n ρ τ) : Action n τ → Prop
  | .post i (.responded status_code text) => ∀ data ∈ generated, s.workers i = .posting data →
      ∀ text', onStatus noContents data status_code text = .appending data text' →
        text' = answer data
  | _ => True

/-- Every answer, appended or about to be, is the one to its request. -/
structure Answering (s : State n ρ τ) : Prop where
  response : ∀ entry ∈ s.response, entry.text = answer entry.data
  appending : ∀ i data text, s.workers i = .appending data text → text = answer data

end Answers

variable {noContents answer : ρ → τ} {generated : List ρ} {s s' : State n ρ τ}

theorem mem_generated (h : s.Accounted generated) {i : Fin n} {data : ρ}
    (hdata : data ∈ held (s.workers i)) : data ∈ generated := by
  have hsum : data ∈ ∑ j, held (s.workers j) := Multiset.mem_sum.mpr ⟨i, Finset.mem_univ i, hdata⟩
  rw [← Multiset.mem_coe, h]
  exact Multiset.mem_add.mpr (.inl (Multiset.mem_add.mpr (.inr hsum)))

theorem data_of_onStatus {data data' : ρ} {status_code : ℕ} {text text' : τ}
    (h : onStatus noContents data status_code text = .appending data' text') : data = data' := by
  unfold onStatus at h
  split_ifs at h
  · exact (Worker.appending.inj h).1
  · exact (Worker.appending.inj h).1

/-- The workers and the answers after a step: a worker comes to hold an answer only by
a status code, and only such an answer is appended. -/
theorem step_answers {a : Action n τ} (h : s.step noContents a = some s') :
    (∀ i data text, s'.workers i = .appending data text →
      s.workers i = .appending data text
        ∨ ∃ status_code text', a = .post i (.responded status_code text')
          ∧ s.workers i = .posting data
          ∧ onStatus noContents data status_code text' = .appending data text)
      ∧ (s'.response = s.response
        ∨ ∃ i data text, s.workers i = .appending data text
          ∧ s'.response = s.response ++ [⟨data, text⟩]) := by
  have hset : ∀ {i : Fin n} {worker : Worker ρ τ} {P : ℕ → τ → ρ → τ → Fin n → Prop},
      (∀ data text, worker ≠ .appending data text) →
      ∀ j data text, Function.update s.workers i worker j = .appending data text →
        s.workers j = .appending data text
          ∨ ∃ status_code text', P status_code text' data text j := by
    intro i worker P hworker j data text hj
    by_cases hji : j = i
    · rw [hji, Function.update_self] at hj
      exact absurd hj (hworker data text)
    · rw [Function.update_of_ne hji] at hj
      exact .inl hj
  cases a with
  | get i =>
      rw [step] at h
      split at h
      · obtain rfl := Option.some.inj h
        exact ⟨hset (by simp), .inl rfl⟩
      · cases h
  | timeout i =>
      rw [step] at h
      split at h
      · obtain rfl := Option.some.inj h
        exact ⟨hset (by simp), .inl rfl⟩
      · cases h
  | leave i =>
      rw [step] at h
      split at h
      · obtain rfl := Option.some.inj h
        exact ⟨hset (by simp), .inl rfl⟩
      · cases h
  | post i r =>
      simp only [step] at h
      split at h
      · obtain rfl := Option.some.inj h
        exact ⟨hset (by simp), .inl rfl⟩
      · rename_i data status_code text hworker
        obtain rfl := Option.some.inj h
        refine ⟨fun j data' text' hj => ?_, .inl rfl⟩
        replace hj : Function.update s.workers i (onStatus noContents data status_code text) j
            = .appending data' text' := hj
        by_cases hji : j = i
        · subst hji
          rw [Function.update_self] at hj
          obtain rfl := data_of_onStatus hj
          exact .inr ⟨status_code, text, rfl, hworker, hj⟩
        · rw [Function.update_of_ne hji] at hj
          exact .inl hj
      · cases h
  | putBack i =>
      rw [step] at h
      split at h
      · obtain rfl := Option.some.inj h
        exact ⟨hset (by simp), .inl rfl⟩
      · cases h
  | append i =>
      rw [step] at h
      split at h
      · rename_i data text hworker
        obtain rfl := Option.some.inj h
        exact ⟨hset (by simp), .inr ⟨i, data, text, hworker, rfl⟩⟩
      · cases h

theorem answering_step {a : Action n τ} (haccounted : s.Accounted generated)
    (hs : s.Answering answer) (hconforms : s.Conforms noContents answer generated a)
    (h : s.step noContents a = some s') : s'.Answering answer := by
  obtain ⟨hworkers, hresponse⟩ := step_answers h
  constructor
  · rcases hresponse with heq | ⟨i, data, text, hworker, heq⟩
    · rw [heq]
      exact hs.response
    · rw [heq]
      refine List.forall_mem_append.mpr ⟨hs.response, List.forall_mem_singleton.mpr ?_⟩
      exact hs.appending i data text hworker
  · intro i data text hi
    rcases hworkers i data text hi with hbefore | ⟨status_code, text', rfl, hposting, hstatus⟩
    · exact hs.appending i data text hbefore
    · have hmem : data ∈ generated := by
        refine mem_generated haccounted (i := i) ?_
        rw [hposting]
        exact Multiset.mem_singleton_self data
      exact hconforms data hmem hposting text hstatus

/-- **The answers of every run** in which the workers take nothing but the answer to a
request for one: when all of at least one worker are done, they are the answers to the
generated requests. -/
theorem response_perm (hn : 0 < n) {as : List (Action n τ)}
    (hsteps : Steps (step noContents) (Conforms noContents answer generated) (start generated) as)
    (hrun : run (step noContents) (start generated) as = some s)
    (hdone : ∀ i, s.workers i = .done) :
    (s.response.map Entry.text).Perm (generated.map answer) := by
  have hstart : (start generated : State n ρ τ).Accounted generated := by
    simp [Accounted, start, held, answered]
  have hanswering : (start generated : State n ρ τ).Answering answer := by
    refine ⟨List.forall_mem_nil _, ?_⟩
    intro i data text h
    cases h
  have hinv := holds_of_steps
    (I := fun s => s.Accounted generated ∧ s.Attended ∧ s.Answering answer)
    (fun s a s' h hconforms hstep => ⟨accounted_step h.1 hstep, attended_step h.2.1 hstep,
      answering_step h.1 h.2.2 hconforms hstep⟩)
    ⟨hstart, .inr ⟨⟨0, hn⟩, rfl⟩, hanswering⟩ hsteps hrun
  obtain ⟨haccounted, hattended, hanswering⟩ := hinv
  have hque : s.que = [] := hattended.resolve_right (by simp [hdone, ended])
  have hsum : ∑ i, held (s.workers i) = 0 := Finset.sum_eq_zero fun i _ => by
    rw [hdone i]
    rfl
  rw [Accounted, hque, hsum] at haccounted
  have hdata : (s.response.map Entry.data).Perm generated :=
    Multiset.coe_eq_coe.mp (by simpa [answered] using haccounted.symm)
  have htexts : s.response.map Entry.text = (s.response.map Entry.data).map answer := by
    rw [List.map_map]
    exact List.map_congr_left hanswering.response
  rw [htexts]
  exact hdata.map answer

end State

end ScoreScript

end AuctionWorker
