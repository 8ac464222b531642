import Mathlib

/-!
# Machines and their runs

A machine is a step function: `step s a` is the state after the action `a`, none
if the action is not possible in `s`. Several threads make one machine, whose
actions name the thread that moves, so that its runs are all interleavings. A
run is a list of actions, and stops at the first that is not possible.

- `Throughout P s as`: every state of the run satisfies `P`, the first one
  included. What every step preserves holds throughout (`throughout_of_step`).
- `Steps C s as`: every step of the run meets `C`, a condition on the action and
  the state before it. Where a property breaks exactly at the steps that do not
  meet `C`, it holds throughout exactly the runs that meet `C`
  (`throughout_iff_steps`).
- `run_filterMap`: a machine whose steps are steps of another, or show nothing there,
  has runs of the other (simulation).
- `length_add_eq`: the length of a run whose steps do, or add to, a known work.
- `sum_update_add`, `sum_map_set_add`: what changes in a sum over the threads when one of
  them moves.
-/

namespace AuctionWorker

namespace Machine

variable {σ α : Type*} (step : σ → α → Option σ)

/-! ## Runs -/

def run (s : σ) (as : List α) : Option σ :=
  as.foldlM step s

/-- `P` holds in the states that the beginnings of the run lead to. -/
def Throughout (P : σ → Prop) (s : σ) (as : List α) : Prop :=
  ∀ as', as' <+: as → ∀ s', run step s as' = some s' → P s'

def Steps (C : σ → α → Prop) : σ → List α → Prop
  | _, [] => True
  | s, a :: as => ∀ s', step s a = some s' → C s a ∧ Steps C s' as

variable {step} {P I : σ → Prop} {C : σ → α → Prop}

theorem throughout_nil {s : σ} : Throughout step P s [] ↔ P s := by
  constructor
  · exact fun h => h [] List.prefix_rfl s rfl
  · rintro h as' has' s' hs'
    obtain rfl := List.prefix_nil.mp has'
    exact Option.some.inj hs' ▸ h

theorem throughout_cons {s : σ} {a : α} {as : List α} :
    Throughout step P s (a :: as)
      ↔ P s ∧ ∀ s', step s a = some s' → Throughout step P s' as := by
  constructor
  · intro h
    refine ⟨h [] List.nil_prefix s rfl, fun s₁ hstep as' has' s' hs' => ?_⟩
    refine h (a :: as') ?_ s' (Option.bind_eq_some_iff.mpr ⟨s₁, hstep, hs'⟩)
    exact List.prefix_cons_inj a |>.mpr has'
  · rintro ⟨hs, hrest⟩ as' has' s' hs'
    cases as' with
    | nil => exact Option.some.inj hs' ▸ hs
    | cons b as' =>
        obtain ⟨rfl, htail⟩ := List.cons_prefix_cons.mp has'
        obtain ⟨s₁, hstep, hs₁⟩ := Option.bind_eq_some_iff.mp hs'
        exact hrest s₁ hstep as' htail s' hs₁

theorem Throughout.head {s : σ} {as : List α} (h : Throughout step P s as) : P s :=
  h [] List.nil_prefix s rfl

/-! ## Invariants -/

/-- **Invariants.** What holds at first and survives every step holds throughout. -/
theorem throughout_of_step (hstep : ∀ s a s', I s → step s a = some s' → I s')
    (himp : ∀ s, I s → P s) {s : σ} (hs : I s) (as : List α) : Throughout step P s as := by
  induction as generalizing s with
  | nil => exact throughout_nil.mpr (himp s hs)
  | cons a as ih =>
      exact throughout_cons.mpr ⟨himp s hs, fun s' hs' => ih (hstep s a s' hs hs')⟩

/-- **Where a property breaks.** Under an invariant, a step of a state with `P` leads
to a state with `P` exactly if it meets `C`. Then `P` holds throughout a run exactly
if all its steps meet `C`. -/
theorem throughout_iff_steps (hinv : ∀ s a s', I s → step s a = some s' → I s')
    (hstep : ∀ s a s', I s → P s → step s a = some s' → (P s' ↔ C s a)) {s : σ} (hI : I s)
    (hP : P s) (as : List α) : Throughout step P s as ↔ Steps step C s as := by
  induction as generalizing s with
  | nil => exact iff_of_true (throughout_nil.mpr hP) trivial
  | cons a as ih =>
      rw [throughout_cons]
      constructor
      · rintro ⟨-, hrest⟩ s' hs'
        have hP' := (hrest s' hs').head
        exact ⟨(hstep s a s' hI hP hs').mp hP', (ih (hinv s a s' hI hs') hP').mp (hrest s' hs')⟩
      · intro hsteps
        refine ⟨hP, fun s' hs' => ?_⟩
        obtain ⟨hC, hrest⟩ := hsteps s' hs'
        exact (ih (hinv s a s' hI hs') ((hstep s a s' hI hP hs').mpr hC)).mpr hrest

/-- What the steps that meet `C` preserve, runs of such steps preserve. -/
theorem holds_of_steps (hstep : ∀ s a s', I s → C s a → step s a = some s' → I s') {s s' : σ}
    (hs : I s) {as : List α} (hsteps : Steps step C s as) (hrun : run step s as = some s') :
    I s' := by
  induction as generalizing s with
  | nil => exact Option.some.inj hrun ▸ hs
  | cons a as ih =>
      obtain ⟨s₁, hs₁, hrest⟩ := Option.bind_eq_some_iff.mp hrun
      obtain ⟨hC, hsteps⟩ := hsteps s₁ hs₁
      exact ih (hstep s a s₁ hs hC hs₁) hsteps hrest

theorem Steps.mono {C' : σ → α → Prop} (himp : ∀ s a, C s a → C' s a) {s : σ} {as : List α}
    (h : Steps step C s as) : Steps step C' s as := by
  induction as generalizing s with
  | nil => exact trivial
  | cons a as ih => exact fun s' hs' => ⟨himp s a (h s' hs').1, ih (h s' hs').2⟩

/-- The first step is possible. -/
theorem steps_cons {s s' : σ} {a : α} (h : step s a = some s') {as : List α} :
    Steps step C s (a :: as) ↔ C s a ∧ Steps step C s' as := by
  constructor
  · exact fun hsteps => hsteps s' h
  · rintro hsteps s₁ hs₁
    obtain rfl := Option.some.inj (h.symm.trans hs₁)
    exact hsteps

theorem run_cons {s s' : σ} {a : α} (h : step s a = some s') (as : List α) :
    run step s (a :: as) = run step s' as := by
  rw [run, List.foldlM_cons, h]
  rfl

theorem run_append {s s₁ s₂ : σ} {as bs : List α} (h₁ : run step s as = some s₁)
    (h₂ : run step s₁ bs = some s₂) : run step s (as ++ bs) = some s₂ := by
  rw [run, List.foldlM_append]
  exact Option.bind_eq_some_iff.mpr ⟨s₁, h₁, h₂⟩

/-- A condition on the actions alone. -/
theorem steps_of_forall {C : α → Prop} {s : σ} {as : List α} (h : ∀ a ∈ as, C a) :
    Steps step (fun _ a => C a) s as := by
  induction as generalizing s with
  | nil => exact trivial
  | cons a as ih =>
      rw [List.forall_mem_cons] at h
      exact fun s' _ => ⟨h.1, ih h.2⟩

/-! ## Two machines -/

/-- **Simulation.** If every step of a machine is, under an abstraction of its states,
the step of another that `label` names, or none, then so are its runs. -/
theorem run_filterMap {τ β : Type*} {step' : τ → β → Option τ} {abs : σ → τ}
    {label : α → Option β}
    (hsim : ∀ s a s', step s a = some s' →
      ((label a).elim (some (abs s)) (step' (abs s)) = some (abs s')))
    {s s' : σ} {as : List α} (hrun : run step s as = some s') :
    run step' (abs s) (as.filterMap label) = some (abs s') := by
  induction as generalizing s with
  | nil => exact congrArg (some ∘ abs) (Option.some.inj hrun)
  | cons a as ih =>
      obtain ⟨s₁, hs₁, hrest⟩ := Option.bind_eq_some_iff.mp hrun
      have hsim := hsim s a s₁ hs₁
      cases hlabel : label a with
      | none =>
          rw [hlabel] at hsim
          rw [List.filterMap_cons_none hlabel, Option.some.inj hsim]
          exact ih hrest
      | some b =>
          rw [hlabel] at hsim
          rw [List.filterMap_cons_some hlabel, run_cons hsim]
          exact ih hrest

/-! ## Work -/

/-- Where every step does a unit of the work that is left, or makes `more` of it, the
steps of a run and the work left after it make up what was there and what was added. -/
theorem length_add_eq {work : σ → ℕ} {more : α → ℕ}
    (hstep : ∀ s a s', C s a → step s a = some s' → work s' + 1 = work s + more a) {s s' : σ}
    {as : List α} (hsteps : Steps step C s as) (hrun : run step s as = some s') :
    as.length + work s' = work s + (as.map more).sum := by
  induction as generalizing s with
  | nil =>
      obtain rfl := Option.some.inj hrun
      exact Nat.zero_add _
  | cons a as ih =>
      obtain ⟨s₁, hs₁, hrest⟩ := Option.bind_eq_some_iff.mp hrun
      obtain ⟨hC, hsteps⟩ := hsteps s₁ hs₁
      have hwork := hstep s a s₁ hC hs₁
      have hlength := ih hsteps hrest
      rw [List.length_cons, List.map_cons, List.sum_cons]
      omega

/-! ## Threads -/

/-- Exchanging one summand. -/
theorem sum_update_add {ι M ω : Type*} [Fintype ι] [DecidableEq ι] [AddCommMonoid M]
    (f : ω → M) (w : ι → ω) (i : ι) (x : ω) :
    (∑ j, f (Function.update w i x j)) + f (w i) = (∑ j, f (w j)) + f x := by
  have hrest : ∑ j ∈ Finset.univ.erase i, f (Function.update w i x j)
      = ∑ j ∈ Finset.univ.erase i, f (w j) :=
    Finset.sum_congr rfl fun j hj => by rw [Function.update_of_ne (Finset.ne_of_mem_erase hj)]
  rw [← Finset.add_sum_erase _ _ (Finset.mem_univ i), hrest, Function.update_self,
    ← Finset.add_sum_erase _ (fun j => f (w j)) (Finset.mem_univ i)]
  abel

/-- The same for threads in a list. -/
theorem sum_map_set_add {ι M : Type*} [AddCommMonoid M] (f : ι → M) {l : List ι} {i : ℕ}
    {before : ι} (h : l[i]? = some before) (after : ι) :
    ((l.set i after).map f).sum + f before = (l.map f).sum + f after := by
  induction l generalizing i with
  | nil => cases h
  | cons thread l ih =>
      cases i with
      | zero =>
          obtain rfl := Option.some.inj h
          simp only [List.set_cons_zero, List.map_cons, List.sum_cons]
          abel
      | succ i =>
          have hrest := ih (i := i) h
          simp only [List.set_cons_succ, List.map_cons, List.sum_cons, add_assoc, hrest]

end Machine

end AuctionWorker
