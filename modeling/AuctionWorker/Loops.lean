import Mathlib

/-!
# Loops over a list

The loop shapes an imperative program runs over a list, as folds, and the list
function each one computes:

- a loop that appends what passes a test is `filter` (`foldl_eq_filter`), one
  that appends what a partial function yields is `filterMap`
  (`foldl_eq_filterMap`);
- a loop that raises a flag and never lowers it is `any` (`foldl_eq_any`);
- a loop that overwrites a variable ends with the last value written
  (`foldl_eq_lastWrite`);
- a loop in a monad whose body never fails is the pure loop (`foldlM_eq_pure`);
- a loop whose body may fail completes exactly if the body completes on every
  element (`exists_foldlM_ok`, `exists_step_ok`), and one that tests its elements
  exactly if no test fails (`foldlM_test_eq_ok_iff`);
- a scan that keeps the best value seen, starting from the first element
  (`runningMin`) or from a sentinel (`sentinelScan`), is the first minimum
  (`IsFirstMin`), the latter only if something is below the sentinel.
-/

namespace AuctionWorker

namespace Loops

variable {α β : Type*}

/-! ## Collecting and flagging -/

theorem foldl_eq_filterMap {step : List β → α → List β} {g : α → Option β} {l : List α}
    (h : ∀ acc, ∀ a ∈ l, step acc a = acc ++ (g a).toList) (acc : List β) :
    l.foldl step acc = acc ++ l.filterMap g := by
  induction l generalizing acc with
  | nil => simp
  | cons a l ih =>
      rw [List.foldl_cons, h acc a (List.mem_cons_self ..),
        ih fun acc b hb => h acc b (List.mem_cons_of_mem _ hb)]
      cases hg : g a <;> simp [hg]

theorem foldl_eq_filter {step : List α → α → List α} {p : α → Bool} {l : List α}
    (h : ∀ acc, ∀ a ∈ l, step acc a = if p a then acc ++ [a] else acc) (acc : List α) :
    l.foldl step acc = acc ++ l.filter p := by
  rw [← List.filterMap_eq_filter]
  refine foldl_eq_filterMap (fun acc a ha => ?_) acc
  rw [h acc a ha]
  cases hp : p a <;> simp [hp, Option.guard]

theorem foldl_eq_any {step : Bool → α → Bool} {p : α → Bool}
    (h : ∀ b a, step b a = (b || p a)) (l : List α) (b : Bool) :
    l.foldl step b = (b || l.any p) := by
  induction l generalizing b with
  | nil => simp
  | cons a l ih => rw [List.foldl_cons, h, ih, List.any_cons, Bool.or_assoc]

/-! ## Overwriting -/

/-- The value that is written last, if any is. -/
def lastWrite {γ : Type*} (write : α → Option γ) (l : List α) : Option γ :=
  l.reverse.findSome? write

section Overwriting

variable {γ : Type*} {write : α → Option γ}

theorem lastWrite_append (l l' : List α) :
    lastWrite write (l ++ l') = (lastWrite write l').or (lastWrite write l) := by
  rw [lastWrite, List.reverse_append, List.findSome?_append]
  rfl

theorem lastWrite_cons (a : α) (l : List α) :
    lastWrite write (a :: l) = (lastWrite write l).or (write a) := by
  rw [← List.singleton_append, lastWrite_append]
  cases hwrite : write a <;> simp [lastWrite, hwrite]

theorem lastWrite_congr {write' : α → Option γ} {l : List α} (h : ∀ a ∈ l, write a = write' a) :
    lastWrite write l = lastWrite write' l := by
  induction l with
  | nil => rfl
  | cons a l ih =>
      rw [lastWrite_cons, lastWrite_cons, h a List.mem_cons_self,
        ih fun b hb => h b (List.mem_cons_of_mem _ hb)]

/-- What the steps that write nothing leave alone holds the last value written. -/
theorem foldl_eq_lastWrite {σ : Type*} {step : σ → α → σ} {get : σ → γ}
    (h : ∀ s a, get (step s a) = (write a).getD (get s)) (l : List α) (s : σ) :
    get (l.foldl step s) = (lastWrite write l).getD (get s) := by
  induction l generalizing s with
  | nil => rfl
  | cons a l ih =>
      rw [List.foldl_cons, ih, h, lastWrite_cons]
      cases lastWrite write l <;> rfl

end Overwriting

/-! ## Loops that cannot fail -/

/-- The states that satisfy `P` are the ones on which the body does not fail. -/
theorem foldlM_eq_pure_of_inv {m : Type → Type*} [Monad m] [LawfulMonad m] {σ : Type}
    {step : σ → α → m σ} {f : σ → α → σ} {P : σ → Prop} {l : List α}
    (h : ∀ s, P s → ∀ a ∈ l, step s a = pure (f s a) ∧ P (f s a)) {s : σ} (hs : P s) :
    l.foldlM step s = pure (l.foldl f s) := by
  induction l generalizing s with
  | nil => rfl
  | cons a l ih =>
      obtain ⟨hstep, hP⟩ := h s hs a (List.mem_cons_self ..)
      rw [List.foldlM_cons, hstep, pure_bind,
        ih (fun s hs b hb => h s hs b (List.mem_cons_of_mem _ hb)) hP]
      rfl

theorem foldlM_eq_pure {m : Type → Type*} [Monad m] [LawfulMonad m] {σ : Type}
    {step : σ → α → m σ} {f : σ → α → σ} {l : List α}
    (h : ∀ s, ∀ a ∈ l, step s a = pure (f s a)) (s : σ) :
    l.foldlM step s = pure (l.foldl f s) :=
  foldlM_eq_pure_of_inv (P := fun _ => True) (fun s _ a ha => ⟨h s a ha, trivial⟩) trivial

/-- A loop whose body can fail in one way only fails in this way; if it does not
fail, the body has not failed on any element. -/
theorem foldlM_ok_or_error {ε σ : Type} {step : σ → α → Except ε σ} {err : ε} {l : List α}
    (h : ∀ s, ∀ a ∈ l, (∃ s', step s a = .ok s') ∨ step s a = .error err) (s : σ) :
    (∃ s', l.foldlM step s = .ok s' ∧ ∀ a ∈ l, ∃ s₁ s₂, step s₁ a = .ok s₂)
      ∨ l.foldlM step s = .error err := by
  induction l generalizing s with
  | nil => exact Or.inl ⟨s, rfl, fun a ha => absurd ha List.not_mem_nil⟩
  | cons b l ih =>
      rw [List.foldlM_cons]
      rcases h s b (List.mem_cons_self ..) with ⟨s₂, hok⟩ | herr
      · rw [hok]
        rcases ih (fun s a ha => h s a (List.mem_cons_of_mem _ ha)) s₂ with ⟨s', hs', hall⟩ | herr
        · refine Or.inl ⟨s', hs', fun a ha => ?_⟩
          rcases List.mem_cons.mp ha with rfl | ha'
          · exact ⟨s, s₂, hok⟩
          · exact hall a ha'
        · exact Or.inr herr
      · rw [herr]
        exact Or.inr rfl

/-! ## Loops that may fail -/

/-- A loop whose body is never refused completes. -/
theorem exists_foldlM_ok {ε σ : Type} {step : σ → α → Except ε σ} {l : List α}
    (h : ∀ s, ∀ a ∈ l, ∃ s', step s a = .ok s') (s : σ) : ∃ s', l.foldlM step s = .ok s' := by
  induction l generalizing s with
  | nil => exact ⟨s, rfl⟩
  | cons a l ih =>
      obtain ⟨s₁, hstep⟩ := h s a List.mem_cons_self
      rw [List.foldlM_cons, hstep]
      exact ih (fun s b hb => h s b (List.mem_cons_of_mem _ hb)) s₁

/-- A loop that completes has completed its body on every element. -/
theorem exists_step_ok {ε σ : Type} {step : σ → α → Except ε σ} {l : List α} {s r : σ}
    (h : l.foldlM step s = .ok r) : ∀ a ∈ l, ∃ s₁ s₂, step s₁ a = .ok s₂ := by
  induction l generalizing s with
  | nil => exact fun a ha => absurd ha List.not_mem_nil
  | cons b l ih =>
      rw [List.foldlM_cons] at h
      cases hstep : step s b with
      | error err =>
          rw [hstep] at h
          cases h
      | ok s₁ =>
          rw [hstep] at h
          exact List.forall_mem_cons.mpr ⟨⟨s, s₁, hstep⟩, ih h⟩

/-- Two bodies that agree on the elements make the same loop. -/
theorem foldlM_congr {m : Type → Type*} [Monad m] {σ : Type} {step step' : σ → α → m σ}
    {l : List α} (h : ∀ s, ∀ a ∈ l, step s a = step' s a) (s : σ) :
    l.foldlM step s = l.foldlM step' s := by
  induction l generalizing s with
  | nil => rfl
  | cons a l ih =>
      rw [List.foldlM_cons, List.foldlM_cons, h s a List.mem_cons_self]
      exact bind_congr fun s' => ih (fun s b hb => h s b (List.mem_cons_of_mem _ hb)) s'

/-- The body tests an element and takes it in only if the test says so. -/
theorem foldlM_test_eq_ok_iff {ε σ : Type} {test : α → Except ε Bool} {f : σ → α → σ}
    {step : σ → α → Except ε σ} {l : List α}
    (h : ∀ s, ∀ a ∈ l, step s a = (test a).map fun keep => if keep then f s a else s)
    {s r : σ} :
    l.foldlM step s = .ok r
      ↔ (∀ a ∈ l, ∃ keep, test a = .ok keep)
        ∧ r = (l.filter fun a => (test a).toOption.getD false).foldl f s := by
  induction l generalizing s with
  | nil =>
      simp only [List.foldlM_nil, List.filter_nil, List.foldl_nil, List.not_mem_nil,
        false_imp_iff, implies_true, true_and]
      exact ⟨fun h => (Except.ok.inj h).symm, fun h => congrArg Except.ok h.symm⟩
  | cons a l ih =>
      have ih := @ih fun s b hb => h s b (List.mem_cons_of_mem _ hb)
      rw [List.foldlM_cons, h s a List.mem_cons_self, List.forall_mem_cons, List.filter_cons]
      cases htest : test a with
      | error err =>
          refine iff_of_false (fun h => by cases h) fun h => ?_
          obtain ⟨⟨keep, hkeep⟩, -⟩ := h.1
          cases hkeep
      | ok keep =>
          rw [and_assoc, and_iff_right ⟨keep, rfl⟩]
          cases keep with
          | true => exact ih
          | false => exact ih

/-- A loop that appends the elements that pass the test. -/
theorem foldlM_filter_eq_ok_iff {ε : Type} {α : Type} {test : α → Except ε Bool}
    {step : List α → α → Except ε (List α)} {l : List α}
    (h : ∀ acc, ∀ a ∈ l, step acc a = (test a).map fun keep => if keep then acc ++ [a] else acc)
    {r : List α} :
    l.foldlM step [] = .ok r
      ↔ (∀ a ∈ l, ∃ keep, test a = .ok keep)
        ∧ r = l.filter fun a => (test a).toOption.getD false := by
  have happend : ∀ l : List α, l.foldl (fun acc a => acc ++ [a]) [] = l := fun l =>
    (foldl_eq_filterMap (g := some) (fun _ _ _ => rfl) []).trans List.filterMap_some
  rw [foldlM_test_eq_ok_iff h, happend]

/-! ## Scans for the first minimum -/

/-- `a` is the first minimum of the list. -/
def IsFirstMin (d : α → ℤ) (l : List α) (a : α) : Prop :=
  ∃ before after, l = before ++ a :: after ∧ (∀ b ∈ before, d a < d b) ∧ ∀ b ∈ after, d a ≤ d b

theorem isFirstMin_cons {d : α → ℤ} {x : α} {l : List α} {a : α} :
    IsFirstMin d (x :: l) a ↔ (a = x ∧ ∀ b ∈ l, d x ≤ d b) ∨ (d a < d x ∧ IsFirstMin d l a) := by
  constructor
  · rintro ⟨before, after, hl, hbefore, hafter⟩
    cases before with
    | nil =>
        obtain ⟨rfl, rfl⟩ := List.cons.inj hl
        exact Or.inl ⟨rfl, hafter⟩
    | cons y before =>
        obtain ⟨rfl, rfl⟩ := List.cons.inj hl
        rw [List.forall_mem_cons] at hbefore
        exact Or.inr ⟨hbefore.1, before, after, rfl, hbefore.2, hafter⟩
  · rintro (⟨rfl, hmin⟩ | ⟨hlt, before, after, rfl, hbefore, hafter⟩)
    · exact ⟨[], l, rfl, by simp, hmin⟩
    · exact ⟨x :: before, after, rfl, List.forall_mem_cons.mpr ⟨hlt, hbefore⟩, hafter⟩

theorem IsFirstMin.le {d : α → ℤ} {l : List α} {a : α} (h : IsFirstMin d l a) :
    ∀ b ∈ l, d a ≤ d b := by
  obtain ⟨before, after, rfl, hbefore, hafter⟩ := h
  intro b hb
  rcases List.mem_append.mp hb with hb | hb
  · exact (hbefore b hb).le
  · rcases List.mem_cons.mp hb with rfl | hb
    · exact le_rfl
    · exact hafter b hb

/-- Where an element is the first minimum, another measure that has it as its first
minimum has it at the same place. -/
theorem IsFirstMin.at_split {d d' : α → ℤ} {before after : List α} {a : α}
    (hbefore : ∀ b ∈ before, d a < d b) (h : IsFirstMin d' (before ++ a :: after) a) :
    (∀ b ∈ before, d' a < d' b) ∧ ∀ b ∈ after, d' a ≤ d' b := by
  obtain ⟨before', after', hl, hbefore', hafter'⟩ := h
  rcases List.append_eq_append_iff.mp hl with ⟨gap, rfl, hgap⟩ | ⟨gap, rfl, hgap⟩
  · cases gap with
    | nil =>
        obtain ⟨-, rfl⟩ := List.cons.inj hgap
        exact ⟨by simpa using hbefore', hafter'⟩
    | cons x gap =>
        obtain ⟨rfl, -⟩ := List.cons.inj hgap
        exact absurd (hbefore' a (by simp)) (lt_irrefl _)
  · cases gap with
    | nil =>
        obtain ⟨-, rfl⟩ := List.cons.inj hgap
        exact ⟨by simpa using hbefore', hafter'⟩
    | cons x gap =>
        obtain ⟨rfl, -⟩ := List.cons.inj hgap
        exact absurd (hbefore a (by simp)) (lt_irrefl _)

theorem argmin_eq_some_iff {d : α → ℤ} {l : List α} {a : α} :
    l.argmin d = some a ↔ IsFirstMin d l a := by
  induction l generalizing a with
  | nil => exact iff_of_false (by simp) fun ⟨before, _, h, _⟩ => by cases before <;> cases h
  | cons x l ih =>
      rw [List.argmin_cons, isFirstMin_cons]
      cases hc : l.argmin d with
      | none =>
          obtain rfl := List.argmin_eq_none.mp hc
          have hno : ¬IsFirstMin d [] a := fun ⟨before, _, h, _⟩ => by cases before <;> cases h
          simp [hno, eq_comm]
      | some c =>
          have hmin := ih.mp hc
          dsimp only
          split
          · rename_i hlt
            constructor
            · rintro ⟨⟩
              exact Or.inr ⟨hlt, hmin⟩
            · rintro (⟨rfl, hx⟩ | ⟨-, ha⟩)
              · exact absurd (hx c (List.argmin_mem hc)) hlt.not_ge
              · exact hc.symm.trans (ih.mpr ha)
          · rename_i hge
            constructor
            · rintro ⟨⟩
              exact Or.inl ⟨rfl, fun b hb => (not_lt.mp hge).trans (hmin.le b hb)⟩
            · rintro (⟨rfl, -⟩ | ⟨hlt, ha⟩)
              · rfl
              · have hac : a = c := Option.some.inj ((ih.mpr ha).symm.trans hc)
                exact absurd (hac ▸ hlt) hge

/-- Keep the first element, replace it by every strictly better one. -/
def runningMin (d : α → ℤ) (first : α) (rest : List α) : α :=
  rest.foldl (fun best a => if d a < d best then a else best) first

theorem runningMin_eq_argmin (d : α → ℤ) (first : α) (rest : List α) :
    (first :: rest).argmin d = some (runningMin d first rest) := by
  induction rest using List.reverseRecOn with
  | nil => rfl
  | append_singleton rest a ih =>
      rw [← List.cons_append, List.argmin_concat, ih]
      simp only [runningMin, List.foldl_append, List.foldl_cons, List.foldl_nil]
      exact (apply_ite some _ _ _).symm

/-- Scan by index: the best value so far starts at `sentinel`, its index at 0,
and both move when a strictly smaller value is met. -/
def sentinelScan (d : α → ℤ) (sentinel : ℤ) (l : List α) : ℤ × ℕ :=
  l.zipIdx.foldl (fun best a => if d a.1 < best.1 then (d a.1, a.2) else best) (sentinel, 0)

/-- What the scan knows about the part of the list it has read: nothing below the
sentinel so far, or the first minimum and its index. -/
def ScanInv (d : α → ℤ) (sentinel : ℤ) (l : List α) (best : ℤ × ℕ) : Prop :=
  ((∀ a ∈ l, sentinel ≤ d a) ∧ best = (sentinel, 0))
    ∨ ∃ a, l.argmin d = some a ∧ d a < sentinel ∧ best.1 = d a ∧ l[best.2]? = some a

theorem sentinelScan_concat (d : α → ℤ) (sentinel : ℤ) (l : List α) (a : α) :
    sentinelScan d sentinel (l ++ [a])
      = if d a < (sentinelScan d sentinel l).1 then (d a, l.length)
        else sentinelScan d sentinel l := by
  rw [sentinelScan, List.zipIdx_append, List.foldl_append, Nat.zero_add]
  rfl

theorem sentinelScan_inv (d : α → ℤ) (sentinel : ℤ) (l : List α) :
    ScanInv d sentinel l (sentinelScan d sentinel l) := by
  induction l using List.reverseRecOn with
  | nil => exact Or.inl ⟨by simp, rfl⟩
  | append_singleton l a ih =>
      rw [sentinelScan_concat]
      rcases ih with ⟨hlarge, hbest⟩ | ⟨b, hb, hlt, hbest, hidx⟩
      · rw [hbest]
        by_cases ha : d a < sentinel
        · rw [if_pos ha]
          refine Or.inr ⟨a, ?_, ha, rfl, List.getElem?_concat_length⟩
          rw [List.argmin_concat]
          cases hc : l.argmin d with
          | none => rfl
          | some c => exact if_pos (ha.trans_le (hlarge c (List.argmin_mem hc)))
        · rw [if_neg ha]
          refine Or.inl ⟨fun b hb => ?_, rfl⟩
          rcases List.mem_append.mp hb with hb | hb
          · exact hlarge b hb
          · exact List.mem_singleton.mp hb ▸ not_lt.mp ha
      · have hlen : (sentinelScan d sentinel l).2 < l.length :=
          (List.getElem?_eq_some_iff.mp hidx).1
        rw [hbest]
        by_cases hab : d a < d b
        · rw [if_pos hab]
          refine Or.inr ⟨a, ?_, hab.trans hlt, rfl, List.getElem?_concat_length⟩
          rw [List.argmin_concat, hb]
          exact if_pos hab
        · rw [if_neg hab]
          refine Or.inr ⟨b, ?_, hlt, hbest, by rw [List.getElem?_append_left hlen, hidx]⟩
          rw [List.argmin_concat, hb]
          exact if_neg hab

/-- Below the sentinel the scan finds the first minimum. -/
theorem sentinelScan_eq_argmin_of_exists {d : α → ℤ} {sentinel : ℤ} {l : List α}
    (h : ∃ a ∈ l, d a < sentinel) : l[(sentinelScan d sentinel l).2]? = l.argmin d := by
  rcases sentinelScan_inv d sentinel l with ⟨hlarge, -⟩ | ⟨a, ha, -, -, hidx⟩
  · obtain ⟨a, ha, hlt⟩ := h
    exact absurd hlt (hlarge a ha).not_gt
  · rw [hidx, ha]

/-- If nothing is below it, the scan stays at the first element. -/
theorem sentinelScan_eq_zero {d : α → ℤ} {sentinel : ℤ} {l : List α}
    (h : ∀ a ∈ l, sentinel ≤ d a) : (sentinelScan d sentinel l).2 = 0 := by
  rcases sentinelScan_inv d sentinel l with ⟨-, hbest⟩ | ⟨a, ha, hlt, -, -⟩
  · rw [hbest]
  · exact absurd hlt (h a (List.argmin_mem ha)).not_gt

theorem sentinelScan_lt_length (d : α → ℤ) (sentinel : ℤ) {l : List α} (h : l ≠ []) :
    (sentinelScan d sentinel l).2 < l.length := by
  rcases sentinelScan_inv d sentinel l with ⟨-, hbest⟩ | ⟨a, -, -, -, hidx⟩
  · rw [hbest]
    exact List.length_pos_iff.mpr h
  · exact (List.getElem?_eq_some_iff.mp hidx).1

/-- **The sentinel scan finds the first minimum**, provided the sentinel exceeds
every value. -/
theorem sentinelScan_eq_argmin {d : α → ℤ} {sentinel : ℤ} {l : List α}
    (h : ∀ a ∈ l, d a < sentinel) : l[(sentinelScan d sentinel l).2]? = l.argmin d := by
  cases l with
  | nil => rfl
  | cons a l =>
      exact sentinelScan_eq_argmin_of_exists ⟨a, List.mem_cons_self, h a List.mem_cons_self⟩

end Loops

end AuctionWorker
