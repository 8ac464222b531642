import Mathlib

/-!
# Runs up to the first fault

Two programs with exceptions and a state: `y` calls on operations that never
fail, `x` on the same operations when they may. A clock in the state counts the
operations, and a fault strikes at the operation of a given time. As no program
catches an exception, `x` runs as `y` does until the first fault and ends there.

`Follows x y` says so, with what holds of the state between the operations
(`Inv`) and after a fault (`Broken`). It is closed under the constructs programs
are made of, so that it has to be proved for the operations only. What holds
after an undisturbed run then holds after a disturbed one exactly if its first
fault is harmless (`Follows.holds_iff`).

`FailStop Inv faults x y` is about the outcome: `x` keeps `Inv`, and throws one of
`faults` or comes to what `y` comes to, a program without a state. `Metered` adds a
meter in the state, and how much `x` adds to it. Both are closed under the same
constructs.
-/

namespace AuctionWorker

namespace FirstFault

variable {ε σ α β : Type}

/-! ## Programs -/

/-- What a program returns or throws, and the state it ends in. -/
def run (x : ExceptT ε (StateM σ) α) (s : σ) : Except ε α × σ :=
  x s

@[simp] theorem run_pure (a : α) (s : σ) :
    run (pure a : ExceptT ε (StateM σ) α) s = (.ok a, s) :=
  rfl

@[simp] theorem run_ofExcept (r : Except ε α) (s : σ) :
    run (MonadExcept.ofExcept r : ExceptT ε (StateM σ) α) s = (r, s) := by
  cases r with
  | error err => rfl
  | ok a => rfl

theorem run_bind_ok {x : ExceptT ε (StateM σ) α} {f : α → ExceptT ε (StateM σ) β} {s s' : σ} {a : α}
    (h : run x s = (.ok a, s')) : run (x >>= f) s = run (f a) s' := by
  have hbind : run (x >>= f) s = ExceptT.bindCont f (run x s).1 (run x s).2 := rfl
  rw [hbind, h]
  rfl

theorem run_bind_error {x : ExceptT ε (StateM σ) α} {f : α → ExceptT ε (StateM σ) β} {s s' : σ}
    {err : ε} (h : run x s = (.error err, s')) : run (x >>= f) s = (.error err, s') := by
  have hbind : run (x >>= f) s = ExceptT.bindCont f (run x s).1 (run x s).2 := rfl
  rw [hbind, h]
  rfl

/-- A program ends with its first part, or goes on with the second. -/
theorem run_bind_cases (x : ExceptT ε (StateM σ) α) (f : α → ExceptT ε (StateM σ) β) (s : σ) :
    (∃ err s₁, run x s = (.error err, s₁) ∧ run (x >>= f) s = (.error err, s₁))
      ∨ ∃ a s₁, run x s = (.ok a, s₁) ∧ run (x >>= f) s = run (f a) s₁ := by
  cases hx : run x s with
  | mk result s₁ =>
      cases result with
      | error err => exact Or.inl ⟨err, s₁, rfl, run_bind_error hx⟩
      | ok a => exact Or.inr ⟨a, s₁, rfl, run_bind_ok hx⟩

/-- A first operation that throws under a condition. -/
theorem run_bind_ite {x : ExceptT ε (StateM σ) α} {f : α → ExceptT ε (StateM σ) β} {s s₁ s₂ : σ}
    {c : Prop} [Decidable c] {err : ε} {a : α}
    (h : run x s = if c then (.error err, s₁) else (.ok a, s₂)) :
    run (x >>= f) s = if c then (.error err, s₁) else run (f a) s₂ := by
  by_cases hc : c
  · rw [if_pos hc] at h ⊢
    exact run_bind_error h
  · rw [if_neg hc] at h ⊢
    exact run_bind_ok h

/-- What was thrown is the value of `observing`. -/
theorem run_observing {x : ExceptT ε (StateM σ) α} {s s' : σ} {r : Except ε α}
    (h : run x s = (r, s')) : run (observing x) s = (.ok r, s') := by
  have hx : x s = (pure (r, s') : Id (Except ε α × σ)) := h
  simp only [run, observing, tryCatch, tryCatchThe, MonadExceptOf.tryCatch, ExceptT.tryCatch,
    ExceptT.mk, bind, ExceptT.bind, StateT.bind, hx]
  cases r with
  | error err => rfl
  | ok a => rfl

/-! ## Faults -/

structure Setting (σ : Type) where
  clock : σ → ℕ
  Fault : ℕ → Prop
  Inv : σ → Prop
  /-- The state after a fault at this time. -/
  Broken : ℕ → σ → Prop

variable (S : Setting σ)

/-- No fault from one time to another. -/
def Setting.Quiet (start finish : ℕ) : Prop :=
  ∀ n, start ≤ n → n < finish → ¬S.Fault n

/-- The first fault of a span of time. -/
structure Setting.First (start finish n : ℕ) : Prop where
  start_le : start ≤ n
  lt_finish : n < finish
  fault : S.Fault n
  quiet : S.Quiet start n

variable {S}

theorem Setting.Quiet.mono {start start' finish finish' : ℕ} (h : S.Quiet start finish)
    (hstart : start ≤ start') (hfinish : finish' ≤ finish) : S.Quiet start' finish' :=
  fun n hn hlt => h n (hstart.trans hn) (hlt.trans_le hfinish)

theorem Setting.quiet_or_first (start finish : ℕ) :
    S.Quiet start finish ∨ ∃ n, S.First start finish n := by
  classical
  by_cases h : ∃ n, start ≤ n ∧ n < finish ∧ S.Fault n
  · obtain ⟨hstart, hfinish, hfault⟩ := Nat.find_spec h
    refine Or.inr ⟨Nat.find h, hstart, hfinish, hfault, fun k hk hlt hkfault => ?_⟩
    exact Nat.find_min h hlt ⟨hk, hlt.trans hfinish, hkfault⟩
  · exact Or.inl fun n hstart hfinish hfault => h ⟨n, hstart, hfinish, hfault⟩

theorem Setting.First.unique {start finish k n : ℕ} (hk : S.First start finish k)
    (hn : S.First start finish n) : k = n := by
  rcases lt_trichotomy k n with hlt | heq | hgt
  · exact absurd hk.fault (hn.quiet k hk.start_le hlt)
  · exact heq
  · exact absurd hn.fault (hk.quiet n hn.start_le hgt)

variable (S) in
/-- `x` runs as `y` does up to the first fault, and throws there. -/
structure Follows (x y : ExceptT ε (StateM σ) α) : Prop where
  clock_le : ∀ s, S.clock s ≤ S.clock (run y s).2
  inv : ∀ s, S.Inv s → S.Inv (run y s).2
  same : ∀ s, S.Quiet (S.clock s) (S.clock (run y s).2) → run x s = run y s
  broken : ∀ s n, S.Inv s → S.First (S.clock s) (S.clock (run y s).2) n
    → ∃ err s', run x s = (.error err, s') ∧ S.Broken n s'

namespace Follows

section Run

variable {x y : ExceptT ε (StateM σ) α} {s s₁ : σ} {r : Except ε α} (h : Follows S x y)
  (hy : run y s = (r, s₁))

include h hy

theorem clock_le_of_run : S.clock s ≤ S.clock s₁ := by
  have hle := h.clock_le s
  rwa [hy] at hle

theorem inv_of_run (hs : S.Inv s) : S.Inv s₁ := by
  have hinv := h.inv s hs
  rwa [hy] at hinv

theorem same_of_run (hquiet : S.Quiet (S.clock s) (S.clock s₁)) : run x s = (r, s₁) := by
  have hsame := h.same s
  rw [hy] at hsame
  exact hsame hquiet

theorem broken_of_run (hs : S.Inv s) {n : ℕ} (hfirst : S.First (S.clock s) (S.clock s₁) n) :
    ∃ err s', run x s = (.error err, s') ∧ S.Broken n s' := by
  have hbroken := h.broken s n hs
  rw [hy] at hbroken
  exact hbroken hfirst

end Run

/-- A program that does nothing to the state. -/
theorem of_run_eq {x y : ExceptT ε (StateM σ) α} {r : Except ε α}
    (hx : ∀ s, run x s = (r, s)) (hy : ∀ s, run y s = (r, s)) : Follows S x y where
  clock_le s := by rw [hy]
  inv s h := by rwa [hy]
  same s _ := by rw [hx, hy]
  broken s n _ hfirst := by
    rw [hy] at hfirst
    exact absurd (hfirst.start_le.trans_lt hfirst.lt_finish) (lt_irrefl _)

theorem pure (a : α) :
    Follows S (Pure.pure a : ExceptT ε (StateM σ) α) (Pure.pure a) :=
  of_run_eq (run_pure a) (run_pure a)

theorem ofExcept (r : Except ε α) :
    Follows S (MonadExcept.ofExcept r : ExceptT ε (StateM σ) α) (MonadExcept.ofExcept r) :=
  of_run_eq (run_ofExcept r) (run_ofExcept r)

theorem bind {x y : ExceptT ε (StateM σ) α} {f g : α → ExceptT ε (StateM σ) β}
    (hxy : Follows S x y) (hfg : ∀ a, Follows S (f a) (g a)) :
    Follows S (x >>= f) (y >>= g) := by
  constructor
  · intro s
    rcases run_bind_cases y g s with ⟨err, s₁, hy, hyg⟩ | ⟨a, s₁, hy, hyg⟩
    · rw [hyg]
      exact hxy.clock_le_of_run hy
    · rw [hyg]
      exact (hxy.clock_le_of_run hy).trans ((hfg a).clock_le s₁)
  · intro s hs
    rcases run_bind_cases y g s with ⟨err, s₁, hy, hyg⟩ | ⟨a, s₁, hy, hyg⟩
    · rw [hyg]
      exact hxy.inv_of_run hy hs
    · rw [hyg]
      exact (hfg a).inv s₁ (hxy.inv_of_run hy hs)
  · intro s hquiet
    rcases run_bind_cases y g s with ⟨err, s₁, hy, hyg⟩ | ⟨a, s₁, hy, hyg⟩
    · rw [hyg] at hquiet ⊢
      exact run_bind_error (hxy.same_of_run hy hquiet)
    · rw [hyg] at hquiet ⊢
      have hx := hxy.same_of_run hy (hquiet.mono le_rfl ((hfg a).clock_le s₁))
      rw [run_bind_ok hx]
      exact (hfg a).same s₁ (hquiet.mono (hxy.clock_le_of_run hy) le_rfl)
  · intro s n hs hfirst
    rcases run_bind_cases y g s with ⟨err, s₁, hy, hyg⟩ | ⟨a, s₁, hy, hyg⟩
    · rw [hyg] at hfirst
      obtain ⟨err', s', hx, hs'⟩ := hxy.broken_of_run hy hs hfirst
      exact ⟨err', s', run_bind_error hx, hs'⟩
    · rw [hyg] at hfirst
      -- the fault strikes while `x` runs, or after it
      by_cases hn : n < S.clock s₁
      · obtain ⟨err', s', hx, hs'⟩ := hxy.broken_of_run hy hs
          ⟨hfirst.start_le, hn, hfirst.fault, hfirst.quiet⟩
        exact ⟨err', s', run_bind_error hx, hs'⟩
      · have hge := not_lt.mp hn
        rw [run_bind_ok (hxy.same_of_run hy (hfirst.quiet.mono le_rfl hge))]
        exact (hfg a).broken s₁ n (hxy.inv_of_run hy hs) ⟨hge, hfirst.lt_finish, hfirst.fault,
          hfirst.quiet.mono (hxy.clock_le_of_run hy) le_rfl⟩

theorem foldlM {f g : β → α → ExceptT ε (StateM σ) β} (hfg : ∀ b a, Follows S (f b a) (g b a))
    (l : List α) (b : β) : Follows S (l.foldlM f b) (l.foldlM g b) := by
  induction l generalizing b with
  | nil => exact pure b
  | cons a l ih =>
      rw [List.foldlM_cons, List.foldlM_cons]
      exact (hfg b a).bind ih

/-- **The first fault decides.** A property of the states that every undisturbed run
ends with is lost exactly by a first fault that does harm. -/
theorem holds_iff {x y : ExceptT ε (StateM σ) α} (h : Follows S x y) (P : σ → Prop)
    (Harm : ℕ → Prop) (hinv : ∀ s, S.Inv s → P s)
    (hbroken : ∀ n s, S.Fault n → S.Broken n s → (P s ↔ ¬Harm n)) {s : σ} (hs : S.Inv s) :
    P (run x s).2 ↔ ∀ n, S.First (S.clock s) (S.clock (run y s).2) n → ¬Harm n := by
  rcases S.quiet_or_first (S.clock s) (S.clock (run y s).2) with hquiet | ⟨n, hfirst⟩
  · rw [h.same s hquiet]
    refine iff_of_true (hinv _ (h.inv s hs)) fun n hfirst _ => ?_
    exact hquiet n hfirst.start_le hfirst.lt_finish hfirst.fault
  · obtain ⟨err, s', hx, hs'⟩ := h.broken s n hs hfirst
    rw [hx]
    refine (hbroken n s' hfirst.fault hs').trans ⟨fun hn k hk => ?_, fun hall => hall n hfirst⟩
    rwa [hk.unique hfirst]

end Follows

/-! ## Outcomes -/

/-- Wherever `x` starts with `Inv`, it ends with `Inv`, and throws one of the faults or
comes to what `y` comes to. -/
def FailStop (Inv : σ → Prop) (faults : Set ε) (x : ExceptT ε (StateM σ) α) (y : Except ε α) :
    Prop :=
  ∀ s, Inv s → Inv (run x s).2
    ∧ ((∃ err ∈ faults, (run x s).1 = .error err) ∨ (run x s).1 = y)

namespace FailStop

variable {Inv : σ → Prop} {faults : Set ε}

theorem pure (a : α) :
    FailStop Inv faults (Pure.pure a : ExceptT ε (StateM σ) α) (Pure.pure a) :=
  fun _ hs => ⟨hs, .inr rfl⟩

theorem ofExcept (r : Except ε α) :
    FailStop Inv faults (MonadExcept.ofExcept r : ExceptT ε (StateM σ) α)
      (MonadExcept.ofExcept r) := by
  intro s hs
  rw [run_ofExcept]
  refine ⟨hs, .inr ?_⟩
  cases r with
  | error err => rfl
  | ok a => rfl

/-- As `x` has returned, so has `y`. -/
theorem eq_ok {x : ExceptT ε (StateM σ) α} {y : Except ε α} (h : FailStop Inv faults x y) {s : σ}
    (hs : Inv s) {a : α} (hx : (run x s).1 = .ok a) : y = .ok a := by
  rcases (h s hs).2 with ⟨err, -, hfault⟩ | hy
  · rw [hx] at hfault
    cases hfault
  · exact hy.symm.trans hx

theorem bind {x : ExceptT ε (StateM σ) α} {y : Except ε α} {f : α → ExceptT ε (StateM σ) β}
    {g : α → Except ε β} (hxy : FailStop Inv faults x y)
    (hfg : ∀ a, y = .ok a → FailStop Inv faults (f a) (g a)) :
    FailStop Inv faults (x >>= f) (y >>= g) := by
  intro s hs
  obtain ⟨hinv, hout⟩ := hxy s hs
  rcases run_bind_cases x f s with ⟨err, s₁, hx, hxf⟩ | ⟨a, s₁, hx, hxf⟩
  · rw [hx] at hinv hout
    rw [hxf]
    refine ⟨hinv, ?_⟩
    rcases hout with ⟨err', hmem, hfault⟩ | hy
    · obtain rfl := Except.error.inj hfault
      exact .inl ⟨err, hmem, rfl⟩
    · rw [← hy]
      exact .inr rfl
  · have hy : y = .ok a := hxy.eq_ok hs (congrArg Prod.fst hx)
    rw [hx] at hinv
    rw [hxf, hy]
    exact hfg a hy s₁ hinv

theorem foldlM {f : β → α → ExceptT ε (StateM σ) β} {g : β → α → Except ε β}
    (hfg : ∀ b a, FailStop Inv faults (f b a) (g b a)) (l : List α) (b : β) :
    FailStop Inv faults (l.foldlM f b) (l.foldlM g b) := by
  induction l generalizing b with
  | nil => exact pure b
  | cons a l ih =>
      rw [List.foldlM_cons, List.foldlM_cons]
      exact (hfg b a).bind fun b _ => ih b

/-- A program that throws no fault comes to what `y` comes to. -/
theorem eq_of_empty {x : ExceptT ε (StateM σ) α} {y : Except ε α} (h : FailStop Inv ∅ x y) {s : σ}
    (hs : Inv s) : (run x s).1 = y :=
  (h s hs).2.resolve_left fun ⟨_, hmem, _⟩ => hmem

end FailStop

/-! ## Meters -/

section Metered

variable {M : Type} [AddCommMonoid M] [PartialOrder M]

/-- A fail-stop program with a meter in its state: `x` adds at most `n`, and `n` if it
returns. -/
structure Metered (Inv : σ → Prop) (faults : Set ε) (meter : σ → M) (x : ExceptT ε (StateM σ) α)
    (y : Except ε α) (n : M) : Prop where
  failStop : FailStop Inv faults x y
  le : ∀ s, Inv s → meter (run x s).2 ≤ meter s + n
  eq : ∀ s a, Inv s → (run x s).1 = .ok a → meter (run x s).2 = meter s + n

namespace Metered

variable {Inv : σ → Prop} {faults : Set ε} {meter : σ → M}

theorem pure (a : α) :
    Metered Inv faults meter (Pure.pure a : ExceptT ε (StateM σ) α) (Pure.pure a) 0 where
  failStop := .pure a
  le s _ := (add_zero (meter s)).ge
  eq s _ _ _ := (add_zero (meter s)).symm

theorem ofExcept (r : Except ε α) :
    Metered Inv faults meter (MonadExcept.ofExcept r : ExceptT ε (StateM σ) α)
      (MonadExcept.ofExcept r) 0 where
  failStop := .ofExcept r
  le s _ := by rw [run_ofExcept, add_zero]
  eq s _ _ _ := by rw [run_ofExcept, add_zero]

variable {x : ExceptT ε (StateM σ) α} {y : Except ε α} {f : α → ExceptT ε (StateM σ) β}
  {g : α → Except ε β} {n m : M}

variable [CanonicallyOrderedAdd M]

theorem bind (hxy : Metered Inv faults meter x y n)
    (hfg : ∀ a, y = .ok a → Metered Inv faults meter (f a) (g a) m) :
    Metered Inv faults meter (x >>= f) (y >>= g) (n + m) := by
  refine ⟨hxy.failStop.bind fun a ha => (hfg a ha).failStop, fun s hs => ?_, fun s b hs hb => ?_⟩
  · have hinv := (hxy.failStop s hs).1
    rcases run_bind_cases x f s with ⟨err, s₁, hx, hxf⟩ | ⟨a, s₁, hx, hxf⟩
    · have hle := hxy.le s hs
      rw [hx] at hle
      rw [hxf, ← add_assoc]
      exact hle.trans le_self_add
    · have hok : (run x s).1 = .ok a := congrArg Prod.fst hx
      have heq := hxy.eq s a hs hok
      rw [hx] at heq hinv
      rw [hxf, ← add_assoc, ← heq]
      exact (hfg a (hxy.failStop.eq_ok hs hok)).le s₁ hinv
  · have hinv := (hxy.failStop s hs).1
    rcases run_bind_cases x f s with ⟨err, s₁, hx, hxf⟩ | ⟨a, s₁, hx, hxf⟩
    · rw [hxf] at hb
      cases hb
    · have hok : (run x s).1 = .ok a := congrArg Prod.fst hx
      have heq := hxy.eq s a hs hok
      rw [hx] at heq hinv
      rw [hxf] at hb ⊢
      rw [← add_assoc, ← heq]
      exact (hfg a (hxy.failStop.eq_ok hs hok)).eq s₁ b hinv hb

/-- What comes next adds an amount that depends on what was returned. -/
theorem bind_cost {cost : α → M} (hxy : Metered Inv faults meter x y n)
    (hfg : ∀ a, y = .ok a → Metered Inv faults meter (f a) (g a) (cost a)) :
    Metered Inv faults meter (x >>= f) (y >>= g) (n + y.toOption.elim 0 cost) := by
  refine hxy.bind fun a ha => ?_
  rw [ha]
  exact hfg a ha

/-- What comes next adds nothing. -/
theorem bind_free (hxy : Metered Inv faults meter x y n)
    (hfg : ∀ a, y = .ok a → Metered Inv faults meter (f a) (g a) 0) :
    Metered Inv faults meter (x >>= f) (y >>= g) n := by
  have hbind := hxy.bind hfg
  rwa [add_zero] at hbind

/-- What is known to come next. -/
theorem bind_ok {a : α} {y : Except ε β} (hx : Metered Inv faults meter x (.ok a) n)
    (hf : Metered Inv faults meter (f a) y m) : Metered Inv faults meter (x >>= f) y (n + m) := by
  have hbind : Metered Inv faults meter (x >>= f) (Except.ok a >>= fun _ => y) (n + m) := by
    refine hx.bind fun a' ha' => ?_
    obtain rfl := Except.ok.inj ha'
    exact hf
  exact hbind

theorem bind_ok_free {a : α} {y : Except ε β} (hx : Metered Inv faults meter x (.ok a) n)
    (hf : Metered Inv faults meter (f a) y 0) : Metered Inv faults meter (x >>= f) y n := by
  have hbind := hx.bind_ok hf
  rwa [add_zero] at hbind

/-- A loop adds what its steps add. -/
theorem foldlM {f : β → α → ExceptT ε (StateM σ) β} {g : β → α → Except ε β} {cost : α → M}
    (hfg : ∀ b a, Metered Inv faults meter (f b a) (g b a) (cost a)) (l : List α) (b : β) :
    Metered Inv faults meter (l.foldlM f b) (l.foldlM g b) (l.map cost).sum := by
  induction l generalizing b with
  | nil => exact pure b
  | cons a l ih =>
      rw [List.foldlM_cons, List.foldlM_cons, List.map_cons, List.sum_cons]
      exact (hfg b a).bind fun b _ => ih b

end Metered

end Metered

end FirstFault

end AuctionWorker
