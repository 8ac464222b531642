import AuctionWorker.Machine

/-!
# The endpoint limiter of the Go server

`SetupCb` of `golang/server/server.go` wraps a callback in a handler that puts a
token into the channel `threads`, calls it, and takes a token out again. The
channel holds `N_Thread` tokens. Requests arrive at any time, and every one of
them has a handler of its own.

A callback may return or panic. net/http recovers the panic and the server goes
on, but the handler is left where it stood: it takes no token out.

- `Slots`: the tokens are the requests between the two channel operations, at
  most `capacity` callbacks run, and a waiting request can take any free slot.
- `slots_iff`: a run keeps `Slots` exactly if no callback panics in it.
- `blocked_of_panics`: once `capacity` callbacks have panicked, no request gets
  through any more.
-/

namespace AuctionWorker

namespace Go

open Machine

/-! ## `server/server.go` -/

/-- `config.N_Thread` -/
def N_Thread : ℕ :=
  3

/-- Where the handler of a request stands. -/
inductive Handler where
  /-- at `threads <- struct{}{}` -/
  | waiting
  /-- in the callback -/
  | running
  /-- at `<-threads` -/
  | returned
  | done
  /-- unwound by a panic of the callback -/
  | panicked
deriving Repr, DecidableEq

namespace Handler

/-- The request is between the two channel operations. -/
def occupies : Handler → Bool
  | .running | .returned => true
  | _ => false

/-- The token the handler put into the channel is still there. -/
def holdsToken : Handler → Bool
  | .running | .returned | .panicked => true
  | _ => false

end Handler

/-- The number of tokens in the channel, and a handler for each request so far. -/
structure Endpoint where
  threads : ℕ
  handlers : List Handler
deriving Repr, DecidableEq

inductive EndpointAction where
  | arrive
  | acquire (i : ℕ)
  | cbReturn (i : ℕ)
  | cbPanic (i : ℕ)
  | release (i : ℕ)
deriving Repr, DecidableEq

namespace Endpoint

/-- The handler `i` goes from `before` to `after`. -/
def move (s : Endpoint) (i : ℕ) (before after : Handler) : Option Endpoint :=
  if s.handlers[i]? = some before then some { s with handlers := s.handlers.set i after } else none

/-- A send waits for a free place in the channel, a receive for a token. -/
def step (capacity : ℕ) (s : Endpoint) : EndpointAction → Option Endpoint
  | .arrive => some { s with handlers := s.handlers ++ [.waiting] }
  | .acquire i =>
      if s.threads < capacity then
        (s.move i .waiting .running).map fun s => { s with threads := s.threads + 1 }
      else none
  | .cbReturn i => s.move i .running .returned
  | .cbPanic i => s.move i .running .panicked
  | .release i =>
      if 0 < s.threads then
        (s.move i .returned .done).map fun s => { s with threads := s.threads - 1 }
      else none

/-- Before the first request. -/
def start : Endpoint :=
  ⟨0, []⟩

/-! ## Slots -/

def count (s : Endpoint) (p : Handler → Bool) : ℕ :=
  s.handlers.countP p

/-- The slots are accounted for. -/
structure Slots (capacity : ℕ) (s : Endpoint) : Prop where
  tokens : s.threads = s.count Handler.occupies
  limit : s.count (· == .running) ≤ capacity
  free : s.count Handler.occupies < capacity → ∀ i, s.handlers[i]? = some .waiting →
    (s.step capacity (.acquire i)).isSome

/-- What every run keeps: a panicked handler leaves its token in the channel. -/
structure Inv (capacity : ℕ) (s : Endpoint) : Prop where
  tokens : s.threads = s.count Handler.holdsToken
  limit : s.threads ≤ capacity

/-! ## What a step does -/

/-- One handler went from `before` to `after`. -/
def Moved (s s' : Endpoint) (before after : Handler) : Prop :=
  ∀ p : Handler → Bool, s'.count p + (if p before then 1 else 0)
    = s.count p + if p after then 1 else 0

namespace Moved

variable {s s' : Endpoint} {before after : Handler} {p : Handler → Bool}

theorem gains (h : Moved s s' before after) (hbefore : p before = false) (hafter : p after) :
    s'.count p = s.count p + 1 := by
  have := h p
  rwa [hbefore, if_neg Bool.false_ne_true, if_pos hafter] at this

theorem loses (h : Moved s s' before after) (hbefore : p before) (hafter : p after = false) :
    s'.count p + 1 = s.count p := by
  have := h p
  rwa [hafter, if_neg Bool.false_ne_true, if_pos hbefore] at this

theorem keeps (h : Moved s s' before after) (heq : p before = p after) :
    s'.count p = s.count p := by
  have := h p
  rw [heq] at this
  exact Nat.add_right_cancel this

end Moved

theorem move_spec {s s' : Endpoint} {i : ℕ} {before after : Handler}
    (h : s.move i before after = some s') : s'.threads = s.threads ∧ Moved s s' before after := by
  unfold move at h
  split at h
  · rename_i hi
    obtain rfl := Option.some.inj h
    obtain ⟨hlt, hget⟩ := List.getElem?_eq_some_iff.mp hi
    refine ⟨rfl, fun p => ?_⟩
    have hpos : p before → 0 < s.handlers.countP p := fun hp =>
      List.countP_pos_iff.mpr ⟨before, hget ▸ List.getElem_mem hlt, hp⟩
    simp only [count, List.countP_set hlt, hget]
    split
    · have := hpos ‹_›
      omega
    · omega
  · cases h

theorem step_arrive {capacity : ℕ} {s s' : Endpoint} (h : s.step capacity .arrive = some s') :
    s'.threads = s.threads
      ∧ ∀ p, s'.count p = s.count p + if p .waiting then 1 else 0 := by
  obtain rfl := Option.some.inj h
  refine ⟨rfl, fun p => ?_⟩
  simp only [count, List.countP_append, List.countP_singleton]

theorem step_acquire {capacity i : ℕ} {s s' : Endpoint}
    (h : s.step capacity (.acquire i) = some s') :
    s.threads < capacity ∧ s'.threads = s.threads + 1 ∧ Moved s s' .waiting .running := by
  rw [step] at h
  split at h
  · obtain ⟨t, hmove, rfl⟩ := Option.map_eq_some_iff.mp h
    obtain ⟨hthreads, hmoved⟩ := move_spec hmove
    exact ⟨‹_›, congrArg (· + 1) hthreads, hmoved⟩
  · cases h

theorem step_release {capacity i : ℕ} {s s' : Endpoint}
    (h : s.step capacity (.release i) = some s') :
    0 < s.threads ∧ s'.threads = s.threads - 1 ∧ Moved s s' .returned .done := by
  rw [step] at h
  split at h
  · obtain ⟨t, hmove, rfl⟩ := Option.map_eq_some_iff.mp h
    obtain ⟨hthreads, hmoved⟩ := move_spec hmove
    exact ⟨‹_›, congrArg (· - 1) hthreads, hmoved⟩
  · cases h

/-- The tokens follow the handlers that hold one, at every step. -/
theorem step_tokens {capacity : ℕ} {s s' : Endpoint} {a : EndpointAction}
    (h : s.step capacity a = some s') :
    s'.threads + s.count Handler.holdsToken = s.threads + s'.count Handler.holdsToken := by
  cases a with
  | arrive =>
      obtain ⟨hthreads, hcount⟩ := step_arrive h
      rw [hthreads, hcount]
      rfl
  | acquire i =>
      obtain ⟨-, hthreads, hmoved⟩ := step_acquire h
      have hcount : s'.count Handler.holdsToken = _ := hmoved.gains rfl rfl
      omega
  | cbReturn i =>
      obtain ⟨hthreads, hmoved⟩ := move_spec h
      have hcount : s'.count Handler.holdsToken = _ := hmoved.keeps rfl
      omega
  | cbPanic i =>
      obtain ⟨hthreads, hmoved⟩ := move_spec h
      have hcount : s'.count Handler.holdsToken = _ := hmoved.keeps rfl
      omega
  | release i =>
      obtain ⟨hpos, hthreads, hmoved⟩ := step_release h
      have hcount : s'.count Handler.holdsToken + 1 = _ := hmoved.loses rfl rfl
      omega

theorem inv_step {capacity : ℕ} (s : Endpoint) (a : EndpointAction) (s' : Endpoint)
    (hs : Inv capacity s) (h : s.step capacity a = some s') : Inv capacity s' := by
  have htokens := step_tokens h
  have hlimit := hs.limit
  refine ⟨by have := hs.tokens; omega, ?_⟩
  cases a with
  | arrive => exact (step_arrive h).1.trans_le hlimit
  | acquire i =>
      obtain ⟨hlt, hthreads, -⟩ := step_acquire h
      omega
  | cbReturn i => exact (move_spec h).1.trans_le hlimit
  | cbPanic i => exact (move_spec h).1.trans_le hlimit
  | release i =>
      obtain ⟨-, hthreads, -⟩ := step_release h
      omega

theorem inv_start (capacity : ℕ) : Inv capacity start :=
  ⟨rfl, Nat.zero_le _⟩

/-! ## Without panics -/

theorem isSome_acquire {capacity i : ℕ} {s : Endpoint} (hi : s.handlers[i]? = some .waiting) :
    (s.step capacity (.acquire i)).isSome ↔ s.threads < capacity := by
  simp [step, move, hi]

/-- The rest of `Slots` follows from the token count. -/
theorem slots_of_tokens {capacity : ℕ} {s : Endpoint} (hs : Inv capacity s) :
    Slots capacity s ↔ s.threads = s.count Handler.occupies := by
  refine ⟨Slots.tokens, fun htokens => ⟨htokens, ?_, ?_⟩⟩
  · have hle : s.count (· == .running) ≤ s.count Handler.occupies :=
      List.countP_mono_left fun handler _ hrun => by
        obtain rfl := beq_iff_eq.mp hrun
        rfl
    have := hs.limit
    omega
  · intro hfree i hi
    rw [isSome_acquire hi]
    omega

/-- Only a panic separates the tokens from the requests that occupy a slot. -/
theorem tokens_step {capacity : ℕ} {s s' : Endpoint} {a : EndpointAction}
    (hs : s.threads = s.count Handler.occupies) (h : s.step capacity a = some s') :
    s'.threads = s'.count Handler.occupies ↔ ∀ i, a ≠ .cbPanic i := by
  cases a with
  | arrive =>
      obtain ⟨hthreads, hcount⟩ := step_arrive h
      exact iff_of_true (by rw [hthreads, hcount, hs]; rfl) (by simp)
  | acquire i =>
      obtain ⟨-, hthreads, hmoved⟩ := step_acquire h
      have hcount : s'.count Handler.occupies = _ := hmoved.gains rfl rfl
      exact iff_of_true (by omega) (by simp)
  | cbReturn i =>
      obtain ⟨hthreads, hmoved⟩ := move_spec h
      have hcount : s'.count Handler.occupies = _ := hmoved.keeps rfl
      exact iff_of_true (by omega) (by simp)
  | cbPanic i =>
      -- the request gives up its slot, but the token stays
      obtain ⟨hthreads, hmoved⟩ := move_spec h
      have hcount : s'.count Handler.occupies + 1 = _ := hmoved.loses rfl rfl
      exact iff_of_false (by omega) (by simp)
  | release i =>
      obtain ⟨hpos, hthreads, hmoved⟩ := step_release h
      have hcount : s'.count Handler.occupies + 1 = _ := hmoved.loses rfl rfl
      exact iff_of_true (by omega) (by simp)

/-- **Slot accounting.** In a run from the start the slots are accounted for in every
state exactly if no callback panics. -/
theorem slots_iff (capacity : ℕ) (as : List EndpointAction) :
    Throughout (step capacity) (Slots capacity) start as
      ↔ Steps (step capacity) (fun _ a => ∀ i, a ≠ .cbPanic i) start as := by
  have hstart := inv_start capacity
  refine throughout_iff_steps inv_step (fun s a s' hs hslots h => ?_) hstart
    ((slots_of_tokens hstart).mpr rfl) as
  rw [slots_of_tokens (inv_step s a s' hs h)]
  exact tokens_step hslots.tokens h

/-! ## With panics -/

/-- `N_Thread` requests whose callbacks panic, and one more. -/
def panics : List EndpointAction :=
  (List.range N_Thread).flatMap (fun i => [.arrive, .acquire i, .cbPanic i]) ++ [.arrive]

/-- Every token is taken and nothing runs. -/
theorem not_slots_of_panics :
    run (step N_Thread) start panics
        = some ⟨N_Thread, [.panicked, .panicked, .panicked, .waiting]⟩
      ∧ ¬ Throughout (step N_Thread) (Slots N_Thread) start panics := by
  have hrun : run (step N_Thread) start panics
      = some ⟨N_Thread, [.panicked, .panicked, .panicked, .waiting]⟩ := by decide
  refine ⟨hrun, fun h => ?_⟩
  have hslots := h panics List.prefix_rfl _ hrun
  exact absurd hslots.tokens (by decide)

theorem panicked_step {capacity : ℕ} {s s' : Endpoint} {a : EndpointAction}
    (h : s.step capacity a = some s') :
    s.count (· == .panicked) ≤ s'.count (· == .panicked) := by
  cases a with
  | arrive => exact (Nat.le_add_right _ _).trans_eq ((step_arrive h).2 _).symm
  | acquire i => exact ((step_acquire h).2.2.keeps rfl).ge
  | cbReturn i => exact ((move_spec h).2.keeps rfl).ge
  | cbPanic i => exact (Nat.le_add_right _ _).trans_eq ((move_spec h).2.gains rfl rfl).symm
  | release i => exact ((step_release h).2.2.keeps rfl).ge

/-- **For good.** Once `capacity` callbacks have panicked, no request gets past the
channel in any state that follows. -/
theorem blocked_of_panics {capacity : ℕ} {s : Endpoint} (hs : Inv capacity s)
    (hpanics : capacity ≤ s.count (· == .panicked)) (as : List EndpointAction) :
    Throughout (step capacity) (fun s => ∀ i, s.step capacity (.acquire i) = none) s as := by
  refine throughout_of_step (I := fun s => Inv capacity s ∧ capacity ≤ s.count (· == .panicked))
    ?_ ?_ ⟨hs, hpanics⟩ as
  · rintro s a s' ⟨hs, hpanics⟩ h
    exact ⟨inv_step s a s' hs h, hpanics.trans (panicked_step h)⟩
  · rintro s ⟨hs, hpanics⟩ i
    have hle : s.count (· == .panicked) ≤ s.count Handler.holdsToken :=
      List.countP_mono_left fun handler _ hpanic => by
        obtain rfl := beq_iff_eq.mp hpanic
        rfl
    have htokens := hs.tokens
    rw [step, if_neg (by omega)]

end Endpoint

end Go

end AuctionWorker
