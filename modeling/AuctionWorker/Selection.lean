import Mathlib

/-!
# Two-level selection

A pool of offers is split into groups. Every group sends the offer that is
least for `near` (its representative), and the representatives compete by
`rank`: the least one wins. The library says what is selected, when the
selection is unique, and how it reacts to three changes of its input:

- offers that represent nobody are removed (`representative_of_prune`);
- whole groups are removed (`representative_of_restrict`, `rank_le_of_restrict`);
- the ranking is exchanged for one that orders the representatives alike
  (`Winner.congr_rank`).

The second half reads the selection off a list: the first minimum of a list
sorted by an identifier is the least offer of the lexicographic order
(`lex_le_of_mem_argmin`), a stable sort refines its order by the order of its
input (`pairwise_stable`), and the head of a sorted list of representatives is
the winner (`selects_head`).
-/

namespace AuctionWorker

namespace Selection

variable {α ι κ β : Type*}

/-! ## Representatives and winners -/

section Order

variable [LinearOrder κ] [LinearOrder β]

/-- `a` is the least offer of its group. -/
def Representative (pool : Set α) (group : α → ι) (near : α → κ) (a : α) : Prop :=
  a ∈ pool ∧ ∀ b ∈ pool, group b = group a → near a ≤ near b

/-- `w` is the least representative. -/
def Winner (pool : Set α) (group : α → ι) (near : α → κ) (rank : α → β) (w : α) : Prop :=
  Representative pool group near w ∧ ∀ r, Representative pool group near r → rank w ≤ rank r

/-- An optional value is exactly the one that satisfies `W`, and absent when
nothing does. -/
def Selects (o : Option α) (W : α → Prop) : Prop :=
  ∀ a, o = some a ↔ W a

variable {pool pool' : Set α} {group : α → ι} {near : α → κ} {rank : α → β}

theorem Representative.unique (hinj : Set.InjOn near pool) {a b : α}
    (ha : Representative pool group near a) (hb : Representative pool group near b)
    (hg : group a = group b) : a = b :=
  hinj ha.1 hb.1 (le_antisymm (ha.2 b hb.1 hg.symm) (hb.2 a ha.1 hg))

theorem Winner.unique (hinj : Set.InjOn rank {r | Representative pool group near r})
    {v w : α} (hv : Winner pool group near rank v) (hw : Winner pool group near rank w) :
    v = w :=
  hinj hv.1 hw.1 (le_antisymm (hv.2 w hw.1) (hw.2 v hv.1))

variable (group near) in
/-- Every offer of a finite pool has a representative at least as near. -/
theorem exists_representative (hfin : pool.Finite) {a : α} (ha : a ∈ pool) :
    ∃ r, Representative pool group near r ∧ group r = group a ∧ near r ≤ near a := by
  have hsub : {b ∈ pool | group b = group a}.Finite := hfin.subset fun _ h => h.1
  obtain ⟨r, ⟨hr, hg⟩, hmin⟩ :=
    Set.exists_min_image _ near hsub ⟨a, ha, rfl⟩
  refine ⟨r, ⟨hr, fun b hb hbr => hmin b ⟨hb, hbr.trans hg⟩⟩, hg, hmin a ⟨ha, rfl⟩⟩

variable (group near rank) in
theorem exists_winner (hfin : pool.Finite) (hne : pool.Nonempty) :
    ∃ w, Winner pool group near rank w := by
  obtain ⟨a, ha⟩ := hne
  obtain ⟨r, hr, -, -⟩ := exists_representative group near hfin ha
  have hreps : {r | Representative pool group near r}.Finite := hfin.subset fun _ h => h.1
  obtain ⟨w, hw, hmin⟩ := Set.exists_min_image _ rank hreps ⟨r, hr⟩
  exact ⟨w, hw, hmin⟩

/-- Two optional values selected by the same property are equal. -/
theorem Selects.eq {o o' : Option α} {W W' : α → Prop} (h : Selects o W)
    (h' : Selects o' W') (hW : ∀ a, W a ↔ W' a) : o = o' := by
  refine Option.ext fun a => ?_
  rw [h a, h' a, hW a]

theorem Selects.eq_none_iff {o : Option α} {W : α → Prop} (h : Selects o W) :
    o = none ↔ ∀ a, ¬W a := by
  rw [Option.eq_none_iff_forall_ne_some]
  exact forall_congr' fun a => not_congr (h a)

/-- Nothing is selected exactly when the pool is empty. -/
theorem Selects.eq_none_iff_pool (hfin : pool.Finite) {o : Option α}
    (h : Selects o (Winner pool group near rank)) : o = none ↔ pool = ∅ := by
  rw [h.eq_none_iff, ← Set.not_nonempty_iff_eq_empty]
  constructor
  · intro hno hne
    obtain ⟨w, hw⟩ := exists_winner group near rank hfin hne
    exact hno w hw
  · exact fun hempty a ha => hempty ⟨a, ha.1.1⟩

/-! ## Changing the pool and the ranking -/

/-- Removing offers that represent nobody keeps the representatives. -/
theorem representative_of_prune (hfin : pool.Finite) (hsub : pool' ⊆ pool)
    (hkeep : ∀ r, Representative pool group near r → r ∈ pool') (a : α) :
    Representative pool' group near a ↔ Representative pool group near a := by
  constructor
  · rintro ⟨ha, hmin⟩
    refine ⟨hsub ha, fun b hb hg => ?_⟩
    obtain ⟨r, hr, hrg, hrb⟩ := exists_representative group near hfin hb
    exact (hmin r (hkeep r hr) (hrg.trans hg)).trans hrb
  · exact fun h => ⟨hkeep a h, fun b hb hg => h.2 b (hsub hb) hg⟩

/-- Removing whole groups keeps the representatives of the groups that stay. -/
theorem representative_of_restrict (hsub : pool' ⊆ pool)
    (hgroups : ∀ a ∈ pool', ∀ b ∈ pool, group b = group a → b ∈ pool') (a : α) :
    Representative pool' group near a ↔ a ∈ pool' ∧ Representative pool group near a := by
  constructor
  · rintro ⟨ha, hmin⟩
    exact ⟨ha, hsub ha, fun b hb hg => hmin b (hgroups a ha b hb hg) hg⟩
  · exact fun ⟨ha, h⟩ => ⟨ha, fun b hb hg => h.2 b (hsub hb) hg⟩

/-- Removing whole groups never improves the winner's rank. -/
theorem rank_le_of_restrict (hsub : pool' ⊆ pool)
    (hgroups : ∀ a ∈ pool', ∀ b ∈ pool, group b = group a → b ∈ pool') {w w' : α}
    (hw : Winner pool group near rank w) (hw' : Winner pool' group near rank w') :
    rank w ≤ rank w' :=
  hw.2 w' ((representative_of_restrict hsub hgroups w').mp hw'.1).2

/-- A winner whose group stays goes on winning. -/
theorem Winner.of_restrict (hsub : pool' ⊆ pool)
    (hgroups : ∀ a ∈ pool', ∀ b ∈ pool, group b = group a → b ∈ pool') {w : α}
    (hw : Winner pool group near rank w) (hmem : w ∈ pool') :
    Winner pool' group near rank w :=
  ⟨(representative_of_restrict hsub hgroups w).mpr ⟨hmem, hw.1⟩,
    fun r hr => hw.2 r ((representative_of_restrict hsub hgroups r).mp hr).2⟩

/-- A nearness that agrees on the pool has the same representatives. -/
theorem Representative.congr_near {near' : α → κ} (h : ∀ a ∈ pool, near' a = near a) (a : α) :
    Representative pool group near' a ↔ Representative pool group near a := by
  refine and_congr_right fun ha => forall_congr' fun b => ?_
  refine imp_congr_right fun hb => ?_
  rw [h a ha, h b hb]

/-- The winner depends on the representatives only. -/
theorem Winner.congr_representative {near' : α → κ}
    (h : ∀ a, Representative pool' group near' a ↔ Representative pool group near a) (w : α) :
    Winner pool' group near' rank w ↔ Winner pool group near rank w := by
  simp only [Winner, h]

/-- Two rankings that order the representatives alike have the same winner. -/
theorem Winner.congr_rank {β' : Type*} [LinearOrder β'] {rank' : α → β'}
    (h : ∀ a b, Representative pool group near a → Representative pool group near b →
      (rank a ≤ rank b ↔ rank' a ≤ rank' b)) (w : α) :
    Winner pool group near rank w ↔ Winner pool group near rank' w := by
  refine and_congr_right fun hw => forall_congr' fun r => ?_
  exact imp_congr_right fun hr => h w r hw hr

/-- Renaming the offers renames the winner. -/
theorem winner_image {γ : Type*} {g : α → γ} {group' : γ → ι} {near' : γ → κ} {rank' : γ → β}
    (hgroup : ∀ a, group' (g a) = group a) (hnear : ∀ a, near' (g a) = near a)
    (hrank : ∀ a, rank' (g a) = rank a) (hg : Function.Injective g) {w : α} :
    Winner (g '' pool) group' near' rank' (g w) ↔ Winner pool group near rank w := by
  have hrepresentative : ∀ a, Representative (g '' pool) group' near' (g a)
      ↔ Representative pool group near a := fun a => by
    simp only [Representative, hg.mem_set_image, Set.forall_mem_image, hgroup, hnear]
  constructor
  · rintro ⟨hw, hmin⟩
    refine ⟨(hrepresentative w).mp hw, fun r hr => ?_⟩
    rw [← hrank, ← hrank]
    exact hmin (g r) ((hrepresentative r).mpr hr)
  · rintro ⟨hw, hmin⟩
    refine ⟨(hrepresentative w).mpr hw, fun r hr => ?_⟩
    obtain ⟨r, -, rfl⟩ := hr.1
    rw [hrank, hrank]
    exact hmin r ((hrepresentative r).mp hr)

/-- A winner by a lexicographic rank: best in the first component, and best in
the second among those that are best in the first. -/
theorem winner_lex_iff {β' : Type*} [LinearOrder β'] {rank' : α → β'} (w : α) :
    Winner pool group near (fun a => toLex (rank a, rank' a)) w
      ↔ Winner pool group near rank w
        ∧ ∀ v, Winner pool group near rank v → rank' w ≤ rank' v := by
  simp only [Winner, Prod.Lex.toLex_le_toLex]
  constructor
  · rintro ⟨hw, hmin⟩
    have hfst : ∀ r, Representative pool group near r → rank w ≤ rank r := fun r hr =>
      (hmin r hr).elim le_of_lt fun h => h.1.le
    refine ⟨⟨hw, hfst⟩, fun v hv => ?_⟩
    rcases hmin v hv.1 with hlt | ⟨-, hle⟩
    · exact absurd (hv.2 w hw) hlt.not_ge
    · exact hle
  · rintro ⟨⟨hw, hfst⟩, hsnd⟩
    refine ⟨hw, fun r hr => ?_⟩
    rcases (hfst r hr).lt_or_eq with hlt | heq
    · exact Or.inl hlt
    · exact Or.inr ⟨heq, hsnd r ⟨hr, fun s hs => heq ▸ hfst s hs⟩⟩

end Order

/-! ## Reading the selection off a list -/

section Lists

variable [LinearOrder κ] [LinearOrder β]

/-- The first minimum of a list whose identifiers increase is its least element
in the lexicographic order of value and identifier. -/
theorem lex_le_of_mem_argmin {d : α → κ} {ident : α → β} :
    ∀ {l : List α} {a : α}, l.Pairwise (ident · < ident ·) → l.argmin d = some a →
      ∀ b ∈ l, toLex (d a, ident a) ≤ toLex (d b, ident b)
  | [], _, _, h, _, _ => by simp at h
  | x :: xs, a, hsorted, h, b, hb => by
      obtain ⟨hx, hxs⟩ := List.pairwise_cons.mp hsorted
      rw [List.argmin_cons] at h
      cases hc : xs.argmin d with
      | none =>
          obtain rfl := List.argmin_eq_none.mp hc
          obtain rfl : x = a := by simpa [hc] using h
          obtain rfl := List.mem_singleton.mp hb
          exact le_rfl
      | some c =>
          simp only [hc] at h
          have ih := lex_le_of_mem_argmin hxs hc
          split at h
          · rename_i hlt
            obtain rfl := Option.some.inj h
            rcases List.mem_cons.mp hb with rfl | hb'
            · exact Prod.Lex.toLex_le_toLex.mpr (Or.inl hlt)
            · exact ih b hb'
          · rename_i hge
            obtain rfl := Option.some.inj h
            rcases List.mem_cons.mp hb with rfl | hb'
            · exact le_rfl
            · have hdb : d x ≤ d b :=
                (not_lt.mp hge).trans (List.le_of_mem_argmin hb' hc)
              rcases hdb.lt_or_eq with hlt | heq
              · exact Prod.Lex.toLex_le_toLex.mpr (Or.inl hlt)
              · exact Prod.Lex.toLex_le_toLex.mpr (Or.inr ⟨heq, (hx b hb').le⟩)

variable {le R : α → α → Prop} [DecidableRel le]

/-- Order by `le`, ties by `R`. -/
def Refines (le R : α → α → Prop) (a b : α) : Prop :=
  le a b ∧ (le b a → R a b)

theorem pairwise_orderedInsert_refines [Std.Total le] [IsTrans α le] {a : α} :
    ∀ {l : List α}, l.Pairwise (Refines le R) → (∀ b ∈ l, R a b) →
      (l.orderedInsert le a).Pairwise (Refines le R)
  | [], _, _ => by simp
  | b :: l, hl, ha => by
      obtain ⟨hb, hl'⟩ := List.pairwise_cons.mp hl
      rw [List.orderedInsert_cons]
      split
      · rename_i hab
        refine List.pairwise_cons.mpr ⟨fun c hc => ⟨?_, fun _ => ha c hc⟩, hl⟩
        rcases List.mem_cons.mp hc with rfl | hc'
        · exact hab
        · exact IsTrans.trans a b c hab (hb c hc').1
      · rename_i hab
        refine List.pairwise_cons.mpr ⟨fun c hc => ?_,
          pairwise_orderedInsert_refines hl' fun c hc => ha c (List.mem_cons_of_mem _ hc)⟩
        rcases List.mem_orderedInsert le |>.mp hc with rfl | hc'
        · exact ⟨(Std.Total.total b c).resolve_right hab, fun h => absurd h hab⟩
        · exact hb c hc'

/-- **Stability.** Sorting a list that is ordered by `R` orders it by `le`, with
the ties still ordered by `R`. -/
theorem pairwise_stable [Std.Total le] [IsTrans α le] :
    ∀ {l : List α}, l.Pairwise R → (l.insertionSort le).Pairwise (Refines le R)
  | [], _ => List.Pairwise.nil
  | a :: l, h => by
      obtain ⟨ha, hl⟩ := List.pairwise_cons.mp h
      rw [List.insertionSort_cons]
      refine pairwise_orderedInsert_refines (pairwise_stable hl) fun b hb => ?_
      exact ha b ((List.mem_insertionSort le).mp hb)

variable {pool : Set α} {group : α → ι} {near : α → κ} {rank : α → β}

/-- The head of a list of the representatives that is sorted by rank is the
winner. -/
theorem selects_head (hinj : Set.InjOn rank {r | Representative pool group near r})
    {l : List α} (hmem : ∀ a, a ∈ l ↔ Representative pool group near a)
    (hsorted : l.Pairwise fun a b => rank a ≤ rank b) :
    Selects l.head? (Winner pool group near rank) := by
  intro w
  cases l with
  | nil =>
      refine iff_of_false (by simp) fun hw => ?_
      exact List.not_mem_nil ((hmem w).mpr hw.1)
  | cons h t =>
      have hrep : Representative pool group near h := (hmem h).mp (List.mem_cons_self ..)
      have hmin : Winner pool group near rank h := by
        refine ⟨hrep, fun r hr => ?_⟩
        rcases List.mem_cons.mp ((hmem r).mpr hr) with rfl | hr'
        · exact le_rfl
        · exact (List.pairwise_cons.mp hsorted).1 r hr'
      rw [List.head?_cons, Option.some.injEq]
      exact ⟨fun heq => heq ▸ hmin, fun hw => hmin.unique hinj hw⟩

end Lists

end Selection

end AuctionWorker
