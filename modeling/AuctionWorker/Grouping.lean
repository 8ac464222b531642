import Mathlib

/-!
# Grouping a list by a key

A program groups a list by pushing every element to the back of the vector
stored under the element's key. The map that holds the vectors is an
association list, in the order in which the map is iterated: `pushBack` keeps
the keys in the order of their first insertion (hash maps of a language that
promises this order), `pushBackOrd` in increasing order (search trees).

`Groups key l m` says what either map holds after the elements of `l` were
pushed: the keys are distinct, no vector is empty, and the vector under `k` is
the sublist of `l` with key `k`, in the order of `l`. One push extends the list
by one element (`Groups.pushBack`, `Groups.pushBackOrd`); a whole loop groups
the elements it did not skip (`groups_foldl`).
-/

namespace AuctionWorker

namespace Grouping

variable {K V : Type*}

/-! ## The two maps -/

section Insertion

variable [DecidableEq K]

/-- The vector stored under `k`, empty when there is none. -/
def get : List (K × List V) → K → List V
  | [], _ => []
  | (k', vs) :: m, k => if k = k' then vs else get m k

/-- Push `v` under `k`; a new key goes to the end. -/
def pushBack : List (K × List V) → K → V → List (K × List V)
  | [], k, v => [(k, [v])]
  | (k', vs) :: m, k, v =>
      if k = k' then (k', vs ++ [v]) :: m else (k', vs) :: pushBack m k v

theorem get_pushBack (k : K) (v : V) (k' : K) : ∀ m : List (K × List V),
    get (pushBack m k v) k' = if k' = k then get m k ++ [v] else get m k'
  | [] => by by_cases h : k' = k <;> simp [pushBack, get, h]
  | (k₀, vs) :: m => by
      have ih := get_pushBack k v k' m
      by_cases h0 : k = k₀
      · subst h0
        by_cases h : k' = k <;> simp [pushBack, get, h]
      · by_cases h : k' = k₀
        · subst h
          simp [pushBack, get, h0, Ne.symm h0]
        · simp [pushBack, get, h0, h, ih]

theorem mem_keys_pushBack {k : K} {v : V} {k' : K} : ∀ {m : List (K × List V)},
    k' ∈ (pushBack m k v).map Prod.fst ↔ k' = k ∨ k' ∈ m.map Prod.fst
  | [] => by simp [pushBack]
  | (k₀, vs) :: m => by
      by_cases h0 : k = k₀
      · simp [pushBack, h0]
      · simp only [pushBack, h0, if_false, List.map_cons, List.mem_cons, mem_keys_pushBack]
        tauto

theorem mem_keys_of_get_ne {k : K} : ∀ {m : List (K × List V)},
    get m k ≠ [] → k ∈ m.map Prod.fst
  | [], h => absurd rfl h
  | (k₀, vs) :: m, h => by
      by_cases h0 : k = k₀
      · simp [h0]
      · rw [get, if_neg h0] at h
        exact List.mem_cons_of_mem _ (mem_keys_of_get_ne h)

theorem get_eq_of_mem {k : K} {vs : List V} : ∀ {m : List (K × List V)},
    (m.map Prod.fst).Nodup → (k, vs) ∈ m → get m k = vs
  | (k₀, vs₀) :: m, hnd, h => by
      rw [List.map_cons, List.nodup_cons] at hnd
      rcases List.mem_cons.mp h with heq | h'
      · obtain ⟨rfl, rfl⟩ := Prod.mk.inj heq
        simp [get]
      · have hk : k ∈ m.map Prod.fst := List.mem_map_of_mem (f := Prod.fst) h'
        have hne : k ≠ k₀ := fun he => hnd.1 (he ▸ hk)
        rw [get, if_neg hne]
        exact get_eq_of_mem hnd.2 h'

theorem mem_get_of_mem_keys {k : K} : ∀ {m : List (K × List V)},
    k ∈ m.map Prod.fst → (k, get m k) ∈ m
  | (k₀, vs) :: m, h => by
      by_cases h0 : k = k₀
      · simp [get, h0]
      · rw [get, if_neg h0]
        rw [List.map_cons, List.mem_cons] at h
        exact List.mem_cons_of_mem _ (mem_get_of_mem_keys (h.resolve_left h0))

theorem nodup_keys_pushBack {k : K} {v : V} : ∀ {m : List (K × List V)},
    (m.map Prod.fst).Nodup → ((pushBack m k v).map Prod.fst).Nodup
  | [], _ => by simp [pushBack]
  | (k₀, vs) :: m, hnd => by
      by_cases h0 : k = k₀
      · simpa [pushBack, h0] using hnd
      · rw [List.map_cons, List.nodup_cons] at hnd
        simp only [pushBack, h0, if_false, List.map_cons, List.nodup_cons, mem_keys_pushBack]
        refine ⟨fun h => ?_, nodup_keys_pushBack hnd.2⟩
        rcases h with heq | h
        · exact h0 heq.symm
        · exact hnd.1 h

end Insertion

section Ordered

variable [LinearOrder K]

/-- Push `v` under `k`; a new key goes before the first larger one. -/
def pushBackOrd : List (K × List V) → K → V → List (K × List V)
  | [], k, v => [(k, [v])]
  | (k', vs) :: m, k, v =>
      if k = k' then (k', vs ++ [v]) :: m
      else if k < k' then (k, [v]) :: (k', vs) :: m
      else (k', vs) :: pushBackOrd m k v

theorem mem_keys_pushBackOrd {k : K} {v : V} {k' : K} : ∀ {m : List (K × List V)},
    k' ∈ (pushBackOrd m k v).map Prod.fst ↔ k' = k ∨ k' ∈ m.map Prod.fst
  | [] => by simp [pushBackOrd]
  | (k₀, vs) :: m => by
      by_cases h0 : k = k₀
      · simp [pushBackOrd, h0]
      · by_cases hlt : k < k₀
        · simp [pushBackOrd, h0, hlt]
        · simp only [pushBackOrd, h0, hlt, if_false, List.map_cons, List.mem_cons,
            mem_keys_pushBackOrd]
          tauto

theorem sorted_keys_pushBackOrd {k : K} {v : V} : ∀ {m : List (K × List V)},
    (m.map Prod.fst).Pairwise (· < ·) → ((pushBackOrd m k v).map Prod.fst).Pairwise (· < ·)
  | [], _ => by simp [pushBackOrd]
  | (k₀, vs) :: m, hs => by
      by_cases h0 : k = k₀
      · simpa [pushBackOrd, h0] using hs
      · by_cases hlt : k < k₀
        · rw [pushBackOrd, if_neg h0, if_pos hlt, List.map_cons]
          refine List.pairwise_cons.mpr ⟨fun k' hk' => ?_, hs⟩
          rcases List.mem_cons.mp hk' with rfl | hk''
          · exact hlt
          · exact hlt.trans ((List.pairwise_cons.mp hs).1 k' hk'')
        · rw [List.map_cons, List.pairwise_cons] at hs
          rw [pushBackOrd, if_neg h0, if_neg hlt, List.map_cons]
          refine List.pairwise_cons.mpr ⟨fun k' hk' => ?_, sorted_keys_pushBackOrd hs.2⟩
          rcases mem_keys_pushBackOrd.mp hk' with rfl | hk''
          · exact lt_of_le_of_ne (not_lt.mp hlt) (Ne.symm h0)
          · exact hs.1 k' hk''

theorem get_eq_nil_of_lt {k : K} {m : List (K × List V)}
    (h : ∀ k' ∈ m.map Prod.fst, k < k') : get m k = [] := by
  by_contra hne
  exact lt_irrefl k (h k (mem_keys_of_get_ne hne))

theorem get_pushBackOrd (k : K) (v : V) (k' : K) : ∀ m : List (K × List V),
    (m.map Prod.fst).Pairwise (· < ·) →
      get (pushBackOrd m k v) k' = if k' = k then get m k ++ [v] else get m k'
  | [], _ => by by_cases h : k' = k <;> simp [pushBackOrd, get, h]
  | (k₀, vs) :: m, hs => by
      rw [List.map_cons, List.pairwise_cons] at hs
      have ih := get_pushBackOrd k v k' m hs.2
      by_cases h0 : k = k₀
      · subst h0
        by_cases h : k' = k <;> simp [pushBackOrd, get, h]
      · by_cases hlt : k < k₀
        · have hnil : get m k = [] := get_eq_nil_of_lt fun k₁ h₁ => hlt.trans (hs.1 k₁ h₁)
          by_cases h : k' = k
          · simp [pushBackOrd, get, h0, hlt, h, hnil]
          · simp [pushBackOrd, get, h0, hlt, h]
        · by_cases h : k' = k₀
          · subst h
            simp [pushBackOrd, get, h0, hlt, Ne.symm h0]
          · simp [pushBackOrd, get, h0, hlt, h, ih]

end Ordered

/-! ## What a map holds -/

section Groups

variable [DecidableEq K]

/-- `m` groups the elements of `l` by `key`. -/
structure Groups (key : V → K) (l : List V) (m : List (K × List V)) : Prop where
  nodup : (m.map Prod.fst).Nodup
  ne_nil : ∀ k ∈ m.map Prod.fst, get m k ≠ []
  get_eq : ∀ k, get m k = l.filter fun v => key v = k

variable {key : V → K} {l : List V} {m : List (K × List V)}

theorem groups_nil : Groups key [] [] :=
  ⟨List.nodup_nil, fun _ h => (List.not_mem_nil h).elim, fun _ => rfl⟩

/-- The map's entries are the nonempty groups. -/
theorem Groups.mem_iff (h : Groups key l m) {k : K} {vs : List V} :
    (k, vs) ∈ m ↔ vs = l.filter (fun v => key v = k) ∧ vs ≠ [] := by
  constructor
  · intro hmem
    have hget : get m k = vs := get_eq_of_mem h.nodup hmem
    exact ⟨hget ▸ h.get_eq k, hget ▸ h.ne_nil k (List.mem_map_of_mem (f := Prod.fst) hmem)⟩
  · rintro ⟨rfl, hne⟩
    rw [← h.get_eq k] at hne ⊢
    exact mem_get_of_mem_keys (mem_keys_of_get_ne hne)

/-- The elements of the vectors are the grouped ones. -/
theorem Groups.mem_entries_iff (h : Groups key l m) {v : V} :
    (∃ entry ∈ m, v ∈ entry.2) ↔ v ∈ l := by
  constructor
  · rintro ⟨⟨k, vs⟩, hmem, hv⟩
    rw [(h.mem_iff.mp hmem).1] at hv
    exact List.mem_of_mem_filter hv
  · intro hv
    have hgroup : v ∈ l.filter fun w => key w = key v := List.mem_filter.mpr ⟨hv, by simp⟩
    exact ⟨(key v, _), h.mem_iff.mpr ⟨rfl, List.ne_nil_of_mem hgroup⟩, hgroup⟩

/-- Without its first vector, the map groups the elements under the other keys. -/
theorem Groups.tail {k : K} {vs : List V} (h : Groups key l ((k, vs) :: m)) :
    Groups key (l.filter fun v => key v ≠ k) m := by
  have hnd := h.nodup
  rw [List.map_cons, List.nodup_cons] at hnd
  refine ⟨hnd.2, fun k' hk' => ?_, fun k' => ?_⟩
  · have hne := h.ne_nil k' (List.mem_cons_of_mem _ hk')
    have hk : k' ≠ k := fun heq => hnd.1 (heq ▸ hk')
    rwa [get, if_neg hk] at hne
  · have hget := h.get_eq k'
    rw [List.filter_filter]
    by_cases hk : k' = k
    · subst hk
      have hnone : get m k' = [] := not_imp_comm.mp mem_keys_of_get_ne hnd.1
      rw [hnone, eq_comm, List.filter_eq_nil_iff]
      simp
    · rw [get, if_neg hk] at hget
      rw [hget]
      refine List.filter_congr fun v _ => ?_
      by_cases hv : key v = k'
      · simp [hv, hk]
      · simp [hv]

/-- The vectors hold the grouped elements, each as often. -/
theorem Groups.perm_entries (h : Groups key l m) :
    (m.flatMap Prod.snd).Perm l := by
  induction m generalizing l with
  | nil =>
      have hnil : l = [] := by
        cases l with
        | nil => rfl
        | cons v l =>
            have hget := h.get_eq (key v)
            simp [get] at hget
      rw [hnil]
      exact List.Perm.refl _
  | cons entry m ih =>
      obtain ⟨k, vs⟩ := entry
      have hvs : vs = l.filter fun v => key v = k := by
        rw [← h.get_eq k, get, if_pos rfl]
      rw [List.flatMap_cons, hvs]
      refine ((ih h.tail).append_left _).trans ?_
      simpa using List.filter_append_perm (fun v => decide (key v = k)) l

theorem Groups.sum_length (h : Groups key l m) :
    (m.map fun entry => entry.2.length).sum = l.length := by
  rw [← h.perm_entries.length_eq, List.length_flatMap]

/-- A map whose entries come in another order holds the same groups. -/
theorem Groups.perm {m' : List (K × List V)} (h : Groups key l m) (hp : m'.Perm m) :
    Groups key l m' := by
  have hnd : (m'.map Prod.fst).Nodup := (hp.map Prod.fst).nodup_iff.mpr h.nodup
  have hget : ∀ k, get m' k = get m k := by
    intro k
    by_cases hk : k ∈ m.map Prod.fst
    · exact get_eq_of_mem hnd (hp.mem_iff.mpr (mem_get_of_mem_keys hk))
    · have hk' : k ∉ m'.map Prod.fst := fun h' => hk ((hp.map Prod.fst).mem_iff.mp h')
      rw [not_imp_comm.mp mem_keys_of_get_ne hk, not_imp_comm.mp mem_keys_of_get_ne hk']
  refine ⟨hnd, fun k hk => ?_, fun k => (hget k).trans (h.get_eq k)⟩
  rw [hget k]
  exact h.ne_nil k ((hp.map Prod.fst).mem_iff.mp hk)

/-- A push that adds `v` to the vector of its key, and its key to the keys,
extends the grouped list by `v`. -/
theorem Groups.push {m' : List (K × List V)} {v : V} (h : Groups key l m)
    (hnd : (m'.map Prod.fst).Nodup)
    (hkeys : ∀ k, k ∈ m'.map Prod.fst ↔ k = key v ∨ k ∈ m.map Prod.fst)
    (hget : ∀ k, get m' k = if k = key v then get m (key v) ++ [v] else get m k) :
    Groups key (l ++ [v]) m' := by
  refine ⟨hnd, fun k hk => ?_, fun k => ?_⟩
  · rw [hget k]
    by_cases hkv : k = key v
    · simp [hkv]
    · rw [if_neg hkv]
      exact h.ne_nil k (((hkeys k).mp hk).resolve_left hkv)
  · rw [hget k, List.filter_append, ← h.get_eq k]
    by_cases hkv : k = key v
    · simp [hkv]
    · simp [hkv, Ne.symm hkv]

theorem Groups.pushBack (h : Groups key l m) (v : V) :
    Groups key (l ++ [v]) (pushBack m (key v) v) :=
  h.push (nodup_keys_pushBack h.nodup) (fun _ => mem_keys_pushBack)
    (fun k => get_pushBack (key v) v k m)

/-- **The grouping loop.** A loop that pushes the elements that pass `keep` groups
exactly those. -/
theorem groups_foldl (key : V → K) (keep : V → Bool)
    {step : List (K × List V) → V → List (K × List V)}
    (hstep : ∀ m v, step m v = if keep v then Grouping.pushBack m (key v) v else m) :
    ∀ (vs : List V) {l : List V} {m : List (K × List V)}, Groups key l m →
      Groups key (l ++ vs.filter keep) (vs.foldl step m)
  | [], _, _, h => by simpa using h
  | v :: vs, l, m, h => by
      rw [List.foldl_cons, hstep]
      by_cases hv : keep v
      · rw [if_pos hv, List.filter_cons_of_pos hv]
        simpa using groups_foldl key keep hstep vs (h.pushBack v)
      · rw [if_neg hv, List.filter_cons_of_neg hv]
        exact groups_foldl key keep hstep vs h

end Groups

section OrderedGroups

variable [LinearOrder K] {key : V → K} {l : List V} {m : List (K × List V)}

theorem Groups.pushBackOrd (h : Groups key l m) (hs : (m.map Prod.fst).Pairwise (· < ·))
    (v : V) : Groups key (l ++ [v]) (pushBackOrd m (key v) v) :=
  h.push ((sorted_keys_pushBackOrd hs).imp fun hlt => hlt.ne)
    (fun _ => mem_keys_pushBackOrd) (fun k => get_pushBackOrd (key v) v k m hs)

/-- The grouping loop over an ordered map, whose keys stay sorted. -/
theorem groups_foldl_ord (key : V → K) (keep : V → Bool)
    {step : List (K × List V) → V → List (K × List V)}
    (hstep : ∀ m v, step m v = if keep v then Grouping.pushBackOrd m (key v) v else m) :
    ∀ (vs : List V) {l : List V} {m : List (K × List V)}, Groups key l m →
      (m.map Prod.fst).Pairwise (· < ·) →
      Groups key (l ++ vs.filter keep) (vs.foldl step m)
        ∧ ((vs.foldl step m).map Prod.fst).Pairwise (· < ·)
  | [], _, _, h, hs => by simpa using ⟨h, hs⟩
  | v :: vs, l, m, h, hs => by
      rw [List.foldl_cons, hstep]
      by_cases hv : keep v
      · rw [if_pos hv, List.filter_cons_of_pos hv]
        simpa using groups_foldl_ord key keep hstep vs (h.pushBackOrd hs v)
          (sorted_keys_pushBackOrd hs)
      · rw [if_neg hv, List.filter_cons_of_neg hv]
        exact groups_foldl_ord key keep hstep vs h hs

end OrderedGroups

end Grouping

end AuctionWorker
