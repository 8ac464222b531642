import AuctionWorker.Grouping
import AuctionWorker.Loops
import AuctionWorker.Schema
import AuctionWorker.Selection

/-!
# What a targeting loop computes

The three implementations run the same loop over the map from advertisers to
ads: fetch the features of an advertiser's ads, pick the first feature nearest
to the zone, look its ad up by id. They differ in the fetch and in the distance,
which are parameters here: `feat` is the feature an ad's fetch delivers, if any,
and `dist` the distance of a feature.

If the ads that were grouped come in increasing order of their ids, the loop
collects exactly the representatives of the two-level selection
(`mem_representatives`).
-/

namespace AuctionWorker

variable {χ : Type}

/-- The ad is in one of the groups that go on to targeting. -/
def PassedOn (groups : List (ℕ × List (Ads χ))) (ads : Ads χ) : Prop :=
  ∃ group ∈ groups, ads ∈ group.2

namespace Targeting

variable (feat : Ads χ → Option ℤ) (dist : ℤ → ℤ)

/-- The features of a list of ads, in the order of the ads. -/
def features (adses : List (Ads χ)) : List AdsFeature :=
  adses.filterMap fun ads => (feat ads).map fun feature => ⟨ads.adsId, feature⟩

/-- The ad of the first nearest feature. -/
noncomputable def representativeOf (adses : List (Ads χ)) : Option (Ads χ) :=
  ((features feat adses).argmin fun row => dist row.feature).bind fun best =>
    adses.find? fun ads => ads.adsId = best.adsId

/-- The representatives of all groups, in the order of the groups. -/
noncomputable def representatives (groups : List (ℕ × List (Ads χ))) : List (Ads χ) :=
  groups.filterMap fun group => representativeOf feat dist group.2

/-- The ads of `adses` that have a feature. -/
def offers (adses : List (Ads χ)) : Set (Ads χ) :=
  {ads | ads ∈ adses ∧ (feat ads).isSome}

def near (ads : Ads χ) : ℤ ×ₗ ℕ :=
  toLex (dist ((feat ads).getD 0), ads.adsId)

variable {feat dist}

theorem mem_features {adses : List (Ads χ)} {row : AdsFeature} :
    row ∈ features feat adses
      ↔ ∃ ads ∈ adses, ads.adsId = row.adsId ∧ feat ads = some row.feature := by
  simp only [features, List.mem_filterMap, Option.map_eq_some_iff]
  refine exists_congr fun ads => and_congr_right fun _ => ?_
  constructor
  · rintro ⟨feature, hfeat, rfl⟩
    exact ⟨rfl, hfeat⟩
  · rintro ⟨hid, hfeat⟩
    exact ⟨row.feature, hfeat, by rw [hid]⟩

/-- The look-up by the id of a feature finds an ad. -/
theorem find?_of_mem_features {adses : List (Ads χ)} {row : AdsFeature}
    (h : row ∈ features feat adses) :
    ∃ ads, adses.find? (fun ads => ads.adsId = row.adsId) = some ads := by
  obtain ⟨ads, hads, hid, -⟩ := mem_features.mp h
  exact Option.isSome_iff_exists.mp (List.find?_isSome.mpr ⟨ads, hads, by simp [hid]⟩)

variable (feat) in
theorem features_sorted {adses : List (Ads χ)}
    (h : adses.Pairwise fun a b => a.adsId < b.adsId) :
    (features feat adses).Pairwise fun a b => a.adsId < b.adsId := by
  refine List.Pairwise.filterMap _ (fun a b hab row hrow row' hrow' => ?_) h
  obtain ⟨_, -, rfl⟩ := Option.map_eq_some_iff.mp hrow
  obtain ⟨_, -, rfl⟩ := Option.map_eq_some_iff.mp hrow'
  exact hab

/-- In a list of increasing ids, looking up the id of an element finds it. -/
theorem find?_adsId {adses : List (Ads χ)} (h : adses.Pairwise fun a b => a.adsId < b.adsId)
    {ads : Ads χ} (hads : ads ∈ adses) :
    adses.find? (fun a => a.adsId = ads.adsId) = some ads := by
  have hsome : (adses.find? fun a => a.adsId = ads.adsId).isSome :=
    List.find?_isSome.mpr ⟨ads, hads, by simp⟩
  obtain ⟨a, ha⟩ := Option.isSome_iff_exists.mp hsome
  have hid : a.adsId = ads.adsId := by simpa using List.find?_some ha
  have hnd : (adses.map Ads.adsId).Nodup :=
    List.pairwise_map.mpr (h.imp fun hlt => Nat.ne_of_lt hlt)
  rw [ha, List.inj_on_of_nodup_map hnd (List.mem_of_find?_eq_some ha) hads hid]

/-- Filtering by the id of an element leaves this element alone. -/
theorem filter_adsId {adses : List (Ads χ)} (h : adses.Pairwise fun a b => a.adsId < b.adsId)
    {ads : Ads χ} (hads : ads ∈ adses) :
    adses.filter (fun a => a.adsId = ads.adsId) = [ads] := by
  induction adses with
  | nil => cases hads
  | cons a rest ih =>
      obtain ⟨ha, hrest⟩ := List.pairwise_cons.mp h
      rcases List.mem_cons.mp hads with rfl | hads'
      · have hnone : rest.filter (fun b => b.adsId = ads.adsId) = [] :=
          List.filter_eq_nil_iff.mpr fun b hb => by simpa using Nat.ne_of_gt (ha b hb)
        rw [List.filter_cons_of_pos (by simp), hnone]
      · have hne : a.adsId ≠ ads.adsId := Nat.ne_of_lt (ha ads hads')
        rw [List.filter_cons_of_neg (by simpa using hne), ih hrest hads']

/-- Appending every ad of an id appends the one that has it. -/
theorem foldl_append_adsId {adses : List (Ads χ)}
    (h : adses.Pairwise fun a b => a.adsId < b.adsId) {ads : Ads χ} (hads : ads ∈ adses)
    (acc : List (Ads χ)) :
    adses.foldl (fun acc a => if a.adsId = ads.adsId then acc ++ [a] else acc) acc
      = acc ++ [ads] := by
  rw [← filter_adsId h hads]
  exact Loops.foldl_eq_filter (fun _ _ _ => by simp) acc

/-- Appending the ads of the best feature's id appends the representative. -/
theorem foldl_append_best {adses : List (Ads χ)} (h : adses.Pairwise fun a b => a.adsId < b.adsId)
    {best : AdsFeature}
    (hbest : (features feat adses).argmin (fun row => dist row.feature) = some best)
    (acc : List (Ads χ)) :
    adses.foldl (fun acc a => if a.adsId = best.adsId then acc ++ [a] else acc) acc
      = acc ++ (representativeOf feat dist adses).toList := by
  obtain ⟨ads, hads, hid, -⟩ := mem_features.mp (List.argmin_mem hbest)
  rw [representativeOf, hbest, Option.bind_some, ← hid, find?_adsId h hads,
    foldl_append_adsId h hads]
  rfl

/-- **One group.** The loop's choice is the least ad of the group in the order of
distance and id, among those that have a feature. -/
theorem representativeOf_eq_some {adses : List (Ads χ)}
    (h : adses.Pairwise fun a b => a.adsId < b.adsId) {ads : Ads χ} :
    representativeOf feat dist adses = some ads
      ↔ ads ∈ offers feat adses
        ∧ ∀ b ∈ offers feat adses, near feat dist ads ≤ near feat dist b := by
  have hsorted := features_sorted feat h
  constructor
  · intro hrep
    obtain ⟨best, hbest, hfind⟩ := Option.bind_eq_some_iff.mp hrep
    obtain ⟨a, ha, hid, hfeat⟩ := mem_features.mp (List.argmin_mem hbest)
    rw [← hid, find?_adsId h ha] at hfind
    obtain rfl := Option.some.inj hfind
    refine ⟨⟨ha, by simp [hfeat]⟩, fun b hb => ?_⟩
    obtain ⟨hb, hsome⟩ := hb
    obtain ⟨feature, hfeature⟩ := Option.isSome_iff_exists.mp hsome
    have hrow : (⟨b.adsId, feature⟩ : AdsFeature) ∈ features feat adses :=
      mem_features.mpr ⟨b, hb, rfl, hfeature⟩
    have hle := Selection.lex_le_of_mem_argmin hsorted hbest _ hrow
    simpa [near, hfeat, hfeature, hid] using hle
  · rintro ⟨⟨hads, hsome⟩, hmin⟩
    obtain ⟨feature, hfeature⟩ := Option.isSome_iff_exists.mp hsome
    have hrow : (⟨ads.adsId, feature⟩ : AdsFeature) ∈ features feat adses :=
      mem_features.mpr ⟨ads, hads, rfl, hfeature⟩
    cases hbest : (features feat adses).argmin fun row => dist row.feature with
    | none =>
        rw [List.argmin_eq_none.mp hbest] at hrow
        cases hrow
    | some best =>
        obtain ⟨a, ha, hid, hfeat⟩ := mem_features.mp (List.argmin_mem hbest)
        have hle := Selection.lex_le_of_mem_argmin hsorted hbest _ hrow
        have hge := hmin a ⟨ha, by simp [hfeat]⟩
        have heq : best.adsId = ads.adsId := by
          have hle' : near feat dist a ≤ near feat dist ads := by
            simpa [near, hfeat, hfeature, hid] using hle
          have := congrArg (fun p => (ofLex p).2) (le_antisymm hle' hge)
          rw [← hid]
          exact this
        rw [representativeOf, hbest, Option.bind_some, heq, find?_adsId h hads]

/-- **The whole map.** Over the groups of an increasing list, the loop collects
the representatives of the selection. -/
theorem mem_representatives {adses : List (Ads χ)} {groups : List (ℕ × List (Ads χ))}
    (h : adses.Pairwise fun a b => a.adsId < b.adsId)
    (hgroups : Grouping.Groups Ads.advertiserId adses groups) (ads : Ads χ) :
    ads ∈ representatives feat dist groups
      ↔ Selection.Representative (offers feat adses) Ads.advertiserId (near feat dist) ads := by
  simp only [representatives, List.mem_filterMap]
  constructor
  · rintro ⟨⟨advertiserId, group⟩, hmem, hrep⟩
    obtain ⟨rfl, -⟩ := hgroups.mem_iff.mp hmem
    obtain ⟨⟨hads, hsome⟩, hmin⟩ := (representativeOf_eq_some (h.filter _)).mp hrep
    obtain ⟨hads, hid⟩ := List.mem_filter.mp hads
    refine ⟨⟨hads, hsome⟩, fun b hb hbid => hmin b ⟨?_, hb.2⟩⟩
    exact List.mem_filter.mpr ⟨hb.1, decide_eq_true (hbid.trans (of_decide_eq_true hid))⟩
  · rintro ⟨⟨hads, hsome⟩, hmin⟩
    have hmem : ads ∈ adses.filter fun a => a.advertiserId = ads.advertiserId :=
      List.mem_filter.mpr ⟨hads, by simp⟩
    refine ⟨⟨ads.advertiserId, _⟩, hgroups.mem_iff.mpr ⟨rfl, List.ne_nil_of_mem hmem⟩, ?_⟩
    refine (representativeOf_eq_some (h.filter _)).mpr ⟨⟨hmem, hsome⟩, fun b hb => ?_⟩
    obtain ⟨hb', hbid⟩ := List.mem_filter.mp hb.1
    exact hmin b ⟨hb', hb.2⟩ (of_decide_eq_true hbid)

/-- A loop that appends the representative of every group collects them all. -/
theorem foldlM_representatives {m : Type → Type*} [Monad m] [LawfulMonad m]
    {step : List (Ads χ) → ℕ × List (Ads χ) → m (List (Ads χ))}
    {groups : List (ℕ × List (Ads χ))}
    (h : ∀ acc, ∀ group ∈ groups,
      step acc group = pure (acc ++ (representativeOf feat dist group.2).toList)) :
    groups.foldlM step [] = pure (representatives feat dist groups) := by
  rw [Loops.foldlM_eq_pure h, Loops.foldl_eq_filterMap (fun _ _ _ => rfl)]
  rfl

/-- The representatives come in the order of the groups' keys. -/
theorem representatives_sorted {adses : List (Ads χ)} {groups : List (ℕ × List (Ads χ))}
    (h : adses.Pairwise fun a b => a.adsId < b.adsId)
    (hgroups : Grouping.Groups Ads.advertiserId adses groups)
    (hkeys : (groups.map Prod.fst).Pairwise (· < ·)) :
    (representatives feat dist groups).Pairwise fun a b => a.advertiserId < b.advertiserId := by
  have hown : ∀ group ∈ groups, ∀ ads, representativeOf feat dist group.2 = some ads →
      ads.advertiserId = group.1 := by
    rintro ⟨advertiserId, group⟩ hmem ads hrep
    obtain ⟨rfl, -⟩ := hgroups.mem_iff.mp hmem
    have hads := ((representativeOf_eq_some (h.filter _)).mp hrep).1.1
    exact of_decide_eq_true (List.mem_filter.mp hads).2
  refine List.pairwise_filterMap.mpr ?_
  refine (List.pairwise_map.mp hkeys).imp_of_mem fun {g g'} hg hg' hlt a ha b hb => ?_
  rw [hown g hg a ha, hown g' hg' b hb]
  exact hlt

end Targeting

end AuctionWorker
