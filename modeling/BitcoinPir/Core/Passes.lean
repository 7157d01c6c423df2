import BitcoinPir.Foundations.Lists

/-!
# Items walked in passes

Both Merkle verifiers group their items by PBC group and walk them in passes: pass `p` takes the
`p`-th item of every group that has one, so a pass holds at most one item per group and every
item is in exactly one pass (`filter_passGroupToItem`). A group's entry in a pass is looked up by
`lookup_passGroupToItem`.
-/

namespace BitcoinPir

open Foundations

/-- The indices of the items of group `g`, in order, where item `i` is of group `groups[i]`. -/
def itemsOfGroup (groups : List ℕ) (g : ℕ) : List ℕ :=
  (List.range groups.length).filter fun i => groups[i]? = some g

/-- The map from groups to the indices of their items. -/
def itemsByGroup (groups : List ℕ) : List (ℕ × List ℕ) :=
  groups.dedup.map fun g => (g, itemsOfGroup groups g)

/-- The items of a pass, by group: the `pass`-th item of each group that has one. -/
def passGroupToItem (byGroup : List (ℕ × List ℕ)) (pass : ℕ) : List (ℕ × ℕ) :=
  byGroup.filterMap fun (g, arr) => (arr[pass]?).map fun i => (g, i)

/-- The pass of item `i` of group `g`: its position among the items of its group. -/
def passOf (groups : List ℕ) (i g : ℕ) : ℕ := (itemsOfGroup groups g).idxOf i

variable {groups : List ℕ} {i g : ℕ}

theorem mem_itemsOfGroup : i ∈ itemsOfGroup groups g ↔ groups[i]? = some g := by
  simp only [itemsOfGroup, List.mem_filter, List.mem_range, decide_eq_true_eq]
  constructor
  · rintro ⟨-, h⟩
    exact h
  · intro h
    exact ⟨(List.getElem?_eq_some_iff.1 h).1, h⟩

theorem nodup_itemsOfGroup (groups : List ℕ) (g : ℕ) : (itemsOfGroup groups g).Nodup :=
  List.nodup_range.filter _

theorem getElem?_passOf (hi : groups[i]? = some g) :
    (itemsOfGroup groups g)[passOf groups i g]? = some i := by
  have hmem : i ∈ itemsOfGroup groups g := mem_itemsOfGroup.2 hi
  rw [passOf, List.getElem?_eq_getElem (List.idxOf_lt_length_of_mem hmem), List.getElem_idxOf]

/-- No other pass holds item `i`. -/
theorem eq_passOf (hi : groups[i]? = some g) {pass : ℕ}
    (h : (itemsOfGroup groups g)[pass]? = some i) : pass = passOf groups i g := by
  obtain ⟨hlt, hget⟩ := List.getElem?_eq_some_iff.1 h
  obtain ⟨hlt', hget'⟩ := List.getElem?_eq_some_iff.1 (getElem?_passOf hi)
  exact (nodup_itemsOfGroup groups g).getElem_inj_iff.1 (hget.trans hget'.symm)

theorem length_itemsOfGroup_mem (hi : groups[i]? = some g) :
    (itemsOfGroup groups g).length ∈ (itemsByGroup groups).map fun e => e.2.length := by
  simp only [itemsByGroup, List.map_map, List.mem_map, List.mem_dedup]
  exact ⟨g, List.mem_of_getElem? hi, rfl⟩

theorem length_itemsOfGroup (groups : List ℕ) (g : ℕ) :
    (itemsOfGroup groups g).length = groups.count g := by
  have hmap : (List.range groups.length).map (groups[·]?) = groups.map some := by
    refine List.ext_getElem (by simp) fun i _ _ => ?_
    simp
  calc (itemsOfGroup groups g).length
      = ((List.range groups.length).map (groups[·]?)).count (some g) := by
        rw [List.count, List.countP_map, List.countP_eq_length_filter]
        congr 1
        exact List.filter_congr fun i _ => by simp [Bool.beq_eq_decide_eq]
    _ = groups.count g := by
        rw [hmap, List.count_map_of_injective _ _ (Option.some_injective ℕ)]

/-- The number of passes is the size of the fullest group. -/
theorem maxItems_eq {m : ℕ} (hg : g ∈ groups) (hcount : groups.count g = m)
    (hle : ∀ g, groups.count g ≤ m) (d : ℕ) :
    ((itemsByGroup groups).map fun e => e.2.length).max?.getD d = m := by
  have hmax : ((itemsByGroup groups).map fun e => e.2.length).max? = some m := by
    refine List.max?_eq_some_iff.2 ⟨?_, ?_⟩
    · obtain ⟨i, hi⟩ := List.mem_iff_getElem?.1 hg
      have := length_itemsOfGroup_mem hi
      rwa [length_itemsOfGroup, hcount] at this
    · intro n hn
      simp only [itemsByGroup, List.map_map, List.mem_map, Function.comp_apply] at hn
      obtain ⟨g', -, rfl⟩ := hn
      rw [length_itemsOfGroup]
      exact hle g'
  rw [hmax, Option.getD_some]

/-- There are more passes than the largest group needs. -/
theorem passOf_lt_of_max (hi : groups[i]? = some g) (d : ℕ) :
    passOf groups i g < ((itemsByGroup groups).map fun e => e.2.length).max?.getD d := by
  have hlt := (List.getElem?_eq_some_iff.1 (getElem?_passOf hi)).1
  exact hlt.trans_le (List.le_max?_getD_of_mem (length_itemsOfGroup_mem hi))

/-- In each pass, the entry of item `i` is the one of its own group and pass. -/
theorem filter_passGroupToItem (hi : groups[i]? = some g) (pass : ℕ) :
    (passGroupToItem (itemsByGroup groups) pass).filter (fun e => e.2 = i) =
      if pass = passOf groups i g then [(g, i)] else [] := by
  have hmem : g ∈ groups.dedup := List.mem_dedup.2 (List.mem_of_getElem? hi)
  rw [passGroupToItem, itemsByGroup, List.filterMap_map, List.filter_filterMap,
    filterMap_eq_of_unique (List.nodup_dedup _) hmem]
  · simp only [Function.comp_apply]
    by_cases hp : pass = passOf groups i g
    · rw [hp, getElem?_passOf hi]
      simp
    · rw [if_neg hp]
      cases hget : (itemsOfGroup groups g)[pass]? with
      | none => rfl
      | some j =>
        have hj : j ≠ i := fun h => hp (eq_passOf hi (h ▸ hget))
        simp [hj]
  · intro g' _ hg
    simp only [Function.comp_apply]
    cases hget : (itemsOfGroup groups g')[pass]? with
    | none => rfl
    | some j =>
      have hj : j ≠ i := by
        rintro rfl
        have := mem_itemsOfGroup.1 (List.mem_of_getElem? hget)
        rw [hi, Option.some_inj] at this
        exact hg this.symm
      simp [hj]

theorem lookup_passGroupToItem (groups : List ℕ) (pass g : ℕ) :
    (passGroupToItem (itemsByGroup groups) pass).lookup g =
      if g ∈ groups.dedup then (itemsOfGroup groups g)[pass]? else none := by
  rw [passGroupToItem, itemsByGroup, List.filterMap_map]
  exact lookup_filterMap_map _ (fun g => (itemsOfGroup groups g)[pass]?) g

section Rounds

variable {σ ρ : Type*} (step : ρ → σ → σ)

/-- The state updates of a number of passes: in each pass, every item of the pass takes its
group's share `row` of what was received. -/
def roundUpdates {β : Type*} (row : β → ℕ → ρ) (byGroup : List (ℕ × List ℕ)) (batch : List β) :
    List (ℕ × (σ → σ)) :=
  batch.zipIdx.flatMap fun (rows, pass) =>
    (passGroupToItem byGroup pass).map fun (g, i) => (i, step (row rows g))

/-- The updates of item `i`: one, with its group's share of its own pass. -/
theorem filter_roundUpdates {β : Type*} (row : β → ℕ → ρ) (hi : groups[i]? = some g)
    {batch : List β} (hp : passOf groups i g < batch.length) :
    (roundUpdates step row (itemsByGroup groups) batch).filter (fun u => u.1 = i) =
      [(i, step (row batch[passOf groups i g] g))] := by
  have hpass : ∀ (rows : β) (pass : ℕ),
      ((passGroupToItem (itemsByGroup groups) pass).map
        (fun e : ℕ × ℕ => (e.2, step (row rows e.1)))).filter (fun u => u.1 = i) =
      if pass = passOf groups i g then [(i, step (row rows g))] else [] := by
    intro rows pass
    rw [List.filter_map, Function.comp_def, filter_passGroupToItem hi]
    split_ifs <;> rfl
  rw [roundUpdates, List.filter_flatMap,
    flatMap_zipIdx_eq_of_unique batch (p := passOf groups i g) hp]
  · rw [hpass, Nat.zero_add, if_pos rfl]
  · intro rows pass hne
    rw [hpass, if_neg (by omega)]

theorem foldl_passes {β : Type*} (row : β → ℕ → ρ) (byGroup : List (ℕ × List ℕ)) (batch : List β)
    (n : ℕ) (st : List σ) :
    (batch.zipIdx n).foldl (fun st (rows, pass) => (passGroupToItem byGroup pass).foldl
        (fun st (g, i) => st.modify i (step (row rows g))) st) st =
      ((batch.zipIdx n).flatMap fun (rows, pass) =>
        (passGroupToItem byGroup pass).map fun (g, i) => (i, step (row rows g))).foldl
          (fun st u => st.modify u.1 u.2) st := by
  induction batch generalizing n st with
  | nil => rfl
  | cons rows batch ih =>
    rw [List.zipIdx_cons, List.foldl_cons, List.flatMap_cons, List.foldl_append, ih,
      List.foldl_map]

/-- **One item over all passes** takes one step, with its group's share of its own pass. -/
theorem getElem?_foldl_passes {β : Type*} (row : β → ℕ → ρ) (hi : groups[i]? = some g)
    {batch : List β} (hp : passOf groups i g < batch.length) (st : List σ) :
    (batch.zipIdx.foldl (fun st (rows, pass) =>
        (passGroupToItem (itemsByGroup groups) pass).foldl
          (fun st (g, i) => st.modify i (step (row rows g))) st) st)[i]? =
      (st[i]?).map (step (row batch[passOf groups i g] g)) := by
  rw [foldl_passes, getElem?_foldl_modify]
  have := filter_roundUpdates step row hi hp
  rw [roundUpdates] at this
  rw [this]
  rfl

end Rounds

end BitcoinPir
