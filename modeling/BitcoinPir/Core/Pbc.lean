import BitcoinPir.Foundations.Slots

/-!
# Planning rounds of a batch

A round asks for at most one item per PBC group. `pbcCuckooPlace` puts one more item into the
table of a round, moving items among their candidate groups if it has to, and `pbcPlanRounds`
plans as many rounds as the items need: what a round cannot take is left for the next one.

The planner places every item once, in one of its candidate groups (`perm_pbcPlanRounds`,
`mem_candidates_of_mem_pbcPlanRounds`). It needs one round exactly when every item in turn finds
a place (`FitsOneRound`); otherwise two items end up in one group, in different rounds
(`exists_shared_group`).
-/

namespace BitcoinPir

open Foundations

section Plan

variable (candGroups : List (List ℕ)) (numHashes : ℕ)

/-- The candidate groups of item `qi`. -/
def candidates (qi : ℕ) : List ℕ := candGroups.getD qi []

/-- The first of some groups without an owner. -/
def firstFreeGroup (groups : List (Option ℕ)) (cands : List ℕ) : Option ℕ :=
  cands.find? fun c => groups[c]? = some none

/-- The candidates of an evicted item that are not the group it left, in the order of the kick. -/
def kickOrder (kick qi left : ℕ) : List ℕ :=
  ((List.range numHashes).filterMap fun offset =>
    (candidates candGroups qi)[(kick + offset) % numHashes]?).filter (· ≠ left)

/-- The eviction chain. `none` when the kicks are used up; a group without an owner, which the
chain never meets, would be a panic. -/
def evictChain : ℕ → ℕ → List (Option ℕ) → ℕ → ℕ → Option (List (Option ℕ))
  | 0, _, _, _, _ => none
  | fuel + 1, kick, groups, currentQi, currentGroup =>
    match groups[currentGroup]? with
    | some (some evictedQi) =>
      let groups := groups.set currentGroup (some currentQi)
      let order := kickOrder candGroups numHashes kick evictedQi currentGroup
      match firstFreeGroup groups order with
      | some c => some (groups.set c (some evictedQi))
      | none =>
        let nextGroup := (order.head?.or (candidates candGroups evictedQi).head?).getD 0
        evictChain fuel (kick + 1) groups evictedQi nextGroup
    | _ => none

/-- Place item `qi` in one of its candidate groups. `none` when it finds no place within the
kicks; every caller then drops the table it had passed. -/
def pbcCuckooPlace (groups : List (Option ℕ)) (qi maxKicks : ℕ) : Option (List (Option ℕ)) :=
  match firstFreeGroup groups (candidates candGroups qi) with
  | some c => some (groups.set c (some qi))
  | none =>
    match candidates candGroups qi with
    | [] => none
    | c :: _ => evictChain candGroups numHashes maxKicks 0 groups qi c

/-- The table of a round and the items placed in it, oldest first. -/
structure RoundTable where
  groupOwner : List (Option ℕ)
  placedLocal : List ℕ
  deriving DecidableEq

def RoundTable.empty (numGroups : ℕ) : RoundTable := ⟨List.replicate numGroups none, []⟩

/-- Place one more item in a round, unless the round is full or the item does not fit. -/
def placeInRound (numGroups maxKicks : ℕ) (round : RoundTable) (li : ℕ) : RoundTable :=
  if numGroups ≤ round.placedLocal.length then round
  else
    match pbcCuckooPlace candGroups numHashes round.groupOwner li maxKicks with
    | some groups => ⟨groups, round.placedLocal ++ [li]⟩
    | none => round

/-- Plan one round for the items with the given candidates. -/
def planRound (numGroups maxKicks : ℕ) : RoundTable :=
  (List.range candGroups.length).foldl (placeInRound candGroups numHashes numGroups maxKicks)
    (.empty numGroups)

/-- The entries of a round: item and group, in the order of the groups. -/
def roundEntries (remaining : List ℕ) (groupOwner : List (Option ℕ)) : List (ℕ × ℕ) :=
  groupOwner.zipIdx.filterMap fun (owner, g) =>
    owner.bind fun li => (remaining[li]?).map fun i => (i, g)

/-- Plan rounds until no item remains. Every round places an item (`PlannedRound.nonempty`), so the
number of remaining items is fuel enough. -/
def planRoundsFrom (numGroups maxKicks : ℕ) : ℕ → List ℕ → List (List (ℕ × ℕ))
  | 0, _ => []
  | fuel + 1, remaining =>
    if remaining = [] then []
    else
      let round := planRound (remaining.map (candidates candGroups)) numHashes numGroups maxKicks
      let entries := roundEntries remaining round.groupOwner
      if entries = [] then []
      else
        let placedOrig := round.placedLocal.filterMap (remaining[·]?)
        entries :: planRoundsFrom numGroups maxKicks fuel
          (remaining.filter fun i => i ∉ placedOrig)

def pbcPlanRounds (numGroups maxKicks : ℕ) : List (List (ℕ × ℕ)) :=
  planRoundsFrom candGroups numHashes numGroups maxKicks candGroups.length
    (List.range candGroups.length)

/-- Every item in turn finds a place in one table. -/
def FitsOneRound (numGroups maxKicks : ℕ) : Prop :=
  ((List.range candGroups.length).foldlM
    (fun groups li => pbcCuckooPlace candGroups numHashes groups li maxKicks)
    (List.replicate numGroups none)).isSome

instance (numGroups maxKicks : ℕ) :
    Decidable (FitsOneRound candGroups numHashes numGroups maxKicks) :=
  inferInstanceAs (Decidable (_ = true))

end Plan

/-! ## Placing one item -/

section Place

variable {candGroups : List (List ℕ)} {numHashes : ℕ} {groups groups' : List (Option ℕ)}
  {qi c : ℕ}

/-- Every item of the table is in one of its candidate groups. -/
abbrev InCandidates (candGroups : List (List ℕ)) (groups : List (Option ℕ)) : Prop :=
  Slots.Placed (fun qi g => g ∈ candidates candGroups qi) groups

/-- What placing item `qi` does: the table gains the item and nothing else, its items stay in
their candidate groups, and no group loses its owner. -/
structure Placing (candGroups : List (List ℕ)) (groups : List (Option ℕ)) (qi : ℕ)
    (groups' : List (Option ℕ)) : Prop where
  length_eq : groups'.length = groups.length
  items_perm : (Slots.items groups').Perm (qi :: Slots.items groups)
  inCandidates : InCandidates candGroups groups'
  occupied : ∀ g, Slots.Occupied groups g → Slots.Occupied groups' g

theorem firstFreeGroup_eq_some {cands : List ℕ} (h : firstFreeGroup groups cands = some c) :
    c ∈ cands ∧ groups[c]? = some none :=
  ⟨List.mem_of_find?_eq_some h, by simpa using List.find?_some h⟩

theorem occupied_of_firstFreeGroup {cands : List ℕ} (h : firstFreeGroup groups cands = none)
    (hc : c ∈ cands) (hlt : c < groups.length) : Slots.Occupied groups c := by
  have hne : groups[c]? ≠ some none := by simpa using List.find?_eq_none.1 h c hc
  obtain ⟨owner, howner⟩ : ∃ owner, groups[c]? = some owner := ⟨_, List.getElem?_eq_getElem hlt⟩
  cases owner with
  | none => exact absurd howner hne
  | some x => exact ⟨x, howner⟩

theorem Placing.of_free (hin : InCandidates candGroups groups) (hfree : groups[c]? = some none)
    (hc : c ∈ candidates candGroups qi) : Placing candGroups groups qi (groups.set c (some qi)) where
  length_eq := List.length_set
  items_perm := Slots.items_set_free hfree qi
  inCandidates := hin.set hc
  occupied _ h := h.set c qi

/-- Taking a group over from `evicted` and then placing `evicted`. -/
theorem Placing.of_evict {evicted : ℕ} (howner : groups[c]? = some (some evicted))
    (h : Placing candGroups (groups.set c (some qi)) evicted groups') :
    Placing candGroups groups qi groups' where
  length_eq := h.length_eq.trans List.length_set
  items_perm := h.items_perm.trans (Slots.items_set_full howner qi)
  inCandidates := h.inCandidates
  occupied g hg := h.occupied g (hg.set c qi)

theorem mem_candidates_of_mem_kickOrder {kick left : ℕ}
    (h : c ∈ kickOrder candGroups numHashes kick qi left) : c ∈ candidates candGroups qi := by
  obtain ⟨offset, -, hget⟩ := List.mem_filterMap.1 (List.mem_of_mem_filter h)
  exact List.mem_of_getElem? hget

/-- The group an evicted item goes on to is one of its candidates. -/
theorem nextGroup_mem {kick left : ℕ} (hleft : left ∈ candidates candGroups qi) :
    ((kickOrder candGroups numHashes kick qi left).head?.or
      (candidates candGroups qi).head?).getD 0 ∈ candidates candGroups qi := by
  cases hhead : (kickOrder candGroups numHashes kick qi left).head? with
  | some g => exact mem_candidates_of_mem_kickOrder (List.mem_of_head? hhead)
  | none =>
    obtain ⟨first, rest, hcands⟩ := List.exists_cons_of_ne_nil (List.ne_nil_of_mem hleft)
    rw [hcands]
    exact List.mem_cons_self

/-- Induction on the kicks. The chain carries that the item in hand may sit in the group it is
about to take. -/
theorem evictChain_placing {fuel kick group : ℕ} (hin : InCandidates candGroups groups)
    (hgroup : group ∈ candidates candGroups qi)
    (h : evictChain candGroups numHashes fuel kick groups qi group = some groups') :
    Placing candGroups groups qi groups' := by
  induction fuel generalizing kick groups qi group with
  | zero => cases h
  | succ fuel ih =>
    rw [evictChain] at h
    split at h
    next evicted howner =>
      have hin' : InCandidates candGroups (groups.set group (some qi)) := hin.set hgroup
      refine .of_evict howner ?_
      dsimp only at h
      split at h
      next c hfree =>
        cases h
        obtain ⟨hmem, hnone⟩ := firstFreeGroup_eq_some hfree
        exact .of_free hin' hnone (mem_candidates_of_mem_kickOrder hmem)
      next => exact ih hin' (nextGroup_mem (hin group evicted howner)) h
    next => cases h

theorem pbcCuckooPlace_placing {maxKicks : ℕ} (hin : InCandidates candGroups groups)
    (h : pbcCuckooPlace candGroups numHashes groups qi maxKicks = some groups') :
    Placing candGroups groups qi groups' := by
  rw [pbcCuckooPlace] at h
  split at h
  next c hfree =>
    cases h
    obtain ⟨hmem, hnone⟩ := firstFreeGroup_eq_some hfree
    exact .of_free hin hnone hmem
  next =>
    split at h
    next => cases h
    next c rest hcands =>
      exact evictChain_placing hin (by rw [hcands]; exact List.mem_cons_self) h

/-- An item that finds no place has only owned candidates. -/
theorem occupied_of_pbcCuckooPlace {maxKicks : ℕ}
    (h : pbcCuckooPlace candGroups numHashes groups qi maxKicks = none)
    (hc : c ∈ candidates candGroups qi) (hlt : c < groups.length) : Slots.Occupied groups c := by
  rw [pbcCuckooPlace] at h
  split at h
  next => cases h
  next hfree => exact occupied_of_firstFreeGroup hfree hc hlt

end Place

/-! ## One round -/

section Round

variable {candGroups : List (List ℕ)} {numHashes numGroups maxKicks seen : ℕ} {round : RoundTable}

/-- A round after its first `seen` items: the placed items are the owners, and the candidates of
an item left out are owned. -/
structure RoundOk (candGroups : List (List ℕ)) (numGroups seen : ℕ) (round : RoundTable) :
    Prop where
  length_eq : round.groupOwner.length = numGroups
  items_perm : (Slots.items round.groupOwner).Perm round.placedLocal
  inCandidates : InCandidates candGroups round.groupOwner
  sublist : round.placedLocal.Sublist (List.range seen)
  blocked : ∀ li < seen, li ∉ round.placedLocal → ∀ g ∈ candidates candGroups li, g < numGroups →
    Slots.Occupied round.groupOwner g

theorem roundOk_empty (candGroups : List (List ℕ)) (numGroups : ℕ) :
    RoundOk candGroups numGroups 0 (.empty numGroups) where
  length_eq := List.length_replicate
  items_perm := by rw [RoundTable.empty, Slots.items_replicate_none]
  inCandidates := Slots.placed_replicate_none numGroups
  sublist := List.nil_sublist _
  blocked li hli := absurd hli (Nat.not_lt_zero li)

variable (h : RoundOk candGroups numGroups seen round)

include h

theorem RoundOk.nodup : round.placedLocal.Nodup :=
  List.nodup_range.sublist h.sublist

theorem RoundOk.lt_of_mem {li : ℕ} (hli : li ∈ round.placedLocal) : li < seen :=
  List.mem_range.1 (h.sublist.subset hli)

theorem RoundOk.mem_of_owner {g li : ℕ} (hg : round.groupOwner[g]? = some (some li)) :
    li ∈ round.placedLocal :=
  h.items_perm.subset (Slots.mem_items.2 ⟨g, hg⟩)

/-- Leaving the next item out keeps a round in order if its candidates are owned. -/
theorem RoundOk.skip (hseen : ∀ g ∈ candidates candGroups seen, g < numGroups →
    Slots.Occupied round.groupOwner g) :
    RoundOk candGroups numGroups (seen + 1) round where
  length_eq := h.length_eq
  items_perm := h.items_perm
  inCandidates := h.inCandidates
  sublist := h.sublist.trans (List.range_sublist.2 (Nat.le_succ seen))
  blocked li hli hout := by
    rcases Nat.lt_succ_iff_lt_or_eq.1 hli with hlt | rfl
    · exact h.blocked li hlt hout
    · exact hseen

theorem RoundOk.place {groups : List (Option ℕ)}
    (hplace : Placing candGroups round.groupOwner seen groups) :
    RoundOk candGroups numGroups (seen + 1) ⟨groups, round.placedLocal ++ [seen]⟩ where
  length_eq := hplace.length_eq.trans h.length_eq
  items_perm := (hplace.items_perm.trans (h.items_perm.cons seen)).trans
    (List.perm_append_singleton seen round.placedLocal).symm
  inCandidates := hplace.inCandidates
  sublist := by
    rw [List.range_succ]
    exact h.sublist.append (List.Sublist.refl _)
  blocked li hli hout g hg hlt := by
    rw [List.mem_append, List.mem_singleton, not_or] at hout
    have hlt' : li < seen := lt_of_le_of_ne (Nat.lt_succ_iff.1 hli) hout.2
    exact hplace.occupied g (h.blocked li hlt' hout.1 g hg hlt)

theorem placeInRound_ok : RoundOk candGroups numGroups (seen + 1)
    (placeInRound candGroups numHashes numGroups maxKicks round seen) := by
  rw [placeInRound]
  split_ifs with hfull
  · -- a full round has no group without an owner
    refine h.skip fun g _ hg => Slots.occupied_of_length_le_items ?_ (h.length_eq.symm ▸ hg)
    rw [h.items_perm.length_eq, h.length_eq]
    exact hfull
  · split
    next groups hplace => exact h.place (pbcCuckooPlace_placing h.inCandidates hplace)
    next hnone =>
      exact h.skip fun g hmem hg =>
        occupied_of_pbcCuckooPlace hnone hmem (h.length_eq.symm ▸ hg)

/-- A table in which every group is owned takes no further item. -/
theorem RoundOk.pbcCuckooPlace_eq_none (hfull : numGroups ≤ round.placedLocal.length) (qi : ℕ) :
    pbcCuckooPlace candGroups numHashes round.groupOwner qi maxKicks = none := by
  rw [Option.eq_none_iff_forall_ne_some]
  intro groups hplace
  have hp := pbcCuckooPlace_placing h.inCandidates hplace
  have hle := Slots.length_items_le groups
  rw [hp.items_perm.length_eq, hp.length_eq, h.length_eq, List.length_cons,
    h.items_perm.length_eq] at hle
  omega

theorem exists_left_out (hne : round.placedLocal ≠ List.range seen) :
    ∃ li < seen, li ∉ round.placedLocal := by
  by_contra! hall
  have hsub : List.range seen ⊆ round.placedLocal := fun li hli => hall li (List.mem_range.1 hli)
  exact hne (h.sublist.eq_of_length_le (List.nodup_range.subperm hsub).length_le)

omit h

variable (candGroups numHashes numGroups maxKicks seen)

/-- A round after its first `seen` items. -/
def roundAfter : RoundTable :=
  (List.range seen).foldl (placeInRound candGroups numHashes numGroups maxKicks) (.empty numGroups)

theorem roundAfter_succ : roundAfter candGroups numHashes numGroups maxKicks (seen + 1) =
    placeInRound candGroups numHashes numGroups maxKicks
      (roundAfter candGroups numHashes numGroups maxKicks seen) seen := by
  simp only [roundAfter, List.range_succ, List.foldl_append, List.foldl_cons, List.foldl_nil]

theorem roundAfter_ok : RoundOk candGroups numGroups seen
    (roundAfter candGroups numHashes numGroups maxKicks seen) := by
  induction seen with
  | zero => exact roundOk_empty candGroups numGroups
  | succ seen ih =>
    rw [roundAfter_succ]
    exact placeInRound_ok ih

theorem planRound_ok : RoundOk candGroups numGroups candGroups.length
    (planRound candGroups numHashes numGroups maxKicks) :=
  roundAfter_ok candGroups numHashes numGroups maxKicks candGroups.length

variable {candGroups numHashes numGroups maxKicks seen}

/-- Placing items one after another succeeds exactly as long as the round leaves none out. -/
theorem foldlM_pbcCuckooPlace :
    (List.range seen).foldlM
        (fun groups li => pbcCuckooPlace candGroups numHashes groups li maxKicks)
        (List.replicate numGroups none) =
      if (roundAfter candGroups numHashes numGroups maxKicks seen).placedLocal = List.range seen
      then some (roundAfter candGroups numHashes numGroups maxKicks seen).groupOwner
      else none := by
  induction seen with
  | zero => rfl
  | succ seen ih =>
    have hok := roundAfter_ok candGroups numHashes numGroups maxKicks seen
    rw [List.range_succ, List.foldlM_append, ih, roundAfter_succ, placeInRound]
    generalize roundAfter candGroups numHashes numGroups maxKicks seen = round at hok
    have hself : round.placedLocal ≠ List.range seen ++ [seen] := by
      intro heq
      exact absurd (hok.lt_of_mem (heq ▸ List.mem_append_right _ List.mem_cons_self)) (lt_irrefl seen)
    by_cases hall : round.placedLocal = List.range seen
    · simp only [if_pos hall, List.foldlM_cons, List.foldlM_nil, bind_pure, Option.bind_eq_bind,
        Option.bind_some]
      by_cases hfull : numGroups ≤ round.placedLocal.length
      · rw [if_pos hfull, if_neg hself]
        exact hok.pbcCuckooPlace_eq_none hfull seen
      · rw [if_neg hfull]
        cases pbcCuckooPlace candGroups numHashes round.groupOwner seen maxKicks with
        | none => exact (if_neg hself).symm
        | some groups => exact (if_pos (congrArg (· ++ [seen]) hall)).symm
    · rw [if_neg hall, if_neg]
      · rfl
      · split_ifs with hfull
        · exact hself
        · split
          next => exact fun heq => hall (List.append_cancel_right heq)
          next => exact hself

theorem fitsOneRound_iff : FitsOneRound candGroups numHashes numGroups maxKicks ↔
    (planRound candGroups numHashes numGroups maxKicks).placedLocal =
      List.range candGroups.length := by
  rw [FitsOneRound, foldlM_pbcCuckooPlace]
  change (if (planRound candGroups numHashes numGroups maxKicks).placedLocal = _ then _ else _ :
    Option _).isSome ↔ _
  split_ifs with h <;> simp [h]

end Round

/-! ## All rounds -/

section Rounds

variable {candGroups : List (List ℕ)} {numHashes numGroups maxKicks : ℕ}

/-- Every item has a candidate, and all candidates are groups. -/
def HaveGroups (candGroups : List (List ℕ)) (numGroups : ℕ) : Prop :=
  ∀ cands ∈ candGroups, cands ≠ [] ∧ ∀ g ∈ cands, g < numGroups

variable {remaining : List ℕ} {groupOwner : List (Option ℕ)}

theorem mem_roundEntries {i g : ℕ} :
    (i, g) ∈ roundEntries remaining groupOwner ↔
      ∃ li, groupOwner[g]? = some (some li) ∧ remaining[li]? = some i := by
  simp only [roundEntries, List.mem_filterMap, Prod.exists, List.mem_zipIdx_iff_getElem?]
  constructor
  · rintro ⟨owner, g', howner, hentry⟩
    obtain ⟨li, rfl, hli⟩ := Option.bind_eq_some_iff.1 hentry
    obtain ⟨i', hi', heq⟩ := Option.map_eq_some_iff.1 hli
    cases heq
    exact ⟨li, howner, hi'⟩
  · rintro ⟨li, howner, hli⟩
    exact ⟨some li, g, howner, by rw [Option.bind_some, hli, Option.map_some]⟩

/-- A round asks each group for one item. -/
theorem nodup_groups_roundEntries :
    ((roundEntries remaining groupOwner).map Prod.snd).Nodup := by
  rw [List.Nodup, List.pairwise_map, roundEntries, List.pairwise_filterMap]
  have hidx : groupOwner.zipIdx.Pairwise fun a b => a.2 ≠ b.2 := by
    rw [← List.pairwise_map (f := Prod.snd) (R := (· ≠ ·)), List.zipIdx_map_snd]
    exact List.nodup_range'
  refine hidx.imp ?_
  intro a b hab e he e' he' heq
  obtain ⟨li, -, hli⟩ := Option.bind_eq_some_iff.1 he
  obtain ⟨i, -, rfl⟩ := Option.map_eq_some_iff.1 hli
  obtain ⟨li', -, hli'⟩ := Option.bind_eq_some_iff.1 he'
  obtain ⟨i', -, rfl⟩ := Option.map_eq_some_iff.1 hli'
  exact hab heq

theorem items_roundEntries :
    (roundEntries remaining groupOwner).map Prod.fst =
      (Slots.items groupOwner).filterMap (remaining[·]?) := by
  have hentry : ∀ e : Option ℕ × ℕ,
      (e.1.bind fun li => (remaining[li]?).map fun i => (i, e.2)).map Prod.fst =
        e.1.bind (remaining[·]?) := by
    rintro ⟨_ | li, g⟩
    · rfl
    · cases h : remaining[li]? <;> simp [h]
  calc (roundEntries remaining groupOwner).map Prod.fst
      = groupOwner.zipIdx.filterMap fun e => e.1.bind (remaining[·]?) := by
        rw [roundEntries, List.map_filterMap]
        exact List.filterMap_congr fun e _ => hentry e
    _ = (groupOwner.zipIdx.map Prod.fst).filterMap fun owner => owner.bind (remaining[·]?) := by
        rw [List.filterMap_map]
        rfl
    _ = (Slots.items groupOwner).filterMap (remaining[·]?) := by
        rw [List.zipIdx_map_fst, Slots.items, List.reduceOption, List.filterMap_filterMap]
        rfl

/-- What one round of the planner does to the remaining items. -/
structure PlannedRound (candGroups : List (List ℕ)) (remaining : List ℕ)
    (entries : List (ℕ × ℕ)) (placedOrig : List ℕ) : Prop where
  items_perm : (entries.map Prod.fst).Perm placedOrig
  nodup : placedOrig.Nodup
  subset : placedOrig ⊆ remaining
  mem_candidates : ∀ e ∈ entries, e.2 ∈ candidates candGroups e.1
  nonempty : entries ≠ []
  blocked : ∀ i ∈ remaining, i ∉ placedOrig → ∀ g ∈ candidates candGroups i,
    ∃ j ∈ placedOrig, (j, g) ∈ entries

theorem candidates_map {li i : ℕ} (h : remaining[li]? = some i) :
    candidates (remaining.map (candidates candGroups)) li = candidates candGroups i := by
  rw [candidates, List.getD_eq_getElem?_getD, List.getElem?_map, h]
  rfl

theorem HaveGroups.of_lt (h : HaveGroups candGroups numGroups) {i : ℕ} (hi : i < candGroups.length) :
    candidates candGroups i ≠ [] ∧ ∀ g ∈ candidates candGroups i, g < numGroups := by
  rw [candidates, List.getD_eq_getElem _ _ hi]
  exact h _ (List.getElem_mem hi)

section PlannedRound

variable {entries : List (ℕ × ℕ)} {placedOrig : List ℕ}
  (h : PlannedRound candGroups remaining entries placedOrig) (hnodup : remaining.Nodup)

include h hnodup

/-- The items placed and the items left over are the items of before. -/
theorem PlannedRound.perm :
    (placedOrig ++ remaining.filter fun i => i ∉ placedOrig).Perm remaining := by
  have hplaced : placedOrig.Perm (remaining.filter fun i => i ∈ placedOrig) := by
    refine (List.perm_ext_iff_of_nodup h.nodup (hnodup.filter _)).2 fun i => ?_
    rw [List.mem_filter, decide_eq_true_eq]
    exact ⟨fun hi => ⟨h.subset hi, hi⟩, And.right⟩
  refine (hplaced.append_right _).trans ?_
  simpa using List.filter_append_perm (fun i => decide (i ∈ placedOrig)) remaining

/-- A round leaves fewer items over. -/
theorem PlannedRound.length_filter_le {n : ℕ} (hn : remaining.length ≤ n + 1) :
    (remaining.filter fun i => i ∉ placedOrig).length ≤ n := by
  have hlen := (h.perm hnodup).length_eq
  have hpos := List.length_pos_of_ne_nil h.nonempty
  have hentries := h.items_perm.length_eq
  rw [List.length_map] at hentries
  rw [List.length_append] at hlen
  omega

end PlannedRound

theorem planRoundsFrom_nil (fuel : ℕ) :
    planRoundsFrom candGroups numHashes numGroups maxKicks fuel [] = [] := by
  cases fuel <;> rfl

/-- Rounds planned one after another for the remaining items. -/
inductive PlannedRounds (candGroups : List (List ℕ)) : List ℕ → List (List (ℕ × ℕ)) → Prop
  | done : PlannedRounds candGroups [] []
  | round {remaining entries placedOrig rounds} (hnodup : remaining.Nodup)
      (hround : PlannedRound candGroups remaining entries placedOrig)
      (hrounds : PlannedRounds candGroups (remaining.filter fun i => i ∉ placedOrig) rounds) :
      PlannedRounds candGroups remaining (entries :: rounds)

section PlannedRounds

variable {rounds : List (List (ℕ × ℕ))} (h : PlannedRounds candGroups remaining rounds)

include h

theorem PlannedRounds.perm : (rounds.flatten.map Prod.fst).Perm remaining := by
  induction h with
  | done => exact List.Perm.nil
  | round hnodup hround _ ih =>
    rw [List.flatten_cons, List.map_append]
    exact (hround.items_perm.append ih).trans (hround.perm hnodup)

theorem PlannedRounds.mem_candidates {e : ℕ × ℕ} (he : e ∈ rounds.flatten) :
    e.2 ∈ candidates candGroups e.1 := by
  induction h with
  | done => cases he
  | round _ hround _ ih =>
    rw [List.flatten_cons, List.mem_append] at he
    rcases he with he | he
    · exact hround.mem_candidates e he
    · exact ih he

end PlannedRounds

theorem map_candidates_range (candGroups : List (List ℕ)) :
    (List.range candGroups.length).map (candidates candGroups) = candGroups := by
  refine List.ext_getElem (by simp) fun i _ hi => ?_
  rw [List.getElem_map, List.getElem_range, candidates, List.getD_eq_getElem _ _ hi]

theorem filterMap_getElem?_range {l : List ℕ} {n : ℕ} (h : ∀ i ∈ l, i < n) :
    l.filterMap ((List.range n)[·]?) = l := by
  calc l.filterMap ((List.range n)[·]?) = l.filterMap some :=
        List.filterMap_congr fun i hi => List.getElem?_range (h i hi)
    _ = l := List.filterMap_some

variable (hgroups : HaveGroups candGroups numGroups)

include hgroups

theorem plannedRound (hnodup : remaining.Nodup) (hlt : ∀ i ∈ remaining, i < candGroups.length)
    (hne : remaining ≠ []) {round : RoundTable}
    (hround : RoundOk (remaining.map (candidates candGroups)) numGroups remaining.length round) :
    PlannedRound candGroups remaining (roundEntries remaining round.groupOwner)
      (round.placedLocal.filterMap (remaining[·]?)) := by
  have hblocked : ∀ i ∈ remaining, i ∉ round.placedLocal.filterMap (remaining[·]?) →
      ∀ g ∈ candidates candGroups i, ∃ j ∈ round.placedLocal.filterMap (remaining[·]?),
        (j, g) ∈ roundEntries remaining round.groupOwner := by
    intro i hi hout g hg
    obtain ⟨li, hli⟩ := List.mem_iff_getElem?.1 hi
    have hleft : li ∉ round.placedLocal :=
      fun hmem => hout (List.mem_filterMap.2 ⟨li, hmem, hli⟩)
    have hlen : li < remaining.length := (List.getElem?_eq_some_iff.1 hli).1
    obtain ⟨lj, hlj⟩ := hround.blocked li hlen hleft g (by rw [candidates_map hli]; exact hg)
      ((hgroups.of_lt (hlt i hi)).2 g hg)
    have hmem := hround.mem_of_owner hlj
    obtain ⟨j, hj⟩ : ∃ j, remaining[lj]? = some j :=
      ⟨_, List.getElem?_eq_getElem (hround.lt_of_mem hmem)⟩
    exact ⟨j, List.mem_filterMap.2 ⟨lj, hmem, hj⟩, mem_roundEntries.2 ⟨lj, hlj, hj⟩⟩
  have hperm : ((roundEntries remaining round.groupOwner).map Prod.fst).Perm
      (round.placedLocal.filterMap (remaining[·]?)) := by
    rw [items_roundEntries]
    exact hround.items_perm.filterMap _
  refine ⟨hperm, ?_, ?_, ?_, ?_, hblocked⟩
  · refine hround.nodup.filterMap fun li lj i hi hj => ?_
    exact (List.getElem?_inj (List.getElem?_eq_some_iff.1 hi).1 hnodup).1 (hi.trans hj.symm)
  · intro i hi
    obtain ⟨li, -, hli⟩ := List.mem_filterMap.1 hi
    exact List.mem_of_getElem? hli
  · rintro ⟨i, g⟩ he
    obtain ⟨li, howner, hli⟩ := mem_roundEntries.1 he
    exact candidates_map hli ▸ hround.inCandidates g li howner
  · -- an empty round would leave out the first item, whose candidates would have no owner
    intro hempty
    obtain ⟨i, rest, hcons⟩ := List.exists_cons_of_ne_nil hne
    have hi : i ∈ remaining := by rw [hcons]; exact List.mem_cons_self
    rw [hempty, List.map_nil, List.nil_perm] at hperm
    obtain ⟨hcands, -⟩ := hgroups.of_lt (hlt i hi)
    obtain ⟨g, hg⟩ := List.exists_mem_of_ne_nil _ hcands
    obtain ⟨j, hj, -⟩ := hblocked i hi (by rw [hperm]; exact List.not_mem_nil) g hg
    rw [hperm] at hj
    exact absurd hj List.not_mem_nil

/-- Induction on the fuel; a round places an item, so the fuel covers what is left. -/
theorem plannedRounds {fuel : ℕ} (hnodup : remaining.Nodup)
    (hlt : ∀ i ∈ remaining, i < candGroups.length)
    (hfuel : remaining.length ≤ fuel) :
    PlannedRounds candGroups remaining
      (planRoundsFrom candGroups numHashes numGroups maxKicks fuel remaining) := by
  induction fuel generalizing remaining with
  | zero =>
    rw [List.eq_nil_of_length_eq_zero (Nat.le_zero.1 hfuel)]
    exact .done
  | succ fuel ih =>
    by_cases hne : remaining = []
    · subst hne
      exact .done
    · have hround :=
        planRound_ok (remaining.map (candidates candGroups)) numHashes numGroups maxKicks
      rw [List.length_map] at hround
      have hplanned := plannedRound hgroups hnodup hlt hne hround
      rw [planRoundsFrom, if_neg hne, if_neg hplanned.nonempty]
      exact .round hnodup hplanned (ih (hnodup.filter _)
        (fun i hi => hlt i (List.mem_of_mem_filter hi)) (hplanned.length_filter_le hnodup hfuel))

theorem plannedRounds_pbcPlanRounds : PlannedRounds candGroups (List.range candGroups.length)
      (pbcPlanRounds candGroups numHashes numGroups maxKicks) :=
  plannedRounds hgroups List.nodup_range (fun _ => List.mem_range.1) List.length_range.le

/-- The planner places every item once. -/
theorem perm_pbcPlanRounds :
    ((pbcPlanRounds candGroups numHashes numGroups maxKicks).flatten.map Prod.fst).Perm
      (List.range candGroups.length) := (plannedRounds_pbcPlanRounds hgroups).perm

/-- The planner places every item in one of its candidate groups. -/
theorem mem_candidates_of_mem_pbcPlanRounds {e : ℕ × ℕ}
    (he : e ∈ (pbcPlanRounds candGroups numHashes numGroups maxKicks).flatten) :
    e.2 ∈ candidates candGroups e.1 := (plannedRounds_pbcPlanRounds hgroups).mem_candidates he

variable (hne : candGroups ≠ [])

include hne

/-- The first round is the one planned for all items. -/
theorem pbcPlanRounds_eq (numHashes maxKicks : ℕ) {round : RoundTable}
    (hround : planRound candGroups numHashes numGroups maxKicks = round) :
    PlannedRound candGroups (List.range candGroups.length)
        (roundEntries (List.range candGroups.length) round.groupOwner) round.placedLocal ∧
      pbcPlanRounds candGroups numHashes numGroups maxKicks =
        roundEntries (List.range candGroups.length) round.groupOwner ::
          planRoundsFrom candGroups numHashes numGroups maxKicks (candGroups.length - 1)
            ((List.range candGroups.length).filter fun i => i ∉ round.placedLocal) := by
  have hok := hround ▸ planRound_ok candGroups numHashes numGroups maxKicks
  have hplaced : round.placedLocal.filterMap ((List.range candGroups.length)[·]?) =
      round.placedLocal := filterMap_getElem?_range fun _ => hok.lt_of_mem
  have hrange : List.range candGroups.length ≠ [] := by simpa using hne
  have hround' : RoundOk ((List.range candGroups.length).map (candidates candGroups)) numGroups
      (List.range candGroups.length).length round := by
    rwa [map_candidates_range, List.length_range]
  have hplanned := plannedRound hgroups List.nodup_range (fun _ => List.mem_range.1) hrange hround'
  rw [hplaced] at hplanned
  refine ⟨hplanned, ?_⟩
  obtain ⟨n, hn⟩ := Nat.exists_eq_succ_of_ne_zero (List.length_pos_of_ne_nil hne).ne'
  have hfuel : ∀ remaining, planRoundsFrom candGroups numHashes numGroups maxKicks
      candGroups.length remaining = planRoundsFrom candGroups numHashes numGroups maxKicks
      (candGroups.length - 1 + 1) remaining := by
    intro remaining
    rw [hn]
    rfl
  rw [pbcPlanRounds, hfuel, planRoundsFrom, if_neg hrange, map_candidates_range, hround,
    if_neg hplanned.nonempty, hplaced]

/-- A batch that fits takes one round, with an item per group at most. -/
theorem FitsOneRound.pbcPlanRounds_eq_singleton
    (h : FitsOneRound candGroups numHashes numGroups maxKicks) :
    ∃ entries, pbcPlanRounds candGroups numHashes numGroups maxKicks = [entries] ∧
      entries ≠ [] ∧ (entries.map Prod.snd).Nodup := by
  obtain ⟨hplanned, heq⟩ := pbcPlanRounds_eq hgroups hne numHashes maxKicks rfl
  have hleft : ((List.range candGroups.length).filter fun i =>
      i ∉ (planRound candGroups numHashes numGroups maxKicks).placedLocal) = [] := by
    rw [fitsOneRound_iff.1 h]
    simp
  rw [hleft, planRoundsFrom_nil] at heq
  exact ⟨_, heq, hplanned.nonempty, nodup_groups_roundEntries⟩

/-- In a batch that does not fit, two items share a group. -/
theorem exists_shared_group (h : ¬FitsOneRound candGroups numHashes numGroups maxKicks) :
    ∃ i j g, i ≠ j ∧ (i, g) ∈ (pbcPlanRounds candGroups numHashes numGroups maxKicks).flatten ∧
      (j, g) ∈ (pbcPlanRounds candGroups numHashes numGroups maxKicks).flatten := by
  obtain ⟨hplanned, heq⟩ :=
    pbcPlanRounds_eq hgroups hne numHashes maxKicks rfl
  obtain ⟨i, hi, hout⟩ := exists_left_out (planRound_ok candGroups numHashes numGroups maxKicks)
    (fitsOneRound_iff.not.1 h)
  -- item `i` is placed in a later round, in a group which an item of the first round has
  have hrange : i ∈ List.range candGroups.length := List.mem_range.2 hi
  obtain ⟨⟨i', g⟩, he, rfl⟩ := List.mem_map.1
    ((perm_pbcPlanRounds hgroups).symm.subset hrange)
  have hg := mem_candidates_of_mem_pbcPlanRounds hgroups he
  obtain ⟨j, hj, hentry⟩ := hplanned.blocked i' hrange hout g hg
  refine ⟨i', j, g, ?_, he, ?_⟩
  · rintro rfl
    exact hout hj
  · rw [heq]
    exact List.mem_append_left _ hentry

end Rounds

end BitcoinPir
