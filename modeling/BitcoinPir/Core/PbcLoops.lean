import BitcoinPir.Foundations.Lists
import BitcoinPir.Core.Pbc

/-!
# The loops of the planner

`pbcPlanRounds` leaves out what the loops of the source could run into: an index out of range or a
group without an owner panics, a failed walk leaves a table in disorder that the caller has to
restore, a round without entries makes the planner give up, and its outer loop might not end. Here
the loops are written out; `none` is a panic, or the outer loop out of fuel.

**`planLoop_complete`**: none of this happens when every item has at least `numHashes` candidate
groups, one at the least, all in range. The loops then compute `pbcPlanRounds`.
-/

namespace BitcoinPir

open Foundations

namespace PbcLoops

section Loops

variable (candGroups : List (List ℕ)) (numHashes : ℕ)

/-- The first loop of `pbc_cuckoo_place`. -/
def firstFree (groups : List (Option ℕ)) : List ℕ → Option (Option ℕ)
  | [] => some none
  | c :: cs => do
    let owner ← groups[c]?
    if owner.isNone then some (some c) else firstFree groups cs

/-- The candidate of an evicted item at an offset of the kick. -/
def kickCand (evCands : List ℕ) (kick offset : ℕ) : Option ℕ :=
  evCands[(kick + offset) % numHashes]?

/-- The search for a free group among the candidates of an evicted item. -/
def kickFree (groups : List (Option ℕ)) (evCands : List ℕ) (kick currentGroup : ℕ) :
    List ℕ → Option (Option ℕ)
  | [] => some none
  | offset :: offsets => do
    let c ← kickCand numHashes evCands kick offset
    if c = currentGroup then kickFree groups evCands kick currentGroup offsets
    else
      let owner ← groups[c]?
      if owner.isNone then some (some c)
      else kickFree groups evCands kick currentGroup offsets

/-- The search for a group to go on to. -/
def kickNext (evCands : List ℕ) (kick currentGroup : ℕ) : List ℕ → Option (Option ℕ)
  | [] => some none
  | offset :: offsets => do
    let c ← kickCand numHashes evCands kick offset
    if c ≠ currentGroup then some (some c) else kickNext evCands kick currentGroup offsets

/-- The walk: whether an item found a place, and the table as the walk leaves it. -/
def walk : ℕ → ℕ → List (Option ℕ) → ℕ → ℕ → Option (Bool × List (Option ℕ))
  | 0, _, groups, _, _ => some (false, groups)
  | kicks + 1, kick, groups, currentQi, currentGroup => do
    let owner ← groups[currentGroup]?
    let evictedQi ← owner
    let groups := groups.set currentGroup (some currentQi)
    let evCands ← candGroups[evictedQi]?
    let free ← kickFree numHashes groups evCands kick currentGroup (List.range numHashes)
    match free with
    | some c => some (true, groups.set c (some evictedQi))
    | none => do
      let first ← evCands[0]?
      let next ← kickNext numHashes evCands kick currentGroup (List.range numHashes)
      walk kicks (kick + 1) groups evictedQi (next.getD first)

/-- `pbc_cuckoo_place`: whether the item found a place, and the table. -/
def place (groups : List (Option ℕ)) (qi maxKicks : ℕ) : Option (Bool × List (Option ℕ)) := do
  let cands ← candGroups[qi]?
  let free ← firstFree groups cands
  match free with
  | some c => some (true, groups.set c (some qi))
  | none => do
    let c ← cands[0]?
    walk candGroups numHashes maxKicks 0 groups qi c

/-- The items of a round. The table of before is restored when an item finds no place. -/
def fillRound (numGroups maxKicks : ℕ) : List ℕ → RoundTable → Option RoundTable
  | [], round => some round
  | li :: lis, round =>
    if numGroups ≤ round.placedLocal.length then some round
    else do
      let (placed, groups) ← place candGroups numHashes round.groupOwner li maxKicks
      if placed then fillRound numGroups maxKicks lis ⟨groups, round.placedLocal ++ [li]⟩
      else fillRound numGroups maxKicks lis round

/-- The entries of a round, with the owners as indices into the remaining items. -/
def readEntries (remaining : List ℕ) : List (Option ℕ × ℕ) → Option (List (ℕ × ℕ))
  | [] => some []
  | (none, _) :: owners => readEntries remaining owners
  | (some li, g) :: owners => do
    let i ← remaining[li]?
    let entries ← readEntries remaining owners
    some ((i, g) :: entries)

/-- The rounds, and the number of items that were given up. -/
structure Plan where
  rounds : List (List (ℕ × ℕ))
  gaveUp : Option ℕ
  deriving DecidableEq

/-- The outer loop of `pbc_plan_rounds`. -/
def planLoop (numGroups maxKicks : ℕ) : ℕ → List ℕ → Option Plan
  | 0, _ => none
  | fuel + 1, remaining =>
    if remaining = [] then some ⟨[], none⟩
    else do
      let roundCands ← remaining.mapM (candGroups[·]?)
      let round ← fillRound roundCands numHashes numGroups maxKicks
        (List.range roundCands.length) (.empty numGroups)
      let entries ← readEntries remaining round.groupOwner.zipIdx
      if entries = [] then some ⟨[], some remaining.length⟩
      else do
        let placedOrig ← round.placedLocal.mapM (remaining[·]?)
        let rest ← planLoop numGroups maxKicks fuel (remaining.filter fun i => i ∉ placedOrig)
        some { rest with rounds := entries :: rest.rounds }

end Loops

/-- Every item has a candidate and at least `numHashes` of them, all of which are groups. -/
def EnoughGroups (candGroups : List (List ℕ)) (numGroups numHashes : ℕ) : Prop :=
  ∀ cands ∈ candGroups, cands ≠ [] ∧ numHashes ≤ cands.length ∧ ∀ g ∈ cands, g < numGroups

variable {candGroups : List (List ℕ)} {numGroups numHashes : ℕ} {groups : List (Option ℕ)} {qi : ℕ}

theorem EnoughGroups.haveGroups (h : EnoughGroups candGroups numGroups numHashes) :
    HaveGroups candGroups numGroups := fun cands hc => ⟨(h cands hc).1, (h cands hc).2.2⟩

theorem getElem?_candidates (h : qi < candGroups.length) :
    candGroups[qi]? = some (candidates candGroups qi) := by
  rw [candidates, List.getD_eq_getElem _ _ h, List.getElem?_eq_getElem h]

theorem candidates_mem (h : qi < candGroups.length) : candidates candGroups qi ∈ candGroups :=
  List.mem_of_getElem? (getElem?_candidates h)

/-! ## The searches of a placement -/

theorem getElem?_eq_none_or_occupied {c : ℕ} (h : c < groups.length) :
    groups[c]? = some none ∨ Slots.Occupied groups c := by
  rw [List.getElem?_eq_getElem h]
  cases howner : groups[c] with
  | none => exact .inl rfl
  | some x => exact .inr ⟨x, by rw [List.getElem?_eq_getElem h, howner]⟩

theorem firstFree_eq {cands : List ℕ} (h : ∀ c ∈ cands, c < groups.length) :
    firstFree groups cands = some (firstFreeGroup groups cands) := by
  induction cands with
  | nil => rfl
  | cons c cs ih =>
    rw [firstFree, firstFreeGroup, List.find?_cons]
    rcases getElem?_eq_none_or_occupied (h c List.mem_cons_self) with hfree | ⟨x, hx⟩
    · simp [hfree]
    · simp only [hx, Option.bind_eq_bind, Option.bind_some, Option.isNone_some, Bool.false_eq_true,
        if_false, Option.some.injEq, reduceCtorEq, decide_false]
      exact ih fun c' hc' => h c' (List.mem_cons_of_mem _ hc')

/-- The candidates that a kick looks at, for a list of offsets. -/
def kickCands (numHashes : ℕ) (evCands : List ℕ) (kick currentGroup : ℕ) (offsets : List ℕ) :
    List ℕ :=
  (offsets.filterMap (kickCand numHashes evCands kick)).filter (· ≠ currentGroup)

theorem kickOrder_eq (kick currentGroup : ℕ) :
    kickOrder candGroups numHashes kick qi currentGroup =
      kickCands numHashes (candidates candGroups qi) kick currentGroup (List.range numHashes) := rfl

/-- With enough candidates no offset is out of range. -/
theorem exists_kickCand {evCands : List ℕ} (hlen : numHashes ≤ evCands.length) (kick : ℕ)
    {offset : ℕ} (h : offset ∈ List.range numHashes) :
    ∃ c ∈ evCands, kickCand numHashes evCands kick offset = some c := by
  have hpos : 0 < numHashes := Nat.zero_lt_of_lt (List.mem_range.1 h)
  have hlt : (kick + offset) % numHashes < evCands.length :=
    (Nat.mod_lt _ hpos).trans_le hlen
  exact ⟨_, List.getElem_mem hlt, List.getElem?_eq_getElem hlt⟩

section Kick

variable {evCands : List ℕ} (kick currentGroup : ℕ) {offsets : List ℕ}

theorem kickCands_cons {offset c : ℕ} (hc : kickCand numHashes evCands kick offset = some c) :
    kickCands numHashes evCands kick currentGroup (offset :: offsets) =
      if c = currentGroup then kickCands numHashes evCands kick currentGroup offsets
      else c :: kickCands numHashes evCands kick currentGroup offsets := by
  rw [kickCands, List.filterMap_cons_some hc, List.filter_cons]
  split_ifs with h₁ h₂ h₂
  · simp [h₂] at h₁
  · rfl
  · rfl
  · simp [h₂] at h₁

theorem kickFree_eq
    (h : ∀ offset ∈ offsets, ∃ c < groups.length, kickCand numHashes evCands kick offset = some c) :
    kickFree numHashes groups evCands kick currentGroup offsets =
      some (firstFreeGroup groups (kickCands numHashes evCands kick currentGroup offsets)) := by
  induction offsets with
  | nil => rfl
  | cons offset offsets ih =>
    obtain ⟨c, hlt, hc⟩ := h offset List.mem_cons_self
    have ih := ih fun o ho => h o (List.mem_cons_of_mem _ ho)
    rw [kickFree, kickCands_cons kick currentGroup hc, hc]
    simp only [Option.bind_eq_bind, Option.bind_some]
    split_ifs with heq
    · exact ih
    · rw [firstFreeGroup, List.find?_cons]
      rcases getElem?_eq_none_or_occupied hlt with hfree | ⟨x, hx⟩
      · simp [hfree]
      · simp only [hx, Option.bind_some, Option.isNone_some, Bool.false_eq_true, if_false,
          Option.some.injEq, reduceCtorEq, decide_false]
        exact ih

theorem kickNext_eq
    (h : ∀ offset ∈ offsets, ∃ c, kickCand numHashes evCands kick offset = some c) :
    kickNext numHashes evCands kick currentGroup offsets =
      some (kickCands numHashes evCands kick currentGroup offsets).head? := by
  induction offsets with
  | nil => rfl
  | cons offset offsets ih =>
    obtain ⟨c, hc⟩ := h offset List.mem_cons_self
    have ih := ih fun o ho => h o (List.mem_cons_of_mem _ ho)
    rw [kickNext, kickCands_cons kick currentGroup hc, hc]
    simp only [Option.bind_eq_bind, Option.bind_some]
    by_cases heq : c = currentGroup
    · rw [if_neg (not_not.2 heq), if_pos heq]
      exact ih
    · rw [if_pos heq, if_neg heq]
      rfl

end Kick

/-! ## Tables without a free first candidate -/

/-- The first candidate of an item has an owner. -/
def FirstOwned (candGroups : List (List ℕ)) (groups : List (Option ℕ)) (qi : ℕ) : Prop :=
  ∀ c, (candidates candGroups qi).head? = some c → Slots.Occupied groups c

/-- The tables of a round. The first candidate of every owner has an owner itself, so that a walk
never comes to a group without one. -/
structure TableOk (candGroups : List (List ℕ)) (numGroups : ℕ) (groups : List (Option ℕ)) :
    Prop where
  length_eq : groups.length = numGroups
  owner_lt : ∀ g qi : ℕ, groups[g]? = some (some qi) → qi < candGroups.length
  firstOwned : ∀ g qi : ℕ, groups[g]? = some (some qi) → FirstOwned candGroups groups qi

theorem FirstOwned.set (h : FirstOwned candGroups groups qi) (c x : ℕ) :
    FirstOwned candGroups (groups.set c (some x)) qi := fun g hg => (h g hg).set c x

theorem TableOk.set (h : TableOk candGroups numGroups groups) (hqi : qi < candGroups.length) (c : ℕ)
    (hfirst : FirstOwned candGroups (groups.set c (some qi)) qi) :
    TableOk candGroups numGroups (groups.set c (some qi)) where
  length_eq := List.length_set.trans h.length_eq
  owner_lt g x hx := by
    rw [List.getElem?_set] at hx
    split_ifs at hx
    · cases hx
      exact hqi
    · exact h.owner_lt g x hx
  firstOwned g x hx := by
    rw [List.getElem?_set] at hx
    split_ifs at hx
    · cases hx
      exact hfirst
    · exact (h.firstOwned g x hx).set c qi

theorem tableOk_empty (candGroups : List (List ℕ)) (numGroups : ℕ) :
    TableOk candGroups numGroups (List.replicate numGroups none) := by
  have hnone : ∀ g qi : ℕ, (List.replicate numGroups (none : Option ℕ))[g]? ≠ some (some qi) := by
    intro g qi h
    rw [List.getElem?_replicate] at h
    split_ifs at h
    cases h
  exact ⟨List.length_replicate, fun g qi h => absurd h (hnone g qi),
    fun g qi h => absurd h (hnone g qi)⟩

/-- Putting an item into the first free one of its candidates leaves its first candidate owned. -/
theorem firstOwned_of_firstFreeGroup {c : ℕ} (hc : c < groups.length)
    (hlt : ∀ g ∈ candidates candGroups qi, g < groups.length)
    (hfree : firstFreeGroup groups (candidates candGroups qi) = some c) :
    FirstOwned candGroups (groups.set c (some qi)) qi := by
  intro first hfirst
  by_cases heq : first = c
  · rw [heq]
    exact Slots.occupied_set_self hc qi
  · rcases getElem?_eq_none_or_occupied (hlt first (List.mem_of_head? hfirst)) with hnone | hocc
    · -- a free first candidate would have been taken
      obtain ⟨rest, hcands⟩ := List.head?_eq_some_iff.1 hfirst
      rw [hcands, firstFreeGroup, List.find?_cons_of_pos (by simpa using hnone)] at hfree
      exact absurd (Option.some_inj.1 hfree) heq
    · exact hocc.set c qi

/-! ## The walk -/

/-- What a walk or a placement of the source computes: the outcome of the model. -/
structure Computes (candGroups : List (List ℕ)) (numGroups : ℕ)
    (result : Option (Bool × List (Option ℕ))) (model : Option (List (Option ℕ))) : Prop where
  failed : model = none → ∃ table, result = some (false, table)
  placed : ∀ table, model = some table → result = some (true, table) ∧
    TableOk candGroups numGroups table

/-- Induction on the kicks. The item in hand has an owned first candidate, and the group it takes
over has an owner. -/
theorem walk_computes (kicks kick : ℕ) {group : ℕ}
    (henough : EnoughGroups candGroups numGroups numHashes)
    (hok : TableOk candGroups numGroups groups) (hqi : qi < candGroups.length)
    (hfirst : FirstOwned candGroups groups qi) (hgroup : Slots.Occupied groups group) :
    Computes candGroups numGroups (walk candGroups numHashes kicks kick groups qi group)
      (evictChain candGroups numHashes kicks kick groups qi group) := by
  induction kicks generalizing kick groups qi group with
  | zero => exact ⟨fun _ => ⟨groups, rfl⟩, fun table h => by cases h⟩
  | succ kicks ih =>
    obtain ⟨evicted, howner⟩ := hgroup
    have hevicted : evicted < candGroups.length := hok.owner_lt group evicted howner
    obtain ⟨hne, hlen, hrange⟩ := henough _ (candidates_mem hevicted)
    have hok' : TableOk candGroups numGroups (groups.set group (some qi)) :=
      hok.set hqi group (hfirst.set group qi)
    have hevictedFirst : FirstOwned candGroups (groups.set group (some qi)) evicted :=
      (hok.firstOwned group evicted howner).set group qi
    have hcand : ∀ offset ∈ List.range numHashes, ∃ c < (groups.set group (some qi)).length,
        kickCand numHashes (candidates candGroups evicted) kick offset = some c := by
      intro offset hoffset
      obtain ⟨c, hc, heq⟩ := exists_kickCand hlen kick hoffset
      exact ⟨c, hok'.length_eq.symm ▸ hrange c hc, heq⟩
    rw [walk, evictChain, howner]
    simp only [Option.bind_eq_bind, Option.bind_some, getElem?_candidates hevicted,
      kickFree_eq kick group hcand, ← kickOrder_eq]
    cases hfree : firstFreeGroup (groups.set group (some qi))
        (kickOrder candGroups numHashes kick evicted group) with
    | some c =>
      refine ⟨fun h => (by cases h), fun table h => ?_⟩
      cases h
      exact ⟨rfl, hok'.set hevicted c (hevictedFirst.set c evicted)⟩
    | none =>
      obtain ⟨first, rest, hcands⟩ := List.exists_cons_of_ne_nil hne
      have hfirst0 : (candidates candGroups evicted)[0]? = some first := by rw [hcands]; rfl
      have hnext : kickNext numHashes (candidates candGroups evicted) kick group
          (List.range numHashes) = some (kickOrder candGroups numHashes kick evicted group).head? :=
        kickNext_eq kick group fun offset hoffset => (hcand offset hoffset).imp fun _ h => h.2
      have hgetD : ((kickOrder candGroups numHashes kick evicted group).head?.or
          (candidates candGroups evicted).head?).getD 0 =
            (kickOrder candGroups numHashes kick evicted group).head?.getD first := by
        rw [hcands]
        cases (kickOrder candGroups numHashes kick evicted group).head? <;> rfl
      simp only [hfirst0, hnext, Option.bind_some, hgetD]
      refine ih (kick + 1) hok' hevicted hevictedFirst ?_
      -- the next group was found owned, or is the first candidate
      cases hhead : (kickOrder candGroups numHashes kick evicted group).head? with
      | none => exact hevictedFirst first (by rw [hcands]; rfl)
      | some g =>
        have hmem := List.mem_of_head? hhead
        exact occupied_of_firstFreeGroup hfree hmem
          (hok'.length_eq.symm ▸ hrange g (mem_candidates_of_mem_kickOrder hmem))

theorem place_computes (henough : EnoughGroups candGroups numGroups numHashes) {maxKicks : ℕ}
    (hok : TableOk candGroups numGroups groups) (hqi : qi < candGroups.length) :
    Computes candGroups numGroups (place candGroups numHashes groups qi maxKicks)
      (pbcCuckooPlace candGroups numHashes groups qi maxKicks) := by
  obtain ⟨hne, -, hrange⟩ := henough _ (candidates_mem hqi)
  have hlt : ∀ g ∈ candidates candGroups qi, g < groups.length :=
    fun g hg => hok.length_eq.symm ▸ hrange g hg
  rw [place, pbcCuckooPlace]
  simp only [Option.bind_eq_bind, Option.bind_some, getElem?_candidates hqi, firstFree_eq hlt]
  cases hfree : firstFreeGroup groups (candidates candGroups qi) with
  | some c =>
    refine ⟨fun h => (by cases h), fun table h => ?_⟩
    cases h
    have hc := hlt c (firstFreeGroup_eq_some hfree).1
    exact ⟨rfl, hok.set hqi c (firstOwned_of_firstFreeGroup hc hlt hfree)⟩
  | none =>
    obtain ⟨first, rest, hcands⟩ := List.exists_cons_of_ne_nil hne
    have howned : ∀ g ∈ candidates candGroups qi, Slots.Occupied groups g :=
      fun g hg => occupied_of_firstFreeGroup hfree hg (hlt g hg)
    have hfirst : FirstOwned candGroups groups qi := fun g hg => howned g (List.mem_of_head? hg)
    have hwalk := walk_computes maxKicks 0 henough hok hqi hfirst
      (howned first (hcands ▸ List.mem_cons_self))
    simpa only [hcands, List.getElem?_cons_zero, Option.bind_some] using hwalk

/-! ## A round -/

section Round

variable {maxKicks : ℕ}

theorem placeInRound_of_full {round : RoundTable} (h : numGroups ≤ round.placedLocal.length)
    (lis : List ℕ) :
    lis.foldl (placeInRound candGroups numHashes numGroups maxKicks) round = round := by
  induction lis with
  | nil => rfl
  | cons li lis ih => rw [List.foldl_cons, placeInRound, if_pos h, ih]

variable (henough : EnoughGroups candGroups numGroups numHashes) {seen : ℕ}

include henough

/-- Induction on the items; the table stays in order. -/
theorem fillRound_eq {lis : List ℕ} {round : RoundTable} (hlis : ∀ li ∈ lis, li < candGroups.length)
    (hok : TableOk candGroups numGroups round.groupOwner) :
    fillRound candGroups numHashes numGroups maxKicks lis round =
      some (lis.foldl (placeInRound candGroups numHashes numGroups maxKicks) round) := by
  induction lis generalizing round with
  | nil => rfl
  | cons li lis ih =>
    have hrest : ∀ li' ∈ lis, li' < candGroups.length :=
      fun li' h => hlis li' (List.mem_cons_of_mem _ h)
    by_cases hfull : numGroups ≤ round.placedLocal.length
    · rw [fillRound, if_pos hfull, placeInRound_of_full hfull]
    · have hplace : Computes candGroups numGroups
          (place candGroups numHashes round.groupOwner li maxKicks)
          (pbcCuckooPlace candGroups numHashes round.groupOwner li maxKicks) :=
        place_computes henough hok (hlis li List.mem_cons_self)
      rw [fillRound, if_neg hfull, List.foldl_cons, placeInRound, if_neg hfull]
      cases hmodel : pbcCuckooPlace candGroups numHashes round.groupOwner li maxKicks with
      | none =>
        obtain ⟨table, htable⟩ := hplace.failed hmodel
        rw [htable]
        exact ih hrest hok
      | some table =>
        obtain ⟨htable, hok'⟩ := hplace.placed table hmodel
        rw [htable]
        exact ih hrest hok'

theorem fillRound_range (hseen : seen ≤ candGroups.length) :
    fillRound candGroups numHashes numGroups maxKicks (List.range seen) (.empty numGroups) =
      some (roundAfter candGroups numHashes numGroups maxKicks seen) :=
  fillRound_eq henough (fun _ h => (List.mem_range.1 h).trans_le hseen)
    (tableOk_empty candGroups numGroups)

/-- The tables of a round are in order after every item. -/
theorem tableOk_roundAfter (hseen : seen ≤ candGroups.length) :
    TableOk candGroups numGroups
      (roundAfter candGroups numHashes numGroups maxKicks seen).groupOwner := by
  induction seen with
  | zero => exact tableOk_empty candGroups numGroups
  | succ seen ih =>
    have hok := ih (Nat.le_of_succ_le hseen)
    rw [roundAfter_succ, placeInRound]
    split_ifs
    · exact hok
    · have hplace : Computes candGroups numGroups (place candGroups numHashes _ seen maxKicks)
          (pbcCuckooPlace candGroups numHashes _ seen maxKicks) :=
        place_computes henough hok hseen
      split
      next table hmodel => exact (hplace.placed table hmodel).2
      next => exact hok

/-- An item whose walk fails leaves the round as it was. -/
theorem fillRound_of_failed (hseen : seen < candGroups.length) {round : RoundTable} {table : List (Option ℕ)}
    (hround : fillRound candGroups numHashes numGroups maxKicks (List.range seen)
      (.empty numGroups) = some round)
    (hfailed : place candGroups numHashes round.groupOwner seen maxKicks = some (false, table)) :
    fillRound candGroups numHashes numGroups maxKicks (List.range (seen + 1)) (.empty numGroups) =
      some round := by
  rw [fillRound_range henough hseen.le, Option.some_inj] at hround
  rw [fillRound_range henough hseen, roundAfter_succ, hround, placeInRound]
  have hok : TableOk candGroups numGroups round.groupOwner :=
    hround ▸ tableOk_roundAfter henough hseen.le
  have hplace : Computes candGroups numGroups
      (place candGroups numHashes round.groupOwner seen maxKicks)
      (pbcCuckooPlace candGroups numHashes round.groupOwner seen maxKicks) :=
    place_computes henough hok hseen
  split_ifs
  · rfl
  · split
    next groups hmodel =>
      have hplaced := (hplace.placed groups hmodel).1
      rw [hfailed] at hplaced
      cases hplaced
    next => rfl

end Round

/-! ## All rounds -/

section Rounds

variable {maxKicks : ℕ}

variable {remaining : List ℕ}

theorem readEntries_eq {owners : List (Option ℕ × ℕ)}
    (h : ∀ li g, (some li, g) ∈ owners → li < remaining.length) :
    readEntries remaining owners = some (owners.filterMap fun (owner, g) =>
      owner.bind fun li => (remaining[li]?).map fun i => (i, g)) := by
  induction owners with
  | nil => rfl
  | cons a owners ih =>
    have ih := ih fun li g hmem => h li g (List.mem_cons_of_mem _ hmem)
    obtain ⟨owner, g⟩ := a
    cases owner with
    | none =>
      rw [readEntries, ih]
      rfl
    | some li =>
      have hlt := h li g List.mem_cons_self
      rw [readEntries, ih]
      simp [hlt]

variable {fuel : ℕ}

theorem nodup_groups_planRoundsFrom {round : List (ℕ × ℕ)}
    (h : round ∈ planRoundsFrom candGroups numHashes numGroups maxKicks fuel remaining) :
    (round.map Prod.snd).Nodup := by
  induction fuel generalizing remaining with
  | zero => cases h
  | succ fuel ih =>
    rw [planRoundsFrom] at h
    by_cases hne : remaining = []
    · rw [if_pos hne] at h
      cases h
    · dsimp only at h
      split_ifs at h
      · cases h
      · rcases List.mem_cons.1 h with rfl | h
        · exact nodup_groups_roundEntries
        · exact ih h

variable (henough : EnoughGroups candGroups numGroups numHashes)

include henough

theorem enoughGroups_map (hlt : ∀ i ∈ remaining, i < candGroups.length) :
    EnoughGroups (remaining.map (candidates candGroups)) numGroups numHashes := by
  intro cands hcands
  obtain ⟨i, hi, rfl⟩ := List.mem_map.1 hcands
  exact henough _ (candidates_mem (hlt i hi))

theorem planLoop_succ (hnodup : remaining.Nodup) (hlt : ∀ i ∈ remaining, i < candGroups.length)
    (hne : remaining ≠ []) :
    planLoop candGroups numHashes numGroups maxKicks (fuel + 1) remaining =
      let round := planRound (remaining.map (candidates candGroups)) numHashes numGroups maxKicks
      (planLoop candGroups numHashes numGroups maxKicks fuel
        (remaining.filter fun i => i ∉ round.placedLocal.filterMap (remaining[·]?))).map
          fun rest => { rest with rounds := roundEntries remaining round.groupOwner :: rest.rounds }
    := by
  have hcands : remaining.mapM (candGroups[·]?) = some (remaining.map (candidates candGroups)) :=
    mapM_eq_some_map _ fun i hi => getElem?_candidates (hlt i hi)
  have hfill : fillRound (remaining.map (candidates candGroups)) numHashes numGroups maxKicks
      (List.range (remaining.map (candidates candGroups)).length) (.empty numGroups) =
        some (planRound (remaining.map (candidates candGroups)) numHashes numGroups maxKicks) :=
    fillRound_range (enoughGroups_map henough hlt) le_rfl
  have hround := planRound_ok (remaining.map (candidates candGroups)) numHashes numGroups maxKicks
  rw [List.length_map] at hround
  generalize planRound (remaining.map (candidates candGroups)) numHashes numGroups maxKicks = round
    at hfill hround
  have hread : readEntries remaining round.groupOwner.zipIdx =
      some (roundEntries remaining round.groupOwner) := by
    refine readEntries_eq fun li g hmem => ?_
    exact hround.lt_of_mem (hround.mem_of_owner (List.mem_zipIdx_iff_getElem?.1 hmem))
  have hplaced : round.placedLocal.mapM (remaining[·]?) =
      some (round.placedLocal.filterMap (remaining[·]?)) := by
    have hall : ∀ li ∈ round.placedLocal, remaining[li]? = some (remaining.getD li 0) := by
      intro li hli
      rw [List.getD_eq_getElem _ _ (hround.lt_of_mem hli),
        List.getElem?_eq_getElem (hround.lt_of_mem hli)]
    rw [mapM_eq_some_map _ hall, ← List.filterMap_eq_map', List.filterMap_congr hall]
  have hplanned := plannedRound henough.haveGroups hnodup hlt hne hround
  rw [planLoop, if_neg hne, hcands]
  simp only [Option.bind_eq_bind, Option.bind_some, hfill, hread, hplaced,
    if_neg hplanned.nonempty]
  exact Option.map_eq_bind.symm

/-- The loop ends with the plan of the model when the fuel exceeds what remains. -/
theorem planLoop_eq (hnodup : remaining.Nodup) (hlt : ∀ i ∈ remaining, i < candGroups.length)
    (hfuel : remaining.length ≤ fuel) :
    planLoop candGroups numHashes numGroups maxKicks (fuel + 1) remaining =
      some ⟨planRoundsFrom candGroups numHashes numGroups maxKicks fuel remaining, none⟩ := by
  induction fuel generalizing remaining with
  | zero =>
    rw [List.eq_nil_of_length_eq_zero (Nat.le_zero.1 hfuel)]
    rfl
  | succ fuel ih =>
    by_cases hne : remaining = []
    · subst hne
      rfl
    · have hround :=
        planRound_ok (remaining.map (candidates candGroups)) numHashes numGroups maxKicks
      rw [List.length_map] at hround
      have hplanned := plannedRound henough.haveGroups hnodup hlt hne hround
      rw [planLoop_succ henough hnodup hlt hne, planRoundsFrom, if_neg hne,
        if_neg hplanned.nonempty]
      dsimp only
      rw [ih (hnodup.filter _) (fun i hi => hlt i (List.mem_of_mem_filter hi))
        (hplanned.length_filter_le hnodup hfuel)]
      rfl

end Rounds

/-- **Planning is complete and exact.** The loops end without a panic and without giving up; every
item is placed once, in one of its candidate groups, a round uses a group once, and a walk that
fails leaves the round as it was, for the candidate lists of every part of the items. -/
theorem planLoop_complete (candGroups : List (List ℕ)) (numGroups numHashes maxKicks : ℕ)
    (henough : EnoughGroups candGroups numGroups numHashes) :
    (∃ rounds, planLoop candGroups numHashes numGroups maxKicks (candGroups.length + 1)
          (List.range candGroups.length) = some ⟨rounds, none⟩ ∧
        (rounds.flatten.map Prod.fst).Perm (List.range candGroups.length) ∧
        (∀ e ∈ rounds.flatten, e.2 ∈ candidates candGroups e.1) ∧
        ∀ round ∈ rounds, (round.map Prod.snd).Nodup) ∧
      ∀ remaining : List ℕ, (∀ i ∈ remaining, i < candGroups.length) →
        ∀ seen < remaining.length, ∀ round table,
          fillRound (remaining.map (candidates candGroups)) numHashes numGroups maxKicks
            (List.range seen) (.empty numGroups) = some round →
          place (remaining.map (candidates candGroups)) numHashes round.groupOwner seen maxKicks =
            some (false, table) →
          fillRound (remaining.map (candidates candGroups)) numHashes numGroups maxKicks
            (List.range (seen + 1)) (.empty numGroups) = some round := by
  refine ⟨⟨pbcPlanRounds candGroups numHashes numGroups maxKicks, ?_, ?_, ?_, ?_⟩, ?_⟩
  · exact planLoop_eq henough List.nodup_range (fun _ => List.mem_range.1) List.length_range.le
  · exact perm_pbcPlanRounds henough.haveGroups
  · exact fun e he => mem_candidates_of_mem_pbcPlanRounds henough.haveGroups he
  · exact fun round h => nodup_groups_planRoundsFrom h
  · intro remaining hlt seen hseen round table hround hfailed
    exact fillRound_of_failed (enoughGroups_map henough hlt) (by rwa [List.length_map]) hround
      hfailed

def fourCands : List (List ℕ) := [[0, 1], [1, 0], [0, 1], [1, 2]]

/-- Four items on three groups: the walk of the third one fails, which leaves the round as it was,
and the item is placed in a second round. -/
theorem planLoop_complete_four :
    planLoop fourCands 2 3 2 5 [0, 1, 2, 3] =
        some ⟨[[(0, 0), (1, 1), (3, 2)], [(2, 0)]], none⟩ ∧
      (∃ rounds, planLoop fourCands 2 3 2 5 (List.range 4) = some ⟨rounds, none⟩ ∧
        (rounds.flatten.map Prod.fst).Perm (List.range 4)) ∧
      (place fourCands 2 [some 0, some 1, none] 2 2).map Prod.fst = some false ∧
      fillRound fourCands 2 3 2 (List.range 3) (.empty 3) =
        some ⟨[some 0, some 1, none], [0, 1]⟩ := by
  have henough : EnoughGroups fourCands 3 2 := by
    unfold EnoughGroups
    decide
  obtain ⟨⟨rounds, heq, hperm, -⟩, hfailed⟩ := planLoop_complete fourCands 3 2 2 henough
  exact ⟨by decide, ⟨rounds, heq, hperm⟩, by decide,
    hfailed [0, 1, 2, 3] (by decide) 2 (by decide) _ _ rfl rfl⟩

end PbcLoops

end BitcoinPir
