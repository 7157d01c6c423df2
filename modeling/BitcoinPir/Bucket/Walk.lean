import BitcoinPir.Bucket.Verify

/-!
# What the verification computes for one item

`verifySiblingLevels` interleaves the walks of all items, pass by pass and level by level. Each
item is in one pass of every level, so its verdict depends on its own rows only
(`checkRows_getElem?`), and where the rows are well formed its walk is a climb in the sense of
`Foundations.HashTree`, first along the rows and then along the cached levels
(`finishItem_start`).
-/

namespace BitcoinPir.Bucket

open Foundations HashTree

/-! ## The rows of an item -/

variable {items : List SubItem} {i : ℕ} {it : SubItem}

theorem getElem?_groupsOf (hi : items[i]? = some it) : (groupsOf items)[i]? = some it.pbcGroup := by
  rw [groupsOf, List.getElem?_map, hi]
  rfl

theorem passOf_lt_maxItemsPerGroup (hi : items[i]? = some it) :
    passOf (groupsOf items) i it.pbcGroup < maxItemsPerGroup items :=
  passOf_lt_of_max (getElem?_groupsOf hi) 1

/-- The row item `i` absorbs at a level. -/
def itemRow (items : List SubItem) (i : ℕ) (it : SubItem)
    (batchRows : List (List (Option Bytes))) : Option Bytes :=
  (batchRows.getD (passOf (groupsOf items) i it.pbcGroup) []).getD it.pbcGroup none

variable (H : Bytes → Hash256)

/-- **One level, one item**: the item absorbs its row. -/
theorem walkLevel_getElem? (hi : items[i]? = some it) {level : ℕ}
    {batchRows : List (List (Option Bytes))} {st st' : List ItemState}
    (h : walkLevel H (itemsByGroup (groupsOf items)) (maxItemsPerGroup items) level batchRows st =
      .ok st') :
    st'[i]? = (st[i]?).map (absorbRow H (itemRow items i it batchRows)) := by
  unfold walkLevel at h
  split at h
  · cases h
  · rename_i hlen
    cases h
    have hp : passOf (groupsOf items) i it.pbcGroup < batchRows.length :=
      not_not.1 hlen ▸ passOf_lt_maxItemsPerGroup hi
    have := getElem?_foldl_passes (absorbRow H)
      (fun (rows : List (Option Bytes)) g => rows.getD g none) (getElem?_groupsOf hi) hp st
    rw [itemRow, List.getD_eq_getElem _ _ hp]
    exact this

variable {allRows : LevelRows} {treeTops : List TreeTop}

/-- **All levels, one item**: the item absorbs its rows in order. -/
theorem walkLevels_getElem? (hi : items[i]? = some it) {level : ℕ} {st st' : List ItemState}
    (h : walkLevels H (itemsByGroup (groupsOf items)) (maxItemsPerGroup items) level allRows st = .ok st') :
    st'[i]? = (st[i]?).map fun s =>
      (allRows.map (itemRow items i it)).foldl (fun s row => absorbRow H row s) s := by
  induction allRows generalizing level st with
  | nil =>
    cases h
    simp
  | cons batchRows allRows ih =>
    rw [walkLevels] at h
    split at h
    · cases h
    · rename_i st₁ h₁
      rw [ih h, walkLevel_getElem? H hi h₁, Option.map_map]
      rfl

/-- The state of an item after its sibling levels. -/
def walkItem (allRows : LevelRows) (items : List SubItem) (i : ℕ) (it : SubItem) : ItemState :=
  (allRows.map (itemRow items i it)).foldl (fun s row => absorbRow H row s) (it.start H)

/-- **The verdict on an item** depends on its own rows only. -/
theorem checkRows_getElem? (hi : items[i]? = some it) {bins tableK : ℕ} {oks : List Bool}
    (h : checkRows H items bins tableK treeTops allRows = .ok oks) :
    oks[i]? = some (finishItem H treeTops it (walkItem H allRows items i it)) := by
  unfold checkRows at h
  simp only at h
  split at h
  · cases h
  split at h
  · cases h
  · rename_i st hst
    cases h
    have hstate := walkLevels_getElem? H hi hst
    rw [List.getElem?_map, hi] at hstate
    rw [List.getElem?_zipWith, hi, hstate]
    rfl

/-! ## Walks as climbs -/

/-- Siblings read off a received row. -/
def rowSource (row : Option Bytes) : ℕ → Hash256 :=
  BitcoinPir.rowSource arity (Digest.piece 32 (row.getD []))

/-- A row the walk accepts. -/
def WellFormedRow (row : Option Bytes) : Prop := ∃ bytes, row = some bytes ∧ bytes.length = sibRowSize

theorem absorbRow_malformed (row : Option Bytes) {s : ItemState}
    (h : s.malformedEvidence = true) : (absorbRow H row s).malformedEvidence = true := by
  rcases row with _ | row
  · rfl
  · simp only [absorbRow]
    split_ifs
    · rfl
    · exact h

/-- The group hashed when a well-formed row is absorbed. -/
theorem absorbRow_wellFormed {row : Option Bytes} (hrow : WellFormedRow row) (s : ItemState) :
    absorbRow H row s = { s with
      currentHash := H (Digest.concat (group arity (rowSource row) s.currentHash s.nodeIdx))
      nodeIdx := s.nodeIdx / arity } := by
  obtain ⟨bytes, rfl, hlen⟩ := hrow
  simp only [absorbRow, hlen, ne_eq, not_true_eq_false, if_false, computeParentN, group_rowSource,
    rowSource, Option.getD_some]

theorem absorbRow_not_wellFormed {row : Option Bytes} (hrow : ¬ WellFormedRow row) (s : ItemState) :
    (absorbRow H row s).malformedEvidence = true := by
  rcases row with _ | row
  · rfl
  · have hlen : row.length ≠ sibRowSize := fun h => hrow ⟨row, rfl, h⟩
    simp only [absorbRow, hlen, ne_eq, not_false_eq_true, if_true]

theorem foldl_absorbRow_malformed (rows : List (Option Bytes)) {s : ItemState}
    (h : s.malformedEvidence = true) :
    (rows.foldl (fun s row => absorbRow H row s) s).malformedEvidence = true := by
  induction rows generalizing s with
  | nil => exact h
  | cons row rows ih => exact ih (absorbRow_malformed H row h)

/-- Rows absorbed without a complaint are well formed. -/
theorem wellFormed_of_not_malformed {rows : List (Option Bytes)} {s : ItemState}
    (h : (rows.foldl (fun s row => absorbRow H row s) s).malformedEvidence = false) :
    ∀ row ∈ rows, WellFormedRow row := by
  induction rows generalizing s with
  | nil => simp
  | cons row rows ih =>
    rw [List.foldl_cons] at h
    intro r hr
    rcases List.mem_cons.1 hr with rfl | hr
    · by_contra hrow
      have := foldl_absorbRow_malformed H rows (absorbRow_not_wellFormed H hrow s)
      rw [h] at this
      cases this
    · exact ih h r hr

/-- Absorbing well-formed rows is climbing. -/
theorem foldl_absorbRow {rows : List (Option Bytes)} (hrows : ∀ row ∈ rows, WellFormedRow row)
    (s : ItemState) :
    rows.foldl (fun s row => absorbRow H row s) s = { s with
      currentHash := (climb H Digest.concat arity (rows.map rowSource) s.currentHash
        s.nodeIdx).1
      nodeIdx := (climb H Digest.concat arity (rows.map rowSource) s.currentHash
        s.nodeIdx).2 } := by
  induction rows generalizing s with
  | nil => rfl
  | cons row rows ih =>
    rw [List.foldl_cons, ih fun r hr => hrows r (List.mem_cons_of_mem _ hr),
      absorbRow_wellFormed H (hrows row List.mem_cons_self)]
    rfl

/-- The sibling sources of an item's whole climb: its rows, then the cached levels. -/
def itemSources (allRows : LevelRows) (items : List SubItem) (i : ℕ) (it : SubItem)
    (top : TreeTop) : List (ℕ → Hash256) :=
  (allRows.map (itemRow items i it)).map rowSource ++ top.levels.dropLast.map cacheSource

theorem getElem?_itemSources (allRows : LevelRows) (items : List SubItem) (i : ℕ) (it : SubItem)
    (top : TreeTop) (t : ℕ) :
    (itemSources allRows items i it top)[t]? =
      if t < allRows.length then (allRows[t]?).map fun batch => rowSource (itemRow items i it batch)
      else (top.levels.dropLast[t - allRows.length]?).map cacheSource := by
  rw [itemSources, List.getElem?_append, List.length_map, List.length_map, List.getElem?_map,
    List.getElem?_map, List.getElem?_map, Option.map_map]
  rfl

/-- The byte strings hashed for an item. -/
def itemMessages (allRows : LevelRows) (items : List SubItem) (i : ℕ) (it : SubItem)
    (top : TreeTop) : List Bytes :=
  openingMessages H Digest.concat arity (itemSources allRows items i it top)
    (binLeafPreimage it.binIndex.toNat it.binContent) it.binIndex.toNat

/-- **The verdict as a climb.** With well-formed rows the item is accepted exactly when its
climb ends in the root its tree top declares. -/
theorem finishItem_wellFormed {top : TreeTop}
    (hrows : ∀ batch ∈ allRows, WellFormedRow (itemRow items i it batch))
    (htop : treeTops[it.pbcGroup]? = some top) (hne : top.levels ≠ []) :
    finishItem H treeTops it (walkItem H allRows items i it) =
      decide ((climb H Digest.concat arity (itemSources allRows items i it top)
        (H (binLeafPreimage it.binIndex.toNat it.binContent)) it.binIndex.toNat).1 =
          top.root.getD zeroHash) := by
  have hrows' : ∀ row ∈ allRows.map (itemRow items i it), WellFormedRow row := by
    intro row hrow
    obtain ⟨batch, hbatch, rfl⟩ := List.mem_map.1 hrow
    exact hrows batch hbatch
  have hempty : top.levels.isEmpty = false := by simpa using hne
  rw [walkItem, foldl_absorbRow H hrows', finishItem, htop]
  simp only [hempty, Bool.false_eq_true, if_false, walkCachedLevels_eq_climb, itemSources,
    climb_append, SubItem.start, Bool.not_false, Bool.true_and, computeBinLeafHash]
  rw [Bool.beq_eq_decide_eq]

/-- An accepted item has a tree top, well-formed rows, and a climb to the declared root. -/
theorem finishItem_start (h : finishItem H treeTops it (walkItem H allRows items i it) = true) :
    ∃ top, treeTops[it.pbcGroup]? = some top ∧ top.levels ≠ [] ∧
      (climb H Digest.concat arity (itemSources allRows items i it top)
        (H (binLeafPreimage it.binIndex.toNat it.binContent)) it.binIndex.toNat).1 =
          top.root.getD zeroHash := by
  cases htop : treeTops[it.pbcGroup]? with
  | none => simp [finishItem, htop] at h
  | some top =>
    have hne : top.levels ≠ [] := by
      intro hnil
      simp [finishItem, htop, hnil] at h
    have hmal : (walkItem H allRows items i it).malformedEvidence = false := by
      have hempty : top.levels.isEmpty = false := by simpa using hne
      simp only [finishItem, htop, hempty, Bool.false_eq_true, if_false, Bool.and_eq_true] at h
      simpa using h.1
    have hrows : ∀ batch ∈ allRows, WellFormedRow (itemRow items i it batch) := fun batch hb =>
      wellFormed_of_not_malformed H hmal _ (List.mem_map_of_mem hb)
    rw [finishItem_wellFormed H hrows htop hne] at h
    exact ⟨top, rfl, hne, of_decide_eq_true h⟩

end BitcoinPir.Bucket
