import BitcoinPir.Bucket.TreeTops
import BitcoinPir.Bucket.Soundness

/-!
# Completeness of the bucket-Merkle verification

What `buildBucketMerkle` writes is accepted by the client, for tables of any size
(`bucketMerkle_complete`): the tree-top blob parses, the super-root check passes, every sibling
row asked for exists, and with the stored rows every bin of the table is accepted, in any
number and order.

Builder and client compute the sibling levels separately. They agree because both count rows by
repeated rounding-up division (`levelGroupsCount_computeSiblingLevels`), and the levels the
builder leaves to the sibling tables are below the top of the tree
(`computeSiblingLevels_length_le_depth`), so the cached part always holds the root.
-/

namespace BitcoinPir.Bucket

open Foundations HashTree Digest

variable (H : Bytes → Hash256)

/-! ## Sibling levels -/

theorem ceilDiv_lt_of_threshold_lt {n : ℕ} (h : ¬ n ⌈/⌉ arity ≤ treeTopThreshold) :
    n ⌈/⌉ arity < n := by
  apply ceilDiv_lt_self (by decide)
  have hle := ceilDiv_le_self (k := arity) (by decide) n
  have : treeTopThreshold = 1024 := rfl
  omega

theorem computeSiblingLevelsAux_congr : ∀ (f g n : ℕ), n ≤ f → n ≤ g →
    computeSiblingLevelsAux f n = computeSiblingLevelsAux g n
  | 0, 0, _, _, _ => rfl
  | 0, g + 1, n, hf, _ => by
    obtain rfl : n = 0 := by omega
    rfl
  | f + 1, 0, n, _, hg => by
    obtain rfl : n = 0 := by omega
    rfl
  | f + 1, g + 1, n, hf, hg => by
    simp only [computeSiblingLevelsAux]
    split_ifs with h
    · rfl
    · have hlt := ceilDiv_lt_of_threshold_lt h
      rw [computeSiblingLevelsAux_congr f g _ (by omega) (by omega)]

/-- The loop of the source: stop at the threshold, otherwise count a level and go on. -/
theorem computeSiblingLevels_eq (n : ℕ) : computeSiblingLevels n =
    if n ⌈/⌉ arity ≤ treeTopThreshold then []
    else (n ⌈/⌉ arity) :: computeSiblingLevels (n ⌈/⌉ arity) := by
  cases n with
  | zero => rfl
  | succ n =>
    rw [computeSiblingLevels, computeSiblingLevelsAux]
    split_ifs with h
    · rfl
    · have hlt := ceilDiv_lt_of_threshold_lt h
      rw [computeSiblingLevels, computeSiblingLevelsAux_congr n _ _ (by omega) le_rfl]

/-- The client's row counts are the builder's. -/
theorem levelGroupsCount_computeSiblingLevels (n : ℕ) :
    levelGroupsCount (computeSiblingLevels n).length n = computeSiblingLevels n := by
  induction n using Nat.strongRecOn with
  | ind n ih =>
    rw [computeSiblingLevels_eq]
    split_ifs with h
    · rfl
    · have hlt := ceilDiv_lt_of_threshold_lt h
      rw [List.length_cons, levelGroupsCount, ih _ hlt]

variable {t : ℕ} {tree : PerGroupTree} {it : SubItem} {allRows : LevelRows}

theorem getElem?_levelGroupsCount (m n : ℕ) (ht : t < m) :
    (levelGroupsCount m n)[t]? = some (width arity n (t + 1)) := by
  induction m generalizing n t with
  | zero => omega
  | succ m ih =>
    cases t with
    | zero => rfl
    | succ t =>
      rw [levelGroupsCount, List.getElem?_cons_succ, ih _ (by omega),
        width_ceilDiv]

theorem threshold_lt_of_mem {n c : ℕ} (h : c ∈ computeSiblingLevels n) : treeTopThreshold < c := by
  induction n using Nat.strongRecOn with
  | ind n ih =>
    rw [computeSiblingLevels_eq] at h
    split_ifs at h with hle
    · simp at h
    · have hlt := ceilDiv_lt_of_threshold_lt hle
      rcases List.mem_cons.1 h with rfl | h
      · omega
      · exact ih _ hlt h

/-- The levels left to the sibling tables are below the top of the tree. -/
theorem computeSiblingLevels_length_le_depth (xs : List Hash256) :
    (computeSiblingLevels xs.length).length ≤
      depth H concat zeroHash arity xs := by
  obtain hzero | ⟨m, hm⟩ : (computeSiblingLevels xs.length).length = 0 ∨
      ∃ m, (computeSiblingLevels xs.length).length = m + 1 := by
    cases (computeSiblingLevels xs.length).length with
    | zero => exact .inl rfl
    | succ m => exact .inr ⟨m, rfl⟩
  · omega
  · have hget := getElem?_levelGroupsCount (computeSiblingLevels xs.length).length xs.length
      (t := m) (by omega)
    rw [levelGroupsCount_computeSiblingLevels] at hget
    have hbig := threshold_lt_of_mem (List.mem_of_getElem? hget)
    have hlt : m + 1 < depth H concat zeroHash arity xs := by
      apply lt_depth_of_one_lt H concat zeroHash (by decide)
      rw [length_level]
      have : treeTopThreshold = 1024 := rfl
      omega
    omega

/-! ## The trees of a table -/

/-- The file has the tables of all `k` groups, with at least one bin each. -/
structure TableFile.HasTables (file : TableFile) (p : TableParams) : Prop where
  one_le : 1 ≤ file.binsPerTable
  length_le : file.dataOffset + p.k * (file.binsPerTable * p.binSize) ≤ file.mmap.length

variable {H} {file : TableFile} {p : TableParams} {trees : List PerGroupTree}

theorem exists_buildTrees (hfile : file.HasTables p) :
    ∃ trees, buildTrees H file p.k p.binSize = some trees := by
  apply exists_mapM_eq_some
  intro g hg
  have hg : g + 1 ≤ p.k := List.mem_range.1 hg
  have hend : (g + 1) * (file.binsPerTable * p.binSize) ≤ p.k * (file.binsPerTable * p.binSize) :=
    Nat.mul_le_mul_right _ hg
  have hlen := hfile.length_le
  have hone := hfile.one_le
  rw [Nat.add_mul] at hend
  have hdata : ∃ data, groupData file.mmap file.dataOffset g file.binsPerTable p.binSize =
      some data := by
    exact ⟨_, if_pos (by omega)⟩
  obtain ⟨data, hdata⟩ := hdata
  have hne : leafHashes H data file.binsPerTable p.binSize ≠ [] := by
    apply List.ne_nil_of_length_pos
    rw [leafHashes, List.length_map, List.length_range]
    exact hone
  have harity : 2 ≤ arity := by decide
  obtain ⟨tree, htree⟩ := exists_treeOfLeaves H harity hne
  refine ⟨tree, ?_⟩
  rw [buildGroupTree, hdata]
  exact htree

section BuildTrees

variable (h : buildTrees H file p.k p.binSize = some trees)

include h

theorem length_buildTrees : trees.length = p.k := by
  rw [length_mapM h, List.length_range]

theorem getElem?_buildTrees {g : ℕ} (hg : g < p.k) : ∃ tree, trees[g]? = some tree ∧
    buildGroupTree H file.mmap file.dataOffset g file.binsPerTable p.binSize = some tree :=
  getElem?_mapM h (by rw [List.getElem?_range hg])

theorem exists_of_mem_buildTrees (ht : tree ∈ trees) : ∃ g,
    buildGroupTree H file.mmap file.dataOffset g file.binsPerTable p.binSize = some tree := by
  obtain ⟨g, hg, rfl⟩ := List.getElem_of_mem ht
  rw [length_buildTrees h] at hg
  obtain ⟨tree, htree, hbuild⟩ := getElem?_buildTrees h hg
  obtain ⟨_, rfl⟩ := List.getElem?_eq_some_iff.1 htree
  exact ⟨g, hbuild⟩

end BuildTrees

section BuildGroupTree

variable {g : ℕ}
  (h : buildGroupTree H file.mmap file.dataOffset g file.binsPerTable p.binSize = some tree)

include h

/-- A built tree: its levels are the levels of the hash tree over as many leaves as bins. -/
theorem buildGroupTree_levels : ∃ xs : List Hash256, xs.length = file.binsPerTable ∧ xs ≠ [] ∧
    tree.levels = levels H concat zeroHash arity xs ∧
    root H concat zeroHash arity xs = some tree.root := by
  obtain ⟨data, -, -, hpos, hlevels, hroot⟩ := buildGroupTree_eq_some H h
  have hlen : (leafHashes H data file.binsPerTable p.binSize).length = file.binsPerTable := by
    simp [leafHashes]
  exact ⟨_, hlen, List.ne_nil_of_length_pos (by omega), hlevels, hroot⟩

/-- **Every tree top fits its fields.** -/
theorem fits_of_buildGroupTree :
    (cachedTop tree (computeSiblingLevels file.binsPerTable).length).Fits := by
  obtain ⟨xs, hlen, -, hlevels, -⟩ := buildGroupTree_levels h
  have hbins := file.binsPerTable_lt
  have hdepth : depth H concat zeroHash arity xs ≤ 32 :=
    depth_le H concat zeroHash (by decide) (by omega)
  have hsib := computeSiblingLevels_length_le_depth H xs
  rw [hlen] at hsib
  have hcount := length_levels H concat zeroHash (k := arity) (by decide) xs
  refine ⟨?_, (show (arity : ℕ) < 2 ^ 16 by decide), ?_, ?_⟩
  · show (computeSiblingLevels file.binsPerTable).length < 256
    omega
  · show (tree.levels.drop _).length < 256
    rw [List.length_drop, hlevels]
    omega
  · intro level hlevel
    obtain ⟨t, ht, rfl⟩ := List.getElem_of_mem (List.mem_of_mem_drop hlevel)
    have hget := getElem?_levels H concat zeroHash (k := arity) (by decide) xs (t := t)
      (by rw [hlevels] at ht; omega)
    rw [← hlevels, List.getElem?_eq_getElem ht, Option.some_inj] at hget
    rw [hget]
    have := length_iterate_parents_le H concat zeroHash (k := arity) (by decide) t xs
    omega

/-- The cached part of a tree holds the root. -/
theorem root_topOf :
    (topOf (tree, (computeSiblingLevels file.binsPerTable).length)).root = some tree.root := by
  obtain ⟨xs, hlen, -, hlevels, hroot⟩ := buildGroupTree_levels h
  have hsib := computeSiblingLevels_length_le_depth H xs
  rw [hlen] at hsib
  have hcount := length_levels H concat zeroHash (k := arity) (by decide) xs
  rw [← hroot, root, ← hlevels, TreeTop.root, topOf, rootOfLevels,
    List.getLast?_drop, if_neg]
  rw [hlevels]
  omega

end BuildGroupTree

/-! ## Stored rows -/

/-- The number of rows per group, from a sibling table's header. -/
def storedRowCount (sibFile : Bytes) : ℕ := leNat ((sibFile.drop 16).take 4)

/-- The row stored for group `g` at position `r` of a sibling table. -/
def storedRow (sibFile : Bytes) (g r : ℕ) : Bytes :=
  (sibFile.drop (32 + (g * storedRowCount sibFile + r) * sibRowSize)).take sibRowSize

/-- Every planned query answered with the row stored there. -/
def storedRows (sibFiles : List Bytes) (plans : List SiblingLevelPlan) : LevelRows :=
  plans.map fun plan => plan.passes.map fun targets =>
    targets.zipIdx.map fun (target, g) => target.map (storedRow (sibFiles.getD plan.level []) g)

theorem length_siblingRow (level : List Hash256) (r : ℕ) :
    (siblingRow level r).length = sibRowSize := by
  rw [siblingRow, length_concat, length_siblings]
  rfl

theorem length_siblingTableHeader (numGroups k magic : ℕ) :
    (siblingTableHeader numGroups k magic).length = 32 := by
  simp [siblingTableHeader]

theorem storedRowCount_write (trees : List PerGroupTree) (levelIdx k magic : ℕ) {numGroups : ℕ}
    (hn : numGroups < 2 ^ 32) :
    storedRowCount (writeFlatSiblingTable trees levelIdx numGroups k magic) = numGroups := by
  have hfield : ((writeFlatSiblingTable trees levelIdx numGroups k magic).drop 16).take 4 =
      leBytes 4 numGroups := rfl
  rw [storedRowCount, hfield, leNat_leBytes_of_lt (by norm_num; omega)]

/-- The stored rows are the groups of the tree's levels. -/
theorem storedRow_write {trees : List PerGroupTree} (levelIdx magic : ℕ) {numGroups k g r : ℕ}
    (hn : numGroups < 2 ^ 32) (hk : trees.length = k) (hr : r < numGroups)
    (htree : trees[g]? = some tree) :
    storedRow (writeFlatSiblingTable trees levelIdx numGroups k magic) g r =
      siblingRow (tree.levels.getD levelIdx []) r := by
  obtain ⟨hg', rfl⟩ := List.getElem?_eq_some_iff.1 htree
  have hrows : ∀ level : List Hash256, ((List.range numGroups).flatMap (siblingRow level)).length =
      numGroups * sibRowSize := by
    intro level
    rw [length_flatMap_const fun r _ => length_siblingRow level r, List.length_range]
  have hend : (r + 1) * sibRowSize ≤ numGroups * sibRowSize := Nat.mul_le_mul_right _ hr
  rw [Nat.add_mul, one_mul] at hend
  rw [storedRow, storedRowCount_write trees levelIdx k magic hn, writeFlatSiblingTable,
    ← List.drop_drop, List.drop_left' (length_siblingTableHeader ..), List.take_of_length_le hk.le,
    Nat.add_mul, Nat.mul_assoc, take_drop_flatMap (fun tree _ => hrows _) hg' hend]
  have := take_drop_flatMap (l := List.range numGroups) (o := 0) (m := sibRowSize)
    (fun r _ => length_siblingRow (trees[g].levels.getD levelIdx []) r) (by simpa using hr) (by omega)
  rw [Nat.add_zero, List.getElem_range, List.drop_zero,
    List.take_of_length_le (length_siblingRow _ _).le] at this
  exact this

theorem getElem?_writeSiblingTables (trees : List PerGroupTree) (sibLevels : List ℕ)
    (k tableType : ℕ) {c : ℕ} (ht : sibLevels[t]? = some c) :
    (writeSiblingTables trees sibLevels k tableType)[t]? =
      some (writeFlatSiblingTable trees t c k (bucketSibMagic tableType t)) := by
  rw [writeSiblingTables, List.getElem?_map, List.getElem?_zipIdx, ht]
  simp

/-! ## Planned queries -/

theorem getElem?_levelPlans (byGroup : List (ℕ × List ℕ)) (tableK maxItems level : ℕ)
    (counts plannedNodeIdx : List ℕ) (t : ℕ) :
    (levelPlans byGroup tableK maxItems level counts plannedNodeIdx)[t]? =
      (counts[t]?).map fun c =>
        { level := level + t
          levelBinsPerTable := c
          passes := (List.range maxItems).map fun pass => passTargets tableK
            (passGroupToItem byGroup pass) (plannedNodeIdx.map (· / arity ^ t)) } := by
  induction counts generalizing level plannedNodeIdx t with
  | nil => simp [levelPlans]
  | cons c counts ih =>
    cases t with
    | zero => simp [levelPlans]
    | succ t =>
      rw [levelPlans, List.getElem?_cons_succ, ih, List.getElem?_cons_succ, List.map_map]
      have hdiv : ((· / arity ^ t) ∘ (· / arity) : ℕ → ℕ) = (· / arity ^ (t + 1)) := by
        funext n
        rw [Function.comp_apply, Nat.div_div_eq_div_mul, pow_succ']
      rw [hdiv, Nat.add_right_comm, Nat.add_assoc]

theorem length_levelPlans (byGroup : List (ℕ × List ℕ)) (tableK maxItems level : ℕ)
    (counts plannedNodeIdx : List ℕ) :
    (levelPlans byGroup tableK maxItems level counts plannedNodeIdx).length = counts.length := by
  induction counts generalizing level plannedNodeIdx with
  | nil => rfl
  | cons c counts ih => rw [levelPlans, List.length_cons, ih, List.length_cons]

def tableTops (file : TableFile) (trees : List PerGroupTree) : List TreeTop :=
  trees.map fun tree => topOf (tree, (computeSiblingLevels file.binsPerTable).length)

theorem maxSibLevels_tableTops (file : TableFile) (trees : List PerGroupTree) :
    maxSibLevels (tableTops file trees) =
      if trees = [] then 0 else (computeSiblingLevels file.binsPerTable).length := by
  have hmap : (tableTops file trees).map TreeTop.cacheFromLevel =
      List.replicate trees.length (computeSiblingLevels file.binsPerTable).length := by
    rw [tableTops, List.map_map]
    exact List.map_const ..
  rw [maxSibLevels, hmap, List.max?_replicate]
  by_cases h : trees = [] <;> simp [h]

/-- A bin of a table: an existing group and index, and the bytes the file has there. -/
structure IsTableBin (file : TableFile) (p : TableParams) (it : SubItem) : Prop where
  group_lt : it.pbcGroup < p.k
  index_lt : it.binIndex.toNat < file.binsPerTable
  content_eq : ∃ data, groupData file.mmap file.dataOffset it.pbcGroup file.binsPerTable p.binSize =
    some data ∧ it.binContent = binAt data p.binSize it.binIndex.toNat

variable {items : List SubItem}

/-- The row indices one pass of level `t` asks for. -/
def passAt (items : List SubItem) (tableK t pass : ℕ) : List (Option ℕ) :=
  passTargets tableK (passGroupToItem (itemsByGroup (groupsOf items)) pass)
    (items.map fun it => it.binIndex.toNat / arity ^ t)

theorem getElem?_siblingPlans (items : List SubItem) (bins tableK : ℕ) (treeTops : List TreeTop)
    (ht : t < maxSibLevels treeTops) :
    (siblingPlans items bins tableK treeTops)[t]? = some
      { level := t
        levelBinsPerTable := width arity bins (t + 1)
        passes := (List.range (maxItemsPerGroup items)).map (passAt items tableK t) } := by
  rw [siblingPlans, getElem?_levelPlans, getElem?_levelGroupsCount _ _ ht, List.map_map,
    Option.map_some, Nat.zero_add]
  rfl

theorem length_siblingPlans (items : List SubItem) (bins tableK : ℕ) (treeTops : List TreeTop) :
    (siblingPlans items bins tableK treeTops).length = maxSibLevels treeTops := by
  rw [siblingPlans, length_levelPlans]
  generalize maxSibLevels treeTops = m
  induction m generalizing bins with
  | zero => rfl
  | succ m ih => rw [levelGroupsCount, List.length_cons, ih]

/-- Every planned row index is below the row count of its level. -/
theorem target_lt (hitems : ∀ it ∈ items, it.binIndex.toNat < file.binsPerTable) {tableK pass r : ℕ}
    (hr : some r ∈ passAt items tableK t pass) : r < width arity file.binsPerTable (t + 1) := by
  obtain ⟨g, -, htarget⟩ := List.mem_map.1 hr
  obtain ⟨i, hlookup, rfl⟩ := Option.map_eq_some_iff.1 htarget
  rw [lookup_passGroupToItem] at hlookup
  split_ifs at hlookup
  have hgroup := mem_itemsOfGroup.1 (List.mem_of_getElem? hlookup)
  rw [groupsOf, List.getElem?_map, Option.map_eq_some_iff] at hgroup
  obtain ⟨it, hit, -⟩ := hgroup
  have hidx := hitems it (List.mem_of_getElem? hit)
  rw [List.getD_eq_getElem?_getD, List.getElem?_map, hit, Option.map_some, Option.getD_some,
    Nat.div_div_eq_div_mul, ← pow_succ]
  exact div_pow_lt_width (by decide) hidx (t + 1)

/-- The row an item absorbs when every query is answered with the stored row. -/
theorem itemRow_stored {i : ℕ} (hi : items[i]? = some it) {tableK : ℕ} (hg : it.pbcGroup < tableK)
    (sibFile : Bytes) :
    itemRow items i it (((List.range (maxItemsPerGroup items)).map (passAt items tableK t)).map
        fun targets => targets.zipIdx.map fun (target, g) => target.map (storedRow sibFile g)) =
      some (storedRow sibFile it.pbcGroup (it.binIndex.toNat / arity ^ t / arity)) := by
  have hgroup : it.pbcGroup ∈ (groupsOf items).dedup :=
    List.mem_dedup.2 (List.mem_of_getElem? (getElem?_groupsOf hi))
  have htarget : (passAt items tableK t (passOf (groupsOf items) i it.pbcGroup))[it.pbcGroup]? =
      some (some (it.binIndex.toNat / arity ^ t / arity)) := by
    rw [passAt, passTargets, List.getElem?_map, List.getElem?_range hg, Option.map_some,
      lookup_passGroupToItem, if_pos hgroup, getElem?_passOf (getElem?_groupsOf hi),
      Option.map_some,
      List.getD_eq_getElem?_getD, List.getElem?_map, hi, Option.map_some, Option.getD_some]
  rw [itemRow, List.getD_eq_getElem?_getD, List.getD_eq_getElem?_getD, List.map_map,
    List.getElem?_map, List.getElem?_range (passOf_lt_maxItemsPerGroup hi), Option.map_some,
    Option.getD_some, Function.comp_apply, List.getElem?_map, List.getElem?_zipIdx, htarget]
  simp

/-! ## Honest runs -/

theorem sibFile_eq (file : TableFile) (p : TableParams) (trees : List PerGroupTree) (tableType : ℕ)
    (ht : t < (computeSiblingLevels file.binsPerTable).length) :
    (writeSiblingTables trees (computeSiblingLevels file.binsPerTable) p.k tableType).getD t [] =
      writeFlatSiblingTable trees t (width arity file.binsPerTable (t + 1)) p.k
        (bucketSibMagic tableType t) := by
  have hcount := getElem?_levelGroupsCount (computeSiblingLevels file.binsPerTable).length
    file.binsPerTable ht
  rw [levelGroupsCount_computeSiblingLevels] at hcount
  rw [List.getD_eq_getElem?_getD, getElem?_writeSiblingTables trees _ p.k tableType hcount,
    Option.getD_some]

theorem width_lt_two_pow (file : TableFile) (t : ℕ) :
    width arity file.binsPerTable t < 2 ^ 32 :=
  lt_of_le_of_lt (width_le (by decide) _ t) file.binsPerTable_lt

/-- **Every row asked for is stored.** -/
theorem plan_target_lt (tableType : ℕ) (hitems : ∀ it ∈ items, IsTableBin file p it)
    {plan : SiblingLevelPlan}
    (hplan : plan ∈ siblingPlans items file.binsPerTable p.k (tableTops file trees)) :
    plan.level < (computeSiblingLevels file.binsPerTable).length ∧
      ∀ pass ∈ plan.passes, ∀ r, some r ∈ pass → r < storedRowCount
        ((writeSiblingTables trees (computeSiblingLevels file.binsPerTable) p.k tableType).getD
          plan.level []) := by
  obtain ⟨t, ht, rfl⟩ := List.getElem_of_mem hplan
  rw [length_siblingPlans] at ht
  have hlevels : t < (computeSiblingLevels file.binsPerTable).length := by
    rw [maxSibLevels_tableTops] at ht
    split_ifs at ht
    · omega
    · exact ht
  have hget := getElem?_siblingPlans items file.binsPerTable p.k (tableTops file trees) ht
  rw [List.getElem?_eq_getElem (by rwa [length_siblingPlans]), Option.some_inj] at hget
  rw [hget]
  refine ⟨hlevels, ?_⟩
  intro pass hpass r hr
  obtain ⟨pass, -, rfl⟩ := List.mem_map.1 hpass
  rw [sibFile_eq file p trees tableType hlevels,
    storedRowCount_write trees t p.k _ (width_lt_two_pow file (t + 1))]
  exact target_lt (fun it hit => (hitems it hit).index_lt) hr

/-- The stored rows for the queries of some items. -/
abbrev honestRows (file : TableFile) (p : TableParams) (trees : List PerGroupTree) (tableType : ℕ)
    (items : List SubItem) : LevelRows :=
  storedRows (writeSiblingTables trees (computeSiblingLevels file.binsPerTable) p.k tableType)
    (siblingPlans items file.binsPerTable p.k (tableTops file trees))

theorem rowSource_siblingRow (level : List Hash256) (r : ℕ) {c : ℕ} (hc : c < arity) :
    rowSource (some (siblingRow level r)) (r * arity + c) = level.getD (r * arity + c) zeroHash := by
  have hmod : (r * arity + c) % arity = c := by
    rw [Nat.mul_comm, Nat.mul_add_mod, Nat.mod_eq_of_lt hc]
  have hpiece := piece_concat_append (siblings zeroHash arity level r) []
    (c := c) (by simpa using hc)
  rw [List.append_nil] at hpiece
  rw [rowSource, BitcoinPir.rowSource, Option.getD_some, hmod, siblingRow, hpiece]
  simp [siblings]

/-- An item climbs the depth of the tree. -/
theorem length_itemSources {xs : List Hash256}
    (hlevels : tree.levels = levels H concat zeroHash arity xs)
    (hS : allRows.length ≤ depth H concat zeroHash arity xs) (items : List SubItem) (i : ℕ)
    (it : SubItem) :
    (itemSources allRows items i it (topOf (tree, allRows.length))).length =
      depth H concat zeroHash arity xs := by
  have hcount := length_levels H concat zeroHash (k := arity) (by decide) xs
  simp only [itemSources, topOf, List.length_append, List.length_map, List.length_dropLast,
    List.length_drop, hlevels]
  omega

/-- The rows an item absorbs are the groups of a tree. -/
def RowsOf (tree : PerGroupTree) (allRows : LevelRows) (items : List SubItem)
    (i : ℕ) (it : SubItem) : Prop :=
  ∀ t (ht : t < allRows.length), itemRow items i it allRows[t] =
    some (siblingRow (tree.levels.getD t []) (it.binIndex.toNat / arity ^ t / arity))

/-- Where the rows are the tree's groups and the cached levels are the tree's levels, an item's
climb reads the tree's own levels. -/
theorem itemSources_honest {xs : List Hash256}
    (hlevels : tree.levels = levels H concat zeroHash arity xs) {i : ℕ}
    (hS : allRows.length ≤ depth H concat zeroHash arity xs)
    (hrow : RowsOf tree allRows items i it)
    (ht : t < (itemSources allRows items i it (topOf (tree, allRows.length))).length) {c : ℕ}
    (hc : c < arity) :
    (itemSources allRows items i it (topOf (tree, allRows.length)))[t]
        (it.binIndex.toNat / arity ^ t / arity * arity + c) =
      ((parents H concat zeroHash arity)^[t] xs).getD
        (it.binIndex.toNat / arity ^ t / arity * arity + c) zeroHash := by
  have hcount := length_levels H concat zeroHash (k := arity) (by decide) xs
  have hlen := length_itemSources hlevels hS items i it
  have hlevel : tree.levels[t]? =
      some ((parents H concat zeroHash arity)^[t] xs) := by
    rw [hlevels, getElem?_levels H concat zeroHash (by decide) xs (by omega)]
  have hsource := getElem?_itemSources allRows items i it
    (topOf (tree, allRows.length)) t
  rw [List.getElem?_eq_getElem ht] at hsource
  split_ifs at hsource with htS
  · rw [List.getElem?_eq_getElem htS, Option.map_some, hrow t htS, Option.some_inj,
      List.getD_eq_getElem?_getD, hlevel, Option.getD_some] at hsource
    rw [hsource, rowSource_siblingRow _ _ hc]
  · have hcached : (topOf (tree, allRows.length)).levels.dropLast[t - allRows.length]? =
        tree.levels[t]? := by
      have hrange : t - allRows.length < (tree.levels.drop allRows.length).length - 1 := by
        rw [List.length_drop, hlevels]
        omega
      rw [topOf, List.getElem?_dropLast, if_pos hrange, List.getElem?_drop,
        show allRows.length + (t - allRows.length) = t by omega]
    rw [hcached, hlevel, Option.map_some, Option.some_inj] at hsource
    rw [hsource, cacheSource]

/-- Such a climb ends in the root. -/
theorem climb_itemSources {xs : List Hash256} (hne : xs ≠ [])
    (hlevels : tree.levels = levels H concat zeroHash arity xs)
    (hroot : root H concat zeroHash arity xs = some tree.root) {i : ℕ}
    (hi : it.binIndex.toNat < xs.length) (hS : allRows.length ≤ depth H concat zeroHash arity xs)
    (hrow : RowsOf tree allRows items i it) :
    (climb H concat arity
      (itemSources allRows items i it (topOf (tree, allRows.length)))
      (xs.getD it.binIndex.toNat zeroHash) it.binIndex.toNat).1 = tree.root := by
  have hlen := length_itemSources hlevels hS items i it
  obtain ⟨hlt, hclimb⟩ := climb_honest H concat zeroHash (k := arity) (by decide)
    (itemSources allRows items i it (topOf (tree, allRows.length))) xs hi
    fun t ht c hc => itemSources_honest hlevels hS hrow ht hc
  rw [hlen, length_top H concat zeroHash (by decide) hne] at hlt
  have hzero : it.binIndex.toNat / arity ^ depth H concat zeroHash arity xs = 0 :=
    Nat.lt_one_iff.1 hlt
  rw [root_eq H concat zeroHash (by decide) hne, Option.some_inj] at hroot
  rw [hclimb, hlen, hzero, hroot]

/-- Rows in the planned numbers are walked without an error. -/
theorem walkLevels_ok (byGroup : List (ℕ × List ℕ)) {maxItems : ℕ} (level : ℕ)
    (h : ∀ batch ∈ allRows, batch.length = maxItems) (st : List ItemState) :
    ∃ st', walkLevels H byGroup maxItems level allRows st = .ok st' := by
  induction allRows generalizing level st with
  | nil => exact ⟨st, rfl⟩
  | cons batch allRows ih =>
    have hlen : batch.length = maxItems := h batch List.mem_cons_self
    rw [walkLevels, walkLevel, if_neg (by simpa using hlen)]
    exact ih (level + 1) (fun b hb => h b (List.mem_cons_of_mem _ hb)) _

/-- What completeness says of one table: for every list of its bins, the rows asked for exist,
and a querier that answers with the stored rows makes the verification accept them all. -/
def TableComplete (H : Bytes → Hash256) (file : TableFile) (p : TableParams) (tableType : ℕ)
    (sibFiles : List Bytes) (treeTops : List TreeTop) : Prop :=
  ∀ items : List SubItem, (∀ it ∈ items, IsTableBin file p it) →
    (∀ plan ∈ siblingPlans items file.binsPerTable p.k treeTops,
      plan.level < sibFiles.length ∧ ∀ pass ∈ plan.passes, ∀ r, some r ∈ pass →
        r < storedRowCount (sibFiles.getD plan.level [])) ∧
    ∀ (σ : Type) (querier : SiblingQuerier σ) (dbId : ℕ) (s s' : σ),
      querier tableType (siblingPlans items file.binsPerTable p.k treeTops) dbId s =
        .ok (storedRows sibFiles (siblingPlans items file.binsPerTable p.k treeTops), s') →
      verifySiblingLevels H querier items file.binsPerTable p.k tableType treeTops dbId s =
        .ok (items.map fun _ => true, s')

section Stored

variable (htrees : buildTrees H file p.k p.binSize = some trees) (tableType : ℕ)

include htrees

/-- The rows of an item are the groups of its tree. -/
theorem itemRow_honestRows {i : ℕ} (hi : items[i]? = some it) (hit : IsTableBin file p it)
    (htree : trees[it.pbcGroup]? = some tree)
    (ht : t < (computeSiblingLevels file.binsPerTable).length) {batch : List (List (Option Bytes))}
    (hbatch : (honestRows file p trees tableType items)[t]? = some batch) :
    itemRow items i it batch =
      some (siblingRow (tree.levels.getD t []) (it.binIndex.toNat / arity ^ t / arity)) := by
  have hne : trees ≠ [] := by
    rintro rfl
    simp at htree
  have hmax : maxSibLevels (tableTops file trees) =
      (computeSiblingLevels file.binsPerTable).length := by
    rw [maxSibLevels_tableTops, if_neg hne]
  rw [honestRows, storedRows, List.getElem?_map, getElem?_siblingPlans _ _ _ _ (by omega), Option.map_some,
    Option.some_inj] at hbatch
  rw [← hbatch, itemRow_stored hi hit.group_lt, sibFile_eq file p trees tableType ht]
  have hr : it.binIndex.toNat / arity ^ t / arity <
      width arity file.binsPerTable (t + 1) := by
    rw [Nat.div_div_eq_div_mul, ← pow_succ]
    exact div_pow_lt_width (by decide) hit.index_lt (t + 1)
  rw [storedRow_write t _ (width_lt_two_pow file (t + 1)) (length_buildTrees htrees) hr htree]

/-- **Every bin of a table is accepted** when its queries are answered with the stored rows. -/
theorem finishItem_stored {i : ℕ} (hi : items[i]? = some it) (hit : IsTableBin file p it) :
    finishItem H (tableTops file trees) it
      (walkItem H (honestRows file p trees tableType items) items i it) = true := by
  set allRows := honestRows file p trees tableType items with hrows
  obtain ⟨tree, htree, hbuild⟩ := getElem?_buildTrees htrees hit.group_lt
  obtain ⟨data, hdata, -, hpos, hlevels, hroot⟩ := buildGroupTree_eq_some H hbuild
  obtain ⟨data', hdata', hcontent⟩ := hit.content_eq
  obtain rfl : data = data' := Option.some_inj.1 (hdata.symm.trans hdata')
  set xs := leafHashes H data file.binsPerTable p.binSize with hxs
  have hxlen : xs.length = file.binsPerTable := by simp [hxs, leafHashes]
  have hidx := hit.index_lt
  have hne : xs ≠ [] := List.ne_nil_of_length_pos (by omega)
  have hnum : (computeSiblingLevels file.binsPerTable).length = allRows.length := by
    have htrees_ne : trees ≠ [] := by
      rintro rfl
      simp at htree
    rw [hrows, honestRows, storedRows, List.length_map, length_siblingPlans, maxSibLevels_tableTops,
      if_neg htrees_ne]
  have hS := computeSiblingLevels_length_le_depth H xs
  rw [hxlen, hnum] at hS
  have hrow : RowsOf tree allRows items i it := fun t ht =>
    itemRow_honestRows htrees tableType hi hit htree (by omega) (List.getElem?_eq_getElem ht)
  have hwell : ∀ batch ∈ allRows, WellFormedRow (itemRow items i it batch) := by
    intro batch hbatch
    obtain ⟨t, ht, rfl⟩ := List.getElem_of_mem hbatch
    exact ⟨_, hrow t ht, length_siblingRow _ _⟩
  have htop : (tableTops file trees)[it.pbcGroup]? = some (topOf (tree, allRows.length)) := by
    rw [tableTops, List.getElem?_map, htree, hnum]
    rfl
  have htop_root := root_topOf hbuild
  rw [hnum] at htop_root
  have htop_ne : (topOf (tree, allRows.length)).levels ≠ [] := by
    intro hnil
    simp [TreeTop.root, rootOfLevels, hnil] at htop_root
  have hleaf : xs.getD it.binIndex.toNat zeroHash =
      H (binLeafPreimage it.binIndex.toNat it.binContent) := by
    rw [List.getD_eq_getElem _ _ (by omega)]
    simp [hxs, leafHashes, computeBinLeafHash, hcontent]
  have hclimb := climb_itemSources hne hlevels hroot (by omega) hS hrow
  rw [hleaf] at hclimb
  rw [finishItem_wellFormed H hwell htop htop_ne, htop_root, hclimb]
  exact decide_eq_true rfl

/-- The verification succeeds on the stored rows, with the verdict `true` for every item. -/
theorem checkRows_stored (hitems : ∀ it ∈ items, IsTableBin file p it) :
    checkRows H items file.binsPerTable p.k (tableTops file trees)
      (honestRows file p trees tableType items) = .ok (items.map fun _ => true) := by
  set allRows := honestRows file p trees tableType items with hrows
  have hbatch : ∀ batch ∈ allRows, batch.length = maxItemsPerGroup items := by
    intro batch hb
    obtain ⟨plan, hplan, rfl⟩ := List.mem_map.1 hb
    obtain ⟨t, ht, rfl⟩ := List.getElem_of_mem hplan
    have hget := getElem?_siblingPlans items file.binsPerTable p.k (tableTops file trees) (t := t)
      (by rwa [length_siblingPlans] at ht)
    rw [List.getElem?_eq_getElem ht, Option.some_inj] at hget
    rw [hget]
    simp
  obtain ⟨st, hst⟩ := walkLevels_ok (H := H) (itemsByGroup (groupsOf items)) 0 hbatch
    (items.map (SubItem.start H))
  have hok : ∃ oks, checkRows H items file.binsPerTable p.k (tableTops file trees) allRows =
      .ok oks ∧ oks = items.zipWith (finishItem H (tableTops file trees)) st := by
    refine ⟨_, ?_, rfl⟩
    simp only [checkRows]
    rw [if_neg (by simp [hrows, honestRows, storedRows]), hst]
  obtain ⟨oks, hcheck, hzip⟩ := hok
  rw [hcheck]
  congr 1
  apply List.ext_getElem?
  intro i
  cases hi : items[i]? with
  | none =>
    rw [hzip, List.getElem?_zipWith, List.getElem?_map, hi]
    rfl
  | some it =>
    rw [checkRows_getElem? H hi hcheck, List.getElem?_map, hi, Option.map_some,
      finishItem_stored htrees tableType hi (hitems it (List.mem_of_getElem? hi))]

theorem tableComplete_of_buildTrees : TableComplete H file p tableType
      (writeSiblingTables trees (computeSiblingLevels file.binsPerTable) p.k tableType)
      (tableTops file trees) := by
  intro items hitems
  refine ⟨fun plan hplan => ?_, fun σ querier dbId s s' hquery => ?_⟩
  · obtain ⟨hlevel, htargets⟩ := plan_target_lt tableType hitems hplan
    refine ⟨?_, htargets⟩
    simpa [writeSiblingTables] using hlevel
  · rw [verifySiblingLevels, hquery, ok_bind]
    simp only
    rw [checkRows_stored htrees tableType hitems]
    rfl

end Stored

/-- **Completeness.** For files that hold the tables of their groups, the builder succeeds, its
tree-top blob parses, its super-root is accepted, and verification against the parsed tree tops
is complete for both tables. The number of trees has to fit the blob's 32-bit count. -/
theorem bucketMerkle_complete (H : Bytes → Hash256) (ip cp : TableParams)
    (index chunk : TableFile) (hindex : index.HasTables ip) (hchunk : chunk.HasTables cp)
    (hcount : ip.k + cp.k < 2 ^ 32) :
    ∃ files treeTops, buildBucketMerkle H ip cp index chunk = some files ∧
      parseTreeTops files.treeTops = .ok treeTops ∧
      verifyTreeTopsSuperRoot H treeTops ip.k cp.k files.superRoot = .ok () ∧
      TableComplete H index ip 0 files.indexSib (treeTops.take ip.k) ∧
      TableComplete H chunk cp 1 files.chunkSib ((treeTops.drop ip.k).take cp.k) := by
  obtain ⟨indexTrees, hi⟩ := exists_buildTrees (H := H) hindex
  obtain ⟨chunkTrees, hc⟩ := exists_buildTrees (H := H) hchunk
  have hilen := length_buildTrees hi
  have hclen := length_buildTrees hc
  set es := topEntries indexTrees chunkTrees (computeSiblingLevels index.binsPerTable).length
    (computeSiblingLevels chunk.binsPerTable).length with hes
  have hentry : ∀ e ∈ es, (cachedTop e.1 e.2).Fits ∧ (topOf e).root = some e.1.root := by
    intro e he
    rcases List.mem_append.1 he with he | he
    · obtain ⟨tree, htree, rfl⟩ := List.mem_map.1 he
      obtain ⟨g, hg⟩ := exists_of_mem_buildTrees hi htree
      exact ⟨fits_of_buildGroupTree hg, root_topOf hg⟩
    · obtain ⟨tree, htree, rfl⟩ := List.mem_map.1 he
      obtain ⟨g, hg⟩ := exists_of_mem_buildTrees hc htree
      exact ⟨fits_of_buildGroupTree hg, root_topOf hg⟩
  have htops : es.map topOf = tableTops index indexTrees ++ tableTops chunk chunkTrees := by
    rw [hes, topEntries, List.map_append, List.map_map, List.map_map]
    rfl
  have hitops : (tableTops index indexTrees).length = ip.k := by
    rw [tableTops, List.length_map, hilen]
  have hctops : (tableTops chunk chunkTrees).length = cp.k := by
    rw [tableTops, List.length_map, hclen]
  refine ⟨writeBucketMerkle H ip cp index chunk indexTrees chunkTrees, es.map topOf, ?_,
    parseTreeTops_write (by omega) fun e he => (hentry e he).1, ?_, ?_, ?_⟩
  · simp only [buildBucketMerkle, hi, hc, Option.bind_eq_bind, Option.bind_some]
    rfl
  · have := verifyTreeTopsSuperRoot_write H fun e he => (hentry e he).2
    rwa [hilen, hclen] at this
  · rw [htops, List.take_left' hitops]
    exact tableComplete_of_buildTrees hi 0
  · rw [htops, List.drop_left' hitops, List.take_of_length_le hctops.le]
    exact tableComplete_of_buildTrees hc 1

namespace NineThousandBins

/-- An INDEX file with 9000 bins per group, whose bytes count up. -/
def index : TableFile := ⟨(List.range 35100000).map UInt8.ofNat, 9000, 0, by decide⟩

/-- A CHUNK file with 9000 bins per group, whose bytes count up. -/
def chunk : TableFile := ⟨(List.range 95040000).map UInt8.ofNat, 9000, 0, by decide⟩

theorem hasTables_index : index.HasTables indexParams where
  one_le := by decide
  length_le := by
    have hlength : index.mmap.length = 35100000 := by simp [index]
    rw [hlength]
    decide

theorem hasTables_chunk : chunk.HasTables chunkParams where
  one_le := by decide
  length_le := by
    have hlength : chunk.mmap.length = 95040000 := by simp [chunk]
    rw [hlength]
    decide

theorem computeSiblingLevels_nineThousand : computeSiblingLevels 9000 = [1125] := by
  rw [computeSiblingLevels_eq, if_neg (by decide), computeSiblingLevels_eq, if_pos (by decide)]
  rfl

end NineThousandBins

open NineThousandBins in
/-- The hypotheses hold for tables of 9000 bins per group under the standard parameters. Such a
group has one sibling level of 1125 rows. -/
theorem bucketMerkle_complete_nineThousandBins :
    computeSiblingLevels 9000 = [1125] ∧ ∃ files treeTops,
      buildBucketMerkle sha256 indexParams chunkParams index chunk = some files ∧
      parseTreeTops files.treeTops = .ok treeTops ∧
      verifyTreeTopsSuperRoot sha256 treeTops 75 80 files.superRoot = .ok () ∧
      TableComplete sha256 index indexParams 0 files.indexSib (treeTops.take 75) ∧
      TableComplete sha256 chunk chunkParams 1 files.chunkSib ((treeTops.drop 75).take 80) :=
  ⟨computeSiblingLevels_nineThousand, bucketMerkle_complete sha256 indexParams chunkParams index
    chunk hasTables_index hasTables_chunk (by decide)⟩

end BitcoinPir.Bucket
