import BitcoinPir.Onion.Soundness

/-!
# The files of the OnionPIR Merkle builder

From the leaf hashes of the INDEX and of the DATA bins the builder makes one tree per group,
and writes for each kind the sibling databases (the lowest level, one row per parent), for both
kinds the tree tops (all levels above), and the super-root. `buildTreeKind` has the builder's
assertions, `none` is one that fails. The hashes are taken as they are in the input file.

What a run without a failed assertion establishes is `KindBuilt`.
-/

namespace BitcoinPir.Onion

open Foundations HashTree Digest

variable (H : Bytes → Hash256)

/-- The leaf hashes of one kind, group after group. Bins are counted in 32 bits; the number of
groups is 75 or 80, and fits the one byte in which a sibling batch counts them. -/
structure BinHashes where
  k : ℕ
  binsPerTable : ℕ
  hashes : List Hash256
  length_hashes : hashes.length = k * binsPerTable
  k_lt : k < 2 ^ 8
  binsPerTable_lt : binsPerTable < 2 ^ 32

def BinHashes.group (file : BinHashes) (g : ℕ) : List Hash256 :=
  groupSlice file.hashes file.binsPerTable g

/-- What the builder asks the library about a database of some number of plaintexts. -/
structure ShapeInfo where
  numPlaintexts : ℕ
  entrySize : ℕ

/-- The level the tree tops start at; the levels below are in sibling databases. -/
def cacheFromLevel : ℕ := 1

/-- The number of rows of a group's sibling database. -/
def numPtOf (tree : PerGroupTree) : ℕ := (tree.levels.getD cacheFromLevel []).length

/-- The sibling database of a group: row `r` has the children of node `r` of level 1, and zero
hashes past the last leaf. -/
def buildGroupSiblingDb (tree : PerGroupTree) (arity : ℕ) : List Bytes :=
  let leaves := tree.levels.getD 0 []
  (List.range (numPtOf tree)).map fun r =>
    concat ((List.range arity).map fun c =>
      if r * arity + c < leaves.length then leaves.getD (r * arity + c) zeroHash else zeroHash)

structure SiblingFile where
  k : ℕ
  arity : ℕ
  numPt : ℕ
  dbs : List (List Bytes)

def buildTreeKind (paramsInfo : ℕ → ShapeInfo) (file : BinHashes) (arity : ℕ) :
    Option (List PerGroupTree × SiblingFile) := do
  let trees ← buildTrees H file.k file.binsPerTable file.hashes arity
  let first ← trees.head?
  guard (2 ≤ first.levels.length)
  let numPt := numPtOf first
  guard (2 ≤ numPt)
  guard (∀ tree ∈ trees, tree.levels.length - 1 = first.levels.length - 1 ∧ numPtOf tree = numPt)
  guard ((paramsInfo numPt).numPlaintexts = numPt)
  guard ((paramsInfo numPt).entrySize = arity * 32)
  return (trees, ⟨file.k, arity, numPt, trees.map fun tree => buildGroupSiblingDb tree arity⟩)

/-- The part of a tree that goes into the blob. -/
def topOf (arity : ℕ) (tree : PerGroupTree) : OnionTreeTopCache where
  cacheFromLevel := cacheFromLevel
  arity := arity
  levels := tree.levels.drop cacheFromLevel

def writeTops (tops : List OnionTreeTopCache) : Bytes :=
  leBytes 4 tops.length ++ tops.flatMap writeTreeTop

/-- The tree tops of all groups, INDEX groups first. -/
def writeTreeTops (indexTrees dataTrees : List PerGroupTree) (arity : ℕ) : Bytes :=
  writeTops ((indexTrees ++ dataTrees).map (topOf arity))

/-- What the builder leaves behind. -/
structure OnionFiles where
  treeTops : Bytes
  superRoot : Hash256
  indexSiblings : SiblingFile
  dataSiblings : SiblingFile

def OnionFiles.siblings (files : OnionFiles) : OnionTreeKind → SiblingFile
  | .index => files.indexSiblings
  | .data => files.dataSiblings

/-- The builder's run. -/
def buildMerkleOnion (paramsInfo : ℕ → ShapeInfo) (index data : BinHashes) (arity : ℕ) :
    Option OnionFiles := do
  let (indexTrees, indexSiblings) ← buildTreeKind H paramsInfo index arity
  let (dataTrees, dataSiblings) ← buildTreeKind H paramsInfo data arity
  return {
    treeTops := writeTreeTops indexTrees dataTrees arity
    superRoot := superRootOf H indexTrees dataTrees
    indexSiblings
    dataSiblings }

/-! ## One kind -/

variable {H} {paramsInfo : ℕ → ShapeInfo} {arity : ℕ} {file : BinHashes}

theorem BinHashes.length_group (file : BinHashes) {g : ℕ} (hg : g < file.k) :
    (file.group g).length = file.binsPerTable := by
  have hend : (g + 1) * file.binsPerTable ≤ file.k * file.binsPerTable :=
    Nat.mul_le_mul_right _ hg
  rw [Nat.add_mul] at hend
  rw [group, groupSlice, List.length_take, List.length_drop, file.length_hashes]
  omega

theorem BinHashes.getElem?_group (file : BinHashes) (g : ℕ) {bin : ℕ}
    (hbin : bin < file.binsPerTable) :
    (file.group g)[bin]? = file.hashes[g * file.binsPerTable + bin]? := by
  rw [group, groupSlice, List.getElem?_take_of_lt hbin, List.getElem?_drop]

/-- What the assertions leave to be used: every group has the tree of its leaves, there is a
level above the leaves, and its width is the number of rows. -/
structure KindBuilt (H : Bytes → Hash256) (paramsInfo : ℕ → ShapeInfo) (arity : ℕ)
    (file : BinHashes) (trees : List PerGroupTree) (siblings : SiblingFile) : Prop where
  length_trees : trees.length = file.k
  treeOf : ∀ g < file.k, ∃ tree, trees[g]? = some tree ∧
    treeOfLeaves H arity (file.group g) = some tree
  one_lt_bins : 1 < file.binsPerTable
  numPt_eq : siblings.numPt = file.binsPerTable ⌈/⌉ arity
  two_le_numPt : 2 ≤ siblings.numPt
  k_eq : siblings.k = file.k
  dbs_eq : siblings.dbs = trees.map fun tree => buildGroupSiblingDb tree arity
  entrySize_eq : (paramsInfo siblings.numPt).entrySize = arity * 32

theorem levels_of_treeOfLeaves (harity : 2 ≤ arity) {xs : List Hash256} {tree : PerGroupTree}
    (h : treeOfLeaves H arity xs = some tree) :
    tree.levels = levels H concat zeroHash arity xs ∧
      tree.levels.length = depth H concat zeroHash arity xs + 1 ∧
      ∀ t ≤ depth H concat zeroHash arity xs,
        tree.levels[t]? = some ((parents H concat zeroHash arity)^[t] xs) := by
  obtain ⟨-, hlevels, -⟩ := (treeOfLeaves_eq_some harity).1 h
  rw [hlevels]
  exact ⟨rfl, length_levels H concat zeroHash harity xs,
    fun t ht => getElem?_levels H concat zeroHash harity xs ht⟩

theorem numPtOf_eq (harity : 2 ≤ arity) {xs : List Hash256} {tree : PerGroupTree}
    (h : treeOfLeaves H arity xs = some tree)
    (hdepth : 1 ≤ depth H concat zeroHash arity xs) :
    numPtOf tree = xs.length ⌈/⌉ arity := by
  obtain ⟨-, -, hget⟩ := levels_of_treeOfLeaves harity h
  rw [numPtOf, cacheFromLevel, List.getD_eq_getElem?_getD, hget 1 hdepth, Option.getD_some,
    Function.iterate_one, length_parents]

theorem one_le_depth (harity : 2 ≤ arity) {xs : List Hash256} (h : 1 < xs.length) :
    1 ≤ depth H concat zeroHash arity xs := by
  rw [depth_of_one_lt H concat zeroHash harity h]
  omega

theorem buildTreeKind_eq_some (harity : 2 ≤ arity) {trees : List PerGroupTree}
    {siblings : SiblingFile}
    (h : buildTreeKind H paramsInfo file arity = some (trees, siblings)) :
    KindBuilt H paramsInfo arity file trees siblings := by
  simp only [buildTreeKind, Option.bind_eq_bind, Option.bind_eq_some_iff, Option.guard_eq_some'] at h
  obtain ⟨trees', htrees, first, hfirst, -, hlevels, -, hnum, -, -, -, -, -, hsize, h⟩ := h
  cases h
  have hlen : trees.length = file.k := by
    rw [length_mapM htrees, List.length_range]
  have htree : ∀ g < file.k, ∃ tree, trees[g]? = some tree ∧
      treeOfLeaves H arity (file.group g) = some tree :=
    fun g hg => getElem?_mapM htrees (by rw [List.getElem?_range hg])
  have hpos : 0 < file.k := by
    rw [← hlen]
    exact List.length_pos_of_mem (List.mem_of_head? hfirst)
  obtain ⟨tree, hget, hbuild⟩ := htree 0 hpos
  obtain rfl : first = tree := by
    rw [List.head?_eq_getElem?, hget, Option.some_inj] at hfirst
    exact hfirst.symm
  obtain ⟨-, hcount, -⟩ := levels_of_treeOfLeaves harity hbuild
  have hone : 1 < (file.group 0).length := by
    by_contra hle
    rw [depth_of_le_one H concat zeroHash (not_lt.1 hle)] at hcount
    omega
  have hbins := file.length_group hpos
  refine ⟨hlen, htree, hbins ▸ hone, ?_, hnum, rfl, rfl, hsize⟩
  rw [← hbins]
  exact numPtOf_eq harity hbuild (one_le_depth harity hone)

namespace KindBuilt

variable {trees : List PerGroupTree} {siblings : SiblingFile}
  (hk : KindBuilt H paramsInfo arity file trees siblings)

include hk

theorem exists_of_mem {tree : PerGroupTree} (h : tree ∈ trees) :
    ∃ g < file.k, treeOfLeaves H arity (file.group g) = some tree := by
  obtain ⟨g, hg, rfl⟩ := List.getElem_of_mem h
  rw [hk.length_trees] at hg
  obtain ⟨tree, hget, hbuild⟩ := hk.treeOf g hg
  obtain ⟨_, rfl⟩ := List.getElem?_eq_some_iff.1 hget
  exact ⟨g, hg, hbuild⟩

/-- Every tree top fits its fields. -/
theorem fits (harity : 2 ≤ arity) (harity_lt : arity < 2 ^ 16) {tree : PerGroupTree}
    (h : tree ∈ trees) : (topOf arity tree).Fits := by
  obtain ⟨g, hg, hbuild⟩ := hk.exists_of_mem h
  obtain ⟨-, hcount, hlevel⟩ := levels_of_treeOfLeaves harity hbuild
  have hlen := file.length_group hg
  have hbins := file.binsPerTable_lt
  have hdepth : depth H concat zeroHash arity (file.group g) ≤ 32 :=
    depth_le H concat zeroHash harity (by omega)
  refine ⟨show cacheFromLevel < 256 by decide, harity_lt, ?_, ?_⟩
  · change (tree.levels.drop cacheFromLevel).length < 256
    rw [List.length_drop]
    omega
  · intro level hmem
    obtain ⟨t, ht⟩ := List.getElem?_of_mem (List.mem_of_mem_drop hmem)
    have hlt := (List.getElem?_eq_some_iff.1 ht).1
    rw [hlevel t (by omega), Option.some_inj] at ht
    have := length_iterate_parents_le H concat zeroHash (k := arity) (by omega) t
      (file.group g)
    rw [← ht]
    omega

theorem rootOf_topOf (harity : 2 ≤ arity) {tree : PerGroupTree} (h : tree ∈ trees) :
    rootOf (topOf arity tree) = some tree.root := by
  obtain ⟨g, hg, hbuild⟩ := hk.exists_of_mem h
  obtain ⟨hlevels, hcount, -⟩ := levels_of_treeOfLeaves harity hbuild
  obtain ⟨-, -, hroot⟩ := (treeOfLeaves_eq_some harity).1 hbuild
  have hone := hk.one_lt_bins
  have hdepth : 1 ≤ depth H concat zeroHash arity (file.group g) :=
    one_le_depth harity (by rw [file.length_group hg]; exact hone)
  rw [← hroot, root, ← hlevels, rootOf, rootOfLevels, topOf, List.getLast?_drop, if_neg]
  rw [cacheFromLevel]
  omega

/-- Every bin is below a stored row. -/
theorem row_lt_numPt (harity : 2 ≤ arity) {bin : ℕ} (h : bin < file.binsPerTable) :
    bin / arity < siblings.numPt := by
  have hpos : 0 < arity := by omega
  rw [hk.numPt_eq, lt_ceilDiv_iff hpos]
  exact lt_of_le_of_lt (Nat.div_mul_le_self _ _) h

/-- The row stored for a parent: the leaves below it. -/
theorem getElem?_dbs (harity : 2 ≤ arity) {g r : ℕ} (hg : g < file.k) (hr : r < siblings.numPt) :
    (siblings.dbs[g]?).bind (fun db => db[r]?) =
      some (concat (HashTree.siblings zeroHash arity (file.group g) r)) := by
  obtain ⟨tree, hget, hbuild⟩ := hk.treeOf g hg
  obtain ⟨-, -, hlevel⟩ := levels_of_treeOfLeaves harity hbuild
  have hleaves : tree.levels.getD 0 [] = file.group g := by
    rw [List.getD_eq_getElem?_getD, hlevel 0 (Nat.zero_le _)]
    rfl
  have hone := hk.one_lt_bins
  have hlen := file.length_group hg
  have hnum : numPtOf tree = siblings.numPt := by
    rw [numPtOf_eq harity hbuild (one_le_depth harity (by omega)), hlen, hk.numPt_eq]
  rw [hk.dbs_eq, List.getElem?_map, hget, Option.map_some, Option.bind_some, buildGroupSiblingDb,
    List.getElem?_map, List.getElem?_range (by rw [hnum]; exact hr), Option.map_some, hleaves]
  congr 2
  apply List.map_congr_left
  intro c _
  split_ifs with hlt
  · rfl
  · rw [List.getD_eq_default _ _ (not_lt.1 hlt)]

end KindBuilt

end BitcoinPir.Onion
