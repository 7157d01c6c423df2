import BitcoinPir.Core.TreeTops
import BitcoinPir.Foundations.Lists

/-!
# The OnionPIR Merkle builder

One tree per PBC group over the hashes of the group's bins, with as many children per node as
hashes fit an OnionPIR plaintext. Unlike the bucket trees, the leaf hash is taken of the bin
alone: neither the bin index nor a domain prefix goes into it, and a bin is exactly as long as
the preimage of an inner node.

`BinTable` is a table of bins of one size, laid out group after group; `buildTrees` makes the
tree of every group and `superRootOf` commits to the roots of both tables.
-/

namespace BitcoinPir.Onion

open Foundations

/-- The number of groups and the number of bins per group, a 32-bit field of the builder's
input. -/
structure TableShape where
  k : ℕ
  binsPerTable : ℕ
  binsPerTable_pos : 0 < binsPerTable
  binsPerTable_lt : binsPerTable < 2 ^ 32

/-- A table of bins of `entrySize` bytes each, the bins of group 0 first. -/
structure BinTable (entrySize : ℕ) (shape : TableShape) where
  bins : List Bytes
  length_bins : bins.length = shape.k * shape.binsPerTable
  length_bin : ∀ bin ∈ bins, bin.length = entrySize

/-- The `g`-th of consecutive stretches of `binsPerTable` entries. -/
def groupSlice {α : Type*} (entries : List α) (binsPerTable g : ℕ) : List α :=
  (entries.drop (g * binsPerTable)).take binsPerTable

theorem groupSlice_map {α β : Type*} (f : α → β) (entries : List α) (binsPerTable g : ℕ) :
    groupSlice (entries.map f) binsPerTable g = (groupSlice entries binsPerTable g).map f := by
  rw [groupSlice, groupSlice, ← List.map_drop, ← List.map_take]

namespace BinTable

variable {entrySize : ℕ} {shape : TableShape} (table : BinTable entrySize shape)

def group (g : ℕ) : List Bytes := groupSlice table.bins shape.binsPerTable g

theorem length_group {g : ℕ} (hg : g < shape.k) : (table.group g).length = shape.binsPerTable := by
  have hend : (g + 1) * shape.binsPerTable ≤ shape.k * shape.binsPerTable :=
    Nat.mul_le_mul_right _ hg
  rw [Nat.add_mul] at hend
  rw [group, groupSlice, List.length_take, List.length_drop, table.length_bins]
  omega

end BinTable

variable (H : Bytes → Hash256)

def buildGroupTree (leafHashes : List Hash256) (arity : ℕ) : Option PerGroupTree :=
  treeOfLeaves H arity leafHashes

/-- The trees of all `k` groups, from the leaf hashes of all of them. -/
def buildTrees (k binsPerTable : ℕ) (leafHashes : List Hash256) (arity : ℕ) :
    Option (List PerGroupTree) :=
  (List.range k).mapM fun g => buildGroupTree H (groupSlice leafHashes binsPerTable g) arity

/-- The super-root: the hash of the INDEX roots followed by the DATA roots. -/
def superRootOf (indexTrees dataTrees : List PerGroupTree) : Hash256 :=
  H (Digest.concat ((indexTrees ++ dataTrees).map PerGroupTree.root))

namespace BinTable

variable {entrySize : ℕ} {shape : TableShape} (table : BinTable entrySize shape)

def leafHashes : List Hash256 := table.bins.map H

def trees (arity : ℕ) : Option (List PerGroupTree) :=
  buildTrees H shape.k shape.binsPerTable (table.leafHashes H) arity

variable {H table}

theorem exists_trees (table : BinTable entrySize shape) {arity : ℕ} (harity : 2 ≤ arity) :
    ∃ trees, table.trees H arity = some trees := by
  apply exists_mapM_eq_some
  intro g hg
  have hne : groupSlice (table.leafHashes H) shape.binsPerTable g ≠ [] := by
    apply List.ne_nil_of_length_pos
    rw [leafHashes, groupSlice_map, List.length_map]
    change 0 < (table.group g).length
    rw [table.length_group (List.mem_range.1 hg)]
    exact shape.binsPerTable_pos
  exact exists_treeOfLeaves H harity hne

theorem length_trees {arity : ℕ} {trees : List PerGroupTree}
    (h : table.trees H arity = some trees) : trees.length = shape.k := by
  rw [length_mapM h, List.length_range]

/-- The tree of a group is the hash tree over the group's bins. -/
theorem getElem?_trees {arity : ℕ} (harity : 2 ≤ arity) {trees : List PerGroupTree}
    (h : table.trees H arity = some trees) {g : ℕ} (hg : g < shape.k) :
    ∃ tree, trees[g]? = some tree ∧
      tree.levels = HashTree.levels H Digest.concat zeroHash arity ((table.group g).map H) ∧
      HashTree.root H Digest.concat zeroHash arity ((table.group g).map H) = some tree.root := by
  obtain ⟨tree, hget, htree⟩ := getElem?_mapM h (i := g) (a := g) (by rw [List.getElem?_range hg])
  rw [leafHashes, groupSlice_map] at htree
  obtain ⟨-, hlevels, hroot⟩ := (treeOfLeaves_eq_some harity).1 htree
  exact ⟨tree, hget, hlevels, hroot⟩

end BinTable

end BitcoinPir.Onion
