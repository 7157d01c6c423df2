import BitcoinPir.Bucket.Walk

/-!
# Soundness of the bucket-Merkle verification

An accepted bin is the committed bin (`verifySiblingLevels_sound`). The servers choose the tree
tops, hence the depth of every walk, and all sibling rows; only the root of the item's tree top
is the committed one. The walk from the root down follows the committed tree as far as both go
(`HashTree.opening_cases`):

* a walk of the tree's own depth ends at a leaf preimage, which begins with the bin index;
* a longer walk would hash a group of eight hashes where the tree hashes a leaf preimage, and
  the two have different lengths;
* a shorter walk takes an inner node's preimage for a bin, which is the escape the statement
  names.
-/

namespace BitcoinPir.Bucket

open Foundations HashTree

variable (H : Bytes → Hash256)

/-! ## The committed tree -/

theorem leafHashes_eq (data : Bytes) (binsPerTable binSize : ℕ) :
    leafHashes H data binsPerTable binSize = (leafPreimages data binsPerTable binSize).map H := by
  rw [leafPreimages, List.map_map]
  rfl

@[simp] theorem length_leafPreimages (data : Bytes) (binsPerTable binSize : ℕ) :
    (leafPreimages data binsPerTable binSize).length = binsPerTable := by
  simp [leafPreimages]

/-- The byte strings hashed to build the tree of one group. -/
def builderMessages (data : Bytes) (binsPerTable binSize : ℕ) : List Bytes :=
  treeMessages H Digest.concat zeroHash arity (leafPreimages data binsPerTable binSize)

/-- The preimages of the inner nodes of the tree of one group. -/
def innerPreimages (data : Bytes) (binsPerTable binSize : ℕ) : List Bytes :=
  nodeMessages H Digest.concat zeroHash arity (leafHashes H data binsPerTable binSize)

variable {binsPerTable binSize : ℕ}

/-- What a successful build says: the file has the group's bins, there is at least one, and
levels and root are the hash tree over the leaf hashes. -/
theorem buildGroupTree_eq_some {mmap : Bytes} {dataOffset groupId : ℕ} {tree : PerGroupTree}
    (h : buildGroupTree H mmap dataOffset groupId binsPerTable binSize = some tree) :
    ∃ data, groupData mmap dataOffset groupId binsPerTable binSize = some data ∧
      data.length = binsPerTable * binSize ∧ 0 < binsPerTable ∧
      tree.levels = levels H Digest.concat zeroHash arity
        (leafHashes H data binsPerTable binSize) ∧
      root H Digest.concat zeroHash arity
        (leafHashes H data binsPerTable binSize) = some tree.root := by
  simp only [buildGroupTree, Option.bind_eq_bind, Option.bind_eq_some_iff] at h
  obtain ⟨data, hdata, htree⟩ := h
  obtain ⟨hne, hlevels, hroot⟩ := (treeOfLeaves_eq_some (by decide)).1 htree
  refine ⟨data, hdata, ?_, ?_, hlevels, hroot⟩
  · unfold groupData at hdata
    simp only at hdata
    split_ifs at hdata with hle
    cases hdata
    rw [List.length_take, List.length_drop]
    omega
  · by_contra hzero
    have hzero : binsPerTable = 0 := by omega
    subst hzero
    exact hne (by simp [leafHashes])

theorem length_binAt {data : Bytes} {i : ℕ} (hlen : data.length = binsPerTable * binSize)
    (hi : i < binsPerTable) :
    (binAt data binSize i).length = binSize := by
  have : (i + 1) * binSize ≤ binsPerTable * binSize := Nat.mul_le_mul_right _ hi
  rw [Nat.add_mul] at this
  rw [binAt, List.length_take, List.length_drop]
  omega

theorem length_of_mem_leafPreimages {data : Bytes} (hlen : data.length = binsPerTable * binSize)
    {x : Bytes} (hx : x ∈ leafPreimages data binsPerTable binSize) : x.length = 4 + binSize := by
  obtain ⟨i, hi, rfl⟩ := List.mem_map.1 hx
  rw [binLeafPreimage, List.length_append, length_leBytes,
    length_binAt hlen (List.mem_range.1 hi)]

/-- Every group hashed by a climb is 256 bytes. -/
theorem length_of_mem_climbMessages {ss : List (ℕ → Hash256)} {h : Hash256} {i : ℕ} {x : Bytes}
    (hx : x ∈ climbMessages H Digest.concat arity ss h i) : x.length = sibRowSize := by
  induction ss generalizing h i with
  | nil => simp [climbMessages] at hx
  | cons s ss ih =>
    rcases List.mem_cons.1 hx with rfl | hx
    · rw [Digest.length_concat, length_group]
      rfl
    · exact ih hx

/-- A bin index below `2 ^ 32` that agrees with a position modulo `2 ^ 32`, the position being
the index without its high digits, is that position: a tree of depth 11 or more has no room for
dropped digits, and a shallower one has fewer than `2 ^ 32` leaves. -/
theorem binIndex_eq_position {binIndex d : ℕ} (hlt : binIndex < 2 ^ 32)
    (h : binIndex % arity ^ d % 256 ^ 4 = binIndex % 256 ^ 4) : binIndex % arity ^ d = binIndex := by
  have h256 : (256 : ℕ) ^ 4 = 4294967296 := by norm_num
  have hself : binIndex % 4294967296 = binIndex := Nat.mod_eq_of_lt hlt
  rw [h256, hself] at h
  by_cases hd : 11 ≤ d
  · have hpow : arity ^ 11 ≤ arity ^ d := Nat.pow_le_pow_right (by decide) hd
    have h11 : arity ^ 11 = 8589934592 := by decide
    exact Nat.mod_eq_of_lt (by omega)
  · have hpow : arity ^ d ≤ arity ^ 10 := Nat.pow_le_pow_right (by decide) (by omega)
    have h10 : arity ^ 10 = 1073741824 := by decide
    have hmod : binIndex % arity ^ d < arity ^ d := Nat.mod_lt _ (Nat.pow_pos (by decide))
    rwa [Nat.mod_eq_of_lt (lt_of_lt_of_le hmod (by omega))] at h

/-! ## The result -/

/-- An accepted item, opened against the committed root of its group. -/
theorem finishItem_sound {mmap : Bytes} {dataOffset : ℕ} {tree : PerGroupTree}
    (hsize : 4 + binSize ≠ 256) {items : List SubItem} {i : ℕ} {it : SubItem}
    (hbuild : buildGroupTree H mmap dataOffset it.pbcGroup binsPerTable binSize = some tree)
    {allRows : LevelRows} {treeTops : List TreeTop} {top : TreeTop}
    (htop : treeTops[it.pbcGroup]? = some top) (hroot : top.root = some tree.root)
    (hok : finishItem H treeTops it (walkItem H allRows items i it) = true) :
    ∃ data, groupData mmap dataOffset it.pbcGroup binsPerTable binSize = some data ∧
      ((it.binIndex.toNat < binsPerTable ∧
          it.binContent = binAt data binSize it.binIndex.toNat) ∨
        Collides H (itemMessages H allRows items i it top ++
          builderMessages H data binsPerTable binSize) ∨
        Hits H zeroHash (itemMessages H allRows items i it top) ∨
        binLeafPreimage it.binIndex.toNat it.binContent ∈
          innerPreimages H data binsPerTable binSize) := by
  obtain ⟨data, hdata, hlen, hpos, -, htree⟩ := buildGroupTree_eq_some H hbuild
  obtain ⟨top', htop', -, hclimb⟩ := finishItem_start H hok
  obtain rfl : top = top' := Option.some_inj.1 (htop.symm.trans htop')
  rw [hroot, Option.getD_some] at hclimb
  have hne : leafPreimages data binsPerTable binSize ≠ [] := by
    apply List.ne_nil_of_length_pos
    rwa [length_leafPreimages]
  rw [← hclimb, leafHashes_eq] at htree
  refine ⟨data, hdata, ?_⟩
  rcases opening_cases H Digest.concat zeroHash (by decide) (concat_inj_of_length arity)
    hne htree with (hcol | hhit) | ⟨-, hleaf⟩ | ⟨-, hinner⟩ | ⟨-, x, hx, hxs⟩
  · exact .inr (.inl hcol)
  · exact .inr (.inr (.inl hhit))
  · -- the walk has the tree's depth: the leaf preimages are equal
    obtain ⟨hlt, hget⟩ := List.getElem?_eq_some_iff.1 hleaf
    rw [length_leafPreimages] at hlt
    simp only [leafPreimages, List.getElem_map, List.getElem_range, binLeafPreimage] at hget
    obtain ⟨hidx, hcontent⟩ := leBytes_append_inj hget
    have heq := binIndex_eq_position it.binIndex.toNat_lt hidx
    rw [heq] at hlt hcontent
    exact .inl ⟨hlt, hcontent.symm⟩
  · rw [← leafHashes_eq] at hinner
    exact .inr (.inr (.inr hinner))
  · -- a longer walk hashes 256 bytes where the tree hashes a leaf preimage
    have h₁ := length_of_mem_climbMessages H hx
    have h₂ := length_of_mem_leafPreimages hlen hxs
    exact absurd (h₂.symm.trans h₁) hsize

/-- **Soundness.** If the verification accepts an item of a group whose tree top declares the
committed root, then the item's bytes are the committed bin at the item's index; or the byte
strings hashed for the item and for building the group's tree contain a collision; or one hashed
for the item is a preimage of the padding hash; or the item's leaf preimage is the preimage of
an inner node. The tree tops, the rows, their number and their sizes are arbitrary. -/
theorem verifySiblingLevels_sound {σ : Type} (querier : SiblingQuerier σ)
    (mmap : Bytes) (dataOffset binsPerTable binSize : ℕ) (hsize : 4 + binSize ≠ 256)
    (items : List SubItem) (bins tableK tableType dbId : ℕ) (treeTops : List TreeTop)
    (s s' : σ) (oks : List Bool)
    (hrun : verifySiblingLevels H querier items bins tableK tableType treeTops dbId s =
      .ok (oks, s'))
    (i : ℕ) (it : SubItem) (hi : items[i]? = some it) (hok : oks[i]? = some true)
    (tree : PerGroupTree)
    (hbuild : buildGroupTree H mmap dataOffset it.pbcGroup binsPerTable binSize = some tree)
    (top : TreeTop) (htop : treeTops[it.pbcGroup]? = some top)
    (hroot : top.root = some tree.root) :
    ∃ data allRows, groupData mmap dataOffset it.pbcGroup binsPerTable binSize = some data ∧
      querier tableType (siblingPlans items bins tableK treeTops) dbId s = .ok (allRows, s') ∧
      ((it.binIndex.toNat < binsPerTable ∧
          it.binContent = binAt data binSize it.binIndex.toNat) ∨
        Collides H (itemMessages H allRows items i it top ++
          builderMessages H data binsPerTable binSize) ∨
        Hits H zeroHash (itemMessages H allRows items i it top) ∨
        binLeafPreimage it.binIndex.toNat it.binContent ∈
          innerPreimages H data binsPerTable binSize) := by
  unfold verifySiblingLevels at hrun
  cases hq : querier tableType (siblingPlans items bins tableK treeTops) dbId s with
  | error e => simp [hq, bind, Except.bind] at hrun
  | ok r =>
    obtain ⟨allRows, s₁⟩ := r
    simp only [hq, bind, Except.bind] at hrun
    cases hc : checkRows H items bins tableK treeTops allRows with
    | error e => simp [hc] at hrun
    | ok oks₁ =>
      simp only [hc, pure, Except.pure, Except.ok.injEq, Prod.mk.injEq] at hrun
      obtain ⟨rfl, rfl⟩ := hrun
      have hverdict := checkRows_getElem? H hi hc
      rw [hok, Option.some_inj] at hverdict
      obtain ⟨data, hdata, hcases⟩ :=
        finishItem_sound H hsize hbuild htop hroot hverdict.symm
      exact ⟨data, allRows, hdata, rfl, hcases⟩

namespace TwoBins

/-- The leaves of a table of two one-byte bins. -/
def leaves : List Hash256 := [computeBinLeafHash sha256 0 [7], computeBinLeafHash sha256 1 [9]]

/-- The tree over them. -/
def tree : PerGroupTree :=
  let root := computeParentN sha256 (siblings zeroHash arity leaves 0)
  ⟨[leaves, [root]], root⟩

/-- A tree top that caches only the root. -/
def top : TreeTop := ⟨1, [[tree.root]]⟩

/-- The server answers with the one sibling row. -/
def querier : SiblingQuerier Unit := fun _ _ _ s => .ok ([[[some (siblingRow leaves 0)]]], s)

def item : SubItem := ⟨0, 1, [9]⟩

end TwoBins

/-- The hypotheses hold for an honest run over two bins. -/
theorem verifySiblingLevels_sound_twoBins :
    ∃ data allRows, groupData [7, 9] 0 0 2 1 = some data ∧
      TwoBins.querier 0 (siblingPlans [TwoBins.item] 2 1 [TwoBins.top]) 0 () = .ok (allRows, ()) ∧
      ((TwoBins.item.binIndex.toNat < 2 ∧
          TwoBins.item.binContent = binAt data 1 TwoBins.item.binIndex.toNat) ∨
        Collides sha256 (itemMessages sha256 allRows [TwoBins.item] 0 TwoBins.item
          TwoBins.top ++ builderMessages sha256 data 2 1) ∨
        Hits sha256 zeroHash
          (itemMessages sha256 allRows [TwoBins.item] 0 TwoBins.item TwoBins.top) ∨
        binLeafPreimage TwoBins.item.binIndex.toNat TwoBins.item.binContent ∈
          innerPreimages sha256 data 2 1) :=
  verifySiblingLevels_sound sha256 TwoBins.querier [7, 9] 0 2 1 (by decide) [TwoBins.item] 2 1 0 0
    [TwoBins.top] () () [true] (by decide +kernel) 0 TwoBins.item rfl rfl TwoBins.tree
    (by decide +kernel) TwoBins.top rfl rfl

end BitcoinPir.Bucket
