import BitcoinPir.Bucket.Verify

/-!
# The tree-top blob, written and read back

`parseTreeTops` reads back what `writeTreeTops` writes (`parseTreeTops_write`), as long as every
count fits the field it is written to: 32 bits for the number of trees and the size of a level,
one byte for the number of sibling levels and of cached levels. The roots read back are the
trees' roots, so the super-root check accepts the builder's super-root
(`verifyTreeTopsSuperRoot_write`).
-/

namespace BitcoinPir.Bucket

open Foundations

/-- The tree top the client reads back for a tree with its number of sibling levels. -/
def topOf (e : PerGroupTree × ℕ) : TreeTop where
  cacheFromLevel := e.2
  levels := e.1.levels.drop e.2

/-- The trees of both tables with their numbers of sibling levels, in protocol order. -/
def topEntries (indexTrees chunkTrees : List PerGroupTree) (indexLevels chunkLevels : ℕ) :
    List (PerGroupTree × ℕ) :=
  indexTrees.map (·, indexLevels) ++ chunkTrees.map (·, chunkLevels)

theorem writeTreeTops_eq (indexTrees chunkTrees : List PerGroupTree)
    (indexSibLevels chunkSibLevels : List ℕ) :
    writeTreeTops indexTrees chunkTrees indexSibLevels chunkSibLevels =
      leBytes 4 (indexTrees.length + chunkTrees.length) ++
        (topEntries indexTrees chunkTrees indexSibLevels.length chunkSibLevels.length).flatMap
          fun e => writeOneTreeTop e.1 e.2 := by
  rw [writeTreeTops, topEntries, List.flatMap_append, List.flatMap_map, List.flatMap_map]

/-- **The builder's blob parses** to the tree tops it was written from. -/
theorem parseTreeTops_write {indexTrees chunkTrees : List PerGroupTree}
    {indexSibLevels chunkSibLevels : List ℕ}
    (hcount : indexTrees.length + chunkTrees.length < 2 ^ 32)
    (h : ∀ e ∈ topEntries indexTrees chunkTrees indexSibLevels.length chunkSibLevels.length,
      (cachedTop e.1 e.2).Fits) :
    parseTreeTops (writeTreeTops indexTrees chunkTrees indexSibLevels chunkSibLevels) =
      .ok ((topEntries indexTrees chunkTrees indexSibLevels.length
        chunkSibLevels.length).map topOf) := by
  rw [writeTreeTops_eq]
  set es := topEntries indexTrees chunkTrees indexSibLevels.length chunkSibLevels.length with hes
  have hlen : es.length = indexTrees.length + chunkTrees.length := by simp [hes, topEntries]
  have hsize := le_length_writeTreeTops (es.map fun e => cachedTop e.1 e.2)
  have hcount' : leNat (leBytes 4 (indexTrees.length + chunkTrees.length)) = es.length := by
    rw [leNat_leBytes_of_lt (by norm_num; omega), hlen]
  have hfits : ∀ top ∈ es.map fun e => cachedTop e.1 e.2, top.Fits := List.forall_mem_map.2 h
  have hparse := readTrees_write topReader 0 hfits
    (fun t => List.forall_mem_map.2 fun e _ => rfl) []
  rw [List.append_nil, List.length_map] at hparse
  rw [List.length_map] at hsize
  rw [List.flatMap_map] at hparse hsize
  rw [parseTreeTops, if_neg (by rw [List.length_append, length_leBytes]; omega)]
  simp only [List.take_left' (length_leBytes ..), List.drop_left' (length_leBytes ..), hcount',
    List.length_append, length_leBytes, writeOneTreeTop]
  rw [if_neg (by omega), hparse, ok_bind]
  simp only [List.length_nil, ne_eq, not_true_eq_false, if_false, List.map_map]
  rfl

/-! ## The super-root -/

variable (H : Bytes → Hash256)

theorem collectRoots_map_topOf (position : ℕ) {es : List (PerGroupTree × ℕ)}
    (h : ∀ e ∈ es, (topOf e).root = some e.1.root) :
    collectRoots position (es.map topOf) = .ok (es.map fun e => e.1.root) := by
  induction es generalizing position with
  | nil => rfl
  | cons e es ih =>
    rw [List.map_cons, collectRoots, h e List.mem_cons_self]
    simp only [ih (position + 1) fun e' he => h e' (List.mem_cons_of_mem _ he), List.map_cons]

/-- **The builder's super-root is accepted** for the tree tops read back. -/
theorem verifyTreeTopsSuperRoot_write {indexTrees chunkTrees : List PerGroupTree}
    {indexLevels chunkLevels : ℕ}
    (h : ∀ e ∈ topEntries indexTrees chunkTrees indexLevels chunkLevels,
      (topOf e).root = some e.1.root) :
    verifyTreeTopsSuperRoot H
      ((topEntries indexTrees chunkTrees indexLevels chunkLevels).map topOf)
      indexTrees.length chunkTrees.length
      (H (Digest.concat ((indexTrees ++ chunkTrees).map PerGroupTree.root))) = .ok () := by
  have hroots : ((topEntries indexTrees chunkTrees indexLevels chunkLevels).map
      fun e => e.1.root) = (indexTrees ++ chunkTrees).map PerGroupTree.root := by
    simp [topEntries, Function.comp_def]
  have hlen : ((topEntries indexTrees chunkTrees indexLevels chunkLevels).map topOf).length =
      indexTrees.length + chunkTrees.length := by
    simp [topEntries]
  simp only [verifyTreeTopsSuperRoot, hlen, ne_eq, not_true_eq_false, if_false,
    collectRoots_map_topOf 0 h, hroots]

end BitcoinPir.Bucket
