import BitcoinPir.Core.TreeTops
import BitcoinPir.Core.Params

/-!
# The per-bucket Merkle builder

`buildBucketMerkle` commits to the bins of an INDEX and a CHUNK table: one arity-8 tree per
PBC group over the hashes of (bin index, bin), a blob of tree tops, flat tables of sibling rows
for the levels below the tops, and a super-root over all group roots.

A tree is split into sibling levels, which the client fetches privately one row per level, and a
cached top: `computeSiblingLevels` counts the sibling levels, and the tree-top blob and the
sibling tables are written from the same levels of the tree.
-/

namespace BitcoinPir.Bucket

open Foundations

/-- Children per node. -/
def arity : ℕ := 8

/-- Bytes per sibling row: eight hashes. -/
def sibRowSize : ℕ := 256

/-- Levels with at most this many parents are cached in the tree top. -/
def treeTopThreshold : ℕ := 1024

/-- A cuckoo table file as the builder reads it: its bytes, and from its header the number of
bins per group (a 32-bit field) and the offset of the tables. -/
structure TableFile where
  mmap : Bytes
  binsPerTable : ℕ
  dataOffset : ℕ
  binsPerTable_lt : binsPerTable < 2 ^ 32

variable (H : Bytes → Hash256)

/-- The bytes of a group's bins, if the file has them. -/
def groupData (mmap : Bytes) (dataOffset groupId binsPerTable binSize : ℕ) : Option Bytes :=
  let tableByteSize := binsPerTable * binSize
  let groupOffset := dataOffset + groupId * tableByteSize
  if groupOffset + tableByteSize ≤ mmap.length then
    some ((mmap.drop groupOffset).take tableByteSize)
  else none

/-- Bin `i` of a group. -/
def binAt (data : Bytes) (binSize i : ℕ) : Bytes := (data.drop (i * binSize)).take binSize

/-- The preimages of a group's leaf hashes. -/
def leafPreimages (data : Bytes) (binsPerTable binSize : ℕ) : List Bytes :=
  (List.range binsPerTable).map fun i => binLeafPreimage i (binAt data binSize i)

def leafHashes (data : Bytes) (binsPerTable binSize : ℕ) : List Hash256 :=
  (List.range binsPerTable).map fun i => computeBinLeafHash H i (binAt data binSize i)

/-- Build the tree of one group. `none` is a panic: the file is too short for the group, or the
group has no bins and hence no root. -/
def buildGroupTree (mmap : Bytes) (dataOffset groupId binsPerTable binSize : ℕ) :
    Option PerGroupTree := do
  let data ← groupData mmap dataOffset groupId binsPerTable binSize
  treeOfLeaves H arity (leafHashes H data binsPerTable binSize)

/-- The trees of all `k` groups of a table. -/
def buildTrees (file : TableFile) (k binSize : ℕ) : Option (List PerGroupTree) :=
  (List.range k).mapM fun g =>
    buildGroupTree H file.mmap file.dataOffset g file.binsPerTable binSize

/-- The numbers of rows of the sibling levels, from `nodes` nodes up. -/
def computeSiblingLevelsAux : ℕ → ℕ → List ℕ
  | 0, _ => []
  | fuel + 1, nodes =>
    let numGroups := nodes ⌈/⌉ arity
    if numGroups ≤ treeTopThreshold then []
    else numGroups :: computeSiblingLevelsAux fuel numGroups

/-- The numbers of rows of the sibling levels of a group's tree. The counts decrease, so the
loop runs at most `binsPerTable` times. -/
def computeSiblingLevels (binsPerTable : ℕ) : List ℕ :=
  computeSiblingLevelsAux binsPerTable binsPerTable

/-- Magic number of a sibling table. -/
def bucketSibMagic (tableType level : ℕ) : ℕ :=
  0xBA7CB00000000000 ||| (tableType <<< 40) ||| (level <<< 16)

/-- The 32-byte header of a sibling table: magic, `k`, one slot per bin, the number of rows, no
hashes, no seed. -/
def siblingTableHeader (numGroups k magic : ℕ) : Bytes :=
  leBytes 8 magic ++ leBytes 4 k ++ leBytes 4 1 ++ leBytes 4 numGroups ++ leBytes 4 0 ++ leBytes 8 0

/-- Row `r` of a level: the eight children of its parent `r`. -/
def siblingRow (childrenLevel : List Hash256) (r : ℕ) : Bytes :=
  Digest.concat (HashTree.siblings zeroHash arity childrenLevel r)

/-- The sibling table of one level: the rows of group 0, then of group 1, and so on. -/
def writeFlatSiblingTable (trees : List PerGroupTree) (levelIdx numGroups k magic : ℕ) : Bytes :=
  siblingTableHeader numGroups k magic ++
    (trees.take k).flatMap fun tree =>
      (List.range numGroups).flatMap (siblingRow (tree.levels.getD levelIdx []))

/-- The tree top of a tree: the levels from `cacheFromLevel` up. -/
def cachedTop (tree : PerGroupTree) (cacheFromLevel : ℕ) : CachedTop where
  cacheFromLevel
  arity
  levels := tree.levels.drop cacheFromLevel

def writeOneTreeTop (tree : PerGroupTree) (cacheFromLevel : ℕ) : Bytes :=
  writeTreeTop (cachedTop tree cacheFromLevel)

/-- The tree-top blob: INDEX groups, then CHUNK groups. -/
def writeTreeTops (indexTrees chunkTrees : List PerGroupTree)
    (indexSibLevels chunkSibLevels : List ℕ) : Bytes :=
  leBytes 4 (indexTrees.length + chunkTrees.length) ++
    (indexTrees.flatMap (writeOneTreeTop · indexSibLevels.length) ++
      chunkTrees.flatMap (writeOneTreeTop · chunkSibLevels.length))

/-- Everything `buildBucketMerkle` writes. -/
structure BucketMerkleFiles where
  indexSib : List Bytes
  chunkSib : List Bytes
  treeTops : Bytes
  roots : Bytes
  superRoot : Hash256

/-- The sibling tables of one table type, lowest level first. -/
def writeSiblingTables (trees : List PerGroupTree) (sibLevels : List ℕ) (k tableType : ℕ) :
    List Bytes :=
  sibLevels.zipIdx.map fun (numGroups, levelIdx) =>
    writeFlatSiblingTable trees levelIdx numGroups k (bucketSibMagic tableType levelIdx)

/-- Everything written for the trees of both tables. -/
def writeBucketMerkle (ip cp : TableParams) (index chunk : TableFile)
    (indexTrees chunkTrees : List PerGroupTree) : BucketMerkleFiles :=
  let indexSibLevels := computeSiblingLevels index.binsPerTable
  let chunkSibLevels := computeSiblingLevels chunk.binsPerTable
  let allRoots := (indexTrees ++ chunkTrees).map PerGroupTree.root
  { indexSib := writeSiblingTables indexTrees indexSibLevels ip.k 0
    chunkSib := writeSiblingTables chunkTrees chunkSibLevels cp.k 1
    treeTops := writeTreeTops indexTrees chunkTrees indexSibLevels chunkSibLevels
    roots := Digest.concat allRoots
    superRoot := H (Digest.concat allRoots) }

/-- Build and write the commitments to both tables. -/
def buildBucketMerkle (ip cp : TableParams) (index chunk : TableFile) :
    Option BucketMerkleFiles := do
  let indexTrees ← buildTrees H index ip.k ip.binSize
  let chunkTrees ← buildTrees H chunk cp.k cp.binSize
  return writeBucketMerkle H ip cp index chunk indexTrees chunkTrees

end BitcoinPir.Bucket
