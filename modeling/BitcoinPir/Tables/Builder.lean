import BitcoinPir.Core.Catalog
import BitcoinPir.Core.Cuckoo
import BitcoinPir.Core.Hash
import BitcoinPir.Core.Params

/-!
# INDEX and CHUNK tables

The builder assigns every item to three PBC groups, makes one cuckoo table per group, and writes
the tables out slot by slot; an empty slot is written as zero bytes. A client looks an item up by
scanning the two bins the item can be in, the bin of hash 0 first, and takes the first slot that
carries its tag (INDEX) or its id (CHUNK).
-/

namespace BitcoinPir.Tables

open Foundations

/-! ## Groups -/

/-- The items of each of `k` groups, in input order, from the groups of every item. -/
def groupItems (k : ℕ) (groups : List (List ℕ)) : List (List ℕ) :=
  (List.range k).map fun g => (List.range groups.length).filter fun i => g ∈ groups.getD i []

/-- The tables of all groups; `none` if one of them cannot be built. -/
def buildGroups {α : Type} (k : ℕ) (groupsOf : α → Option (List ℕ))
    (buildGroup : ℕ → List ℕ → Option Bytes) (xs : List α) : Option (List Bytes) := do
  let groups ← xs.mapM groupsOf
  (groupItems k groups).zipIdx.mapM fun (entries, g) => buildGroup g entries

/-- The marker of an empty slot, `u32::MAX`. -/
def emptyEntry : ℕ := 2 ^ 32 - 1

/-- The entry of position `i`: its low 32 bits, which may be the marker. -/
def entryIdx (i : ℕ) : Option ℕ := if i % 2 ^ 32 = emptyEntry then none else some (i % 2 ^ 32)

/-- A cuckoo table of the positions of `keys`; the bins are computed from the keys. -/
def buildKeyedTable {α : Type} (params : TableParams) (binOf : α → UInt64 → ℕ → ℕ) (groupId : ℕ)
    (numBins : ℕ) (keys : List α) : Option (List (Option ℕ)) :=
  insertAll params.slotsPerBin params.cuckooNumHashes
    (fun entry hf => ((keys[entry.getD emptyEntry]?).map fun key =>
      binOf key (deriveCuckooKey params.masterSeed groupId hf) numBins).getD 0)
    numBins ((List.range keys.length).map entryIdx)

def buildByteKeyedTable : TableParams → ℕ → ℕ → List ScriptHash → Option (List (Option ℕ)) :=
  (buildKeyedTable · cuckooHash)

def buildIntKeyedTable : TableParams → ℕ → ℕ → List UInt32 → Option (List (Option ℕ)) :=
  (buildKeyedTable · cuckooHashInt)

/-! ## INDEX -/

/-- A record of the index file. -/
structure IndexRecord where
  scriptHash : ScriptHash
  startChunkId : UInt32
  numChunks : UInt8
  deriving DecidableEq

/-- The slot of a record: tag, start chunk id, number of chunks. -/
def indexSlot (tagSeed : UInt64) (r : IndexRecord) : Bytes :=
  leBytes 8 (computeTag tagSeed r.scriptHash).toNat ++ leBytes 4 r.startChunkId.toNat ++
    [r.numChunks]

/-- The bytes of a table slot; an empty slot is zeros. -/
def writeSlot {α : Type} (slotSize : ℕ) (slotOf : α → Bytes) (entries : List α) :
    Option ℕ → Bytes
  | none => List.replicate slotSize 0
  | some i => ((entries[i]?).map slotOf).getD (List.replicate slotSize 0)

def buildIndexGroup (params : TableParams) (tagSeed : UInt64) (numBins : ℕ)
    (records : List IndexRecord) (groupId : ℕ) (entries : List ℕ) : Option Bytes := do
  let own := entries.filterMap (records[·]?)
  let table ← buildByteKeyedTable params groupId numBins (own.map IndexRecord.scriptHash)
  return table.flatMap (writeSlot indexSlotSize (indexSlot tagSeed) own)

/-- The groups of the INDEX file; `none` is a panic of the builder. -/
def buildIndexCuckoo (params : TableParams) (tagSeed : UInt64) (numBins : ℕ)
    (records : List IndexRecord) : Option (List Bytes) :=
  buildGroups params.k (fun r => deriveGroups3 r.scriptHash params.k)
    (buildIndexGroup params tagSeed numBins records) records

/-! ## CHUNK -/

abbrev Chunk := Digest 40

/-- The slot of a chunk: id, data. -/
def chunkSlot (chunks : List Chunk) (id : UInt32) : Bytes :=
  leBytes 4 id.toNat ++ ((chunks[id.toNat]?).map Subtype.val).getD (List.replicate chunkSize 0)

def buildChunkGroup (params : TableParams) (numBins : ℕ) (chunks : List Chunk)
    (groupId : ℕ) (entries : List ℕ) : Option Bytes := do
  let ids := entries.map UInt32.ofNat
  let table ← buildIntKeyedTable params groupId numBins ids
  return table.flatMap (writeSlot chunkSlotSize (chunkSlot chunks) ids)

/-- The groups of the CHUNK file; `none` is a panic of the builder. -/
def buildChunkCuckoo (params : TableParams) (numBins : ℕ) (chunks : List Chunk) :
    Option (List Bytes) :=
  buildGroups params.k (deriveIntGroups3 · params.k)
    (buildChunkGroup params numBins chunks)
    ((List.range (chunks.length % 2 ^ 32)).map UInt32.ofNat)

/-! ## Scanning a bin -/

/-- The first slot of a bin that a reader accepts. Scanning stops where the bytes end. -/
def scanSlots {β : Type} (slotSize numSlots : ℕ) (read : Bytes → Option β) (result : Bytes) :
    Option β :=
  ((List.range numSlots).takeWhile fun slot => slot * slotSize + slotSize ≤ result.length).findSome?
    fun slot => read ((result.drop (slot * slotSize)).take slotSize)

/-- The chunk range in an INDEX slot with the expected tag. -/
def readIndexSlot (expectedTag : UInt64) (slot : Bytes) : Option (UInt32 × UInt32) :=
  if u64At slot 0 = expectedTag then some (u32At slot 8, (u8At slot 12).toUInt32) else none

def findEntryInIndexResult (result : Bytes) (expectedTag : UInt64) : Option (UInt32 × UInt32) :=
  scanSlots indexSlotSize indexParams.slotsPerBin (readIndexSlot expectedTag) result

/-- The data in a CHUNK slot with the expected id. -/
def readChunkSlot (chunkId : UInt32) (slot : Bytes) : Option Bytes :=
  if slot.take 4 = leBytes 4 chunkId.toNat then some (slot.drop 4) else none

def findChunkInResult (result : Bytes) (chunkId : UInt32) : Option Bytes :=
  scanSlots chunkSlotSize chunkParams.slotsPerBin (readChunkSlot chunkId) result

/-! ## Looking an item up in one group -/

/-- Bin `b` of a group. -/
def binOfGroup (params : TableParams) (data : Bytes) (b : ℕ) : Bytes :=
  (data.drop (b * params.binSize)).take params.binSize

/-- Scan the bins of a key, in the order of the hash functions. -/
def probeBins {α β : Type} (params : TableParams) (binOf : α → UInt64 → ℕ → ℕ)
    (scan : Bytes → Option β) (groupId numBins : ℕ) (data : Bytes) (key : α) : Option β :=
  (List.range params.cuckooNumHashes).findSome? fun hf =>
    scan (binOfGroup params data
      (binOf key (deriveCuckooKey params.masterSeed groupId hf) numBins))

def lookupIndex (params : TableParams) (tagSeed : UInt64) (groupId numBins : ℕ) (data : Bytes)
    (scriptHash : ScriptHash) : Option (UInt32 × UInt32) :=
  probeBins params cuckooHash (findEntryInIndexResult · (computeTag tagSeed scriptHash)) groupId
    numBins data scriptHash

def lookupChunk (params : TableParams) (groupId numBins : ℕ) (data : Bytes) (chunkId : UInt32) :
    Option Bytes :=
  probeBins params cuckooHashInt (findChunkInResult · chunkId) groupId numBins data chunkId

end BitcoinPir.Tables
