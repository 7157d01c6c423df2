import Mathlib

/-!
# Table parameters

The layout of the two cuckoo tables of a database: INDEX maps script hashes to chunk ranges,
CHUNK holds the 40-byte chunks.
-/

namespace BitcoinPir

/-- The parameters of one cuckoo table that the modelled code reads. -/
structure TableParams where
  /-- Number of PBC groups. -/
  k : ℕ
  /-- Number of PBC groups each item is assigned to. -/
  numHashes : ℕ
  masterSeed : UInt64
  slotsPerBin : ℕ
  cuckooNumHashes : ℕ
  /-- Bytes per slot. -/
  slotSize : ℕ
  deriving DecidableEq, Repr

def TableParams.binSize (p : TableParams) : ℕ := p.slotsPerBin * p.slotSize

def scriptHashSize : ℕ := 20

def tagSize : ℕ := 8

def chunkSize : ℕ := 40

/-- An INDEX slot: tag, start chunk id, number of chunks. -/
def indexSlotSize : ℕ := tagSize + 4 + 1

/-- A CHUNK slot: chunk id, data. -/
def chunkSlotSize : ℕ := 4 + chunkSize

def indexParams : TableParams where
  k := 75
  numHashes := 3
  masterSeed := 0
  slotsPerBin := 4
  cuckooNumHashes := 2
  slotSize := indexSlotSize

def chunkParams : TableParams where
  k := 80
  numHashes := 3
  masterSeed := 0
  slotsPerBin := 3
  cuckooNumHashes := 2
  slotSize := chunkSlotSize

end BitcoinPir
