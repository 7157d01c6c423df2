import BitcoinPir.Foundations.Reader
import BitcoinPir.Core.Seeds

/-!
# The database catalog

A server announces its databases in a catalog. An entry carries everything that places a query:
group counts, bins and seeds, and the block the database is anchored at. `decodeCatalog` reads a
catalog and refuses entries whose geometry is unusable or whose seeds are not the ones derived
from their anchor.
-/

namespace BitcoinPir

open Foundations Reader

inductive DatabaseKind
  | full
  | delta (baseHeight : UInt32)
  deriving DecidableEq

def DatabaseKind.baseHeight : DatabaseKind → UInt32
  | .full => 0
  | .delta baseHeight => baseHeight

/-- A catalog entry. -/
structure DatabaseInfo where
  dbId : UInt8
  kind : DatabaseKind
  name : String
  /-- Tip height. -/
  height : UInt32
  indexBins : UInt32
  chunkBins : UInt32
  indexK : UInt8
  chunkK : UInt8
  tagSeed : UInt64
  dpfNIndex : UInt8
  dpfNChunk : UInt8
  hasBucketMerkle : Bool
  indexMasterSeed : UInt64
  chunkMasterSeed : UInt64
  /-- 0 for no anchor, 1 for a snapshot's, 2 for a delta's. -/
  anchorKind : UInt8
  anchorBytes : Bytes
  deriving DecidableEq

namespace DatabaseInfo

def baseHeight (db : DatabaseInfo) : UInt32 := db.kind.baseHeight

/-- The typed anchor; none for an entry without one or with malformed bytes. -/
def chainAnchor (db : DatabaseInfo) : Option HeaderAnchor :=
  if db.anchorKind = 1 then (ChainAnchor.fromBytes db.anchorBytes).map .snapshot
  else if db.anchorKind = 2 then (DeltaAnchor.fromBytes db.anchorBytes).map .delta
  else none

/-- The seeds of an anchored entry are the ones derived from its anchor. -/
def verifyAnchorSeeds (H : Bytes → Hash256) (db : DatabaseInfo) : Except String Unit :=
  match db.chainAnchor with
  | none => .ok ()
  | some anchor => do
    BitcoinPir.verifyAnchorSeeds H ⟨db.indexMasterSeed, db.tagSeed, some anchor⟩
      indexCuckooMaster (some indexTagFingerprint)
    BitcoinPir.verifyAnchorSeeds H ⟨db.chunkMasterSeed, 0, some anchor⟩ chunkCuckooMaster none

end DatabaseInfo

structure DatabaseCatalog where
  databases : List DatabaseInfo
  deriving DecidableEq

def DatabaseCatalog.get (catalog : DatabaseCatalog) (dbId : UInt8) : Option DatabaseInfo :=
  catalog.databases.find? fun db => db.dbId = dbId

theorem DatabaseCatalog.dbId_of_get {catalog : DatabaseCatalog} {dbId : UInt8}
    {db : DatabaseInfo} (h : catalog.get dbId = some db) : db.dbId = dbId := by
  simpa using List.find?_some h

/-! ## Geometry -/

/-- The loop that doubles `v` until it covers the bins; `fuel` is the width of the counter. -/
def dpfNFrom (bins : ℕ) : ℕ → ℕ → ℕ → ℕ
  | 0, _, n => n
  | fuel + 1, v, n => if v < bins then dpfNFrom bins fuel (v * 2) (n + 1) else n

/-- The DPF domain exponent for a number of bins. -/
def computeDpfN (bins : ℕ) : ℕ := if bins ≤ 1 then 1 else dpfNFrom bins 64 1 0

/-- Refuse geometry on which placing a query does not end or divides by zero. -/
def validateDbGeometry (db : DatabaseInfo) : PirResult Unit :=
  if db.indexK < 3 ∨ db.chunkK < 3 then
    .error (.decode
      s!"DB {db.dbId} ({db.name}) k out of range: index_k={db.indexK} chunk_k={db.chunkK} (PBC planning needs k >= 3)")
  else if db.indexBins = 0 ∨ db.chunkBins = 0 then
    .error (.decode
      s!"DB {db.dbId} ({db.name}) has zero bins: index_bins={db.indexBins} chunk_bins={db.chunkBins}")
  else .ok ()

/-! ## Decoding -/

/-- The integer field at an offset of a record. -/
def u32At (b : Bytes) (offset : ℕ) : UInt32 := UInt32.ofNat (leNat ((b.drop offset).take 4))

def u64At (b : Bytes) (offset : ℕ) : UInt64 := UInt64.ofNat (leNat ((b.drop offset).take 8))

def u8At (b : Bytes) (offset : ℕ) : UInt8 := b.getD offset 0

/-- One entry, without the fields of the extension. -/
def decodeCatalogEntry : Reader PirError DatabaseInfo := do
  let header ← take 3 (.decode "truncated catalog entry header")
  let name ← take (u8At header 2).toNat (.decode "truncated catalog name")
  let fixed ← take 29 (.decode "truncated catalog fields")
  return {
    dbId := u8At header 0
    kind := if u8At header 1 = 1 then .delta (u32At fixed 0) else .full
    name := fromUtf8Lossy name
    height := u32At fixed 4
    indexBins := u32At fixed 8
    chunkBins := u32At fixed 12
    indexK := u8At fixed 16
    chunkK := u8At fixed 17
    tagSeed := u64At fixed 18
    dpfNIndex := u8At fixed 26
    dpfNChunk := u8At fixed 27
    hasBucketMerkle := u8At fixed 28 ≠ 0
    indexMasterSeed := 0
    chunkMasterSeed := 0
    anchorKind := 0
    anchorBytes := [] }

def decodeCatalogEntries : ℕ → Reader PirError (List DatabaseInfo)
  | 0 => pure []
  | n + 1 => do
    let db ← decodeCatalogEntry
    let dbs ← decodeCatalogEntries n
    return db :: dbs

/-- Bytes of an anchor of the given kind. -/
def anchorLength (kind : UInt8) : PirResult ℕ :=
  if kind = 0 then .ok 0
  else if kind = 1 then .ok chainAnchorBytes
  else if kind = 2 then .ok deltaAnchorBytes
  else .error (.decode s!"unknown catalog anchor kind {kind}")

/-- The extension fields of one entry: master seeds and anchor. -/
def decodeCatalogExt (db : DatabaseInfo) : Reader PirError DatabaseInfo := do
  let fixed ← take 17 (.decode "truncated catalog ext entry")
  let n ← lift (anchorLength (u8At fixed 16))
  let anchorBytes ← take n (.decode "truncated catalog anchor bytes")
  return { db with
    indexMasterSeed := u64At fixed 0
    chunkMasterSeed := u64At fixed 8
    anchorKind := u8At fixed 16
    anchorBytes }

def decodeCatalogExts : List DatabaseInfo → Reader PirError (List DatabaseInfo)
  | [] => pure []
  | db :: dbs => do
    let db ← decodeCatalogExt db
    let dbs ← decodeCatalogExts dbs
    return db :: dbs

def catalogExtV1 : UInt8 := 0x01

/-- Geometry and seeds of one decoded entry. -/
def checkCatalogEntry (H : Bytes → Hash256) (db : DatabaseInfo) : PirResult Unit := do
  validateDbGeometry db
  match db.verifyAnchorSeeds H with
  | .error e =>
    .error (.protocol
      s!"DB {db.dbId} ({db.name}) chain-anchor seed verification failed: {e}")
  | .ok () => .ok ()

/-- Decode the body of a catalog response, without its variant byte. -/
def decodeCatalog (H : Bytes → Hash256) (data : Bytes) : PirResult DatabaseCatalog :=
  match data with
  | [] => .error (.decode "catalog too short")
  | numDbs :: data => do
    let (databases, rest) ← decodeCatalogEntries numDbs.toNat data
    -- A server that predates the extension stops here.
    let databases ← if rest.head? = some catalogExtV1
      then (decodeCatalogExts databases rest.tail).map Prod.fst
      else .ok databases
    databases.forM (checkCatalogEntry H)
    return ⟨databases⟩

end BitcoinPir
