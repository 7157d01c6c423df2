import BitcoinPir.Foundations.Runs
import BitcoinPir.Credit.Requests

/-!
# The server's dispatch

What `handle_variant` does to tables and balances when a frame reaches it, and the part of the
connection loop around it: the mode gates, classification, admission, dispatch, the charge for the
response. Work on tables is logged with the balance before the frame and at the work.

The replies themselves are not modelled. What depends on other connections and on other programs is
part of a frame's `Env`: the hint pool, the issuer, a best-effort lane, the size of the response.
-/

namespace BitcoinPir.Meter

open Foundations

/-! ## Databases -/

structure SubTable where
  params : TableParams
  binsPerTable : ℕ
  dataOffset : ℕ
  /-- Length of the mapped file. -/
  mapped : ℕ

namespace SubTable

def tableByteSize (t : SubTable) : ℕ := t.binsPerTable * t.params.binSize

/-- Whether the file has the bytes of a group. -/
def groupExists (t : SubTable) (groupId : ℕ) : Bool :=
  groupId < t.params.k ∧ t.dataOffset + groupId * t.tableByteSize + t.tableByteSize ≤ t.mapped

/-- A table without rows: one mapped byte stands for the file. -/
def metadataOnly (params : TableParams) (binsPerTable : ℕ) : SubTable := ⟨params, binsPerTable, 0, 1⟩

def geometry (t : SubTable) : SubTableGeometry where
  binsPerGroup := UInt64.ofNat t.binsPerTable
  groups := UInt64.ofNat t.params.k
  bytes := saturatingMul (UInt64.ofNat t.tableByteSize) (UInt64.ofNat t.params.k)

end SubTable

structure Database where
  index : SubTable
  chunk : SubTable
  indexSiblings : List SubTable
  chunkSiblings : List SubTable
  hasBucketMerkle : Bool

def cuckooGeometry (db : Database) : CuckooGeometry :=
  ⟨db.index.geometry, db.chunk.geometry, db.indexSiblings.map SubTable.geometry,
    db.chunkSiblings.map SubTable.geometry⟩

/-- A database of a server that holds no table files. -/
def Database.directOramOnly (indexBins chunkBins : ℕ) : Database :=
  ⟨.metadataOnly indexParams indexBins, .metadataOnly chunkParams chunkBins, [], [], false⟩

structure Server where
  databases : List Database
  /-- The OnionPIR worker of each database. -/
  onion : List (Option OnionGeometry)
  /-- Whether a database has OnionPIR Merkle data. -/
  onionMerkle : List Bool
  /-- Slots per lookup of the databases with a Direct ORAM. -/
  directOram : UInt8 → Option UInt64
  /-- The databases with a hint pool. -/
  hintPools : UInt8 → Bool
  /-- The PRP backends this build has. -/
  validPrpBackend : UInt8 → Bool
  /-- Whether an issuer is configured. -/
  credits : Bool
  /-- The label of an API key, if API keys are enabled. -/
  apiKeys : Option (Bytes → Option String)
  policy : AccessPolicy
  calibration : Calibration
  params : GasParams
  serveHints : Bool
  serveQueries : Bool
  oramOnly : Bool
  onion_length : onion.length = databases.length
  oramOnly_databases : oramOnly = true → ∀ db ∈ databases, ∃ i c, db = .directOramOnly i c

/-- What else a frame meets. -/
structure Env where
  /-- What the issuer answers to a presentation: the gas it bought. -/
  redeem : Except String UInt64
  /-- The pool has an entry to give away. -/
  poolEntry : Bool
  /-- Database and served sides of a half entry under the token of a request. -/
  pendingHalf : Option (UInt8 × UInt8)
  lane : Except String Unit
  egressBytes : UInt64

/-- Work on a table of a database. -/
structure Work where
  backend : Backend
  db : UInt8
  table : Table

namespace Server

variable (srv : Server)

def getDb (dbId : UInt8) : Option Database := srv.databases[dbId.toNat]?

def hasAnyOnionpir : Bool := srv.onion.any Option.isSome

def hasAnyOnionpirMerkle : Bool := srv.onionMerkle.any id

def onionpirTxFor (dbId : UInt8) : Option OnionGeometry := srv.onion[dbId.toNat]?.join

def onionpirMerkleFor (dbId : UInt8) : Bool := srv.onionMerkle.getD dbId.toNat false

/-! ## The gas table -/

def geometry (index : ℕ) (db : Database) : DatabaseGeometry where
  cuckoo := if srv.oramOnly then none else some (cuckooGeometry db)
  onion := srv.onion[index]?.join
  oram := (srv.directOram (UInt8.ofNat index)).map OramGeometry.mk

/-- The geometry by database id. The id of a database is its position as a byte. -/
def databaseGeometries : UInt8 → Option DatabaseGeometry :=
  srv.databases.zipIdx.foldl
    (fun out (db, index) => Function.update out (UInt8.ofNat index) (some (srv.geometry index db)))
    fun _ => none

/-- What a metered frame must cover before dispatch. -/
def admissionGas (op : Option (MeteredOp × UInt8)) : Option UInt64 := do
  let (op, dbId) ← op
  let db ← srv.databaseGeometries dbId
  let work ← workGas srv.calibration db op
  return srv.params.frameGas work

/-! ## The arms of the dispatcher -/

/-- The keys that are evaluated against a table. -/
def dpfKeys (q : BatchQuery) (table : SubTable) (perGroup : Option ℕ) : List (List Bytes) :=
  (q.keys.take table.params.k).map fun group => match perGroup with
    | some n => group.take n
    | none => group

/-- A scan works on its table if there is a key to evaluate. -/
def scanWork (keys : List (List Bytes)) (work : Work) : List Work :=
  if keys.flatten = [] then [] else [work]

def indexBatchWork (q : BatchQuery) : List Work :=
  match srv.getDb q.dbId with
  | some db => scanWork (dpfKeys q db.index (some indexParams.cuckooNumHashes))
      ⟨.dpf, q.dbId, .main .index⟩
  | none => []

def chunkBatchWork (q : BatchQuery) : List Work :=
  match srv.getDb q.dbId with
  | some db => scanWork (dpfKeys q db.chunk none) ⟨.dpf, q.dbId, .main .chunk⟩
  | none => []

/-- The round id is split into table and level here for the second time. -/
def sibBatchWork (q : BatchQuery) : List Work :=
  match srv.getDb q.dbId with
  | some db =>
    if db.hasBucketMerkle then
      let tableType := q.roundId / 100
      let level := (q.roundId % 100).toNat
      let sibTables := if tableType = 0 then db.indexSiblings else db.chunkSiblings
      match sibTables[level]? with
      | some sib => scanWork (dpfKeys q sib none)
          ⟨.dpf, q.dbId, .sibling (if tableType = 0 then .index else .chunk) level⟩
      | none => []
    else []
  | none => []

/-- The sub-table of a HarmonyPIR level. -/
def harmonyLevelTable (db : Database) (level : UInt8) : Option (SubTable × Table) :=
  if level = 0 then some (db.index, .main .index)
  else if level = 1 then some (db.chunk, .main .chunk)
  else if 10 ≤ level ∧ level ≤ 19 then
    (db.indexSiblings[(level - 10).toNat]?).map fun t => (t, .sibling .index (level - 10).toNat)
  else if 20 ≤ level ∧ level ≤ 29 then
    (db.chunkSiblings[(level - 20).toNat]?).map fun t => (t, .sibling .chunk (level - 20).toNat)
  else none

def validateHarmonyHintsRequest (table : SubTable) (level : UInt8) (groupIds : Bytes) :
    Except String Unit := do
  require (groupIds.length ≤ table.params.k)
    s!"too many group_ids: {groupIds.length} > k {table.params.k} for level {level}"
  groupIds.forM fun gid => require (gid.toNat < table.params.k)
    s!"group_id {gid} out of range for level {level} (k = {table.params.k})"

/-- Whether hints of a group are computed. A table without bins stops the process. -/
def computesHints (table : SubTable) (groupId : UInt8) : Bool :=
  table.groupExists groupId.toNat ∧ table.binsPerTable ≠ 0

def harmonyHintsWork (h : HarmonyHintRequest) : List Work :=
  if srv.validPrpBackend h.prpBackend then
    match srv.getDb h.dbId with
    | some db =>
      match harmonyLevelTable db h.level with
      | some (table, ref) =>
        match validateHarmonyHintsRequest table h.level h.groupIds with
        | .ok () => if h.groupIds.any (computesHints table) then [⟨.harmony, h.dbId, ref⟩] else []
        | .error _ => []
      | none => []
    | none => []
  else []

/-- Take an entry from a pool. A server without table files never has one: it cannot generate
entries, and does not read pool files. -/
def tryTake (env : Env) (dbId : UInt8) : Bool :=
  srv.hintPools dbId && env.poolEntry && !srv.oramOnly

def harmonyHintsV2Work (env : Env) (h : HarmonyHintRequestV2) : List Work :=
  if (srv.getDb h.dbId).isSome && srv.tryTake env h.dbId then
    [⟨.harmony, h.dbId, .main .index⟩, ⟨.harmony, h.dbId, .main .chunk⟩]
  else []

/-- Whether a half of an entry is handed out: of the entry under the token, or of a fresh one. -/
def servesHalf (env : Env) (h : HarmonyHintRequestV2Half) : Bool :=
  match env.pendingHalf with
  | some (boundDbId, sidesServed) =>
    !srv.oramOnly && boundDbId = h.dbId && sidesServed &&& (1 <<< h.side) = 0
  | none => srv.tryTake env h.dbId

def harmonyHintsV2HalfWork (env : Env) (h : HarmonyHintRequestV2Half) : List Work :=
  if (srv.getDb h.dbId).isSome && srv.hintPools h.dbId && srv.servesHalf env h then
    [⟨.harmony, h.dbId, .main (if h.side = 0 then .index else .chunk)⟩]
  else []

def harmonyBatchQueryWork (q : HarmonyBatchQuery) : List Work :=
  match srv.getDb q.dbId with
  | some db =>
    match harmonyLevelTable db q.level with
    | some (table, ref) =>
      if q.items.any fun item =>
          table.groupExists item.groupId.toNat && item.subQueries.flatten ≠ [] then
        [⟨.harmony, q.dbId, ref⟩]
      else []
    | none => []
  | none => []

def oramLookupWork (encrypted : Bool) (q : OramLookupRequest) : List Work :=
  if encrypted && (srv.getDb q.dbId).isSome && (srv.directOram q.dbId).isSome then
    [⟨.oram, q.dbId, .oram⟩]
  else []

/-- A batch for an OnionPIR worker. -/
def onionWork (available : UInt8 → Bool) (table : Table) (body : Bytes) : List Work :=
  match OnionPirBatchQuery.decode body with
  | .ok q =>
    if srv.hasAnyOnionpir && available q.dbId && (srv.onionpirTxFor q.dbId).isSome then
      [⟨.onion, q.dbId, table⟩]
    else []
  | .error _ => []

/-- The work that a decoded request makes. -/
def requestWork (env : Env) (encrypted : Bool) : Request → List Work
  | .indexBatch q => srv.indexBatchWork q
  | .chunkBatch q => srv.chunkBatchWork q
  | .bucketMerkleSibBatch q => srv.sibBatchWork q
  | .harmonyHints h => srv.harmonyHintsWork h
  | .harmonyHintsV2 h => srv.harmonyHintsV2Work env h
  | .harmonyHintsV2Half h => srv.harmonyHintsV2HalfWork env h
  | .harmonyBatchQuery q => srv.harmonyBatchQueryWork q
  | .oramLookup q => srv.oramLookupWork encrypted q
  | _ => []

/-- Table work of a frame. -/
def handleWork (env : Env) (encrypted : Bool) : Bytes → List Work
  | [] => []
  | variant :: body =>
    match Opcode.ofByte variant with
    | some .indexBatch | some .chunkBatch | some .bucketMerkleSibBatch | some .harmonyHints
    | some .harmonyHintsV2 | some .harmonyHintsV2Half | some .harmonyBatchQuery
    | some .oramLookup =>
      match Request.decode (variant :: body) with
      | .ok request => srv.requestWork env encrypted request
      | .error _ => []
    | some .onionpirIndexQuery => srv.onionWork (fun _ => true) (.main .index) body
    | some .onionpirChunkQuery => srv.onionWork (fun _ => true) (.main .chunk) body
    | some .onionpirMerkleIndexSibling =>
      srv.onionWork srv.onionpirMerkleFor (.siblings .index) body
    | some .onionpirMerkleDataSibling =>
      if srv.hasAnyOnionpirMerkle then srv.onionWork srv.onionpirMerkleFor (.siblings .chunk) body
      else []
    | _ => []

def presentCredit (env : Env) (balance : GasBalance) : GasBalance :=
  if srv.credits then
    match env.redeem with
    | .ok gasAdded => balance.topUp gasAdded
    | .error _ => balance.notePresentationFailure
  else balance

def presentApiKey (key : Bytes) (balance : GasBalance) : GasBalance :=
  match srv.apiKeys with
  | some label =>
    match label key with
    | some label => balance.acceptApiKey label
    | none => balance.notePresentationFailure
  | none => balance

/-- The balance after the dispatch of a frame. -/
def handleBalance (env : Env) (encrypted : Bool) (payload : Bytes) (balance : GasBalance) :
    GasBalance :=
  if encrypted then
    match Request.decode payload with
    | .ok (.creditPresent ..) => srv.presentCredit env balance
    | .ok (.apiKey key) => srv.presentApiKey key balance
    | _ => balance
  else balance

/-! ## The connection loop -/

def isHintVariant : Opcode → Bool
  | .harmonyHints | .harmonyHintsV2 | .harmonyHintsV2Half => true
  | _ => false

def isQueryBearingVariant : Opcode → Bool
  | .indexBatch | .chunkBatch | .bucketMerkleSibBatch | .bucketMerkleTreeTops | .harmonyBatchQuery
  | .oramLookup | .registerKeys | .onionpirIndexQuery | .onionpirChunkQuery
  | .onionpirMerkleIndexSibling | .onionpirMerkleIndexTreeTop | .onionpirMerkleDataSibling
  | .onionpirMerkleDataTreeTop => true
  | _ => false

/-- A mode gate refuses the frame. -/
def gateRefuses (variant : UInt8) : Bool :=
  match Opcode.ofByte variant with
  | some op => (!srv.serveHints && isHintVariant op) || (!srv.serveQueries && isQueryBearingVariant op) ||
      (srv.oramOnly && isQueryBearingVariant op && op ≠ .oramLookup)
  | none => false

end Server

/-- A request frame after the channel is opened. -/
structure Frame where
  payload : Bytes
  encrypted : Bool
  env : Env

/-- Work that was done, with the gas before the frame and at the work. -/
structure LogEntry where
  payload : Bytes
  work : Work
  before : ℤ
  atWork : ℤ

structure State where
  balance : GasBalance
  closed : Bool
  log : List LogEntry

def State.init : State := ⟨.new, false, []⟩

def maxPresentationFailures : ℕ := 3

namespace Server

variable (srv : Server)

/-- The balance once the response is sent. -/
def settle (env : Env) (admission : Admission) (op : Option (MeteredOp × UInt8))
    (balance : GasBalance) : GasBalance :=
  if admission.isCharged && op.isSome then
    balance.chargeEgress (srv.params.egressGas env.egressBytes)
  else balance

/-- Dispatch an admitted frame and charge its response. -/
def dispatch (st : State) (f : Frame) (admission : Admission) (balance : GasBalance) : State :=
  let works := srv.handleWork f.env f.encrypted f.payload
  let after := srv.settle f.env admission (meteredOpForFrame f.payload)
    (srv.handleBalance f.env f.encrypted f.payload balance)
  { balance := after
    closed := maxPresentationFailures ≤ after.presentationFailures
    log := works.map (fun work => ⟨f.payload, work, st.balance.gas, balance.gas⟩) ++ st.log }

/-- The gate's decision, with the balance after it. -/
def admission (st : State) (f : Frame) : Admission × GasBalance :=
  admitFrame srv.policy f.env.lane ((meteredOpForFrame f.payload).map Prod.fst)
    (srv.admissionGas (meteredOpForFrame f.payload)) st.balance

/-- One frame of a connection. -/
def step (st : State) (f : Frame) : State :=
  if st.closed || f.payload = [] || srv.gateRefuses (f.payload.headD 0) then st
  else if (srv.admission st f).1.isRefused then { st with balance := (srv.admission st f).2 }
  else srv.dispatch st f (srv.admission st f).1 (srv.admission st f).2

end Server

end BitcoinPir.Meter
