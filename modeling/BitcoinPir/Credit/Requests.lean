import BitcoinPir.Foundations.Reader
import BitcoinPir.Core.Params
import BitcoinPir.Core.Types
import BitcoinPir.Credit.Gas

/-!
# Requests and their classification

`Request.decode` is the decoder that the meter and the dispatcher share. `meteredOpForFrame` reduces
a request frame to the operation it is priced as, and the database it addresses; it is `none` for
unmetered frames and for frames the decoder rejects.
-/

namespace BitcoinPir.Meter

open Foundations Reader

/-! ## Opcodes -/

/-- The request variants that either decoder knows. -/
inductive Opcode
  | ping
  | getInfo
  | getDbCatalog
  | attest
  | handshake
  | announce
  | getDbProof
  | getDbProofV2
  | indexBatch
  | creditPresent
  | apiKey
  | chunkBatch
  | bucketMerkleSibBatch
  | bucketMerkleTreeTops
  | harmonyGetInfo
  | harmonyHints
  | harmonyBatchQuery
  | harmonyHintsV2
  | harmonyHintsV2Half
  | registerKeys
  | onionpirIndexQuery
  | onionpirChunkQuery
  | onionpirMerkleIndexSibling
  | onionpirMerkleIndexTreeTop
  | onionpirMerkleDataSibling
  | onionpirMerkleDataTreeTop
  | oramLookup
  deriving DecidableEq

def Opcode.table : List (UInt8 × Opcode) :=
  [(0x00, .ping), (0x01, .getInfo), (0x02, .getDbCatalog), (0x05, .attest), (0x06, .handshake),
    (0x07, .announce), (0x0a, .getDbProof), (0x0c, .getDbProofV2), (0x11, .indexBatch),
    (0x12, .creditPresent), (0x13, .apiKey), (0x21, .chunkBatch), (0x33, .bucketMerkleSibBatch),
    (0x34, .bucketMerkleTreeTops), (0x40, .harmonyGetInfo), (0x41, .harmonyHints),
    (0x43, .harmonyBatchQuery), (0x44, .harmonyHintsV2), (0x46, .harmonyHintsV2Half),
    (0x50, .registerKeys), (0x51, .onionpirIndexQuery), (0x52, .onionpirChunkQuery),
    (0x53, .onionpirMerkleIndexSibling), (0x54, .onionpirMerkleIndexTreeTop),
    (0x55, .onionpirMerkleDataSibling), (0x56, .onionpirMerkleDataTreeTop), (0x60, .oramLookup)]

def Opcode.ofByte (variant : UInt8) : Option Opcode := Opcode.table.lookup variant

/-! ## Requests -/

/-- A round of DPF keys, by group. -/
structure BatchQuery where
  /-- 0 for INDEX, 1 for CHUNK; not on the wire. -/
  level : UInt8
  roundId : UInt16
  dbId : UInt8
  keys : List (List Bytes)

/-- Hints of some groups under a key of the client. -/
structure HarmonyHintRequest where
  prpKey : Digest 16
  prpBackend : UInt8
  level : UInt8
  groupIds : Bytes
  dbId : UInt8

/-- Hints out of the server's pool. -/
structure HarmonyHintRequestV2 where
  dbId : UInt8

/-- One half of a pool entry, by session. -/
structure HarmonyHintRequestV2Half where
  sessionToken : Digest 16
  side : UInt8
  dbId : UInt8

/-- The cells a group is asked for. -/
structure HarmonyBatchItem where
  groupId : UInt8
  subQueries : List (List UInt32)

structure HarmonyBatchQuery where
  level : UInt8
  roundId : UInt16
  subQueriesPerGroup : UInt8
  items : List HarmonyBatchItem
  dbId : UInt8

/-- Script hashes in padded slots. -/
structure OramLookupRequest where
  dbId : UInt8
  scriptHashes : List (Digest scriptHashSize)
  slotPresent : List Bool

inductive Request
  | ping
  | getInfo
  | getDbCatalog
  | getDbProof (dbId : UInt8)
  | getDbProofV2 (dbId : UInt8)
  | attest (nonce : Digest 32)
  | handshake (clientEphPub nonce : Digest 32)
  | indexBatch (q : BatchQuery)
  | chunkBatch (q : BatchQuery)
  | bucketMerkleSibBatch (q : BatchQuery)
  | harmonyGetInfo
  | harmonyHints (h : HarmonyHintRequest)
  | harmonyHintsV2 (h : HarmonyHintRequestV2)
  | harmonyHintsV2Half (h : HarmonyHintRequestV2Half)
  | harmonyBatchQuery (q : HarmonyBatchQuery)
  | oramLookup (q : OramLookupRequest)
  | announce
  | creditPresent (kind : UInt8) (payload : Bytes)
  | apiKey (key : Bytes)

/-! ## Decoding -/

/-- The database id at the end, 0 if there is none. -/
def readDbId : Reader String UInt8 := fun data => .ok (data.headD 0, data.tail)

def maxKeysPerGroup : ℕ := 8

/-- The length a key must have for its domain; longer keys pass. -/
def validateDpfKeyBytes (bytes : Bytes) : Except String Unit :=
  if bytes.length < 18 then .error s!"key too short: {bytes.length} bytes"
  else
    let n := (bytes.headD 0).toNat
    if n < 7 ∨ 32 < n then .error s!"domain n={n} outside [7, 32]"
    else
      let expectedSize := 1 + 16 + 1 + 18 * (n - 7) + 16
      if bytes.length < expectedSize then
        .error s!"key length {bytes.length} below expected {expectedSize} for n={n}"
      else .ok ()

def readKey : Reader String Bytes := do
  let len ← takeU16 "truncated key"
  let key ← take len.toNat "truncated key data"
  lift ((validateDpfKeyBytes key).mapError fun e => s!"bad DPF key: {e}")
  return key

/-- An empty batch may have any number of keys per group. -/
def readBatchQuery (minKeysPerGroup : ℕ) : Reader String BatchQuery := do
  let roundId ← takeU16 "batch query too short"
  let numGroups ← takeU8 "batch query too short"
  let keysPerGroup ← takeU8 "batch query too short"
  ensure (keysPerGroup.toNat ≤ maxKeysPerGroup)
    s!"keys_per_group {keysPerGroup} exceeds maximum {maxKeysPerGroup}"
  ensure (numGroups = 0 ∨ minKeysPerGroup ≤ keysPerGroup.toNat)
    s!"keys_per_group {keysPerGroup} below required {minKeysPerGroup}"
  let keys ← many (many readKey keysPerGroup.toNat) numGroups.toNat
  let dbId ← readDbId
  return ⟨0, roundId, dbId, keys⟩

def readHarmonyHintRequest : Reader String HarmonyHintRequest := do
  let prpKey ← takeArr 16 "harmony hint request too short"
  let prpBackend ← takeU8 "harmony hint request too short"
  let level ← takeU8 "harmony hint request too short"
  let numGroups ← takeU8 "harmony hint request too short"
  let groupIds ← take numGroups.toNat "truncated group list"
  let dbId ← readDbId
  return ⟨prpKey, prpBackend, level, groupIds, dbId⟩

/-- An optional database id that is never written as 0. -/
def exactDbId (zero : String) (data : Bytes) : Except String UInt8 :=
  match data with
  | [] => .ok 0
  | dbId :: _ => if dbId = 0 then .error zero else .ok dbId

def decodeHarmonyHintRequestV2 (data : Bytes) : Except String HarmonyHintRequestV2 := do
  require (data.length = 2 ∨ data.length = 3)
    s!"V2 hint request must be exactly 2 or 3 bytes, got {data.length}"
  require (data.headD 0 = 0xff)
    s!"V2 hint request expected level_sentinel 0xFF, got 0x{hexByte (data.headD 0)}"
  require (data.getD 1 0 = 0) s!"V2 hint request reserved byte must be zero, got {data.getD 1 0}"
  let dbId ← exactDbId "V2 hint request must omit a zero db_id" (data.drop 2)
  return ⟨dbId⟩

def readHarmonyHintRequestV2Half (len : ℕ) : Reader String HarmonyHintRequestV2Half := do
  ensure (len = 17 ∨ len = 18)
    s!"V2 half hint request must be exactly 17 or 18 bytes, got {len}"
  let sessionToken ← takeArr 16 ""
  ensure (¬∀ byte ∈ sessionToken.val, byte = 0)
    "V2 half hint request session token must be non-zero"
  let side ← takeU8 ""
  ensure (side = 0 ∨ side = 1) s!"V2 half hint request side must be 0 or 1, got {side}"
  let rest ← get
  let dbId ← lift (exactDbId "V2 half hint request must omit a zero db_id" rest)
  return ⟨sessionToken, side, dbId⟩

def readSubQuery : Reader String (List UInt32) := do
  let count ← takeU32 "truncated batch sub-query count"
  many (takeU32 "truncated batch indices") count.toNat

def readBatchItem (subQueriesPerGroup : UInt8) : Reader String HarmonyBatchItem := do
  let groupId ← takeU8 "truncated batch group"
  let subQueries ← many readSubQuery subQueriesPerGroup.toNat
  return ⟨groupId, subQueries⟩

def readHarmonyBatchQuery : Reader String HarmonyBatchQuery := do
  let level ← takeU8 "harmony batch query too short"
  let roundId ← takeU16 "harmony batch query too short"
  let numGroups ← takeU16 "harmony batch query too short"
  let subQueriesPerGroup ← takeU8 "harmony batch query too short"
  let items ← many (readBatchItem subQueriesPerGroup) numGroups.toNat
  let dbId ← readDbId
  return ⟨level, roundId, subQueriesPerGroup, items, dbId⟩

def maxOramLookupScripthashes : ℕ := 256

/-- Whether a padded slot is in use. -/
def slotFlag (flag : UInt8) : Except String Bool :=
  if flag = 0 then .ok false
  else if flag = 1 then .ok true
  else .error s!"invalid ORAM padded slot flag {flag}"

/-- The number of slots and which of them are in use. -/
def readSlots (rawCount : UInt16) : Reader String (ℕ × List Bool) :=
  if rawCount = 0xffff then do
    let count ← takeU16 "padded ORAM lookup request too short"
    let flags ← take count.toNat "truncated ORAM padded slot flags"
    let flags ← lift (flags.mapM slotFlag)
    return (count.toNat, flags)
  else return (rawCount.toNat, List.replicate rawCount.toNat true)

def readOramLookupRequest : Reader String OramLookupRequest := do
  let dbId ← takeU8 "ORAM lookup request too short"
  let rawCount ← takeU16 "ORAM lookup request too short"
  let (count, slotPresent) ← readSlots rawCount
  ensure (count ≤ maxOramLookupScripthashes)
    s!"ORAM lookup request count {count} exceeds maximum {maxOramLookupScripthashes}"
  let scriptHashes ←
    many (takeArr scriptHashSize "truncated ORAM scripthash list") count
  return ⟨dbId, scriptHashes, slotPresent⟩

def readCreditPresent (len : ℕ) : Reader String Request := do
  let kind ← takeU8 "credit present request header too short"
  let payloadLen ← takeU32 "credit present request header too short"
  ensure (payloadLen.toNat ≤ 256 * 1024)
    "credit present request: payload length above limit"
  ensure (len = 5 + payloadLen.toNat)
    "credit present request: payload length disagrees with buffer"
  let payload ← get
  return .creditPresent kind payload

/-- The database id of a proof request: exactly one byte. -/
def decodeProofDbId (e : String) : Bytes → Except String UInt8
  | [dbId] => .ok dbId
  | _ => .error e

def readHandshake : Reader String Request := do
  let clientEphPub ←
    takeArr 32 "handshake request must carry 32-byte client_eph_pub + 32-byte nonce"
  let nonce ←
    takeArr 32 "handshake request must carry 32-byte client_eph_pub + 32-byte nonce"
  return .handshake clientEphPub nonce

/-- What a reader returns, whatever is left over. -/
def run {α : Type} (r : Reader String α) (data : Bytes) : Except String α :=
  (r data).map Prod.fst

/-- The OnionPIR variants have decoders of their own. -/
def Request.decode : Bytes → Except String Request
  | [] => .error "empty request"
  | variant :: data =>
    match Opcode.ofByte variant with
    | some .indexBatch => (run (readBatchQuery indexParams.cuckooNumHashes) data).map .indexBatch
    | some .chunkBatch => (run (readBatchQuery 0) data).map .chunkBatch
    | some .bucketMerkleSibBatch => (run (readBatchQuery 0) data).map .bucketMerkleSibBatch
    | some .harmonyHints => (run readHarmonyHintRequest data).map .harmonyHints
    | some .harmonyHintsV2 => (decodeHarmonyHintRequestV2 data).map .harmonyHintsV2
    | some .harmonyHintsV2Half =>
      (run (readHarmonyHintRequestV2Half data.length) data).map .harmonyHintsV2Half
    | some .harmonyBatchQuery => (run readHarmonyBatchQuery data).map .harmonyBatchQuery
    | some .oramLookup => (run readOramLookupRequest data).map .oramLookup
    | some .creditPresent => run (readCreditPresent data.length) data
    | some .apiKey =>
      if data = [] ∨ 128 < data.length then .error "API key request: key must be 1 to 128 bytes"
      else .ok (.apiKey data)
    | some .ping => .ok .ping
    | some .getInfo => .ok .getInfo
    | some .getDbCatalog => .ok .getDbCatalog
    | some .attest =>
      (run (takeArr 32 "attest request must carry a 32-byte nonce") data).map .attest
    | some .handshake => run readHandshake data
    | some .announce => .ok .announce
    | some .getDbProof =>
      (decodeProofDbId "db proof request must carry exactly one db_id byte" data).map .getDbProof
    | some .getDbProofV2 =>
      (decodeProofDbId "db proof v2 request must carry exactly one db_id byte" data).map
        .getDbProofV2
    | some .harmonyGetInfo => .ok .harmonyGetInfo
    | _ => .error s!"unknown request variant: 0x{hexByte variant}"

/-! ## OnionPIR messages -/

/-- The keys of an OnionPIR client. -/
structure RegisterKeysMsg where
  galoisKeys : Bytes
  gswKeys : Bytes
  dbId : UInt8

def readRegisterKeysMsg (len : ℕ) : Reader String RegisterKeysMsg := do
  ensure (8 ≤ len) "keys msg too short"
  let gkLen ← takeU32 "keys msg too short"
  -- The four bytes of the second length are checked with the first keys.
  ensure (4 + gkLen.toNat + 4 ≤ len) "truncated galois keys"
  let galoisKeys ← take gkLen.toNat "truncated galois keys"
  let gswLen ← takeU32 "truncated galois keys"
  let gswKeys ← take gswLen.toNat "truncated gsw keys"
  let dbId ← readDbId
  return ⟨galoisKeys, gswKeys, dbId⟩

def RegisterKeysMsg.decode (data : Bytes) : Except String RegisterKeysMsg :=
  run (readRegisterKeysMsg data.length) data

structure OnionPirBatchQuery where
  roundId : UInt16
  queries : List Bytes
  dbId : UInt8

def readOnionQuery : Reader String Bytes := do
  let len ← takeU32 "truncated query"
  take len.toNat "truncated query data"

def readOnionPirBatchQuery : Reader String OnionPirBatchQuery := do
  let roundId ← takeU16 "query batch too short"
  let numGroups ← takeU8 "query batch too short"
  let queries ← many readOnionQuery numGroups.toNat
  let dbId ← readDbId
  return ⟨roundId, queries, dbId⟩

def OnionPirBatchQuery.decode (data : Bytes) : Except String OnionPirBatchQuery :=
  run readOnionPirBatchQuery data

/-! ## Classification -/

/-- What a decoded request is priced as. -/
def Request.meteredOp : Request → Option (MeteredOp × UInt8)
  | .indexBatch q => some (.dpfIndexRound, q.dbId)
  | .chunkBatch q => some (.dpfChunkRound, q.dbId)
  | .bucketMerkleSibBatch q =>
    (dpfSiblingRound q.roundId).map fun (table, level) => (.dpfSiblingPass table level, q.dbId)
  | .harmonyHints h => some (.harmonyHintSet h.level, h.dbId)
  | .harmonyHintsV2 h => some (.harmonyPoolEntry, h.dbId)
  | .harmonyHintsV2Half h => some (.harmonyContinuation, h.dbId)
  | .harmonyBatchQuery q =>
    some (.harmonyQuery q.level q.subQueriesPerGroup.toUInt32, q.dbId)
  | .oramLookup q => some (.oramLookup, q.dbId)
  | _ => none

/-- An OnionPIR batch is decoded for its database id only. -/
def onionOp (op : MeteredOp) (body : Bytes) : Option (MeteredOp × UInt8) :=
  (OnionPirBatchQuery.decode body).toOption.map fun q => (op, q.dbId)

def meteredOpForFrame : Bytes → Option (MeteredOp × UInt8)
  | [] => none
  | variant :: body =>
    match Opcode.ofByte variant with
    | some .indexBatch | some .chunkBatch | some .bucketMerkleSibBatch | some .harmonyHints
    | some .harmonyHintsV2 | some .harmonyHintsV2Half | some .harmonyBatchQuery
    | some .oramLookup => (Request.decode (variant :: body)).toOption.bind Request.meteredOp
    | some .bucketMerkleTreeTops => some (.treeTops, body.headD 0)
    | some .onionpirMerkleIndexTreeTop | some .onionpirMerkleDataTreeTop =>
      some (.onionTreeTops, body.headD 0)
    | some .registerKeys =>
      (RegisterKeysMsg.decode body).toOption.map fun msg => (.onionRegisterKeys, msg.dbId)
    | some .onionpirIndexQuery => onionOp .onionIndexQuery body
    | some .onionpirChunkQuery => onionOp .onionChunkQuery body
    | some .onionpirMerkleIndexSibling => onionOp (.onionSiblingQuery .index) body
    | some .onionpirMerkleDataSibling => onionOp (.onionSiblingQuery .chunk) body
    | _ => none

end BitcoinPir.Meter
