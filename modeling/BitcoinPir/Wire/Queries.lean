import BitcoinPir.Foundations.Lists
import BitcoinPir.Wire.Requests

/-!
# Query batches between client and server

The client library has its own encoders of DPF and HarmonyPIR query batches and its own decoders of
the results; the server uses `Request.decode` and `Response.encode`. The two sides agree on every
batch a client can build and every result that fits its length fields
(`client_server_queries_agree`).
-/

namespace BitcoinPir.Wire

open Foundations Meter Reader

/-! ## The client's queries -/

/-- A DPF key, as the key generator returns it; a server accepts domain exponents up to 32. -/
structure DpfKey where
  n : UInt8
  s0 : Digest 16
  t0 : UInt8
  /-- Per layer: correction word and the two correction bits. -/
  layers : List (Digest 18)
  finalBlock : Digest 16
  seven_le_n : 7 ≤ n.toNat
  n_le : n.toNat ≤ 32
  length_layers : layers.length = n.toNat - 7

def DpfKey.toBytes (key : DpfKey) : Bytes :=
  key.n :: (key.s0.val ++ key.t0 :: (Digest.concat key.layers ++ key.finalBlock.val))

namespace Dpf

/-- A batch of DPF keys; the level is not sent. -/
def encodeBatchQuery (variant _level : UInt8) (roundId : UInt16) (dbId : UInt8)
    (keys : List (List Bytes)) : Bytes :=
  let keysPerGroup := (keys.head?.map List.length).getD 0
  encodeRequest variant (leBytes 2 roundId.toNat ++ ([UInt8.ofNat keys.length] ++
    ([UInt8.ofNat keysPerGroup] ++ (keys.flatMap (fun groupKeys => groupKeys.flatMap fun key =>
      leBytes 2 key.length ++ key) ++ dbIdSuffix dbId))))

end Dpf

namespace MerkleVerify

/-- A batch of Merkle sibling queries, one key per group. -/
def encodeSiblingBatch (dbId : UInt8) (roundId : UInt16) (keysPerGroup : List Bytes) : Bytes :=
  encodeRequest 0x33 (leBytes 2 roundId.toNat ++ ([UInt8.ofNat keysPerGroup.length] ++
    ([1] ++ (keysPerGroup.flatMap (fun key => leBytes 2 key.length ++ key) ++ dbIdSuffix dbId))))

end MerkleVerify

namespace Harmony

structure BatchItem where
  groupId : UInt8
  indices : List UInt32

/-- A batch of HarmonyPIR queries, one index list per group. -/
def encodeBatchQuery (level : UInt8) (roundId : UInt16) (dbId : UInt8) (items : List BatchItem) :
    Bytes :=
  encodeRequest 0x43 ([level] ++ (leBytes 2 roundId.toNat ++ (leBytes 2 items.length ++ ([1] ++
    (items.flatMap (fun item => [item.groupId] ++ (leBytes 4 item.indices.length ++
      item.indices.flatMap fun idx => leBytes 4 idx.toNat)) ++ dbIdSuffix dbId)))))

end Harmony

/-! ## The server's results -/

structure BatchResult where
  level : UInt8
  roundId : UInt16
  results : List (List Bytes)

structure HarmonyBatchResultItem where
  groupId : UInt8
  subResults : List Bytes

structure HarmonyBatchResult where
  level : UInt8
  roundId : UInt16
  subResultsPerGroup : UInt8
  items : List HarmonyBatchResultItem

/-- The responses to query batches. -/
inductive Response
  | indexBatch (r : BatchResult)
  | chunkBatch (r : BatchResult)
  | bucketMerkleSibBatch (r : BatchResult)
  | harmonyBatchResult (r : HarmonyBatchResult)

def BatchResult.resultsPerGroup (r : BatchResult) : ℕ := (r.results.head?.map List.length).getD 0

def encodeResult (res : Bytes) : Bytes := leBytes 2 res.length ++ res

def encodeBatchResult (r : BatchResult) : Bytes :=
  leBytes 2 r.roundId.toNat ++ ([UInt8.ofNat r.results.length] ++
    ([UInt8.ofNat r.resultsPerGroup] ++ r.results.flatMap fun group => group.flatMap encodeResult))

def encodeHarmonyBatchResultItem (item : HarmonyBatchResultItem) : Bytes :=
  [item.groupId] ++ item.subResults.flatMap fun sr => leBytes 4 sr.length ++ sr

def encodeHarmonyBatchResult (r : HarmonyBatchResult) : Bytes :=
  [r.level] ++ (leBytes 2 r.roundId.toNat ++ (leBytes 2 r.items.length ++
    ([r.subResultsPerGroup] ++ r.items.flatMap encodeHarmonyBatchResultItem)))

def Response.encode : Response → Bytes
  | .indexBatch r => encodeResponse (0x11 :: encodeBatchResult r)
  | .chunkBatch r => encodeResponse (0x21 :: encodeBatchResult r)
  | .bucketMerkleSibBatch r => encodeResponse (0x33 :: encodeBatchResult r)
  | .harmonyBatchResult r => encodeResponse (0x43 :: encodeHarmonyBatchResult r)

/-! ## The client's decoders -/

/-- Nothing may follow. -/
def readEnd (e : ℕ → PirError) : Reader PirError Unit := do
  let rest ← get
  ensure (rest = []) (e rest.length)

namespace Dpf

def readResult (context : String) : Reader PirError Bytes := do
  let resultLen ← takeU16 (.decode s!"{context}: truncated result length")
  take resultLen.toNat (.decode s!"{context}: truncated result data")

/-- What follows the variant byte. -/
def readBatchResponse (expectedRoundId : UInt16) (context : String) :
    Reader PirError (List (List Bytes)) := do
  let header ← take 4 (.decode s!"{context}: truncated batch response header")
  let roundId := UInt16.ofNat (leNat (header.take 2))
  ensure (roundId = expectedRoundId) (.protocol
    s!"{context}: batch response round_id mismatch: expected {expectedRoundId}, got {roundId}")
  let numGroups := (header.getD 2 0).toNat
  let resultsPerGroup := (header.getD 3 0).toNat
  let results ← many (many (readResult context) resultsPerGroup) numGroups
  readEnd fun n => .decode s!"{context}: trailing bytes after batch response: {n}"
  return results

/-- Decode a response frame, its length prefix included. -/
def decodeBatchResponse (frame : Bytes) (expectedVariant : UInt8) (expectedVariantName : String)
    (expectedRoundId : UInt16) (context : String) : PirResult (List (List Bytes)) :=
  if frame.length < 4 then
    .error (.decode s!"{context}: truncated batch response length prefix")
  else
    let bodyLen := leNat (frame.take 4)
    if frame.length ≠ 4 + bodyLen then
      .error (.decode
        s!"{context}: batch response length mismatch: prefix declares {bodyLen} body bytes, frame has {frame.length - 4}")
    else
      match frame.drop 4 with
      | [] => .error (.decode s!"{context}: empty batch response body")
      | variant :: data => do
        rejectErrorResponse (variant :: data) context
        require (variant = expectedVariant)
          (.unexpectedResponse expectedVariantName s!"0x{hexByte variant}")
        let (results, _) ← readBatchResponse expectedRoundId context data
        return results

end Dpf

namespace MerkleVerify

def readSiblingResult (context : String) (g k : ℕ) : Reader PirError Bytes := do
  let len ← takeU16 (.decode s!"{context}: truncated length for group {g} key {k}")
  take len.toNat (.decode s!"{context}: truncated data for group {g} key {k}")

/-- What follows the variant byte. -/
def readSiblingBatch (expectedRoundId : Option UInt16) (expectedGroups : Option ℕ)
    (context : String) : Reader PirError (List (List Bytes)) := do
  let header ← take 4 (.decode "sibling batch body too short")
  let roundId := UInt16.ofNat (leNat (header.take 2))
  ensure (∀ expected ∈ expectedRoundId, roundId = expected) (.protocol
    s!"{context}: sibling round_id mismatch: expected {expectedRoundId.getD 0}, got {roundId}")
  let numGroups := (header.getD 2 0).toNat
  ensure (∀ expected ∈ expectedGroups, numGroups = expected) (.protocol
    s!"{context}: sibling group count mismatch: expected {expectedGroups.getD 0}, got {numGroups}")
  let resultsPerGroup := (header.getD 3 0).toNat
  ensure (resultsPerGroup = 1) (.protocol
    s!"{context}: expected exactly one sibling result per group, got {resultsPerGroup}")
  let results ← manyFrom
    (fun g => manyFrom (readSiblingResult context g) 0 resultsPerGroup) 0 numGroups
  readEnd fun n => .decode s!"{context}: trailing bytes after sibling response: {n}"
  return results

/-- Decode a response body, without its length prefix. -/
def decodeSiblingBatchBody (data : Bytes) (expectedRoundId : Option UInt16)
    (expectedGroups : Option ℕ) (context : String) : PirResult (List (List Bytes)) :=
  match data with
  | [] => .error (.decode s!"{context}: empty sibling response")
  | variant :: body => do
    match ← decodeErrorResponseMessage (variant :: body) context with
    | some message => .error (.merkleVerificationFailed s!"{context}: {message}")
    | none =>
      require (variant = 0x33)
        (.unexpectedResponse "RESP_BUCKET_MERKLE_SIB_BATCH" s!"{context}: 0x{hexByte variant}")
      let (results, _) ← readSiblingBatch expectedRoundId expectedGroups context body
      return results

end MerkleVerify

namespace Harmony

/-- The next groups of a response, added to those read so far. -/
def readGroups (expectedGroups : ℕ) (context : String) :
    ℕ → List (UInt8 × Bytes) → Reader PirError (List (UInt8 × Bytes))
  | 0, out => pure out
  | n + 1, out => do
    let gid ← takeU8 (.decode s!"{context}: group id truncated")
    ensure (gid.toNat < expectedGroups)
      (.protocol s!"{context}: out-of-range group id {gid} for {expectedGroups} groups")
    ensure (gid ∉ out.map Prod.fst) (.protocol s!"{context}: duplicate group id {gid}")
    let dlen ← takeU32 (.decode s!"{context}: sub-result length truncated")
    let data ← take dlen.toNat (.decode s!"{context}: sub-result data truncated")
    readGroups expectedGroups context n (out ++ [(gid, data)])

/-- What follows the variant byte. -/
def readBatchResponse (expectedLevel : UInt8) (expectedRoundId : UInt16) (expectedGroups : ℕ)
    (context : String) : Reader PirError (List (UInt8 × Bytes)) := do
  let header ← take 6 (.decode s!"{context}: batch response header truncated")
  let level := header.getD 0 0
  ensure (level = expectedLevel) (.protocol
    s!"{context}: batch response level mismatch: expected {expectedLevel}, got {level}")
  let roundId := UInt16.ofNat (leNat ((header.drop 1).take 2))
  ensure (roundId = expectedRoundId) (.protocol
    s!"{context}: batch response round_id mismatch: expected {expectedRoundId}, got {roundId}")
  let numGroups := leNat ((header.drop 3).take 2)
  ensure (numGroups = expectedGroups) (.protocol
    s!"{context}: batch response group count mismatch: expected {expectedGroups}, got {numGroups}")
  let subPerGroup := (header.getD 5 0).toNat
  ensure (subPerGroup = 1) (.protocol
    s!"{context}: expected exactly one sub-result per group, got {subPerGroup}")
  let out ← readGroups expectedGroups context numGroups []
  readEnd fun n => .decode s!"{context}: trailing bytes after batch response: {n}"
  return out

/-- Decode a response body, without its length prefix, into the results by group id. -/
def decodeBatchResponseBody (body : Bytes) (expectedLevel : UInt8) (expectedRoundId : UInt16)
    (expectedGroups : ℕ) (context : String) : PirResult (List (UInt8 × Bytes)) :=
  match body with
  | [] => .error (.decode s!"{context}: empty batch response")
  | variant :: data => do
    rejectErrorResponse (variant :: data) context
    require (variant = 0x43)
      (.unexpectedResponse "RESP_HARMONY_BATCH_QUERY" s!"0x{hexByte variant}")
    let (out, _) ← readBatchResponse expectedLevel expectedRoundId expectedGroups context data
    return out

end Harmony

/-! ## Batches and results -/

theorem DpfKey.length_toBytes (key : DpfKey) :
    key.toBytes.length = 1 + 16 + 1 + 18 * (key.n.toNat - 7) + 16 := by
  have hs0 := key.s0.property
  have hfinal := key.finalBlock.property
  rw [toBytes]
  simp only [List.length_cons, List.length_append, Digest.length_concat, hs0, hfinal,
    key.length_layers]
  omega

theorem DpfKey.validate_toBytes (key : DpfKey) : validateDpfKeyBytes key.toBytes = .ok () := by
  have hlen := key.length_toBytes
  have hn : ¬(key.n.toNat < 7 ∨ 32 < key.n.toNat) := by
    have := key.seven_le_n
    have := key.n_le
    omega
  have hhead : key.toBytes.headD 0 = key.n := rfl
  rw [validateDpfKeyBytes, if_neg (by omega), hhead]
  rw [if_neg hn, if_neg (by omega)]

theorem DpfKey.length_toBytes_lt (key : DpfKey) : key.toBytes.length < 2 ^ 16 := by
  have := key.n_le
  rw [length_toBytes]
  omega

/-- A batch of DPF keys that the client sends: every group has a key per cuckoo position. -/
structure DpfBatch where
  roundId : UInt16
  dbId : UInt8
  keysPerGroup : ℕ
  keys : List (List DpfKey)
  groups : keys.length < 256
  perGroup : ∀ group ∈ keys, group.length = keysPerGroup
  minKeys : indexParams.cuckooNumHashes ≤ keysPerGroup
  maxKeys : keysPerGroup ≤ maxKeysPerGroup

namespace DpfBatch

variable (b : DpfBatch)

def keyBytes : List (List Bytes) := b.keys.map fun group => group.map DpfKey.toBytes

/-- The request that is meant. -/
def query : BatchQuery := ⟨0, b.roundId, b.dbId, b.keyBytes⟩

theorem keysPerGroup_query (h : b.keys ≠ []) : b.query.keysPerGroup = b.keysPerGroup := by
  obtain ⟨group, keys, hkeys⟩ := List.exists_cons_of_ne_nil h
  have hgroup := b.perGroup group (by rw [hkeys]; exact List.mem_cons_self)
  simp [BatchQuery.keysPerGroup, query, keyBytes, hkeys, hgroup]

theorem fits {minKeysPerGroup : ℕ} (hmin : minKeysPerGroup ≤ indexParams.cuckooNumHashes) :
    b.query.Fits minKeysPerGroup where
  groups := by simpa [query, keyBytes] using b.groups
  perGroup := by
    intro group hgroup
    obtain ⟨keys, hkeys, rfl⟩ := List.mem_map.1 hgroup
    rw [b.keysPerGroup_query (List.ne_nil_of_mem hkeys), List.length_map, b.perGroup keys hkeys]
  maxKeys := by
    by_cases h : b.keys = []
    · simp [BatchQuery.keysPerGroup, query, keyBytes, h]
    · rw [b.keysPerGroup_query h]
      exact b.maxKeys
  minKeys := by
    intro h
    have hne : b.keys ≠ [] := fun hnil => h (by simp [query, keyBytes, hnil])
    rw [b.keysPerGroup_query hne]
    exact hmin.trans b.minKeys
  keyLength := by
    intro group hgroup key hkey
    obtain ⟨keys, -, rfl⟩ := List.mem_map.1 hgroup
    obtain ⟨dpfKey, -, rfl⟩ := List.mem_map.1 hkey
    exact dpfKey.length_toBytes_lt
  keyFrame := by
    intro group hgroup key hkey
    obtain ⟨keys, -, rfl⟩ := List.mem_map.1 hgroup
    obtain ⟨dpfKey, -, rfl⟩ := List.mem_map.1 hkey
    exact dpfKey.validate_toBytes

end DpfBatch

/-- A batch of Merkle sibling keys that the client sends, one per group. -/
structure SiblingBatch where
  roundId : UInt16
  dbId : UInt8
  keys : List DpfKey
  groups : keys.length < 256

namespace SiblingBatch

def keyBytes (b : SiblingBatch) : List Bytes := b.keys.map DpfKey.toBytes

/-- The request that is meant. -/
def query (b : SiblingBatch) : BatchQuery := ⟨0, b.roundId, b.dbId, b.keyBytes.map fun key => [key]⟩

end SiblingBatch

/-- A batch of HarmonyPIR index lists that the client sends. -/
structure HarmonyBatch where
  level : UInt8
  roundId : UInt16
  dbId : UInt8
  items : List Harmony.BatchItem
  groups : items.length < 2 ^ 16
  indices : ∀ item ∈ items, item.indices.length < 2 ^ 32

namespace HarmonyBatch

/-- The request that is meant. -/
def query (b : HarmonyBatch) : HarmonyBatchQuery :=
  ⟨b.level, b.roundId, 1, b.items.map fun item => ⟨item.groupId, [item.indices]⟩, b.dbId⟩

theorem fits (b : HarmonyBatch) : b.query.Fits where
  items := by simpa [query] using b.groups
  perGroup := by simp [query]
  indices := by simpa [query] using b.indices

end HarmonyBatch

/-- The results of a DPF batch fit their counts and 16-bit lengths. -/
structure BatchResult.Fits (r : BatchResult) : Prop where
  groups : r.results.length < 256
  perGroup : ∀ group ∈ r.results, group.length = r.resultsPerGroup
  results : r.resultsPerGroup < 256
  lengths : ∀ group ∈ r.results, ∀ res ∈ group, res.length < 2 ^ 16

/-- The result of a HarmonyPIR batch of queries: one sub-result for each group, by group id. -/
structure HarmonyBatchResult.Fits (r : HarmonyBatchResult) : Prop where
  groups : r.items.length < 2 ^ 16
  perGroup : r.subResultsPerGroup = 1
  one : ∀ item ∈ r.items, ∃ data, item.subResults = [data] ∧ data.length < 2 ^ 32
  ids : (r.items.map HarmonyBatchResultItem.groupId).Nodup
  range : ∀ item ∈ r.items, item.groupId.toNat < r.items.length

def HarmonyBatchResult.byGroup (r : HarmonyBatchResult) : List (UInt8 × Bytes) :=
  r.items.map fun item => (item.groupId, item.subResults.headD [])

/-! ## Queries reach the server -/

theorem drop_encodeRequest (variant : UInt8) (payload : Bytes) :
    (encodeRequest variant payload).drop 4 = variant :: payload :=
  List.drop_left' (length_leBytes 4 _)

/-- A sibling batch as its server reads it. -/
def SiblingBatch.body (b : SiblingBatch) : Bytes :=
  leBytes 2 b.roundId.toNat ++ ([UInt8.ofNat b.query.keys.length] ++ ([1] ++
    (b.query.keys.flatMap (fun group => group.flatMap encodeKey) ++ dbIdSuffix b.dbId)))

theorem MerkleVerify.drop_encodeSiblingBatch (b : SiblingBatch) :
    (encodeSiblingBatch b.dbId b.roundId b.keyBytes).drop 4 = 0x33 :: b.body := by
  have hkeys : b.query.keys.flatMap (fun group => group.flatMap encodeKey) =
      b.keyBytes.flatMap fun key => leBytes 2 key.length ++ key := by
    simp [SiblingBatch.query, List.flatMap_map, encodeKey]
  have hlen : b.query.keys.length = b.keyBytes.length := List.length_map _
  rw [SiblingBatch.body, hkeys, hlen]
  exact drop_encodeRequest 0x33 _

theorem Harmony.drop_encodeBatchQuery (b : HarmonyBatch) :
    (encodeBatchQuery b.level b.roundId b.dbId b.items).drop 4 =
      0x43 :: encodeHarmonyBatchQuery b.query := by
  have hitems : b.query.items.flatMap encodeBatchItem =
      b.items.flatMap fun item => [item.groupId] ++ (leBytes 4 item.indices.length ++
        item.indices.flatMap fun idx => leBytes 4 idx.toNat) := by
    simp [HarmonyBatch.query, List.flatMap_map, encodeBatchItem, encodeSubQuery]
  have hlen : b.query.items.length = b.items.length := List.length_map _
  rw [encodeHarmonyBatchQuery, hitems, hlen]
  exact drop_encodeRequest 0x43 _

theorem decode_indexBatch (b : DpfBatch) :
    Request.decode ((Dpf.encodeBatchQuery 0x11 0 b.roundId b.dbId b.keyBytes).drop 4) =
      .ok (.indexBatch b.query) := by
  have hfits : (Request.indexBatch b.query).Fits := b.fits le_rfl
  exact Request.decode_payload hfits

theorem decode_chunkBatch (b : DpfBatch) :
    Request.decode ((Dpf.encodeBatchQuery 0x21 1 b.roundId b.dbId b.keyBytes).drop 4) =
      .ok (.chunkBatch b.query) := by
  have hfits : (Request.chunkBatch b.query).Fits := b.fits (Nat.zero_le _)
  exact Request.decode_payload hfits

theorem decode_harmonyBatch (b : HarmonyBatch) :
    Request.decode ((Harmony.encodeBatchQuery b.level b.roundId b.dbId b.items).drop 4) =
      .ok (.harmonyBatchQuery b.query) := by
  have hfits : (Request.harmonyBatchQuery b.query).Fits := b.fits
  rw [Harmony.drop_encodeBatchQuery]
  exact Request.decode_payload hfits

/-- A sibling batch announces one key per group even if it has no group, so it is not read as the
server's encoding of the same request is. -/
theorem decode_siblingBatch (b : SiblingBatch) :
    Request.decode ((MerkleVerify.encodeSiblingBatch b.dbId b.roundId b.keyBytes).drop 4) =
      .ok (.bucketMerkleSibBatch b.query) := by
  have hgroups : b.query.keys.length < 256 := by
    simpa [SiblingBatch.query, SiblingBatch.keyBytes] using b.groups
  have hkeys : Reads (many (many readKey 1) b.query.keys.length)
      (b.query.keys.flatMap fun group => group.flatMap encodeKey) b.query.keys := by
    apply reads_many
    intro group hgroup
    obtain ⟨key, hkey, rfl⟩ := List.mem_map.1 hgroup
    obtain ⟨dpfKey, -, rfl⟩ := List.mem_map.1 hkey
    have hread : ∀ key ∈ [dpfKey.toBytes], Reads readKey (encodeKey key) key := by
      simpa using reads_key dpfKey.length_toBytes_lt dpfKey.validate_toBytes
    exact reads_many hread
  have hper : ((1 : UInt8).toNat) ≤ maxKeysPerGroup := by decide
  have hread : run (readBatchQuery 0) b.body = .ok b.query := by
    rw [readBatchQuery, SiblingBatch.body, run_bind_append (reads_takeU16 _ _),
      run_bind_append (reads_takeU8 _ _), run_bind_append (reads_takeU8 _ _),
      run_ensure_bind hper, run_ensure_bind (.inr (Nat.zero_le _)), toNat_ofNat_of_lt_256 hgroups]
    exact (run_bind_append hkeys _).trans (run_readDbId_bind _ _)
  rw [MerkleVerify.drop_encodeSiblingBatch]
  exact congrArg (Except.map Request.bucketMerkleSibBatch) hread

/-! ## Results reach the client -/

theorem drop_encodeResponse (payload : Bytes) : (encodeResponse payload).drop 4 = payload :=
  List.drop_left' (length_leBytes 4 _)

theorem readEnd_nil (e : ℕ → PirError) : readEnd e [] = .ok ((), []) := rfl

variable {r : BatchResult}

/-- The largest results fit the length prefix of a frame. -/
theorem BatchResult.Fits.length_lt (h : r.Fits) : (encodeBatchResult r).length + 1 < 2 ^ 32 := by
  have hgroup : ∀ group ∈ r.results, (group.flatMap encodeResult).length ≤ 255 * (2 ^ 16 + 1) := by
    intro group hgroup
    have hres : ∀ res ∈ group, (encodeResult res).length ≤ 2 ^ 16 + 1 := by
      intro res hres
      have := h.lengths group hgroup res hres
      rw [encodeResult, List.length_append, length_leBytes]
      omega
    have hlen : group.length ≤ 255 := by
      rw [h.perGroup group hgroup]
      exact Nat.le_of_lt_succ h.results
    exact (length_flatMap_le hres).trans (Nat.mul_le_mul_right _ hlen)
  have hall : (r.results.flatMap fun group => group.flatMap encodeResult).length ≤ _ :=
    length_flatMap_le hgroup
  have hcount := h.groups
  rw [encodeBatchResult]
  simp only [List.length_append, length_leBytes, List.length_cons, List.length_nil]
  omega

/-- The fixed part of a batch result. -/
def BatchResult.header (r : BatchResult) : Bytes :=
  leBytes 2 r.roundId.toNat ++ [UInt8.ofNat r.results.length, UInt8.ofNat r.resultsPerGroup]

theorem BatchResult.length_header : r.header.length = 4 := rfl

theorem encodeBatchResult_eq : encodeBatchResult r = r.header ++
      r.results.flatMap fun group => group.flatMap encodeResult := by
  rw [encodeBatchResult, BatchResult.header]
  simp only [List.append_assoc, List.cons_append, List.nil_append]

theorem ofNat_leNat_leBytes (x : UInt16) : UInt16.ofNat (leNat (leBytes 2 x.toNat)) = x := by
  rw [leNat_leBytes_of_lt x.toNat_lt, UInt16.ofNat_toNat]

namespace Dpf

theorem reads_result {res : Bytes} (h : res.length < 2 ^ 16) (context : String) :
    Reads (readResult context) (encodeResult res) res :=
  reads_u16Item h _ _

theorem readBatchResponse_encode (h : r.Fits) (context : String) :
    readBatchResponse r.roundId context (encodeBatchResult r) = .ok (r.results, []) := by
  have hresults : Reads
      (many (many (readResult context) r.resultsPerGroup) r.results.length)
      (r.results.flatMap fun group => group.flatMap encodeResult) r.results := by
    apply reads_many
    intro group hgroup
    rw [← h.perGroup group hgroup]
    exact reads_many fun res hres => reads_result (h.lengths group hgroup res hres) context
  have hround : UInt16.ofNat (leNat (r.header.take 2)) = r.roundId :=
    ofNat_leNat_leBytes r.roundId
  have hread := hresults []
  rw [List.append_nil] at hread
  rw [encodeBatchResult_eq, readBatchResponse, (reads_take r.length_header _).bind_append,
    ensure_bind hround]
  change (many (many (readResult context) (UInt8.ofNat r.resultsPerGroup).toNat)
    (UInt8.ofNat r.results.length).toNat >>= _) _ = _
  rw [toNat_ofNat_of_lt_256 h.groups, toNat_ofNat_of_lt_256 h.results, bind_ok hread,
    bind_ok (readEnd_nil _)]
  rfl

theorem decodeBatchResponse_encode (h : r.Fits) {variant : UInt8}
    (hvariant : variant ≠ respError) (variantName context : String) :
    decodeBatchResponse (encodeResponse (variant :: encodeBatchResult r)) variant variantName
      r.roundId context = .ok r.results := by
  have hlen : leNat ((encodeResponse (variant :: encodeBatchResult r)).take 4) =
      (variant :: encodeBatchResult r).length := by
    rw [encodeResponse, List.take_left' (length_leBytes 4 _),
      leNat_leBytes_of_lt (by rw [List.length_cons]; exact h.length_lt)]
  have htotal : (encodeResponse (variant :: encodeBatchResult r)).length =
      4 + (variant :: encodeBatchResult r).length := by
    rw [encodeResponse, List.length_append, length_leBytes]
  rw [decodeBatchResponse]
  rw [hlen, if_neg (not_not.2 htotal), drop_encodeResponse]
  dsimp only
  rw [rejectErrorResponse_of_head? (by simpa using hvariant), ok_bind, require_of rfl, ok_bind,
    readBatchResponse_encode h, ok_bind]
  rfl

end Dpf

namespace MerkleVerify

theorem reads_siblingResult {res : Bytes} (h : res.length < 2 ^ 16) (context : String) (g k : ℕ) :
    Reads (readSiblingResult context g k) (encodeResult res) res :=
  reads_u16Item h _ _

theorem readSiblingBatch_encode (h : r.Fits) (hone : r.resultsPerGroup = 1)
    (context : String) :
    readSiblingBatch (some r.roundId) (some r.results.length) context (encodeBatchResult r) =
      .ok (r.results, []) := by
  have hresults : Reads (manyFrom
      (fun g => manyFrom (readSiblingResult context g) 0 1) 0 r.results.length)
      (r.results.flatMap fun group => group.flatMap encodeResult) r.results := by
    apply reads_manyFrom
    intro group hgroup g
    rw [← hone, ← h.perGroup group hgroup]
    exact reads_manyFrom
      (fun res hres k => reads_siblingResult (h.lengths group hgroup res hres) context g k) 0
  have hround : ∀ expected ∈ some r.roundId,
      UInt16.ofNat (leNat (r.header.take 2)) = expected := by
    rintro _ ⟨⟩
    exact ofNat_leNat_leBytes r.roundId
  have hgroups : ∀ expected ∈ some r.results.length,
      (r.header.getD 2 0).toNat = expected := by
    rintro _ ⟨⟩
    exact toNat_ofNat_of_lt_256 h.groups
  have hper : (r.header.getD 3 0).toNat = 1 := by
    change (UInt8.ofNat r.resultsPerGroup).toNat = 1
    rw [hone]
    rfl
  have hread := hresults []
  rw [List.append_nil] at hread
  rw [encodeBatchResult_eq, readSiblingBatch, (reads_take r.length_header _).bind_append,
    ensure_bind hround, ensure_bind hgroups, ensure_bind hper, hper,
    hgroups _ rfl, bind_ok hread, bind_ok (readEnd_nil _)]
  rfl

theorem decodeSiblingBatchBody_encode (h : r.Fits) (hone : r.resultsPerGroup = 1)
    (context : String) :
    decodeSiblingBatchBody ((Response.bucketMerkleSibBatch r).encode.drop 4) (some r.roundId)
      (some r.results.length) context = .ok r.results := by
  rw [Response.encode, drop_encodeResponse, decodeSiblingBatchBody]
  rw [readSiblingBatch_encode h hone]
  rfl

end MerkleVerify

namespace Harmony

/-- The groups of a response are added one by one; `out` are the ones before. -/
theorem reads_groups {expectedGroups : ℕ} (context : String) {items : List HarmonyBatchResultItem}
    (hone : ∀ item ∈ items, ∃ data, item.subResults = [data] ∧ data.length < 2 ^ 32)
    (hrange : ∀ item ∈ items, item.groupId.toNat < expectedGroups) (out : List (UInt8 × Bytes))
    (hids : (out.map Prod.fst ++ items.map HarmonyBatchResultItem.groupId).Nodup) :
    Reads (readGroups expectedGroups context items.length out)
      (items.flatMap encodeHarmonyBatchResultItem)
      (out ++ items.map fun item => (item.groupId, item.subResults.headD [])) := by
  induction items generalizing out with
  | nil =>
    rw [List.map_nil, List.append_nil]
    exact reads_pure out
  | cons item items ih =>
    obtain ⟨data, hdata, hlen⟩ := hone item List.mem_cons_self
    have hnew : item.groupId ∉ out.map Prod.fst := by
      exact fun hmem => List.disjoint_of_nodup_append hids hmem List.mem_cons_self
    have hrest : ((out ++ [(item.groupId, data)]).map Prod.fst ++
        items.map HarmonyBatchResultItem.groupId).Nodup := by
      simpa using hids
    have hih := ih (fun i hi => hone i (List.mem_cons_of_mem _ hi))
      (fun i hi => hrange i (List.mem_cons_of_mem _ hi)) _ hrest
    intro rest
    have hbytes : (item :: items).flatMap encodeHarmonyBatchResultItem ++ rest =
        [item.groupId] ++ (leBytes 4 data.length ++ (data ++
          (items.flatMap encodeHarmonyBatchResultItem ++ rest))) := by
      simp [encodeHarmonyBatchResultItem, hdata]
    rw [hbytes, List.length_cons, readGroups, (reads_takeU8 _ _).bind_append,
      ensure_bind (hrange item List.mem_cons_self), ensure_bind hnew,
      (reads_countU32 hlen _).bind_append,
      UInt32.toNat_ofNat_of_lt' hlen, (reads_take rfl _).bind_append, hih]
    simp [hdata]

/-- The fixed part of a HarmonyPIR result. -/
def resultHeader (r : HarmonyBatchResult) : Bytes :=
  [r.level] ++ (leBytes 2 r.roundId.toNat ++ (leBytes 2 r.items.length ++ [r.subResultsPerGroup]))

theorem length_resultHeader (r : HarmonyBatchResult) : (resultHeader r).length = 6 := rfl

theorem encodeHarmonyBatchResult_eq (r : HarmonyBatchResult) :
    encodeHarmonyBatchResult r =
      resultHeader r ++ r.items.flatMap encodeHarmonyBatchResultItem := by
  rw [encodeHarmonyBatchResult, resultHeader]
  simp only [List.append_assoc]

theorem readBatchResponse_encode {r : HarmonyBatchResult} (h : r.Fits) (context : String) :
    readBatchResponse r.level r.roundId r.items.length context (encodeHarmonyBatchResult r) =
      .ok (r.byGroup, []) := by
  have hread := reads_groups context h.one h.range [] (by simpa using h.ids) []
  rw [List.append_nil] at hread
  have hlevel : (resultHeader r).getD 0 0 = r.level := rfl
  have hround : UInt16.ofNat (leNat (((resultHeader r).drop 1).take 2)) = r.roundId :=
    ofNat_leNat_leBytes r.roundId
  have hcount : leNat (((resultHeader r).drop 3).take 2) = r.items.length := by
    change leNat (leBytes 2 r.items.length) = r.items.length
    exact leNat_leBytes_of_lt h.groups
  have hper : ((resultHeader r).getD 5 0).toNat = 1 := by
    change r.subResultsPerGroup.toNat = 1
    rw [h.perGroup]
    rfl
  rw [encodeHarmonyBatchResult_eq, readBatchResponse,
    (reads_take (length_resultHeader r) _).bind_append,
    ensure_bind hlevel, ensure_bind hround, ensure_bind hcount,
    ensure_bind hper, hcount, bind_ok hread, bind_ok (readEnd_nil _)]
  rfl

theorem decodeBatchResponseBody_encode {r : HarmonyBatchResult} (h : r.Fits) (context : String) :
    decodeBatchResponseBody ((Response.harmonyBatchResult r).encode.drop 4) r.level r.roundId
      r.items.length context = .ok r.byGroup := by
  have hreject : rejectErrorResponse (0x43 :: encodeHarmonyBatchResult r) context = .ok () := rfl
  rw [Response.encode, drop_encodeResponse, decodeBatchResponseBody, hreject, ok_bind,
    require_of rfl, ok_bind, readBatchResponse_encode h, ok_bind]
  rfl

end Harmony

/-! ## Agreement -/

/-- **Client and server agree on query batches.** The server decodes the request that the client
means, and the client decodes the results that the server encodes. Sibling and HarmonyPIR queries
ask for one result per group, and that is what their results have. -/
theorem client_server_queries_agree (dpf : DpfBatch) (sibling : SiblingBatch)
    (harmony : HarmonyBatch) {results siblings : BatchResult} {harmonyResults : HarmonyBatchResult}
    (hresults : results.Fits) (hsiblings : siblings.Fits) (hone : siblings.resultsPerGroup = 1)
    (hharmony : harmonyResults.Fits) (context : String) :
    (Request.decode ((Dpf.encodeBatchQuery 0x11 0 dpf.roundId dpf.dbId dpf.keyBytes).drop 4) =
        .ok (.indexBatch dpf.query) ∧
      Request.decode ((Dpf.encodeBatchQuery 0x21 1 dpf.roundId dpf.dbId dpf.keyBytes).drop 4) =
        .ok (.chunkBatch dpf.query) ∧
      Request.decode ((MerkleVerify.encodeSiblingBatch sibling.dbId sibling.roundId
        sibling.keyBytes).drop 4) = .ok (.bucketMerkleSibBatch sibling.query) ∧
      Request.decode ((Harmony.encodeBatchQuery harmony.level harmony.roundId harmony.dbId
        harmony.items).drop 4) = .ok (.harmonyBatchQuery harmony.query)) ∧
    (Dpf.decodeBatchResponse (Response.indexBatch results).encode 0x11 "RESP_INDEX_BATCH"
        results.roundId context = .ok results.results ∧
      Dpf.decodeBatchResponse (Response.chunkBatch results).encode 0x21 "RESP_CHUNK_BATCH"
        results.roundId context = .ok results.results ∧
      MerkleVerify.decodeSiblingBatchBody ((Response.bucketMerkleSibBatch siblings).encode.drop 4)
        (some siblings.roundId) (some siblings.results.length) context = .ok siblings.results ∧
      Harmony.decodeBatchResponseBody ((Response.harmonyBatchResult harmonyResults).encode.drop 4)
        harmonyResults.level harmonyResults.roundId harmonyResults.items.length context =
          .ok harmonyResults.byGroup) := by
  refine ⟨⟨decode_indexBatch dpf, decode_chunkBatch dpf, decode_siblingBatch sibling,
    decode_harmonyBatch harmony⟩, ?_, ?_, ?_, ?_⟩
  · exact Dpf.decodeBatchResponse_encode hresults (by decide) _ context
  · exact Dpf.decodeBatchResponse_encode hresults (by decide) _ context
  · exact MerkleVerify.decodeSiblingBatchBody_encode hsiblings hone context
  · exact Harmony.decodeBatchResponseBody_encode hharmony context

/-- A DPF key for the smallest domain. -/
def smallestDpfKey : DpfKey where
  n := 7
  s0 := Digest.zero 16
  t0 := 0
  layers := []
  finalBlock := Digest.zero 16
  seven_le_n := by decide
  n_le := by decide
  length_layers := by decide

def twoGroups : DpfBatch where
  roundId := 3
  dbId := 1
  keysPerGroup := 2
  keys := List.replicate 2 (List.replicate 2 smallestDpfKey)
  groups := by decide
  perGroup := by simp
  minKeys := by decide
  maxKeys := by decide

def twoSiblings : SiblingBatch where
  roundId := 100
  dbId := 0
  keys := [smallestDpfKey, smallestDpfKey]
  groups := by decide

def oneIndexList : HarmonyBatch where
  level := 0
  roundId := 7
  dbId := 2
  items := [⟨0, [5, 9]⟩]
  groups := by decide
  indices := by simp

def twoRows : BatchResult := ⟨0, 100, [[[1, 2]], [[]]]⟩

theorem twoRows_fits : twoRows.Fits where
  groups := by decide
  perGroup := by simp [twoRows, BatchResult.resultsPerGroup]
  results := by decide
  lengths := by simp [twoRows]

def oneGroup : HarmonyBatchResult := ⟨0, 7, 1, [⟨0, [[4, 5, 6]]⟩]⟩

theorem oneGroup_fits : oneGroup.Fits where
  groups := by decide
  perGroup := rfl
  one := by simp [oneGroup]
  ids := by simp [oneGroup]
  range := by simp [oneGroup]

theorem client_server_queries_agree_two_groups :
    Request.decode ((Dpf.encodeBatchQuery 0x11 0 3 1 twoGroups.keyBytes).drop 4) =
        .ok (.indexBatch twoGroups.query) ∧
      MerkleVerify.decodeSiblingBatchBody ((Response.bucketMerkleSibBatch twoRows).encode.drop 4)
        (some 100) (some 2) "DPF Merkle server0" = .ok [[[1, 2]], [[]]] :=
  have h := client_server_queries_agree twoGroups twoSiblings oneIndexList twoRows_fits twoRows_fits
    rfl oneGroup_fits "DPF Merkle server0"
  ⟨h.1.1, h.2.2.2.1⟩

end BitcoinPir.Wire
