import BitcoinPir.Onion.Merkle
import BitcoinPir.Wire.Queries

/-!
# Prices of outgoing frames

Before it sends a frame, the client works out what the server will charge for it. `classifyFrame`
reads only the fields the price depends on; the server's `meteredOpForFrame` decodes the whole
request. The two agree on the frames of all the client's encoders, with one gap: the client refuses
to price a HarmonyPIR level outside the documented ranges, the server does not look at the level
(`classifyFrame_agrees_iff`). What the client sends as free is free all the same
(`workGas_eq_none`).
-/

namespace BitcoinPir.Wire

open Foundations Meter Reader

/-! ## The client's classifier -/

/-- The optional database id at the end: at most one byte is left. -/
def trailingDbId : Reader Unit UInt8
  | [] => .ok (0, [])
  | [dbId] => .ok (dbId, [dbId])
  | _ => .error ()

/-- An item behind its 16-bit length. -/
def skipU16Item : Reader Unit Bytes := do
  let len ← takeU16 ()
  take len.toNat ()

/-- An item behind its 32-bit length. -/
def skipU32Item : Reader Unit Bytes := do
  let len ← takeU32 ()
  take len.toNat ()

/-- A batch of DPF keys: its round and database. -/
def classifyBatch : Reader Unit (UInt16 × UInt8) := do
  let roundId ← takeU16 ()
  let numGroups ← takeU8 ()
  let keysPerGroup ← takeU8 ()
  let _ ← many skipU16Item (numGroups.toNat * keysPerGroup.toNat)
  let dbId ← trailingDbId
  return (roundId, dbId)

def classifyHints : Reader Unit (UInt8 × UInt8) := do
  let _ ← take 16 ()
  let _ ← takeU8 ()
  let level ← takeU8 ()
  let numGroups ← takeU8 ()
  let _ ← take numGroups.toNat ()
  let dbId ← trailingDbId
  return (level, dbId)

def classifyHintsV2 : Reader Unit UInt8 := do
  let _ ← takeU8 ()
  let _ ← takeU8 ()
  trailingDbId

def classifyHintsV2Half : Reader Unit UInt8 := do
  let _ ← take 16 ()
  let _ ← takeU8 ()
  trailingDbId

def skipSubQuery : Reader Unit Bytes := do
  let indices ← takeU32 ()
  take (indices.toNat * 4) ()

def skipBatchItem (subQueries : UInt8) : Reader Unit (List Bytes) := do
  let _ ← takeU8 ()
  many skipSubQuery subQueries.toNat

/-- A HarmonyPIR batch: its level, sub-queries per group and database. -/
def classifyHarmonyBatch : Reader Unit (UInt8 × UInt8 × UInt8) := do
  let level ← takeU8 ()
  let _ ← takeU16 ()
  let items ← takeU16 ()
  let subQueries ← takeU8 ()
  let _ ← many (skipBatchItem subQueries) items.toNat
  let dbId ← trailingDbId
  return (level, subQueries, dbId)

def classifyRegisterKeys : Reader Unit UInt8 := do
  let _ ← many skipU32Item 2
  trailingDbId

def classifyOnionQuery : Reader Unit UInt8 := do
  let _ ← takeU16 ()
  let queries ← takeU8 ()
  let _ ← many skipU32Item queries.toNat
  trailingDbId

/-- The value a reader of the body finds. -/
def scan {α : Type} (p : Reader Unit α) (body : Bytes) : Option α := (p body).toOption.map Prod.fst

/-- What a request is priced as, from its variant and the body after it. -/
def classifyPayload (variant : UInt8) (body : Bytes) : Option (MeteredOp × UInt8) :=
  match Opcode.ofByte variant with
  | some .indexBatch => do
    let (_, dbId) ← scan classifyBatch body
    return (.dpfIndexRound, dbId)
  | some .chunkBatch => do
    let (_, dbId) ← scan classifyBatch body
    return (.dpfChunkRound, dbId)
  | some .bucketMerkleSibBatch => do
    let (roundId, dbId) ← scan classifyBatch body
    let (table, level) ← dpfSiblingRound roundId
    return (.dpfSiblingPass table level, dbId)
  | some .bucketMerkleTreeTops => do
    let dbId ← scan trailingDbId body
    return (.treeTops, dbId)
  | some .harmonyHints => do
    let (level, dbId) ← scan classifyHints body
    let _ ← harmonyLevel level
    return (.harmonyHintSet level, dbId)
  | some .harmonyHintsV2 => do
    let dbId ← scan classifyHintsV2 body
    return (.harmonyPoolEntry, dbId)
  | some .harmonyHintsV2Half => do
    let dbId ← scan classifyHintsV2Half body
    return (.harmonyContinuation, dbId)
  | some .harmonyBatchQuery => do
    let (level, subQueries, dbId) ← scan classifyHarmonyBatch body
    let _ ← harmonyLevel level
    return (.harmonyQuery level subQueries.toUInt32, dbId)
  | some .oramLookup => do
    let dbId ← scan (takeU8 ()) body
    return (.oramLookup, dbId)
  | some .registerKeys => do
    let dbId ← scan classifyRegisterKeys body
    return (.onionRegisterKeys, dbId)
  | some .onionpirIndexQuery => do
    let dbId ← scan classifyOnionQuery body
    return (.onionIndexQuery, dbId)
  | some .onionpirChunkQuery => do
    let dbId ← scan classifyOnionQuery body
    return (.onionChunkQuery, dbId)
  | some .onionpirMerkleIndexSibling => do
    let dbId ← scan classifyOnionQuery body
    return (.onionSiblingQuery .index, dbId)
  | some .onionpirMerkleDataSibling => do
    let dbId ← scan classifyOnionQuery body
    return (.onionSiblingQuery .chunk, dbId)
  | some .onionpirMerkleIndexTreeTop | some .onionpirMerkleDataTreeTop => do
    let dbId ← scan trailingDbId body
    return (.onionTreeTops, dbId)
  | _ => none

/-- What a frame is priced as, its length prefix included. -/
def classifyFrame (frame : Bytes) : Option (MeteredOp × UInt8) :=
  if frame.length < 5 then none
  else if leNat (frame.take 4) ≠ frame.length - 4 then none
  else classifyPayload ((frame.drop 4).headD 0) (frame.drop 5)

/-! ## The client's encoders -/

structure OramLookupSlot where
  scriptHash : Digest scriptHashSize
  present : Bool

def encodeOramLookupCompact (dbId : UInt8) (scriptHashes : List (Digest scriptHashSize)) :
    PirResult Bytes :=
  if maxOramLookupScripthashes < scriptHashes.length then
    .error (.protocol
      s!"ORAM lookup batch size {scriptHashes.length} exceeds maximum {maxOramLookupScripthashes}")
  else
    .ok (encodeRequest 0x60 ([dbId] ++ (leBytes 2 scriptHashes.length ++
      Digest.concat scriptHashes)))

def encodeOramLookupSlotsRequest (dbId : UInt8) (slots : List OramLookupSlot) :
    PirResult Bytes :=
  if maxOramLookupScripthashes < slots.length then
    .error (.protocol
      s!"ORAM lookup slot count {slots.length} exceeds maximum {maxOramLookupScripthashes}")
  else if ∀ slot ∈ slots, slot.present = true then
    encodeOramLookupCompact dbId (slots.map OramLookupSlot.scriptHash)
  else
    .ok (encodeRequest 0x60 ([dbId] ++ (leBytes 2 0xffff ++ (leBytes 2 slots.length ++
      (slots.map fun slot => flagByte slot.present)) ++
        Digest.concat (slots.map OramLookupSlot.scriptHash))))

def registerKeysBody (galois gsw : Bytes) (dbId : UInt8) : Bytes :=
  leBytes 4 galois.length ++ (galois ++ (leBytes 4 gsw.length ++ (gsw ++ dbIdSuffix dbId)))

def encodeRegisterKeys (galois gsw : Bytes) (dbId : UInt8) : Bytes :=
  encodeRequest 0x50 (registerKeysBody galois gsw dbId)

def onionpirBatchBody (roundId : UInt16) (queries : List Bytes) (dbId : UInt8) : Bytes :=
  leBytes 2 roundId.toNat ++ ([UInt8.ofNat queries.length] ++
    (queries.flatMap (fun q => leBytes 4 q.length ++ q) ++ dbIdSuffix dbId))

def encodeOnionpirBatchQuery (variant : UInt8) (roundId : UInt16) (queries : List Bytes)
    (dbId : UInt8) : Bytes :=
  encodeRequest variant (onionpirBatchBody roundId queries dbId)

/-- Requests that neither side meters. -/
inductive PlainRequest
  | getDbCatalog
  | getInfoJson
  | attest
  | handshake
  | announce
  | getDbProof
  | getDbProofV2
  | creditPresent
  | apiKey

def PlainRequest.variant : PlainRequest → UInt8
  | .getDbCatalog => 0x02
  | .getInfoJson => 0x03
  | .attest => 0x05
  | .handshake => 0x06
  | .announce => 0x07
  | .getDbProof => 0x0a
  | .getDbProofV2 => 0x0c
  | .creditPresent => 0x12
  | .apiKey => 0x13

/-- What the client's encoders are called with. -/
inductive ClientRequest
  | indexBatch (b : DpfBatch)
  | chunkBatch (b : DpfBatch)
  | siblingBatch (b : SiblingBatch)
  | treeTops (dbId : UInt8)
  | harmonyHints (prpKey : Digest 16) (prpBackend level numGroups dbId : UInt8)
  | harmonyHintsV2 (dbId : UInt8)
  | harmonyHintsV2Half (sessionToken : Digest 16) (side : Fin 2) (dbId : UInt8)
  | harmonyBatch (b : HarmonyBatch)
  | oramLookup (dbId : UInt8) (slots : List OramLookupSlot)
  | registerKeys (galois gsw : Bytes) (dbId : UInt8)
  | onionQuery (table : TableKind) (roundId : UInt16) (queries : List Bytes)
      (count : queries.length < 256) (dbId : UInt8)
  | onionSiblingQuery (tree : Onion.OnionTreeKind) (roundId : UInt16) (queries : List Bytes)
      (count : queries.length < 256) (dbId : UInt8)
  | onionTreeTop (tree : Onion.OnionTreeKind) (dbId : UInt8)
  | plain (r : PlainRequest) (payload : Bytes)

def onionQueryVariant : TableKind → UInt8
  | .index => 0x51
  | .chunk => 0x52

def ClientRequest.frame : ClientRequest → PirResult Bytes
  | .indexBatch b => .ok (Dpf.encodeBatchQuery 0x11 0 b.roundId b.dbId b.keyBytes)
  | .chunkBatch b => .ok (Dpf.encodeBatchQuery 0x21 1 b.roundId b.dbId b.keyBytes)
  | .siblingBatch b => .ok (MerkleVerify.encodeSiblingBatch b.dbId b.roundId b.keyBytes)
  | .treeTops dbId => .ok (encodeRequest 0x34 (dbIdSuffix dbId))
  | .harmonyHints prpKey prpBackend level numGroups dbId =>
    .ok (encodeRequest 0x41 (prpKey.val ++ ([prpBackend] ++ ([level] ++ ([numGroups] ++
      ((List.range numGroups.toNat).map UInt8.ofNat ++ dbIdSuffix dbId))))))
  | .harmonyHintsV2 dbId => .ok (encodeRequest 0x44 (0xff :: 0x00 :: dbIdSuffix dbId))
  | .harmonyHintsV2Half sessionToken side dbId =>
    .ok (encodeRequest 0x46 (sessionToken.val ++ ([UInt8.ofNat side] ++ dbIdSuffix dbId)))
  | .harmonyBatch b => .ok (Harmony.encodeBatchQuery b.level b.roundId b.dbId b.items)
  | .oramLookup dbId slots => encodeOramLookupSlotsRequest dbId slots
  | .registerKeys galois gsw dbId => .ok (encodeRegisterKeys galois gsw dbId)
  | .onionQuery table roundId queries _ dbId =>
    .ok (encodeOnionpirBatchQuery (onionQueryVariant table) roundId queries dbId)
  | .onionSiblingQuery tree roundId queries _ dbId =>
    .ok (Onion.encodeSiblingBatchQuery tree.reqSibling roundId.toNat queries dbId)
  | .onionTreeTop tree dbId => .ok (Onion.encodeTreeTopRequest tree.reqTreeTop dbId)
  | .plain r payload => .ok (encodeRequest r.variant payload)

/-! ## What the client's classifier finds -/

section Scan

variable {α β : Type}

theorem scan_bind {p : Reader Unit α} {f : α → Reader Unit β} {bs : Bytes} {a : α}
    (hp : Reads p bs a) (cs : Bytes) : scan (p >>= f) (bs ++ cs) = scan (f a) cs := by
  rw [scan, hp.bind_append, scan]

theorem scan_skip {p : Reader Unit α} {q : Reader Unit β} {bs : Bytes} (hp : Skips p bs)
    (cs : Bytes) : scan (p >>= fun _ => q) (bs ++ cs) = scan q cs := by
  obtain ⟨a, ha⟩ := hp
  exact scan_bind ha cs

theorem scan_trailingDbId (dbId : UInt8) : scan trailingDbId (dbIdSuffix dbId) = some dbId := by
  unfold dbIdSuffix
  split_ifs with h
  · rw [h]
    rfl
  · rfl

theorem scan_trailingDbId_bind (dbId : UInt8) (g : UInt8 → α) :
    scan (trailingDbId >>= fun d => pure (g d)) (dbIdSuffix dbId) = some (g dbId) := by
  unfold dbIdSuffix
  split_ifs with h
  · rw [h]
    rfl
  · rfl

theorem skips_u16Item {item : Bytes} (h : item.length < 2 ^ 16) :
    Skips skipU16Item (encodeKey item) :=
  (reads_u16Item h () ()).skips

theorem skips_u32Item {item : Bytes} (h : item.length < 2 ^ 32) :
    Skips skipU32Item (leBytes 4 item.length ++ item) :=
  (reads_u32Item h () ()).skips

theorem scan_classifyBatch {roundId : UInt16} {groups perGroup dbId : UInt8} {keys : List Bytes}
    (hcount : keys.length = groups.toNat * perGroup.toNat)
    (hlen : ∀ key ∈ keys, key.length < 2 ^ 16) :
    scan classifyBatch (leBytes 2 roundId.toNat ++ ([groups] ++ ([perGroup] ++
      (keys.flatMap encodeKey ++ dbIdSuffix dbId)))) = some (roundId, dbId) := by
  have hkeys := skips_many fun key hkey => skips_u16Item (hlen key hkey)
  rw [classifyBatch, scan_bind (reads_takeU16 _ _), scan_bind (reads_takeU8 _ _),
    scan_bind (reads_takeU8 _ _), ← hcount, scan_skip hkeys, scan_trailingDbId_bind]

/-- The classifier skips the keys of all groups in one go. -/
theorem scan_classifyBatch_query {q : BatchQuery} {minKeysPerGroup : ℕ}
    (h : q.Fits minKeysPerGroup) :
    scan classifyBatch (Meter.encodeBatchQuery q) = some (q.roundId, q.dbId) := by
  have hcount : q.keys.flatten.length =
      (UInt8.ofNat q.keys.length).toNat * (UInt8.ofNat q.keysPerGroup).toNat := by
    rw [toNat_ofNat_of_lt_256 h.groups,
      toNat_ofNat_of_lt_256 (lt_of_le_of_lt h.maxKeys (by decide)), List.length_flatten,
      List.map_congr_left h.perGroup]
    simp
  rw [Meter.encodeBatchQuery, ← flatMap_flatten]
  refine scan_classifyBatch hcount ?_
  intro key hkey
  obtain ⟨group, hgroup, hkey⟩ := List.mem_flatten.1 hkey
  exact h.keyLength group hgroup key hkey

theorem scan_classifyHints {h : HarmonyHintRequest} (hfit : h.groupIds.length < 256) :
    scan classifyHints (encodeHarmonyHintRequest h) = some (h.level, h.dbId) := by
  have hlen : h.groupIds.length = (UInt8.ofNat h.groupIds.length).toNat :=
    (toNat_ofNat_of_lt_256 hfit).symm
  rw [classifyHints, encodeHarmonyHintRequest, scan_bind (reads_take h.prpKey.property ()),
    scan_bind (reads_takeU8 _ _), scan_bind (reads_takeU8 _ _),
    scan_bind (reads_takeU8 _ _), scan_bind (reads_take hlen ()),
    scan_trailingDbId_bind]

theorem scan_classifyHintsV2 (h : HarmonyHintRequestV2) :
    scan classifyHintsV2 (encodeHarmonyHintRequestV2 h) = some h.dbId :=
  scan_trailingDbId h.dbId

theorem scan_classifyHintsV2Half (h : HarmonyHintRequestV2Half) :
    scan classifyHintsV2Half (encodeHarmonyHintRequestV2Half h) = some h.dbId := by
  rw [classifyHintsV2Half, encodeHarmonyHintRequestV2Half,
    scan_bind (reads_take h.sessionToken.property ()), scan_bind (reads_takeU8 _ _),
    scan_trailingDbId]

theorem skips_subQuery {indices : List UInt32} (h : indices.length < 2 ^ 32) :
    Skips skipSubQuery (encodeSubQuery indices) := by
  have hlen : (indices.flatMap fun idx => leBytes 4 idx.toNat).length = indices.length * 4 :=
    length_flatMap_const fun idx _ => length_leBytes 4 idx.toNat
  exact (Reads.afterU32 (g := fun n => take (n * 4) ()) (reads_take hlen ()) h ()).skips

theorem skips_batchItem {item : HarmonyBatchItem} {perGroup : UInt8}
    (hper : item.subQueries.length = perGroup.toNat)
    (hlen : ∀ indices ∈ item.subQueries, indices.length < 2 ^ 32) :
    Skips (skipBatchItem perGroup) (encodeBatchItem item) := by
  obtain ⟨xs, hxs⟩ := skips_many fun indices h => skips_subQuery (hlen indices h)
  refine ((reads_takeU8 item.groupId ()).bind ?_ : Reads _ _ xs).skips
  rw [← hper]
  exact hxs

theorem scan_classifyHarmonyBatch {q : HarmonyBatchQuery} (h : q.Fits) :
    scan classifyHarmonyBatch (encodeHarmonyBatchQuery q) =
      some (q.level, q.subQueriesPerGroup, q.dbId) := by
  have hitems := skips_many fun item hitem =>
    skips_batchItem (h.perGroup item hitem) (h.indices item hitem)
  rw [classifyHarmonyBatch, encodeHarmonyBatchQuery, scan_bind (reads_takeU8 _ _),
    scan_bind (reads_takeU16 _ _), scan_bind (reads_countU16 h.items _), scan_bind (reads_takeU8 _ _),
    UInt16.toNat_ofNat_of_lt' h.items, scan_skip hitems, scan_trailingDbId_bind]

theorem scan_classifyRegisterKeys {galois gsw : Bytes} (hgalois : galois.length < 2 ^ 32)
    (hgsw : gsw.length < 2 ^ 32) (dbId : UInt8) :
    scan classifyRegisterKeys (registerKeysBody galois gsw dbId) = some dbId := by
  have hlen : ∀ item ∈ [galois, gsw], item.length < 2 ^ 32 := by
    simpa using ⟨hgalois, hgsw⟩
  have hkeys : Skips (many skipU32Item [galois, gsw].length)
      ([galois, gsw].flatMap fun item => leBytes 4 item.length ++ item) :=
    skips_many fun item hitem => skips_u32Item (hlen item hitem)
  have hbytes : registerKeysBody galois gsw dbId =
      [galois, gsw].flatMap (fun item => leBytes 4 item.length ++ item) ++ dbIdSuffix dbId := by
    simp [registerKeysBody]
  rw [hbytes]
  exact (scan_skip hkeys _).trans (scan_trailingDbId dbId)

theorem scan_classifyOnionQuery {roundId : UInt16} {queries : List Bytes} {dbId : UInt8}
    (hcount : queries.length < 256) (hlen : ∀ q ∈ queries, q.length < 2 ^ 32) :
    scan classifyOnionQuery (onionpirBatchBody roundId queries dbId) = some dbId := by
  have hqueries := skips_many fun q hq => skips_u32Item (hlen q hq)
  rw [classifyOnionQuery, onionpirBatchBody, scan_bind (reads_takeU16 _ _),
    scan_bind (reads_takeU8 _ _), toNat_ofNat_of_lt_256 hcount, scan_skip hqueries,
    scan_trailingDbId]

end Scan

/-! ## What the server finds -/

theorem decode_registerKeys {galois gsw : Bytes} (hgalois : galois.length < 2 ^ 32)
    (hgsw : gsw.length < 2 ^ 32) (dbId : UInt8) :
    RegisterKeysMsg.decode (registerKeysBody galois gsw dbId) = .ok ⟨galois, gsw, dbId⟩ := by
  rw [RegisterKeysMsg.decode]
  have hlen : 4 + galois.length + 4 ≤ (registerKeysBody galois gsw dbId).length := by
    simp only [registerKeysBody, List.length_append, length_leBytes]
    omega
  rw [readRegisterKeysMsg, run_ensure_bind (by omega)]
  rw [registerKeysBody] at hlen ⊢
  rw [run_bind_append (reads_countU32 hgalois _),
    UInt32.toNat_ofNat_of_lt' hgalois, run_ensure_bind hlen,
    run_bind_append (reads_take rfl _), run_bind_append (reads_countU32 hgsw _),
    UInt32.toNat_ofNat_of_lt' hgsw, run_bind_append (reads_take rfl _), run_readDbId_bind]

theorem reads_onionQuery {q : Bytes} (h : q.length < 2 ^ 32) :
    Reads readOnionQuery (leBytes 4 q.length ++ q) q :=
  reads_u32Item h _ _

theorem decode_onionQuery {roundId : UInt16} {queries : List Bytes} {dbId : UInt8}
    (hcount : queries.length < 256) (hlen : ∀ q ∈ queries, q.length < 2 ^ 32) :
    OnionPirBatchQuery.decode (onionpirBatchBody roundId queries dbId) =
      .ok ⟨roundId, queries, dbId⟩ := by
  have hqueries := reads_many fun q hq => reads_onionQuery (hlen q hq)
  rw [OnionPirBatchQuery.decode, readOnionPirBatchQuery, onionpirBatchBody,
    run_bind_append (reads_takeU16 _ _), run_bind_append (reads_takeU8 _ _),
    toNat_ofNat_of_lt_256 hcount, run_bind_append hqueries, run_readDbId_bind]

theorem headD_dbIdSuffix (dbId : UInt8) : (dbIdSuffix dbId).headD 0 = dbId := by
  unfold dbIdSuffix
  split_ifs with h
  · exact h.symm
  · rfl

/-! ## Agreement on every request -/

theorem length_encodeRequest (variant : UInt8) (body : Bytes) :
    (encodeRequest variant body).length = 4 + (1 + body.length) := by
  rw [encodeRequest, List.length_append, length_leBytes, List.length_cons]
  omega

theorem classifyFrame_encodeRequest {variant : UInt8} {body : Bytes}
    (h : (encodeRequest variant body).length < 4 + 2 ^ 32) :
    classifyFrame (encodeRequest variant body) = classifyPayload variant body := by
  rw [length_encodeRequest] at h
  have hdeclared : leNat ((encodeRequest variant body).take 4) = 1 + body.length := by
    rw [encodeRequest, List.take_left' (length_leBytes 4 _), leNat_leBytes_of_lt (by omega)]
  have hdrop : (encodeRequest variant body).drop 5 = body := by
    rfl
  rw [classifyFrame, hdeclared, length_encodeRequest, if_neg (by omega), if_neg (by omega), hdrop,
    drop_encodeRequest, List.headD_cons]

/-- The wire levels of HarmonyPIR. -/
def LevelKnown (level : UInt8) : Prop := level = 0 ∨ level = 1 ∨ 10 ≤ level ∧ level ≤ 29

theorem harmonyLevel_eq_none_iff {level : UInt8} :
    harmonyLevel level = none ↔ ¬LevelKnown level := by
  unfold harmonyLevel LevelKnown
  simp only [UInt8.le_iff_toNat_le, ← UInt8.toNat_inj, UInt8.reduceToNat]
  split_ifs <;> simp only [false_iff, true_iff, not_not] <;> omega

namespace ClientRequest

/-- The request has a level the client can price, and a token the server accepts. -/
def Known : ClientRequest → Prop
  | .harmonyHints _ _ level _ _ => LevelKnown level
  | .harmonyBatch b => LevelKnown b.level
  | .harmonyHintsV2Half sessionToken _ _ => ¬∀ byte ∈ sessionToken.val, byte = 0
  | _ => True

end ClientRequest

section Agreement

variable {variant : UInt8} {body : Bytes}

theorem agrees_encodeRequest_iff (h : (encodeRequest variant body).length < 4 + 2 ^ 32) :
    classifyFrame (encodeRequest variant body) =
        meteredOpForFrame ((encodeRequest variant body).drop 4) ↔
      classifyPayload variant body = meteredOpForFrame (variant :: body) := by
  rw [classifyFrame_encodeRequest h, drop_encodeRequest]

/-- The requests that the server's common decoder takes. -/
theorem meteredOpForFrame_request {r : Request} (h : r.Fits)
    (hop : meteredOpForFrame (r.opcode.toByte :: r.body) =
      (Request.decode (r.opcode.toByte :: r.body)).toOption.bind Request.meteredOp) :
    meteredOpForFrame (r.opcode.toByte :: r.body) = r.unlevelled.meteredOp := by
  rw [hop, Request.decode_payload h]
  rfl

theorem classifyPayload_index {q : BatchQuery} {m : ℕ} (h : q.Fits m) :
    classifyPayload 0x11 (Meter.encodeBatchQuery q) = some (.dpfIndexRound, q.dbId) := by
  change (scan classifyBatch _).bind _ = _
  rw [scan_classifyBatch_query h]
  rfl

theorem classifyPayload_chunk {q : BatchQuery} {m : ℕ} (h : q.Fits m) :
    classifyPayload 0x21 (Meter.encodeBatchQuery q) = some (.dpfChunkRound, q.dbId) := by
  change (scan classifyBatch _).bind _ = _
  rw [scan_classifyBatch_query h]
  rfl

theorem classifyPayload_sibling (b : SiblingBatch) :
    classifyPayload 0x33 b.body =
      (dpfSiblingRound b.roundId).map fun x => (.dpfSiblingPass x.1 x.2, b.dbId) := by
  have hcount : b.query.keys.flatten.length =
      (UInt8.ofNat b.query.keys.length).toNat * (1 : UInt8).toNat := by
    have hgroups : b.query.keys.length < 256 := by
      simpa [SiblingBatch.query, SiblingBatch.keyBytes] using b.groups
    rw [toNat_ofNat_of_lt_256 hgroups]
    simp [SiblingBatch.query, List.length_flatten, Function.comp_def]
  have hlen : ∀ key ∈ b.query.keys.flatten, key.length < 2 ^ 16 := by
    intro key hkey
    obtain ⟨group, hgroup, hmem⟩ := List.mem_flatten.1 hkey
    obtain ⟨bytes, hbytes, rfl⟩ := List.mem_map.1 hgroup
    obtain ⟨dpfKey, -, rfl⟩ := List.mem_map.1 hbytes
    rw [List.mem_singleton.1 hmem]
    exact dpfKey.length_toBytes_lt
  rw [SiblingBatch.body, ← flatMap_flatten]
  change (scan classifyBatch _).bind _ = _
  rw [scan_classifyBatch hcount hlen]
  change (dpfSiblingRound b.roundId).bind _ = _
  cases dpfSiblingRound b.roundId with
  | none => rfl
  | some x => rfl

variable {h : HarmonyHintRequest} {dbId : UInt8}

theorem classifyPayload_hints (hfit : h.groupIds.length < 256) :
    classifyPayload 0x41 (encodeHarmonyHintRequest h) =
      (harmonyLevel h.level).map fun _ => (.harmonyHintSet h.level, h.dbId) := by
  change (scan classifyHints _).bind _ = _
  rw [scan_classifyHints hfit]
  change (harmonyLevel h.level).bind _ = _
  cases harmonyLevel h.level with
  | none => rfl
  | some x => rfl

theorem classifyPayload_harmonyBatch {q : HarmonyBatchQuery} (h : q.Fits) :
    classifyPayload 0x43 (encodeHarmonyBatchQuery q) = (harmonyLevel q.level).map fun _ =>
      (.harmonyQuery q.level q.subQueriesPerGroup.toUInt32, q.dbId) := by
  change (scan classifyHarmonyBatch _).bind _ = _
  rw [scan_classifyHarmonyBatch h]
  change (harmonyLevel q.level).bind _ = _
  cases harmonyLevel q.level with
  | none => rfl
  | some x => rfl

/-- The client prices a request only at a known level, the server at any. -/
theorem map_harmonyLevel_eq_some_iff {level : UInt8} {x : MeteredOp × UInt8} :
    ((harmonyLevel level).map fun _ => x) = some x ↔ LevelKnown level := by
  rw [← not_iff_not, ← harmonyLevel_eq_none_iff]
  cases harmonyLevel level with
  | none => simp
  | some y => simp

theorem agrees_indexBatch (b : DpfBatch) :
    classifyPayload 0x11 (Meter.encodeBatchQuery b.query) =
      meteredOpForFrame (0x11 :: Meter.encodeBatchQuery b.query) := by
  have hfits : (Request.indexBatch b.query).Fits := b.fits le_rfl
  rw [classifyPayload_index hfits]
  exact (meteredOpForFrame_request hfits rfl).symm

theorem agrees_chunkBatch (b : DpfBatch) :
    classifyPayload 0x21 (Meter.encodeBatchQuery b.query) =
      meteredOpForFrame (0x21 :: Meter.encodeBatchQuery b.query) := by
  have hfits : (Request.chunkBatch b.query).Fits := b.fits (Nat.zero_le _)
  rw [classifyPayload_chunk hfits]
  exact (meteredOpForFrame_request hfits rfl).symm

theorem agrees_siblingBatch (b : SiblingBatch) :
    classifyPayload 0x33 b.body =
      meteredOpForFrame ((MerkleVerify.encodeSiblingBatch b.dbId b.roundId b.keyBytes).drop 4) := by
  have hdecode := decode_siblingBatch b
  rw [MerkleVerify.drop_encodeSiblingBatch] at hdecode ⊢
  rw [classifyPayload_sibling]
  change _ = (Request.decode _).toOption.bind Request.meteredOp
  rw [hdecode]
  rfl

theorem meteredOpForFrame_hints (hfit : h.groupIds.length < 256) :
    meteredOpForFrame (0x41 :: encodeHarmonyHintRequest h) =
      some (.harmonyHintSet h.level, h.dbId) := by
  have hfits : (Request.harmonyHints h).Fits := hfit
  exact meteredOpForFrame_request hfits rfl

theorem agrees_hints_iff (hfit : h.groupIds.length < 256) :
    classifyPayload 0x41 (encodeHarmonyHintRequest h) =
      meteredOpForFrame (0x41 :: encodeHarmonyHintRequest h) ↔ LevelKnown h.level := by
  rw [classifyPayload_hints hfit, meteredOpForFrame_hints hfit]
  exact map_harmonyLevel_eq_some_iff

theorem meteredOpForFrame_harmonyBatch (b : HarmonyBatch) :
    meteredOpForFrame (0x43 :: encodeHarmonyBatchQuery b.query) =
      some (.harmonyQuery b.level (1 : UInt8).toUInt32, b.dbId) := by
  have hfits : (Request.harmonyBatchQuery b.query).Fits := b.fits
  exact meteredOpForFrame_request hfits rfl

theorem agrees_harmonyBatch_iff (b : HarmonyBatch) :
    classifyPayload 0x43 (encodeHarmonyBatchQuery b.query) =
      meteredOpForFrame (0x43 :: encodeHarmonyBatchQuery b.query) ↔ LevelKnown b.level := by
  rw [classifyPayload_harmonyBatch b.fits, meteredOpForFrame_harmonyBatch]
  exact map_harmonyLevel_eq_some_iff

theorem agrees_hintsV2 (h : HarmonyHintRequestV2) :
    classifyPayload 0x44 (encodeHarmonyHintRequestV2 h) =
      meteredOpForFrame (0x44 :: encodeHarmonyHintRequestV2 h) := by
  have hserver : meteredOpForFrame (0x44 :: encodeHarmonyHintRequestV2 h) =
      some (.harmonyPoolEntry, h.dbId) :=
    meteredOpForFrame_request (r := .harmonyHintsV2 h) trivial rfl
  rw [hserver]
  change (scan classifyHintsV2 _).bind _ = _
  rw [scan_classifyHintsV2]
  rfl

theorem classifyPayload_hintsV2Half (h : HarmonyHintRequestV2Half) :
    classifyPayload 0x46 (encodeHarmonyHintRequestV2Half h) =
      some (.harmonyContinuation, h.dbId) := by
  change (scan classifyHintsV2Half _).bind _ = _
  rw [scan_classifyHintsV2Half]
  rfl

/-- The server refuses a token of zeros; the client does not look at it. -/
theorem agrees_hintsV2Half_iff {h : HarmonyHintRequestV2Half} (hside : h.side = 0 ∨ h.side = 1) :
    classifyPayload 0x46 (encodeHarmonyHintRequestV2Half h) =
      meteredOpForFrame (0x46 :: encodeHarmonyHintRequestV2Half h) ↔
        ¬∀ byte ∈ h.sessionToken.val, byte = 0 := by
  rw [classifyPayload_hintsV2Half]
  constructor
  · intro heq hzero
    have hrefused : Request.decode (0x46 :: encodeHarmonyHintRequestV2Half h) =
        .error "V2 half hint request session token must be non-zero" := by
      change Except.map _ (run (readHarmonyHintRequestV2Half _) _) = _
      rw [readHarmonyHintRequestV2Half, run_ensure_bind (length_encodeHarmonyHintRequestV2Half h),
        encodeHarmonyHintRequestV2Half, run_bind_append (reads_takeArr _ _),
        run_ensure_bind_of_not (not_not.2 hzero)]
      rfl
    change _ = (Request.decode _).toOption.bind Request.meteredOp at heq
    rw [hrefused] at heq
    cases heq
  · intro htoken
    have hfits : (Request.harmonyHintsV2Half h).Fits := ⟨htoken, hside⟩
    exact (meteredOpForFrame_request hfits rfl).symm

theorem agrees_oramLookup {q : OramLookupRequest} (h : q.Fits) :
    classifyPayload 0x60 (encodeOramLookupRequest q) =
      meteredOpForFrame (0x60 :: encodeOramLookupRequest q) := by
  have hfits : (Request.oramLookup q).Fits := h
  exact (meteredOpForFrame_request hfits rfl).symm

theorem agrees_registerKeys {galois gsw : Bytes}
    (h : (encodeRegisterKeys galois gsw dbId).length < 4 + 2 ^ 32) :
    classifyFrame (encodeRegisterKeys galois gsw dbId) =
      meteredOpForFrame ((encodeRegisterKeys galois gsw dbId).drop 4) := by
  rw [encodeRegisterKeys] at h ⊢
  rw [agrees_encodeRequest_iff h]
  rw [length_encodeRequest] at h
  simp only [registerKeysBody, List.length_append, length_leBytes] at h
  have hgalois : galois.length < 2 ^ 32 := by omega
  have hgsw : gsw.length < 2 ^ 32 := by omega
  change (scan classifyRegisterKeys _).bind _ = (RegisterKeysMsg.decode _).toOption.map _
  rw [scan_classifyRegisterKeys hgalois hgsw, decode_registerKeys hgalois hgsw]
  rfl

/-- The four kinds of OnionPIR batches are classified alike. -/
theorem agrees_onionQuery {op : MeteredOp} {roundId : UInt16} {queries : List Bytes}
    (hcount : queries.length < 256)
    (hclient : ∀ body, classifyPayload variant body =
      (scan classifyOnionQuery body).bind fun dbId => some (op, dbId))
    (hserver : ∀ body, meteredOpForFrame (variant :: body) = onionOp op body)
    (h : (encodeOnionpirBatchQuery variant roundId queries dbId).length < 4 + 2 ^ 32) :
    classifyFrame (encodeOnionpirBatchQuery variant roundId queries dbId) =
      meteredOpForFrame ((encodeOnionpirBatchQuery variant roundId queries dbId).drop 4) := by
  rw [encodeOnionpirBatchQuery] at h ⊢
  rw [agrees_encodeRequest_iff h]
  rw [length_encodeRequest] at h
  have hlen : ∀ q ∈ queries, q.length < 2 ^ 32 := by
    intro q hq
    have hmem : (leBytes 4 q.length ++ q).length ≤
        (queries.flatMap fun q => leBytes 4 q.length ++ q).length := by
      rw [List.length_flatMap]
      exact List.le_sum_of_mem (List.mem_map_of_mem hq)
    simp only [onionpirBatchBody, List.length_append, length_leBytes] at h hmem
    omega
  rw [hclient, hserver, scan_classifyOnionQuery hcount hlen, onionOp, decode_onionQuery hcount hlen]
  rfl

theorem agrees_treeTop {op : MeteredOp}
    (hclient : ∀ body, classifyPayload variant body = (scan trailingDbId body).bind fun dbId => some (op, dbId))
    (hserver : ∀ body, meteredOpForFrame (variant :: body) = some (op, body.headD 0)) :
    classifyPayload variant (dbIdSuffix dbId) = meteredOpForFrame (variant :: dbIdSuffix dbId) := by
  rw [hclient, hserver, scan_trailingDbId, headD_dbIdSuffix]
  rfl

/-- The client's frame of a lookup is the server's encoding of the request. -/
theorem encodeOramLookupSlotsRequest_eq_ok {slots : List OramLookupSlot} {frame : Bytes}
    (h : encodeOramLookupSlotsRequest dbId slots = .ok frame) :
    ∃ q : OramLookupRequest, q.Fits ∧ frame = encodeRequest 0x60 (encodeOramLookupRequest q) := by
  rw [encodeOramLookupSlotsRequest] at h
  split_ifs at h with hcount hall
  · have hlen : ¬maxOramLookupScripthashes < (slots.map OramLookupSlot.scriptHash).length := by
      rwa [List.length_map]
    rw [encodeOramLookupCompact, if_neg hlen] at h
    injection h with h
    refine ⟨⟨dbId, slots.map OramLookupSlot.scriptHash, slots.map OramLookupSlot.present⟩,
      ⟨not_lt.1 hlen, by simp⟩, ?_⟩
    rw [← h, encodeOramLookupRequest, encodeSlots, if_pos]
    simpa [OramLookupRequest.allSlotsPresent] using hall
  · injection h with h
    have hfits : OramLookupRequest.Fits
        ⟨dbId, slots.map OramLookupSlot.scriptHash, slots.map OramLookupSlot.present⟩ :=
      ⟨by simpa using not_lt.1 hcount, by simp⟩
    refine ⟨_, hfits, ?_⟩
    rw [← h, encodeOramLookupRequest, encodeSlots, if_neg, map_slotPresentAt hfits]
    · simp [Function.comp_def]
    · simpa [OramLookupRequest.allSlotsPresent] using hall

end Agreement

/-- The hint request for all groups of a level. -/
def hintsForGroups (prpKey : Digest 16) (prpBackend level numGroups dbId : UInt8) :
    HarmonyHintRequest :=
  ⟨prpKey, prpBackend, level, (List.range numGroups.toNat).map UInt8.ofNat, dbId⟩

theorem length_groupIds_lt (prpKey : Digest 16) (prpBackend level numGroups dbId : UInt8) :
    (hintsForGroups prpKey prpBackend level numGroups dbId).groupIds.length < 256 := by
  simpa [hintsForGroups] using numGroups.toNat_lt

theorem frame_harmonyHints (prpKey : Digest 16) (prpBackend level numGroups dbId : UInt8) :
    (ClientRequest.harmonyHints prpKey prpBackend level numGroups dbId).frame =
      .ok (encodeRequest 0x41 (encodeHarmonyHintRequest
        (hintsForGroups prpKey prpBackend level numGroups dbId))) := by
  simp [ClientRequest.frame, encodeHarmonyHintRequest, hintsForGroups]

theorem frame_harmonyBatch (b : HarmonyBatch) :
    (ClientRequest.harmonyBatch b).frame =
      .ok (encodeRequest 0x43 (encodeHarmonyBatchQuery b.query)) := by
  have hdrop := Harmony.drop_encodeBatchQuery b
  injection hdrop with _ hbody
  rw [ClientRequest.frame, Harmony.encodeBatchQuery, hbody]

theorem agrees_iff_known {r : ClientRequest} {frame : Bytes} (h : r.frame = .ok frame)
    (hlen : frame.length < 4 + 2 ^ 32) :
    classifyFrame frame = meteredOpForFrame (frame.drop 4) ↔ r.Known := by
  cases r with
  | oramLookup dbId slots =>
    obtain ⟨q, hfits, rfl⟩ := encodeOramLookupSlotsRequest_eq_ok h
    rw [agrees_encodeRequest_iff hlen]
    exact iff_of_true (agrees_oramLookup hfits) trivial
  | indexBatch b =>
    obtain rfl := Except.ok.inj h
    refine iff_of_true ?_ trivial
    exact (agrees_encodeRequest_iff hlen).2 (agrees_indexBatch b)
  | chunkBatch b =>
    obtain rfl := Except.ok.inj h
    refine iff_of_true ?_ trivial
    exact (agrees_encodeRequest_iff hlen).2 (agrees_chunkBatch b)
  | siblingBatch b =>
    obtain rfl := Except.ok.inj h
    refine iff_of_true ?_ trivial
    rw [← agrees_siblingBatch b]
    have hdrop := MerkleVerify.drop_encodeSiblingBatch b
    rw [MerkleVerify.encodeSiblingBatch, drop_encodeRequest] at hdrop
    injection hdrop with _ hbody
    rw [← hbody]
    exact classifyFrame_encodeRequest hlen
  | treeTops dbId =>
    obtain rfl := Except.ok.inj h
    refine iff_of_true ((agrees_encodeRequest_iff hlen).2 ?_) trivial
    exact agrees_treeTop (fun _ => rfl) fun _ => rfl
  | harmonyHints prpKey prpBackend level numGroups dbId =>
    rw [frame_harmonyHints] at h
    obtain rfl := Except.ok.inj h
    rw [agrees_encodeRequest_iff hlen]
    exact agrees_hints_iff (length_groupIds_lt ..)
  | harmonyHintsV2 dbId =>
    obtain rfl := Except.ok.inj h
    refine iff_of_true ((agrees_encodeRequest_iff hlen).2 ?_) trivial
    exact agrees_hintsV2 ⟨dbId⟩
  | harmonyHintsV2Half sessionToken side dbId =>
    obtain rfl := Except.ok.inj h
    have hside : UInt8.ofNat side = 0 ∨ UInt8.ofNat side = 1 := by
      fin_cases side
      · exact .inl rfl
      · exact .inr rfl
    rw [agrees_encodeRequest_iff hlen]
    exact agrees_hintsV2Half_iff (h := ⟨sessionToken, UInt8.ofNat side, dbId⟩) hside
  | harmonyBatch b =>
    rw [frame_harmonyBatch] at h
    obtain rfl := Except.ok.inj h
    rw [agrees_encodeRequest_iff hlen]
    exact agrees_harmonyBatch_iff b
  | registerKeys galois gsw dbId =>
    obtain rfl := Except.ok.inj h
    exact iff_of_true (agrees_registerKeys hlen) trivial
  | onionQuery table roundId queries count dbId =>
    obtain rfl := Except.ok.inj h
    refine iff_of_true ?_ trivial
    cases table with
    | index => exact agrees_onionQuery count (fun _ => rfl) (fun _ => rfl) hlen
    | chunk => exact agrees_onionQuery count (fun _ => rfl) (fun _ => rfl) hlen
  | onionSiblingQuery tree roundId queries count dbId =>
    obtain rfl := Except.ok.inj h
    refine iff_of_true ?_ trivial
    cases tree with
    | index => exact agrees_onionQuery count (fun _ => rfl) (fun _ => rfl) hlen
    | data => exact agrees_onionQuery count (fun _ => rfl) (fun _ => rfl) hlen
  | onionTreeTop tree dbId =>
    obtain rfl := Except.ok.inj h
    refine iff_of_true ((agrees_encodeRequest_iff hlen).2 ?_) trivial
    cases tree with
    | index => exact agrees_treeTop (fun _ => rfl) fun _ => rfl
    | data => exact agrees_treeTop (fun _ => rfl) fun _ => rfl
  | plain r payload =>
    obtain rfl := Except.ok.inj h
    refine iff_of_true ((agrees_encodeRequest_iff hlen).2 ?_) trivial
    cases r <;> rfl

/-! ## Free frames -/

theorem workGas_harmonyHintSet {level : UInt8} (h : harmonyLevel level = none) (c : Calibration)
    (db : DatabaseGeometry) : workGas c db (.harmonyHintSet level) = none := by
  rw [workGas, h]
  cases db.cuckoo with
  | none => rfl
  | some g => rfl

theorem workGas_harmonyQuery {level : UInt8} (h : harmonyLevel level = none) (subQueries : UInt32)
    (c : Calibration) (db : DatabaseGeometry) :
    workGas c db (.harmonyQuery level subQueries) = none := by
  rw [workGas, h]
  cases db.cuckoo with
  | none => rfl
  | some g => rfl

/-- The server knows no price for a frame that the client sends as free. -/
theorem workGas_eq_none {r : ClientRequest} {frame : Bytes} (h : r.frame = .ok frame)
    (hlen : frame.length < 4 + 2 ^ 32) (hfree : classifyFrame frame = none) {op : MeteredOp}
    {dbId : UInt8} (hop : meteredOpForFrame (frame.drop 4) = some (op, dbId)) (c : Calibration)
    (db : DatabaseGeometry) : workGas c db op = none := by
  have hunknown : ¬r.Known := by
    rw [← agrees_iff_known h hlen, hfree, hop]
    exact (Option.some_ne_none _).symm
  cases r with
  | harmonyHints prpKey prpBackend level numGroups dbId' =>
    rw [frame_harmonyHints] at h
    obtain rfl := Except.ok.inj h
    rw [drop_encodeRequest, meteredOpForFrame_hints (length_groupIds_lt ..)] at hop
    obtain ⟨rfl, -⟩ := Prod.mk.inj (Option.some.inj hop)
    exact workGas_harmonyHintSet (harmonyLevel_eq_none_iff.2 hunknown) c db
  | harmonyBatch b =>
    rw [frame_harmonyBatch] at h
    obtain rfl := Except.ok.inj h
    rw [drop_encodeRequest, meteredOpForFrame_harmonyBatch] at hop
    obtain ⟨rfl, -⟩ := Prod.mk.inj (Option.some.inj hop)
    exact workGas_harmonyQuery (harmonyLevel_eq_none_iff.2 hunknown) _ c db
  | harmonyHintsV2Half sessionToken side dbId' =>
    obtain rfl := Except.ok.inj h
    have hclient := classifyPayload_hintsV2Half ⟨sessionToken, UInt8.ofNat side, dbId'⟩
    rw [classifyFrame_encodeRequest hlen] at hfree
    exact absurd (hclient.symm.trans hfree) (Option.some_ne_none _)
  | _ => exact absurd trivial hunknown

/-- **When client and server price a frame alike.** They do exactly when a HarmonyPIR request has a
documented level and a half-stream request a token that is not all zeros. What the client sends as
free costs nothing in any case. -/
theorem classifyFrame_agrees_iff {r : ClientRequest} {frame : Bytes} (h : r.frame = .ok frame)
    (hlen : frame.length < 4 + 2 ^ 32) :
    (classifyFrame frame = meteredOpForFrame (frame.drop 4) ↔ r.Known) ∧
      ∀ op dbId, classifyFrame frame = none → meteredOpForFrame (frame.drop 4) = some (op, dbId) →
        ∀ c db, workGas c db op = none :=
  ⟨agrees_iff_known h hlen, fun _ _ hfree hop c db => workGas_eq_none h hlen hfree hop c db⟩

/-- The hints of the second sibling level of the INDEX table of database 1, for three groups. -/
def secondIndexSiblings : ClientRequest := .harmonyHints (Digest.zero 16) 0 11 3 1

/-- Both sides price the second sibling level, and price it alike. -/
theorem classifyFrame_agrees_secondIndexSiblings :
    ∃ frame, secondIndexSiblings.frame = .ok frame ∧
      classifyFrame frame = some (.harmonyHintSet 11, 1) ∧
      classifyFrame frame = meteredOpForFrame (frame.drop 4) :=
  ⟨_, rfl, by decide,
    (classifyFrame_agrees_iff (r := secondIndexSiblings) rfl (by decide)).1.2 (.inr (by decide))⟩

/-- The hints of the eleventh sibling level of the CHUNK table. -/
def eleventhChunkSiblings : ClientRequest := .harmonyHints (Digest.zero 16) 0 30 3 0

/-- The server prices the eleventh sibling level, the client does not. -/
theorem eleventhChunkSiblings_disagree :
    ∃ frame, eleventhChunkSiblings.frame = .ok frame ∧ classifyFrame frame = none ∧
      meteredOpForFrame (frame.drop 4) = some (.harmonyHintSet 30, 0) :=
  ⟨_, rfl, by decide, by decide⟩

end BitcoinPir.Wire
