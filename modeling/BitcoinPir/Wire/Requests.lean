import BitcoinPir.Core.Protocol
import BitcoinPir.Credit.Requests

/-!
# Request frames

The encoder of requests, the inverse of `Request.decode`. A database id is the last byte of a
request and is left out when it is 0, so every list in front of it has to be counted exactly:
`Fits` says when the counts and lengths of a request are the ones its wire fields can hold and the
decoder accepts. The level of a DPF batch is not on the wire; the decoder sets it to 0
(`Request.unlevelled`), and everything else of a fitting request comes back
(`Request.decode_encode`).
-/

namespace BitcoinPir.Meter

open Foundations Reader

/-! ## Opcodes -/

def Opcode.toByte : Opcode → UInt8
  | .ping => 0x00
  | .getInfo => 0x01
  | .getDbCatalog => 0x02
  | .attest => 0x05
  | .handshake => 0x06
  | .announce => 0x07
  | .getDbProof => 0x0a
  | .getDbProofV2 => 0x0c
  | .indexBatch => 0x11
  | .creditPresent => 0x12
  | .apiKey => 0x13
  | .chunkBatch => 0x21
  | .bucketMerkleSibBatch => 0x33
  | .bucketMerkleTreeTops => 0x34
  | .harmonyGetInfo => 0x40
  | .harmonyHints => 0x41
  | .harmonyBatchQuery => 0x43
  | .harmonyHintsV2 => 0x44
  | .harmonyHintsV2Half => 0x46
  | .registerKeys => 0x50
  | .onionpirIndexQuery => 0x51
  | .onionpirChunkQuery => 0x52
  | .onionpirMerkleIndexSibling => 0x53
  | .onionpirMerkleIndexTreeTop => 0x54
  | .onionpirMerkleDataSibling => 0x55
  | .onionpirMerkleDataTreeTop => 0x56
  | .oramLookup => 0x60

@[simp]
theorem Opcode.ofByte_toByte (op : Opcode) : Opcode.ofByte op.toByte = some op := by
  cases op <;> rfl

/-! ## Encoding -/

/-- The number of keys the encoder announces for every group: that of the first. -/
def BatchQuery.keysPerGroup (q : BatchQuery) : ℕ := (q.keys.head?.map List.length).getD 0

def encodeKey (key : Bytes) : Bytes := leBytes 2 key.length ++ key

def encodeBatchQuery (q : BatchQuery) : Bytes :=
  leBytes 2 q.roundId.toNat ++ ([UInt8.ofNat q.keys.length] ++ ([UInt8.ofNat q.keysPerGroup] ++
    (q.keys.flatMap (fun group => group.flatMap encodeKey) ++ dbIdSuffix q.dbId)))

def encodeHarmonyHintRequest (h : HarmonyHintRequest) : Bytes :=
  h.prpKey.val ++ ([h.prpBackend] ++ ([h.level] ++ ([UInt8.ofNat h.groupIds.length] ++
    (h.groupIds ++ dbIdSuffix h.dbId))))

def encodeHarmonyHintRequestV2 (h : HarmonyHintRequestV2) : Bytes :=
  0xff :: 0x00 :: dbIdSuffix h.dbId

def encodeHarmonyHintRequestV2Half (h : HarmonyHintRequestV2Half) : Bytes :=
  h.sessionToken.val ++ ([h.side] ++ dbIdSuffix h.dbId)

def encodeSubQuery (indices : List UInt32) : Bytes :=
  leBytes 4 indices.length ++ indices.flatMap fun idx => leBytes 4 idx.toNat

def encodeBatchItem (item : HarmonyBatchItem) : Bytes :=
  [item.groupId] ++ item.subQueries.flatMap encodeSubQuery

def encodeHarmonyBatchQuery (q : HarmonyBatchQuery) : Bytes :=
  [q.level] ++ (leBytes 2 q.roundId.toNat ++ (leBytes 2 q.items.length ++
    ([q.subQueriesPerGroup] ++ (q.items.flatMap encodeBatchItem ++ dbIdSuffix q.dbId))))

namespace OramLookupRequest

/-- A slot without a flag is in use. -/
def slotPresentAt (q : OramLookupRequest) (idx : ℕ) : Bool := q.slotPresent[idx]?.getD true

def allSlotsPresent (q : OramLookupRequest) : Bool :=
  q.slotPresent.length = q.scriptHashes.length ∧ ∀ present ∈ q.slotPresent, present = true

end OramLookupRequest

def flagByte (present : Bool) : UInt8 := if present then 1 else 0

/-- The slots of a lookup: their number alone if all are in use, else a marker, the number and
one flag each. -/
def encodeSlots (q : OramLookupRequest) : Bytes :=
  if q.allSlotsPresent then leBytes 2 q.scriptHashes.length
  else leBytes 2 0xffff ++ (leBytes 2 q.scriptHashes.length ++
    (List.range q.scriptHashes.length).map fun idx => flagByte (q.slotPresentAt idx))

def encodeOramLookupRequest (q : OramLookupRequest) : Bytes :=
  [q.dbId] ++ (encodeSlots q ++ Digest.concat q.scriptHashes)

namespace Request

def opcode : Request → Opcode
  | .ping => .ping
  | .getInfo => .getInfo
  | .getDbCatalog => .getDbCatalog
  | .getDbProof _ => .getDbProof
  | .getDbProofV2 _ => .getDbProofV2
  | .attest _ => .attest
  | .handshake .. => .handshake
  | .indexBatch _ => .indexBatch
  | .chunkBatch _ => .chunkBatch
  | .bucketMerkleSibBatch _ => .bucketMerkleSibBatch
  | .harmonyGetInfo => .harmonyGetInfo
  | .harmonyHints _ => .harmonyHints
  | .harmonyHintsV2 _ => .harmonyHintsV2
  | .harmonyHintsV2Half _ => .harmonyHintsV2Half
  | .harmonyBatchQuery _ => .harmonyBatchQuery
  | .oramLookup _ => .oramLookup
  | .announce => .announce
  | .creditPresent .. => .creditPresent
  | .apiKey _ => .apiKey

/-- What follows the opcode. -/
def body : Request → Bytes
  | .ping | .getInfo | .getDbCatalog | .harmonyGetInfo | .announce => []
  | .getDbProof dbId | .getDbProofV2 dbId => [dbId]
  | .attest nonce => nonce.val
  | .handshake clientEphPub nonce => clientEphPub.val ++ nonce.val
  | .indexBatch q | .chunkBatch q | .bucketMerkleSibBatch q => encodeBatchQuery q
  | .harmonyHints h => encodeHarmonyHintRequest h
  | .harmonyHintsV2 h => encodeHarmonyHintRequestV2 h
  | .harmonyHintsV2Half h => encodeHarmonyHintRequestV2Half h
  | .harmonyBatchQuery q => encodeHarmonyBatchQuery q
  | .oramLookup q => encodeOramLookupRequest q
  | .creditPresent kind payload => [kind] ++ (leBytes 4 payload.length ++ payload)
  | .apiKey key => key

/-- A request frame: the length of the payload, the payload. -/
def encode (r : Request) : Bytes :=
  leBytes 4 (r.opcode.toByte :: r.body).length ++ r.opcode.toByte :: r.body

end Request

/-! ## Requests that fit the wire -/

/-- The counts of a DPF batch fit their bytes and the decoder's limits, every group has the number
of keys that is announced, and every key is well framed. -/
structure BatchQuery.Fits (minKeysPerGroup : ℕ) (q : BatchQuery) : Prop where
  groups : q.keys.length < 256
  perGroup : ∀ group ∈ q.keys, group.length = q.keysPerGroup
  maxKeys : q.keysPerGroup ≤ maxKeysPerGroup
  minKeys : q.keys ≠ [] → minKeysPerGroup ≤ q.keysPerGroup
  keyLength : ∀ group ∈ q.keys, ∀ key ∈ group, key.length < 2 ^ 16
  keyFrame : ∀ group ∈ q.keys, ∀ key ∈ group, validateDpfKeyBytes key = .ok ()

structure HarmonyHintRequestV2Half.Fits (h : HarmonyHintRequestV2Half) : Prop where
  token : ¬∀ byte ∈ h.sessionToken.val, byte = 0
  side : h.side = 0 ∨ h.side = 1

structure HarmonyBatchQuery.Fits (q : HarmonyBatchQuery) : Prop where
  items : q.items.length < 2 ^ 16
  perGroup : ∀ item ∈ q.items, item.subQueries.length = q.subQueriesPerGroup.toNat
  indices : ∀ item ∈ q.items, ∀ indices ∈ item.subQueries, indices.length < 2 ^ 32

structure OramLookupRequest.Fits (q : OramLookupRequest) : Prop where
  count : q.scriptHashes.length ≤ maxOramLookupScripthashes
  flags : q.slotPresent.length = q.scriptHashes.length

namespace Request

/-- The counts and byte strings of a request fit its wire fields and the decoder's limits. -/
def Fits : Request → Prop
  | .indexBatch q => q.Fits indexParams.cuckooNumHashes
  | .chunkBatch q | .bucketMerkleSibBatch q => q.Fits 0
  | .harmonyHints h => h.groupIds.length < 256
  | .harmonyHintsV2Half h => h.Fits
  | .harmonyBatchQuery q => q.Fits
  | .oramLookup q => q.Fits
  | .creditPresent _ payload => payload.length ≤ 256 * 1024
  | .apiKey key => key ≠ [] ∧ key.length ≤ 128
  | _ => True

/-- The request as the decoder returns it: the level of a DPF batch is not on the wire. -/
def unlevelled : Request → Request
  | .indexBatch q => .indexBatch { q with level := 0 }
  | .chunkBatch q => .chunkBatch { q with level := 0 }
  | .bucketMerkleSibBatch q => .bucketMerkleSibBatch { q with level := 0 }
  | r => r

end Request

/-! ## Round trips of the parts -/

section Parts

variable {α β : Type}

/-- A reader is done with what a part of it reads. -/
theorem run_bind_append {p : Reader String α} {f : α → Reader String β} {bs : Bytes} {a : α}
    (hp : Reads p bs a) (cs : Bytes) : run (p >>= f) (bs ++ cs) = run (f a) cs := by
  rw [run, hp.bind_append, run]

theorem run_ensure_bind {c : Prop} [Decidable c] (hc : c) (e : String)
    (f : Unit → Reader String β) (cs : Bytes) : run (ensure c e >>= f) cs = run (f ()) cs :=
  run_bind_append (reads_ensure hc e) cs

theorem run_ensure_bind_of_not {c : Prop} [Decidable c] (hc : ¬c) (e : String)
    (f : Unit → Reader String β) (cs : Bytes) : run (ensure c e >>= f) cs = .error e := by
  rw [ensure, require, if_neg hc]
  rfl

theorem run_map {p : Reader String α} {bs : Bytes} {a : α} (hp : Reads p bs a) (g : α → β) :
    run (p >>= fun x => pure (g x)) bs = .ok (g a) := by
  have hread := hp.map g []
  rw [List.append_nil] at hread
  rw [run, hread]
  rfl

/-- Nothing is left but a database id. -/
theorem run_readDbId_bind (dbId : UInt8) (g : UInt8 → α) :
    run (readDbId >>= fun d => pure (g d)) (dbIdSuffix dbId) = .ok (g dbId) := by
  unfold dbIdSuffix
  split_ifs with h
  · rw [h]
    rfl
  · rfl

theorem toNat_ofNat_of_lt_256 {n : ℕ} (h : n < 256) : (UInt8.ofNat n).toNat = n :=
  UInt8.toNat_ofNat_of_lt' h

theorem reads_key {key : Bytes} (hlen : key.length < 2 ^ 16)
    (hframe : validateDpfKeyBytes key = .ok ()) : Reads readKey (encodeKey key) key := by
  refine (reads_countU16 hlen _).bind ?_
  rw [UInt16.toNat_ofNat_of_lt' hlen]
  have hcheck := reads_lift (x := (validateDpfKeyBytes key).mapError
    fun e => s!"bad DPF key: {e}") (a := ()) (by rw [hframe]; rfl)
  intro rest
  rw [(reads_take rfl _).bind_append]
  exact hcheck.map (fun _ => key) rest

theorem decode_encodeBatchQuery {q : BatchQuery} {minKeysPerGroup : ℕ}
    (h : q.Fits minKeysPerGroup) :
    run (readBatchQuery minKeysPerGroup) (encodeBatchQuery q) = .ok { q with level := 0 } := by
  have hgroups := toNat_ofNat_of_lt_256 h.groups
  have hper : (UInt8.ofNat q.keysPerGroup).toNat = q.keysPerGroup :=
    toNat_ofNat_of_lt_256 (lt_of_le_of_lt h.maxKeys (by decide))
  have hkeys : Reads (many (many readKey q.keysPerGroup) q.keys.length)
      (q.keys.flatMap fun group => group.flatMap encodeKey) q.keys := by
    apply reads_many
    intro group hgroup
    rw [← h.perGroup group hgroup]
    exact reads_many fun key hkey =>
      reads_key (h.keyLength group hgroup key hkey) (h.keyFrame group hgroup key hkey)
  have hmin : UInt8.ofNat q.keys.length = 0 ∨ minKeysPerGroup ≤ q.keysPerGroup := by
    by_cases hnil : q.keys = []
    · exact .inl (by rw [hnil]; rfl)
    · exact .inr (h.minKeys hnil)
  rw [encodeBatchQuery, readBatchQuery, run_bind_append (reads_takeU16 _ _),
    run_bind_append (reads_takeU8 _ _), run_bind_append (reads_takeU8 _ _),
    hper, hgroups, run_ensure_bind h.maxKeys, run_ensure_bind hmin, run_bind_append hkeys,
    run_readDbId_bind]

theorem decode_encodeHarmonyHintRequest {h : HarmonyHintRequest} (hfit : h.groupIds.length < 256) :
    run readHarmonyHintRequest (encodeHarmonyHintRequest h) = .ok h := by
  have hlen : h.groupIds.length = (UInt8.ofNat h.groupIds.length).toNat :=
    (toNat_ofNat_of_lt_256 hfit).symm
  rw [encodeHarmonyHintRequest, readHarmonyHintRequest, run_bind_append (reads_takeArr _ _),
    run_bind_append (reads_takeU8 _ _), run_bind_append (reads_takeU8 _ _),
    run_bind_append (reads_takeU8 _ _), run_bind_append (reads_take hlen _),
    run_readDbId_bind]

theorem exactDbId_dbIdSuffix (e : String) (dbId : UInt8) :
    exactDbId e (dbIdSuffix dbId) = .ok dbId := by
  unfold dbIdSuffix
  split_ifs with h
  · rw [h]
    rfl
  · exact if_neg h

theorem length_dbIdSuffix (dbId : UInt8) :
    (dbIdSuffix dbId).length = 0 ∨ (dbIdSuffix dbId).length = 1 := by
  unfold dbIdSuffix
  split_ifs
  · exact .inl rfl
  · exact .inr rfl

theorem decode_encodeHarmonyHintRequestV2 (h : HarmonyHintRequestV2) :
    decodeHarmonyHintRequestV2 (encodeHarmonyHintRequestV2 h) = .ok h := by
  have hlen : (encodeHarmonyHintRequestV2 h).length = 2 ∨
      (encodeHarmonyHintRequestV2 h).length = 3 := by
    simpa [encodeHarmonyHintRequestV2] using length_dbIdSuffix h.dbId
  have hsentinel : (encodeHarmonyHintRequestV2 h).headD 0 = 0xff := rfl
  have hreserved : (encodeHarmonyHintRequestV2 h).getD 1 0 = 0 := rfl
  rw [decodeHarmonyHintRequestV2, require_of hlen, ok_bind, require_of hsentinel, ok_bind,
    require_of hreserved, ok_bind]
  have hdrop : (encodeHarmonyHintRequestV2 h).drop 2 = dbIdSuffix h.dbId := rfl
  rw [hdrop, exactDbId_dbIdSuffix]
  rfl

theorem length_encodeHarmonyHintRequestV2Half (h : HarmonyHintRequestV2Half) :
    (encodeHarmonyHintRequestV2Half h).length = 17 ∨
      (encodeHarmonyHintRequestV2Half h).length = 18 := by
  have htoken := h.sessionToken.property
  have hsuffix := length_dbIdSuffix h.dbId
  simp only [encodeHarmonyHintRequestV2Half, List.length_append, List.length_cons,
    List.length_nil]
  omega

theorem decode_encodeHarmonyHintRequestV2Half {h : HarmonyHintRequestV2Half} (hfit : h.Fits) :
    run (readHarmonyHintRequestV2Half (encodeHarmonyHintRequestV2Half h).length)
      (encodeHarmonyHintRequestV2Half h) = .ok h := by
  rw [readHarmonyHintRequestV2Half, run_ensure_bind (length_encodeHarmonyHintRequestV2Half h),
    encodeHarmonyHintRequestV2Half, run_bind_append (reads_takeArr _ _),
    run_ensure_bind hfit.token, run_bind_append (reads_takeU8 _ _),
    run_ensure_bind hfit.side]
  have hdb := lift_eq_ok.2
    ⟨exactDbId_dbIdSuffix "V2 half hint request must omit a zero db_id" h.dbId,
      (rfl : dbIdSuffix h.dbId = dbIdSuffix h.dbId)⟩
  change Except.map Prod.fst ((lift (exactDbId _ (dbIdSuffix h.dbId)) >>= fun dbId =>
    pure (⟨h.sessionToken, h.side, dbId⟩ : HarmonyHintRequestV2Half)) (dbIdSuffix h.dbId)) = _
  rw [bind_ok hdb]
  rfl

theorem reads_subQuery {indices : List UInt32} (hlen : indices.length < 2 ^ 32) :
    Reads readSubQuery (encodeSubQuery indices) indices := by
  refine (reads_countU32 hlen _).bind ?_
  rw [UInt32.toNat_ofNat_of_lt' hlen]
  exact reads_many fun idx _ => reads_takeU32 idx _

theorem reads_batchItem {item : HarmonyBatchItem} {perGroup : UInt8}
    (hper : item.subQueries.length = perGroup.toNat)
    (hlen : ∀ indices ∈ item.subQueries, indices.length < 2 ^ 32) :
    Reads (readBatchItem perGroup) (encodeBatchItem item) item := by
  refine (reads_takeU8 item.groupId _).bind ?_
  rw [← hper]
  exact (reads_many fun indices h => reads_subQuery (hlen indices h)).map _

theorem decode_encodeHarmonyBatchQuery {q : HarmonyBatchQuery} (h : q.Fits) :
    run readHarmonyBatchQuery (encodeHarmonyBatchQuery q) = .ok q := by
  have hitems : Reads (many (readBatchItem q.subQueriesPerGroup) q.items.length)
      (q.items.flatMap encodeBatchItem) q.items :=
    reads_many fun item hitem => reads_batchItem (h.perGroup item hitem) (h.indices item hitem)
  rw [encodeHarmonyBatchQuery, readHarmonyBatchQuery, run_bind_append (reads_takeU8 _ _),
    run_bind_append (reads_takeU16 _ _), run_bind_append (reads_countU16 h.items _),
    run_bind_append (reads_takeU8 _ _), UInt16.toNat_ofNat_of_lt' h.items,
    run_bind_append hitems, run_readDbId_bind]

theorem mapM_slotFlag (flags : List Bool) : (flags.map flagByte).mapM slotFlag = .ok flags := by
  rw [mapM_eq_ok, List.forall₂_map_left_iff, List.forall₂_same]
  intro present _
  cases present
  · rfl
  · rfl

/-- The flags written for the slots are the flags of the slots. -/
theorem map_slotPresentAt {q : OramLookupRequest} (h : q.Fits) :
    (List.range q.scriptHashes.length).map (fun idx => flagByte (q.slotPresentAt idx)) =
      q.slotPresent.map flagByte := by
  apply List.ext_getElem
  · simp [h.flags]
  · intro idx hl hr
    have hidx : idx < q.slotPresent.length := by simpa using hr
    simp [OramLookupRequest.slotPresentAt, hidx]

theorem reads_slots {q : OramLookupRequest} (h : q.Fits) (e : String) :
    Reads (takeU16 e >>= readSlots) (encodeSlots q)
      (q.scriptHashes.length, q.slotPresent) := by
  have hcount : q.scriptHashes.length < 2 ^ 16 := lt_of_le_of_lt h.count (by decide)
  rw [encodeSlots]
  split_ifs with hall
  · obtain ⟨-, htrue⟩ := of_decide_eq_true hall
    have hne : UInt16.ofNat q.scriptHashes.length ≠ 0xffff := by
      intro heq
      have := congrArg UInt16.toNat heq
      have hle := h.count
      simp only [maxOramLookupScripthashes] at hle
      simp at this
      omega
    refine (reads_countU16 hcount e).bind ?_
    rw [readSlots, if_neg hne, UInt16.toNat_ofNat_of_lt' hcount, ← h.flags,
      ← List.eq_replicate_of_mem htrue]
    exact reads_pure _
  · refine (reads_takeU16 0xffff e).bind ?_
    refine (reads_countU16 hcount _).bind ?_
    rw [UInt16.toNat_ofNat_of_lt' hcount, map_slotPresentAt h]
    intro rest
    rw [(reads_take (by rw [List.length_map, h.flags]) _).bind_append]
    exact (reads_lift (mapM_slotFlag q.slotPresent)).map _ rest

theorem decode_encodeOramLookupRequest {q : OramLookupRequest} (h : q.Fits) :
    run readOramLookupRequest (encodeOramLookupRequest q) = .ok q := by
  have hhashes : Reads (many (takeArr scriptHashSize
      "truncated ORAM scripthash list") q.scriptHashes.length)
      (Digest.concat q.scriptHashes) q.scriptHashes :=
    reads_many fun sh _ => reads_takeArr sh _
  rw [encodeOramLookupRequest, readOramLookupRequest, run_bind_append (reads_takeU8 _ _),
    ← bind_assoc, run_bind_append (reads_slots h _)]
  rw [run_ensure_bind h.count, run_map hhashes]

theorem decode_encodeCreditPresent {kind : UInt8} {payload : Bytes}
    (h : payload.length ≤ 256 * 1024) :
    run (readCreditPresent (Request.creditPresent kind payload).body.length)
      (Request.creditPresent kind payload).body = .ok (.creditPresent kind payload) := by
  have hlt : payload.length < 2 ^ 32 := lt_of_le_of_lt h (by decide)
  have hlen : (Request.creditPresent kind payload).body.length = 5 + payload.length := by
    simp [Request.body]
    omega
  rw [hlen, Request.body, readCreditPresent, run_bind_append (reads_takeU8 _ _),
    run_bind_append (reads_countU32 hlt _), UInt32.toNat_ofNat_of_lt' hlt, run_ensure_bind h,
    run_ensure_bind rfl]
  rfl

theorem decode_encodeHandshake (clientEphPub nonce : Digest 32) :
    run readHandshake (Request.handshake clientEphPub nonce).body =
      .ok (.handshake clientEphPub nonce) := by
  rw [Request.body, readHandshake, run_bind_append (reads_takeArr _ _),
    run_map (reads_takeArr nonce _)]

end Parts

/-! ## Round trip -/

namespace Request

theorem decode_payload {r : Request} (h : r.Fits) :
    Request.decode (r.opcode.toByte :: r.body) = .ok r.unlevelled := by
  rw [Request.decode, Opcode.ofByte_toByte]
  cases r with
  | ping => rfl
  | getInfo => rfl
  | getDbCatalog => rfl
  | getDbProof dbId => rfl
  | getDbProofV2 dbId => rfl
  | attest nonce =>
    have hread := reads_takeArr nonce "attest request must carry a 32-byte nonce" []
    rw [List.append_nil] at hread
    simp only [opcode, body, run, hread, unlevelled, Except.map]
  | handshake clientEphPub nonce => exact decode_encodeHandshake clientEphPub nonce
  | indexBatch q =>
    simp only [opcode, body, decode_encodeBatchQuery h, unlevelled, Except.map]
  | chunkBatch q =>
    simp only [opcode, body, decode_encodeBatchQuery h, unlevelled, Except.map]
  | bucketMerkleSibBatch q =>
    simp only [opcode, body, decode_encodeBatchQuery h, unlevelled, Except.map]
  | harmonyGetInfo => rfl
  | harmonyHints q =>
    simp only [opcode, body, decode_encodeHarmonyHintRequest h, unlevelled, Except.map]
  | harmonyHintsV2 q =>
    simp only [opcode, body, decode_encodeHarmonyHintRequestV2, unlevelled, Except.map]
  | harmonyHintsV2Half q =>
    simp only [opcode, body, decode_encodeHarmonyHintRequestV2Half h, unlevelled, Except.map]
  | harmonyBatchQuery q =>
    simp only [opcode, body, decode_encodeHarmonyBatchQuery h, unlevelled, Except.map]
  | oramLookup q =>
    simp only [opcode, body, decode_encodeOramLookupRequest h, unlevelled, Except.map]
  | announce => rfl
  | creditPresent kind payload => exact decode_encodeCreditPresent h
  | apiKey key =>
    have hkey : ¬(key = [] ∨ 128 < key.length) := by
      rw [not_or, not_lt]
      exact h
    exact if_neg hkey

/-- **A fitting request comes back from its frame, except for the level of a DPF batch.** -/
theorem decode_encode {r : Request} (h : r.Fits) :
    Request.decode (r.encode.drop 4) = .ok r.unlevelled :=
  decode_payload h

/-- A serialized DPF key for the smallest domain. -/
def smallestKey : Bytes := 7 :: List.replicate 33 0

theorem smallestKey_frame : validateDpfKeyBytes smallestKey = .ok () := by decide

/-- One group with one key, for the second database. -/
def chunkRound (level : UInt8) : BatchQuery := ⟨level, 3, 1, [[smallestKey]]⟩

theorem chunkRound_fits (level : UInt8) : (chunkRound level).Fits 0 where
  groups := by simp [chunkRound]
  perGroup := by simp [chunkRound, BatchQuery.keysPerGroup]
  maxKeys := by simp [chunkRound, BatchQuery.keysPerGroup, maxKeysPerGroup]
  minKeys _ := Nat.zero_le _
  keyLength := by simp [chunkRound, smallestKey]
  keyFrame := by simp [chunkRound, smallestKey_frame]

theorem decode_encode_chunkRound :
    Request.decode ((Request.chunkBatch (chunkRound 0)).encode.drop 4) =
      .ok (.chunkBatch (chunkRound 0)) :=
  decode_encode (chunkRound_fits 0)

/-- A CHUNK batch with the level of CHUNK batches comes back with level 0. -/
theorem chunkRound_level_lost :
    (Request.chunkBatch (chunkRound 1)).Fits ∧
      Request.decode ((Request.chunkBatch (chunkRound 1)).encode.drop 4) ≠
        .ok (.chunkBatch (chunkRound 1)) := by
  have hfits : (Request.chunkBatch (chunkRound 1)).Fits := chunkRound_fits 1
  refine ⟨hfits, ?_⟩
  intro h
  injection h with h
  injection h with h
  have hlevel := congrArg BatchQuery.level h
  simp [chunkRound] at hlevel

end Request

end BitcoinPir.Meter
