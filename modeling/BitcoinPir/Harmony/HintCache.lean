import BitcoinPir.Harmony.Freshness
import BitcoinPir.Harmony.LegacyState

/-!
# The hint cache file

The bytes of a saved hint bundle: a header with the fingerprint of the key it was saved under, and
the groups in counted sections, sorted. A client that loads the file has the groups of the client
that saved it, with all their hints (`hintCache_roundTrip`).
-/

namespace BitcoinPir.HarmonyClient

open Foundations Reader

/-! ### Bundles -/

/-- The four maps of a bundle in one. Group ids and levels are bytes. -/
abbrev HintBundle := Slot → Option Bytes

/-- The map after the insertion of each entry in turn: the last one for a key stays. -/
def insertAll (entries : List (Slot × Bytes)) : HintBundle := fun k => entries.reverse.lookup k

def mainKeys (key : ℕ → Slot) : List Slot := (List.range 256).map key

def sibKeys (key : ℕ → ℕ → Slot) : List Slot :=
  (List.range 256 ×ˢ List.range 256).map fun k => key k.1 k.2

/-- Every key, section by section and sorted in each. -/
def allKeys : List Slot :=
  mainKeys .index ++ (mainKeys .chunk ++ (sibKeys .indexSib ++ sibKeys .chunkSib))

/-- The entries of a bundle at some keys, in their order. -/
def entriesAt (keys : List Slot) (bundle : HintBundle) : List (Slot × Bytes) :=
  keys.filterMap fun k => (bundle k).map fun b => (k, b)

def hasSiblings (bundle : HintBundle) : Bool :=
  !(entriesAt (sibKeys .indexSib) bundle).isEmpty || !(entriesAt (sibKeys .chunkSib) bundle).isEmpty

/-! ### Encoding -/

def magic : Bytes := toUtf8 "PSH1"

def formatVersion : UInt16 := 1

def schemaString : Bytes := toUtf8 <|
  "pir-sdk hint cache v2 (PSH1): " ++
  "[magic 4][fmt_ver u16][schema_hash 32][fp 16][backend u8][db_id u8][height u32]" ++
  "[index_bins u32][chunk_bins u32][tag_seed u64][index_k u8][chunk_k u8]" ++
  "[index_master_seed u64][chunk_master_seed u64]" ++
  "[num_main_index u32 (group_id u8, len u32, bytes)]" ++
  "[num_main_chunk u32 (group_id u8, len u32, bytes)]" ++
  "[has_sibling u8]" ++
  "sib_block = [num_index_sib u32 (level u8, group_id u8, len u32, bytes)]" ++
  "[num_chunk_sib u32 (level u8, group_id u8, len u32, bytes)]"

/-- The fields of a key in the header. The master key is not written. -/
def CacheKey.encode (key : CacheKey) : Bytes :=
  [key.prpBackend] ++ [key.dbId] ++ leBytes 4 key.height.toNat ++ leBytes 4 key.indexBins.toNat ++
    leBytes 4 key.chunkBins.toNat ++ leBytes 8 key.tagSeed.toNat ++ [key.indexK] ++ [key.chunkK] ++
    leBytes 8 key.indexMasterSeed.toNat ++ leBytes 8 key.chunkMasterSeed.toNat

def Slot.encode : Slot → Bytes
  | .index g | .chunk g => [UInt8.ofNat g]
  | .indexSib level g | .chunkSib level g => [UInt8.ofNat level, UInt8.ofNat g]

def encodeSection (keys : List Slot) (bundle : HintBundle) : Bytes :=
  leBytes 4 (entriesAt keys bundle).length ++
    (entriesAt keys bundle).flatMap fun e => e.1.encode ++ (leBytes 4 e.2.length ++ e.2)

def encodeSiblings (bundle : HintBundle) : Bytes :=
  if hasSiblings bundle then
    [1] ++ (encodeSection (sibKeys .indexSib) bundle ++ encodeSection (sibKeys .chunkSib) bundle)
  else [0]

def encodeBundle (bundle : HintBundle) : Bytes :=
  encodeSection (mainKeys .index) bundle ++
    (encodeSection (mainKeys .chunk) bundle ++ encodeSiblings bundle)

section Codec

variable (H : Bytes → Hash256)

def encodePreamble (fingerprint : Bytes) : Bytes :=
  magic ++ (leBytes 2 formatVersion.toNat ++ ((H schemaString).val ++ fingerprint))

def encodeHints (key : CacheKey) (bundle : HintBundle) : Bytes :=
  encodePreamble H (key.fingerprint H) ++ (key.encode ++ encodeBundle bundle)

/-! ### Decoding -/

structure DecodedHints where
  key : CacheKey
  bundle : HintBundle

def truncatedU8 : PirError := .decode "hint cache: truncated (u8)"

def truncatedU32 : PirError := .decode "hint cache: truncated (u32)"

def readBytes (len : ℕ) : Reader PirError Bytes := fun b =>
  take len (.decode s!"hint cache: truncated body (need {len} bytes, have {b.length})") b

def readMainKey (key : ℕ → Slot) : Reader PirError Slot := do
  let g ← takeU8 truncatedU8
  return key g.toNat

def readSibKey (key : ℕ → ℕ → Slot) : Reader PirError Slot := do
  let level ← takeU8 truncatedU8
  let g ← takeU8 truncatedU8
  return key level.toNat g.toNat

def readEntry (readKey : Reader PirError Slot) : Reader PirError (Slot × Bytes) := do
  let key ← readKey
  let len ← takeU32 truncatedU32
  let bytes ← readBytes len.toNat
  return (key, bytes)

def readSection (readKey : Reader PirError Slot) : Reader PirError (List (Slot × Bytes)) := do
  let count ← takeU32 truncatedU32
  many (readEntry readKey) count.toNat

def readSiblings : Reader PirError (List (Slot × Bytes)) := do
  let hasSib ← takeU8 truncatedU8
  if hasSib = 0 then
    return []
  else
    let indexSib ← readSection (readSibKey .indexSib)
    let chunkSib ← readSection (readSibKey .chunkSib)
    return indexSib ++ chunkSib

def readBundle : Reader PirError HintBundle := do
  let mainIndex ← readSection (readMainKey .index)
  let mainChunk ← readSection (readMainKey .chunk)
  let siblings ← readSiblings
  return insertAll (mainIndex ++ (mainChunk ++ siblings))

def minHeaderBytes : ℕ := 4 + 2 + 32 + 16 + 1 + 1 + 4 + 4 + 4 + 8 + 1 + 1 + 8 + 8 + 4 + 4 + 1

def tooShort (len : ℕ) : PirError :=
  .decode s!"hint cache: buffer too short ({len} < {minHeaderBytes})"

/-- Up to the fingerprint. Reads of the header do not fail with `e`, its length is checked before. -/
def readPreamble (e : PirError) : Reader PirError Bytes := do
  let m ← take 4 e
  ensure (m = magic) (.decode ("hint cache: bad magic [" ++ ", ".intercalate (m.map hexByte) ++ "]"))
  let version ← takeU16 e
  ensure (version = formatVersion)
    (.decode s!"hint cache: format version {version} != {formatVersion}")
  let schemaHash ← take 32 e
  ensure (schemaHash = (H schemaString).val)
    (.decode "hint cache: schema hash mismatch (format reshuffled; refetch)")
  take 16 e

/-- The master key is returned as zeros. -/
def readKey (e : PirError) : Reader PirError CacheKey := do
  let prpBackend ← takeU8 e
  let dbId ← takeU8 e
  let height ← takeU32 e
  let indexBins ← takeU32 e
  let chunkBins ← takeU32 e
  let tagSeed ← takeU64 e
  let indexK ← takeU8 e
  let chunkK ← takeU8 e
  let indexMasterSeed ← takeU64 e
  let chunkMasterSeed ← takeU64 e
  return ⟨List.replicate 16 0, prpBackend, dbId, height, indexBins, chunkBins, tagSeed, indexK, chunkK,
    indexMasterSeed, chunkMasterSeed⟩

def fingerprintMismatch : PirError :=
  .invalidState "hint cache: fingerprint mismatch (cache is for a different master key / PRP backend / db snapshot)"

def readHints (e : PirError) (expected : Option Bytes) : Reader PirError DecodedHints := do
  let fingerprint ← readPreamble H e
  ensure (∀ want ∈ expected, fingerprint = want) fingerprintMismatch
  let key ← readKey e
  let bundle ← readBundle
  return ⟨key, bundle⟩

def decodeHints (data : Bytes) (expected : Option Bytes) : PirResult DecodedHints := do
  require (minHeaderBytes ≤ data.length) (tooShort data.length)
  let decoded ← readHints H (tooShort data.length) expected data
  return decoded.1

end Codec

/-! ### The round trip -/

/-- The limits of the format: keys of bytes, and groups short enough for their length field. -/
def Fits (bundle : HintBundle) : Prop := ∀ k b, bundle k = some b → k ∈ allKeys ∧ b.length < 2 ^ 32

theorem mem_entriesAt {keys : List Slot} {bundle : HintBundle} {k : Slot} {b : Bytes} :
    (k, b) ∈ entriesAt keys bundle ↔ k ∈ keys ∧ bundle k = some b := by
  simp only [entriesAt, List.mem_filterMap, Option.map_eq_some_iff, Prod.mk.injEq]
  constructor
  · rintro ⟨_, hk, _, hb, rfl, rfl⟩
    exact ⟨hk, hb⟩
  · rintro ⟨hk, hb⟩
    exact ⟨k, hk, b, hb, rfl, rfl⟩

/-- Where no key has two values, the map has the entries that were inserted. -/
theorem insertAll_eq_some {l : List (Slot × Bytes)}
    (hl : ∀ k b b', (k, b) ∈ l → (k, b') ∈ l → b = b') {k : Slot} {b : Bytes} :
    insertAll l k = some b ↔ (k, b) ∈ l := by
  have hmem : ∀ {b}, insertAll l k = some b → (k, b) ∈ l := by
    intro b h
    obtain ⟨l₁, l₂, heq, -⟩ := List.lookup_eq_some_iff.1 h
    exact List.mem_reverse.1 (heq ▸ List.mem_append_right _ List.mem_cons_self)
  refine ⟨hmem, fun hb => ?_⟩
  cases hfound : insertAll l k with
  | none => simpa using List.lookup_eq_none_iff.1 hfound (k, b) (List.mem_reverse.2 hb)
  | some b' => rw [hl k b' b (hmem hfound) hb]

theorem insertAll_entriesAt {bundle : HintBundle} (hfits : Fits bundle) :
    insertAll (entriesAt allKeys bundle) = bundle := by
  funext k
  refine Option.ext fun b => ?_
  rw [insertAll_eq_some, mem_entriesAt, and_iff_right_of_imp fun hb => (hfits k b hb).1]
  intro k b b' hb hb'
  exact Option.some.inj ((mem_entriesAt.1 hb).2.symm.trans (mem_entriesAt.1 hb').2)

section Reads

variable {bundle : HintBundle} {keys : List Slot} {key : Reader PirError Slot}

theorem reads_entry {e : Slot × Bytes} (hkey : Reads key e.1.encode e.1)
    (hlen : e.2.length < 2 ^ 32) :
    Reads (readEntry key) (e.1.encode ++ (leBytes 4 e.2.length ++ e.2)) e := by
  have hbytes : Reads (readBytes e.2.length) e.2 e.2 := fun _ => take_eq_ok.2 ⟨rfl, rfl⟩
  refine hkey.bind ((reads_countU32 hlen _).bind ?_)
  rw [UInt32.toNat_ofNat_of_lt' hlen]
  exact hbytes.map _

theorem reads_section (hkey : ∀ k ∈ keys, Reads key k.encode k) (hkeys : keys.length < 2 ^ 32)
    (hfits : Fits bundle) :
    Reads (readSection key) (encodeSection keys bundle) (entriesAt keys bundle) := by
  have hcount : (entriesAt keys bundle).length < 2 ^ 32 :=
    (List.length_filterMap_le ..).trans_lt hkeys
  refine Reads.afterU32 (g := many (readEntry key)) (reads_many fun e he => ?_) hcount _
  obtain ⟨hk, hb⟩ := mem_entriesAt.1 he
  exact reads_entry (hkey _ hk) (hfits _ _ hb).2

theorem reads_byte {n : ℕ} (hn : n ∈ List.range 256) {f : ℕ → Reader PirError Slot} {bs : Bytes}
    {k : Slot} (h : Reads (f n) bs k) :
    Reads (takeU8 truncatedU8 >>= fun b => f b.toNat) ([UInt8.ofNat n] ++ bs) k := by
  refine (reads_takeU8 (UInt8.ofNat n) _).bind ?_
  rwa [UInt8.toNat_ofNat_of_lt' (List.mem_range.1 hn)]

theorem reads_mainSection (key : ℕ → Slot) (hkey : ∀ g, (key g).encode = [UInt8.ofNat g])
    (hfits : Fits bundle) : Reads (readSection (readMainKey key))
      (encodeSection (mainKeys key) bundle) (entriesAt (mainKeys key) bundle) := by
  refine reads_section (fun k hk => ?_) (by simp [mainKeys]) hfits
  obtain ⟨g, hg, rfl⟩ := List.mem_map.1 hk
  rw [hkey]
  exact reads_byte (f := fun g => pure (key g)) hg (reads_pure (key g))

theorem reads_sibSection (key : ℕ → ℕ → Slot)
    (hkey : ∀ level g, (key level g).encode = [UInt8.ofNat level, UInt8.ofNat g])
    (hfits : Fits bundle) : Reads (readSection (readSibKey key))
      (encodeSection (sibKeys key) bundle) (entriesAt (sibKeys key) bundle) := by
  refine reads_section (fun k hk => ?_) (by simp [sibKeys, List.length_product]) hfits
  obtain ⟨⟨level, g⟩, hpair, rfl⟩ := List.mem_map.1 hk
  obtain ⟨hlevel, hg⟩ := List.mem_product.1 hpair
  rw [hkey]
  exact reads_byte (f := fun level => readMainKey (key level)) hlevel
    (reads_byte (f := fun g => pure (key level g)) hg (reads_pure (key level g)))

theorem reads_siblings (hfits : Fits bundle) : Reads readSiblings (encodeSiblings bundle)
    (entriesAt (sibKeys .indexSib) bundle ++ entriesAt (sibKeys .chunkSib) bundle) := by
  rw [encodeSiblings]
  split_ifs with hsib
  · exact (reads_takeU8 1 _).bind ((reads_sibSection _ (fun _ _ => rfl) hfits).bind
      ((reads_sibSection _ (fun _ _ => rfl) hfits).map _))
  · simp only [hasSiblings, Bool.or_eq_true, Bool.not_eq_true', List.isEmpty_eq_false_iff, not_or,
      not_not] at hsib
    rw [hsib.1, hsib.2]
    exact (reads_takeU8 0 _).bind (reads_pure [])

theorem reads_bundle (hfits : Fits bundle) : Reads readBundle (encodeBundle bundle) bundle := by
  have hread : Reads readBundle (encodeBundle bundle) (insertAll _) :=
    (reads_mainSection _ (fun _ => rfl) hfits).bind
      ((reads_mainSection _ (fun _ => rfl) hfits).bind ((reads_siblings hfits).map _))
  have hall := insertAll_entriesAt hfits
  simp only [entriesAt, allKeys, List.filterMap_append] at hall hread
  rwa [hall] at hread

theorem reads_key (e : PirError) (key : CacheKey) :
    Reads (readKey e) key.encode { key with masterPrpKey := List.replicate 16 0 } :=
  (reads_takeU8 _ e).bind ((reads_takeU8 _ e).bind ((reads_takeU32 _ e).bind
    ((reads_takeU32 _ e).bind ((reads_takeU32 _ e).bind ((reads_takeU64 _ e).bind
    ((reads_takeU8 _ e).bind ((reads_takeU8 _ e).bind ((reads_takeU64 _ e).bind
    ((reads_takeU64 _ e).map _)))))))))

variable {H : Bytes → Hash256} {key : CacheKey}

theorem length_fingerprint : (key.fingerprint H).length = 16 := by
  rw [CacheKey.fingerprint, List.length_take, (H _).property]
  rfl

theorem reads_preamble (e : PirError) :
    Reads (readPreamble H e) (encodePreamble H (key.fingerprint H)) (key.fingerprint H) := by
  intro rest
  rw [encodePreamble, List.append_assoc, List.append_assoc, List.append_assoc, readPreamble,
    (reads_take (by decide) e).bind_append, ensure_bind rfl, (reads_takeU16 _ e).bind_append,
    ensure_bind rfl, (reads_take (H _).property e).bind_append, ensure_bind rfl]
  exact reads_take length_fingerprint e rest

theorem minHeaderBytes_le : minHeaderBytes ≤ (encodeHints H key bundle).length := by
  have hmagic : magic.length = 4 := by decide
  have hsib : 1 ≤ (encodeSiblings bundle).length := by
    unfold encodeSiblings
    split_ifs <;> simp
  simp only [encodeHints, encodePreamble, CacheKey.encode, encodeBundle, encodeSection,
    List.length_append, length_leBytes, length_fingerprint, (H _).property, List.length_singleton,
    hmagic, minHeaderBytes]
  omega

variable {want : Bytes}

theorem decodeHints_encodeHints (hfits : Fits bundle) (hwant : want = key.fingerprint H) :
    decodeHints H (encodeHints H key bundle) (some want) =
      .ok ⟨{ key with masterPrpKey := List.replicate 16 0 }, bundle⟩ := by
  have hread : ∀ e, readHints H e (some want) (encodeHints H key bundle) =
      .ok (⟨{ key with masterPrpKey := List.replicate 16 0 }, bundle⟩, []) := by
    intro e
    rw [readHints, encodeHints, (reads_preamble e).bind_append, ensure_bind (by simp [hwant]),
      (reads_key e key).bind_append]
    simpa using (reads_bundle hfits).map (DecodedHints.mk _) []
  rw [decodeHints, require_of minHeaderBytes_le, hread]
  rfl

theorem decodeHints_mismatch (h : want ≠ key.fingerprint H) :
    decodeHints H (encodeHints H key bundle) (some want) = .error fingerprintMismatch := by
  have hread : ∀ e, readHints H e (some want) (encodeHints H key bundle) =
      .error fingerprintMismatch := by
    intro e
    rw [readHints, encodeHints, (reads_preamble e).bind_append, ensure, require,
      if_neg fun hall => h (hall want rfl).symm]
    rfl
  rw [decodeHints, require_of minHeaderBytes_le, hread]
  rfl

end Reads

/-! ### Saving and loading the groups of a client -/

/-- The key of a group in a bundle: levels are narrowed to a byte. -/
def Slot.narrow : Slot → Slot
  | .indexSib level g => .indexSib (level % 256) g
  | .chunkSib level g => .chunkSib (level % 256) g
  | slot => slot

theorem Slot.narrow_of_mem {slot : Slot} (h : slot ∈ allKeys) : slot.narrow = slot := by
  cases slot with
  | index | chunk => rfl
  | indexSib level g | chunkSib level g =>
    simp [allKeys, mainKeys, sibKeys] at h
    simp [Slot.narrow, h.1]

/-- The fields of a client that saving and loading touch. The four maps are one list. -/
structure HintClient where
  masterPrpKey : PrpKey
  prpBackend : UInt8
  catalog : Option DatabaseCatalog
  loadedDbId : Option UInt8
  siblingHintsLoaded : Option UInt8
  groups : List (Slot × RemoteClient)

namespace HintClient

variable (H : Bytes → Hash256) (c : HintClient) (db : DatabaseInfo)

def serializeHarmonyGroup (group : RemoteClient) : PirResult Bytes :=
  group.serializeLegacyState.mapError fun e => .backendState s!"serialize HarmonyPIR group: {e}"

def saveHintsBytes : PirResult (Option Bytes) :=
  match c.loadedDbId with
  | none => .ok none
  | some dbId =>
    match c.catalog with
    | none =>
      .error (.invalidState "save_hints_bytes: catalog not fetched (call fetch_catalog first)")
    | some catalog =>
      match catalog.get dbId with
      | none => .error (.databaseNotFound dbId.toNat)
      | some info => do
        let entries ← c.groups.mapM fun e => do
          let bytes ← serializeHarmonyGroup e.2
          return (e.1.narrow, bytes)
        return some (encodeHints H (.fromDbInfo c.masterPrpKey c.prpBackend info) (insertAll entries))

def deserializeGroup (l : Layout) (e : Slot × Bytes) : PirResult (Slot × RemoteClient) := do
  let group ← (deserializeLegacyState e.2 c.masterPrpKey (e.1.groupId l)).mapError fun message =>
    .backendState s!"deserialize {e.1.label}: {remoteError message}"
  return (e.1, group)

def loadBundleIntoGroups (bundle : List (Slot × Bytes)) : PirResult HintClient := do
  let groups ← bundle.mapM (c.deserializeGroup (Client.bundleLayout db bundle))
  let full := Client.fullMain db bundle
  return { c with
    groups := groups
    loadedDbId := if full then some db.dbId else none
    siblingHintsLoaded :=
      if full && bundle.any (fun e => e.1.isSib) then some db.dbId else none }

def loadHintsBytes (blob : Bytes) : PirResult HintClient := do
  let expected := (CacheKey.fromDbInfo c.masterPrpKey c.prpBackend db).fingerprint H
  let decoded ← decodeHints H blob (some expected)
  c.loadBundleIntoGroups db (entriesAt allKeys decoded.bundle)

/-- A group between requests that can be written and read back, with the permutation of its key and
id and all its relocations made. -/
structure Intact (group : RemoteClient) (key : PrpKey) (groupId : ℕ) : Prop where
  valid : group.Valid
  idle : group.inFlight = .idle
  ds : group.ds = (group.restored key groupId).ds

/-- A client with hints of `db`, each group intact under the id of its slot. -/
structure Savable (indexSibLevels : ℕ) : Prop where
  loaded : c.loadedDbId = some db.dbId
  entry : ∃ catalog, c.catalog = some catalog ∧ catalog.get db.dbId = some db
  nodup : (c.groups.map Prod.fst).Nodup
  keys : ∀ e ∈ c.groups, e.1 ∈ allKeys
  intact : ∀ e ∈ c.groups,
    Intact e.2 c.masterPrpKey (e.1.groupId (layoutOf db indexSibLevels))

/-- The bundle a client saves. -/
def bundle : HintBundle := insertAll (c.groups.map fun e => (e.1.narrow, e.2.encode))

end HintClient

/-- The group with the random generator of its key, id and query count. -/
def RemoteClient.reseeded (group : RemoteClient) (key : PrpKey) (groupId : ℕ) : RemoteClient :=
  { group with rng := (group.restored key groupId).rng }

/-- What a client `c'` has after loading the hints of `c`: every group under its id, apart from its
random generator as it was. The ids of CHUNK sibling groups rest on the number of INDEX sibling
levels among the groups. -/
structure HintClient.LoadedFrom (c c' : HintClient) (db : DatabaseInfo) (indexSibLevels : ℕ) :
    Prop where
  groups : ∀ e : Slot × RemoteClient, (∀ level g, e.1 = .chunkSib level g →
    Client.bundleIndexSibLevels c.groups = indexSibLevels) → (e ∈ c'.groups ↔
      ∃ group, (e.1, group) ∈ c.groups ∧ e.2 = group.reseeded c.masterPrpKey
        (e.1.groupId (layoutOf db indexSibLevels)))
  main : c'.loadedDbId = some db.dbId ↔ Client.fullMain db c.groups = true
  siblings : c'.siblingHintsLoaded = some db.dbId ↔
    Client.fullMain db c.groups = true ∧ ∃ e ∈ c.groups, e.1.isSib = true

theorem bundleIndexSibLevels_le_iff {β : Type} {bundle : List (Slot × β)} {n : ℕ} :
    Client.bundleIndexSibLevels bundle ≤ n ↔
      ∀ level g, .indexSib level g ∈ bundle.map Prod.fst → level < n := by
  induction bundle with
  | nil => simp [Client.bundleIndexSibLevels]
  | cons e bundle ih =>
    obtain ⟨slot, b⟩ := e
    cases slot with
    | indexSib level g =>
      rw [show Client.bundleIndexSibLevels ((.indexSib level g, b) :: bundle) =
        max (level + 1) (Client.bundleIndexSibLevels bundle) from rfl, max_le_iff, ih]
      aesop
    | _ => simpa [Client.bundleIndexSibLevels] using ih

section Congr

variable {β γ : Type} {bundle : List (Slot × β)} {bundle' : List (Slot × γ)}

/-- What is inferred from a bundle depends on its slots only. -/
theorem bundleIndexSibLevels_congr
    (h : ∀ slot, slot ∈ bundle.map Prod.fst ↔ slot ∈ bundle'.map Prod.fst) :
    Client.bundleIndexSibLevels bundle = Client.bundleIndexSibLevels bundle' :=
  eq_of_forall_ge_iff fun n => by simp only [bundleIndexSibLevels_le_iff, h]

theorem all_slots_iff {p : Slot → Bool} :
    (bundle.all fun e => p e.1) = true ↔ ∀ slot ∈ bundle.map Prod.fst, p slot = true := by
  simp

theorem any_slots_iff {p : Slot → Bool} :
    (bundle.any fun e => p e.1) = true ↔ ∃ slot ∈ bundle.map Prod.fst, p slot = true := by
  simp

theorem fullMain_congr (db : DatabaseInfo)
    (h : ∀ slot, slot ∈ bundle.map Prod.fst ↔ slot ∈ bundle'.map Prod.fst) :
    Client.fullMain db bundle = Client.fullMain db bundle' := by
  rw [Bool.eq_iff_iff]
  simp only [Client.fullMain, Bool.and_eq_true, List.all_eq_true (l := mainSlots db),
    decide_eq_true_eq, all_slots_iff (p := fun slot =>
      slot.isSib || decide (slot ∈ (mainSlots db).map Prod.fst)), h]

end Congr

namespace HintClient

variable {H : Bytes → Hash256} {c : HintClient} {db : DatabaseInfo} {levels : ℕ}

theorem Savable.bundle_eq_some (h : c.Savable db levels) {slot : Slot} {b : Bytes} :
    c.bundle slot = some b ↔ ∃ group, (slot, group) ∈ c.groups ∧ group.encode = b := by
  have hmap : (c.groups.map fun e => (e.1.narrow, e.2.encode)) =
      c.groups.map fun e => (e.1, e.2.encode) :=
    List.map_congr_left fun e he => by rw [Slot.narrow_of_mem (h.keys e he)]
  rw [bundle, hmap, insertAll_eq_some]
  · simp
  · intro slot b b' hb hb'
    obtain ⟨e, he, ⟨⟩⟩ := List.mem_map.1 hb
    obtain ⟨e', he', heq⟩ := List.mem_map.1 hb'
    obtain ⟨hslot, rfl⟩ := Prod.mk.inj heq
    rw [List.inj_on_of_nodup_map h.nodup he' he hslot]

theorem Savable.fits (h : c.Savable db levels) : Fits c.bundle := by
  intro slot b hb
  obtain ⟨group, hgroup, rfl⟩ := h.bundle_eq_some.1 hb
  exact ⟨h.keys _ hgroup, (h.intact _ hgroup).valid.short⟩

theorem Savable.saveHintsBytes_eq (h : c.Savable db levels) :
    c.saveHintsBytes H =
      .ok (some (encodeHints H (.fromDbInfo c.masterPrpKey c.prpBackend db) c.bundle)) := by
  obtain ⟨catalog, hcatalog, hget⟩ := h.entry
  have hgroups : (c.groups.mapM fun e => do
      let bytes ← serializeHarmonyGroup e.2
      return (e.1.narrow, bytes)) = .ok (c.groups.map fun e => (e.1.narrow, e.2.encode)) := by
    refine mapM_eq_ok.2 (List.forall₂_map_right_iff.2 (List.forall₂_same.2 fun e he => ?_))
    rw [serializeHarmonyGroup, RemoteClient.serializeLegacyState, if_pos (h.intact e he).idle]
    rfl
  simp only [saveHintsBytes, h.loaded, hcatalog, hget, hgroups, ok_bind]
  rfl

theorem Savable.mem_entriesAt_bundle (h : c.Savable db levels) {slot : Slot} {b : Bytes} :
    (slot, b) ∈ entriesAt allKeys c.bundle ↔
      ∃ group, (slot, group) ∈ c.groups ∧ group.encode = b := by
  rw [mem_entriesAt, h.bundle_eq_some]
  refine and_iff_right_of_imp ?_
  rintro ⟨group, hgroup, -⟩
  exact h.keys _ hgroup

/-- The groups of a bundle are loaded, each under the id of its slot in the layout of the bundle. -/
theorem Savable.deserializeGroup_eq (h : c.Savable db levels) {c₂ : HintClient}
    (hkey : c₂.masterPrpKey = c.masterPrpKey) {l : Layout} {slot : Slot} {group : RemoteClient}
    (hgroup : (slot, group) ∈ c.groups) :
    c₂.deserializeGroup l (slot, group.encode) =
      .ok (slot, group.restored c.masterPrpKey (slot.groupId l)) := by
  rw [deserializeGroup, hkey, (h.intact _ hgroup).valid.deserializeLegacyState_encode]
  rfl

theorem Intact.restored_eq {group : RemoteClient} {key : PrpKey} {groupId : ℕ}
    (h : Intact group key groupId) : group.restored key groupId = group.reseeded key groupId := by
  have hidle := h.idle
  have hds := h.ds
  obtain ⟨state, ds, rng, inFlight⟩ := group
  change ds = (state.restored key groupId).ds at hds
  subst hidle hds
  rfl

/-- A group is loaded under its id. -/
theorem groupId_bundleLayout {β : Type} (db : DatabaseInfo) {bundle : List (Slot × β)} {slot : Slot}
    (hlevels : ∀ level g, slot = .chunkSib level g →
      Client.bundleIndexSibLevels bundle = levels) :
    slot.groupId (Client.bundleLayout db bundle) = slot.groupId (layoutOf db levels) := by
  cases slot with
  | chunkSib level g => rw [Client.bundleLayout, hlevels level g rfl, layoutOf]
  | _ => rfl

theorem Savable.exists_loaded (h : c.Savable db levels) (c₂ : HintClient)
    (hkey : c₂.masterPrpKey = c.masterPrpKey) (hbackend : c₂.prpBackend = c.prpBackend) :
    ∃ blob c', c.saveHintsBytes H = .ok (some blob) ∧ c₂.loadHintsBytes H db blob = .ok c' ∧
      c.LoadedFrom c' db levels := by
  let entries := entriesAt allKeys c.bundle
  let l := Client.bundleLayout db entries
  have hslots : ∀ slot, slot ∈ entries.map Prod.fst ↔ slot ∈ c.groups.map Prod.fst := by
    intro slot
    simp only [List.mem_map, Prod.exists, exists_and_right, exists_eq_right]
    constructor
    · rintro ⟨b, hb⟩
      obtain ⟨group, hgroup, -⟩ := h.mem_entriesAt_bundle.1 hb
      exact ⟨group, hgroup⟩
    · rintro ⟨group, hgroup⟩
      exact ⟨_, h.mem_entriesAt_bundle.2 ⟨group, hgroup, rfl⟩⟩
  have hlevels := bundleIndexSibLevels_congr hslots
  have hfull := fullMain_congr db hslots
  have hexists : ∀ e ∈ entries, ∃ loaded, c₂.deserializeGroup l e = .ok loaded := by
    intro e he
    obtain ⟨group, hgroup, hb⟩ := h.mem_entriesAt_bundle.1 he
    exact ⟨_, hb ▸ h.deserializeGroup_eq hkey hgroup⟩
  obtain ⟨groups, hgroups⟩ := exists_mapM_eq_ok hexists
  refine ⟨_, _, h.saveHintsBytes_eq, bind_eq_ok.2 ⟨_, decodeHints_encodeHints h.fits
    (by rw [hkey, hbackend]), bind_eq_ok.2 ⟨groups, hgroups, rfl⟩⟩, fun e hchunk => ?_, ?_, ?_⟩
  · have hid := groupId_bundleLayout db fun level g heq =>
      hlevels.trans (hchunk level g heq)
    rw [mem_of_mapM_eq_ok hgroups]
    constructor
    · rintro ⟨⟨slot, b⟩, hb, hloaded⟩
      obtain ⟨group, hgroup, rfl⟩ := h.mem_entriesAt_bundle.1 hb
      rw [h.deserializeGroup_eq hkey hgroup] at hloaded
      cases hloaded
      exact ⟨group, hgroup, by rw [hid, (h.intact _ hgroup).restored_eq]⟩
    · rintro ⟨group, hgroup, heq⟩
      refine ⟨(e.1, group.encode), h.mem_entriesAt_bundle.2 ⟨group, hgroup, rfl⟩, ?_⟩
      rw [h.deserializeGroup_eq hkey hgroup, hid, (h.intact _ hgroup).restored_eq, ← heq]
  · rw [hfull]
    cases Client.fullMain db c.groups <;> simp
  · have hsib : entries.any (fun e => e.1.isSib) = c.groups.any fun e => e.1.isSib := by
      rw [Bool.eq_iff_iff]
      simp only [any_slots_iff, hslots]
    rw [hfull, hsib]
    cases Client.fullMain db c.groups <;> simp

end HintClient

/-- **The hint cache gives back what was saved, and under its own key only**. The sibling groups are
marked as loaded as soon as one of them is there; their number is checked before they are used. -/
theorem hintCache_roundTrip (H : Bytes → Hash256) :
    (∀ key bundle, Fits bundle →
      decodeHints H (encodeHints H key bundle) (some (key.fingerprint H)) =
        .ok ⟨{ key with masterPrpKey := List.replicate 16 0 }, bundle⟩) ∧
    (∀ (key key' : CacheKey) bundle, key'.fingerprint H ≠ key.fingerprint H →
      decodeHints H (encodeHints H key bundle) (some (key'.fingerprint H)) =
        .error fingerprintMismatch) ∧
    ∀ (c c₂ : HintClient) db levels, c.Savable db levels →
      c₂.masterPrpKey = c.masterPrpKey → c₂.prpBackend = c.prpBackend →
      ∃ blob c', c.saveHintsBytes H = .ok (some blob) ∧ c₂.loadHintsBytes H db blob = .ok c' ∧
        c.LoadedFrom c' db levels :=
  ⟨fun _ _ hfits => decodeHints_encodeHints hfits rfl, fun _ _ _ h => decodeHints_mismatch h,
    fun _ c₂ _ _ h hkey hbackend => h.exists_loaded c₂ hkey hbackend⟩

/-! ### A client with some of its sibling groups -/

namespace PartSaved

def key : PrpKey := List.replicate 16 7

/-- A group of a main table after the queries that relocated some segments: sixteen rows, padded to
three segments of six cells. -/
def mainState (relocated : List UInt32) : GroupState where
  n := 18
  w := 2
  t := 6
  queryCount := UInt32.ofNat relocated.length
  backend := .hmr12
  realN := 16
  relocatedSegments := relocated
  prpCache := []
  hints := (List.range 6).map fun i => [UInt8.ofNat i, 9]

/-- A new group of a sibling table of two rows. -/
def siblingState : GroupState where
  n := 2
  w := 2
  t := 2
  queryCount := 0
  backend := .hmr12
  realN := 2
  relocatedSegments := []
  prpCache := []
  hints := [[3, 4], [5, 6]]

/-- The main groups of the delta database, two of them used, and its INDEX sibling groups. -/
def saved : List (Slot × GroupState) :=
  [(.index 0, mainState [2, 5]), (.index 1, mainState []), (.index 2, mainState []),
    (.chunk 0, mainState []), (.chunk 1, mainState [4]), (.chunk 2, mainState []),
    (.indexSib 0 0, siblingState), (.indexSib 0 1, siblingState), (.indexSib 0 2, siblingState)]

/-- A client as it is left when the hints of the CHUNK sibling groups do not arrive. -/
def client : HintClient where
  masterPrpKey := key
  prpBackend := 0
  catalog := some ⟨[sampleDelta]⟩
  loadedDbId := some 1
  siblingHintsLoaded := none
  groups := saved.map fun e =>
    (e.1, e.2.restored key (e.1.groupId (layoutOf sampleDelta 1)))

/-- A client that has nothing but the key. -/
def newClient : HintClient := ⟨key, 0, none, none, none, []⟩

theorem valid_saved : ∀ e ∈ saved, e.2.Valid := by decide +kernel

theorem savable : client.Savable sampleDelta 1 where
  loaded := rfl
  entry := ⟨_, rfl, rfl⟩
  nodup := by decide
  keys := by simp [client, saved, allKeys, mainKeys, sibKeys]
  intact := by
    intro e he
    obtain ⟨e', he', rfl⟩ := List.mem_map.1 he
    exact ⟨valid_saved e' he', rfl, rfl⟩

end PartSaved

open PartSaved

/-- The client has used some of its groups and lacks the CHUNK sibling groups. -/
theorem hintCache_roundTrip_part :
    decodeHints sha256 (encodeHints sha256 (.fromDbInfo key 0 sampleDelta) client.bundle)
        (some ((CacheKey.fromDbInfo key 0 sampleDelta).fingerprint sha256)) =
      .ok ⟨.fromDbInfo (List.replicate 16 0) 0 sampleDelta, client.bundle⟩ ∧
    decodeHints sha256 (encodeHints sha256 (.fromDbInfo key 0 sampleDelta) client.bundle)
        (some ((CacheKey.fromDbInfo key 1 sampleDelta).fingerprint sha256)) =
      .error fingerprintMismatch ∧
    ∃ blob c', client.saveHintsBytes sha256 = .ok (some blob) ∧
      newClient.loadHintsBytes sha256 sampleDelta blob = .ok c' ∧
      client.LoadedFrom c' sampleDelta 1 := by
  have h := hintCache_roundTrip sha256
  exact ⟨h.1 _ _ savable.fits, h.2.1 _ _ _ (by decide +kernel), h.2.2 _ _ _ _ savable rfl rfl⟩

/-- Loading marks the sibling groups as loaded although those of the CHUNK table were not there. -/
theorem partSaved_siblings_marked :
    ∃ blob c', client.saveHintsBytes sha256 = .ok (some blob) ∧
      newClient.loadHintsBytes sha256 sampleDelta blob = .ok c' ∧
      c'.siblingHintsLoaded = some sampleDelta.dbId ∧
      ∃ e ∈ siblingSlots sampleDelta 1 1, e.1 ∉ client.groups.map Prod.fst := by
  obtain ⟨blob, c', hsave, hload, h⟩ := savable.exists_loaded (H := sha256) newClient rfl rfl
  exact ⟨blob, c', hsave, hload, h.siblings.2 (by decide), by decide⟩

end BitcoinPir.HarmonyClient
