import BitcoinPir.Core.Catalog
import BitcoinPir.Core.Utf8

/-!
# Catalogs between server and client

The server encodes its catalog with `encodeDbCatalog`: the entries first, then an extension with the
master seeds and the anchor of each entry, which older servers do not send. It is parsed by position
by two decoders, the server library's `decodeDbCatalog` and the client's `decodeCatalog`. Both find
the entries that were encoded (`catalog_decoders_agree`).
-/

namespace BitcoinPir.Wire

open Foundations Reader

/-- An entry of the server's catalog. -/
structure DatabaseCatalogEntry where
  dbId : UInt8
  /-- 0 for a full snapshot, 1 for a delta. -/
  dbType : UInt8
  name : String
  baseHeight : UInt32
  height : UInt32
  indexBinsPerTable : UInt32
  chunkBinsPerTable : UInt32
  indexK : UInt8
  chunkK : UInt8
  tagSeed : UInt64
  dpfNIndex : UInt8
  dpfNChunk : UInt8
  hasBucketMerkle : Bool
  indexMasterSeed : UInt64
  chunkMasterSeed : UInt64
  anchor : Option HeaderAnchor

/-! ## Encoding -/

def anchorKind : Option HeaderAnchor → UInt8
  | none => 0
  | some (.snapshot _) => 1
  | some (.delta _) => 2

def anchorBytes : Option HeaderAnchor → Bytes
  | none => []
  | some (.snapshot anchor) => anchor.toBytes
  | some (.delta anchor) => anchor.toBytes

def encodeAnchorExt (anchor : Option HeaderAnchor) : Bytes := anchorKind anchor :: anchorBytes anchor

namespace DatabaseCatalogEntry

def headerBytes (e : DatabaseCatalogEntry) : Bytes :=
  [e.dbId, e.dbType, UInt8.ofNat (toUtf8 e.name).length]

/-- The fields of fixed size but for the last. -/
def fieldBytes (e : DatabaseCatalogEntry) : Bytes :=
  leBytes 4 e.baseHeight.toNat ++ (leBytes 4 e.height.toNat ++
    (leBytes 4 e.indexBinsPerTable.toNat ++ (leBytes 4 e.chunkBinsPerTable.toNat ++
      ([e.indexK, e.chunkK] ++ (leBytes 8 e.tagSeed.toNat ++ [e.dpfNIndex, e.dpfNChunk])))))

def merkleFlag (e : DatabaseCatalogEntry) : UInt8 := if e.hasBucketMerkle then 1 else 0

def encode (e : DatabaseCatalogEntry) : Bytes :=
  e.headerBytes ++ (toUtf8 e.name ++ (e.fieldBytes ++ [e.merkleFlag]))

def encodeExt (e : DatabaseCatalogEntry) : Bytes :=
  leBytes 8 e.indexMasterSeed.toNat ++ (leBytes 8 e.chunkMasterSeed.toNat ++
    encodeAnchorExt e.anchor)

end DatabaseCatalogEntry

/-- A catalog without the extension, as older servers send it. -/
def encodeEntries (databases : List DatabaseCatalogEntry) : Bytes :=
  UInt8.ofNat databases.length :: databases.flatMap DatabaseCatalogEntry.encode

def encodeDbCatalog (databases : List DatabaseCatalogEntry) : Bytes :=
  encodeEntries databases ++ (catalogExtV1 :: databases.flatMap DatabaseCatalogEntry.encodeExt)

/-! ## The server library's decoder -/

/-- The flag that the oldest servers do not send. -/
def readMerkleFlag : Reader String Bool
  | [] => .ok (false, [])
  | flag :: data => .ok (decide (flag ≠ 0), data)

def readCatalogEntry : Reader String DatabaseCatalogEntry := do
  let header ← take 3 "truncated catalog entry"
  let name ← take (u8At header 2).toNat "truncated catalog name"
  let fields ← take 28 "truncated catalog fields"
  let hasBucketMerkle ← readMerkleFlag
  return {
    dbId := u8At header 0
    dbType := u8At header 1
    name := fromUtf8Lossy name
    baseHeight := u32At fields 0
    height := u32At fields 4
    indexBinsPerTable := u32At fields 8
    chunkBinsPerTable := u32At fields 12
    indexK := u8At fields 16
    chunkK := u8At fields 17
    tagSeed := u64At fields 18
    dpfNIndex := u8At fields 26
    dpfNChunk := u8At fields 27
    hasBucketMerkle
    indexMasterSeed := 0
    chunkMasterSeed := 0
    anchor := none }

def readAnchorExt (kind : UInt8) : Reader String (Option HeaderAnchor) :=
  if kind = 0 then pure none
  else if kind = 1 then do
    let bytes ← take chainAnchorBytes "truncated snapshot anchor"
    return (ChainAnchor.fromBytes bytes).map .snapshot
  else if kind = 2 then do
    let bytes ← take deltaAnchorBytes "truncated delta anchor"
    return (DeltaAnchor.fromBytes bytes).map .delta
  else lift (.error s!"unknown catalog anchor kind {kind}")

def readCatalogExt (e : DatabaseCatalogEntry) : Reader String DatabaseCatalogEntry := do
  let seeds ← take 17 "truncated catalog ext entry"
  let anchor ← readAnchorExt (u8At seeds 16)
  return { e with indexMasterSeed := u64At seeds 0, chunkMasterSeed := u64At seeds 8, anchor }

def readCatalogExts : List DatabaseCatalogEntry → Reader String (List DatabaseCatalogEntry)
  | [] => pure []
  | e :: es => do
    let e ← readCatalogExt e
    let es ← readCatalogExts es
    return e :: es

def decodeDbCatalog (data : Bytes) : Except String (List DatabaseCatalogEntry) :=
  match data with
  | [] => .error "catalog too short"
  | numDbs :: data => do
    let (databases, rest) ← many readCatalogEntry numDbs.toNat data
    if rest.head? = some catalogExtV1 then (readCatalogExts databases rest.tail).map Prod.fst
    else .ok databases

/-! ## Agreement -/

/-- A client's entry has the fields of a server's entry. The base height of a delta is part of its
kind; a full snapshot has none. -/
structure Agrees (db : DatabaseInfo) (e : DatabaseCatalogEntry) : Prop where
  dbId : db.dbId = e.dbId
  kind : db.kind = if e.dbType = 1 then .delta e.baseHeight else .full
  name : db.name = e.name
  height : db.height = e.height
  indexBins : db.indexBins = e.indexBinsPerTable
  chunkBins : db.chunkBins = e.chunkBinsPerTable
  indexK : db.indexK = e.indexK
  chunkK : db.chunkK = e.chunkK
  tagSeed : db.tagSeed = e.tagSeed
  dpfNIndex : db.dpfNIndex = e.dpfNIndex
  dpfNChunk : db.dpfNChunk = e.dpfNChunk
  hasBucketMerkle : db.hasBucketMerkle = e.hasBucketMerkle
  indexMasterSeed : db.indexMasterSeed = e.indexMasterSeed
  chunkMasterSeed : db.chunkMasterSeed = e.chunkMasterSeed
  anchorKind : db.anchorKind = anchorKind e.anchor
  anchor : db.chainAnchor = e.anchor

theorem u32At_eq {b : Bytes} {offset : ℕ} {x : UInt32}
    (h : (b.drop offset).take 4 = leBytes 4 x.toNat) : u32At b offset = x := by
  rw [u32At, h, leNat_leBytes_of_lt x.toNat_lt, UInt32.ofNat_toNat]

theorem u64At_eq {b : Bytes} {offset : ℕ} {x : UInt64}
    (h : (b.drop offset).take 8 = leBytes 8 x.toNat) : u64At b offset = x := by
  rw [u64At, h, leNat_leBytes_of_lt x.toNat_lt, UInt64.ofNat_toNat]

/-! ### Anchors -/

theorem length_chainAnchor (anchor : ChainAnchor) : anchor.toBytes.length = chainAnchorBytes := by
  rw [ChainAnchor.toBytes, List.length_append, anchor.blockHash.property]
  rfl

theorem chainAnchor_fromBytes_toBytes (anchor : ChainAnchor) :
    ChainAnchor.fromBytes anchor.toBytes = some anchor := by
  have hheight : (anchor.toBytes.drop 32).take 4 = leBytes 4 anchor.blockHeight.toNat := by
    rw [ChainAnchor.toBytes, List.drop_left' anchor.blockHash.property,
      List.take_of_length_le (length_leBytes 4 _).le]
  rw [ChainAnchor.fromBytes, if_neg (not_not.2 (length_chainAnchor anchor)), hheight,
    leNat_leBytes_of_lt anchor.blockHeight.toNat_lt, UInt32.ofNat_toNat, ChainAnchor.toBytes,
    Digest.read_append]

theorem length_deltaAnchor (anchor : DeltaAnchor) : anchor.toBytes.length = deltaAnchorBytes := by
  rw [DeltaAnchor.toBytes, List.length_append, length_chainAnchor, length_chainAnchor]
  rfl

theorem deltaAnchor_fromBytes_toBytes (anchor : DeltaAnchor) :
    DeltaAnchor.fromBytes anchor.toBytes = some anchor := by
  rw [DeltaAnchor.fromBytes, if_neg (not_not.2 (length_deltaAnchor anchor)), DeltaAnchor.toBytes,
    List.take_left' (length_chainAnchor _), List.drop_left' (length_chainAnchor _),
    chainAnchor_fromBytes_toBytes, chainAnchor_fromBytes_toBytes]
  rfl

theorem reads_anchorExt (anchor : Option HeaderAnchor) :
    Reads (readAnchorExt (anchorKind anchor)) (anchorBytes anchor) anchor := by
  cases anchor with
  | none => exact reads_pure none
  | some anchor =>
    cases anchor with
    | snapshot a =>
      have hread := (reads_take (length_chainAnchor a) "truncated snapshot anchor").map
        fun bytes => (ChainAnchor.fromBytes bytes).map HeaderAnchor.snapshot
      rw [chainAnchor_fromBytes_toBytes] at hread
      exact hread
    | delta a =>
      have hread := (reads_take (length_deltaAnchor a) "truncated delta anchor").map
        fun bytes => (DeltaAnchor.fromBytes bytes).map HeaderAnchor.delta
      rw [deltaAnchor_fromBytes_toBytes] at hread
      exact hread

theorem anchorLength_anchorKind (anchor : Option HeaderAnchor) :
    anchorLength (anchorKind anchor) = .ok (anchorBytes anchor).length := by
  cases anchor with
  | none => rfl
  | some anchor =>
    cases anchor with
    | snapshot a => exact congrArg Except.ok (length_chainAnchor a).symm
    | delta a => exact congrArg Except.ok (length_deltaAnchor a).symm

/-! ### Entries -/

namespace DatabaseCatalogEntry

variable (e : DatabaseCatalogEntry)

/-- The entry without the fields of the extension. -/
def withoutExt : DatabaseCatalogEntry :=
  { e with indexMasterSeed := 0, chunkMasterSeed := 0, anchor := none }

/-- The entry as the client has it. -/
def toInfo : DatabaseInfo where
  dbId := e.dbId
  kind := if e.dbType = 1 then .delta e.baseHeight else .full
  name := e.name
  height := e.height
  indexBins := e.indexBinsPerTable
  chunkBins := e.chunkBinsPerTable
  indexK := e.indexK
  chunkK := e.chunkK
  tagSeed := e.tagSeed
  dpfNIndex := e.dpfNIndex
  dpfNChunk := e.dpfNChunk
  hasBucketMerkle := e.hasBucketMerkle
  indexMasterSeed := e.indexMasterSeed
  chunkMasterSeed := e.chunkMasterSeed
  anchorKind := anchorKind e.anchor
  anchorBytes := anchorBytes e.anchor

theorem chainAnchor_toInfo : e.toInfo.chainAnchor = e.anchor := by
  rcases hanchor : e.anchor with _ | ⟨a⟩ | ⟨a⟩
  · simp [DatabaseInfo.chainAnchor, toInfo, hanchor, Wire.anchorKind]
  · simp [DatabaseInfo.chainAnchor, toInfo, hanchor, Wire.anchorKind, Wire.anchorBytes,
      chainAnchor_fromBytes_toBytes]
  · simp [DatabaseInfo.chainAnchor, toInfo, hanchor, Wire.anchorKind, Wire.anchorBytes,
      deltaAnchor_fromBytes_toBytes]

theorem agrees_toInfo : Agrees e.toInfo e :=
  ⟨rfl, rfl, rfl, rfl, rfl, rfl, rfl, rfl, rfl, rfl, rfl, rfl, rfl, rfl, rfl, e.chainAnchor_toInfo⟩

theorem length_headerBytes : e.headerBytes.length = 3 := rfl

theorem length_fieldBytes : e.fieldBytes.length = 28 := rfl

theorem merkleFlag_ne_zero : decide (e.merkleFlag ≠ 0) = e.hasBucketMerkle := by
  unfold merkleFlag
  cases e.hasBucketMerkle
  · rfl
  · rfl

/-- The fields are where the decoders look for them. -/
structure FieldsAt (fields : Bytes) : Prop where
  baseHeight : u32At fields 0 = e.baseHeight
  height : u32At fields 4 = e.height
  indexBins : u32At fields 8 = e.indexBinsPerTable
  chunkBins : u32At fields 12 = e.chunkBinsPerTable
  indexK : u8At fields 16 = e.indexK
  chunkK : u8At fields 17 = e.chunkK
  tagSeed : u64At fields 18 = e.tagSeed
  dpfNIndex : u8At fields 26 = e.dpfNIndex
  dpfNChunk : u8At fields 27 = e.dpfNChunk

theorem fieldsAt_append (rest : Bytes) : e.FieldsAt (e.fieldBytes ++ rest) where
  baseHeight := u32At_eq rfl
  height := u32At_eq rfl
  indexBins := u32At_eq rfl
  chunkBins := u32At_eq rfl
  indexK := rfl
  chunkK := rfl
  tagSeed := u64At_eq rfl
  dpfNIndex := rfl
  dpfNChunk := rfl

theorem fieldsAt : e.FieldsAt e.fieldBytes := by
  have h := e.fieldsAt_append []
  rwa [List.append_nil] at h

variable {e}

theorem nameLength (hname : (toUtf8 e.name).length < 256) :
    (toUtf8 e.name).length = (u8At e.headerBytes 2).toNat :=
  (UInt8.toNat_ofNat_of_lt' hname).symm

theorem reads_entry (hname : (toUtf8 e.name).length < 256) :
    Reads readCatalogEntry e.encode e.withoutExt := by
  have hfields := e.fieldsAt
  intro rest
  have hflag : readMerkleFlag ([e.merkleFlag] ++ rest) = .ok (e.hasBucketMerkle, rest) := by
    rw [← e.merkleFlag_ne_zero]
    rfl
  have hbytes : e.encode ++ rest =
      e.headerBytes ++ (toUtf8 e.name ++ (e.fieldBytes ++ ([e.merkleFlag] ++ rest))) := by
    simp [encode]
  rw [hbytes, readCatalogEntry, (reads_take e.length_headerBytes _).bind_append,
    (reads_take (nameLength hname) _).bind_append,
    (reads_take e.length_fieldBytes _).bind_append, bind_ok hflag,
    fromUtf8Lossy_toUtf8, hfields.baseHeight, hfields.height, hfields.indexBins, hfields.chunkBins,
    hfields.indexK, hfields.chunkK, hfields.tagSeed, hfields.dpfNIndex, hfields.dpfNChunk]
  rfl

theorem reads_clientEntry (hname : (toUtf8 e.name).length < 256) :
    Reads decodeCatalogEntry e.encode e.withoutExt.toInfo := by
  have hfields := e.fieldsAt_append [e.merkleFlag]
  have hlen : (e.fieldBytes ++ [e.merkleFlag]).length = 29 := rfl
  have hflag : decide (u8At (e.fieldBytes ++ [e.merkleFlag]) 28 ≠ 0) = e.hasBucketMerkle :=
    e.merkleFlag_ne_zero
  intro rest
  have hbytes : e.encode ++ rest =
      e.headerBytes ++ (toUtf8 e.name ++ ((e.fieldBytes ++ [e.merkleFlag]) ++ rest)) := by
    simp [encode]
  rw [hbytes, decodeCatalogEntry, (reads_take e.length_headerBytes _).bind_append,
    (reads_take (nameLength hname) _).bind_append, (reads_take hlen _).bind_append,
    fromUtf8Lossy_toUtf8, hfields.baseHeight, hfields.height, hfields.indexBins, hfields.chunkBins,
    hfields.indexK, hfields.chunkK, hfields.tagSeed, hfields.dpfNIndex, hfields.dpfNChunk, hflag]
  rfl

/-! ### Extensions -/

/-- The fixed part of an extension. -/
def seedBytes (e : DatabaseCatalogEntry) : Bytes :=
  leBytes 8 e.indexMasterSeed.toNat ++ (leBytes 8 e.chunkMasterSeed.toNat ++ [anchorKind e.anchor])

theorem length_seedBytes : e.seedBytes.length = 17 := rfl

theorem encodeExt_eq : e.encodeExt = e.seedBytes ++ anchorBytes e.anchor := by
  simp [encodeExt, seedBytes, encodeAnchorExt]

theorem indexMasterSeed_seedBytes : u64At e.seedBytes 0 = e.indexMasterSeed := u64At_eq rfl

theorem chunkMasterSeed_seedBytes : u64At e.seedBytes 8 = e.chunkMasterSeed := u64At_eq rfl

theorem anchorKind_seedBytes : u8At e.seedBytes 16 = anchorKind e.anchor := rfl

theorem reads_ext : Reads (readCatalogExt e.withoutExt) e.encodeExt e := by
  refine (reads_take e.length_seedBytes _).bind ?_
  rw [indexMasterSeed_seedBytes, chunkMasterSeed_seedBytes]
  exact (reads_anchorExt e.anchor).map _

theorem reads_clientExt : Reads (decodeCatalogExt e.withoutExt.toInfo) e.encodeExt e.toInfo := by
  intro rest
  rw [encodeExt_eq, List.append_assoc, decodeCatalogExt,
    (reads_take e.length_seedBytes _).bind_append, anchorKind_seedBytes,
    bind_ok (lift_eq_ok.2 ⟨anchorLength_anchorKind e.anchor, rfl⟩),
    (reads_take rfl _).bind_append, indexMasterSeed_seedBytes, chunkMasterSeed_seedBytes]
  rfl

end DatabaseCatalogEntry

/-! ### Catalogs -/

section Catalogs

open DatabaseCatalogEntry

variable (databases : List DatabaseCatalogEntry)

theorem reads_exts : Reads (readCatalogExts (databases.map withoutExt)) (databases.flatMap encodeExt)
      databases := by
  induction databases with
  | nil => exact reads_pure []
  | cons e es ih => exact e.reads_ext.bind (ih.map _)

theorem reads_clientExts : Reads (decodeCatalogExts (databases.map fun e => e.withoutExt.toInfo))
      (databases.flatMap encodeExt) (databases.map toInfo) := by
  induction databases with
  | nil => exact reads_pure []
  | cons e es ih => exact e.reads_clientExt.bind (ih.map _)

theorem forall₂_agrees : List.Forall₂ Agrees (databases.map toInfo) databases := by
  rw [List.forall₂_map_left_iff, List.forall₂_same]
  exact fun e _ => e.agrees_toInfo

variable {databases} (hnames : ∀ e ∈ databases, (toUtf8 e.name).length < 256)

include hnames

theorem reads_entries : Reads (many readCatalogEntry databases.length) (databases.flatMap encode)
    (databases.map withoutExt) := by
  induction databases with
  | nil => exact reads_pure []
  | cons e es ih =>
    have hes := ih fun e he => hnames e (List.mem_cons_of_mem _ he)
    exact (reads_entry (hnames e List.mem_cons_self)).bind (hes.map _)

theorem reads_clientEntries : Reads (decodeCatalogEntries databases.length)
    (databases.flatMap encode) (databases.map fun e => e.withoutExt.toInfo) := by
  induction databases with
  | nil => exact reads_pure []
  | cons e es ih =>
    have hes := ih fun e he => hnames e (List.mem_cons_of_mem _ he)
    exact (reads_clientEntry (hnames e List.mem_cons_self)).bind (hes.map _)

variable (hcount : databases.length < 256)

include hcount

theorem decodeDbCatalog_encode : decodeDbCatalog (encodeDbCatalog databases) = .ok databases := by
  have hread := reads_entries hnames (catalogExtV1 :: databases.flatMap encodeExt)
  have hext := reads_exts databases []
  rw [List.append_nil] at hext
  rw [encodeDbCatalog, encodeEntries, List.cons_append, decodeDbCatalog,
    UInt8.toNat_ofNat_of_lt' hcount, hread, ok_bind]
  dsimp only
  rw [List.tail_cons, hext]
  rfl

theorem decodeDbCatalog_encodeEntries :
    decodeDbCatalog (encodeEntries databases) = .ok (databases.map withoutExt) := by
  have hread := reads_entries hnames []
  rw [List.append_nil] at hread
  rw [encodeEntries, decodeDbCatalog, UInt8.toNat_ofNat_of_lt' hcount, hread, ok_bind]
  exact if_neg (by simp)

variable {H : Bytes → Hash256}

omit hnames hcount in
theorem databases_of_checked {infos : List DatabaseInfo}
    {catalog : DatabaseCatalog}
    (h : (infos.forM (checkCatalogEntry H) >>= fun _ => pure ⟨infos⟩ : PirResult _) =
      .ok catalog) : catalog.databases = infos := by
  obtain ⟨_, -, hcatalog⟩ := bind_eq_ok.1 h
  rw [← Except.ok.inj hcatalog]

theorem decodeCatalog_encode :
    decodeCatalog H (encodeDbCatalog databases) =
      (databases.map toInfo).forM (checkCatalogEntry H) >>= fun _ =>
        pure ⟨databases.map toInfo⟩ := by
  have hread := reads_clientEntries hnames (catalogExtV1 :: databases.flatMap encodeExt)
  have hext := reads_clientExts databases []
  rw [List.append_nil] at hext
  rw [encodeDbCatalog, encodeEntries, List.cons_append, decodeCatalog,
    UInt8.toNat_ofNat_of_lt' hcount, hread, ok_bind]
  dsimp only
  rw [List.tail_cons, hext]
  rfl

theorem decodeCatalog_encodeEntries :
    decodeCatalog H (encodeEntries databases) =
      ((databases.map withoutExt).map toInfo).forM (checkCatalogEntry H) >>= fun _ =>
        pure ⟨(databases.map withoutExt).map toInfo⟩ := by
  have hread := reads_clientEntries hnames []
  rw [List.append_nil] at hread
  rw [encodeEntries, decodeCatalog, UInt8.toNat_ofNat_of_lt' hcount, hread]
  rw [List.map_map]
  rfl

/-- **Both decoders of a catalog find what was encoded.** The server library's decoder returns the
entries, and every entry the client accepts has their fields. Without the extension, both leave the
master seeds zero and the anchor out. -/
theorem catalog_decoders_agree (H : Bytes → Hash256) :
    (decodeDbCatalog (encodeDbCatalog databases) = .ok databases ∧
      ∀ catalog, decodeCatalog H (encodeDbCatalog databases) = .ok catalog →
        List.Forall₂ Agrees catalog.databases databases) ∧
    (decodeDbCatalog (encodeEntries databases) = .ok (databases.map withoutExt) ∧
      ∀ catalog, decodeCatalog H (encodeEntries databases) = .ok catalog →
        List.Forall₂ Agrees catalog.databases (databases.map withoutExt)) := by
  refine ⟨⟨decodeDbCatalog_encode hnames hcount, ?_⟩,
    decodeDbCatalog_encodeEntries hnames hcount, ?_⟩
  · intro catalog h
    rw [decodeCatalog_encode hnames hcount] at h
    rw [databases_of_checked h]
    exact forall₂_agrees databases
  · intro catalog h
    rw [decodeCatalog_encodeEntries hnames hcount] at h
    rw [databases_of_checked h]
    exact forall₂_agrees _

end Catalogs

/-- A delta without an anchor. -/
def deltaEntry : DatabaseCatalogEntry where
  dbId := 1
  dbType := 1
  name := "delta"
  baseHeight := 940611
  height := 944000
  indexBinsPerTable := 1024
  chunkBinsPerTable := 2048
  indexK := 75
  chunkK := 80
  tagSeed := 11
  dpfNIndex := 10
  dpfNChunk := 11
  hasBucketMerkle := true
  indexMasterSeed := 12
  chunkMasterSeed := 13
  anchor := none

/-- The entry anchored, with the seeds derived from the anchor. -/
def DatabaseCatalogEntry.anchored (e : DatabaseCatalogEntry) (anchor : HeaderAnchor) :
    DatabaseCatalogEntry :=
  let seeds := AnchorSeeds.derive (Digest.read 32) anchor
  { e with
    tagSeed := seeds.indexTag
    indexMasterSeed := seeds.indexMaster
    chunkMasterSeed := seeds.chunkMaster
    anchor := some anchor }

/-- A snapshot and a delta with their anchors, and a delta without. -/
def mixedEntries : List DatabaseCatalogEntry :=
  let base : ChainAnchor := ⟨Digest.zero 32, 940611⟩
  [{ deltaEntry.anchored (.snapshot base) with dbId := 0, dbType := 0, name := "main" },
    deltaEntry.anchored (.delta ⟨base, ⟨Digest.zero 32, 944000⟩⟩), { deltaEntry with dbId := 2 }]

theorem length_name_mixedEntries : ∀ e ∈ mixedEntries, (toUtf8 e.name).length < 256 := by
  decide

/-- The client accepts the entries. -/
theorem decodeCatalog_mixedEntries :
    decodeCatalog (Digest.read 32) (encodeDbCatalog mixedEntries) =
      .ok ⟨mixedEntries.map (·.toInfo)⟩ :=
  decodeCatalog_encode length_name_mixedEntries (by decide)

theorem catalog_decoders_agree_mixed :
    decodeDbCatalog (encodeDbCatalog mixedEntries) = .ok mixedEntries ∧
      List.Forall₂ Agrees (mixedEntries.map (·.toInfo)) mixedEntries :=
  have h := (catalog_decoders_agree length_name_mixedEntries (by decide) (Digest.read 32)).1
  ⟨h.1, h.2 _ decodeCatalog_mixedEntries⟩

end BitcoinPir.Wire
