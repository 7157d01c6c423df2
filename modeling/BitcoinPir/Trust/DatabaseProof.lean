import BitcoinPir.Trust.Evidence
import BitcoinPir.Core.Params

/-!
# Database proofs

A proof bundle holds the build evidence of a database, the documents the evidence hashes, and
the SEV-SNP report that attests it. `ProofBundle.verify` checks the bundle in itself;
`verifyDatabaseProof` checks it against the catalog entry the client queries with and against
the client's policy, and returns the roots the client may trust.

The report carries 64 bytes of REPORT_DATA. They fix the evidence (`ProofBundle.verify_spec`,
`ProofBundle.buildEvidence_eq_of_attestedMessage`), the evidence fixes the returned roots, and the
catalog checks leave the entry no freedom in what places a query
(`MatchesEvidence.samePlacement`): **`verifyDatabaseProof_binding`**.
-/

namespace BitcoinPir.Trust

open Foundations

variable (H : Bytes → Hash256)

/-! ## Report data -/

def evidenceV1Domain : Bytes := toUtf8 "BitcoinPIR/attested-builder/build-evidence/v1\x00"

def evidenceV2Domain : Bytes := toUtf8 "BitcoinPIR/attested-builder/build-evidence/v2\x00"

def reportDataV1Domain : Bytes :=
  toUtf8 "BitcoinPIR/attested-builder/build-evidence/report-data/v1\x00"

def reportDataV2Domain : Bytes :=
  toUtf8 "BitcoinPIR/attested-builder/build-evidence/report-data/v2\x00"

def evidenceDomain (version : UInt16) : Bytes :=
  if version = evidenceVersionV1 then evidenceV1Domain else evidenceV2Domain

def reportDataDomain (version : UInt16) : Bytes :=
  if version = evidenceVersionV1 then reportDataV1Domain else reportDataV2Domain

def evidenceDigest (version : UInt16) (evidenceBytes : Bytes) : Result Hash256 := do
  require (KnownVersion version) (.message s!"unsupported evidence version: {version}")
  return H (evidenceDomain version ++ evidenceBytes)

/-- The digest of the evidence, followed by a second hash of the digest. -/
def reportDataForEvidenceBytes (version : UInt16) (evidenceBytes : Bytes) :
    Result (Digest 64) := do
  let evidenceHash ← evidenceDigest H version evidenceBytes
  let high := H (reportDataDomain version ++ evidenceHash.val)
  return ⟨evidenceHash.val ++ high.val, by
    rw [List.length_append, evidenceHash.property, high.property]⟩

def BuildEvidence.reportData (ev : BuildEvidence) : Result (Digest 64) := do
  let bytes ← ev.encode
  reportDataForEvidenceBytes H ev.version bytes

def sevSnpReportDataOffset : ℕ := 0x50

def sevSnpReportDataLen : ℕ := 64

def extractSevSnpReportData (report : Bytes) : Result (Digest 64) :=
  if report.length < sevSnpReportDataOffset + sevSnpReportDataLen then
    .error (.message s!"SEV-SNP report too short for REPORT_DATA: {report.length} bytes")
  else .ok (Digest.read 64 (report.drop sevSnpReportDataOffset))

def BuildEvidence.verifySevSnpReportData (ev : BuildEvidence) (report : Bytes) :
    Result Unit := do
  let actual ← extractSevSnpReportData report
  let expected ← ev.reportData H
  expectArr "sev_snp_report_data" expected actual

/-! ## Bundles -/

def liftBundle {α : Type} : Except BundleError α → Result α
  | .error e => .error (.rootBundle e)
  | .ok a => .ok a

def RootBundlePayload.requireRoot (payload : RootBundlePayload) (label missing : String) :
    Result Hash256 :=
  match payload.root label with
  | none => .error (.malformed missing)
  | some root => .ok root

/-- The signed payload says the same as the evidence. -/
def BuildEvidence.verifyRootPayload (ev : BuildEvidence) (payloadBytes : Bytes) :
    Result RootBundlePayload := do
  expectArr "root_bundle_payload_sha256" ev.rootBundlePayloadSha256 (H payloadBytes)
  let payload ← liftBundle (RootBundlePayload.decode payloadBytes)
  expectArr "network_magic" ev.networkMagic payload.networkMagic
  expectEq buildKindLabel "build_kind" ev.buildKind payload.buildKind
  expectAnchor "from_anchor" ev.fromAnchor payload.fromAnchor
  expectAnchor "anchor" ev.anchor payload.anchor
  expectArr "utxo_muhash" ev.utxoMuhash payload.utxoMuhash
  expectU64 "dust_threshold_sats" ev.dustThresholdSats payload.dustThresholdSats
  expectU32 "max_utxos_per_spk" ev.maxUtxosPerSpk payload.maxUtxosPerSpk
  expectArr "params_hash" ev.paramsHash payload.paramsHash
  let bucket ← payload.requireRoot "merkle/bucket/super_root" "payload missing bucket super root"
  let onion ← payload.requireRoot "merkle/onion/super_root" "payload missing onion super root"
  expectArr "bucket_super_root" ev.bucketSuperRoot bucket
  expectArr "onion_super_root" ev.onionSuperRoot onion
  return payload

structure ProofBundle where
  buildEvidence : Bytes
  rootBundlePayload : Bytes
  sevSnpReport : Bytes
  databaseManifestSha256 : Bytes
  allArtifactsManifestSha256 : Bytes
  serverDbManifestToml : Bytes

structure ProofDirectory where
  evidence : BuildEvidence
  rootBundlePayload : RootBundlePayload

def BuildEvidence.evidenceFileSha256 (ev : BuildEvidence) : Result Hash256 := do
  let bytes ← ev.encode
  return H bytes

/-- The bundle is consistent: the evidence decodes, the documents are the ones it hashes, and
the report attests it. -/
def ProofBundle.verify (bundle : ProofBundle) : Result ProofDirectory := do
  let evidence ← BuildEvidence.decode bundle.buildEvidence
  let fileSha256 ← evidence.evidenceFileSha256 H
  expectArr "build_evidence_file_sha256" fileSha256 (H bundle.buildEvidence)
  let rootBundlePayload ← evidence.verifyRootPayload H bundle.rootBundlePayload
  expectArr "database_manifest_sha256" evidence.databaseManifestSha256
    (H bundle.databaseManifestSha256)
  expectArr "all_artifacts_manifest_sha256" evidence.allArtifactsManifestSha256
    (H bundle.allArtifactsManifestSha256)
  expectArr "server_db_manifest_sha256" evidence.serverDbManifestSha256
    (H bundle.serverDbManifestToml)
  evidence.verifySevSnpReportData H bundle.sevSnpReport
  return ⟨evidence, rootBundlePayload⟩

/-! ## The catalog entry and the policy -/

structure DatabaseProofBundle extends ProofBundle where
  dbId : UInt8

structure DatabaseProofPolicy where
  expectedNetworkMagic : Option (Digest 4)
  expectedParamsHash : Option Hash256
  allowedBuilderBinarySha256 : List Hash256
  allowedBuilderGitCommits : List String

/-- What a proof establishes about a database. -/
structure VerifiedDatabaseRoots where
  dbId : UInt8
  manifestRoot : Hash256
  buildKind : BuildKind
  fromHeight : UInt32
  fromBlockHash : Hash256
  height : UInt32
  blockHash : Hash256
  muhash : Hash256
  bucketSuperRoot : Hash256
  onionSuperRoot : Hash256
  onionEntrySize : UInt32
  onionLayoutV2 : Option OnionQueryLayoutV2
  paramsHash : Hash256
  networkMagic : Digest 4
  builderBinarySha256 : Hash256
  builderGitCommit : String
  deriving DecidableEq

def proofMismatch (field expected actual : String) : PirError :=
  .verificationFailed s!"db proof {field} mismatch: expected {expected}, got {actual}"

/-- A field has the value the proof fixes for it. -/
def expectField {α : Type} [DecidableEq α] (text : α → String) (field : String)
    (expected actual : α) : PirResult Unit :=
  require (expected = actual) (proofMismatch field (text expected) (text actual))

theorem expectField_eq_ok {α : Type} [DecidableEq α] {text : α → String} {field : String}
    {expected actual : α} {u : Unit} :
    expectField text field expected actual = .ok u ↔ expected = actual :=
  require_eq_ok

def expectFieldArr {n : ℕ} : String → Digest n → Digest n → PirResult Unit :=
  expectField fun d => hexEncode d.val

def expectFieldU32 : String → UInt32 → UInt32 → PirResult Unit := expectField toString

def expectFieldU64 : String → UInt64 → UInt64 → PirResult Unit := expectField toString

def expectFieldUsize : String → ℕ → ℕ → PirResult Unit := expectField toString

def expectChainAnchor (field : String) (expected : AttestedChainAnchor) (actual : ChainAnchor) :
    PirResult Unit := do
  expectFieldArr field expected.blockHash actual.blockHash
  expectFieldU32 field expected.height actual.blockHeight

def missingAnchor : PirError :=
  proofMismatch "catalog_anchor" "chain-anchored catalog entry"
    "missing or malformed catalog anchor"

/-- The entry is anchored at the blocks of the evidence. -/
def verifyCatalogAnchor (db : DatabaseInfo) (ev : BuildEvidence) : PirResult Unit :=
  match ev.buildKind, db.chainAnchor with
  | .snapshot, some (.snapshot anchor) => expectChainAnchor "catalog_anchor" ev.anchor anchor
  | .delta, some (.delta anchor) => do
    expectChainAnchor "catalog_from_anchor" ev.fromAnchor anchor.fromAnchor
    expectChainAnchor "catalog_anchor" ev.anchor anchor.toAnchor
  | _, none => .error missingAnchor
  | .snapshot, some (.delta _) =>
    .error (proofMismatch "catalog_anchor_kind" "snapshot" "delta")
  | .delta, some (.snapshot _) =>
    .error (proofMismatch "catalog_anchor_kind" "delta" "snapshot")

def verifyCatalogGeometry (db : DatabaseInfo) : PirResult Unit :=
  match validateDbGeometry db with
  | .error err =>
    .error (.verificationFailed s!"db proof catalog geometry invalid: {err.text}")
  | .ok () => .ok ()

/-- The seeds are the ones derived from the anchor. -/
def verifyCatalogSeeds (db : DatabaseInfo) : PirResult Unit :=
  match db.chainAnchor with
  | none => .error missingAnchor
  | some anchor => do
    let seeds := AnchorSeeds.derive H anchor
    expectFieldU64 "tag_seed" seeds.indexTag db.tagSeed
    expectFieldU64 "index_master_seed" seeds.indexMaster db.indexMasterSeed
    expectFieldU64 "chunk_master_seed" seeds.chunkMaster db.chunkMasterSeed

/-- Everything that places a query is fixed by the anchor and the bins. -/
def verifyCatalogQueryParameters (db : DatabaseInfo) : PirResult Unit := do
  verifyCatalogGeometry db
  expectFieldUsize "index_k" indexParams.k db.indexK.toNat
  expectFieldUsize "chunk_k" chunkParams.k db.chunkK.toNat
  expectFieldUsize "dpf_n_index" (computeDpfN db.indexBins.toNat) db.dpfNIndex.toNat
  expectFieldUsize "dpf_n_chunk" (computeDpfN db.chunkBins.toNat) db.dpfNChunk.toNat
  verifyCatalogSeeds H db

def expectedKind : DatabaseKind → BuildKind
  | .full => .snapshot
  | .delta _ => .delta

/-- The checks of a catalog entry against the evidence. -/
def verifyCatalogEntry (db : DatabaseInfo) (ev : BuildEvidence) : PirResult Unit := do
  require (ev.buildKind = expectedKind db.kind) (proofMismatch "build_kind"
    (buildKindLabel (expectedKind db.kind)) (buildKindLabel ev.buildKind))
  expectFieldU32 "height" db.height ev.anchor.height
  expectFieldU32 "from_height" db.baseHeight ev.fromAnchor.height
  expectFieldU32 "index_bins_per_table" db.indexBins ev.indexBinsPerTable
  expectFieldU32 "chunk_bins_per_table" db.chunkBins ev.chunkBinsPerTable
  verifyCatalogAnchor db ev
  verifyCatalogQueryParameters H db

/-- The Onion layout of version 2 evidence, bound by the parameter hash. -/
def verifyOnionLayout (ev : BuildEvidence) : PirResult (Option OnionQueryLayoutV2) :=
  if ev.version = evidenceVersionV2 then
    match ev.onionLayoutV2 with
    | none => .error (.verificationFailed "v2 evidence missing typed Onion layout")
    | some layout =>
      match layout.validate with
      | .error e => .error (.verificationFailed s!"invalid v2 Onion layout: {e.text}")
      | .ok () => do
        let params : BuildParamsV2 := ⟨ev.indexBinsPerTable, ev.chunkBinsPerTable, layout⟩
        expectFieldArr "params_hash_v2" (params.paramsHash H) ev.paramsHash
        return some layout
  else .ok none

/-- The builder is one the policy allows; an empty list allows all. -/
def verifyBuilder (policy : DatabaseProofPolicy) (ev : BuildEvidence) : PirResult Unit := do
  require (policy.allowedBuilderBinarySha256 = [] ∨
      ev.builderBinarySha256 ∈ policy.allowedBuilderBinarySha256)
    (proofMismatch "builder_binary_sha256"
      (String.intercalate "," (policy.allowedBuilderBinarySha256.map fun h => hexEncode h.val))
      (hexEncode ev.builderBinarySha256.val))
  require (policy.allowedBuilderGitCommits = [] ∨
      ev.builderGitCommit ∈ policy.allowedBuilderGitCommits)
    (proofMismatch "builder_git_commit"
      (String.intercalate "," policy.allowedBuilderGitCommits) ev.builderGitCommit)

/-- A value the policy may fix. -/
def expectPolicy {n : ℕ} (field : String) (expected : Option (Digest n)) (actual : Digest n) :
    PirResult Unit :=
  match expected with
  | none => .ok ()
  | some expected => expectFieldArr field expected actual

def verifyAgainstCatalogAndPolicy (db : DatabaseInfo) (verified : ProofDirectory)
    (policy : DatabaseProofPolicy) : PirResult VerifiedDatabaseRoots := do
  let evidence := verified.evidence
  verifyCatalogEntry H db evidence
  expectPolicy "network_magic" policy.expectedNetworkMagic evidence.networkMagic
  expectPolicy "params_hash" policy.expectedParamsHash evidence.paramsHash
  let onionLayoutV2 ← verifyOnionLayout H evidence
  verifyBuilder policy evidence
  return {
    dbId := db.dbId
    manifestRoot := zeroHash
    buildKind := evidence.buildKind
    fromHeight := evidence.fromAnchor.height
    fromBlockHash := evidence.fromAnchor.blockHash
    height := evidence.anchor.height
    blockHash := evidence.anchor.blockHash
    muhash := evidence.utxoMuhash
    bucketSuperRoot := evidence.bucketSuperRoot
    onionSuperRoot := evidence.onionSuperRoot
    onionEntrySize := evidence.onionEntrySize
    onionLayoutV2 := onionLayoutV2
    paramsHash := evidence.paramsHash
    networkMagic := evidence.networkMagic
    builderBinarySha256 := evidence.builderBinarySha256
    builderGitCommit := evidence.builderGitCommit }

def liftAttest {α : Type} : Result α → PirResult α
  | .error e => .error (.verificationFailed s!"db proof verification failed: {e.text}")
  | .ok a => .ok a

def verifyDatabaseProof (db : DatabaseInfo) (bundle : DatabaseProofBundle)
    (policy : DatabaseProofPolicy) : PirResult VerifiedDatabaseRoots := do
  require (bundle.dbId = db.dbId)
    (proofMismatch "db_id" (toString db.dbId) (toString bundle.dbId))
  let verified ← liftAttest (bundle.toProofBundle.verify H)
  let roots ← verifyAgainstCatalogAndPolicy H db verified policy
  return { roots with manifestRoot := H bundle.serverDbManifestToml }

/-- The strict form for Onion clients. -/
def verifyDatabaseProofV2 (db : DatabaseInfo) (bundle : DatabaseProofBundle)
    (policy : DatabaseProofPolicy) : PirResult VerifiedDatabaseRoots := do
  let roots ← verifyDatabaseProof H db bundle policy
  require (roots.onionLayoutV2 ≠ none)
    (.verificationFailed "strict OnionPIR requires database proof v2")
  return roots

/-! ## What an accepted entry looks like -/

/-- The block an attested anchor names. -/
def AttestedChainAnchor.chain (a : AttestedChainAnchor) : ChainAnchor := ⟨a.blockHash, a.height⟩

/-- The anchor a database built on this evidence has. -/
def BuildEvidence.headerAnchor (ev : BuildEvidence) : HeaderAnchor :=
  match ev.buildKind with
  | .snapshot => .snapshot ev.anchor.chain
  | .delta => .delta ⟨ev.fromAnchor.chain, ev.anchor.chain⟩

/-- A catalog entry in which everything that places a query is what the evidence says. -/
structure MatchesEvidence (db : DatabaseInfo) (ev : BuildEvidence) : Prop where
  buildKind : ev.buildKind = expectedKind db.kind
  height : db.height = ev.anchor.height
  fromHeight : db.baseHeight = ev.fromAnchor.height
  indexBins : db.indexBins = ev.indexBinsPerTable
  chunkBins : db.chunkBins = ev.chunkBinsPerTable
  chainAnchor : db.chainAnchor = some ev.headerAnchor
  indexK : db.indexK.toNat = indexParams.k
  chunkK : db.chunkK.toNat = chunkParams.k
  dpfNIndex : db.dpfNIndex.toNat = computeDpfN db.indexBins.toNat
  dpfNChunk : db.dpfNChunk.toNat = computeDpfN db.chunkBins.toNat
  tagSeed : db.tagSeed = (AnchorSeeds.derive H ev.headerAnchor).indexTag
  indexMasterSeed : db.indexMasterSeed = (AnchorSeeds.derive H ev.headerAnchor).indexMaster
  chunkMasterSeed : db.chunkMasterSeed = (AnchorSeeds.derive H ev.headerAnchor).chunkMaster

variable {H} {db : DatabaseInfo} {ev : BuildEvidence}

theorem expectChainAnchor_eq_ok {field : String} {expected : AttestedChainAnchor}
    {actual : ChainAnchor} {u : Unit} :
    expectChainAnchor field expected actual = .ok u ↔ actual = expected.chain := by
  simp only [expectChainAnchor, expectFieldArr, expectFieldU32, bind_eq_ok, expectField_eq_ok,
    exists_const, AttestedChainAnchor.chain]
  constructor
  · rintro ⟨hh, hn⟩
    rw [hh, hn]
  · rintro rfl
    exact ⟨rfl, rfl⟩

theorem verifyCatalogAnchor_eq_ok {u : Unit} :
    verifyCatalogAnchor db ev = .ok u ↔ db.chainAnchor = some ev.headerAnchor := by
  unfold verifyCatalogAnchor BuildEvidence.headerAnchor
  cases ev.buildKind with
  | snapshot =>
    rcases db.chainAnchor with _ | ⟨a | a⟩
    · simp
    · simp [expectChainAnchor_eq_ok]
    · simp
  | delta =>
    rcases db.chainAnchor with _ | ⟨a | a⟩
    · simp
    · simp
    · simp [bind_eq_ok, expectChainAnchor_eq_ok, DeltaAnchor.ext_iff]

theorem verifyCatalogSeeds_eq_ok {anchor : HeaderAnchor} (h : db.chainAnchor = some anchor)
    {u : Unit} : verifyCatalogSeeds H db = .ok u ↔
      db.tagSeed = (AnchorSeeds.derive H anchor).indexTag ∧
      db.indexMasterSeed = (AnchorSeeds.derive H anchor).indexMaster ∧
      db.chunkMasterSeed = (AnchorSeeds.derive H anchor).chunkMaster := by
  unfold verifyCatalogSeeds
  rw [h]
  simp only [expectFieldU64, bind_eq_ok, expectField_eq_ok, exists_const,
    eq_comm (a := db.tagSeed), eq_comm (a := db.indexMasterSeed),
    eq_comm (a := db.chunkMasterSeed)]

theorem verifyCatalogEntry_spec {u : Unit} (h : verifyCatalogEntry H db ev = .ok u) :
    MatchesEvidence H db ev := by
  simp only [verifyCatalogEntry, verifyCatalogQueryParameters, expectFieldU32, expectFieldUsize,
    bind_eq_ok, require_eq_ok, expectField_eq_ok, exists_const, verifyCatalogAnchor_eq_ok] at h
  obtain ⟨hkind, hheight, hfrom, hindex, hchunk, hanchor, _, -, hindexK, hchunkK, hdpfI, hdpfC,
    hseeds⟩ := h
  obtain ⟨htag, him, hcm⟩ := (verifyCatalogSeeds_eq_ok hanchor).1 hseeds
  exact ⟨hkind, hheight, hfrom, hindex, hchunk, hanchor, hindexK.symm, hchunkK.symm, hdpfI.symm,
    hdpfC.symm, htag, him, hcm⟩

/-- Two entries place every query alike: they agree on kind, heights, bins, group counts, seeds,
domain exponents and anchor. -/
structure SamePlacement (db db' : DatabaseInfo) : Prop where
  kind : db.kind = db'.kind
  height : db.height = db'.height
  indexBins : db.indexBins = db'.indexBins
  chunkBins : db.chunkBins = db'.chunkBins
  indexK : db.indexK = db'.indexK
  chunkK : db.chunkK = db'.chunkK
  tagSeed : db.tagSeed = db'.tagSeed
  indexMasterSeed : db.indexMasterSeed = db'.indexMasterSeed
  chunkMasterSeed : db.chunkMasterSeed = db'.chunkMasterSeed
  dpfNIndex : db.dpfNIndex = db'.dpfNIndex
  dpfNChunk : db.dpfNChunk = db'.dpfNChunk
  chainAnchor : db.chainAnchor = db'.chainAnchor

/-- The kind of an entry is determined by the kind of build and the base height. -/
theorem kind_eq_of_expectedKind {k k' : DatabaseKind} (h : expectedKind k = expectedKind k')
    (hb : k.baseHeight = k'.baseHeight) : k = k' := by
  cases k <;> cases k' <;> simp_all [expectedKind, DatabaseKind.baseHeight]

/-- The evidence leaves an entry no freedom in what places a query. -/
theorem MatchesEvidence.samePlacement {db' : DatabaseInfo} (h : MatchesEvidence H db ev)
    (h' : MatchesEvidence H db' ev) : SamePlacement db db' where
  kind := kind_eq_of_expectedKind (h.buildKind.symm.trans h'.buildKind)
    (h.fromHeight.trans h'.fromHeight.symm)
  height := h.height.trans h'.height.symm
  indexBins := h.indexBins.trans h'.indexBins.symm
  chunkBins := h.chunkBins.trans h'.chunkBins.symm
  indexK := UInt8.toNat_inj.1 (h.indexK.trans h'.indexK.symm)
  chunkK := UInt8.toNat_inj.1 (h.chunkK.trans h'.chunkK.symm)
  tagSeed := h.tagSeed.trans h'.tagSeed.symm
  indexMasterSeed := h.indexMasterSeed.trans h'.indexMasterSeed.symm
  chunkMasterSeed := h.chunkMasterSeed.trans h'.chunkMasterSeed.symm
  dpfNIndex := UInt8.toNat_inj.1 (by rw [h.dpfNIndex, h'.dpfNIndex, h.indexBins, h'.indexBins])
  dpfNChunk := UInt8.toNat_inj.1 (by rw [h.dpfNChunk, h'.dpfNChunk, h.chunkBins, h'.chunkBins])
  chainAnchor := h.chainAnchor.trans h'.chainAnchor.symm

/-! ## What an accepted bundle establishes -/

/-- The message whose hash the report carries. -/
def ProofBundle.attestedMessage (bundle : ProofBundle) (ev : BuildEvidence) : Bytes :=
  evidenceDomain ev.version ++ bundle.buildEvidence

theorem evidenceDomain_length (version : UInt16) : (evidenceDomain version).length = 46 := by
  unfold evidenceDomain
  split_ifs <;> decide +kernel

/-- The two versions' domains have one length, so the message determines the evidence. -/
theorem ProofBundle.buildEvidence_eq_of_attestedMessage {bundle bundle' : ProofBundle}
    {ev' : BuildEvidence} (h : bundle.attestedMessage ev = bundle'.attestedMessage ev') :
    bundle.buildEvidence = bundle'.buildEvidence :=
  (List.append_inj h (by rw [evidenceDomain_length, evidenceDomain_length])).2

theorem reportData_spec {bundle : ProofBundle} {rd : Digest 64}
    (hdec : BuildEvidence.decode bundle.buildEvidence = .ok ev) (h : ev.reportData H = .ok rd) :
    rd.val.take 32 = (H (bundle.attestedMessage ev)).val := by
  simp only [BuildEvidence.reportData, reportDataForEvidenceBytes, evidenceDigest,
    (BuildEvidence.decode_eq_ok.1 hdec).2, ok_bind, bind_eq_ok, require_eq_ok, exists_const] at h
  obtain ⟨hash, ⟨-, hhash⟩, hrd⟩ := h
  cases hhash
  cases hrd
  exact List.take_left' (H _).property

/-- A consistent bundle's report carries the hash of its evidence, and the manifest is the one
the evidence names. -/
theorem ProofBundle.verify_spec {bundle : ProofBundle} {dir : ProofDirectory}
    (h : bundle.verify H = .ok dir) :
    BuildEvidence.decode bundle.buildEvidence = .ok dir.evidence ∧
      H bundle.serverDbManifestToml = dir.evidence.serverDbManifestSha256 ∧
      ∃ rd, extractSevSnpReportData bundle.sevSnpReport = .ok rd ∧
        rd.val.take 32 = (H (bundle.attestedMessage dir.evidence)).val := by
  simp only [ProofBundle.verify, expectArr, BuildEvidence.verifySevSnpReportData, bind_eq_ok,
    expectEq_eq_ok, exists_const] at h
  obtain ⟨ev, hdec, _, -, -, payload, -, -, -, hmanifest, ⟨rd, hextract, _, hrd, rfl⟩, hdir⟩ := h
  cases hdir
  exact ⟨hdec, hmanifest.symm, _, hextract, reportData_spec hdec hrd⟩

/-- The roots the evidence fixes. -/
def BuildEvidence.roots (ev : BuildEvidence) (dbId : UInt8) : VerifiedDatabaseRoots where
  dbId := dbId
  manifestRoot := ev.serverDbManifestSha256
  buildKind := ev.buildKind
  fromHeight := ev.fromAnchor.height
  fromBlockHash := ev.fromAnchor.blockHash
  height := ev.anchor.height
  blockHash := ev.anchor.blockHash
  muhash := ev.utxoMuhash
  bucketSuperRoot := ev.bucketSuperRoot
  onionSuperRoot := ev.onionSuperRoot
  onionEntrySize := ev.onionEntrySize
  onionLayoutV2 := if ev.version = evidenceVersionV2 then ev.onionLayoutV2 else none
  paramsHash := ev.paramsHash
  networkMagic := ev.networkMagic
  builderBinarySha256 := ev.builderBinarySha256
  builderGitCommit := ev.builderGitCommit

theorem verifyOnionLayout_spec {layout : Option OnionQueryLayoutV2}
    (h : verifyOnionLayout H ev = .ok layout) :
    layout = if ev.version = evidenceVersionV2 then ev.onionLayoutV2 else none := by
  unfold verifyOnionLayout at h
  split_ifs at h ⊢ with hv
  · rcases hl : ev.onionLayoutV2 with _ | l
    · simp [hl] at h
    · rcases hval : l.validate with e | u
      · simp [hl, hval] at h
      · simp only [hl, hval, bind_eq_ok] at h
        obtain ⟨-, -, h⟩ := h
        cases h
        rfl
  · cases h
    rfl

theorem liftAttest_eq_ok {α : Type} {x : Result α} {a : α} :
    liftAttest x = .ok a ↔ x = .ok a := by
  cases x <;> simp [liftAttest]

/-- An accepted proof: the returned roots are the ones of the evidence, the entry matches the
evidence, and the report carries the hash of the evidence. -/
theorem verifyDatabaseProof_spec {bundle : DatabaseProofBundle} {policy : DatabaseProofPolicy}
    {roots : VerifiedDatabaseRoots} (h : verifyDatabaseProof H db bundle policy = .ok roots) :
    ∃ ev, BuildEvidence.decode bundle.buildEvidence = .ok ev ∧ roots = ev.roots db.dbId ∧
      verifyCatalogEntry H db ev = .ok () ∧
      ∃ rd, extractSevSnpReportData bundle.sevSnpReport = .ok rd ∧
        rd.val.take 32 = (H (bundle.attestedMessage ev)).val := by
  simp only [verifyDatabaseProof, verifyAgainstCatalogAndPolicy, bind_eq_ok, liftAttest_eq_ok] at h
  obtain ⟨_, -, dir, hdir, roots', ⟨_, hentry, _, -, _, -, layout, hlayout, _, -, hroots'⟩,
    hroots⟩ := h
  obtain ⟨hdec, hmanifest, hreport⟩ := ProofBundle.verify_spec hdir
  refine ⟨dir.evidence, hdec, ?_, hentry, hreport⟩
  cases hroots
  cases hroots'
  rw [BuildEvidence.roots, hmanifest, verifyOnionLayout_spec hlayout]

/-- **A database proof binds everything it returns**: two accepted proofs whose reports carry
the same REPORT_DATA return the same roots, up to the database id, for entries that place every
query alike, or the two attested messages are a collision of the hash. -/
theorem verifyDatabaseProof_binding (H : Bytes → Hash256) {db₁ db₂ : DatabaseInfo}
    {bundle₁ bundle₂ : DatabaseProofBundle} {policy₁ policy₂ : DatabaseProofPolicy}
    {roots₁ roots₂ : VerifiedDatabaseRoots}
    (h₁ : verifyDatabaseProof H db₁ bundle₁ policy₁ = .ok roots₁)
    (h₂ : verifyDatabaseProof H db₂ bundle₂ policy₂ = .ok roots₂)
    (hreport : extractSevSnpReportData bundle₁.sevSnpReport =
      extractSevSnpReportData bundle₂.sevSnpReport) :
    ({ roots₁ with dbId := roots₂.dbId } = roots₂ ∧ SamePlacement db₁ db₂) ∨
      ∃ ev₁ ev₂, BuildEvidence.decode bundle₁.buildEvidence = .ok ev₁ ∧
        BuildEvidence.decode bundle₂.buildEvidence = .ok ev₂ ∧
        HashTree.Collides H [bundle₁.attestedMessage ev₁, bundle₂.attestedMessage ev₂] := by
  obtain ⟨ev₁, hdec₁, rfl, hentry₁, rd₁, hrd₁, hhash₁⟩ := verifyDatabaseProof_spec h₁
  obtain ⟨ev₂, hdec₂, rfl, hentry₂, rd₂, hrd₂, hhash₂⟩ := verifyDatabaseProof_spec h₂
  have hrd : rd₁ = rd₂ := Except.ok.inj (hrd₁.symm.trans (hreport.trans hrd₂))
  have hhash : H (bundle₁.attestedMessage ev₁) = H (bundle₂.attestedMessage ev₂) :=
    Subtype.ext (by rw [← hhash₁, ← hhash₂, hrd])
  by_cases hmsg : bundle₁.attestedMessage ev₁ = bundle₂.attestedMessage ev₂
  · left
    have hbytes := ProofBundle.buildEvidence_eq_of_attestedMessage hmsg
    obtain rfl : ev₁ = ev₂ := Except.ok.inj (hdec₁.symm.trans (hbytes ▸ hdec₂))
    exact ⟨rfl, (verifyCatalogEntry_spec hentry₁).samePlacement (verifyCatalogEntry_spec hentry₂)⟩
  · right
    exact ⟨ev₁, ev₂, hdec₁, hdec₂, _, List.mem_cons_self, _,
      List.mem_cons_of_mem _ List.mem_cons_self, hmsg, hhash⟩

/-! ### A small snapshot

A version 2 proof of a snapshot at height 900, for any hash. -/

namespace Sample

section

variable (H : Bytes → Hash256)

def anchor : AttestedChainAnchor := ⟨H [1], 900⟩

def layout : OnionQueryLayoutV2 := .current 20 100 200 3328

def paramsHash : Hash256 := BuildParamsV2.paramsHash H ⟨100, 200, layout⟩

/-- The payload in the builder's encoding, with the two roots a proof needs. -/
def payload : Bytes :=
  leBytes 2 1 ++ [0, 0, 0, 0] ++ [0] ++ putAnchor ⟨zeroHash, 0⟩ ++ putAnchor (anchor H) ++
    zeroHash.val ++ leBytes 8 576 ++ leBytes 4 100 ++ (paramsHash H).val ++ leBytes 8 0 ++
    leBytes 2 2 ++
    (24 :: toUtf8 "merkle/bucket/super_root" ++ (H [7]).val) ++
    (23 :: toUtf8 "merkle/onion/super_root" ++ (H [8]).val)

def evidence : BuildEvidence where
  version := evidenceVersionV2
  builderGitCommit := "abc123"
  builderBinarySha256 := H [2]
  teePlatform := "sev-snp"
  teeImageMeasurement := [3, 3]
  coreVersion := ""
  snapshotSha256 := zeroHash
  snapshotBytes := 1234
  networkMagic := Digest.zero 4
  buildKind := .snapshot
  fromAnchor := ⟨zeroHash, 0⟩
  anchor := anchor H
  utxoMuhash := zeroHash
  dustThresholdSats := 576
  maxUtxosPerSpk := 100
  paramsHash := paramsHash H
  indexBinsPerTable := 100
  chunkBinsPerTable := 200
  onionEntrySize := 3328
  bucketSuperRoot := H [7]
  onionSuperRoot := H [8]
  rootBundlePayloadSha256 := H (payload H)
  signedRootBundleSha256 := none
  databaseManifestSha256 := H [4]
  allArtifactsManifestSha256 := H [5]
  serverDbManifestSha256 := H [6]
  evidenceMode := .fullBuild
  predecessorEvidenceSha256 := none
  predecessorReportSha256 := none
  onionLayoutV2 := some layout

/-- The bundle served under an id; reports differ outside REPORT_DATA. -/
def bundle (dbId : UInt8) : DatabaseProofBundle where
  dbId := dbId
  buildEvidence := ((evidence H).encode.toOption).getD []
  rootBundlePayload := payload H
  sevSnpReport := List.replicate 0x50 dbId ++
    (((evidence H).reportData H).toOption.map Subtype.val).getD []
  databaseManifestSha256 := [4]
  allArtifactsManifestSha256 := [5]
  serverDbManifestToml := [6]

def seeds : AnchorSeeds := AnchorSeeds.derive H (evidence H).headerAnchor

/-- The catalog entry under an id. -/
def entry (dbId : UInt8) (name : String) : DatabaseInfo where
  dbId := dbId
  kind := .full
  name := name
  height := 900
  indexBins := 100
  chunkBins := 200
  indexK := 75
  chunkK := 80
  tagSeed := (seeds H).indexTag
  dpfNIndex := 7
  dpfNChunk := 8
  hasBucketMerkle := true
  indexMasterSeed := (seeds H).indexMaster
  chunkMasterSeed := (seeds H).chunkMaster
  anchorKind := 1
  anchorBytes := (anchor H).chain.toBytes

def policy : DatabaseProofPolicy := ⟨none, none, [], []⟩

end

/-- A stand-in for the hash: the length of the message and its last bytes. -/
def tailHash (b : Bytes) : Hash256 := Digest.read 32 (leBytes 4 b.length ++ b.reverse)

theorem accepted_main :
    verifyDatabaseProof tailHash (entry tailHash 0 "main") (bundle tailHash 0) policy =
      .ok ((evidence tailHash).roots 0) := by decide +kernel

theorem accepted_mirror :
    verifyDatabaseProof tailHash (entry tailHash 1 "mirror") (bundle tailHash 1) policy =
      .ok ((evidence tailHash).roots 1) := by decide +kernel

end Sample

open Sample in
theorem verifyDatabaseProof_binding_sample :
    ({ (evidence tailHash).roots 0 with dbId := 1 } = (evidence tailHash).roots 1 ∧
        SamePlacement (entry tailHash 0 "main") (entry tailHash 1 "mirror")) ∨
      ∃ ev₁ ev₂, BuildEvidence.decode (bundle tailHash 0).buildEvidence = .ok ev₁ ∧
        BuildEvidence.decode (bundle tailHash 1).buildEvidence = .ok ev₂ ∧
        HashTree.Collides tailHash [(bundle tailHash 0).attestedMessage ev₁,
          (bundle tailHash 1).attestedMessage ev₂] :=
  verifyDatabaseProof_binding tailHash accepted_main accepted_mirror (by decide +kernel)

end BitcoinPir.Trust
