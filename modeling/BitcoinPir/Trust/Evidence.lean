import BitcoinPir.Core.Catalog
import BitcoinPir.Trust.RootBundle

/-!
# Build evidence

The statement an attested builder makes about a database: what it was built from and with, and
the roots and manifests of the result. It exists in two versions; the second adds the Onion
query layout and the evidence of a predecessor. `BuildEvidence.encode` and
`BuildEvidence.decode` are its byte format: a byte string decodes to exactly the evidence it is
the encoding of (**`BuildEvidence.decode_eq_ok`**).
-/

namespace BitcoinPir.Trust

open Foundations Reader

/-! ## Errors -/

inductive DbAttestError
  | malformed (what : String)
  | message (msg : String)
  | rootBundle (e : BundleError)
  | mismatch (field expected actual : String)
  deriving DecidableEq

/-- The result of an attestation check. -/
abbrev Result : Type → Type := Except DbAttestError

def DbAttestError.text : DbAttestError → String
  | .malformed what => s!"malformed build evidence: {what}"
  | .message msg => msg
  | .rootBundle e => s!"root bundle: {e.text}"
  | .mismatch field expected actual => s!"{field} mismatch: expected {expected}, got {actual}"

/-- Two values of a field agree. -/
def expectEq {α : Type} [DecidableEq α] (text : α → String) (field : String)
    (expected actual : α) : Result Unit :=
  require (expected = actual) (.mismatch field (text expected) (text actual))

theorem expectEq_eq_ok {α : Type} [DecidableEq α] {text : α → String} {field : String}
    {expected actual : α} {u : Unit} :
    expectEq text field expected actual = .ok u ↔ expected = actual :=
  require_eq_ok

def expectArr {n : ℕ} : String → Digest n → Digest n → Result Unit :=
  expectEq fun d => hexEncode d.val

def displayHashHex (h : Hash256) : String := hexEncode h.val.reverse

def expectAnchor : String → AttestedChainAnchor → AttestedChainAnchor →
    Result Unit :=
  expectEq fun a => s!"{displayHashHex a.blockHash}:{a.height}"

def expectU32 : String → UInt32 → UInt32 → Result Unit := expectEq toString

def expectU64 : String → UInt64 → UInt64 → Result Unit := expectEq toString

def buildKindLabel : BuildKind → String
  | .snapshot => "snapshot"
  | .delta => "delta"

/-! ## The Onion query layout -/

structure OnionQueryLayoutV2 where
  totalPackedEntries : UInt32
  indexBinsPerTable : UInt32
  chunkBinsPerTable : UInt32
  entrySize : UInt32
  indexSlotsPerBin : UInt16
  indexSlotSize : UInt16
  indexK : UInt16
  chunkK : UInt16
  merkleArity : UInt16
  merkleHashBytes : UInt16
  deriving DecidableEq

namespace OnionQueryLayoutV2

/-- The layout of the current builder; only four of its fields vary. -/
def current (totalPackedEntries indexBinsPerTable chunkBinsPerTable entrySize : UInt32) :
    OnionQueryLayoutV2 where
  totalPackedEntries := totalPackedEntries
  indexBinsPerTable := indexBinsPerTable
  chunkBinsPerTable := chunkBinsPerTable
  entrySize := entrySize
  indexSlotsPerBin := (entrySize / 15).toUInt16
  indexSlotSize := 15
  indexK := 75
  chunkK := 80
  merkleArity := (entrySize / 32).toUInt16
  merkleHashBytes := 32

def validate (l : OnionQueryLayoutV2) : Result Unit := do
  require (¬(l.totalPackedEntries = 0 ∨ l.indexBinsPerTable = 0 ∨ l.chunkBinsPerTable = 0 ∨
    l.entrySize = 0)) (.malformed "zero Onion query dimension")
  require (¬(l.indexK ≠ 75 ∨ l.chunkK ≠ 80)) (.malformed "unexpected Onion K")
  require (¬(l.indexSlotSize ≠ 15 ∨
    l.indexSlotsPerBin.toUInt32 * l.indexSlotSize.toUInt32 > l.entrySize ∨
    l.indexSlotsPerBin.toUInt32 ≠ l.entrySize / l.indexSlotSize.toUInt32))
    (.malformed "invalid Onion index slot geometry")
  require (¬(l.merkleHashBytes ≠ 32 ∨
    l.merkleArity.toUInt32 * l.merkleHashBytes.toUInt32 ≠ l.entrySize))
    (.malformed "invalid Onion Merkle geometry")

end OnionQueryLayoutV2

/-- The parameters a version 2 build was made with. -/
structure BuildParamsV2 where
  indexBinsPerTable : UInt32
  chunkBinsPerTable : UInt32
  onion : OnionQueryLayoutV2

/-- `32 - leading_zeros(bins - 1)`: the number of bits of `bins - 1`. -/
def attestDpfN (bins : UInt32) : UInt8 :=
  if bins ≤ 2 then 1 else UInt8.ofNat (Nat.size (bins - 1).toNat)

def encodeTableParams (k pbcNumHashes : ℕ) (bins : UInt32) (slots cuckooHashes slotSize : ℕ)
    (hasTagSeed : Bool) : Bytes :=
  leBytes 2 k ++ leBytes 2 pbcNumHashes ++ leBytes 4 bins.toNat ++ leBytes 2 slots ++
    leBytes 2 cuckooHashes ++ leBytes 2 slotSize ++ [attestDpfN bins] ++
    leBytes 8 (if k = 75 then 0xBA7CC000C0000004 else 0xBA7CC000C0000002) ++
    leBytes 2 (if k = 75 then 40 else 32) ++ [if hasTagSeed then 1 else 0]

def BuildParamsV2.encode (p : BuildParamsV2) : Bytes :=
  leBytes 2 2 ++ [68, 20, 32, 25, 40, 1].flatMap (leBytes 2) ++
    encodeTableParams 75 3 p.indexBinsPerTable 4 2 13 true ++
    encodeTableParams 80 3 p.chunkBinsPerTable 3 2 44 false ++
    leBytes 4 p.onion.entrySize.toNat ++
    [27, p.onion.indexSlotSize.toNat, p.onion.indexSlotsPerBin.toNat, p.onion.chunkK.toNat, 8,
      p.onion.merkleHashBytes.toNat, 0].flatMap (leBytes 2) ++
    leBytes 4 p.onion.totalPackedEntries.toNat ++ leBytes 4 p.onion.indexBinsPerTable.toNat ++
    leBytes 4 p.onion.chunkBinsPerTable.toNat

def BuildParamsV2.paramsHash (H : Bytes → Hash256) (p : BuildParamsV2) : Hash256 :=
  H (toUtf8 "BPIR_BUILD_PARAMS_V2\x00" ++ p.encode)

/-! ## Evidence -/

inductive EvidenceMode
  | fullBuild
  | reattestExisting
  deriving DecidableEq

def evidenceVersionV1 : UInt16 := 1

def evidenceVersionV2 : UInt16 := 2

def maxStringLen : ℕ := 4096

def maxMeasurementLen : ℕ := 4096

/-- The part of the evidence that only version 2 encodes. -/
structure EvidenceV2 where
  evidenceMode : EvidenceMode
  predecessorEvidenceSha256 : Option Hash256
  predecessorReportSha256 : Option Hash256
  onionLayoutV2 : Option OnionQueryLayoutV2
  deriving DecidableEq

structure BuildEvidence extends EvidenceV2 where
  version : UInt16
  builderGitCommit : String
  builderBinarySha256 : Hash256
  teePlatform : String
  teeImageMeasurement : Bytes
  coreVersion : String
  snapshotSha256 : Hash256
  snapshotBytes : UInt64
  networkMagic : Digest 4
  buildKind : BuildKind
  fromAnchor : AttestedChainAnchor
  anchor : AttestedChainAnchor
  utxoMuhash : Hash256
  dustThresholdSats : UInt64
  maxUtxosPerSpk : UInt32
  paramsHash : Hash256
  indexBinsPerTable : UInt32
  chunkBinsPerTable : UInt32
  onionEntrySize : UInt32
  bucketSuperRoot : Hash256
  onionSuperRoot : Hash256
  rootBundlePayloadSha256 : Hash256
  signedRootBundleSha256 : Option Hash256
  databaseManifestSha256 : Hash256
  allArtifactsManifestSha256 : Hash256
  serverDbManifestSha256 : Hash256
  deriving DecidableEq

def validateMetadataString (name value : String) : Result Unit := do
  require ((toUtf8 value).length ≤ maxStringLen)
    (.message s!"{name} too long: {(toUtf8 value).length} bytes")
  require (∀ b ∈ toUtf8 value, b ≠ 10 ∧ b ≠ 13 ∧ b ≠ 0)
    (.message s!"{name} must not contain newline or NUL")

/-! ## Encoding -/

def putBytesWithU16Len (bytes : Bytes) : Result Bytes := do
  require (bytes.length < 2 ^ 16) (.message s!"byte field too large: {bytes.length} bytes")
  return leBytes 2 bytes.length ++ bytes

def putString (value : String) : Result Bytes := do
  validateMetadataString "string" value
  putBytesWithU16Len (toUtf8 value)

def putAnchor (anchor : AttestedChainAnchor) : Bytes :=
  anchor.blockHash.val ++ leBytes 4 anchor.height.toNat

def putOption : Option Hash256 → Bytes
  | none => [0]
  | some h => 1 :: h.val

def buildKindToByte : BuildKind → UInt8
  | .snapshot => 0
  | .delta => 1

def evidenceModeToByte : EvidenceMode → UInt8
  | .fullBuild => 0
  | .reattestExisting => 1

def reattestError : DbAttestError :=
  .malformed "reattest_existing evidence requires predecessor evidence and report digests"

/-- Evidence that re-attests an existing database names its predecessor. -/
def NamesPredecessor (mode : EvidenceMode) (evidence report : Option Hash256) : Prop :=
  mode = .reattestExisting → evidence ≠ none ∧ report ≠ none

instance (mode : EvidenceMode) (evidence report : Option Hash256) :
    Decidable (NamesPredecessor mode evidence report) :=
  inferInstanceAs (Decidable (_ → _))

/-- The bytes only version 2 has. The slot geometry and the entry size of the layout are not
among them. -/
def EvidenceV2.encode (v : EvidenceV2) : Result Bytes :=
  match v.onionLayoutV2 with
  | none => .error (.malformed "v2 evidence missing Onion layout")
  | some layout => do
    layout.validate
    require (NamesPredecessor v.evidenceMode v.predecessorEvidenceSha256
      v.predecessorReportSha256) reattestError
    return evidenceModeToByte v.evidenceMode :: (putOption v.predecessorEvidenceSha256 ++
      putOption v.predecessorReportSha256 ++ leBytes 4 layout.totalPackedEntries.toNat ++
      leBytes 4 layout.indexBinsPerTable.toNat ++ leBytes 4 layout.chunkBinsPerTable.toNat)

/-- What follows the common fields: nothing in version 1. -/
def EvidenceV2.encodeVersioned (v : EvidenceV2) (version : UInt16) :
    Result Bytes :=
  if version = evidenceVersionV2 then v.encode else .ok []

def KnownVersion (version : UInt16) : Prop :=
  version = evidenceVersionV1 ∨ version = evidenceVersionV2

instance (version : UInt16) : Decidable (KnownVersion version) :=
  inferInstanceAs (Decidable (_ ∨ _))

def BuildEvidence.encode (ev : BuildEvidence) : Result Bytes := do
  validateMetadataString "builder_git_commit" ev.builderGitCommit
  validateMetadataString "tee_platform" ev.teePlatform
  validateMetadataString "core_version" ev.coreVersion
  require (ev.teeImageMeasurement.length ≤ maxMeasurementLen)
    (.message s!"tee_image_measurement too large: {ev.teeImageMeasurement.length} bytes")
  require (KnownVersion ev.version) (.message s!"unsupported evidence version: {ev.version}")
  let builderGitCommit ← putString ev.builderGitCommit
  let teePlatform ← putString ev.teePlatform
  let teeImageMeasurement ← putBytesWithU16Len ev.teeImageMeasurement
  let coreVersion ← putString ev.coreVersion
  let v2 ← ev.toEvidenceV2.encodeVersioned ev.version
  return leBytes 2 ev.version.toNat ++ (builderGitCommit ++ (ev.builderBinarySha256.val ++
    (teePlatform ++ (teeImageMeasurement ++ (coreVersion ++ (ev.snapshotSha256.val ++
    (leBytes 8 ev.snapshotBytes.toNat ++ (ev.networkMagic.val ++
    (buildKindToByte ev.buildKind :: (putAnchor ev.fromAnchor ++ (putAnchor ev.anchor ++
    (ev.utxoMuhash.val ++ (leBytes 8 ev.dustThresholdSats.toNat ++
    (leBytes 4 ev.maxUtxosPerSpk.toNat ++ (ev.paramsHash.val ++
    (leBytes 4 ev.indexBinsPerTable.toNat ++ (leBytes 4 ev.chunkBinsPerTable.toNat ++
    (leBytes 4 ev.onionEntrySize.toNat ++ (ev.bucketSuperRoot.val ++ (ev.onionSuperRoot.val ++
    (ev.rootBundlePayloadSha256.val ++ (putOption ev.signedRootBundleSha256 ++
    (ev.databaseManifestSha256.val ++ (ev.allArtifactsManifestSha256.val ++
    (ev.serverDbManifestSha256.val ++ v2)))))))))))))))))))))))))

/-! ## Decoding -/

def takeBytesWithU16Len (what : String) : Reader DbAttestError Bytes := do
  let len ← takeU16 (.malformed what)
  take len.toNat (.malformed what)

def stringFromUtf8 (what : String) (bytes : Bytes) : Result String :=
  match fromUtf8 bytes with
  | none => .error (.message s!"{what} is not UTF-8")
  | some value => .ok value

def takeString (what : String) : Reader DbAttestError String := do
  let bytes ← takeBytesWithU16Len what
  let value ← lift (stringFromUtf8 what bytes)
  lift (validateMetadataString what value)
  return value

def takeAnchor (what : String) : Reader DbAttestError AttestedChainAnchor := do
  let blockHash ← takeArr 32 (.malformed what)
  let height ← takeU32 (.malformed what)
  return ⟨blockHash, height⟩

def takeOption (tag what bad : String) : Reader DbAttestError (Option Hash256) := do
  let b ← takeU8 (.malformed tag)
  if b = 0 then return none
  else if b = 1 then return some (← takeArr 32 (.malformed what))
  else lift (.error (.malformed bad))

def byteToBuildKind (b : UInt8) : Result BuildKind :=
  if b = 0 then .ok .snapshot
  else if b = 1 then .ok .delta
  else .error (.message s!"unknown build kind: {b}")

def byteToEvidenceMode (b : UInt8) : Result EvidenceMode :=
  if b = 0 then .ok .fullBuild
  else if b = 1 then .ok .reattestExisting
  else .error (.malformed "unknown evidence mode")

/-- The version 2 fields; the layout is completed from the entry size read before. -/
def takeEvidenceV2 (onionEntrySize : UInt32) : Reader DbAttestError EvidenceV2 := do
  let modeByte ← takeU8 (.malformed "evidence_mode")
  let evidenceMode ← lift (byteToEvidenceMode modeByte)
  let predecessor ← takeOption "has_predecessor_evidence" "predecessor_evidence_sha256"
    "bad predecessor evidence option tag"
  let predecessorReport ← takeOption "has_predecessor_report" "predecessor_report_sha256"
    "bad predecessor report option tag"
  ensure (NamesPredecessor evidenceMode predecessor predecessorReport) reattestError
  let totalPackedEntries ← takeU32 (.malformed "onion_total_packed_entries")
  let indexBinsPerTable ← takeU32 (.malformed "onion_index_bins_per_table")
  let chunkBinsPerTable ← takeU32 (.malformed "onion_chunk_bins_per_table")
  let layout := OnionQueryLayoutV2.current totalPackedEntries indexBinsPerTable
    chunkBinsPerTable onionEntrySize
  lift layout.validate
  return ⟨evidenceMode, predecessor, predecessorReport, some layout⟩

/-- What follows the common fields: nothing in version 1. -/
def takeVersioned (version : UInt16) (onionEntrySize : UInt32) :
    Reader DbAttestError EvidenceV2 :=
  if version = evidenceVersionV2 then takeEvidenceV2 onionEntrySize
  else pure ⟨.fullBuild, none, none, none⟩

def takeEvidence : Reader DbAttestError BuildEvidence := do
  let version ← takeU16 (.malformed "version")
  ensure (KnownVersion version) (.message s!"unsupported evidence version: {version}")
  let builderGitCommit ← takeString "builder_git_commit"
  let builderBinarySha256 ← takeArr 32 (.malformed "builder_binary_sha256")
  let teePlatform ← takeString "tee_platform"
  let teeImageMeasurement ← takeBytesWithU16Len "tee_image_measurement"
  let coreVersion ← takeString "core_version"
  let snapshotSha256 ← takeArr 32 (.malformed "snapshot_sha256")
  let snapshotBytes ← takeU64 (.malformed "snapshot_bytes")
  let networkMagic ← takeArr 4 (.malformed "network_magic")
  let kindByte ← takeU8 (.malformed "build_kind")
  let buildKind ← lift (byteToBuildKind kindByte)
  let fromAnchor ← takeAnchor "from_anchor"
  let anchor ← takeAnchor "anchor"
  let utxoMuhash ← takeArr 32 (.malformed "utxo_muhash")
  let dustThresholdSats ← takeU64 (.malformed "dust_threshold_sats")
  let maxUtxosPerSpk ← takeU32 (.malformed "max_utxos_per_spk")
  let paramsHash ← takeArr 32 (.malformed "params_hash")
  let indexBinsPerTable ← takeU32 (.malformed "index_bins_per_table")
  let chunkBinsPerTable ← takeU32 (.malformed "chunk_bins_per_table")
  let onionEntrySize ← takeU32 (.malformed "onion_entry_size")
  let bucketSuperRoot ← takeArr 32 (.malformed "bucket_super_root")
  let onionSuperRoot ← takeArr 32 (.malformed "onion_super_root")
  let rootBundlePayloadSha256 ← takeArr 32 (.malformed "root_bundle_payload_sha256")
  let signedRootBundleSha256 ← takeOption "has_signed_root_bundle" "signed_root_bundle_sha256"
    "bad signed root bundle option tag"
  let databaseManifestSha256 ← takeArr 32 (.malformed "database_manifest_sha256")
  let allArtifactsManifestSha256 ←
    takeArr 32 (.malformed "all_artifacts_manifest_sha256")
  let serverDbManifestSha256 ← takeArr 32 (.malformed "server_db_manifest_sha256")
  let v2 ← takeVersioned version onionEntrySize
  return {
    toEvidenceV2 := v2
    version, builderGitCommit, builderBinarySha256, teePlatform, teeImageMeasurement,
    coreVersion, snapshotSha256, snapshotBytes, networkMagic, buildKind, fromAnchor, anchor,
    utxoMuhash, dustThresholdSats, maxUtxosPerSpk, paramsHash, indexBinsPerTable,
    chunkBinsPerTable, onionEntrySize, bucketSuperRoot, onionSuperRoot,
    rootBundlePayloadSha256, signedRootBundleSha256, databaseManifestSha256,
    allArtifactsManifestSha256, serverDbManifestSha256 }

def BuildEvidence.decode (bytes : Bytes) : Result BuildEvidence := do
  let (evidence, rest) ← takeEvidence bytes
  require (rest = []) (.malformed "trailing bytes")
  validateMetadataString "builder_git_commit" evidence.builderGitCommit
  validateMetadataString "tee_platform" evidence.teePlatform
  validateMetadataString "core_version" evidence.coreVersion
  require (evidence.teeImageMeasurement.length ≤ maxMeasurementLen)
    (.message "tee_image_measurement too large")
  return evidence

/-! ## The byte format

Each reader undoes the corresponding writer: it succeeds exactly when its input begins with the
bytes the writer makes of the result. -/

theorem validateMetadataString_eq_ok {name value : String} {u : Unit} :
    validateMetadataString name value = .ok u ↔
      (toUtf8 value).length ≤ maxStringLen ∧ ∀ b ∈ toUtf8 value, b ≠ 10 ∧ b ≠ 13 ∧ b ≠ 0 := by
  unfold validateMetadataString
  rw [bind_eq_ok]
  simp only [require_eq_ok, exists_const]

theorem putBytesWithU16Len_eq_ok {x enc : Bytes} :
    putBytesWithU16Len x = .ok enc ↔ x.length < 2 ^ 16 ∧ enc = leBytes 2 x.length ++ x := by
  simp only [putBytesWithU16Len, bind_eq_ok, require_eq_ok, exists_const]
  exact and_congr_right fun _ => ⟨fun h => (Except.ok.inj h).symm, fun h => h ▸ rfl⟩

variable {what : String} {b r : Bytes}

theorem takeBytesWithU16Len_eq_ok {x : Bytes} :
    takeBytesWithU16Len what b = .ok (x, r) ↔
      ∃ enc, putBytesWithU16Len x = .ok enc ∧ b = enc ++ r := by
  simp only [takeBytesWithU16Len, Reader.bind_eq_ok, takeU16_eq_ok, take_eq_ok,
    putBytesWithU16Len_eq_ok]
  constructor
  · rintro ⟨len, _, rfl, rfl, hx⟩
    exact ⟨_, ⟨hx ▸ len.toNat_lt, rfl⟩, by rw [hx, List.append_assoc]⟩
  · rintro ⟨_, ⟨hlt, rfl⟩, rfl⟩
    have hlen : (UInt16.ofNat x.length).toNat = x.length := UInt16.toNat_ofNat_of_lt' hlt
    exact ⟨UInt16.ofNat x.length, x ++ r, by rw [hlen, List.append_assoc], rfl, hlen.symm⟩

theorem stringFromUtf8_eq_ok {value : String} {bytes : Bytes} :
    stringFromUtf8 what bytes = .ok value ↔ bytes = toUtf8 value := by
  unfold stringFromUtf8
  constructor
  · intro h
    cases hf : fromUtf8 bytes with
    | none => simp [hf] at h
    | some v =>
      rw [hf] at h
      cases h
      exact (toUtf8_of_fromUtf8 hf).symm
  · rintro rfl
    rw [fromUtf8_toUtf8]

/-- A string is validated under one name when it is written and under another when it is read;
only the error differs. -/
theorem takeString_eq_ok {value : String} :
    takeString what b = .ok (value, r) ↔ ∃ enc, putString value = .ok enc ∧ b = enc ++ r := by
  simp only [takeString, putString, Reader.bind_eq_ok, lift_eq_ok, pure_eq_ok,
    bind_eq_ok, takeBytesWithU16Len_eq_ok, stringFromUtf8_eq_ok, validateMetadataString_eq_ok]
  constructor
  · rintro ⟨_, _, ⟨enc, henc, rfl⟩, _, _, ⟨rfl, rfl⟩, u, _, ⟨hvalid, rfl⟩, rfl, rfl⟩
    exact ⟨enc, ⟨u, hvalid, henc⟩, rfl⟩
  · rintro ⟨enc, ⟨u, hvalid, henc⟩, rfl⟩
    exact ⟨_, _, ⟨enc, henc, rfl⟩, _, _, ⟨rfl, rfl⟩, u, _, ⟨hvalid, rfl⟩, rfl, rfl⟩

theorem takeAnchor_eq_ok {a : AttestedChainAnchor} :
    takeAnchor what b = .ok (a, r) ↔ b = putAnchor a ++ r := by
  simp only [takeAnchor, putAnchor, Reader.bind_eq_ok, takeArr_eq_ok, takeU32_eq_ok,
    pure_eq_ok, List.append_assoc]
  constructor
  · rintro ⟨blockHash, _, rfl, height, _, rfl, rfl, rfl⟩
    rfl
  · rintro rfl
    exact ⟨a.blockHash, _, rfl, a.height, _, rfl, rfl, rfl⟩

theorem takeOption_eq_ok {tag bad : String} {o : Option Hash256} :
    takeOption tag what bad b = .ok (o, r) ↔ b = putOption o ++ r := by
  simp only [takeOption, Reader.bind_eq_ok, takeU8_eq_ok]
  constructor
  · rintro ⟨t, b', rfl, hopt⟩
    split_ifs at hopt with h0 h1
    · obtain ⟨rfl, rfl⟩ := pure_eq_ok.1 hopt
      rw [h0]
      rfl
    · simp only [Reader.bind_eq_ok, takeArr_eq_ok, pure_eq_ok] at hopt
      obtain ⟨d, _, rfl, rfl, rfl⟩ := hopt
      rw [h1]
      rfl
    · cases (lift_eq_ok.1 hopt).1
  · rintro rfl
    cases o with
    | none => exact ⟨0, r, rfl, pure_eq_ok.2 ⟨rfl, rfl⟩⟩
    | some d =>
      refine ⟨1, d.val ++ r, rfl, ?_⟩
      exact Reader.bind_eq_ok.2
        ⟨d, r, takeArr_eq_ok.2 rfl, pure_eq_ok.2 ⟨rfl, rfl⟩⟩

theorem byteToBuildKind_eq_ok {b : UInt8} {kind : BuildKind} :
    byteToBuildKind b = .ok kind ↔ b = buildKindToByte kind := by
  unfold byteToBuildKind
  constructor
  · intro h
    split_ifs at h with h0 h1
    · cases h
      exact h0
    · cases h
      exact h1
  · rintro rfl
    cases kind <;> rfl

theorem byteToEvidenceMode_eq_ok {b : UInt8} {mode : EvidenceMode} :
    byteToEvidenceMode b = .ok mode ↔ b = evidenceModeToByte mode := by
  unfold byteToEvidenceMode
  constructor
  · intro h
    split_ifs at h with h0 h1
    · cases h
      exact h0
    · cases h
      exact h1
  · rintro rfl
    cases mode <;> rfl

/-- What the version 2 bytes leave out is determined by the entry size. -/
def EvidenceV2.LayoutIsCurrent (v : EvidenceV2) (onionEntrySize : UInt32) : Prop :=
  ∃ total indexBins chunkBins,
    v.onionLayoutV2 = some (.current total indexBins chunkBins onionEntrySize)

theorem takeEvidenceV2_eq_ok {onionEntrySize : UInt32} {v : EvidenceV2} :
    takeEvidenceV2 onionEntrySize b = .ok (v, r) ↔
      v.LayoutIsCurrent onionEntrySize ∧ ∃ enc, v.encode = .ok enc ∧ b = enc ++ r := by
  simp only [takeEvidenceV2, Reader.bind_eq_ok, lift_eq_ok, ensure_eq_ok,
    takeU8_eq_ok, takeU32_eq_ok, pure_eq_ok, takeOption_eq_ok,
    byteToEvidenceMode_eq_ok]
  constructor
  · rintro ⟨_, _, rfl, mode, _, ⟨rfl, rfl⟩, pre, _, rfl, rep, _, rfl, u, _, ⟨hnames, rfl⟩,
      total, _, rfl, indexBins, _, rfl, chunkBins, _, rfl, u', _, ⟨hvalid, rfl⟩, rfl, rfl⟩
    refine ⟨⟨total, indexBins, chunkBins, rfl⟩, _,
      bind_eq_ok.2 ⟨u', hvalid, bind_eq_ok.2 ⟨(), require_eq_ok.2 hnames, rfl⟩⟩, ?_⟩
    simp only [OnionQueryLayoutV2.current, List.cons_append, List.append_assoc]
  · rintro ⟨⟨total, indexBins, chunkBins, hlayout⟩, enc, henc, rfl⟩
    obtain ⟨mode, pre, rep, _⟩ := v
    cases hlayout
    simp only [EvidenceV2.encode, bind_eq_ok, require_eq_ok, exists_const] at henc
    obtain ⟨u, hvalid, hnames, henc⟩ := henc
    cases henc
    refine ⟨_, _, rfl, mode, _, ⟨rfl, rfl⟩, pre, _, ?_, rep, _, rfl, u, _, ⟨hnames, rfl⟩, total,
      _, rfl, indexBins, _, rfl, chunkBins, _, rfl, u, _, ⟨hvalid, rfl⟩, rfl, rfl⟩
    simp only [OnionQueryLayoutV2.current, List.append_eq, List.append_assoc]

/-- The fields a version does not encode have the values its decoder gives them. -/
def BuildEvidence.Canonical (ev : BuildEvidence) : Prop :=
  if ev.version = evidenceVersionV2 then ev.LayoutIsCurrent ev.onionEntrySize
  else ev.toEvidenceV2 = ⟨.fullBuild, none, none, none⟩

theorem takeVersioned_eq_ok {version : UInt16} {onionEntrySize : UInt32} {v : EvidenceV2} :
    takeVersioned version onionEntrySize b = .ok (v, r) ↔
      (if version = evidenceVersionV2 then v.LayoutIsCurrent onionEntrySize
        else v = ⟨.fullBuild, none, none, none⟩) ∧
      ∃ enc, v.encodeVersioned version = .ok enc ∧ b = enc ++ r := by
  unfold takeVersioned EvidenceV2.encodeVersioned
  split_ifs
  · exact takeEvidenceV2_eq_ok
  · rw [pure_eq_ok]
    refine and_congr_right fun _ => ⟨?_, ?_⟩
    · rintro rfl
      exact ⟨[], rfl, rfl⟩
    · rintro ⟨_, h, rfl⟩
      cases h
      rfl

/-- **The evidence format is canonical**: a byte string decodes to exactly the canonical
evidence it is the encoding of. -/
theorem BuildEvidence.decode_eq_ok {ev : BuildEvidence} :
    BuildEvidence.decode b = .ok ev ↔ ev.Canonical ∧ ev.encode = .ok b := by
  obtain ⟨v2⟩ := ev
  -- the fields are read and written in one order; what is read of each determines its bytes
  simp only [decode, encode, takeEvidence, bind_eq_ok, Reader.bind_eq_ok, takeU8_eq_ok,
    takeU16_eq_ok, takeU32_eq_ok, takeU64_eq_ok, takeArr_eq_ok, ensure_eq_ok, lift_eq_ok,
    takeString_eq_ok, takeBytesWithU16Len_eq_ok, takeAnchor_eq_ok, takeOption_eq_ok,
    takeVersioned_eq_ok, byteToBuildKind_eq_ok, pure_eq_ok, require_eq_ok, return_eq_ok,
    exists_const, Prod.exists, ↓existsAndEq, mk.injEq, true_and, and_true, List.append_nil]
  constructor
  · rintro ⟨encV2, encCore, encMeasurement, encPlatform, encCommit, u₁, u₂, u₃, ⟨rfl, hversion,
      hencCommit, hencPlatform, hencMeasurement, hencCore, hcanonical, hencV2⟩, hcommit, hplatform,
      hcore, hmeasurement⟩
    exact ⟨hcanonical, u₁, hcommit, u₂, hplatform, u₃, hcore, hmeasurement, hversion, _, hencCommit,
      _, hencPlatform, _, hencMeasurement, _, hencCore, _, hencV2, rfl⟩
  · rintro ⟨hcanonical, u₁, hcommit, u₂, hplatform, u₃, hcore, hmeasurement, hversion, _, hencCommit,
      _, hencPlatform, _, hencMeasurement, _, hencCore, _, hencV2, rfl⟩
    exact ⟨_, _, _, _, _, u₁, u₂, u₃, ⟨rfl, hversion, hencCommit, hencPlatform, hencMeasurement,
      hencCore, hcanonical, hencV2⟩, hcommit, hplatform, hcore, hmeasurement⟩

end BitcoinPir.Trust
