import BitcoinPir.Directory.Events

/-!
# Catalog checkpoints

A checkpoint lists, for one shard and one epoch, the exact event of every provider entry. Its
entries are sorted by provider and all belong to the shard; its root commits to them.
-/

namespace BitcoinPir.Directory

open Foundations

def directoryCheckpointDPrefix : String := "bitcoinpir-service-directory-checkpoint-v1:"

def directoryCatalogRootDomain : Bytes :=
  toUtf8 "BitcoinPIR/directory-catalog-checkpoint-root/v1"

def maxDirectoryCheckpointEntries : ℕ := 1024

def maxDirectoryCheckpointValiditySeconds : ℕ := 31 * 24 * 60 * 60

/-- The version of a provider's entry that is current. -/
structure CheckpointEntry where
  providerId : Hash256
  directorySequence : UInt64
  eventId : Hash256
  deriving DecidableEq

/-- All current entries of a shard. -/
structure CatalogCheckpoint where
  shard : UInt8
  checkpointEpoch : UInt64
  notBefore : UInt64
  validUntil : UInt64
  entries : List CheckpointEntry
  catalogRoot : Hash256
  deriving DecidableEq

/-- A checkpoint with the event that carried it. -/
structure VerifiedCheckpointEvent where
  event : NostrEvent
  checkpoint : CatalogCheckpoint
  deriving DecidableEq

/-- `a` comes before `b` in the order of the checkpoint. -/
def CheckpointEntry.Before (a b : CheckpointEntry) : Prop := a.providerId.val < b.providerId.val

instance : DecidableRel CheckpointEntry.Before :=
  fun a b => List.decidableLT a.providerId.val b.providerId.val

/-- Entries of the shard, each provider once. -/
def validateCheckpointEntries (shard : UInt8) (entries : List CheckpointEntry) :
    DirectoryResult Unit := do
  require (entries.length ≤ maxDirectoryCheckpointEntries) .invalidCatalogRoot
  require (∀ entry ∈ entries, isZero entry.providerId = false ∧ isZero entry.eventId = false ∧
    entry.directorySequence ≠ 0 ∧ coarseShardForProvider entry.providerId = shard)
    .invalidCatalogRoot
  require (entries.IsChain CheckpointEntry.Before) .invalidCatalogRoot

variable (lib : Library)

/-- The hash that binds the entries to their window. -/
def catalogRootV1 (shard : UInt8) (checkpointEpoch notBefore validUntil : UInt64)
    (entries : List CheckpointEntry) : DirectoryResult Hash256 := do
  require (shard.toNat < directoryShardCount ∧ checkpointEpoch ≠ 0 ∧ notBefore ≠ 0 ∧
    notBefore ≤ validUntil) .invalidCatalogRoot
  validateCheckpointEntries shard entries
  return lib.sha256 (directoryCatalogRootDomain ++ [1, shard] ++ leBytes 8 checkpointEpoch.toNat ++
    leBytes 8 notBefore.toNat ++ leBytes 8 validUntil.toNat ++ leBytes 4 entries.length ++
    entries.flatMap fun entry =>
      entry.providerId.val ++ leBytes 8 entry.directorySequence.toNat ++ entry.eventId.val)

def checkpointDTagValue (shard : UInt8) : String :=
  if directoryShardCount ≤ shard.toNat then ""
  else directoryCheckpointDPrefix ++ String.singleton (hexDigit shard.toNat)

namespace CatalogCheckpoint

/-- The window, the entries and the root, at a time. -/
def validateCurrent (value : CatalogCheckpoint) (nowUnix : UInt64) : DirectoryResult Unit := do
  require (value.shard.toNat < directoryShardCount ∧ value.checkpointEpoch ≠ 0 ∧
    value.notBefore ≠ 0 ∧ value.notBefore ≤ nowUnix ∧ nowUnix ≤ value.validUntil ∧
    value.validUntil.toNat - value.notBefore.toNat ≤ maxDirectoryCheckpointValiditySeconds)
    .checkpointExpired
  validateCheckpointEntries value.shard value.entries
  let expected ← catalogRootV1 lib value.shard value.checkpointEpoch value.notBefore value.validUntil
    value.entries
  require (value.catalogRoot = expected) .invalidCatalogRoot

def canonicalJsonBytes (value : CatalogCheckpoint) : DirectoryResult Bytes := do
  let bytes := lib.checkpointToJson
    { v := 1, shard := value.shard, checkpointEpoch := value.checkpointEpoch,
      notBefore := value.notBefore, validUntil := value.validUntil,
      entries := value.entries.map fun entry =>
        { providerId := lowerHex entry.providerId.val,
          directorySequence := entry.directorySequence, eventId := lowerHex entry.eventId.val },
      catalogRoot := lowerHex value.catalogRoot.val }
  require (bytes.length ≤ maxNostrContentBytes) .inputTooLarge
  return bytes

/-- The content is text, so the source's check that its bytes are UTF-8 always passes. -/
def parseCanonicalJson (content : String) (nowUnix : UInt64) :
    DirectoryResult CatalogCheckpoint := do
  let bytes := toUtf8 content
  require (bytes ≠ [] ∧ bytes.length ≤ maxNostrContentBytes) .inputTooLarge
  let wire ← okOr (lib.checkpointFromJson bytes) .invalidJson
  require (lib.checkpointToJson wire = bytes) .nonCanonicalJson
  let entries ← wire.entries.mapM fun entry => do
    let providerId ← decodeLowerHex 32 entry.providerId
    let eventId ← decodeLowerHex 32 entry.eventId
    return { providerId, directorySequence := entry.directorySequence, eventId : CheckpointEntry }
  require (wire.v = 1) .unsupportedVersion
  let root ← decodeLowerHex 32 wire.catalogRoot
  let value : CatalogCheckpoint :=
    { shard := wire.shard, checkpointEpoch := wire.checkpointEpoch, notBefore := wire.notBefore,
      validUntil := wire.validUntil, entries, catalogRoot := root }
  value.validateCurrent lib nowUnix
  let canonical ← value.canonicalJsonBytes lib
  require (canonical = bytes) .nonCanonicalJson
  return value

end CatalogCheckpoint

/-- The event, its tags and the checkpoint in it, at a time. -/
def verifyDirectoryCheckpointEvent (eventJson : Bytes) (pinned : Hash256) (nowUnix : UInt64) :
    DirectoryResult VerifiedCheckpointEvent := do
  let event ← NostrEvent.parseJson lib eventJson
  event.verifyForDirectoryKey lib pinned
  require (event.createdAt ≠ 0 ∧ event.createdAt ≤ nowUnix) .checkpointExpired
  let checkpoint ← CatalogCheckpoint.parseCanonicalJson lib event.content nowUnix
  let (d, shard) ← event.exactDirectoryProfileTagValues.mapError fun _ => .invalidCheckpointTag
  require (d = checkpointDTagValue checkpoint.shard) .invalidCheckpointTag
  require (shard = shardTagValue checkpoint.shard) .invalidShard
  require (checkpoint.notBefore ≤ event.createdAt ∧ event.createdAt ≤ checkpoint.validUntil)
    .checkpointExpired
  return { event, checkpoint }

/-! ## What a verified checkpoint guarantees -/

/-- The checkpoint is signed by the pinned key, current, and its entries are in order and in the
shard. -/
structure VerifiedCheckpointEvent.Genuine (v : VerifiedCheckpointEvent) (pinned : Hash256)
    (nowUnix : UInt64) : Prop where
  signed : v.event.SignedBy lib pinned
  current : v.checkpoint.notBefore ≤ nowUnix ∧ nowUnix ≤ v.checkpoint.validUntil
  ordered : v.checkpoint.entries.IsChain CheckpointEntry.Before
  in_shard : ∀ entry ∈ v.checkpoint.entries,
    coarseShardForProvider entry.providerId = v.checkpoint.shard

variable {lib}

theorem validateCheckpointEntries_eq_ok {shard : UInt8} {entries : List CheckpointEntry}
    (h : validateCheckpointEntries shard entries = .ok ()) :
    entries.IsChain CheckpointEntry.Before ∧
      ∀ entry ∈ entries, coarseShardForProvider entry.providerId = shard := by
  obtain ⟨_, -, h⟩ := bind_eq_ok.1 h
  obtain ⟨_, hfields, hchain⟩ := bind_eq_ok.1 h
  rw [require_eq_ok] at hfields hchain
  exact ⟨hchain, fun entry hentry => (hfields entry hentry).2.2.2⟩

theorem verifyDirectoryCheckpointEvent_eq_ok {eventJson : Bytes} {pinned : Hash256}
    {nowUnix : UInt64} {v : VerifiedCheckpointEvent}
    (h : verifyDirectoryCheckpointEvent lib eventJson pinned nowUnix = .ok v) :
    v.Genuine lib pinned nowUnix := by
  simp only [verifyDirectoryCheckpointEvent, CatalogCheckpoint.parseCanonicalJson,
    CatalogCheckpoint.validateCurrent, bind_eq_ok, require_eq_ok, exists_const, return_eq_ok,
    Prod.exists] at h
  obtain ⟨event, -, _, hsigned, -, _, ⟨-, _, -, -, _, -, -, _, -, ⟨hwindow, _, hentries, -⟩, -, -, -,
    rfl⟩, -, -, -, -, -, -, rfl⟩ := h
  obtain ⟨hordered, hshard⟩ := validateCheckpointEntries_eq_ok hentries
  exact ⟨.of_verify hsigned, ⟨hwindow.2.2.2.1, hwindow.2.2.2.2.1⟩, hordered, hshard⟩

end BitcoinPir.Directory
