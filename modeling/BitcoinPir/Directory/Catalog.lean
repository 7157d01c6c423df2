import BitcoinPir.Directory.Floors

/-!
# Verified relay views of the catalog

A client asks several relays for the catalog and keeps what each returned. The view a relay gives
of a shard is verified on its own: signatures, NIP-01 replacement, current validity, the stored
floors and membership in the checkpoint. Of the accepted views of a shard the newest is taken and
its floors are stored. A view or shard that fails is reported and the others go on.
-/

namespace BitcoinPir.Directory

open Foundations

/-- The stored floors: the hex of the encoded state of each provider, by the hex of its id, and of
each shard. -/
structure RollbackFloors where
  entries : String → Option String
  checkpoints : UInt8 → Option String

structure CatalogShard where
  shard : UInt8
  epoch : UInt64
  /-- Relay views that returned exactly this checkpoint. -/
  views : ℕ
  eventId : String
  deriving DecidableEq

structure CatalogEntry where
  providerId : String
  eventId : String
  directorySequence : UInt64
  validUntil : UInt64
  serverId : String
  operatorPubkey : String
  endpoints : List String
  health : HealthClass
  hints : List CatalogHint
  deriving DecidableEq

/-- A rejected view, or a whole shard if no relay is named. -/
structure CatalogRejection where
  relay : Option ℕ
  shard : Option UInt8
  reason : String
  deriving DecidableEq

structure DirectoryCatalog where
  /-- Earliest expiry over the accepted shards; 0 if there is none. -/
  validUntil : UInt64
  shards : List CatalogShard
  entries : List CatalogEntry
  rejected : List CatalogRejection
  /-- The floors after this refresh. -/
  state : RollbackFloors

/-- One relay's verified view of one shard. -/
structure ShardView where
  checkpoint : VerifiedCheckpointEvent
  entries : List VerifiedEntryEvent

/-- A shard view that passed the floors and the checkpoint membership. -/
structure AcceptedView where
  epoch : UInt64
  /-- Catalog root and event id of the checkpoint. -/
  checkpoint : Hash256 × Hash256
  validUntil : UInt64
  entries : List CatalogEntry
  checkpointFloor : Bytes
  entryFloors : List (Hash256 × Bytes)

/-- The displayed reason of a failure. -/
def reason {α : Type} (x : DirectoryResult α) : Except String α :=
  x.mapError DirectoryError.text

theorem reason_eq_ok {α : Type} {x : DirectoryResult α} {a : α} :
    reason x = .ok a ↔ x = .ok a := by
  cases x <;> simp [reason, Except.mapError]

/-! ## Verification of a view -/

def directoryReqSubscriptionPrefix : String := "bitcoinpir-directory-v1-shard-"

variable (lib : Library)

/-- The shard whose subscription a message answers. -/
def messageShard (command subscription : String) : Option ℕ :=
  ((List.range directoryShardCount).find? fun shard =>
    subscription == directoryReqSubscriptionPrefix ++ String.singleton (hexDigit shard)).filter
      fun _ => command == "EVENT"

/-- One relay's messages split by shard; each event keeps its exact text. -/
def eventsByShard (messages : List String) : Except String (List (List String)) :=
  messages.foldlM (fun shards message => do
    let (command, subscription, event) ←
      okOr (lib.relayMessage message) "relay sent a malformed EVENT message"
    let shard ← okOr (messageShard command subscription)
      "relay sent a message outside the catalog subscriptions"
    return shards.modify shard (· ++ [event])) (List.replicate directoryShardCount [])

def dTag (event : NostrEvent) : Except String String :=
  match event.tags.head? with
  | some [name, value] =>
    if name = "d" then .ok value else .error "directory event has no d tag"
  | _ => .error "directory event has no d tag"

/-- The newest event of every coordinate, with its text. -/
abbrev Heads := Std.TreeMap String (NostrEvent × String)

/-- Whether an event replaces the head of its coordinate. -/
def replacesHead (heads : Heads) (d : String) (event : NostrEvent) : Except String Bool :=
  match heads[d]? with
  | some (head, _) => do
    let order ← reason (event.nip01AddressableReplacementOrder head)
    return order == .gt
  | none => .ok true

def addHead (key : Hash256) (heads : Heads) (raw : String) : Except String Heads := do
  let event ← reason (NostrEvent.parseJson lib (toUtf8 raw))
  reason (event.verifyForDirectoryKey lib key)
  let d ← dTag event
  let newer ← replacesHead heads d event
  return if newer then heads.insert d (event, raw) else heads

/-- Verify one head in full and add it to the view. -/
def addVerified (shard : UInt8) (key : Hash256) (nowUnix : UInt64)
    (view : Option VerifiedCheckpointEvent × List VerifiedEntryEvent)
    (head : String × NostrEvent × String) :
    Except String (Option VerifiedCheckpointEvent × List VerifiedEntryEvent) :=
  if directoryCheckpointDPrefix.toList.isPrefixOf head.1.toList then do
    let verified ← reason (verifyDirectoryCheckpointEvent lib (toUtf8 head.2.2) key nowUnix)
    require (verified.checkpoint.shard = shard) "relay returned a checkpoint of another shard"
    return (some verified, view.2)
  else do
    let verified ← reason (verifyDirectoryEntryEvent lib (toUtf8 head.2.2) key nowUnix)
    return (view.1, view.2 ++ [verified])

/-- The head of every coordinate among the events of the pinned key, each verified in full. -/
def verifyShardView (events : List String) (shard : UInt8) (key : Hash256) (nowUnix : UInt64) :
    Except String ShardView := do
  let heads ← events.foldlM (addHead lib key) (∅ : Heads)
  let view ← heads.toList.foldlM (addVerified lib shard key nowUnix) (none, [])
  let checkpoint ← okOr view.1 "relay returned no checkpoint"
  return { checkpoint, entries := view.2 }

/-! ## Acceptance of a view -/

def decodeFloor {S : Type} (decode : Bytes → DirectoryResult S) (floor : String) :
    Except String S := do
  let bytes ← (decodeLowerHexVec floor).mapError
    fun _ => "stored directory rollback floor is not hex"
  reason (decode bytes)

abbrev PersistedEntry := Persisted VerifiedEntryEvent EntryRollbackState

abbrev PersistedCheckpoint := Persisted VerifiedCheckpointEvent CheckpointRollbackState

/-- Accept an entry against the floor of its provider; the encoded new floor is returned with it. -/
def acceptEntry (floors : RollbackFloors) (verified : VerifiedEntryEvent) :
    Except String (PersistedEntry × Bytes) := do
  let current ← (floors.entries (lowerHex verified.entry.providerId.val)).mapM
    (decodeFloor EntryRollbackState.decode)
  let entry ← reason (prepareDirectoryEntryAcceptance verified current)
  let floor ← reason entry.successorState.encode
  let persisted ← reason (entry.confirmDurableState EntryRollbackState.decode floor)
  return (persisted, floor)

/-- Accept a checkpoint against the floor of its shard. -/
def acceptCheckpoint (floors : RollbackFloors) (verified : VerifiedCheckpointEvent) :
    Except String (PersistedCheckpoint × Bytes) := do
  let current ← (floors.checkpoints verified.checkpoint.shard).mapM
    (decodeFloor CheckpointRollbackState.decode)
  let checkpoint ← reason (prepareDirectoryCheckpointAcceptance verified current)
  let floor ← reason checkpoint.successorState.encode
  let persisted ← reason (checkpoint.confirmDurableState CheckpointRollbackState.decode floor)
  return (persisted, floor)

/-- The entries in the order of the checkpoint, if they are exactly the listed ones. -/
def bindPersistedDirectoryShardCatalog (checkpoint : PersistedCheckpoint)
    (entries : List PersistedEntry) : DirectoryResult (List PersistedEntry) := do
  let committed := checkpoint.verified.checkpoint
  require (entries.length = committed.entries.length) .catalogEntrySetMismatch
  let sorted := entries.insertionSort fun a b =>
    a.verified.entry.providerId.val ≤ b.verified.entry.providerId.val
  require (∀ pair ∈ sorted.zip committed.entries,
    pair.1.verified.event.pubkey = checkpoint.verified.event.pubkey ∧
      pair.1.verified.shard = committed.shard ∧
      pair.1.verified.entry.providerId = pair.2.providerId ∧
      pair.1.verified.entry.directorySequence = pair.2.directorySequence ∧
      pair.1.verified.event.id = pair.2.eventId) .catalogEntrySetMismatch
  return sorted

def catalogEntry (verified : VerifiedEntryEvent) : Option CatalogEntry := do
  let assertion ← verified.entry.operatorAssertion
  return { providerId := lowerHex verified.entry.providerId.val
           eventId := lowerHex verified.event.id.val
           directorySequence := verified.entry.directorySequence
           validUntil := verified.entry.directoryValidUntil
           serverId := assertion.stableServerId
           operatorPubkey := lowerHex assertion.operatorPubkeyEd25519.val
           endpoints := assertion.endpoints.map (·.url)
           health := verified.entry.health.cls
           hints := verified.entry.catalogHints }

def acceptView (view : ShardView) (floors : RollbackFloors) : Except String AcceptedView := do
  let (checkpoint, checkpointFloor) ← acceptCheckpoint floors view.checkpoint
  let entries ← view.entries.mapM (acceptEntry floors)
  let catalog ← reason (bindPersistedDirectoryShardCatalog checkpoint (entries.map Prod.fst))
  let committed := checkpoint.verified.checkpoint
  return { epoch := committed.checkpointEpoch
           checkpoint := (committed.catalogRoot, checkpoint.verified.event.id)
           validUntil := entries.foldl (fun acc entry =>
             min acc entry.1.verified.entry.directoryValidUntil) committed.validUntil
           entries := (catalog.filter fun entry =>
             entry.verified.entry.status = .active).filterMap fun entry => catalogEntry entry.verified
           checkpointFloor
           entryFloors := entries.map fun entry => (entry.1.verified.entry.providerId, entry.2) }

/-! ## Selection -/

/-- The epoch of the first view with a different checkpoint of its epoch among the later ones. -/
def splitViewEpoch : List AcceptedView → Option UInt64
  | [] => none
  | view :: views =>
    if views.any fun other => other.epoch == view.epoch && other.checkpoint != view.checkpoint then
      some view.epoch
    else splitViewEpoch views

/-- The highest epoch; 0 without views. -/
def newestEpoch : List AcceptedView → UInt64
  | [] => 0
  | view :: views => if newestEpoch views < view.epoch then view.epoch else newestEpoch views

/-- The newest accepted view of a shard and how many relay views returned it. Two checkpoints of one
epoch mean that the publisher signed a split view: the shard is rejected. -/
def selectView (views : List AcceptedView) : Except String (AcceptedView × ℕ) :=
  match splitViewEpoch views with
  | some epoch =>
    .error s!"relays returned different checkpoints at epoch {epoch} (split view)"
  | none =>
    let newest := views.filter fun view => view.epoch == newestEpoch views
    okOr (newest.getLast?.map fun view => (view, newest.length))
      "no relay returned a valid view of this shard"

/-! ## The whole catalog -/

variable (relays : List (List String)) (floors : RollbackFloors) (key : Hash256)
  (nowUnix : UInt64)

/-- What one relay's messages give for each shard. -/
def relayViews (messages : List String) : Except String (List (Except String AcceptedView)) := do
  let shards ← eventsByShard lib messages
  return shards.zipIdx.map fun shard => do
    let view ← verifyShardView lib shard.1 (UInt8.ofNat shard.2) key nowUnix
    acceptView view floors

/-- The accepted views of a shard, in the order of the relays. -/
def acceptedViews (shard : ℕ) : List AcceptedView :=
  relays.filterMap fun messages =>
    match relayViews lib floors key nowUnix messages with
    | .ok views => views[shard]?.bind Except.toOption
    | .error _ => none

def rejectedViews : List CatalogRejection :=
  relays.zipIdx.flatMap fun relay =>
    match relayViews lib floors key nowUnix relay.1 with
    | .ok views => views.zipIdx.filterMap fun view =>
      match view.1 with
      | .ok _ => none
      | .error text => some ⟨some relay.2, some (UInt8.ofNat view.2), text⟩
    | .error text => [⟨some relay.2, none, text⟩]

namespace RollbackFloors

def insertEntry (providerId : Hash256) (floor : Bytes) : RollbackFloors :=
  { floors with
    entries := Function.update floors.entries (lowerHex providerId.val) (some (lowerHex floor)) }

def insertCheckpoint (shard : UInt8) (floor : Bytes) : RollbackFloors :=
  { floors with checkpoints := Function.update floors.checkpoints shard (some (lowerHex floor)) }

/-- The floors with those of an accepted view of a shard. -/
def insertView (shard : UInt8) (view : AcceptedView) : RollbackFloors :=
  view.entryFloors.foldl (fun floors entry => floors.insertEntry entry.1 entry.2)
    (floors.insertCheckpoint shard view.checkpointFloor)

end RollbackFloors

/-- Add the selected view of a shard, or its rejection, to the catalog. -/
def addShard (views : ℕ → List AcceptedView) (catalog : DirectoryCatalog) (shard : ℕ) :
    DirectoryCatalog :=
  match selectView (views shard) with
  | .error text =>
    { catalog with rejected := catalog.rejected ++ [⟨none, some (UInt8.ofNat shard), text⟩] }
  | .ok (view, agreeing) =>
    let accepted : CatalogShard :=
      { shard := UInt8.ofNat shard, epoch := view.epoch, views := agreeing,
        eventId := lowerHex view.checkpoint.2.val }
    { validUntil := min catalog.validUntil view.validUntil
      shards := catalog.shards ++ [accepted]
      entries := catalog.entries ++ view.entries
      rejected := catalog.rejected
      state := catalog.state.insertView (UInt8.ofNat shard) view }

/-- The catalog before the first shard. -/
def DirectoryCatalog.start (rejected : List CatalogRejection) (floors : RollbackFloors) :
    DirectoryCatalog :=
  { validUntil := UInt64.ofNat (2 ^ 64 - 1), shards := [], entries := [], rejected, state := floors }

/-- Verify complete relay views of the catalog against the stored floors. -/
def verifyDirectoryCatalogViews : DirectoryCatalog :=
  let catalog := (List.range directoryShardCount).foldl
    (addShard (acceptedViews lib relays floors key nowUnix))
    (.start (rejectedViews lib relays floors key nowUnix) floors)
  if catalog.shards = [] then { catalog with validUntil := 0 } else catalog

end BitcoinPir.Directory
