import BitcoinPir.Directory.RelayWire
import BitcoinPir.Foundations.Champions
import BitcoinPir.Foundations.Runs

/-!
# The archive of a directory relay

The relay keeps every event it accepted and, for each coordinate, the head: the event that replaces
the others. `ingest` is one transaction; `fullStartupValidation` checks the whole database when the
relay opens it.

`Db.Sound` is the invariant of every run (`runFrom_sound`). It gives the heads, the counters and the
catalog, and it gives that the database opens iff the health of every archived entry was observed by
the time the entry was created (`fullStartupValidation_eq_ok_iff`). Ingestion compares the health with
the time of receipt, so it does not ensure this.
-/

namespace BitcoinPir.Directory

open Foundations

def profileName : String := "bitcoinpir-directory-profile-v1"

def maxDirectoryEntriesPerShard : ℕ := 1024

def maxCatalogEventsPerShard : ℕ := 1025

def i64Max : ℕ := 2 ^ 63 - 1

/-- The configuration that `open_or_create` accepts. -/
structure StoreConfig where
  pinned : Hash256
  maxArchiveEvents : ℕ
  maxArchiveBytes : ℕ
  pinned_nonzero : isZero pinned = false
  events_range : 0 < maxArchiveEvents ∧ maxArchiveEvents ≤ i64Max
  bytes_range : 0 < maxArchiveBytes ∧ maxArchiveBytes ≤ i64Max

inductive IngestDisposition
  | saved
  | duplicate
  | replacedByNewer
  | shardCapacityExceeded
  | archiveCapacityExceeded
  | invalidCurrentEvent
  deriving DecidableEq

/-- The address of an event: key, kind and `d` tag. -/
abbrev Coordinate := Hash256 × UInt16 × String

/-! ## Tables -/

structure EventRow where
  eventId : Hash256
  pubkey : Hash256
  kind : UInt16
  createdAt : UInt64
  dTag : String
  sTag : String
  shard : UInt8
  profile : EventProfile
  eventJson : Bytes
  receivedAt : UInt64
  deriving DecidableEq

structure HeadRow where
  coordinate : Coordinate
  eventId : Hash256
  deriving DecidableEq

/-- The tables, with the one row of the metadata in fields. -/
structure Db where
  profile : String
  directoryPubkey : Hash256
  maxArchiveEvents : ℕ
  maxArchiveBytes : ℕ
  archiveEventCount : ℕ
  archiveBytes : ℕ
  events : List EventRow
  heads : List HeadRow

def EventRow.coordinate (row : EventRow) : Coordinate := (row.pubkey, row.kind, row.dTag)

def EventRow.head (row : EventRow) : HeadRow := { coordinate := row.coordinate, eventId := row.eventId }

/-- The class in which heads are counted. -/
def EventRow.group (row : EventRow) : UInt8 × EventProfile := (row.shard, row.profile)

def EventRow.ofEvent (event : ValidatedEvent) (receivedAt : UInt64) : EventRow :=
  { eventId := event.event.id, pubkey := event.event.pubkey, kind := event.event.kind,
    createdAt := event.event.createdAt, dTag := event.dTag, sTag := event.sTag,
    shard := event.shard, profile := event.profile, eventJson := event.canonicalJson, receivedAt }

/-- The checks of the columns. -/
def EventRow.Checked (row : EventRow) : Prop :=
  row.kind = bitcoinpirDirectoryKind ∧ 0 < row.createdAt ∧
    (1 ≤ row.dTag.length ∧ row.dTag.length ≤ 255) ∧ (1 ≤ row.sTag.length ∧ row.sTag.length ≤ 128) ∧
    row.shard ≤ 15 ∧ (1 ≤ row.eventJson.length ∧ row.eventJson.length ≤ 262144) ∧
    0 < row.receivedAt

instance (row : EventRow) : Decidable row.Checked :=
  inferInstanceAs (Decidable (_ ∧ _))

def Db.initial (config : StoreConfig) : Db :=
  { profile := profileName, directoryPubkey := config.pinned,
    maxArchiveEvents := config.maxArchiveEvents, maxArchiveBytes := config.maxArchiveBytes,
    archiveEventCount := 0, archiveBytes := 0, events := [], heads := [] }

def Db.rowById (db : Db) (id : Hash256) : Option EventRow :=
  db.events.find? fun row => row.eventId = id

/-- `address_heads JOIN events USING (event_id)`. -/
def Db.headRows (db : Db) : List EventRow :=
  db.heads.filterMap fun head => db.rowById head.eventId

/-! ## Ingestion -/

def capacity : EventProfile → ℕ
  | .entry => maxDirectoryEntriesPerShard
  | .checkpoint => 1

/-- Insert the row, advance the counters, and insert or update the head. -/
def Db.archive (db : Db) (row : EventRow) : Except String Db := do
  require row.Checked "archive EVENT failed"
  require (∀ head ∈ db.heads, head.coordinate ≠ row.coordinate → head.eventId ≠ row.eventId)
    "advance address head failed"
  return { db with
    events := db.events ++ [row]
    archiveEventCount := db.archiveEventCount + 1
    archiveBytes := db.archiveBytes + row.eventJson.length
    heads := upsert HeadRow.coordinate db.heads row.head }

variable (lib : RelayLibrary) (config : StoreConfig)

/-- Whether the event replaces what is stored at its coordinate. -/
def replaces (event : ValidatedEvent) (current : Option EventRow) : Except String Bool :=
  match current with
  | none => .ok true
  | some row => do
    -- The second attempt of the source reads the same bytes, and the time it passes is not used.
    let current ← validateEventJson lib config.pinned row.eventJson
    let order ← (event.event.nip01AddressableReplacementOrder current.event).mapError fun error =>
      s!"compare addressable EVENT failed: {error.text}"
    return order = .gt

/-- What a transaction decides, its name where the commit fails, and the tables it would commit. -/
def ingestDecision (db : Db) (event : ValidatedEvent) (receivedAt : UInt64) :
    Except String (IngestDisposition × String × Db) :=
  match db.rowById event.event.id with
  | some row => do
    require (row.eventJson = event.canonicalJson) "stored EVENT id maps to different bytes"
    return (.duplicate, "duplicate EVENT", db)
  | none =>
    if receivedAt = 0 ∨ receivedAt < event.event.createdAt then
      .ok (.invalidCurrentEvent, "invalid EVENT time decision", db)
    else do
      require (event.event.createdAt.toNat ≤ i64Max) "EVENT timestamp exceeds SQLite range"
      require (receivedAt.toNat ≤ i64Max) "receive timestamp exceeds SQLite range"
      match validateCurrentEventProfile lib config.pinned event receivedAt with
      | .error _ => return (.invalidCurrentEvent, "invalid EVENT decision", db)
      | .ok _ =>
        let row := EventRow.ofEvent event receivedAt
        let current := (db.heads.find? fun head => head.coordinate = row.coordinate).bind
          fun head => db.rowById head.eventId
        let newer ← replaces lib config event current
        if newer = false then return (.replacedByNewer, "replaced EVENT decision", db)
        else if current = none ∧
            capacity event.profile ≤ db.headRows.countP fun head => head.group = row.group then
          return (.shardCapacityExceeded, "shard-capacity decision", db)
        else if config.maxArchiveEvents ≤ db.archiveEventCount ∨
            config.maxArchiveBytes < db.archiveBytes + row.eventJson.length then
          return (.archiveCapacityExceeded, "archive-capacity decision", db)
        else do
          let db' ← db.archive row
          return (.saved, "EVENT", db')

/-- One call; the transaction is rolled back where anything fails, the commit included. -/
def ingest (db : Db) (event : ValidatedEvent) (receivedAt : UInt64) (commit : Except String Unit) :
    Except String IngestDisposition × Db :=
  match ingestDecision lib config db event receivedAt with
  | .error error => (.error error, db)
  | .ok (disposition, name, db') =>
    match commit with
    | .error error => (.error s!"commit {name} failed: {error}", db)
    | .ok _ => (.ok disposition, db')

/-- Bytes that a publisher sends, when they arrive, and what the commit returns. -/
structure IngestCall where
  eventJson : Bytes
  receivedAt : UInt64
  commit : Except String Unit

/-- The tables after a call; bytes that are not an event of the directory do not reach the store. -/
def ingestCall (db : Db) (call : IngestCall) : Db :=
  match validateEventJson lib config.pinned call.eventJson with
  | .error _ => db
  | .ok event => (ingest lib config db event call.receivedAt call.commit).2

/-! ## The catalog of a shard -/

structure SnapshotPlan where
  eventIds : List Hash256
  eventJsonBytes : ℕ

/-- `ORDER BY e.d_tag, e.event_id`. -/
def catalogOrder (a b : EventRow) : Bool :=
  ((compare (toUtf8 a.dTag) (toUtf8 b.dTag)).then (compare a.eventId.val b.eventId.val)).isLE

def catalogSnapshotIds (db : Db) (shard : UInt8) : Except String SnapshotPlan := do
  require (shard.toNat < directoryShardCount) "catalog shard is invalid"
  let rows := (db.headRows.filter fun row =>
    row.pubkey = config.pinned ∧ row.kind = bitcoinpirDirectoryKind ∧ row.shard = shard).mergeSort
      catalogOrder
  let eventJsonBytes : ℕ := (rows.map fun row => row.eventJson.length).sum
  require (eventJsonBytes < 2 ^ 64) "catalog snapshot byte count overflow"
  require (rows.length ≤ maxCatalogEventsPerShard) "catalog shard exceeds the protocol event bound"
  return { eventIds := rows.map EventRow.eventId, eventJsonBytes }

/-! ## Validation of the whole database -/

/-- An entry of the map of winners, with its coordinate. -/
structure WinnerRecord where
  coordinate : Coordinate
  eventId : Hash256
  createdAt : UInt64
  shard : UInt8
  profile : EventProfile
  deriving DecidableEq

def WinnerRecord.group (winner : WinnerRecord) : UInt8 × EventProfile :=
  (winner.shard, winner.profile)

def WinnerRecord.head (winner : WinnerRecord) : HeadRow :=
  { coordinate := winner.coordinate, eventId := winner.eventId }

/-- The comparison of the startup: later, or as late with a smaller id. -/
def WinnerRecord.Beats (candidate current : WinnerRecord) : Prop :=
  current.createdAt < candidate.createdAt ∨
    (candidate.createdAt = current.createdAt ∧
      compare candidate.eventId.val current.eventId.val = .lt)

instance (candidate current : WinnerRecord) : Decidable (candidate.Beats current) :=
  inferInstanceAs (Decidable (_ ∨ _))

def maxCoordinates : ℕ := directoryShardCount * maxCatalogEventsPerShard

structure ArchiveScan where
  winners : List WinnerRecord
  archiveCount : ℕ
  archiveBytes : ℕ

/-- The candidate of a row whose columns agree with the event it stores. -/
def validateArchiveRow (row : EventRow) : Except String WinnerRecord := do
  let parsed ← (NostrEvent.parseJson lib.toLibrary row.eventJson).mapError fun error =>
    s!"stored EVENT parse failed: {error.text}"
  let validated ← validateEventJson lib config.pinned row.eventJson
  validateCurrentEventProfile lib config.pinned validated parsed.createdAt
  require (row.eventId = validated.event.id ∧ row.pubkey = validated.event.pubkey ∧
    row.kind = validated.event.kind ∧ row.createdAt = validated.event.createdAt ∧
    row.dTag = validated.dTag ∧ row.sTag = validated.sTag ∧ row.shard = validated.shard ∧
    row.profile = validated.profile ∧ row.createdAt ≤ row.receivedAt)
    "stored EVENT columns disagree with the signed event"
  return { coordinate := (validated.event.pubkey, validated.event.kind, validated.dTag),
           eventId := row.eventId, createdAt := validated.event.createdAt,
           shard := validated.shard, profile := validated.profile }

def recordWinner (winners : List WinnerRecord) (candidate : WinnerRecord) :
    Except String (List WinnerRecord) :=
  match winners.find? fun current => current.coordinate = candidate.coordinate with
  | some current =>
    if candidate.Beats current then .ok (upsert WinnerRecord.coordinate winners candidate)
    else .ok winners
  | none => do
    require (winners.length < maxCoordinates) "archive contains too many addressable coordinates"
    return upsert WinnerRecord.coordinate winners candidate

def scanRow (scan : ArchiveScan) (row : EventRow) : Except String ArchiveScan := do
  require (scan.archiveCount + 1 ≤ config.maxArchiveEvents)
    "stored archive exceeds configured event capacity"
  require (scan.archiveBytes + row.eventJson.length ≤ config.maxArchiveBytes)
    "stored archive exceeds configured byte capacity"
  let candidate ← validateArchiveRow lib config row
  let winners ← recordWinner scan.winners candidate
  return { winners, archiveCount := scan.archiveCount + 1,
           archiveBytes := scan.archiveBytes + row.eventJson.length }

structure HeadScan where
  winners : List WinnerRecord
  headCount : ℕ
  counts : UInt8 × EventProfile → ℕ

def scanHead (scan : HeadScan) (head : HeadRow) : Except String HeadScan := do
  require (scan.headCount + 1 ≤ maxCoordinates) "address head set exceeds the protocol bound"
  let winner ← okOr (scan.winners.find? fun winner => winner.coordinate = head.coordinate)
    "address head has no matching archive coordinate"
  require (head.eventId = winner.eventId) "address head is not the winning archived EVENT"
  return { winners := scan.winners.filter fun winner => winner.coordinate ≠ head.coordinate,
           headCount := scan.headCount + 1,
           counts := fun group => scan.counts group + if winner.group = group then 1 else 0 }

def eventIdOrder (a b : EventRow) : Bool := (compare a.eventId.val b.eventId.val).isLE

def headOrder (a b : HeadRow) : Bool :=
  ((compare a.coordinate.1.val b.coordinate.1.val).then
    ((compare a.coordinate.2.1 b.coordinate.2.1).then
      (compare (toUtf8 a.coordinate.2.2) (toUtf8 b.coordinate.2.2)))).isLE

def shards : List UInt8 := (List.range directoryShardCount).map UInt8.ofNat

/-- The checks of the database file itself are left to SQLite; that heads refer to rows is its
`foreign_key_check`. -/
def fullStartupValidation (db : Db) : Except String Unit := do
  require (∀ head ∈ db.heads, ∃ row ∈ db.events, row.eventId = head.eventId)
    "directory relay SQLite foreign_key_check failed"
  require (db.profile = profileName ∧ db.directoryPubkey = config.pinned ∧
    db.maxArchiveEvents = config.maxArchiveEvents ∧ db.maxArchiveBytes = config.maxArchiveBytes)
    "directory relay profile/key metadata does not match configuration"
  let archive ← (db.events.mergeSort eventIdOrder).foldlM (scanRow lib config)
    { winners := [], archiveCount := 0, archiveBytes := 0 }
  require (db.archiveEventCount = archive.archiveCount ∧ db.archiveBytes = archive.archiveBytes)
    "archive capacity counters disagree with immutable rows"
  let heads ← (db.heads.mergeSort headOrder).foldlM scanHead
    { winners := archive.winners, headCount := 0, counts := fun _ => 0 }
  require (heads.winners = []) "address head set does not cover every archived coordinate"
  require (∀ shard ∈ shards, heads.counts (shard, .entry) ≤ maxDirectoryEntriesPerShard ∧
    heads.counts (shard, .checkpoint) ≤ 1) "stored catalog shard exceeds the protocol bound"

end BitcoinPir.Directory
