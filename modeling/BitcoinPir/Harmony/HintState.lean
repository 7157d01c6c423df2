import BitcoinPir.Bucket.Verify
import BitcoinPir.Core.Catalog
import BitcoinPir.Foundations.Runs

/-!
# The hint state of a client

A client holds one group per table group and per sibling level, each with its own relocation log
and query count. Groups are created when hints are fetched, under the client's master key or under
the key the pool sends (V2), or rebuilt from a file of the hint cache; they are dropped when the
client turns to another database, another key or another connection. Every online request is built
from the hint state of one group.

The group itself is vendored code: which segment a query relocates (`locate`) and how many queries
it allows (`maxQueries`) are functions of its state. What the servers and the file system do is the
data of the events. `requests` records the hint states that requests were built from; `layout` the
group numbering of the loaded groups.
-/

namespace BitcoinPir.HarmonyClient

open Foundations

abbrev PrpKey := Bytes

/-- The place of a group in the client's four maps. -/
inductive Slot
  | index (g : ℕ)
  | chunk (g : ℕ)
  | indexSib (level g : ℕ)
  | chunkSib (level g : ℕ)
  deriving DecidableEq, Repr

/-- The numbers the group ids are computed from. -/
structure Layout where
  kIndex : ℕ
  kChunk : ℕ
  indexSibLevels : ℕ
  deriving DecidableEq, Repr

def Slot.groupId (l : Layout) : Slot → ℕ
  | .index g => g
  | .chunk g => l.kIndex + g
  | .indexSib level g => (l.kIndex + l.kChunk) + level * l.kIndex + g
  | .chunkSib level g =>
    (l.kIndex + l.kChunk) + l.indexSibLevels * l.kIndex + level * l.kChunk + g

/-- The name of a group in error texts. -/
def Slot.label : Slot → String
  | .index g => s!"main INDEX group {g}"
  | .chunk g => s!"main CHUNK group {g}"
  | .indexSib level g => s!"INDEX sib L{level} g{g}"
  | .chunkSib level g => s!"CHUNK sib L{level} g{g}"

/-- An error of the vendored library in a message. -/
def remoteError (message : String) : String := s!"RemoteError \x7b message: {message.quote} \x7d"

def Slot.isSib : Slot → Bool
  | .indexSib _ _ | .chunkSib _ _ => true
  | _ => false

/-- What determines the requests of a group. -/
structure HintState where
  /-- The key derived from the master key for this group. -/
  prpKey : Bytes
  groupId : ℕ
  /-- The table size. -/
  n : ℕ
  relocated : List ℕ
  queryCount : ℕ
  deriving DecidableEq, Repr

inductive InFlight
  | idle
  | single (segment : ℕ)
  /-- Both requests of a pair; the first segment is relocated already. -/
  | pair (second : ℕ)
  deriving DecidableEq, Repr

structure HarmonyGroup extends HintState where
  inFlight : InFlight
  deriving DecidableEq, Repr

/-- What a saved group restores of it. The key and the group id are not written. -/
structure SavedGroup where
  n : ℕ
  relocated : List ℕ
  queryCount : ℕ
  deriving DecidableEq, Repr

/-- The fields a hint snapshot is identified by. -/
structure CacheKey where
  masterPrpKey : PrpKey
  prpBackend : UInt8
  dbId : UInt8
  height : UInt32
  indexBins : UInt32
  chunkBins : UInt32
  tagSeed : UInt64
  indexK : UInt8
  chunkK : UInt8
  indexMasterSeed : UInt64
  chunkMasterSeed : UInt64
  deriving DecidableEq

def CacheKey.fromDbInfo (masterPrpKey : PrpKey) (prpBackend : UInt8) (db : DatabaseInfo) :
    CacheKey where
  masterPrpKey := masterPrpKey
  prpBackend := prpBackend
  dbId := db.dbId
  height := db.height
  indexBins := db.indexBins
  chunkBins := db.chunkBins
  tagSeed := db.tagSeed
  indexK := db.indexK
  chunkK := db.chunkK
  indexMasterSeed := db.indexMasterSeed
  chunkMasterSeed := db.chunkMasterSeed

def CacheKey.fingerprint (H : Bytes → Hash256) (key : CacheKey) : Bytes :=
  (H (toUtf8 "pir-sdk hint cache v2 fingerprint" ++ key.masterPrpKey ++
    [key.prpBackend, key.dbId] ++ leBytes 4 key.height.toNat ++ leBytes 4 key.indexBins.toNat ++
    leBytes 4 key.chunkBins.toNat ++ leBytes 8 key.tagSeed.toNat ++ [key.indexK, key.chunkK] ++
    leBytes 8 key.indexMasterSeed.toNat ++ leBytes 8 key.chunkMasterSeed.toNat)).val.take 16

structure CacheFile where
  fingerprint : Bytes
  bundle : List (Slot × SavedGroup)
  deriving DecidableEq

abbrev GroupMap := List (Slot × HarmonyGroup)

/-- The files of a cache directory, by the fingerprint in their name. -/
abbrev CacheDir := Bytes → Option CacheFile

structure Client where
  masterPrpKey : PrpKey
  prpBackend : UInt8
  useV2Protocol : Bool
  catalog : Option DatabaseCatalog
  loadedDbId : Option UInt8
  siblingHintsLoaded : Option UInt8
  groups : GroupMap
  /-- Whether a hint cache directory is set. -/
  hintCacheDir : Bool
  layout : Layout

structure State where
  client : Client
  cacheFiles : CacheDir
  /-- Newest first. -/
  requests : List HintState

/-- A client after `new` and `set_master_key`. -/
def Client.new (masterPrpKey : PrpKey) (hintCacheDir : Bool) : Client where
  masterPrpKey := masterPrpKey
  prpBackend := 0
  useV2Protocol := true
  catalog := none
  loadedDbId := none
  siblingHintsLoaded := none
  groups := []
  hintCacheDir := hintCacheDir
  layout := ⟨0, 0, 0⟩

/-- What the pool answers a V2 hint request. -/
inductive PoolReply
  | key (prpBackend : UInt8) (prpKey : PrpKey)
  | unavailable
  | failed (e : PirError)
  deriving DecidableEq

/-- What happens while hints are loaded. -/
structure Fetch where
  /-- The cache directory can be read and written. -/
  readable : Bool
  writable : Bool
  /-- The client has a second hint connection. -/
  secondary : Bool
  pool : PoolReply
  /-- Why the hint frames did not arrive, if they did not. -/
  failure : Option PirError
  /-- How many sibling groups were created by then. -/
  kept : ℕ

/-! ### Groups -/

/-- The vendored key derivation: the group id is added to the end of the master key. -/
def deriveGroupKey (masterKey : PrpKey) (groupId : ℕ) : Bytes :=
  let key := masterKey.take 16 ++ List.replicate (16 - masterKey.length) 0
  key.take 12 ++ xorBytes (key.drop 12) (leBytes 4 groupId)

/-- The main groups of a database, with their table sizes. -/
def mainSlots (db : DatabaseInfo) : List (Slot × ℕ) :=
  (List.range db.indexK.toNat).map (fun g => (.index g, db.indexBins.toNat)) ++
    (List.range db.chunkK.toNat).map (fun g => (.chunk g, db.chunkBins.toNat))

/-- The table sizes of the sibling levels over `bins` bins. -/
def siblingSizes (bins : ℕ) : ℕ → List ℕ
  | 0 => []
  | levels + 1 => bins ⌈/⌉ Bucket.arity :: siblingSizes (bins ⌈/⌉ Bucket.arity) levels

/-- The sibling groups of a database in the order they are created, with their table sizes. -/
def siblingSlots (db : DatabaseInfo) (indexSibLevels chunkSibLevels : ℕ) : List (Slot × ℕ) :=
  (siblingSizes db.indexBins.toNat indexSibLevels).zipIdx.flatMap (fun (n, level) =>
      (List.range db.indexK.toNat).map fun g => (.indexSib level g, n)) ++
    (siblingSizes db.chunkBins.toNat chunkSibLevels).zipIdx.flatMap (fun (n, level) =>
      (List.range db.chunkK.toNat).map fun g => (.chunkSib level g, n))

section Groups

variable (derive : PrpKey → ℕ → Bytes)

/-- `new_harmony_group`. -/
def newHarmonyGroup (key : PrpKey) (groupId n : ℕ) : HarmonyGroup :=
  ⟨⟨derive key groupId, groupId, n, [], 0⟩, .idle⟩

/-- New groups, created in order up to the first table of less than two rows. -/
def newGroups (key : PrpKey) (l : Layout) (slots : List (Slot × ℕ)) : GroupMap :=
  (slots.takeWhile fun e => 2 ≤ e.2).map fun e => (e.1, newHarmonyGroup derive key (e.1.groupId l) e.2)

/-- `HashMap::insert` for each of `new`. -/
def insertGroups (groups new : GroupMap) : GroupMap :=
  new ++ groups.filter fun e => decide (e.1 ∉ new.map Prod.fst)

/-- A saved group that `deserialize_legacy_state` accepts. -/
def SavedGroup.Restorable (maxQueries : ℕ → ℕ) (saved : SavedGroup) : Prop :=
  saved.n ≠ 0 ∧ saved.queryCount ≤ maxQueries saved.n ∧ saved.relocated.length = saved.queryCount

instance (maxQueries : ℕ → ℕ) (saved : SavedGroup) : Decidable (saved.Restorable maxQueries) :=
  inferInstanceAs (Decidable (_ ∧ _ ∧ _))

/-- `deserialize_legacy_state` for the group at `slot`. -/
def deserializeGroup (maxQueries : ℕ → ℕ) (key : PrpKey) (l : Layout) (slot : Slot)
    (saved : SavedGroup) : PirResult HarmonyGroup :=
  if saved.Restorable maxQueries then
    .ok ⟨⟨derive key (slot.groupId l), slot.groupId l, saved.n, saved.relocated, saved.queryCount⟩,
      .idle⟩
  else .error (.backendState s!"deserialize {slot.label}")

/-- `serialize_legacy_state`: only between requests. -/
def serializeHarmonyGroup (group : HarmonyGroup) : PirResult SavedGroup :=
  if group.inFlight = .idle then .ok ⟨group.n, group.relocated, group.queryCount⟩
  else
    .error (.backendState ("serialize HarmonyPIR group: serialize_legacy_state called while " ++
      "another query operation is in flight"))

end Groups

/-! ### Requests of a group -/

section Requests

variable (locate : HintState → ℕ → Option ℕ) (maxQueries : ℕ → ℕ)

/-- `build_request`: the group after it, and the hint states of the requests it built. -/
def buildRequest (group : HarmonyGroup) (q : ℕ) : HarmonyGroup × List HintState :=
  if group.inFlight ≠ .idle ∨ group.n ≤ q ∨ maxQueries group.n ≤ group.queryCount then (group, [])
  else
    match locate group.toHintState q with
    | none => (group, [])
    | some segment => ({ group with inFlight := .single segment }, [group.toHintState])

/-- `build_request_pair`. The second request is built after the first relocation; if it cannot be,
neither is sent. -/
def buildRequestPair (group : HarmonyGroup) (q₁ q₂ : ℕ) : HarmonyGroup × List HintState :=
  if group.inFlight ≠ .idle ∨ maxQueries group.n < group.queryCount + 2 ∨ group.n ≤ q₁ ∨
      group.n ≤ q₂ then (group, [])
  else
    match locate group.toHintState q₁ with
    | none => (group, [])
    | some first =>
      let group' := { group with relocated := group.relocated ++ [first] }
      match locate group'.toHintState q₂ with
      | none => (group', [])
      | some second =>
        ({ group' with inFlight := .pair second }, [group'.toHintState, group.toHintState])

/-- `process_response` and `process_response_pair`; a malformed response leaves the request in
flight. -/
def processResponse (group : HarmonyGroup) (wellFormed : Bool) : HarmonyGroup :=
  match group.inFlight with
  | .idle => group
  | .single segment =>
    if wellFormed then
      ⟨⟨group.prpKey, group.groupId, group.n, group.relocated ++ [segment], group.queryCount + 1⟩,
        .idle⟩
    else group
  | .pair second =>
    if wellFormed then
      ⟨⟨group.prpKey, group.groupId, group.n, group.relocated ++ [second], group.queryCount + 2⟩,
        .idle⟩
    else group

end Requests

/-! ### The client -/

namespace Client

variable (H : Bytes → Hash256) (derive : PrpKey → ℕ → Bytes) (maxQueries : ℕ → ℕ)
variable (c : Client) (files : CacheDir) (db : DatabaseInfo)

def invalidateGroups : Client :=
  { c with groups := [], loadedDbId := none, siblingHintsLoaded := none }

def countGroups (p : Slot → Bool) : ℕ := c.groups.countP fun e => p e.1

/-- The file the client looks for `db`'s hints in. -/
def cachePathFor : Bytes := (CacheKey.fromDbInfo c.masterPrpKey c.prpBackend db).fingerprint H

def saveHintsBytes : PirResult (Option CacheFile) :=
  match c.loadedDbId with
  | none => .ok none
  | some dbId =>
    match c.catalog with
    | none =>
      .error (.invalidState "save_hints_bytes: catalog not fetched (call fetch_catalog first)")
    | some catalog =>
      match catalog.get dbId with
      | none => .error (.databaseNotFound dbId.toNat)
      | some info => do
        let bundle ← c.groups.mapM fun e => do
          let saved ← serializeHarmonyGroup e.2
          return (e.1, saved)
        return some ⟨(CacheKey.fromDbInfo c.masterPrpKey c.prpBackend info).fingerprint H, bundle⟩

/-- The files after `persist_hints_to_cache`; its errors are only logged. -/
def persistHintsToCache (writable : Bool) : CacheDir :=
  if c.hintCacheDir && writable then
    match c.saveHintsBytes H with
    | .ok (some file) => Function.update files (c.cachePathFor H db) (some file)
    | _ => files
  else files

/-- The number of INDEX sibling levels in a bundle. -/
def bundleIndexSibLevels {β : Type} (bundle : List (Slot × β)) : ℕ :=
  bundle.foldr (fun e m => match e.1 with | .indexSib level _ => max (level + 1) m | _ => m) 0

def bundleLayout {β : Type} (bundle : List (Slot × β)) : Layout :=
  ⟨db.indexK.toNat, db.chunkK.toNat, bundleIndexSibLevels bundle⟩

/-- All main groups of `db`, and no others, are in a bundle. -/
def fullMain {β : Type} (bundle : List (Slot × β)) : Bool :=
  (mainSlots db).all (fun e => decide (e.1 ∈ bundle.map Prod.fst)) &&
    bundle.all fun e => e.1.isSib || decide (e.1 ∈ (mainSlots db).map Prod.fst)

def loadBundleIntoGroups (bundle : List (Slot × SavedGroup)) : PirResult Client := do
  let l := bundleLayout db bundle
  let groups ← bundle.mapM fun e => do
    let group ← deserializeGroup derive maxQueries c.masterPrpKey l e.1 e.2
    return (e.1, group)
  let full := fullMain db bundle
  return { c with
    groups := groups
    layout := l
    loadedDbId := if full then some db.dbId else none
    siblingHintsLoaded :=
      if full && bundle.any (fun e => e.1.isSib) then some db.dbId else none }

def loadHintsBytes (file : CacheFile) : PirResult Client :=
  if file.fingerprint ≠ c.cachePathFor H db then
    .error (.invalidState
      "hint cache: fingerprint mismatch (cache is for a different master key / PRP backend / db snapshot)")
  else c.loadBundleIntoGroups derive maxQueries db file.bundle

/-- `restore_hints_from_cache`: whether hints were restored, and the client afterwards. -/
def restoreHintsFromCache (readable : Bool) : PirResult (Bool × Client) :=
  if !c.hintCacheDir then .ok (false, c)
  else if !readable then .error (.backendState "hint cache read")
  else
    match files (c.cachePathFor H db) with
    | none => .ok (false, c)
    | some file =>
      match c.loadHintsBytes H derive maxQueries db file with
      | .ok c' => .ok (true, c')
      | .error _ => .ok (false, c.invalidateGroups)

/-- The groups of the hint maps for the tables themselves are dropped. -/
def clearMain : Client :=
  { c with groups := c.groups.filter fun e => e.1.isSib, loadedDbId := none }

def clearSiblings : Client :=
  { c with groups := c.groups.filter (fun e => !e.1.isSib), siblingHintsLoaded := none }

/-- The client with new main groups for `db` under its key. -/
def withMainGroups : Client :=
  let l : Layout := ⟨db.indexK.toNat, db.chunkK.toNat, c.layout.indexSibLevels⟩
  { c with groups := insertGroups c.groups (newGroups derive c.masterPrpKey l (mainSlots db)), layout := l }

/-- Why the groups of some tables cannot be created: a table has no row, or only one, for which the
segments would be of size one. -/
def initError (slots : List (Slot × ℕ)) : Option PirError :=
  (slots.find? fun e => e.2 < 2).map fun e =>
    let table := match e.1 with
      | .indexSib _ _ => "INDEX sib "
      | .chunkSib _ _ => "CHUNK sib "
      | _ => ""
    let message := if e.2 = 0 then "N must be greater than zero" else "T must be at least two"
    .backendState s!"{table}HarmonyGroup init: {remoteError message}"

variable (tops : List Bucket.TreeTop) (fetch : Fetch)

/-- Main hints over V1: groups under the client's own key. On one connection a failed fetch leaves
the groups in the maps, on two it loses them. -/
def fetchV1 : PirResult Unit × Client :=
  let created := c.withMainGroups derive db
  match initError (mainSlots db) with
  | some e => (.error e, created)
  | none =>
    match fetch.failure with
    | some e => (.error e, if fetch.secondary then created.clearMain else created)
    | none => (.ok (), { created with loadedDbId := some db.dbId })

/-- Main hints over V2: groups under the key the pool sends. On one connection the client takes over
the key before the frames arrive, on two only after all of them. -/
def fetchV2 : PirResult Unit × Client :=
  match fetch.pool with
  | .failed e => (.error e, if fetch.secondary then c else c.clearMain)
  | .unavailable => c.fetchV1 derive db fetch
  | .key backend key =>
    let keyed := { c with prpBackend := backend, masterPrpKey := key }
    let failed := if fetch.secondary then c else keyed.clearMain
    match initError (mainSlots db) with
    | some e => (.error e, failed)
    | none =>
      match fetch.failure with
      | some e => (.error e, failed)
      | none =>
        let base := if fetch.secondary then keyed.clearMain else keyed
        (.ok (), { base.withMainGroups derive db with loadedDbId := some db.dbId })

def shouldUseV2HintPool (useV2Protocol : Bool) (dbId : UInt8) : Bool :=
  useV2Protocol && decide (dbId = 0)

/-- The hints of `db` are in memory. -/
def ready : Bool :=
  decide (c.loadedDbId = some db.dbId) &&
    c.groups.any (fun e => match e.1 with | .index _ => true | _ => false) &&
    c.groups.any (fun e => match e.1 with | .chunk _ => true | _ => false)

def fetchMain : PirResult Unit × Client :=
  if shouldUseV2HintPool c.useV2Protocol db.dbId then c.fetchV2 derive db fetch
  else c.fetchV1 derive db fetch

def ensureGroupsReady : PirResult Unit × Client × CacheDir :=
  if c.ready db then (.ok (), c, files)
  else
    match c.invalidateGroups.restoreHintsFromCache H derive maxQueries files db fetch.readable with
    | .error e => (.error e, c.invalidateGroups, files)
    | .ok (restored, c') =>
      if restored && decide (c'.loadedDbId = some db.dbId) then (.ok (), c', files)
      else
        match c'.fetchMain derive db fetch with
        | (.error e, c'') => (.error e, c'', files)
        | (.ok (), c'') => (.ok (), c'', c''.persistHintsToCache H files db fetch.writable)

def maxSibLevels : ℕ := (tops.map (·.cacheFromLevel)).foldr max 0

/-- The sibling levels the tree tops ask for. -/
def sibLevels : ℕ × ℕ :=
  (maxSibLevels (tops.take db.indexK.toNat),
    maxSibLevels ((tops.drop db.indexK.toNat).take db.chunkK.toNat))

/-- The sibling groups in memory are those the tree tops ask for. -/
def siblingsReady : Bool :=
  decide (c.siblingHintsLoaded = some db.dbId) &&
    decide (c.countGroups (fun | .indexSib _ _ => true | _ => false) =
      (sibLevels db tops).1 * db.indexK.toNat) &&
    decide (c.countGroups (fun | .chunkSib _ _ => true | _ => false) =
      (sibLevels db tops).2 * db.chunkK.toNat)

/-- The client with the first `kept` sibling groups for `db`. -/
def withSiblings (kept : ℕ) : Client :=
  let l : Layout := ⟨c.layout.kIndex, c.layout.kChunk, (sibLevels db tops).1⟩
  let ids : Layout := ⟨db.indexK.toNat, db.chunkK.toNat, (sibLevels db tops).1⟩
  let slots := siblingSlots db (sibLevels db tops).1 (sibLevels db tops).2
  { c.clearSiblings with
    groups := insertGroups c.clearSiblings.groups
      (newGroups derive c.masterPrpKey ids (slots.take kept))
    layout := l }

def ensureSiblingGroupsReady : PirResult Unit × Client × CacheDir :=
  if tops.length < db.indexK.toNat + db.chunkK.toNat then
    (.error (.protocol s!"tree-tops has {tops.length} entries, expected at least {db.indexK.toNat + db.chunkK.toNat}"),
      c, files)
  else if c.siblingsReady db tops then (.ok (), c, files)
  else
    let slots := siblingSlots db (sibLevels db tops).1 (sibLevels db tops).2
    let partly := if fetch.secondary then c.clearSiblings else c.withSiblings derive db tops fetch.kept
    match initError slots with
    | some e => (.error e, partly, files)
    | none =>
      match fetch.failure with
      | some e => (.error e, partly, files)
      | none =>
        let c' := { c.withSiblings derive db tops slots.length with
          siblingHintsLoaded := some db.dbId }
        (.ok (), c', c'.persistHintsToCache H files db fetch.writable)

end Client

/-! ### Runs -/

inductive Event
  | fetchCatalog (catalog : DatabaseCatalog)
  | ensureGroupsReady (db : DatabaseInfo) (fetch : Fetch)
  | ensureSiblingGroupsReady (db : DatabaseInfo) (tops : List Bucket.TreeTop) (fetch : Fetch)
  /-- A sibling query of one pass. -/
  | buildRequest (slot : Slot) (q : ℕ)
  /-- An INDEX or CHUNK query, or a sibling query of two passes. -/
  | buildRequestPair (slot : Slot) (q₁ q₂ : ℕ)
  | processResponse (slot : Slot) (wellFormed : Bool)
  | persistHintsToCache (db : DatabaseInfo) (writable : Bool)
  | setMasterKey (key : PrpKey)
  | setPrpBackend (backend : UInt8)
  | setUseV2Protocol (v2 : Bool)
  | setDbId (dbId : UInt8)
  | setHintCacheDir (set : Bool)
  /-- `connect` and `disconnect` drop all that belongs to a session. -/
  | invalidateSessionBindings
  /-- The process ends and a new client starts with a master key; the cache directory stays. -/
  | restart (key : PrpKey) (hintCacheDir : Bool)

section Step

variable (H : Bytes → Hash256) (derive : PrpKey → ℕ → Bytes)
variable (locate : HintState → ℕ → Option ℕ) (maxQueries : ℕ → ℕ)

def setGroup (groups : GroupMap) (slot : Slot) (group : HarmonyGroup) :
    GroupMap :=
  groups.map fun e => if e.1 = slot then (slot, group) else e

/-- A request of the group at `slot`, if there is one. -/
def State.onGroup (s : State) (slot : Slot) (f : HarmonyGroup → HarmonyGroup × List HintState) :
    State :=
  match s.client.groups.lookup slot with
  | none => s
  | some group =>
    { s with
      client := { s.client with groups := setGroup s.client.groups slot (f group).1 }
      requests := (f group).2 ++ s.requests }

def step (s : State) : Event → State
  | .fetchCatalog catalog => { s with client := { s.client with catalog := some catalog } }
  | .ensureGroupsReady db fetch =>
    let (_, client, cacheFiles) :=
      s.client.ensureGroupsReady H derive maxQueries s.cacheFiles db fetch
    { s with client := client, cacheFiles := cacheFiles }
  | .ensureSiblingGroupsReady db tops fetch =>
    let (_, client, cacheFiles) :=
      s.client.ensureSiblingGroupsReady H derive s.cacheFiles db tops fetch
    { s with client := client, cacheFiles := cacheFiles }
  | .buildRequest slot q => s.onGroup slot fun group => HarmonyClient.buildRequest locate maxQueries group q
  | .buildRequestPair slot q₁ q₂ =>
    s.onGroup slot fun group => HarmonyClient.buildRequestPair locate maxQueries group q₁ q₂
  | .processResponse slot wellFormed =>
    s.onGroup slot fun group => (HarmonyClient.processResponse group wellFormed, [])
  | .persistHintsToCache db writable =>
    { s with cacheFiles := s.client.persistHintsToCache H s.cacheFiles db writable }
  | .setMasterKey key =>
    { s with client := { s.client with masterPrpKey := key }.invalidateGroups }
  | .setPrpBackend backend =>
    if backend ≠ s.client.prpBackend then
      { s with client := { s.client with prpBackend := backend }.invalidateGroups }
    else s
  | .setUseV2Protocol v2 =>
    if v2 ≠ s.client.useV2Protocol then
      { s with client := { s.client with useV2Protocol := v2 }.invalidateGroups }
    else s
  | .setDbId dbId =>
    if s.client.loadedDbId = some dbId then s
    else { s with client := s.client.invalidateGroups }
  | .setHintCacheDir set => { s with client := { s.client with hintCacheDir := set } }
  | .invalidateSessionBindings =>
    { s with client := { s.client.invalidateGroups with catalog := none } }
  | .restart key hintCacheDir => { s with client := Client.new key hintCacheDir }

/-- Nothing cached, nothing requested. -/
def State.init (key : PrpKey) (hintCacheDir : Bool) : State :=
  ⟨Client.new key hintCacheDir, fun _ => none, []⟩

end Step

end BitcoinPir.HarmonyClient
