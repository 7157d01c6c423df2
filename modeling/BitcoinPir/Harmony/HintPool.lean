import BitcoinPir.Core.Types
import BitcoinPir.Foundations.Runs

/-!
# The V2 hint pool

Any number of server processes share one pool directory. In each of them, for every database it
has a pool for, a generator thread computes hint entries, persists them to
`pool_<key>.hints` and pushes them to the pool; at start the pool is loaded from the directory.
A V2 request takes an entry and is sent all of it. A V2-half request is sent one side: the first
half under a session token takes an entry and leaves it pending, the second half is served from
the pending entry.

An event is one atomic action: a locked access to the pool or to the pending map, or one file
operation. Which listing `read_dir` returns and whether a file operation fails is the event's own
data, so a run is any interleaving with any failures. What is kept of an entry is its PRP key and
whether `persisted_path` is set; `creator`, `taken` and `log` only record what happened.
-/

namespace BitcoinPir.Harmony

open Foundations Function

abbrev PrpKey := Bytes

abbrev SessionToken := Bytes

inductive Side
  | index
  | chunk
  deriving DecidableEq, Repr

/-- The number of a side in a request. -/
def Side.code : Side → ℕ
  | .index => 0
  | .chunk => 1

structure PoolEntry where
  prpKey : PrpKey
  /-- `persisted_path.is_some()`. -/
  persisted : Bool
  deriving DecidableEq, Repr

/-- What a pool file is bound to: database, tables and PRP backend. -/
structure PoolFileBinding where
  boundDbId : UInt8
  fingerprint : Bytes
  prpBackend : UInt8
  deriving DecidableEq, Repr

/-- Where `generation_loop` stands with an entry it generated. -/
inductive GenerationStage
  | generated
  /-- The temporary file is written. -/
  | written
  /-- Renamed, or memory-only. -/
  | settled
  deriving DecidableEq, Repr

structure Generating where
  entry : PoolEntry
  stage : GenerationStage
  deriving DecidableEq, Repr

structure HintPool where
  entries : List PoolEntry
  generating : Option Generating
  deriving DecidableEq, Repr

inductive PoolState
  | absent
  /-- `open_pool_directory`, with the files still to be read and the entries read. -/
  | loading (candidates : List PrpKey) (loaded : List PrpKey)
  | running (pool : HintPool)
  deriving DecidableEq, Repr

structure V2HalfPending where
  dbId : UInt8
  entry : PrpKey
  sidesServed : Side → Bool

inductive HintRequest
  | v2 (dbId : UInt8)
  | v2Half (dbId : UInt8) (token : SessionToken) (side : Side)
  deriving DecidableEq, Repr

def HintRequest.dbId : HintRequest → UInt8
  | .v2 dbId => dbId
  | .v2Half dbId _ _ => dbId

/-- A request inside `try_take`, with the persisted entry it has popped. -/
structure Taking where
  request : HintRequest
  popped : Option PrpKey
  deriving DecidableEq, Repr

structure Server where
  pools : UInt8 → PoolState
  v2HalfPending : SessionToken → Option V2HalfPending
  /-- The V2-half request that holds the lock of the pending map. -/
  mapLock : Option ℕ
  taking : ℕ → Option Taking

def Server.init : Server := ⟨fun _ => .absent, fun _ => none, none, fun _ => none⟩

structure HalfServed where
  server : ℕ
  token : SessionToken
  side : Side
  prpKey : PrpKey
  dbId : UInt8
  deriving DecidableEq, Repr

/-- What the requests were answered, and when tokens ended. -/
inductive LogEntry
  | full (server : ℕ) (prpKey : PrpKey)
  | half (h : HalfServed)
  | refused (server request : ℕ) (message : String)
  /-- The token left the pending map. -/
  | ended (server : ℕ) (token : SessionToken)
  | crashed (server : ℕ)
  deriving DecidableEq, Repr

structure State where
  /-- The files `pool_<key>.hints`, each with its binding. -/
  files : PrpKey → Option PoolFileBinding
  temporaries : PrpKey → Bool
  servers : ℕ → Server
  /-- The pool that generated a key. -/
  creator : PrpKey → Option (ℕ × UInt8)
  /-- The keys of the entries `try_take` returned, newest first. -/
  taken : List PrpKey
  /-- Newest first. -/
  log : List LogEntry

def State.init : State :=
  ⟨fun _ => none, fun _ => false, fun _ => Server.init, fun _ => none, [], []⟩

structure Config where
  poolSize : ℕ
  databases : UInt8 → Bool
  binding : UInt8 → PoolFileBinding

inductive Event
  /-- A pool without a directory starts. -/
  | startMemoryPool (server : ℕ) (dbId : UInt8)
  /-- `open_pool_directory` lists the directory and drops interrupted writes. -/
  | openPoolDirectory (server : ℕ) (dbId : UInt8) (candidates interrupted : List PrpKey)
  | loadPoolFile (server : ℕ) (dbId : UInt8) (readable removable : Bool)
  | finishLoading (server : ℕ) (dbId : UInt8)
  | generate (server : ℕ) (dbId : UInt8) (prpKey : PrpKey)
  | writeTemporary (server : ℕ) (dbId : UInt8) (ok : Bool)
  | rename (server : ℕ) (dbId : UInt8) (ok : Bool)
  | pushBack (server : ℕ) (dbId : UInt8)
  | request (server id : ℕ) (request : HintRequest)
  | popFront (server id : ℕ)
  | removeFile (server id : ℕ) (ok : Bool)
  | expire (server : ℕ) (token : SessionToken)
  | crash (server : ℕ)
  deriving DecidableEq, Repr

namespace State

variable (s : State) (p : ℕ)

def setServer (srv : Server) : State :=
  { s with servers := update s.servers p srv }

def setPool (d : UInt8) (pool : PoolState) : State :=
  s.setServer p { s.servers p with pools := update (s.servers p).pools d pool }

def setPending (t : SessionToken) (pend : Option V2HalfPending) : State :=
  s.setServer p { s.servers p with
    v2HalfPending := update (s.servers p).v2HalfPending t pend }

/-- Request `r` enters, stays in or leaves `try_take`. -/
def setTaking (r : ℕ) (taking : Option Taking) (lock : Option ℕ) : State :=
  s.setServer p { s.servers p with
    taking := update (s.servers p).taking r taking, mapLock := lock }

def record (entry : LogEntry) : State := { s with log := entry :: s.log }

end State

variable (cfg : Config) (s : State) (p r : ℕ) (d : UInt8)

/-! ### Start and generation -/

def openPoolDirectory (candidates interrupted : List PrpKey) : State :=
  match (s.servers p).pools d with
  | .absent =>
    { s.setPool p d (.loading candidates []) with
      temporaries := fun k => s.temporaries k && !decide (k ∈ interrupted) }
  | _ => s

/-- One file of the directory: kept if it loads under this pool's binding, otherwise removed. -/
def loadPoolFile (readable removable : Bool) : State :=
  match (s.servers p).pools d with
  | .loading (k :: candidates) loaded =>
    if loaded.length ≥ cfg.poolSize then s.setPool p d (.loading [] loaded)
    else if readable && decide (s.files k = some (cfg.binding d)) then
      s.setPool p d (.loading candidates (loaded ++ [k]))
    else
      { s.setPool p d (.loading candidates loaded) with
        files := if removable then update s.files k none else s.files }
  | _ => s

def finishLoading : State :=
  match (s.servers p).pools d with
  | .loading [] loaded => s.setPool p d (.running ⟨loaded.map (⟨·, true⟩), none⟩)
  | _ => s

def startMemoryPool : State :=
  match (s.servers p).pools d with
  | .absent => s.setPool p d (.running ⟨[], none⟩)
  | _ => s

/-- A fresh key was never generated before, by any process. -/
def generate (k : PrpKey) : State :=
  match (s.servers p).pools d with
  | .running ⟨entries, none⟩ =>
    if entries.length ≥ cfg.poolSize then s
    else if s.creator k ≠ none then s
    else
      { s.setPool p d (.running ⟨entries, some ⟨⟨k, false⟩, .generated⟩⟩) with
        creator := update s.creator k (some (p, d)) }
  | _ => s

/-- `persist_pool_entry` up to the rename. A pool without a directory fails here. -/
def writeTemporary (ok : Bool) : State :=
  match (s.servers p).pools d with
  | .running ⟨entries, some ⟨entry, .generated⟩⟩ =>
    if ok then
      { s.setPool p d (.running ⟨entries, some ⟨entry, .written⟩⟩) with
        temporaries := update s.temporaries entry.prpKey true }
    else s.setPool p d (.running ⟨entries, some ⟨entry, .settled⟩⟩)
  | _ => s

/-- The rename fails if another process has removed the temporary file. -/
def rename (ok : Bool) : State :=
  match (s.servers p).pools d with
  | .running ⟨entries, some ⟨⟨k, false⟩, .written⟩⟩ =>
    if ok && s.temporaries k then
      { s.setPool p d (.running ⟨entries, some ⟨⟨k, true⟩, .settled⟩⟩) with
        files := update s.files k (some (cfg.binding d))
        temporaries := update s.temporaries k false }
    else
      { s.setPool p d (.running ⟨entries, some ⟨⟨k, false⟩, .settled⟩⟩) with
        temporaries := update s.temporaries k false }
  | _ => s

def pushBack : State :=
  match (s.servers p).pools d with
  | .running ⟨entries, some ⟨entry, .settled⟩⟩ =>
    s.setPool p d (.running ⟨entries ++ [entry], none⟩)
  | _ => s

/-! ### Requests -/

def validateHarmonyV2HalfDatabase (boundDbId requestedDbId : UInt8) : Except String Unit :=
  if requestedDbId ≠ boundDbId then
    .error s!"HarmonyPIR V2 half token is bound to db {boundDbId}, not requested db {requestedDbId}"
  else .ok ()

/-- A half request whose token is pending. -/
def servePendingHalf (t : SessionToken) (side : Side) (pend : V2HalfPending) : State :=
  match validateHarmonyV2HalfDatabase pend.dbId d with
  | .error message => s.record (.refused p r message)
  | .ok () =>
    if pend.sidesServed side then
      s.record (.refused p r s!"V2 half: side {side.code} already served for this token")
    else
      let served := update pend.sidesServed side true
      let s := s.record (.half ⟨p, t, side, pend.entry, d⟩)
      if served .index && served .chunk then (s.setPending p t none).record (.ended p t)
      else s.setPending p t (some { pend with sidesServed := served })

/-- The text of the refusal when the database has no pool. -/
def HintRequest.notAvailable : HintRequest → String
  | .v2 dbId => s!"V2 hints not available for db_id {dbId}"
  | .v2Half dbId _ _ => s!"V2 half hints not available for db_id {dbId}"

/-- A request arrives. A half request waits for the lock of the pending map. -/
def beginRequest (request : HintRequest) : State :=
  if ¬cfg.databases request.dbId then s.record (.refused p r s!"unknown db_id {request.dbId}")
  else
    match (s.servers p).pools request.dbId, (s.servers p).taking r with
    | .running _, none =>
      match request with
      | .v2 _ => s.setTaking p r (some ⟨request, none⟩) (s.servers p).mapLock
      | .v2Half d t side =>
        if (s.servers p).mapLock ≠ none then s
        else
          match (s.servers p).v2HalfPending t with
          | some pend => servePendingHalf s p r d t side pend
          | none => s.setTaking p r (some ⟨request, none⟩) (some r)
    | .running _, some _ => s
    | _, _ => s.record (.refused p r request.notAvailable)

/-- The lock of the pending map after `request` is done with it. -/
def HintRequest.lockAfter (lock : Option ℕ) : HintRequest → Option ℕ
  | .v2 _ => lock
  | .v2Half _ _ _ => none

/-- `try_take` returned an entry. -/
def serveTaken (request : HintRequest) (k : PrpKey) : State :=
  let s := { s.setTaking p r none (request.lockAfter (s.servers p).mapLock) with
    taken := k :: s.taken }
  match request with
  | .v2 _ => s.record (.full p k)
  | .v2Half d t side =>
    (s.setPending p t (some ⟨d, k, update (fun _ => false) side true⟩)).record
      (.half ⟨p, t, side, k, d⟩)

/-- `try_take`, up to the removal of the file. -/
def popFront : State :=
  match (s.servers p).taking r with
  | some ⟨request, none⟩ =>
    match (s.servers p).pools request.dbId with
    | .running ⟨⟨k, persisted⟩ :: entries, generating⟩ =>
      let s := s.setPool p request.dbId (.running ⟨entries, generating⟩)
      if persisted then s.setTaking p r (some ⟨request, some k⟩) (s.servers p).mapLock
      else serveTaken s p r request k
    | _ =>
      (s.setTaking p r none (request.lockAfter (s.servers p).mapLock)).record
        (.refused p r "V2 hint pool temporarily empty/unavailable")
  | _ => s

/-- `try_take` removes the file of the entry it popped. Whoever removes it has the entry; if it is
gone, or cannot be removed, the entry is dropped and the next one is tried. -/
def removeFile (ok : Bool) : State :=
  match (s.servers p).taking r with
  | some ⟨request, some k⟩ =>
    if ok && (s.files k).isSome then
      serveTaken { s with files := update s.files k none } p r request k
    else s.setTaking p r (some ⟨request, none⟩) (s.servers p).mapLock
  | _ => s

/-- The cleanup task drops a token that waited too long for its second half. -/
def expire (t : SessionToken) : State :=
  match (s.servers p).mapLock, (s.servers p).v2HalfPending t with
  | none, some _ => (s.setPending p t none).record (.ended p t)
  | _, _ => s

/-- All a process had in memory is gone; the directory stays. -/
def crash : State := (s.setServer p Server.init).record (.crashed p)

def step (cfg : ℕ → Config) (s : State) : Event → State
  | .startMemoryPool p d => startMemoryPool s p d
  | .openPoolDirectory p d candidates interrupted => openPoolDirectory s p d candidates interrupted
  | .loadPoolFile p d readable removable => loadPoolFile (cfg p) s p d readable removable
  | .finishLoading p d => finishLoading s p d
  | .generate p d k => generate (cfg p) s p d k
  | .writeTemporary p d ok => writeTemporary s p d ok
  | .rename p d ok => rename (cfg p) s p d ok
  | .pushBack p d => pushBack s p d
  | .request p r request => beginRequest (cfg p) s p r request
  | .popFront p r => popFront s p r
  | .removeFile p r ok => removeFile s p r ok
  | .expire p t => expire s p t
  | .crash p => crash s p

end BitcoinPir.Harmony
