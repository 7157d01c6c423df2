import BitcoinPir.Credit.Requests

/-!
# Direct ORAM lookups

A lookup request names a number of slots. The server reads every candidate INDEX bin of every slot
through one ORAM, decodes which chunks the slots ask for, reads those through a second ORAM and
fills what is left of a public access budget with dummy reads. A failure after an ORAM has been
touched poisons its table: later requests are refused.

The ORAM controllers are parameters (`Oram`). `TableState.accesses` counts the logical accesses a
table has made; no function reads it.
-/

namespace BitcoinPir.DirectOram

open Foundations Meter

abbrev ScriptHash := Digest scriptHashSize

def directIndexSlotSize : ℕ := 1 + scriptHashSize + 4 + 1

def directChunkRecordSize : ℕ := 40

/-- An ORAM controller with states in `σ`. -/
structure Oram (σ : Type) where
  /-- Read several logical blocks as one batch. -/
  readBatch : σ → List ℕ → Except String (List Bytes) × σ
  /-- Access several random paths as one batch. -/
  dummyAccessBatch : σ → ℕ → Except String Unit × σ
  /-- Write pending evictions back, at most as many as given. -/
  drainEvictions : σ → ℕ → Except String ℕ × σ
  /-- Flush the controller and save its state. -/
  persist : σ → Except String Unit × σ

/-- The fixed part of the INDEX table. The bins of a script hash are collected by the source until
there are `hashFns` of them; each is a hash modulo the number of bins. -/
structure IndexTable where
  hashFns : ℕ
  slotsPerBin : ℕ
  totalItems : ℕ
  itemsPerBlock : ℕ
  drainPerAccess : ℕ
  saveState : Bool
  candidateBins : ScriptHash → List ℕ
  length_candidateBins : ∀ scriptHash, (candidateBins scriptHash).length = hashFns
  candidateBins_lt : ∀ scriptHash, ∀ bin ∈ candidateBins scriptHash, bin < totalItems

/-- The fixed part of the CHUNK table. -/
structure ChunkTable where
  totalChunks : ℕ
  itemsPerBlock : ℕ
  drainPerAccess : ℕ
  saveState : Bool

/-- The changing part of a table. -/
structure TableState (σ : Type) where
  oram : σ
  poisoned : Option String
  dirty : Bool
  /-- Logical accesses so far. -/
  accesses : ℕ

namespace TableState

variable {σ : Type}

/-- Retain the first reason. -/
def poison (s : TableState σ) (why : String) : TableState σ :=
  { s with poisoned := s.poisoned.or (some why) }

/-- Give a request up: a table it has touched is not used again. -/
def abortRequest (s : TableState σ) (label : String) : TableState σ :=
  if s.dirty then s.poison s!"Direct ORAM {label} request aborted after mutation" else s

def checkNotPoisoned (s : TableState σ) (label : String) : Except String Unit :=
  match s.poisoned with
  | some why => .error s!"Direct ORAM {label} table is poisoned: {why}"
  | none => .ok ()

/-- Make the state after a request durable. -/
def finishRequest (oram : Oram σ) (label : String) (saveState : Bool) (s : TableState σ) :
    Except String Unit × TableState σ :=
  match s.checkNotPoisoned label with
  | .error e => (.error e, s)
  | .ok () =>
    if s.dirty = false then (.ok (), s)
    else if saveState = false then (.ok (), { s with dirty := false })
    else
      match oram.persist s.oram with
      | (.error e, o) => (.error e, { s with oram := o }.poison e)
      | (.ok (), o) => (.ok (), { s with oram := o, dirty := false })

end TableState

/-! ## INDEX reads -/

/-- The INDEX record found for a script hash. -/
structure IndexLookup where
  found : Bool
  startChunkId : UInt32
  numChunks : UInt8
  deriving DecidableEq

/-- Take the record of a slot if it is the first match. -/
def selectIndexRecord (scriptHash : ScriptHash) (lookup : IndexLookup) (slot : Bytes) :
    IndexLookup :=
  if slot.head? = some 1 ∧ (slot.drop 1).take scriptHashSize = scriptHash.val ∧
      lookup.found = false then
    { found := true
      startChunkId := UInt32.ofNat (leNat ((slot.drop (1 + scriptHashSize)).take 4))
      numChunks := (slot.drop (1 + scriptHashSize + 4)).headD 0 }
  else lookup

def selectIndexRecordFromBin (slotsPerBin : ℕ) (scriptHash : ScriptHash) (lookup : IndexLookup)
    (bin : Bytes) : Except String IndexLookup :=
  if bin.length = slotsPerBin * directIndexSlotSize then
    .ok ((List.range slotsPerBin).foldl (fun lookup slot => selectIndexRecord scriptHash lookup
      ((bin.drop (slot * directIndexSlotSize)).take directIndexSlotSize)) lookup)
  else .error s!"direct index bin len {bin.length} != expected {slotsPerBin * directIndexSlotSize}"

def packedItem (itemsPerBlock itemSize item : ℕ) (block : Bytes) : Bytes :=
  (block.drop (item % itemsPerBlock * itemSize)).take itemSize

namespace IndexTable

variable {σ : Type} (t : IndexTable)

def bin (block : Bytes) (bin : ℕ) : Bytes :=
  packedItem t.itemsPerBlock (t.slotsPerBin * directIndexSlotSize) bin block

/-- The record of a script hash among the blocks read for it. -/
def selectLookup (scriptHash : ScriptHash) (blocks : List Bytes) : Except String IndexLookup :=
  ((t.candidateBins scriptHash).zip blocks).foldlM (fun lookup candidate =>
    selectIndexRecordFromBin t.slotsPerBin scriptHash lookup (t.bin candidate.2 candidate.1))
    { found := false, startChunkId := 0, numChunks := 0 }

/-- The records of several script hashes; the blocks of each follow those of the one before. -/
def selectLookups : List ScriptHash → List Bytes → Except String (List IndexLookup)
  | [], _ => .ok []
  | scriptHash :: scriptHashes, blocks => do
    let lookup ← t.selectLookup scriptHash (blocks.take t.hashFns)
    let lookups ← selectLookups scriptHashes (blocks.drop t.hashFns)
    return lookup :: lookups

/-- The logical blocks of all candidate bins. -/
def blockIds (scriptHashes : List ScriptHash) : List ℕ :=
  (scriptHashes.flatMap t.candidateBins).map (· / t.itemsPerBlock)

/-- Read all candidate bins as one batch, then drain evictions. -/
def lookupManyBatched (oram : Oram σ) (scriptHashes : List ScriptHash) (s : TableState σ) :
    Except String (List IndexLookup) × TableState σ :=
  let ids := t.blockIds scriptHashes
  match oram.readBatch s.oram ids with
  | (.error e, o) => (.error e, { s with oram := o, accesses := s.accesses + ids.length })
  | (.ok blocks, o) =>
    let s := { s with oram := o, accesses := s.accesses + ids.length }
    match t.selectLookups scriptHashes blocks with
    | .error e => (.error e, s)
    | .ok lookups =>
      match oram.drainEvictions s.oram (t.drainPerAccess * ids.length) with
      | (.error e, o) => (.error e, { s with oram := o })
      | (.ok _, o) => (.ok lookups, { s with oram := o })

def lookupMany (oram : Oram σ) (scriptHashes : List ScriptHash) (s : TableState σ) :
    Except String (List IndexLookup) × TableState σ :=
  if scriptHashes = [] then (.ok [], s)
  else
    match s.checkNotPoisoned "index" with
    | .error e => (.error e, s)
    | .ok () =>
      match t.lookupManyBatched oram scriptHashes { s with dirty := true } with
      | (.ok lookups, s) => (.ok lookups, s)
      | (.error _, s) =>
        (.error "Direct ORAM index lookup failed after mutation",
          s.poison "Direct ORAM index lookup failed after mutation")

end IndexTable

/-! ## CHUNK reads -/

namespace ChunkTable

variable {τ : Type} (t : ChunkTable)

/-- Read several chunks as one batch, then drain evictions. -/
def readChunksBatched (oram : Oram τ) (chunkIds : List ℕ) (s : TableState τ) :
    Except String (List Bytes) × TableState τ :=
  match chunkIds.find? (t.totalChunks ≤ ·) with
  | some chunkId => (.error s!"direct item_id {chunkId} out of range {t.totalChunks}", s)
  | none =>
    match oram.readBatch s.oram (chunkIds.map (· / t.itemsPerBlock)) with
    | (.error e, o) => (.error e, { s with oram := o, accesses := s.accesses + chunkIds.length })
    | (.ok blocks, o) =>
      let s := { s with oram := o, accesses := s.accesses + chunkIds.length }
      match oram.drainEvictions s.oram (t.drainPerAccess * chunkIds.length) with
      | (.error e, o) => (.error e, { s with oram := o })
      | (.ok _, o) =>
        (.ok ((chunkIds.zip blocks).map fun read =>
          packedItem t.itemsPerBlock directChunkRecordSize read.1 read.2), { s with oram := o })

def readChunks (oram : Oram τ) (chunkIds : List ℕ) (s : TableState τ) :
    Except String (List Bytes) × TableState τ :=
  if chunkIds = [] then (.ok [], s)
  else
    match s.checkNotPoisoned "chunk" with
    | .error e => (.error e, s)
    | .ok () =>
      match t.readChunksBatched oram chunkIds { s with dirty := true } with
      | (.error _, s) =>
        (.error "Direct ORAM chunk read failed after mutation",
          s.poison "Direct ORAM chunk read failed after mutation")
      | (.ok payloads, s) =>
        if ∀ payload ∈ payloads, payload.length = directChunkRecordSize then (.ok payloads, s)
        else
          (.error "Direct ORAM chunk read returned an invalid payload length",
            s.poison "Direct ORAM chunk read returned an invalid payload length")

def readDummyMany (oram : Oram τ) (count : ℕ) (s : TableState τ) :
    Except String Unit × TableState τ :=
  if count = 0 then (.ok (), s)
  else if t.totalChunks = 0 then
    (.error "direct ORAM chunk table is empty; cannot issue dummy read", s)
  else
    match s.checkNotPoisoned "chunk" with
    | .error e => (.error e, s)
    | .ok () =>
      match oram.dummyAccessBatch s.oram count with
      | (.error _, o) =>
        (.error "Direct ORAM dummy chunk read failed after mutation",
          { s with oram := o, dirty := true, accesses := s.accesses + count }.poison
            "Direct ORAM dummy chunk read failed after mutation")
      | (.ok (), o) =>
        let s := { s with oram := o, dirty := true, accesses := s.accesses + count }
        match oram.drainEvictions s.oram (t.drainPerAccess * count) with
        | (.error _, o) =>
          (.error "Direct ORAM dummy chunk read failed after mutation",
            { s with oram := o }.poison "Direct ORAM dummy chunk read failed after mutation")
        | (.ok _, o) => (.ok (), { s with oram := o })

end ChunkTable

/-! ## A request -/

structure Tables where
  index : IndexTable
  chunk : ChunkTable
  accessBudget : ℕ

/-- The changing part of the two tables of a database. -/
structure State (σ τ : Type) where
  index : TableState σ
  chunk : TableState τ

def State.abort {σ τ : Type} (s : State σ τ) : State σ τ :=
  { index := s.index.abortRequest "index", chunk := s.chunk.abortRequest "chunk" }

structure NativeLookupResult where
  found : Bool
  whale : Bool
  startChunkId : Option UInt32
  numChunks : UInt8
  rawChunkData : Bytes
  deriving DecidableEq

/-- The result of a slot before its chunks are read, and the chunks it asks for. A slot that is not
present asks for nothing. -/
def planSlot (lookup : IndexLookup) (present : Bool) :
    Except String (NativeLookupResult × List ℕ) :=
  if present = false then .ok (⟨false, false, none, 0, []⟩, [])
  else
    let result : NativeLookupResult :=
      { found := lookup.found
        whale := lookup.found && lookup.numChunks == 0
        startChunkId := if lookup.found then some lookup.startChunkId else none
        numChunks := lookup.numChunks
        rawChunkData := [] }
    if lookup.found = true ∧ lookup.numChunks ≠ 0 then
      if lookup.startChunkId.toNat + lookup.numChunks.toNat < 2 ^ 32 then
        .ok (result, (List.range lookup.numChunks.toNat).map (lookup.startChunkId.toNat + ·))
      else .error "direct INDEX entry chunk range overflows u32"
    else .ok (result, [])

/-- The slots of a request, each with the chunks it asks for. -/
abbrev PlannedSlots := List (NativeLookupResult × List ℕ)

/-- Each slot takes its own chunks from the payloads read. -/
def fillResults : PlannedSlots → List Bytes → List NativeLookupResult
  | [], _ => []
  | (result, chunks) :: slots, payloads =>
    { result with rawChunkData := (payloads.take chunks.length).flatten } ::
      fillResults slots (payloads.drop chunks.length)

section Request

variable {σ τ : Type} (t : Tables) (indexOram : Oram σ) (chunkOram : Oram τ)

/-- End a request: both tables are made durable, first the INDEX. -/
def finishBoth {α : Type} (result : Except String α) (s : State σ τ) :
    Except String α × State σ τ :=
  match s.index.finishRequest indexOram "index" t.index.saveState with
  | (.error e, index) => (.error e, { index, chunk := s.chunk.abortRequest "chunk" })
  | (.ok (), index) =>
    match s.chunk.finishRequest chunkOram "chunk" t.chunk.saveState with
    | (.error e, chunk) => (.error e, { index, chunk })
    | (.ok (), chunk) => (result, { index, chunk })

/-- The CHUNK half of a request: the chunks the slots ask for and dummy reads up to the budget. A
demand over the budget is refused after as many dummy reads. -/
def readPlanned (chunkBudget : ℕ) (slots : PlannedSlots) (s : State σ τ) :
    Except String (List NativeLookupResult) × State σ τ :=
  let chunkIds := slots.flatMap Prod.snd
  if chunkBudget < chunkIds.length then
    match t.chunk.readDummyMany chunkOram chunkBudget s.chunk with
    | (.error e, chunk) => (.error e, { s with chunk }.abort)
    | (.ok (), chunk) =>
      finishBoth t indexOram chunkOram (.error (s!"direct ORAM chunk demand {chunkIds.length} " ++
        s!"exceeds remaining access budget {chunkBudget}")) { s with chunk }
  else
    match t.chunk.readChunks chunkOram chunkIds s.chunk with
    | (.error e, chunk) => (.error e, { s with chunk }.abort)
    | (.ok payloads, chunk) =>
      match t.chunk.readDummyMany chunkOram (chunkBudget - chunkIds.length) chunk with
      | (.error e, chunk) => (.error e, { s with chunk }.abort)
      | (.ok (), chunk) =>
        finishBoth t indexOram chunkOram (.ok (fillResults slots payloads)) { s with chunk }

def directNativeLookupSlots (scriptHashes : List ScriptHash) (slotPresent : List Bool)
    (s : State σ τ) : Except String (List NativeLookupResult) × State σ τ :=
  let indexBudget := t.index.hashFns * scriptHashes.length
  if slotPresent.length ≠ scriptHashes.length then
    (.error (s!"direct ORAM slot-present length {slotPresent.length} does not match script hash " ++
      s!"count {scriptHashes.length}"), s)
  else if 2 ^ 64 ≤ indexBudget then (.error "direct ORAM index budget overflow", s)
  else if t.accessBudget < indexBudget then
    (.error (s!"direct ORAM access budget {t.accessBudget} too small for {scriptHashes.length} " ++
      s!"script hashes and {t.index.hashFns} index reads each"), s)
  else
    -- Nothing is touched if an earlier request has made one of the tables unusable.
    match s.index.checkNotPoisoned "index", s.chunk.checkNotPoisoned "chunk" with
    | .error e, _ => (.error e, s)
    | .ok (), .error e => (.error e, s)
    | .ok (), .ok () =>
      match t.index.lookupMany indexOram scriptHashes s.index with
      | (.error e, index) => (.error e, { s with index }.abort)
      | (.ok lookups, index) =>
        if lookups.length ≠ scriptHashes.length then
          let e := s!"direct ORAM index batch returned {lookups.length} lookup(s), expected " ++
            s!"{scriptHashes.length}"
          (.error e, { s with index }.abort)
        else
          match (lookups.zip slotPresent).mapM fun slot => planSlot slot.1 slot.2 with
          | .error e => (.error e, { s with index }.abort)
          | .ok slots => readPlanned t indexOram chunkOram (t.accessBudget - indexBudget) slots
              { s with index }

/-! ## The response -/

structure OramLookupItem where
  found : Bool
  whale : Bool
  startChunkId : UInt32
  numChunks : UInt8
  rawChunkData : Bytes

structure OramLookupResult where
  dbId : UInt8
  items : List OramLookupItem
  trailingPaddingBytes : ℕ

def OramLookupItem.encode (item : OramLookupItem) : Bytes :=
  [(if item.found then 1 else 0) ||| (if item.whale then 2 else 0)] ++
    leBytes 4 item.startChunkId.toNat ++ [item.numChunks] ++
    leBytes 4 item.rawChunkData.length ++ item.rawChunkData

def encodeOramLookupResult (r : OramLookupResult) : Bytes :=
  [r.dbId] ++ leBytes 2 r.items.length ++ r.items.flatMap OramLookupItem.encode ++
    List.replicate r.trailingPaddingBytes 0

def directOramResponsePaddingBytes (accessBudget slots hashFns actualChunkBytes : ℕ) :
    Except String ℕ :=
  let indexBudget := hashFns * slots
  if 2 ^ 64 ≤ indexBudget then .error "direct ORAM response index budget overflow"
  else if accessBudget < indexBudget then
    .error (s!"direct ORAM access budget {accessBudget} too small for {slots} slots and " ++
      s!"{hashFns} index reads each")
  else
    let maxChunkBytes := (accessBudget - indexBudget) * directChunkRecordSize
    if 2 ^ 64 ≤ maxChunkBytes then .error "direct ORAM response padding byte count overflow"
    else if maxChunkBytes < actualChunkBytes then
      .error (s!"direct ORAM response has {actualChunkBytes} chunk bytes, exceeding public " ++
        s!"budget {maxChunkBytes}")
    else .ok (maxChunkBytes - actualChunkBytes)

def NativeLookupResult.toItem (result : NativeLookupResult) : OramLookupItem :=
  { found := result.found
    whale := result.whale
    startChunkId := result.startChunkId.getD 0
    numChunks := result.numChunks
    rawChunkData := result.rawChunkData }

/-- The response to a lookup in a database with a Direct ORAM. -/
def handleOramLookup (query : OramLookupRequest) (s : State σ τ) :
    Except String OramLookupResult × State σ τ :=
  match directNativeLookupSlots t indexOram chunkOram query.scriptHashes query.slotPresent s with
  | (.error e, s) => (.error s!"Direct ORAM lookup failed: {e}", s)
  | (.ok lookup, s) =>
    let actualChunkBytes := (lookup.map fun item => item.rawChunkData.length).sum
    if 2 ^ 64 ≤ actualChunkBytes then (.error "direct ORAM response chunk byte count overflow", s)
    else
      match directOramResponsePaddingBytes t.accessBudget query.scriptHashes.length
          t.index.hashFns actualChunkBytes with
      | .error e => (.error e, s)
      | .ok trailingPaddingBytes =>
        (.ok { dbId := query.dbId, items := lookup.map NativeLookupResult.toItem,
               trailingPaddingBytes }, s)

end Request

end BitcoinPir.DirectOram
