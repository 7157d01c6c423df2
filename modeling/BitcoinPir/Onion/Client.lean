import BitcoinPir.Onion.Merkle
import BitcoinPir.Trust.Installed

/-!
# The OnionPIR client under installed roots

The client keeps the parameters of its queries in three places: the query catalog, built from the
server's info JSON over the standard catalog; the standard catalog itself, against which proofs are
verified; and the packing parameters of each database. The first two are replaced together, and
installed roots are bound to the identity of the query catalog. The packing parameters are
overwritten by every info JSON, and installation copies them from the attested layout once.

Installation compares the tag seed of the query catalog with the standard catalog of the moment, and
the two master seeds with nothing. **`run_placedByProof`**: in every run in which roots are installed
over the seeds they were verified with, and every later info JSON repeats the attested packing
parameters, a query on a database with version 2 roots is placed by the proof alone.
-/

namespace BitcoinPir.Onion

open Foundations Trust Function

/-! ## Server info -/

/-- The packing parameters of a database. -/
structure OnionDbParams where
  totalPacked : ℕ
  indexSlotsPerBin : ℕ
  indexSlotSize : ℕ
  deriving DecidableEq

/-- What the info JSON says about the levels of a database; a seed of zero counts as absent. -/
structure OnionLevels where
  indexBins : UInt32
  chunkBins : UInt32
  indexK : UInt8
  chunkK : UInt8
  tagSeed : UInt64
  indexMasterSeed : Option UInt64
  chunkMasterSeed : Option UInt64

/-- An info JSON, as the client's scanner reads it for each database. -/
structure InfoJson where
  params : UInt8 → Option OnionDbParams
  merkle : UInt8 → Option OnionMerkleInfo
  levels : UInt8 → OnionLevels

/-- No database has packing parameters. -/
def InfoJson.noParams (info : InfoJson) : Bool :=
  (List.range 256).all fun n => (info.params (UInt8.ofNat n)).isNone

/-- The entry of the query catalog for an entry of the standard catalog. -/
def queryEntry (levels : OnionLevels) (d : DatabaseInfo) : DatabaseInfo :=
  { d with
    indexBins := levels.indexBins
    chunkBins := levels.chunkBins
    indexK := levels.indexK
    chunkK := levels.chunkK
    tagSeed := levels.tagSeed
    dpfNIndex := UInt8.ofNat (computeDpfN levels.indexBins.toNat)
    dpfNChunk := UInt8.ofNat (computeDpfN levels.chunkBins.toNat)
    hasBucketMerkle := false
    -- The server's own seeds win.
    indexMasterSeed := levels.indexMasterSeed.getD d.indexMasterSeed
    chunkMasterSeed := levels.chunkMasterSeed.getD d.chunkMasterSeed }

def buildCatalog (info : InfoJson) (dc : DatabaseCatalog) : DatabaseCatalog :=
  ⟨(dc.databases.filter fun d => (info.params d.dbId).isSome).map fun d =>
    queryEntry (info.levels d.dbId) d⟩

/-! ## The client -/

section Client

variable (H : Bytes → Hash256)

/-- A query that was sent: the entry and the packing parameters that placed it, and what was installed
for its database. -/
structure OnionQuery where
  db : DatabaseInfo
  params : OnionDbParams
  installed : Option (Verification H)

structure OnionClient where
  connected : Bool
  catalog : Option DatabaseCatalog
  proofCatalog : Option DatabaseCatalog
  onionParams : UInt8 → Option OnionDbParams
  onionMerkle : UInt8 → Option OnionMerkleInfo
  verifiedRoots : VerifiedRootState H
  verifiedTreeTops : UInt8 → Bool
  /-- The queries so far, newest first. -/
  queries : List (OnionQuery H)

variable {H}

namespace OnionClient

def new : OnionClient H where
  connected := false
  catalog := none
  proofCatalog := none
  onionParams := fun _ => none
  onionMerkle := fun _ => none
  verifiedRoots := .empty
  verifiedTreeTops := fun _ => false
  queries := []

variable (c : OnionClient H) (dialled : Bool) (dbId : UInt8) (info : PirResult InfoJson)
  (response : PirResult Bytes) (tops : PirResult Unit)

def clearVerifiedDatabaseRoots : OnionClient H :=
  { c with verifiedRoots := .empty, verifiedTreeTops := fun _ => false }

def invalidateSessionBindings : OnionClient H :=
  { c.clearVerifiedDatabaseRoots with
    catalog := none
    proofCatalog := none
    onionParams := fun _ => none
    onionMerkle := fun _ => none }

def connect : OnionClient H :=
  if c.connected then c else { c.invalidateSessionBindings with connected := dialled }

def connectWithTransport : OnionClient H := { c.invalidateSessionBindings with connected := true }

def disconnect : OnionClient H := { c.invalidateSessionBindings with connected := false }

variable (H) in
def readDpfCatalog (response : Bytes) : PirResult DatabaseCatalog :=
  if response.head? ≠ some Client.respDbCatalog then .error (.protocol "no DPF catalog available")
  else decodeCatalog H response.tail

/-- The info JSON and then the standard catalog. What was taken over from the JSON stays when the
catalog does not arrive. -/
def fetchServerInfo : PirResult DatabaseCatalog × OnionClient H :=
  if !c.connected then (.error .notConnected, c)
  else
    match info with
    | .error e => (.error e, c)
    | .ok info =>
      if info.noParams then
        (.error (.protocol
          "server has no OnionPIR data — is this an OnionPIR-enabled server?"),
          { c with onionParams := info.params })
      else
        let c := { c with onionParams := info.params, onionMerkle := info.merkle }
        match response.bind (readDpfCatalog H) with
        | .error e => (.error e, c)
        | .ok dc =>
          let catalog := buildCatalog info dc
          (.ok catalog, { c with proofCatalog := some dc, catalog := some catalog })

def fetchCatalog : PirResult DatabaseCatalog × OnionClient H :=
  match c.fetchServerInfo info response with
  | (.error e, c) => (.error e, c)
  | (.ok catalog, c) =>
    let verifiedRoots := c.verifiedRoots.reconcileCatalog catalog
    (.ok catalog, { c with
      verifiedRoots
      verifiedTreeTops := fun dbId => c.verifiedTreeTops dbId && (verifiedRoots.get dbId).isSome })

/-- The cached catalog, or a fetched one. -/
def currentCatalog : PirResult DatabaseCatalog × OnionClient H :=
  match c.catalog with
  | some catalog => (.ok catalog, c)
  | none => c.fetchCatalog info response

def proofDatabaseInfo : PirResult DatabaseInfo :=
  match c.proofCatalog with
  | none => .error (.verificationFailed
      ("OnionPIR strict verification requires REQ_GET_DB_CATALOG; " ++
        "server provided only OnionPIR query geometry"))
  | some catalog =>
    match catalog.get dbId with
    | none => .error (.databaseNotFound dbId.toNat)
    | some db => .ok db

/-- Verify a proof against the entry of the standard catalog. The roots are returned, not
installed. -/
def verifyDatabaseProofV2 (bundle : PirResult DatabaseProofBundle)
    (policy : DatabaseProofPolicy) : PirResult VerifiedDatabaseRoots × OnionClient H :=
  if !c.connected then (.error .notConnected, c)
  else
    match c.currentCatalog info response with
    | (.error e, c) => (.error e, c)
    | (.ok catalog, c) =>
      match catalog.get dbId with
      | none => (.error (.databaseNotFound dbId.toNat), c)
      | some _ =>
        (do
          let db ← c.proofDatabaseInfo dbId
          let bundle ← bundle
          Trust.verifyDatabaseProofV2 H db bundle policy, c)

/-- The packing parameters of a layout. -/
def layoutParams (layout : OnionQueryLayoutV2) : OnionDbParams where
  totalPacked := layout.totalPackedEntries.toNat
  indexSlotsPerBin := layout.indexSlotsPerBin.toNat
  indexSlotSize := layout.indexSlotSize.toNat

/-- The checks of the query catalog and the Merkle metadata against the attested layout;
`entrySize` is the size of a packed entry of this build. -/
def checkLayout (entrySize : ℕ) (catalog : DatabaseCatalog) (dbId : UInt8)
    (layout : OnionQueryLayoutV2) : PirResult Unit :=
  match catalog.get dbId, c.proofCatalog.bind fun catalog => catalog.get dbId with
  | none, _ => .error (.databaseNotFound dbId.toNat)
  | some _, none => .error
      (.verificationFailed "OnionPIR root installation requires the standard database catalog")
  | some queryDb, some proofDb => do
    require (queryDb.indexBins = layout.indexBinsPerTable ∧
        queryDb.chunkBins = layout.chunkBinsPerTable ∧ queryDb.indexK = layout.indexK.toUInt8 ∧
        queryDb.chunkK = layout.chunkK.toUInt8 ∧ queryDb.tagSeed = proofDb.tagSeed)
      (.verificationFailed s!"server Onion query geometry disagrees with proof v2 for db_id {dbId}")
    require (entrySize = layout.entrySize.toNat) (.verificationFailed
      s!"local OnionPIR entry size {entrySize} disagrees with proof v2 {layout.entrySize}")
    match c.onionMerkle dbId with
    | none => .error (.verificationFailed s!"db_id {dbId} has no OnionPIR Merkle metadata")
    | some merkle =>
      require (merkle.arity = layout.merkleArity.toNat ∧ merkle.index.k = layout.indexK.toNat ∧
          merkle.data.k = layout.chunkK.toNat ∧
          merkle.index.numPt = layout.indexBinsPerTable.toNat ⌈/⌉ layout.merkleArity.toNat ∧
          merkle.data.numPt = layout.chunkBinsPerTable.toNat ⌈/⌉ layout.merkleArity.toNat)
        (.verificationFailed
          s!"server Onion Merkle geometry disagrees with proof v2 for db_id {dbId}")

def installVerifiedDatabaseRoots (entrySize : ℕ) (v : Verification H) :
    PirResult Unit × OnionClient H :=
  match c.catalog with
  | none => (.error (.invalidState "no catalog"), c)
  | some catalog =>
    let dbId := v.roots.dbId
    let checked : PirResult Unit := match v.roots.onionLayoutV2 with
      | none => .ok ()
      | some layout => c.checkLayout entrySize catalog dbId layout
    match checked.bind fun _ => c.verifiedRoots.install catalog v with
    | .error e => (.error e, c)
    | .ok verifiedRoots =>
      (.ok (), { c with
        verifiedRoots
        onionParams := match v.roots.onionLayoutV2 with
          | none => c.onionParams
          | some layout => update c.onionParams dbId (some (layoutParams layout))
        verifiedTreeTops := update c.verifiedTreeTops dbId false })

/-- Check the tree tops of a database against its installed roots, once; `tops` is what the check of
the downloaded tree tops returns. -/
def preflightTrustedTreeTops : PirResult Unit × OnionClient H :=
  match c.verifiedRoots.get dbId with
  | none => (.ok (), c)
  | some _ =>
    if c.verifiedTreeTops dbId then (.ok (), c)
    else
      match c.onionMerkle dbId with
      | none =>
        (.error (.verificationFailed s!"db_id {dbId} has no OnionPIR Merkle metadata"), c)
      | some _ =>
        if !c.connected then (.error .notConnected, c)
        else
          match tops with
          | .error e => (.error e, c)
          | .ok _ =>
            (.ok (), { c with verifiedTreeTops := update c.verifiedTreeTops dbId true })

def preflightVerifiedDatabase : PirResult Unit × OnionClient H :=
  match c.verifiedRoots.get dbId with
  | none => (.error (.verificationFailed s!"db_id {dbId} has no installed database proof"), c)
  | some _ =>
    if !c.connected then (.error .notConnected, c)
    else
      match c.currentCatalog info response with
      | (.error e, c) => (.error e, c)
      | (.ok catalog, c) =>
        match catalog.get dbId with
        | none => (.error (.databaseNotFound dbId.toNat), c)
        | some _ => c.preflightTrustedTreeTops dbId tops

/-- The INDEX and CHUNK queries of a step are sent, with the packing parameters of the database. -/
def executeStep (db : DatabaseInfo) : PirResult Unit × OnionClient H :=
  match c.onionParams db.dbId with
  | none => (.error (.invalidState s!"no OnionPIR params for db_id={db.dbId}"), c)
  | some params =>
    (.ok (), { c with queries := ⟨db, params, c.verifiedRoots.get db.dbId⟩ :: c.queries })

def queryBatch : PirResult Unit × OnionClient H :=
  if !c.connected then (.error .notConnected, c)
  else
    match c.catalog with
    | none => (.error (.invalidState "no catalog"), c)
    | some catalog =>
      match catalog.get dbId with
      | none => (.error (.databaseNotFound dbId.toNat), c)
      | some db =>
        match c.preflightTrustedTreeTops dbId tops with
        | (.error e, c) => (.error e, c)
        | (.ok _, c) => c.executeStep db

/-- A step of a sync plan: its database, and the outcome of the check of its tree tops. -/
structure PlanStep where
  dbId : UInt8
  tops : PirResult Unit

def preflightSteps : List PlanStep → OnionClient H → PirResult Unit × OnionClient H
  | [], c => (.ok (), c)
  | step :: steps, c =>
    match c.preflightTrustedTreeTops step.dbId step.tops with
    | (.error e, c) => (.error e, c)
    | (.ok _, c) => preflightSteps steps c

/-- The steps one after the other, up to the first that fails. -/
def executeSteps (catalog : DatabaseCatalog) : List PlanStep → OnionClient H → OnionClient H
  | [], c => c
  | step :: steps, c =>
    match catalog.get step.dbId with
    | none => c
    | some db =>
      match c.executeStep db with
      | (.error _, c) => c
      | (.ok _, c) => executeSteps catalog steps c

/-- Run a sync plan; `sent` of its steps are reached, the others not when one fails. -/
def syncWithPlan (steps : List PlanStep) (sent : ℕ) : OnionClient H :=
  if steps = [] then c
  else
    match c.catalog with
    | none => c
    | some catalog =>
      match preflightSteps steps c with
      | (.error _, c) => c
      | (.ok _, c) => executeSteps catalog (steps.take sent) c

def sync (steps : List PlanStep) (sent : ℕ) : OnionClient H :=
  let c := c.connect dialled
  if !c.connected then c
  else
    match c.currentCatalog info response with
    | (.error _, c) => c
    | (.ok _, c) => c.syncWithPlan steps sent

end OnionClient

/-! ## Runs -/

/-- A call of the client, with what it receives. -/
inductive OnionCall (H : Bytes → Hash256)
  | connect (dialled : Bool)
  | connectWithTransport
  | disconnect
  | fetchCatalog (info : PirResult InfoJson) (response : PirResult Bytes)
  | verifyDatabaseProofV2 (dbId : UInt8) (info : PirResult InfoJson)
      (response : PirResult Bytes) (bundle : PirResult DatabaseProofBundle)
      (policy : DatabaseProofPolicy)
  | installVerifiedDatabaseRoots (v : Verification H)
  | clearVerifiedDatabaseRoots
  | preflightVerifiedDatabase (dbId : UInt8) (info : PirResult InfoJson)
      (response : PirResult Bytes) (tops : PirResult Unit)
  | queryBatch (dbId : UInt8) (tops : PirResult Unit)
  | syncWithPlan (steps : List OnionClient.PlanStep) (sent : ℕ)
  | sync (dialled : Bool) (info : PirResult InfoJson) (response : PirResult Bytes)
      (steps : List OnionClient.PlanStep) (sent : ℕ)

def OnionClient.step (entrySize : ℕ) (c : OnionClient H) : OnionCall H → OnionClient H
  | .connect dialled => c.connect dialled
  | .connectWithTransport => c.connectWithTransport
  | .disconnect => c.disconnect
  | .fetchCatalog info response => (c.fetchCatalog info response).2
  | .verifyDatabaseProofV2 dbId info response bundle policy =>
    (c.verifyDatabaseProofV2 dbId info response bundle policy).2
  | .installVerifiedDatabaseRoots v => (c.installVerifiedDatabaseRoots entrySize v).2
  | .clearVerifiedDatabaseRoots => c.clearVerifiedDatabaseRoots
  | .preflightVerifiedDatabase dbId info response tops =>
    (c.preflightVerifiedDatabase dbId info response tops).2
  | .queryBatch dbId tops => (c.queryBatch dbId tops).2
  | .syncWithPlan steps sent => c.syncWithPlan steps sent
  | .sync dialled info response steps sent => c.sync dialled info response steps sent

/-! ## Queries placed by the proof -/

/-- An entry with the seeds of the attested anchor and the dimensions of the attested layout. -/
structure AttestedEntry (v : Verification H) (layout : OnionQueryLayoutV2) (db : DatabaseInfo) :
    Prop where
  tagSeed : db.tagSeed = v.db.tagSeed
  indexMasterSeed : db.indexMasterSeed = v.db.indexMasterSeed
  chunkMasterSeed : db.chunkMasterSeed = v.db.chunkMasterSeed
  indexBins : db.indexBins = layout.indexBinsPerTable
  chunkBins : db.chunkBins = layout.chunkBinsPerTable
  indexK : db.indexK = layout.indexK.toUInt8
  chunkK : db.chunkK = layout.chunkK.toUInt8

/-- What places the query is fixed by the proof of the installed roots: the seeds by the attested
anchor, the dimensions by the attested layout. -/
def OnionQuery.PlacedByProof (q : OnionQuery H) : Prop :=
  ∀ v layout, q.installed = some v → v.roots.onionLayoutV2 = some layout →
    ∃ ev, BuildEvidence.decode v.bundle.buildEvidence = .ok ev ∧ ev.onionLayoutV2 = some layout ∧
      q.db.tagSeed = (AnchorSeeds.derive H ev.headerAnchor).indexTag ∧
      q.db.indexMasterSeed = (AnchorSeeds.derive H ev.headerAnchor).indexMaster ∧
      q.db.chunkMasterSeed = (AnchorSeeds.derive H ev.headerAnchor).chunkMaster ∧
      q.db.indexBins = layout.indexBinsPerTable ∧ q.db.chunkBins = layout.chunkBinsPerTable ∧
      q.db.indexK.toNat = layout.indexK.toNat ∧ q.db.chunkK.toNat = layout.chunkK.toNat ∧
      q.params = OnionClient.layoutParams layout

theorem onionLayoutV2_of_accepted {db : DatabaseInfo} {bundle : DatabaseProofBundle}
    {policy : DatabaseProofPolicy} {roots : VerifiedDatabaseRoots} {layout : OnionQueryLayoutV2}
    (h : verifyDatabaseProof H db bundle policy = .ok roots)
    (hlayout : roots.onionLayoutV2 = some layout) : layout.indexK = 75 ∧ layout.chunkK = 80 := by
  simp only [verifyDatabaseProof, verifyAgainstCatalogAndPolicy, bind_eq_ok, return_eq_ok] at h
  obtain ⟨_, _, dir, _, _, ⟨_, _, _, _, _, _, found, hfound, _, _, rfl⟩, rfl⟩ := h
  change found = some layout at hlayout
  rw [hlayout] at hfound
  unfold verifyOnionLayout at hfound
  split_ifs at hfound
  · split at hfound
    next => cases hfound
    next layout' _ =>
      split at hfound
      next => cases hfound
      next hvalid =>
        obtain ⟨_, -, hfound⟩ := bind_eq_ok.1 hfound
        cases hfound
        simp only [OnionQueryLayoutV2.validate, bind_eq_ok, require_eq_ok, exists_const, not_or,
          not_not] at hvalid
        exact hvalid.2.1
  · cases hfound

/-- An attested entry and the parameters of the layout place a query by the proof. -/
theorem OnionQuery.placedByProof {q : OnionQuery H}
    (h : ∀ v layout, q.installed = some v → v.roots.onionLayoutV2 = some layout →
      AttestedEntry v layout q.db ∧ q.params = OnionClient.layoutParams layout) :
    q.PlacedByProof := by
  intro v layout hv hlayout
  obtain ⟨hentry, hparams⟩ := h v layout hv hlayout
  obtain ⟨ev, hdecode, hroots, hmatches, -⟩ := verifyDatabaseProof_spec v.accepted
  have hm := verifyCatalogEntry_spec hmatches
  obtain ⟨hindexK, hchunkK⟩ := onionLayoutV2_of_accepted v.accepted hlayout
  have hev : ev.onionLayoutV2 = some layout := by
    rw [hroots, BuildEvidence.roots] at hlayout
    split_ifs at hlayout
    exact hlayout
  refine ⟨ev, hdecode, hev, hentry.tagSeed.trans hm.tagSeed,
    hentry.indexMasterSeed.trans hm.indexMasterSeed,
    hentry.chunkMasterSeed.trans hm.chunkMasterSeed, hentry.indexBins, hentry.chunkBins, ?_, ?_,
    hparams⟩
  · rw [hentry.indexK, hindexK]
    rfl
  · rw [hentry.chunkK, hchunkK]
    rfl

/-- A query placed by the proof has the seeds of the verified entry. -/
theorem OnionQuery.PlacedByProof.attested {q : OnionQuery H} (h : q.PlacedByProof)
    {v : Verification H} {layout : OnionQueryLayoutV2} (hv : q.installed = some v)
    (hlayout : v.roots.onionLayoutV2 = some layout) :
    q.db.indexMasterSeed = v.db.indexMasterSeed ∧ q.params = OnionClient.layoutParams layout := by
  obtain ⟨ev, hdecode, -, -, hseed, -, -, -, -, -, hparams⟩ := h v layout hv hlayout
  obtain ⟨ev', hdecode', -, hmatches, -⟩ := verifyDatabaseProof_spec v.accepted
  have hsame : ev = ev' := Except.ok.inj (hdecode.symm.trans hdecode')
  rw [hseed, (verifyCatalogEntry_spec hmatches).indexMasterSeed, hsame]
  exact ⟨rfl, hparams⟩

/-- All queries so far were placed by their proofs, and the cached catalog and the packing parameters
are those of the installed roots. -/
structure OnionClient.Sound (c : OnionClient H) : Prop where
  placed : ∀ q ∈ c.queries, q.PlacedByProof
  bound : ∀ dbId v, c.verifiedRoots.get dbId = some v → ∃ catalog db, c.catalog = some catalog ∧
    c.verifiedRoots.boundCatalog = some (catalogIdentity catalog) ∧ catalog.get dbId = some db ∧
    ∀ layout, v.roots.onionLayoutV2 = some layout → AttestedEntry v layout db
  params : ∀ dbId v layout, c.verifiedRoots.get dbId = some v →
    v.roots.onionLayoutV2 = some layout → ∀ p, c.onionParams dbId = some p → p = layoutParams layout

namespace OnionClient

variable {c c' : OnionClient H} (dialled : Bool) (dbId : UInt8) (info : PirResult InfoJson)
  (response : PirResult Bytes) (tops : PirResult Unit) (steps : List PlanStep) (sent : ℕ)

/-- `c'` differs from `c` at most in its connection, the standard catalog, the Merkle metadata and
the tree tops. -/
structure Same (c c' : OnionClient H) : Prop where
  catalog : c'.catalog = c.catalog
  onionParams : c'.onionParams = c.onionParams
  verifiedRoots : c'.verifiedRoots = c.verifiedRoots
  queries : c'.queries = c.queries

theorem Same.refl (c : OnionClient H) : c.Same c := ⟨rfl, rfl, rfl, rfl⟩

theorem Same.trans {c'' : OnionClient H} (h : c.Same c') (h' : c'.Same c'') : c.Same c'' :=
  ⟨h'.catalog.trans h.catalog, h'.onionParams.trans h.onionParams,
    h'.verifiedRoots.trans h.verifiedRoots, h'.queries.trans h.queries⟩

theorem Sound.of_same (hc : c.Sound) (h : c.Same c') : c'.Sound where
  placed := h.queries ▸ hc.placed
  bound := by
    rw [h.catalog, h.verifiedRoots]
    exact hc.bound
  params := by
    rw [h.onionParams, h.verifiedRoots]
    exact hc.params

/-- Without installed roots only the queries count. -/
theorem Sound.of_empty (hc : c.Sound) (hroots : c'.verifiedRoots = .empty)
    (hqueries : c'.queries = c.queries) : c'.Sound where
  placed := hqueries ▸ hc.placed
  bound dbId v h := by
    rw [hroots] at h
    cases h
  params dbId v layout h := by
    rw [hroots] at h
    cases h

theorem new_sound : (new : OnionClient H).Sound where
  placed q hq := absurd hq List.not_mem_nil
  bound dbId v h := by cases h
  params dbId v layout h := by cases h

theorem Sound.connect (hc : c.Sound) : (c.connect dialled).Sound := by
  rw [OnionClient.connect]
  split_ifs
  · exact hc
  · exact hc.of_empty rfl rfl

/-! ### Catalogs -/

/-- An info JSON repeats the packing parameters of the installed layouts. -/
def RepeatsParams (c : OnionClient H) (info : PirResult InfoJson) : Prop :=
  ∀ i, info = .ok i → ∀ dbId v layout, c.verifiedRoots.get dbId = some v →
    v.roots.onionLayoutV2 = some layout → ∀ p, i.params dbId = some p → p = layoutParams layout

theorem AttestedEntry.of_identity {v : Verification H} {layout : OnionQueryLayoutV2}
    {db db' : DatabaseInfo} (h : AttestedEntry v layout db)
    (hid : entryIdentity db = entryIdentity db') : AttestedEntry v layout db' := by
  rw [eq_rename_of_identity hid]
  exact ⟨h.tagSeed, h.indexMasterSeed, h.chunkMasterSeed, h.indexBins, h.chunkBins, h.indexK,
    h.chunkK⟩

theorem Sound.fetchCatalog (hc : c.Sound) (hinfo : c.RepeatsParams info) :
    (c.fetchCatalog info response).2.Sound := by
  unfold OnionClient.fetchCatalog fetchServerInfo
  by_cases hconnected : (!c.connected) = true
  · rw [if_pos hconnected]
    exact hc
  · rw [if_neg hconnected]
    cases info with
    | error e => exact hc
    | ok info =>
      have hparams := hinfo info rfl
      dsimp only
      by_cases hempty : info.noParams = true
      · rw [if_pos hempty]
        exact ⟨hc.placed, hc.bound, hparams⟩
      · rw [if_neg hempty]
        cases response.bind (readDpfCatalog H) with
        | error e => exact ⟨hc.placed, hc.bound, hparams⟩
        | ok dc =>
          refine ⟨hc.placed, fun dbId v h => ?_, fun dbId v layout h => ?_⟩
          · obtain ⟨old, db, -, hbound, hentry, hattested⟩ :=
              hc.bound dbId v (Client.get_of_get_reconcileCatalog h)
            obtain ⟨hid, hbound'⟩ := Client.boundCatalog_reconcileCatalog h hbound
            obtain ⟨db', hentry', hdb⟩ := get_of_catalogIdentity hid hentry
            exact ⟨_, db', rfl, hbound', hentry',
              fun layout hlayout => AttestedEntry.of_identity (hattested layout hlayout) hdb⟩
          · exact hparams dbId v layout (Client.get_of_get_reconcileCatalog h)

/-- A catalog is fetched on the way only if there is none, and then no roots are installed. -/
theorem Sound.currentCatalog (hc : c.Sound) : (c.currentCatalog info response).2.Sound := by
  rw [OnionClient.currentCatalog]
  split
  next => exact hc
  next hnone =>
    refine hc.fetchCatalog info response fun i _ dbId v layout hv => ?_
    obtain ⟨catalog, -, hcatalog, -⟩ := hc.bound dbId v hv
    rw [hnone] at hcatalog
    cases hcatalog

theorem Sound.verifyDatabaseProofV2 (hc : c.Sound)
    (bundle : PirResult DatabaseProofBundle) (policy : DatabaseProofPolicy) :
    (c.verifyDatabaseProofV2 dbId info response bundle policy).2.Sound := by
  have hcurrent := hc.currentCatalog info response
  rw [OnionClient.verifyDatabaseProofV2]
  split_ifs
  · exact hc
  · split
    next heq =>
      rw [heq] at hcurrent
      exact hcurrent
    next heq =>
      rw [heq] at hcurrent
      split
      next => exact hcurrent
      next => exact hcurrent

/-! ### Installation -/

/-- The entry the client queries with has the seeds the proof was verified with. -/
def OverOwnSeeds (c : OnionClient H) (v : Verification H) : Prop :=
  v.roots.onionLayoutV2 ≠ none → ∀ catalog db, c.catalog = some catalog →
    catalog.get v.roots.dbId = some db → db.tagSeed = v.db.tagSeed ∧
      db.indexMasterSeed = v.db.indexMasterSeed ∧ db.chunkMasterSeed = v.db.chunkMasterSeed

variable {catalog : DatabaseCatalog}

theorem checkLayout_eq_ok {entrySize : ℕ} {dbId : UInt8} {layout : OnionQueryLayoutV2}
    {db : DatabaseInfo} (hdb : catalog.get dbId = some db)
    (h : c.checkLayout entrySize catalog dbId layout = .ok ()) :
    db.indexBins = layout.indexBinsPerTable ∧ db.chunkBins = layout.chunkBinsPerTable ∧
      db.indexK = layout.indexK.toUInt8 ∧ db.chunkK = layout.chunkK.toUInt8 := by
  rw [checkLayout, hdb] at h
  split at h
  next => cases h
  next => cases h
  next queryDb proofDb hquery _ =>
    cases hquery
    obtain ⟨_, hgeometry, -⟩ := bind_eq_ok.1 h
    rw [require_eq_ok] at hgeometry
    exact ⟨hgeometry.1, hgeometry.2.1, hgeometry.2.2.1, hgeometry.2.2.2.1⟩

theorem Sound.install (hc : c.Sound) (entrySize : ℕ) {v : Verification H}
    (hown : c.OverOwnSeeds v) : (c.installVerifiedDatabaseRoots entrySize v).2.Sound := by
  rw [installVerifiedDatabaseRoots]
  split
  next => exact hc
  next catalog hcatalog =>
    dsimp only
    split
    next => exact hc
    next verifiedRoots hinstall =>
      obtain ⟨_, hchecked, hinstall⟩ := bind_eq_ok.1 hinstall
      rw [VerifiedRootState.install] at hinstall
      split at hinstall
      next => cases hinstall
      next db hentry =>
        obtain ⟨_, -, hinstall⟩ := bind_eq_ok.1 hinstall
        cases hinstall
        refine ⟨hc.placed, fun dbId w h => ?_, fun dbId w layout h hlayout p hp => ?_⟩
        · by_cases hdbId : dbId = v.roots.dbId
          · subst hdbId
            obtain rfl : v = w := by simpa [VerifiedRootState.get] using h
            refine ⟨catalog, db, hcatalog, rfl, hentry, fun layout hlayout => ?_⟩
            rw [hlayout] at hchecked
            obtain ⟨hib, hcb, hik, hck⟩ := checkLayout_eq_ok hentry hchecked
            obtain ⟨htag, him, hcm⟩ := hown (by rw [hlayout]; exact Option.some_ne_none _) catalog db
              hcatalog hentry
            exact ⟨htag, him, hcm, hib, hcb, hik, hck⟩
          · have hold : c.verifiedRoots.get dbId = some w := by
              simpa [VerifiedRootState.get, update_of_ne hdbId] using h
            obtain ⟨old, entry, hold, -, hget, hattested⟩ := hc.bound dbId w hold
            obtain rfl : catalog = old := Option.some_inj.1 (hcatalog.symm.trans hold)
            exact ⟨catalog, entry, hcatalog, rfl, hget, hattested⟩
        · by_cases hdbId : dbId = v.roots.dbId
          · subst hdbId
            obtain rfl : v = w := by simpa [VerifiedRootState.get] using h
            rw [hlayout] at hp
            dsimp only at hp
            rw [update_self, Option.some_inj] at hp
            exact hp.symm
          · have hold : c.verifiedRoots.get dbId = some w := by
              simpa [VerifiedRootState.get, update_of_ne hdbId] using h
            refine hc.params dbId w layout hold hlayout p ?_
            cases hv : v.roots.onionLayoutV2 with
            | none =>
              rw [hv] at hp
              exact hp
            | some layout' =>
              rw [hv] at hp
              dsimp only at hp
              rwa [update_of_ne hdbId] at hp

/-! ### Queries -/

theorem preflightTrustedTreeTops_same (c : OnionClient H) :
    c.Same (c.preflightTrustedTreeTops dbId tops).2 := by
  unfold preflightTrustedTreeTops
  split
  next => exact .refl c
  next =>
    split_ifs
    · exact .refl c
    · split
      next => exact .refl c
      next => exact .refl c
    · split
      next => exact .refl c
      next =>
        split
        next => exact .refl c
        next => exact ⟨rfl, rfl, rfl, rfl⟩

theorem Sound.preflight (hc : c.Sound) :
    (c.preflightVerifiedDatabase dbId info response tops).2.Sound := by
  have hcurrent := hc.currentCatalog info response
  rw [preflightVerifiedDatabase]
  split
  next => exact hc
  next =>
    split_ifs
    · exact hc
    · split
      next heq =>
        rw [heq] at hcurrent
        exact hcurrent
      next c' heq =>
        rw [heq] at hcurrent
        split
        next => exact hcurrent
        next => exact hcurrent.of_same (preflightTrustedTreeTops_same dbId tops c')

/-- A step placed by an entry of the cached catalog is placed by the proof. -/
theorem Sound.executeStep {dbId : UInt8} (hc : c.Sound) {db : DatabaseInfo}
    (hcatalog : c.catalog = some catalog) (hdb : catalog.get dbId = some db) :
    (c.executeStep db).2.Sound ∧ (c.executeStep db).2.catalog = some catalog := by
  rw [OnionClient.executeStep]
  split
  next => exact ⟨hc, hcatalog⟩
  next params hparams =>
    refine ⟨⟨fun q hq => ?_, hc.bound, hc.params⟩, hcatalog⟩
    rcases List.mem_cons.1 hq with rfl | hq
    · refine OnionQuery.placedByProof fun v layout hv hlayout => ?_
      refine ⟨?_, hc.params db.dbId v layout hv hlayout params hparams⟩
      obtain ⟨bound, entry, hbound, -, hentry, hattested⟩ := hc.bound db.dbId v hv
      obtain rfl : catalog = bound := Option.some_inj.1 (hcatalog.symm.trans hbound)
      rw [DatabaseCatalog.dbId_of_get hdb] at hentry
      obtain rfl : db = entry := Option.some_inj.1 (hdb.symm.trans hentry)
      exact hattested layout hlayout
    · exact hc.placed q hq

theorem Sound.queryBatch (hc : c.Sound) : (c.queryBatch dbId tops).2.Sound := by
  rw [OnionClient.queryBatch]
  split_ifs
  · exact hc
  · split
    next => exact hc
    next catalog hcatalog =>
      split
      next => exact hc
      next db hdb =>
        have hsame := preflightTrustedTreeTops_same dbId tops c
        split
        next heq =>
          rw [heq] at hsame
          exact hc.of_same hsame
        next heq =>
          rw [heq] at hsame
          exact ((hc.of_same hsame).executeStep (hsame.catalog.trans hcatalog) hdb).1

theorem preflightSteps_same (c : OnionClient H) :
    c.Same (preflightSteps steps c).2 := by
  induction steps generalizing c with
  | nil => exact .refl c
  | cons step steps ih =>
    rw [preflightSteps]
    have hsame := preflightTrustedTreeTops_same step.dbId step.tops c
    split
    next heq =>
      rw [heq] at hsame
      exact hsame
    next c' heq =>
      rw [heq] at hsame
      exact hsame.trans (ih c')

theorem Sound.executeSteps (hc : c.Sound) (hcatalog : c.catalog = some catalog) :
    (executeSteps catalog steps c).Sound := by
  induction steps generalizing c with
  | nil => exact hc
  | cons step steps ih =>
    rw [OnionClient.executeSteps]
    split
    next => exact hc
    next db hdb =>
      have hstep := hc.executeStep hcatalog hdb
      split
      next heq =>
        rw [heq] at hstep
        exact hstep.1
      next heq =>
        rw [heq] at hstep
        exact ih hstep.1 hstep.2

theorem Sound.syncWithPlan (hc : c.Sound) : (c.syncWithPlan steps sent).Sound := by
  rw [OnionClient.syncWithPlan]
  split_ifs
  · exact hc
  · split
    next => exact hc
    next catalog hcatalog =>
      have hsame := preflightSteps_same steps c
      split
      next heq =>
        rw [heq] at hsame
        exact hc.of_same hsame
      next heq =>
        rw [heq] at hsame
        exact (hc.of_same hsame).executeSteps _ (hsame.catalog.trans hcatalog)

theorem Sound.sync (hc : c.Sound) : (c.sync dialled info response steps sent).Sound := by
  have hconnect := hc.connect dialled
  have hcurrent := hconnect.currentCatalog info response
  rw [OnionClient.sync]
  split_ifs
  · exact hconnect
  · split
    next heq =>
      rw [heq] at hcurrent
      exact hcurrent
    next heq =>
      rw [heq] at hcurrent
      exact hcurrent.syncWithPlan steps sent

end OnionClient

/-- Roots are installed over the seeds they were verified with, and a fetched info JSON repeats the
packing parameters of the installed layouts; nothing else is asked of a call. -/
def AttestedCall (c : OnionClient H) : OnionCall H → Prop
  | .installVerifiedDatabaseRoots v => c.OverOwnSeeds v
  | .fetchCatalog info _ => c.RepeatsParams info
  | _ => True

theorem OnionClient.Sound.step {c : OnionClient H} (hc : c.Sound) (entrySize : ℕ)
    (call : OnionCall H) (h : AttestedCall c call) : (c.step entrySize call).Sound := by
  cases call with
  | connect dialled => exact hc.connect dialled
  | connectWithTransport => exact hc.of_empty rfl rfl
  | disconnect => exact hc.of_empty rfl rfl
  | fetchCatalog info response => exact hc.fetchCatalog info response h
  | verifyDatabaseProofV2 dbId info response bundle policy =>
    exact hc.verifyDatabaseProofV2 dbId info response bundle policy
  | installVerifiedDatabaseRoots v => exact hc.install entrySize h
  | clearVerifiedDatabaseRoots => exact hc.of_empty rfl rfl
  | preflightVerifiedDatabase dbId info response tops => exact hc.preflight dbId info response tops
  | queryBatch dbId tops => exact hc.queryBatch dbId tops
  | syncWithPlan steps sent => exact hc.syncWithPlan steps sent
  | sync dialled info response steps sent => exact hc.sync dialled info response steps sent

/-- **Queries under version 2 roots are placed by the proof** in every run in which roots are
installed over the seeds they were verified with and every fetched info JSON repeats the packing
parameters of the installed layouts. -/
theorem run_placedByProof (H : Bytes → Hash256) (entrySize : ℕ) (calls : List (OnionCall H))
    (h : EachStep (OnionClient.step entrySize) AttestedCall .new calls) :
    ∀ q ∈ (runFrom (OnionClient.step entrySize) .new calls).queries, q.PlacedByProof :=
  (EachStep.invariant (fun _ call hc hcall => hc.step entrySize call hcall) OnionClient.new_sound
    h).placed

end Client

/-! ## A server that chooses its seeds

The snapshot of `Sample`, proved by version 2 evidence. The info JSON can name an INDEX master seed
and a number of packed entries of its own. -/

namespace OwnSeeds

open Sample

def verification : Verification tailHash where
  db := entry tailHash 0 "main"
  bundle := bundle tailHash 0
  policy := policy
  roots := (evidence tailHash).roots 0
  accepted := accepted_main

def merkle : OnionMerkleInfo :=
  { arity := 104, superRoot := tailHash [8], treeTopsHash := zeroHash, treeTopsSize := 0,
    index := ⟨75, 1⟩, data := ⟨80, 2⟩ }

/-- The info JSON of the server: everything as attested but for the two given values. -/
def info (indexMasterSeed : Option UInt64) (totalPacked : ℕ) : InfoJson where
  params dbId := if dbId = 0 then some ⟨totalPacked, 221, 15⟩ else none
  merkle dbId := if dbId = 0 then some merkle else none
  levels _ := ⟨100, 200, 75, 80, (entry tailHash 0 "main").tagSeed, indexMasterSeed, none⟩

def fetch (indexMasterSeed : Option UInt64) (totalPacked : ℕ) : OnionCall tailHash :=
  .fetchCatalog (.ok (info indexMasterSeed totalPacked)) (.ok (Rotation.catalogResponse 100))

def verify : OnionCall tailHash :=
  .verifyDatabaseProofV2 0 (.error .notConnected) (.error .notConnected) (.ok (bundle tailHash 0))
    policy

def install : OnionCall tailHash := .installVerifiedDatabaseRoots verification

def query : OnionCall tailHash := .queryBatch 0 (.ok ())

def run (calls : List (OnionCall tailHash)) : OnionClient tailHash :=
  runFrom (OnionClient.step 3328) .new (.connect true :: calls)

theorem catalog_verify :
    (run [fetch none 20, verify]).catalog =
      some ⟨[{ entry tailHash 0 "main" with hasBucketMerkle := false }]⟩ := by decide +kernel

theorem overOwnSeeds : (run [fetch none 20, verify]).OverOwnSeeds verification := by
  intro _ catalog db hcatalog hdb
  rw [catalog_verify, Option.some_inj] at hcatalog
  subst hcatalog
  have hentry : db = { entry tailHash 0 "main" with hasBucketMerkle := false } :=
    Option.some_inj.1 (hdb.symm.trans rfl)
  rw [hentry]
  exact ⟨rfl, rfl, rfl⟩

theorem repeatsParams : (run []).RepeatsParams (.ok (info none 20)) := by
  intro i _ dbId v layout hv
  cases hv

end OwnSeeds

open OwnSeeds
open Sample (tailHash evidence)

theorem run_placedByProof_attestedSeeds :
    (run [fetch none 20, verify, install, query]).queries.length = 1 ∧
      ∀ q ∈ (run [fetch none 20, verify, install, query]).queries, q.PlacedByProof :=
  ⟨by decide +kernel, run_placedByProof tailHash 3328 _
    ⟨trivial, repeatsParams, trivial, overOwnSeeds, trivial, trivial⟩⟩

/-- Neither an INDEX master seed of the server's own before the installation, nor a number of packed
entries of its own after it, is noticed: the query is placed by it. -/
theorem ownValues_place_query :
    (∃ q ∈ (run [fetch (some 1) 20, verify, install, query]).queries, ¬q.PlacedByProof) ∧
      ∃ q ∈ (run [fetch none 20, verify, install, fetch none 7, query]).queries,
        ¬q.PlacedByProof := by
  have hseed : ∃ q ∈ (run [fetch (some 1) 20, verify, install, query]).queries,
      ∃ v ∈ q.installed, v.roots.onionLayoutV2 = some Sample.layout ∧
        q.db.indexMasterSeed ≠ v.db.indexMasterSeed := by decide +kernel
  have hpacked : ∃ q ∈ (run [fetch none 20, verify, install, fetch none 7, query]).queries,
      ∃ v ∈ q.installed, v.roots.onionLayoutV2 = some Sample.layout ∧
        q.params ≠ OnionClient.layoutParams Sample.layout := by decide +kernel
  obtain ⟨q, hq, v, hv, hlayout, hne⟩ := hseed
  obtain ⟨q', hq', v', hv', hlayout', hne'⟩ := hpacked
  exact ⟨⟨q, hq, fun h => hne (h.attested hv hlayout).1⟩,
    ⟨q', hq', fun h => hne' (h.attested hv' hlayout').2⟩⟩

end BitcoinPir.Onion
