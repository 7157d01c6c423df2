import BitcoinPir.Foundations.Runs
import BitcoinPir.Bucket.Verify
import BitcoinPir.Trust.DatabaseProof
import BitcoinPir.Wire.Catalog

/-!
# Installed roots

The roots a database proof returns are installed in the client by a separate call; from then on
the Merkle tree tops of the database are checked against them. The client also keeps the catalog
whose entries place its queries, and the catalog can be fetched again at any time. Roots are bound
to the identity of the catalog they are installed with: a fetched catalog of another identity drops
them (`VerifiedRootState.reconcileCatalog`).

Nothing binds roots to a catalog between the verification and the installation. Installation
compares heights only (`ensureRootsMatchCatalog`), so that roots verified against one entry can be
installed over another one. **`run_guarded`**: in every run in which roots are installed over the
entry they were verified against, a query on a database with installed roots is placed by an entry
that passes the verification itself.

`Client` is the part of the DPF and the HarmonyPIR client that decides this; it is the same in both
but for the reading of the catalog response.
-/

namespace BitcoinPir.Trust

open Foundations Bucket

/-! ## Catalog identities -/

def kindText : DatabaseKind → String
  | .full => "Full"
  | .delta baseHeight => "Delta \x7b base_height: " ++ toString baseHeight ++ " \x7d"

/-- An entry without its name. -/
structure CatalogIdentity where
  dbId : UInt8
  kind : String
  height : UInt32
  indexBins : UInt32
  chunkBins : UInt32
  indexK : UInt8
  chunkK : UInt8
  tagSeed : UInt64
  dpfNIndex : UInt8
  dpfNChunk : UInt8
  hasBucketMerkle : Bool
  indexMasterSeed : UInt64
  chunkMasterSeed : UInt64
  anchorKind : UInt8
  anchorBytes : Bytes
  deriving DecidableEq

def entryIdentity (db : DatabaseInfo) : CatalogIdentity where
  dbId := db.dbId
  kind := kindText db.kind
  height := db.height
  indexBins := db.indexBins
  chunkBins := db.chunkBins
  indexK := db.indexK
  chunkK := db.chunkK
  tagSeed := db.tagSeed
  dpfNIndex := db.dpfNIndex
  dpfNChunk := db.dpfNChunk
  hasBucketMerkle := db.hasBucketMerkle
  indexMasterSeed := db.indexMasterSeed
  chunkMasterSeed := db.chunkMasterSeed
  anchorKind := db.anchorKind
  anchorBytes := db.anchorBytes

def catalogIdentity (catalog : DatabaseCatalog) : List CatalogIdentity :=
  catalog.databases.map entryIdentity

/-! ## The installed roots -/

section Client

variable (H : Bytes → Hash256)

/-- A successful verification of a database proof. -/
structure Verification where
  /-- The catalog entry at the time. -/
  db : DatabaseInfo
  bundle : DatabaseProofBundle
  policy : DatabaseProofPolicy
  roots : VerifiedDatabaseRoots
  accepted : verifyDatabaseProof H db bundle policy = .ok roots

/-- The installed roots by database, each with the verification that returned it. -/
structure VerifiedRootState where
  roots : UInt8 → Option (Verification H)
  boundCatalog : Option (List CatalogIdentity)

variable {H}

namespace VerifiedRootState

def empty : VerifiedRootState H := ⟨fun _ => none, none⟩

def isEmpty (s : VerifiedRootState H) : Bool :=
  (List.range 256).all fun n => (s.roots (UInt8.ofNat n)).isNone

def get (s : VerifiedRootState H) (dbId : UInt8) : Option (Verification H) := s.roots dbId

end VerifiedRootState

def ensureRootsMatchCatalog (db : DatabaseInfo) (roots : VerifiedDatabaseRoots) :
    PirResult Unit :=
  if roots.height ≠ db.height ∨ roots.fromHeight ≠ db.baseHeight then
    .error (.verificationFailed
      (s!"verified roots do not match current catalog for db_id {db.dbId}: roots " ++
        s!"{roots.fromHeight}..{roots.height}, catalog {db.baseHeight}..{db.height}"))
  else .ok ()

namespace VerifiedRootState

def install (s : VerifiedRootState H) (catalog : DatabaseCatalog) (v : Verification H) :
    PirResult (VerifiedRootState H) :=
  match catalog.get v.roots.dbId with
  | none => .error (.databaseNotFound v.roots.dbId.toNat)
  | some db => do
    ensureRootsMatchCatalog db v.roots
    return ⟨Function.update s.roots v.roots.dbId (some v), some (catalogIdentity catalog)⟩

/-- Drop the roots if the catalog's identity changed. -/
def reconcileCatalog (s : VerifiedRootState H) (catalog : DatabaseCatalog) : VerifiedRootState H :=
  let identity := catalogIdentity catalog
  if s.boundCatalog.any (· ≠ identity) then empty
  else
    let retained : VerifiedRootState H :=
      { s with roots := fun dbId => (s.roots dbId).filter fun v =>
          (catalog.get dbId).any fun db => (ensureRootsMatchCatalog db v.roots).isOk }
    if retained.isEmpty then retained else { retained with boundCatalog := some identity }

end VerifiedRootState

/-! ## The client -/

inductive Backend
  | dpf
  | harmony
  deriving DecidableEq

/-- A query that was sent: the entry that placed it and what was installed for its database. -/
structure QueryRun (H : Bytes → Hash256) where
  db : DatabaseInfo
  installed : Option (Verification H)

structure Client (H : Bytes → Hash256) where
  backend : Backend
  connected : Bool
  catalog : Option DatabaseCatalog
  verifiedRoots : VerifiedRootState H
  verifiedTreeTops : UInt8 → Option (List TreeTop)
  /-- The queries so far, newest first. -/
  queries : List (QueryRun H)

namespace Client

def new (backend : Backend) : Client H where
  backend
  connected := false
  catalog := none
  verifiedRoots := .empty
  verifiedTreeTops := fun _ => none
  queries := []

variable (c : Client H) (dialled : Bool) (dbId : UInt8) (response : PirResult Bytes)
  (db : DatabaseInfo) (tops : PirResult (List TreeTop))

def clearVerifiedDatabaseRoots : Client H :=
  { c with verifiedRoots := .empty, verifiedTreeTops := fun _ => none }

def invalidateSessionBindings : Client H :=
  { c with catalog := none }.clearVerifiedDatabaseRoots

/-- Connect, unless connected; `dialled` says whether the servers were reached. -/
def connect : Client H :=
  if c.connected then c else { c.invalidateSessionBindings with connected := dialled }

def connectWithTransport : Client H := { c.invalidateSessionBindings with connected := true }

/-- Upgrade to the secure channel; a failed handshake loses the transports. -/
def upgradeToSecureChannel (established : Bool) : Client H :=
  if c.connected then { c with connected := established } else c

def disconnect : Client H := { c.invalidateSessionBindings with connected := false }

def respDbCatalog : UInt8 := 0x02

def readCatalogResponse (response : Bytes) : PirResult DatabaseCatalog :=
  match c.backend with
  | .dpf =>
    if response = [] then .error (.protocol "empty catalog response")
    else if response.head? ≠ some respDbCatalog then
      .error (.protocol "unexpected database catalog response")
    else decodeCatalog H response.tail
  | .harmony => do
    let message ← decodeErrorResponseMessage response "Harmony database catalog"
    match message with
    | some message => .error (.serverError message)
    | none =>
      if response.head? ≠ some respDbCatalog then
        .error (.protocol "unexpected database catalog response")
      else decodeCatalog H response.tail

/-- Take over a catalog that was received. -/
def adoptCatalog (catalog : DatabaseCatalog) : Client H :=
  let verifiedRoots := c.verifiedRoots.reconcileCatalog catalog
  { c with
    verifiedRoots
    verifiedTreeTops := fun dbId =>
      if (verifiedRoots.get dbId).isSome then c.verifiedTreeTops dbId else none
    catalog := some catalog }

def fetchCatalog : PirResult DatabaseCatalog × Client H :=
  if !c.connected then (.error .notConnected, c)
  else
    match response.bind c.readCatalogResponse with
    | .error e => (.error e, c)
    | .ok catalog => (.ok catalog, c.adoptCatalog catalog)

/-- The cached catalog, or a fetched one. -/
def currentCatalog : PirResult DatabaseCatalog × Client H :=
  match c.catalog with
  | some catalog => (.ok catalog, c)
  | none => c.fetchCatalog response

/-- Verify a proof against the entry of the cached catalog, fetching the catalog if there is none.
The roots are returned, not installed. -/
def verifyDatabaseProof (bundle : PirResult DatabaseProofBundle)
    (policy : DatabaseProofPolicy) : PirResult VerifiedDatabaseRoots × Client H :=
  if !c.connected then (.error .notConnected, c)
  else
    match c.currentCatalog response with
    | (.error e, c) => (.error e, c)
    | (.ok catalog, c) =>
      match catalog.get dbId with
      | none => (.error (.protocol s!"db_id {dbId} not present in catalog"), c)
      | some db => (bundle.bind fun bundle => Trust.verifyDatabaseProof H db bundle policy, c)

def installVerifiedDatabaseRoots (v : Verification H) : PirResult Unit × Client H :=
  match c.catalog with
  | none => (.error (.invalidState "no catalog"), c)
  | some catalog =>
    match c.verifiedRoots.install catalog v with
    | .error e => (.error e, c)
    | .ok verifiedRoots =>
      (.ok (), { c with
        verifiedRoots
        verifiedTreeTops := Function.update c.verifiedTreeTops v.roots.dbId none })

/-- Check the tree tops of a database against its installed roots, once. -/
def preflightBucketTreeTops : PirResult Unit × Client H :=
  match c.verifiedRoots.get db.dbId with
  | none => (.ok (), c)
  | some v =>
    if !db.hasBucketMerkle then
      (.error (.verificationFailed
        s!"db_id {db.dbId} has verified bucket root but catalog disables bucket Merkle"), c)
    else if (c.verifiedTreeTops db.dbId).isSome then (.ok (), c)
    else if !c.connected then (.error .notConnected, c)
    else
      match tops.bind fun tops => (verifyTreeTopsSuperRoot H tops db.indexK.toNat db.chunkK.toNat
          v.roots.bucketSuperRoot).map fun _ => tops with
      | .error e => (.error e, c)
      | .ok tops =>
        (.ok (), { c with
          verifiedTreeTops := Function.update c.verifiedTreeTops db.dbId (some tops) })

def preflightVerifiedDatabase : PirResult Unit × Client H :=
  match c.verifiedRoots.get dbId with
  | none => (.error (.verificationFailed s!"db_id {dbId} has no installed database proof"), c)
  | some _ =>
    if !c.connected then (.error .notConnected, c)
    else
      match c.currentCatalog response with
      | (.error e, c) => (.error e, c)
      | (.ok catalog, c) =>
        match catalog.get dbId with
        | none => (.error (.protocol s!"db_id {dbId} not present in catalog"), c)
        | some db => c.preflightBucketTreeTops db tops

/-- The queries of one step are sent. -/
def sendQuery : Client H :=
  { c with queries := ⟨db, c.verifiedRoots.get db.dbId⟩ :: c.queries }

/-- A batch on one database; `query_batch` and `query_batch_with_inspector` are the same here. -/
def queryBatch : PirResult Unit × Client H :=
  if !c.connected then (.error .notConnected, c)
  else
    match c.catalog with
    | none => (.error (.invalidState "no catalog"), c)
    | some catalog =>
      match catalog.get dbId with
      | none => (.error (.databaseNotFound dbId.toNat), c)
      | some db =>
        match c.preflightBucketTreeTops db tops with
        | (.error e, c) => (.error e, c)
        | (.ok _, c) => (.ok (), c.sendQuery db)

/-- A step of a sync plan: its database, and the tree tops sent for it. -/
structure PlanStep where
  dbId : UInt8
  tops : PirResult (List TreeTop)

/-- The preflights of all steps, up to the first that fails. -/
def preflightSteps (catalog : DatabaseCatalog) :
    List PlanStep → Client H → PirResult (List DatabaseInfo) × Client H
  | [], c => (.ok [], c)
  | step :: steps, c =>
    match catalog.get step.dbId with
    | none => (.error (.databaseNotFound step.dbId.toNat), c)
    | some db =>
      match c.preflightBucketTreeTops db step.tops with
      | (.error e, c) => (.error e, c)
      | (.ok _, c) =>
        match preflightSteps catalog steps c with
        | (.error e, c) => (.error e, c)
        | (.ok dbs, c) => (.ok (db :: dbs), c)

/-- Run a sync plan. All steps are preflighted; then the queries of the first `sent` are sent, the
others not being reached when one fails. -/
def runSyncPlan (steps : List PlanStep) (sent : ℕ) : Client H :=
  if steps = [] then c
  else
    match c.catalog with
    | none => c
    | some catalog =>
      match preflightSteps catalog steps c with
      | (.error _, c) => c
      | (.ok dbs, c) => (dbs.take sent).foldl sendQuery c

/-- A fresh sync: connect and fetch the catalog as far as needed, then run a plan. The plan is
computed from the catalog; any plan is allowed here. -/
def sync (steps : List PlanStep) (sent : ℕ) : Client H :=
  let c := c.connect dialled
  if !c.connected then c
  else
    match c.currentCatalog response with
    | (.error _, c) => c
    | (.ok _, c) => c.runSyncPlan steps sent

end Client

/-! ## Runs -/

/-- A call of the client, with what it receives. -/
inductive Call (H : Bytes → Hash256)
  | connect (dialled : Bool)
  | connectWithTransport
  | upgradeToSecureChannel (established : Bool)
  | disconnect
  | fetchCatalog (response : PirResult Bytes)
  | verifyDatabaseProof (dbId : UInt8) (response : PirResult Bytes)
      (bundle : PirResult DatabaseProofBundle) (policy : DatabaseProofPolicy)
  | installVerifiedDatabaseRoots (v : Verification H)
  | clearVerifiedDatabaseRoots
  | preflightVerifiedDatabase (dbId : UInt8) (response : PirResult Bytes)
      (tops : PirResult (List TreeTop))
  | queryBatch (dbId : UInt8) (tops : PirResult (List TreeTop))
  | syncWithPlan (steps : List Client.PlanStep) (sent : ℕ)
  | sync (dialled : Bool) (response : PirResult Bytes) (steps : List Client.PlanStep)
      (sent : ℕ)

def Client.step (c : Client H) : Call H → Client H
  | .connect dialled => c.connect dialled
  | .connectWithTransport => c.connectWithTransport
  | .upgradeToSecureChannel established => c.upgradeToSecureChannel established
  | .disconnect => c.disconnect
  | .fetchCatalog response => (c.fetchCatalog response).2
  | .verifyDatabaseProof dbId response bundle policy =>
    (c.verifyDatabaseProof dbId response bundle policy).2
  | .installVerifiedDatabaseRoots v => (c.installVerifiedDatabaseRoots v).2
  | .clearVerifiedDatabaseRoots => c.clearVerifiedDatabaseRoots
  | .preflightVerifiedDatabase dbId response tops =>
    (c.preflightVerifiedDatabase dbId response tops).2
  | .queryBatch dbId tops => (c.queryBatch dbId tops).2
  | .syncWithPlan steps sent => c.runSyncPlan steps sent
  | .sync dialled response steps sent => c.sync dialled response steps sent

/-! ## An entry's identity decides its verification -/

theorem append_cancel_middle (start stop : String) {a b : String}
    (h : start ++ a ++ stop = start ++ b ++ stop) : a = b := by
  have hlist := congrArg String.toList h
  simp only [String.toList_append] at hlist
  exact String.toList_inj.1 (List.append_cancel_left (List.append_cancel_right hlist))

theorem ne_append_of_length_lt (start stop : String) {a b : String} (h : b.length < start.length) :
    b ≠ start ++ a ++ stop := by
  intro heq
  have hlen := congrArg String.length heq
  rw [String.length_append, String.length_append] at hlen
  omega

theorem kindText_full_ne (baseHeight : UInt32) : kindText .full ≠ kindText (.delta baseHeight) :=
  ne_append_of_length_lt "Delta \x7b base_height: " " \x7d" (by decide)

theorem kindText_delta_inj {b b' : UInt32} (h : kindText (.delta b) = kindText (.delta b')) :
    b = b' := by
  have htext : toString b.toNat = toString b'.toNat :=
    append_cancel_middle "Delta \x7b base_height: " " \x7d" h
  exact UInt32.toNat_inj.1 (Nat.repr_injective htext)

theorem kindText_inj {kind kind' : DatabaseKind} (h : kindText kind = kindText kind') :
    kind = kind' := by
  cases kind with
  | full =>
    cases kind' with
    | full => rfl
    | delta b => exact absurd h (kindText_full_ne b)
  | delta b =>
    cases kind' with
    | full => exact absurd h.symm (kindText_full_ne b)
    | delta b' => rw [kindText_delta_inj h]

theorem eq_rename_of_identity {db db' : DatabaseInfo} (h : entryIdentity db = entryIdentity db') :
    db' = { db with name := db'.name } := by
  have hkind := kindText_inj (congrArg CatalogIdentity.kind h)
  cases db
  simp only [entryIdentity, CatalogIdentity.mk.injEq] at h
  simp only at hkind
  simp only [h, hkind]

variable {db : DatabaseInfo}

theorem verifyCatalogGeometry_rename (h : verifyCatalogGeometry db = .ok ()) (name : String) :
    verifyCatalogGeometry { db with name } = .ok () := by
  unfold verifyCatalogGeometry validateDbGeometry at h ⊢
  split_ifs at h ⊢
  rfl

/-- The name of an entry plays no part in its verification. -/
theorem verifyCatalogEntry_rename {ev : BuildEvidence} {u : Unit}
    (h : verifyCatalogEntry H db ev = .ok u) (name : String) :
    verifyCatalogEntry H { db with name } ev = .ok u := by
  simp only [verifyCatalogEntry, verifyCatalogQueryParameters, bind_eq_ok] at h ⊢
  obtain ⟨_, hkind, _, hheight, _, hfrom, _, hindex, _, hchunk, _, hanchor, _, hgeometry, h⟩ := h
  exact ⟨_, hkind, _, hheight, _, hfrom, _, hindex, _, hchunk, _, hanchor, _,
    verifyCatalogGeometry_rename hgeometry name, h⟩

theorem verifyDatabaseProof_of_identity {db' : DatabaseInfo} {bundle : DatabaseProofBundle}
    {policy : DatabaseProofPolicy} {roots : VerifiedDatabaseRoots}
    (hid : entryIdentity db = entryIdentity db')
    (h : verifyDatabaseProof H db bundle policy = .ok roots) :
    verifyDatabaseProof H db' bundle policy = .ok roots := by
  rw [eq_rename_of_identity hid]
  simp only [verifyDatabaseProof, verifyAgainstCatalogAndPolicy, bind_eq_ok] at h ⊢
  obtain ⟨_, hdbId, dir, hdir, r, ⟨_, hentry, hr⟩, h⟩ := h
  exact ⟨_, hdbId, dir, hdir, r, ⟨_, verifyCatalogEntry_rename hentry db'.name, hr⟩, h⟩

/-- Catalogs of one identity have, under an id, entries of one identity. -/
theorem get_of_catalogIdentity {catalog catalog' : DatabaseCatalog} {dbId : UInt8}
    (hid : catalogIdentity catalog = catalogIdentity catalog')
    (h : catalog.get dbId = some db) :
    ∃ db', catalog'.get dbId = some db' ∧ entryIdentity db = entryIdentity db' := by
  obtain ⟨dbs⟩ := catalog
  obtain ⟨dbs'⟩ := catalog'
  simp only [catalogIdentity, DatabaseCatalog.get] at hid h ⊢
  induction dbs generalizing dbs' with
  | nil => cases h
  | cons head tail ih =>
    cases dbs' with
    | nil => cases hid
    | cons head' tail' =>
      rw [List.map_cons, List.map_cons, List.cons.injEq] at hid
      have hdbId : head.dbId = head'.dbId := congrArg CatalogIdentity.dbId hid.1
      rw [List.find?_cons] at h ⊢
      rw [← hdbId]
      by_cases heq : head.dbId = dbId
      · simp only [heq, decide_true, Option.some_inj] at h ⊢
        subst h
        exact ⟨head', rfl, hid.1⟩
      · simp only [heq, decide_false] at h ⊢
        exact ih h tail' hid.2

/-! ## Guarded queries -/

/-- The entry that placed the query passes the verification of the roots installed for it. -/
def QueryRun.Guarded (q : QueryRun H) : Prop :=
  ∀ v, q.installed = some v → verifyDatabaseProof H q.db v.bundle v.policy = .ok v.roots

instance (q : QueryRun H) : Decidable q.Guarded :=
  decidable_of_iff (∀ v ∈ q.installed, verifyDatabaseProof H q.db v.bundle v.policy = .ok v.roots)
    Iff.rfl

/-- All queries so far were guarded, and the cached catalog is the one the installed roots are bound
to, with entries that pass their verifications. -/
structure Client.Sound (c : Client H) : Prop where
  guarded : ∀ q ∈ c.queries, q.Guarded
  bound : ∀ dbId v, c.verifiedRoots.get dbId = some v → ∃ catalog db, c.catalog = some catalog ∧
    c.verifiedRoots.boundCatalog = some (catalogIdentity catalog) ∧
    catalog.get dbId = some db ∧
    Trust.verifyDatabaseProof H db v.bundle v.policy = .ok v.roots

namespace Client

variable {c c' : Client H} (dialled : Bool) (response : PirResult Bytes)
  (tops : PirResult (List TreeTop)) (steps : List PlanStep) (sent : ℕ)

/-- `c'` differs from `c` at most in its connection and its tree tops. -/
structure Same (c c' : Client H) : Prop where
  catalog : c'.catalog = c.catalog
  verifiedRoots : c'.verifiedRoots = c.verifiedRoots
  queries : c'.queries = c.queries

theorem Same.refl (c : Client H) : c.Same c := ⟨rfl, rfl, rfl⟩

theorem Same.trans {c'' : Client H} (h : c.Same c') (h' : c'.Same c'') : c.Same c'' :=
  ⟨h'.catalog.trans h.catalog, h'.verifiedRoots.trans h.verifiedRoots, h'.queries.trans h.queries⟩

theorem Sound.of_same (hc : c.Sound) (h : c.Same c') : c'.Sound where
  guarded := h.queries ▸ hc.guarded
  bound := by
    rw [h.catalog, h.verifiedRoots]
    exact hc.bound

/-- Without installed roots only the queries count. -/
theorem Sound.of_empty (hc : c.Sound) (hroots : c'.verifiedRoots = .empty)
    (hqueries : c'.queries = c.queries) : c'.Sound where
  guarded := hqueries ▸ hc.guarded
  bound dbId v h := by
    rw [hroots] at h
    cases h

theorem new_sound (backend : Backend) : (new backend : Client H).Sound where
  guarded q hq := absurd hq List.not_mem_nil
  bound dbId v h := by cases h

theorem Sound.connect (hc : c.Sound) : (c.connect dialled).Sound := by
  rw [Client.connect]
  split_ifs
  · exact hc
  · exact hc.of_empty rfl rfl

theorem Sound.upgrade (hc : c.Sound) (established : Bool) :
    (c.upgradeToSecureChannel established).Sound := by
  rw [upgradeToSecureChannel]
  split_ifs
  · exact hc.of_same ⟨rfl, rfl, rfl⟩
  · exact hc

/-! ### Catalogs -/

variable {s : VerifiedRootState H} {catalog : DatabaseCatalog} {dbId : UInt8} {v : Verification H}

/-- What is left after a catalog was received was installed before. -/
theorem get_of_get_reconcileCatalog (h : (s.reconcileCatalog catalog).get dbId = some v) :
    s.get dbId = some v := by
  rw [VerifiedRootState.reconcileCatalog] at h
  dsimp only at h
  split_ifs at h
  · cases h
  · exact (Option.filter_eq_some_iff.1 h).1
  · exact (Option.filter_eq_some_iff.1 h).1

/-- If anything is left, the catalog has the identity the roots were bound to. -/
theorem boundCatalog_reconcileCatalog {identity : List CatalogIdentity}
    (h : (s.reconcileCatalog catalog).get dbId = some v) (hbound : s.boundCatalog = some identity) :
    identity = catalogIdentity catalog ∧
      (s.reconcileCatalog catalog).boundCatalog = some (catalogIdentity catalog) := by
  rw [VerifiedRootState.reconcileCatalog] at h ⊢
  split_ifs at h ⊢ with hchanged
  · cases h
  all_goals
    have hid : identity = catalogIdentity catalog := by simpa [hbound] using hchanged
    simp [hid, hbound]

theorem Sound.adoptCatalog (hc : c.Sound) (catalog : DatabaseCatalog) :
    (c.adoptCatalog catalog).Sound where
  guarded := hc.guarded
  bound dbId v h := by
    obtain ⟨old, db, -, hbound, hentry, hverify⟩ := hc.bound dbId v (get_of_get_reconcileCatalog h)
    obtain ⟨hid, hbound'⟩ := boundCatalog_reconcileCatalog h hbound
    obtain ⟨db', hentry', hdb⟩ := get_of_catalogIdentity hid hentry
    exact ⟨catalog, db', rfl, hbound', hentry', verifyDatabaseProof_of_identity hdb hverify⟩

theorem Sound.fetchCatalog (hc : c.Sound) : (c.fetchCatalog response).2.Sound := by
  rw [Client.fetchCatalog]
  split_ifs
  · exact hc
  · split
    next => exact hc
    next catalog _ => exact hc.adoptCatalog catalog

theorem Sound.currentCatalog (hc : c.Sound) : (c.currentCatalog response).2.Sound := by
  rw [Client.currentCatalog]
  split
  next => exact hc
  next => exact hc.fetchCatalog response

theorem Sound.verifyDatabaseProof (hc : c.Sound) (dbId : UInt8)
    (bundle : PirResult DatabaseProofBundle) (policy : DatabaseProofPolicy) :
    (c.verifyDatabaseProof dbId response bundle policy).2.Sound := by
  have hcurrent := hc.currentCatalog response
  rw [Client.verifyDatabaseProof]
  split_ifs
  · exact hc
  · split
    next e c' heq =>
      rw [heq] at hcurrent
      exact hcurrent
    next catalog c' heq =>
      rw [heq] at hcurrent
      split <;> exact hcurrent

/-! ### Installation -/

/-- Roots are installed over the entry they were verified against. -/
def OverOwnEntry (c : Client H) (v : Verification H) : Prop :=
  ∀ catalog db, c.catalog = some catalog → catalog.get v.roots.dbId = some db →
    entryIdentity v.db = entryIdentity db

theorem Sound.install (hc : c.Sound) (hown : c.OverOwnEntry v) :
    (c.installVerifiedDatabaseRoots v).2.Sound := by
  rw [installVerifiedDatabaseRoots]
  split
  next => exact hc
  next catalog hcatalog =>
    split
    next => exact hc
    next verifiedRoots hinstall =>
      rw [VerifiedRootState.install] at hinstall
      split at hinstall
      next => cases hinstall
      next db hentry =>
        obtain ⟨_, -, hinstall⟩ := bind_eq_ok.1 hinstall
        cases hinstall
        refine ⟨hc.guarded, fun dbId w h => ?_⟩
        by_cases hdbId : dbId = v.roots.dbId
        · subst hdbId
          obtain rfl : v = w := by simpa [VerifiedRootState.get] using h
          exact ⟨catalog, db, hcatalog, rfl, hentry,
            verifyDatabaseProof_of_identity (hown catalog db hcatalog hentry) v.accepted⟩
        · have hold : c.verifiedRoots.get dbId = some w := by
            simpa [VerifiedRootState.get, Function.update_of_ne hdbId] using h
          obtain ⟨old, entry, hold, -, hget, hverify⟩ := hc.bound dbId w hold
          obtain rfl : catalog = old := Option.some_inj.1 (hcatalog.symm.trans hold)
          exact ⟨catalog, entry, hcatalog, rfl, hget, hverify⟩

/-! ### Queries -/

theorem preflightBucketTreeTops_same (c : Client H) (db : DatabaseInfo) :
    c.Same (c.preflightBucketTreeTops db tops).2 := by
  rw [preflightBucketTreeTops]
  split
  next => exact .refl c
  next =>
    split_ifs
    · exact .refl c
    · exact .refl c
    · exact .refl c
    · split
      next => exact .refl c
      next => exact ⟨rfl, rfl, rfl⟩

theorem Sound.preflight (hc : c.Sound) (dbId : UInt8) :
    (c.preflightVerifiedDatabase dbId response tops).2.Sound := by
  have hcurrent := hc.currentCatalog response
  rw [preflightVerifiedDatabase]
  split
  next => exact hc
  next =>
    split_ifs
    · exact hc
    · split
      next e c' heq =>
        rw [heq] at hcurrent
        exact hcurrent
      next catalog c' heq =>
        rw [heq] at hcurrent
        split
        next => exact hcurrent
        next db _ => exact hcurrent.of_same (preflightBucketTreeTops_same tops c' db)

/-- A query placed by an entry of the cached catalog is guarded. -/
theorem Sound.sendQuery (hc : c.Sound) {db : DatabaseInfo} (hcatalog : c.catalog = some catalog)
    (hdb : catalog.get dbId = some db) : (c.sendQuery db).Sound where
  guarded q hq := by
    rcases List.mem_cons.1 hq with rfl | hq
    · intro v hv
      obtain ⟨bound, entry, hbound, -, hentry, hverify⟩ := hc.bound db.dbId v hv
      obtain rfl : catalog = bound := Option.some_inj.1 (hcatalog.symm.trans hbound)
      rw [DatabaseCatalog.dbId_of_get hdb] at hentry
      obtain rfl : db = entry := Option.some_inj.1 (hdb.symm.trans hentry)
      exact hverify
    · exact hc.guarded q hq
  bound := hc.bound

theorem Sound.queryBatch (hc : c.Sound) (dbId : UInt8) :
    (c.queryBatch dbId tops).2.Sound := by
  rw [Client.queryBatch]
  split_ifs
  · exact hc
  · split
    next => exact hc
    next catalog hcatalog =>
      split
      next => exact hc
      next db hdb =>
        have hsame := preflightBucketTreeTops_same tops c db
        split
        next e c' heq =>
          rw [heq] at hsame
          exact hc.of_same hsame
        next c' heq =>
          rw [heq] at hsame
          exact (hc.of_same hsame).sendQuery (hsame.catalog.trans hcatalog) hdb

theorem preflightSteps_same (catalog : DatabaseCatalog) (c : Client H) :
    c.Same (preflightSteps catalog steps c).2 := by
  induction steps generalizing c with
  | nil => exact .refl c
  | cons step steps ih =>
    rw [preflightSteps]
    split
    next => exact .refl c
    next db _ =>
      have hsame := preflightBucketTreeTops_same step.tops c db
      split
      next e c' heq =>
        rw [heq] at hsame
        exact hsame
      next c' heq =>
        rw [heq] at hsame
        have hrest := hsame.trans (ih c')
        split
        next heq' =>
          rw [heq'] at hrest
          exact hrest
        next heq' =>
          rw [heq'] at hrest
          exact hrest

/-- The steps that are sent are placed by entries of the catalog. -/
theorem mem_preflightSteps {steps : List PlanStep} {dbs : List DatabaseInfo}
    (h : preflightSteps catalog steps c = (.ok dbs, c')) :
    ∀ db ∈ dbs, ∃ dbId, catalog.get dbId = some db := by
  induction steps generalizing c dbs with
  | nil =>
    cases h
    exact fun db hdb => absurd hdb List.not_mem_nil
  | cons step steps ih =>
    rw [preflightSteps] at h
    split at h
    next => cases h
    next db hdb =>
      split at h
      next => cases h
      next c₁ _ =>
        split at h
        next => cases h
        next dbs₁ c₂ heq =>
          cases h
          intro db' hdb'
          rcases List.mem_cons.1 hdb' with rfl | hdb'
          · exact ⟨step.dbId, hdb⟩
          · exact ih heq db' hdb'

theorem Sound.sendQueries {dbs : List DatabaseInfo} (hc : c.Sound)
    (hcatalog : c.catalog = some catalog)
    (hdbs : ∀ db ∈ dbs, ∃ dbId, catalog.get dbId = some db) :
    (dbs.foldl Client.sendQuery c).Sound := by
  induction dbs generalizing c with
  | nil => exact hc
  | cons db dbs ih =>
    obtain ⟨dbId, hdb⟩ := hdbs db List.mem_cons_self
    exact ih (hc.sendQuery hcatalog hdb) hcatalog fun db' h => hdbs db' (List.mem_cons_of_mem _ h)

theorem Sound.runSyncPlan (hc : c.Sound) : (c.runSyncPlan steps sent).Sound := by
  rw [Client.runSyncPlan]
  split_ifs
  · exact hc
  · split
    next => exact hc
    next catalog hcatalog =>
      have hsame := preflightSteps_same steps catalog c
      split
      next heq =>
        rw [heq] at hsame
        exact hc.of_same hsame
      next dbs c' heq =>
        rw [heq] at hsame
        exact (hc.of_same hsame).sendQueries (hsame.catalog.trans hcatalog) fun db hdb =>
          mem_preflightSteps heq db (List.mem_of_mem_take hdb)

theorem Sound.sync (hc : c.Sound) : (c.sync dialled response steps sent).Sound := by
  have hconnect := hc.connect dialled
  have hcurrent := hconnect.currentCatalog response
  rw [Client.sync]
  split_ifs
  · exact hconnect
  · split
    next heq =>
      rw [heq] at hcurrent
      exact hcurrent
    next heq =>
      rw [heq] at hcurrent
      exact hcurrent.runSyncPlan steps sent

end Client

/-- Roots are installed over the entry they were verified against; nothing else is asked of a
call. -/
def Allowed (c : Client H) : Call H → Prop
  | .installVerifiedDatabaseRoots v => c.OverOwnEntry v
  | _ => True

theorem Client.Sound.step {c : Client H} (hc : c.Sound) (call : Call H) (h : Allowed c call) :
    (c.step call).Sound := by
  cases call with
  | connect dialled => exact hc.connect dialled
  | connectWithTransport => exact hc.of_empty rfl rfl
  | upgradeToSecureChannel established => exact hc.upgrade established
  | disconnect => exact hc.of_empty rfl rfl
  | fetchCatalog response => exact hc.fetchCatalog response
  | verifyDatabaseProof dbId response bundle policy =>
    exact hc.verifyDatabaseProof response dbId bundle policy
  | installVerifiedDatabaseRoots v => exact hc.install h
  | clearVerifiedDatabaseRoots => exact hc.of_empty rfl rfl
  | preflightVerifiedDatabase dbId response tops => exact hc.preflight response tops dbId
  | queryBatch dbId tops => exact hc.queryBatch tops dbId
  | syncWithPlan steps sent => exact hc.runSyncPlan steps sent
  | sync dialled response steps sent => exact hc.sync dialled response steps sent

/-- **Queries under installed roots are placed by verified entries** in every run in which roots are
installed over the entry they were verified against. -/
theorem run_guarded (H : Bytes → Hash256) (backend : Backend) (calls : List (Call H))
    (h : EachStep Client.step Allowed (.new backend) calls) :
    ∀ q ∈ (runFrom Client.step (.new backend) calls).queries, q.Guarded :=
  (EachStep.invariant (fun _ call hc hcall => hc.step call hcall) (Client.new_sound backend)
    h).guarded

end Client

/-! ### A rotated catalog

The snapshot of `Sample`, with the super-root of 155 trees that consist of their roots. Between the
verification of its proof and the installation of the roots, the server announces one more INDEX bin
per group. -/

namespace Rotation

open Sample Wire

def treeTops : List TreeTop := List.replicate 155 ⟨0, [[zeroHash]]⟩

def superRoot : Hash256 := tailHash (Digest.concat (List.replicate 155 zeroHash))

def payload : Bytes :=
  leBytes 2 1 ++ [0, 0, 0, 0] ++ [0] ++ putAnchor ⟨zeroHash, 0⟩ ++ putAnchor (anchor tailHash) ++
    zeroHash.val ++ leBytes 8 576 ++ leBytes 4 100 ++ (paramsHash tailHash).val ++ leBytes 8 0 ++
    leBytes 2 2 ++
    (24 :: toUtf8 "merkle/bucket/super_root" ++ superRoot.val) ++
    (23 :: toUtf8 "merkle/onion/super_root" ++ (tailHash [8]).val)

def evidence : BuildEvidence :=
  { Sample.evidence tailHash with
    bucketSuperRoot := superRoot
    rootBundlePayloadSha256 := tailHash payload }

def bundle : DatabaseProofBundle :=
  { Sample.bundle tailHash 0 with
    buildEvidence := (evidence.encode.toOption).getD []
    rootBundlePayload := payload
    sevSnpReport := List.replicate 0x50 0 ++
      ((evidence.reportData tailHash).toOption.map Subtype.val).getD [] }

theorem accepted :
    verifyDatabaseProof tailHash (entry tailHash 0 "main") bundle policy =
      .ok (evidence.roots 0) := by decide +kernel

def verification : Verification tailHash where
  db := entry tailHash 0 "main"
  bundle := bundle
  policy := policy
  roots := evidence.roots 0
  accepted := accepted

/-- The catalog response of a server with the given number of INDEX bins per group. -/
def catalogResponse (indexBins : UInt32) : Bytes :=
  let db := entry tailHash 0 "main"
  0x02 :: encodeDbCatalog [⟨0, 0, "main", 0, 900, indexBins, 200, 75, 80, db.tagSeed, 7, 8, true,
    db.indexMasterSeed, db.chunkMasterSeed, some (.snapshot (anchor tailHash).chain)⟩]

/-- Up to the catalog that announces a hundred bins. -/
def start : List (Call tailHash) := [.connect true, .fetchCatalog (.ok (catalogResponse 100))]

def verify : Call tailHash := .verifyDatabaseProof 0 (.ok []) (.ok bundle) policy

/-- Install the roots and query. -/
def guardedBatch : List (Call tailHash) :=
  [.installVerifiedDatabaseRoots verification, .queryBatch 0 (.ok treeTops)]

theorem catalog_verify :
    (runFrom Client.step (.new .dpf) (start ++ [verify])).catalog =
      some ⟨[entry tailHash 0 "main"]⟩ := by decide +kernel

theorem overOwnEntry :
    (runFrom Client.step (.new .dpf) (start ++ [verify])).OverOwnEntry verification := by
  intro catalog db hcatalog hdb
  rw [catalog_verify, Option.some_inj] at hcatalog
  subst hcatalog
  have hentry : db = entry tailHash 0 "main" := Option.some_inj.1 (hdb.symm.trans rfl)
  rw [hentry]
  rfl

end Rotation

open Rotation
open Sample (tailHash policy)

theorem run_guarded_sameCatalog :
    (runFrom Client.step (.new .dpf) (start ++ [verify] ++ guardedBatch)).queries.length = 1 ∧
      ∀ q ∈ (runFrom Client.step (.new .dpf) (start ++ [verify] ++ guardedBatch)).queries,
        q.Guarded :=
  ⟨by decide +kernel,
    run_guarded tailHash .dpf _ ⟨trivial, trivial, trivial, overOwnEntry, trivial, trivial⟩⟩

/-- The proof is accepted against the first catalog, its roots are installed over the second one,
and the query is placed by an entry that the proof does not cover. -/
theorem rotated_query_unguarded :
    ((runFrom Client.step (.new .dpf) start).verifyDatabaseProof 0 (.ok []) (.ok bundle) policy).1 =
        .ok verification.roots ∧
      ∃ q ∈ (runFrom Client.step (.new .dpf)
          (start ++ [verify, .fetchCatalog (.ok (catalogResponse 101))] ++ guardedBatch)).queries,
        q.installed.isSome ∧ ¬q.Guarded := by
  decide +kernel

end BitcoinPir.Trust
