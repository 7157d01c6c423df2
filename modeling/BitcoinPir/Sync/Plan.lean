import BitcoinPir.Sync.Step

/-!
# Running a sync plan

A plan is a chain of steps, each a query of one database. A full snapshot replaces the results so
far; a delta is merged into them. The results carry the verification mark of everything that went
into them, with two exceptions that `CarriesTaint` excludes: a full snapshot forgets what it
replaces, and a failed absence in a delta is dropped when it is merged into `none`.

**`runSyncPlan_readsVerified`**: without these exceptions an entry that reads as verified had all
its Merkle items verified in every step, on top of a base that reads as verified.
-/

namespace BitcoinPir.Sync

open Foundations Tables

structure SyncStep where
  dbId : UInt8
  kind : DatabaseKind
  name : String
  baseHeight : UInt32
  tipHeight : UInt32
  deriving DecidableEq

def SyncStep.fromDbInfo (db : DatabaseInfo) : SyncStep :=
  ⟨db.dbId, db.kind, db.name, db.baseHeight, db.height⟩

structure SyncPlan where
  steps : List SyncStep
  isFreshSync : Bool
  targetHeight : UInt32
  deriving DecidableEq

structure SyncResult where
  results : QueryResults
  syncedHeight : UInt32
  wasFreshSync : Bool
  deriving DecidableEq

/-- A plan that is not fresh needs the results it builds on. -/
def requireSyncBase (plan : SyncPlan) (numScriptHashes : ℕ) :
    Option QueryResults → PirResult Unit
  | some base => require (base.length = numScriptHashes) (.invalidState
      s!"sync base has {base.length} results for {numScriptHashes} script hashes")
  | none => require (plan.isFreshSync = true) (.invalidState
      ("this sync plan only applies changes since the previous sync: pass that " ++
        "sync's results to sync_with_plan, or plan a full sync with last_height = None"))

/-- The servers during a run: preflight of a database, and the answers to each step; both may
fail. -/
structure SyncServers where
  preflight : DatabaseInfo → PirResult Unit
  replies : ℕ → PirResult StepReplies

def catalogGet (catalog : DatabaseCatalog) (dbId : UInt8) : PirResult DatabaseInfo :=
  match catalog.get dbId with
  | some db => .ok db
  | none => .error (.databaseNotFound dbId.toNat)

/-- Fold the results of a step into the results so far. -/
def foldStep (step : SyncStep) (merged stepResults : QueryResults) : PirResult QueryResults :=
  if step.kind = .full then .ok stepResults else mergeDeltaBatch merged stepResults

def runStep (catalog : DatabaseCatalog) (servers : SyncServers) (scriptHashes : List ScriptHash)
    (merged : QueryResults) (step : SyncStep) (stepIdx : ℕ) : PirResult QueryResults := do
  let db ← catalogGet catalog step.dbId
  let replies ← servers.replies stepIdx
  let stepResults ← executeStep db replies scriptHashes
  foldStep step merged stepResults

/-- The steps of a plan from step `stepIdx` on. -/
def runSteps (catalog : DatabaseCatalog) (servers : SyncServers) (scriptHashes : List ScriptHash) :
    List SyncStep → ℕ → QueryResults → PirResult QueryResults
  | [], _, merged => .ok merged
  | step :: steps, stepIdx, merged => do
    let merged ← runStep catalog servers scriptHashes merged step stepIdx
    runSteps catalog servers scriptHashes steps (stepIdx + 1) merged

/-- The results a plan starts from. -/
def startResults (cachedResults : Option QueryResults) (numScriptHashes : ℕ) : QueryResults :=
  cachedResults.getD (List.replicate numScriptHashes none)

def runSyncPlan (catalog : Option DatabaseCatalog) (servers : SyncServers)
    (scriptHashes : List ScriptHash) (plan : SyncPlan)
    (cachedResults : Option QueryResults) : PirResult SyncResult := do
  requireSyncBase plan scriptHashes.length cachedResults
  if plan.steps = [] then
    return ⟨startResults cachedResults scriptHashes.length, plan.targetHeight, false⟩
  else
    match catalog with
    | none => .error (.invalidState "no catalog")
    | some catalog =>
      let _ ← plan.steps.mapM fun step => catalogGet catalog step.dbId >>= servers.preflight
      let merged ← runSteps catalog servers scriptHashes plan.steps 0
        (startResults cachedResults scriptHashes.length)
      return ⟨merged, plan.targetHeight, plan.isFreshSync⟩

/-! ## Which steps carry taint -/

section Taint

variable (catalog : DatabaseCatalog) (servers : SyncServers) (scriptHashes : List ScriptHash)

/-- Step `stepIdx` verified all Merkle items of script hash `i`. -/
def VerifiedAt (i : ℕ) (step : SyncStep) (stepIdx : ℕ) : Prop :=
  ∃ db replies, catalogGet catalog step.dbId = .ok db ∧ servers.replies stepIdx = .ok replies ∧
    StepVerified db replies scriptHashes i

/-- The delta database answers script hash `i` with a record: its tag is in one of the bins. -/
def AnswersWithRecord (i : ℕ) (step : SyncStep) (stepIdx : ℕ) : Prop :=
  ∃ db replies scriptHash, catalogGet catalog step.dbId = .ok db ∧
    servers.replies stepIdx = .ok replies ∧ scriptHashes[i]? = some scriptHash ∧ db.kind ≠ .full ∧
    (findIndexMatch (computeTag db.tagSeed scriptHash)
      ((List.range indexParams.cuckooNumHashes).map (replies.index i))).isSome

/-- What a step needs in order not to lose a failed proof of script hash `i`: a full step
replaces an entry that reads as verified; a delta step that meets `none` answers with a record or
with a proof that passes. -/
def StepCarriesTaint (i : ℕ) (merged : QueryResults) (step : SyncStep)
    (stepIdx : ℕ) : Prop :=
  if step.kind = .full then ∀ entry, merged[i]? = some entry → ReadsVerified entry
  else merged[i]? = some none → AnswersWithRecord catalog servers scriptHashes i step stepIdx ∨
    VerifiedAt catalog servers scriptHashes i step stepIdx

/-- Every step of a run carries taint. -/
def CarriesTaint (i : ℕ) : List SyncStep → ℕ → QueryResults → Prop
  | [], _, _ => True
  | step :: steps, stepIdx, merged =>
    StepCarriesTaint catalog servers scriptHashes i merged step stepIdx ∧
      ∀ merged', runStep catalog servers scriptHashes merged step stepIdx = .ok merged' →
        CarriesTaint i steps (stepIdx + 1) merged'

/-- All databases of a plan publish bucket Merkle trees. -/
def AllPublishMerkle (steps : List SyncStep) : Prop :=
  ∀ step ∈ steps, ∀ db, catalogGet catalog step.dbId = .ok db → db.hasBucketMerkle = true

variable {catalog servers scriptHashes}

variable {scriptHash : ScriptHash}

/-- A matched record of a delta database is a whale or comes with its bytes. -/
theorem not_bare_of_match {db : DatabaseInfo} {replies : StepReplies} {qi : ℕ} {r : QueryResult}
    {trace : QueryTraces} (hkind : db.kind ≠ .full)
    (h : querySingle db replies scriptHash qi = .ok (some r, trace)) : ¬r.Bare := by
  rw [querySingle] at h
  split at h
  · cases h
  · rename_i start num whale pos hmatch
    simp only [bind_eq_ok, return_eq_ok] at h
    obtain ⟨ids, hids, _, _, _, _, _, hr', h⟩ := h
    cases h
    obtain ⟨entries, -, hr'⟩ := bind_eq_ok.1 hr'
    cases hr'
    rintro ⟨rfl, hraw⟩
    obtain ⟨-, -, hids⟩ := bind_eq_ok.1 hids
    cases hids
    have hpos := findIndexMatch_chunks hmatch
    simp [hkind, hpos] at hraw

theorem readsVerified_applyVerdict {ok : Bool} {result : Option QueryResult} :
    ReadsVerified (applyVerdict (some ok) result) ↔ ok = true := by
  cases ok <;> cases result <;> simp [applyVerdict, ReadsVerified]

/-- A bare unverified answer of a delta step is a failed absence. -/
theorem bare_applyVerdict {ok : Bool} {result : Option QueryResult} {del : QueryResult}
    (h : applyVerdict (some ok) result = some del) (hbare : del.Bare) :
    ok = true ∨ result = none ∨ ∃ r, result = some r ∧ r.Bare := by
  cases ok with
  | true => exact .inl rfl
  | false =>
    cases result with
    | none => exact .inr (.inl rfl)
    | some r =>
      cases h
      exact .inr (.inr ⟨r, rfl, hbare⟩)

theorem querySingle_isSome {db : DatabaseInfo} {replies : StepReplies} {qi : ℕ}
    {trace : QueryTraces} (h : querySingle db replies scriptHash qi = .ok (none, trace)) :
    findIndexMatch (computeTag db.tagSeed scriptHash)
      ((List.range indexParams.cuckooNumHashes).map (replies.index qi)) = none := by
  rw [querySingle] at h
  split at h
  · assumption
  · simp only [bind_eq_ok, return_eq_ok] at h
    obtain ⟨_, _, _, _, _, _, _, _, h⟩ := h
    cases h

theorem runStep_readsVerified {i : ℕ} (hi : scriptHashes[i]? = some scriptHash) {step : SyncStep}
    {stepIdx : ℕ} {merged merged' : QueryResults}
    (hmerkle : ∀ db, catalogGet catalog step.dbId = .ok db → db.hasBucketMerkle = true)
    (hcarries : StepCarriesTaint catalog servers scriptHashes i merged step stepIdx)
    {entry : Option QueryResult} (hentry : merged[i]? = some entry)
    (h : runStep catalog servers scriptHashes merged step stepIdx = .ok merged') :
    ∃ entry', merged'[i]? = some entry' ∧ (ReadsVerified entry' →
      ReadsVerified entry ∧ VerifiedAt catalog servers scriptHashes i step stepIdx) := by
  simp only [runStep, bind_eq_ok] at h
  obtain ⟨db, hdb, replies, hreplies, stepResults, hexec, h⟩ := h
  obtain ⟨unverified, trace, ok, hquery, hresult, hok⟩ := executeStep_spec (hmerkle db hdb) hexec hi
  have hverified : ok = true → VerifiedAt catalog servers scriptHashes i step stepIdx :=
    fun hv => ⟨db, replies, hdb, hreplies, hok.1 hv⟩
  rw [foldStep] at h
  rw [StepCarriesTaint] at hcarries
  split_ifs at h hcarries with hfull
  · -- A full step forgets the entry, which read as verified.
    cases h
    exact ⟨_, hresult, fun hread => ⟨hcarries entry hentry,
      hverified (readsVerified_applyVerdict.1 hread)⟩⟩
  · obtain ⟨entry', hentry', hmerge⟩ := getElem?_mergeDeltaBatch h hentry hresult
    refine ⟨entry', hentry', fun hread => ?_⟩
    have hboth := readsVerified_of_mergeEntry hmerge ?_ hread
    · exact ⟨hboth.1, hverified (readsVerified_applyVerdict.1 hboth.2)⟩
    · rintro rfl del hdel hbare
      -- A bare answer to an absent hash: the step did not answer with a record, so it verified.
      suffices hoktrue : ok = true by
        subst hoktrue
        have hread' : ReadsVerified (applyVerdict (some true) unverified) :=
          readsVerified_applyVerdict.2 rfl
        rw [hdel] at hread'
        exact hread'
      rcases hcarries hentry with ⟨db', replies', sh', hdb', hreplies', hi', hkind, hmatch⟩ | hver
      · rw [hdb] at hdb'
        rw [hreplies] at hreplies'
        rw [hi] at hi'
        cases hdb'
        cases hreplies'
        cases hi'
        rcases bare_applyVerdict hdel hbare with hoktrue | hnone | ⟨r, hr, hrbare⟩
        · exact hoktrue
        · subst hnone
          rw [querySingle_isSome hquery] at hmatch
          cases hmatch
        · subst hr
          exact absurd hrbare (not_bare_of_match hkind hquery)
      · obtain ⟨db', replies', hdb', hreplies', hver⟩ := hver
        rw [hdb] at hdb'
        rw [hreplies] at hreplies'
        cases hdb'
        cases hreplies'
        exact hok.2 hver

theorem runSteps_readsVerified {i : ℕ} (hi : scriptHashes[i]? = some scriptHash)
    {steps : List SyncStep} {stepIdx : ℕ} {merged final : QueryResults}
    (hmerkle : AllPublishMerkle catalog steps)
    (hcarries : CarriesTaint catalog servers scriptHashes i steps stepIdx merged)
    {entry : Option QueryResult} (hentry : merged[i]? = some entry)
    (h : runSteps catalog servers scriptHashes steps stepIdx merged = .ok final) :
    ∃ entry', final[i]? = some entry' ∧ (ReadsVerified entry' → ReadsVerified entry ∧
      ∀ (n : ℕ) (step : SyncStep), steps[n]? = some step →
        VerifiedAt catalog servers scriptHashes i step (stepIdx + n)) := by
  induction steps generalizing stepIdx merged entry with
  | nil =>
    cases h
    exact ⟨entry, hentry, fun hread => ⟨hread, by simp⟩⟩
  | cons step steps ih =>
    obtain ⟨merged', hstep, h⟩ := bind_eq_ok.1 h
    obtain ⟨entry₁, hentry₁, hone⟩ := runStep_readsVerified hi (hmerkle step List.mem_cons_self)
      hcarries.1 hentry hstep
    obtain ⟨entry', hentry', hrest⟩ := ih (fun s hs => hmerkle s (List.mem_cons_of_mem _ hs))
      (hcarries.2 merged' hstep) hentry₁ h
    refine ⟨entry', hentry', fun hread => ?_⟩
    obtain ⟨hread₁, hsteps⟩ := hrest hread
    obtain ⟨hread₀, hfirst⟩ := hone hread₁
    refine ⟨hread₀, fun n s hs => ?_⟩
    cases n with
    | zero =>
      obtain rfl : step = s := by simpa using hs
      exact hfirst
    | succ n =>
      have := hsteps n s (by simpa using hs)
      rwa [Nat.add_right_comm] at this

/-- **Verification taint across a sync.** If all databases publish bucket Merkle trees and every
step carries taint, a final entry that reads as verified had all its Merkle items verified in
every step, and started from a base entry that reads as verified. -/
theorem runSyncPlan_readsVerified (catalog : DatabaseCatalog) (servers : SyncServers)
    (scriptHashes : List ScriptHash) (plan : SyncPlan)
    (cachedResults : Option QueryResults) (result : SyncResult)
    (hmerkle : AllPublishMerkle catalog plan.steps)
    (hrun : runSyncPlan (some catalog) servers scriptHashes plan cachedResults = .ok result)
    (i : ℕ) (hi : i < scriptHashes.length)
    (hcarries : CarriesTaint catalog servers scriptHashes i plan.steps 0
      (startResults cachedResults scriptHashes.length)) :
    ∃ entry, result.results[i]? = some entry ∧ (ReadsVerified entry →
      (∀ (n : ℕ) (step : SyncStep), plan.steps[n]? = some step →
        VerifiedAt catalog servers scriptHashes i step n) ∧
      ∀ base, cachedResults = some base → ∃ b, base[i]? = some b ∧ ReadsVerified b) := by
  obtain ⟨u, hbase, hrun⟩ := bind_eq_ok.1 hrun
  have hlen : i < (startResults cachedResults scriptHashes.length).length := by
    cases cachedResults with
    | none => simpa [startResults] using hi
    | some base =>
      have := require_eq_ok.1 hbase
      simpa [startResults, this] using hi
  obtain ⟨start, hstart⟩ : ∃ start,
      (startResults cachedResults scriptHashes.length)[i]? = some start :=
    ⟨_, List.getElem?_eq_getElem hlen⟩
  have hcached : ReadsVerified start → ∀ base, cachedResults = some base →
      ∃ b, base[i]? = some b ∧ ReadsVerified b := by
    rintro hread base rfl
    exact ⟨start, hstart, hread⟩
  split_ifs at hrun with hempty
  · cases hrun
    refine ⟨start, hstart, fun hread => ⟨?_, hcached hread⟩⟩
    intro n step hn
    rw [hempty] at hn
    simp at hn
  · obtain ⟨-, -, hrun⟩ := bind_eq_ok.1 hrun
    obtain ⟨merged, hsteps, hrun⟩ := bind_eq_ok.1 hrun
    cases hrun
    obtain ⟨entry, hentry, hread⟩ := runSteps_readsVerified
      (List.getElem?_eq_getElem hi) hmerkle hcarries hstart hsteps
    refine ⟨entry, hentry, fun h => ?_⟩
    obtain ⟨hread₀, hall⟩ := hread h
    refine ⟨fun n step hn => ?_, hcached hread₀⟩
    have := hall n step hn
    rwa [Nat.zero_add] at this

end Taint

/-! ## A failed absence that is dropped -/

namespace Sample

def deltaDb : DatabaseInfo :=
  ⟨1, .delta 100, "delta", 101, 4, 4, 3, 3, 7, 7, 7, true, 5, 6, 0, []⟩

def catalog : DatabaseCatalog := ⟨[deltaDb]⟩

/-- Servers that answer every query with empty bins, and proofs with the given verdict. -/
def emptyServers (verdict : Bool) : SyncServers where
  preflight _ := .ok ()
  replies _ := .ok ⟨fun _ _ => ⟨0, 0, []⟩, fun _ _ _ => ⟨0, 0, []⟩, fun _ _ => verdict⟩

def scriptHash : ScriptHash := ⟨List.replicate 20 5, rfl⟩

def scriptHashes : List ScriptHash := [scriptHash]

def resumePlan : SyncPlan := ⟨[.fromDbInfo deltaDb], false, 101⟩

theorem allPublishMerkle {catalog : DatabaseCatalog}
    (h : ∀ db ∈ catalog.databases, db.hasBucketMerkle = true) (steps : List SyncStep) :
    AllPublishMerkle catalog steps := by
  intro step _ db hdb
  rw [catalogGet] at hdb
  split at hdb
  · rename_i db' hget
    cases hdb
    exact h db (List.mem_of_find?_eq_some hget)
  · cases hdb

/-- The delta after `deltaDb`. -/
def laterDb : DatabaseInfo := { deltaDb with dbId := 2, kind := .delta 101, height := 102 }

def bothDeltas : DatabaseCatalog := ⟨[deltaDb, laterDb]⟩

/-- The first step finds a record that creates an output of 50; the second finds nothing. -/
def createdServers : SyncServers where
  preflight _ := .ok ()
  replies stepIdx := if stepIdx ≠ 0 then (emptyServers true).replies stepIdx else .ok
    { index := fun _ _ => ⟨0, 0, indexSlot 7 ⟨scriptHash, 8, 1⟩⟩
      chunk := fun _ id _ => ⟨0, 0, leBytes 4 id.toNat ++ ([0, 1] ++ List.replicate 32 9 ++
        [0, 50, 0, 0, 0, 0])⟩
      verdict := fun _ _ => true }

def bothPlan : SyncPlan := ⟨[.fromDbInfo deltaDb, .fromDbInfo laterDb], false, 102⟩

def created : QueryResult :=
  ⟨[⟨⟨List.replicate 32 9, rfl⟩, 0, 50⟩], false, true, none, [], [], none⟩

end Sample

open Sample in
/-- The absence proof of the only step fails, and the entry reads as a verified absence. -/
theorem runSyncPlan_drops_failed_absence :
    AllPublishMerkle catalog resumePlan.steps ∧
    runSyncPlan (some catalog) (emptyServers false) scriptHashes resumePlan (some [none]) =
      .ok ⟨[none], 101, false⟩ ∧
    ReadsVerified none ∧
    ¬VerifiedAt catalog (emptyServers false) scriptHashes 0 (.fromDbInfo deltaDb) 0 := by
  refine ⟨allPublishMerkle (by decide) _, by decide +kernel, trivial, ?_⟩
  rintro ⟨db, replies, -, hreplies, answers, -, ⟨n, hn⟩, hall⟩
  cases hreplies
  exact absurd (hall n hn) (by simp)

open Sample in
/-- A sync over two deltas, of which the first creates the entry. -/
theorem runSyncPlan_readsVerified_resume :
    ∃ entry, [some created][0]? = some entry ∧ (ReadsVerified entry →
      (∀ (n : ℕ) (step : SyncStep), bothPlan.steps[n]? = some step →
        VerifiedAt bothDeltas createdServers scriptHashes 0 step n) ∧
      ∀ base : QueryResults, some [none] = some base →
        ∃ b, base[0]? = some b ∧ ReadsVerified b) := by
  refine runSyncPlan_readsVerified bothDeltas createdServers scriptHashes bothPlan
    (some [none]) ⟨[some created], 102, false⟩ (allPublishMerkle (by decide) _)
    (by decide +kernel) 0 (by decide) ⟨fun _ => .inl ?_, fun merged hrun => ⟨?_, fun _ _ => trivial⟩⟩
  · exact ⟨deltaDb, _, _, rfl, rfl, rfl, by decide, by decide +kernel⟩
  · -- the second step meets the entry that the first has created
    have hfirst : runStep bothDeltas createdServers scriptHashes [none] (.fromDbInfo deltaDb) 0 =
        .ok [some created] := by decide +kernel
    cases hrun.symm.trans hfirst
    exact fun hnone => by cases hnone

end BitcoinPir.Sync
