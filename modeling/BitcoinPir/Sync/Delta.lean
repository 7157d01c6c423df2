import BitcoinPir.Foundations.Reader
import BitcoinPir.Core.Types
import BitcoinPir.Core.Varint

/-!
# Delta records and how they are merged

A delta database holds, per script hash, the outpoints spent and the outputs created since a
snapshot. `mergeDeltaBatch` folds the answers of a delta database into the results so far. An
answer is `none` for a hash the database does not have; a result that is not `none` says whether
its Merkle proofs were checked (`merkleVerified`).
-/

namespace BitcoinPir.Sync

open Foundations

/-! ## Results -/

structure UtxoEntry where
  txid : Digest 32
  vout : UInt32
  amountSats : UInt64
  deriving DecidableEq

/-- Transaction id and output index, 36 bytes. -/
def UtxoEntry.outpoint (e : UtxoEntry) : Bytes := e.txid.val ++ leBytes 4 e.vout.toNat

/-- A bin shown to an inspector. -/
structure BucketRef where
  pbcGroup : UInt32
  binIndex : UInt32
  binContent : Bytes
  deriving DecidableEq

structure QueryResult where
  entries : List UtxoEntry
  /-- The record is too large to be stored. -/
  isWhale : Bool
  /-- The query's Merkle proofs were checked and passed. -/
  merkleVerified : Bool
  /-- The record's bytes, kept for merging. -/
  rawChunkData : Option Bytes
  indexBins : List BucketRef
  chunkBins : List BucketRef
  matchedIndexIdx : Option ℕ
  deriving DecidableEq

/-- What was found for each script hash of a batch. -/
abbrev QueryResults := List (Option QueryResult)

namespace QueryResult

def empty : QueryResult := ⟨[], false, false, none, [], [], none⟩

/-- A not-found query whose absence proof failed. -/
def merkleFailed : QueryResult := ⟨[], false, false, none, [], [], none⟩

end QueryResult

/-! ## Delta records -/

structure DeltaData where
  /-- Outpoints spent. -/
  spent : List Bytes
  newUtxos : List UtxoEntry
  deriving DecidableEq

def readVarint : Reader PirError UInt64 := fun data =>
  match tryReadVarint data with
  | .ok r => .ok r
  | .error e => .error (.decode s!"varint: {e.debug}")

/-- Run a reader a number of times. -/
def readTimes {α : Type} (r : Reader PirError α) : ℕ → Reader PirError (List α)
  | 0 => pure []
  | n + 1 => do
    let a ← r
    let as ← readTimes r n
    return a :: as

def readSpent : Reader PirError Bytes := do
  let txid ← Reader.takeArr 32 (.decode "truncated spent txid")
  let vout ← readVarint
  Reader.ensure (vout.toNat < 2 ^ 32) (.decode "spent vout exceeds u32")
  return txid.val ++ leBytes 4 vout.toNat

def readNew : Reader PirError UtxoEntry := do
  let txid ← Reader.takeArr 32 (.decode "truncated new UTXO txid")
  let vout ← readVarint
  Reader.ensure (vout.toNat < 2 ^ 32) (.decode "new UTXO vout exceeds u32")
  let amountSats ← readVarint
  return ⟨txid, vout.toUInt32, amountSats⟩

def readDeltaData : Reader PirError DeltaData := do
  let numSpent ← readVarint
  let spent ← readTimes readSpent numSpent.toNat
  let numNew ← readVarint
  let newUtxos ← readTimes readNew numNew.toNat
  return ⟨spent, newUtxos⟩

/-- Decode a record; bytes after it are ignored. -/
def decodeDeltaData (raw : Bytes) : PirResult DeltaData := (readDeltaData raw).map Prod.fst

/-- Remove what was spent, append what was created. -/
def applyDeltaData (entries : List UtxoEntry) (delta : DeltaData) : List UtxoEntry :=
  (entries.filter fun e => e.outpoint ∉ delta.spent) ++ delta.newUtxos

def mergeDelta (snapshot : QueryResult) (deltaRaw : Bytes) : PirResult QueryResult :=
  if snapshot.isWhale ∨ deltaRaw = [] then .ok snapshot
  else do
    let delta ← decodeDeltaData deltaRaw
    return ⟨applyDeltaData snapshot.entries delta, snapshot.isWhale, snapshot.merkleVerified,
      none, [], [], none⟩

/-! ## Merging a batch -/

def deltaWhale (merkleVerified : Bool) : QueryResult :=
  { QueryResult.empty with isWhale := true, merkleVerified }

/-- The entry of a new script hash: the outputs the delta created. -/
def newEntry (del : QueryResult) (raw : Bytes) : PirResult (Option QueryResult) := do
  let deltaData ← decodeDeltaData raw
  return some ⟨deltaData.newUtxos, false, del.merkleVerified, none, [], [], none⟩

/-- A result with a delta record merged in. -/
def mergeRecord (snap del : QueryResult) : Option Bytes → PirResult (Option QueryResult)
  | some raw => do
    let m ← mergeDelta snap raw
    return some { m with merkleVerified := snap.merkleVerified && del.merkleVerified }
  | none => .ok (some { snap with merkleVerified := snap.merkleVerified && del.merkleVerified })

/-- Merge the answer of a delta database into one result. -/
def mergeEntry : Option QueryResult → Option QueryResult → PirResult (Option QueryResult)
  | some snap, some del =>
    if del.isWhale ∧ ¬snap.isWhale then
      .ok (some (deltaWhale (snap.merkleVerified && del.merkleVerified)))
    else mergeRecord snap del del.rawChunkData
  | none, some del =>
    if del.isWhale then .ok (some (deltaWhale del.merkleVerified))
    else
      match del.rawChunkData with
      | some raw => newEntry del raw
      | none => .ok none
  | some snap, none => .ok (some snap)
  | none, none => .ok none

def mergeDeltaBatch (snapshots deltaResults : QueryResults) : PirResult QueryResults :=
  if snapshots.length ≠ deltaResults.length then
    .error (.mergeError
      s!"batch size mismatch: {snapshots.length} snapshots vs {deltaResults.length} deltas")
  else (snapshots.zip deltaResults).mapM fun (snapshot, delta) => mergeEntry snapshot delta

/-! ## What merging does to the verification mark -/

/-- The entry reads as verified: found with checked proofs, or absent. -/
def ReadsVerified : Option QueryResult → Prop
  | none => True
  | some r => r.merkleVerified = true

instance : DecidablePred ReadsVerified := fun r => by
  cases r with
  | none => exact inferInstanceAs (Decidable True)
  | some r => exact inferInstanceAs (Decidable (r.merkleVerified = true))

/-- An answer that neither is a whale nor carries a record. -/
def QueryResult.Bare (r : QueryResult) : Prop := r.isWhale = false ∧ r.rawChunkData = none

/-- **Merging keeps taint** with one exception: a bare answer merged into `none` is dropped. -/
theorem readsVerified_of_mergeEntry {snapshot delta merged : Option QueryResult}
    (h : mergeEntry snapshot delta = .ok merged)
    (hbare : snapshot = none → ∀ del, delta = some del → del.Bare → del.merkleVerified = true)
    (hread : ReadsVerified merged) : ReadsVerified snapshot ∧ ReadsVerified delta := by
  cases snapshot with
  | none =>
    refine ⟨trivial, ?_⟩
    cases delta with
    | none => trivial
    | some del =>
      rw [mergeEntry] at h
      split_ifs at h with hwhale
      · cases h
        exact hread
      · cases hraw : del.rawChunkData with
        | none => exact hbare rfl del rfl ⟨Bool.eq_false_iff.2 hwhale, hraw⟩
        | some raw =>
          rw [hraw] at h
          obtain ⟨deltaData, -, h⟩ := bind_eq_ok.1 h
          cases h
          exact hread
  | some snap =>
    cases delta with
    | none =>
      cases h
      exact ⟨hread, trivial⟩
    | some del =>
      -- Every arm puts the conjunction of the two marks on its result.
      have hand : (snap.merkleVerified && del.merkleVerified) = true := by
        rw [mergeEntry] at h
        split_ifs at h with hwhale
        · cases h
          exact hread
        · cases hraw : del.rawChunkData with
          | none =>
            rw [hraw] at h
            cases h
            exact hread
          | some raw =>
            rw [hraw] at h
            obtain ⟨m, -, h⟩ := bind_eq_ok.1 h
            cases h
            exact hread
      rw [Bool.and_eq_true] at hand
      exact hand

theorem length_mergeDeltaBatch {snapshots deltas merged : QueryResults}
    (h : mergeDeltaBatch snapshots deltas = .ok merged) :
    snapshots.length = deltas.length ∧ merged.length = snapshots.length := by
  rw [mergeDeltaBatch] at h
  split_ifs at h with hlen
  have := length_of_mapM_eq_ok h
  rw [List.length_zip] at this
  omega

theorem getElem?_mergeDeltaBatch {snapshots deltas merged : QueryResults}
    (h : mergeDeltaBatch snapshots deltas = .ok merged) {i : ℕ} {s d : Option QueryResult}
    (hs : snapshots[i]? = some s) (hd : deltas[i]? = some d) :
    ∃ m, merged[i]? = some m ∧ mergeEntry s d = .ok m := by
  rw [mergeDeltaBatch] at h
  split_ifs at h with hlen
  have hsd : (snapshots.zip deltas)[i]? = some (s, d) := List.getElem?_zip_eq_some.2 ⟨hs, hd⟩
  exact getElem?_of_mapM_eq_ok h hsd

end BitcoinPir.Sync
