import BitcoinPir.Foundations.Lists
import BitcoinPir.Tables.Builder
import BitcoinPir.Sync.Delta

/-!
# One step of a sync: query a database and verify the answers

For every script hash the client reconstructs two INDEX bins and, if one of them has the hash's
tag, the bins of its chunks. Each query then becomes two Merkle items, the chunk bins attached to
the first, and all items are verified in one batch; a query passes if all its items do.

What the servers send is free: `StepReplies` gives the bins the client reconstructs and the
verdict of the Merkle walk on each item. The planning of rounds and the key generation decide
what is asked, not what is made of the answers, and are left out.
-/

namespace BitcoinPir.Sync

open Foundations Tables

/-! ## Traces -/

/-- A bin the client inspected. -/
structure BinTrace where
  pbcGroup : ℕ
  binIndex : UInt32
  binContent : Bytes
  deriving DecidableEq

structure QueryTraces where
  indexBins : List BinTrace
  matchedIndexIdx : Option ℕ
  chunkBins : List BinTrace
  deriving DecidableEq

structure BucketMerkleItem where
  indexPbcGroup : ℕ
  indexBinIndex : UInt32
  indexBinContent : Bytes
  chunkPbcGroups : List ℕ
  chunkBinIndices : List UInt32
  chunkBinContents : List Bytes
  deriving DecidableEq

/-- One item per INDEX bin; the chunk bins go with the first. -/
def itemsFromTrace (trace : QueryTraces) : List BucketMerkleItem :=
  trace.indexBins.zipIdx.map fun (bin, bi) =>
    let chunkBins := if bi = 0 then trace.chunkBins else []
    { indexPbcGroup := bin.pbcGroup
      indexBinIndex := bin.binIndex
      indexBinContent := bin.binContent
      chunkPbcGroups := chunkBins.map BinTrace.pbcGroup
      chunkBinIndices := chunkBins.map BinTrace.binIndex
      chunkBinContents := chunkBins.map BinTrace.binContent }

/-- The items of all queries, each with the number of its query. -/
def collectMerkleItemsFromTraces (traces : List QueryTraces) : List (BucketMerkleItem × ℕ) :=
  traces.zipIdx.flatMap fun (trace, qi) => (itemsFromTrace trace).map fun it => (it, qi)

/-! ## Queries -/

/-- What the servers' answers to one step come to. -/
structure StepReplies where
  /-- The INDEX bin reconstructed for a query and a cuckoo hash. -/
  index : ℕ → ℕ → BinTrace
  /-- The CHUNK bin reconstructed for a query, a chunk and a cuckoo hash. -/
  chunk : ℕ → UInt32 → ℕ → BinTrace
  /-- The verdict on an item of the batch, by its position. -/
  verdict : List BucketMerkleItem → ℕ → Bool

/-- The first inspected bin with the tag: start chunk, number of chunks, whale, position. -/
def findIndexMatch (tag : UInt64) (bins : List BinTrace) : Option (UInt32 × UInt8 × Bool × ℕ) :=
  bins.zipIdx.findSome? fun (bin, pos) =>
    (findEntryInIndexResult bin.binContent tag).map fun (start, num) =>
      (start, num.toUInt8, decide (num = 0), pos)

def decodeUtxoEntriesFrom : ℕ → Bytes → PirResult (List UtxoEntry)
  | 0, _ => .ok []
  | n + 1, data =>
    if data.length < 32 then .ok []
    else
      let txid := Digest.read 32 data
      let data := data.drop 32
      if data = [] then .ok []
      else
        match tryReadVarint data with
        | .error e => .error (.decode s!"UTXO vout varint: {e.text}")
        | .ok (vout, data) =>
          if data = [] then .ok []
          else
            match tryReadVarint data with
            | .error e => .error (.decode s!"UTXO amount varint: {e.text}")
            | .ok (amount, data) =>
              (decodeUtxoEntriesFrom n data).map (⟨txid, vout.toUInt32, amount⟩ :: ·)

/-- Decode a snapshot record; an entry cut short ends the list. -/
def decodeUtxoEntries (data : Bytes) : PirResult (List UtxoEntry) :=
  if data = [] then .ok []
  else
    match tryReadVarint data with
    | .error e => .error (.decode s!"UTXO count varint: {e.text}")
    | .ok (count, data) => decodeUtxoEntriesFrom count.toNat data

/-- A chunk's data and the bin it was found in. -/
def queryChunk (chunk : UInt32 → ℕ → BinTrace) (chunkId : UInt32) :
    PirResult (Bytes × BinTrace) :=
  let bins := (List.range chunkParams.cuckooNumHashes).map (chunk chunkId)
  match bins.findSome? fun bin => (findChunkInResult bin.binContent chunkId).map (·, bin) with
  | some found => .ok found
  | none => .error (.merkleVerificationFailed
      s!"DPF CHUNK missing: chunk_id={chunkId}, group={(chunk chunkId 0).pbcGroup}")

/-- The chunks of a query. A missing chunk fails the step. -/
def queryChunkLevel (chunk : UInt32 → ℕ → BinTrace) (chunkIds : List UInt32) :
    PirResult (Bytes × List BinTrace) := do
  let found ← chunkIds.mapM (queryChunk chunk)
  return (found.flatMap Prod.fst, found.map Prod.snd)

/-- The chunk ids of a matched record. -/
def chunkRange (qi : ℕ) (start : UInt32) (num : UInt8) : PirResult (List UInt32) := do
  require (start.toNat + num.toNat < 2 ^ 32) (.merkleVerificationFailed
    s!"DPF INDEX chunk range overflow for query {qi}: start={start} count={num}")
  return (List.range num.toNat).map fun c => start + UInt32.ofNat c

/-- The outputs in a record. A delta record is not a list of outputs; its bytes are kept. -/
def recordEntries (kind : DatabaseKind) (realData : Bytes) : PirResult (List UtxoEntry) :=
  match kind with
  | .delta _ => .ok []
  | .full => decodeUtxoEntries realData

/-- The result of a matched query before verification. -/
def matchedResult (kind : DatabaseKind) (isWhale : Bool) (realCount : ℕ) (realData : Bytes) :
    PirResult QueryResult := do
  let entries ← recordEntries kind realData
  return ⟨entries, isWhale, false,
    if kind ≠ .full ∧ 0 < realCount then some realData else none, [], [], none⟩

/-- One query: its result before verification, and the bins behind it. -/
def querySingle (db : DatabaseInfo) (replies : StepReplies) (scriptHash : ScriptHash) (qi : ℕ) :
    PirResult (Option QueryResult × QueryTraces) := do
  let indexBins := (List.range indexParams.cuckooNumHashes).map (replies.index qi)
  match findIndexMatch (computeTag db.tagSeed scriptHash) indexBins with
  | none => return (none, ⟨indexBins, none, []⟩)
  | some (start, num, whale, pos) =>
    let ids ← chunkRange qi start num
    let (data, chunkBins) ← queryChunkLevel (replies.chunk qi) ids
    require (chunkBins.length = ids.length ∧ data.length = ids.length * chunkSize)
      (.merkleVerificationFailed (s!"DPF CHUNK closure failed for query {qi}: recovered " ++
        s!"{chunkBins.length} traces / {data.length} bytes, expected " ++
        s!"{ids.length} / {ids.length * chunkSize}"))
    let result ← matchedResult db.kind whale ids.length data
    return (some result, ⟨indexBins, some pos, chunkBins⟩)

def executeStepUnverified (db : DatabaseInfo) (replies : StepReplies)
    (scriptHashes : List ScriptHash) : PirResult (List (Option QueryResult × QueryTraces)) :=
  scriptHashes.zipIdx.mapM fun (scriptHash, qi) => querySingle db replies scriptHash qi

/-! ## Verification -/

/-- The verdict of a query so far with the verdict of one more of its items. -/
def addVerdict (ok : Bool) (verdict : Option Bool) : Option Bool :=
  some (match verdict with
    | none => ok
    | some prev => prev && ok)

/-- The verdict of every query; `none` for a query without items. -/
def queryVerdicts (numQueries : ℕ) (itemToQuery : List ℕ) (perItem : List Bool) :
    List (Option Bool) :=
  ((itemToQuery.zip perItem).map fun (qi, ok) => (qi, addVerdict ok)).foldl
    (fun perQuery u => perQuery.modify u.1 u.2) (List.replicate numQueries none)

/-- A query whose proof failed keeps its result unmarked; a failed absence becomes an empty,
unmarked result. -/
def applyVerdict : Option Bool → Option QueryResult → Option QueryResult
  | none, result => result
  | some true, result => result.map ({ · with merkleVerified := true })
  | some false, result => some { result.getD .merkleFailed with merkleVerified := false }

def runMerkleVerification (replies : StepReplies) (results : QueryResults)
    (traces : List QueryTraces) : QueryResults :=
  let collected := collectMerkleItemsFromTraces traces
  let items := collected.map Prod.fst
  let perItem := (List.range items.length).map (replies.verdict items)
  (results.zip (queryVerdicts results.length (collected.map Prod.snd) perItem)).map
    fun (result, verdict) => applyVerdict verdict result

/-- Query a database, and verify the answers if it publishes a bucket Merkle tree. -/
def executeStep (db : DatabaseInfo) (replies : StepReplies) (scriptHashes : List ScriptHash) : PirResult QueryResults :=
  if scriptHashes = [] then .ok []
  else do
    let answers ← executeStepUnverified db replies scriptHashes
    let results := answers.map Prod.fst
    if db.hasBucketMerkle then
      return runMerkleVerification replies results (answers.map Prod.snd)
    else return results

/-! ## What a step's results say -/

/-- All Merkle items of query `qi` verified, and it has some. -/
def ItemsVerified (replies : StepReplies) (traces : List QueryTraces) (qi : ℕ) : Prop :=
  let collected := collectMerkleItemsFromTraces traces
  (∃ n : ℕ, (collected.map Prod.snd)[n]? = some qi) ∧
    ∀ n : ℕ, (collected.map Prod.snd)[n]? = some qi → replies.verdict (collected.map Prod.fst) n = true

/-- All Merkle items of a script hash verified in a step. -/
def StepVerified (db : DatabaseInfo) (replies : StepReplies) (scriptHashes : List ScriptHash)
    (qi : ℕ) : Prop :=
  ∃ answers, executeStepUnverified db replies scriptHashes = .ok answers ∧
    ItemsVerified replies (answers.map Prod.snd) qi

theorem foldl_addVerdict (oks : List Bool) (verdict : Option Bool) :
    oks.foldl (fun v ok => addVerdict ok v) verdict =
      if oks = [] then verdict else some (verdict.getD true && oks.all id) := by
  induction oks generalizing verdict with
  | nil => rfl
  | cons ok oks ih =>
    rw [List.foldl_cons, ih]
    cases verdict <;> cases oks <;> simp [addVerdict, Bool.and_assoc]

/-- A query that has items passes exactly if all of them verify. -/
theorem getElem?_queryVerdicts {numQueries : ℕ} {itemToQuery : List ℕ} (perItem : List Bool)
    (hlen : perItem.length = itemToQuery.length) {qi : ℕ} (hqi : qi < numQueries)
    (hitem : ∃ n : ℕ, itemToQuery[n]? = some qi) :
    ∃ ok, (queryVerdicts numQueries itemToQuery perItem)[qi]? = some (some ok) ∧
      (ok = true ↔ ∀ n : ℕ, itemToQuery[n]? = some qi → perItem[n]? = some true) := by
  have hget : (queryVerdicts numQueries itemToQuery perItem)[qi]? =
      some ((((itemToQuery.zip perItem).filter fun p => p.1 = qi).map Prod.snd).foldl
        (fun v ok => addVerdict ok v) none) := by
    rw [queryVerdicts, getElem?_foldl_modify, List.getElem?_replicate_of_lt hqi, Option.map_some,
      List.filter_map, List.foldl_map, List.foldl_map]
    rfl
  have hmem : ∀ ok, ok ∈ ((itemToQuery.zip perItem).filter fun p => p.1 = qi).map Prod.snd ↔
      ∃ n : ℕ, itemToQuery[n]? = some qi ∧ perItem[n]? = some ok := by
    intro ok
    constructor
    · intro h
      obtain ⟨⟨q, ok'⟩, hp, rfl⟩ := List.mem_map.1 h
      obtain ⟨hp, hq⟩ := List.mem_filter.1 hp
      obtain ⟨n, hn⟩ := List.mem_iff_getElem?.1 hp
      obtain rfl : q = qi := by simpa using hq
      exact ⟨n, List.getElem?_zip_eq_some.1 hn⟩
    · rintro ⟨n, hq, hok⟩
      have hn : (itemToQuery.zip perItem)[n]? = some (qi, ok) :=
        List.getElem?_zip_eq_some.2 ⟨hq, hok⟩
      exact List.mem_map.2 ⟨(qi, ok), List.mem_filter.2 ⟨List.mem_of_getElem? hn, by simp⟩, rfl⟩
  have hperItem : ∀ n : ℕ, itemToQuery[n]? = some qi → ∃ ok, perItem[n]? = some ok := by
    intro n hn
    have := (List.getElem?_eq_some_iff.1 hn).1
    exact ⟨_, List.getElem?_eq_getElem (hlen ▸ this)⟩
  have hne : ((itemToQuery.zip perItem).filter fun p => p.1 = qi).map Prod.snd ≠ [] := by
    obtain ⟨n, hn⟩ := hitem
    obtain ⟨ok, hok⟩ := hperItem n hn
    exact List.ne_nil_of_mem ((hmem ok).2 ⟨n, hn, hok⟩)
  refine ⟨_, hget.trans (by rw [foldl_addVerdict, if_neg hne]), ?_⟩
  simp only [Option.getD_none, Bool.true_and, List.all_eq_true, hmem, id]
  constructor
  · intro h n hn
    obtain ⟨ok, hok⟩ := hperItem n hn
    rw [hok, h ok ⟨n, hn, hok⟩]
  · rintro h ok ⟨n, hn, hok⟩
    rw [h n hn] at hok
    exact (Option.some_inj.1 hok).symm

/-- A match without the whale mark has at least one chunk. -/
theorem findIndexMatch_chunks {tag : UInt64} {bins : List BinTrace} {start : UInt32} {num : UInt8}
    {pos : ℕ} (h : findIndexMatch tag bins = some (start, num, false, pos)) : 0 < num.toNat := by
  obtain ⟨⟨bin, p⟩, -, hbin⟩ := List.exists_of_findSome?_eq_some h
  obtain ⟨⟨start', num'⟩, hfind, heq⟩ := Option.map_eq_some_iff.1 hbin
  obtain ⟨slot, -, hslot⟩ := List.exists_of_findSome?_eq_some hfind
  rw [readIndexSlot] at hslot
  split_ifs at hslot
  obtain ⟨-, rfl⟩ := Prod.mk.inj (Option.some_inj.1 hslot)
  simp only [Prod.mk.injEq, decide_eq_false_iff_not, UInt32.toUInt8] at heq
  obtain ⟨-, rfl, hne, -⟩ := heq
  rw [Nat.pos_iff_ne_zero]
  intro hzero
  refine hne (UInt32.toNat_inj.1 ?_)
  simpa using hzero

theorem querySingle_traces {db : DatabaseInfo} {replies : StepReplies} {scriptHash : ScriptHash}
    {qi : ℕ} {result : Option QueryResult} {trace : QueryTraces}
    (h : querySingle db replies scriptHash qi = .ok (result, trace)) :
    trace.indexBins = (List.range indexParams.cuckooNumHashes).map (replies.index qi) := by
  rw [querySingle] at h
  split at h
  · cases h
    rfl
  · simp only [bind_eq_ok, return_eq_ok] at h
    obtain ⟨_, _, _, _, _, _, _, _, h⟩ := h
    cases h
    rfl

/-- Every query that was answered has items. -/
theorem exists_item {traces : List QueryTraces} {qi : ℕ} {trace : QueryTraces}
    (htrace : traces[qi]? = some trace) (hbins : trace.indexBins ≠ []) :
    ∃ n : ℕ, ((collectMerkleItemsFromTraces traces).map Prod.snd)[n]? = some qi := by
  have hitems : itemsFromTrace trace ≠ [] := by simpa [itemsFromTrace] using hbins
  obtain ⟨item, hitem⟩ := List.exists_mem_of_ne_nil _ hitems
  have hmem : (trace, qi) ∈ traces.zipIdx := List.mem_of_getElem? (i := qi) (by simp [htrace])
  exact List.mem_iff_getElem?.1 (List.mem_map.2 ⟨(item, qi),
    List.mem_flatMap.2 ⟨(trace, qi), hmem, List.mem_map.2 ⟨item, hitem, rfl⟩⟩, rfl⟩)

/-- **The results of a verified step**: a query's result carries the mark, or is a verified
absence, exactly if all its items verified. -/
theorem executeStep_spec {db : DatabaseInfo} {replies : StepReplies}
    {scriptHashes : List ScriptHash} {results : QueryResults}
    (hmerkle : db.hasBucketMerkle = true) (h : executeStep db replies scriptHashes = .ok results)
    {qi : ℕ} {scriptHash : ScriptHash} (hqi : scriptHashes[qi]? = some scriptHash) :
    ∃ unverified trace ok, querySingle db replies scriptHash qi = .ok (unverified, trace) ∧
      results[qi]? = some (applyVerdict (some ok) unverified) ∧
      (ok = true ↔ StepVerified db replies scriptHashes qi) := by
  have hne : scriptHashes ≠ [] := List.ne_nil_of_mem (List.mem_of_getElem? hqi)
  rw [executeStep, if_neg hne] at h
  obtain ⟨answers, hanswers, h⟩ := bind_eq_ok.1 h
  rw [if_pos hmerkle] at h
  cases h
  have hzip : scriptHashes.zipIdx[qi]? = some (scriptHash, qi) := by simp [hqi]
  obtain ⟨⟨unverified, trace⟩, hget, hquery⟩ := getElem?_of_mapM_eq_ok hanswers hzip
  have htrace : (answers.map Prod.snd)[qi]? = some trace := by simp [hget]
  have hbins : trace.indexBins ≠ [] := by
    rw [querySingle_traces hquery]
    simp [indexParams]
  have hlt : qi < (answers.map Prod.fst).length := by
    rw [List.length_map]
    exact (List.getElem?_eq_some_iff.1 hget).1
  obtain ⟨ok, hverdict, hok⟩ := getElem?_queryVerdicts
    ((List.range ((collectMerkleItemsFromTraces (answers.map Prod.snd)).map
      Prod.fst).length).map (replies.verdict
        ((collectMerkleItemsFromTraces (answers.map Prod.snd)).map Prod.fst)))
    (by simp) hlt (exists_item htrace hbins)
  refine ⟨unverified, trace, ok, hquery, ?_, ?_⟩
  · have hresult : (answers.map Prod.fst)[qi]? = some unverified := by simp [hget]
    rw [runMerkleVerification, List.getElem?_map, Option.map_eq_some_iff]
    exact ⟨(unverified, some ok), List.getElem?_zip_eq_some.2 ⟨hresult, hverdict⟩, rfl⟩
  · rw [hok]
    have hiff : (∀ n : ℕ, ((collectMerkleItemsFromTraces (answers.map Prod.snd)).map
          Prod.snd)[n]? = some qi →
        replies.verdict ((collectMerkleItemsFromTraces (answers.map Prod.snd)).map Prod.fst) n =
          true) ↔ StepVerified db replies scriptHashes qi := by
      constructor
      · intro h
        exact ⟨answers, hanswers, exists_item htrace hbins, h⟩
      · rintro ⟨answers', hanswers', -, h⟩
        rw [hanswers] at hanswers'
        cases hanswers'
        exact h
    rw [← hiff]
    refine forall_congr' fun n => imp_congr_right fun hn => ?_
    have hn' := (List.getElem?_eq_some_iff.1 hn).1
    rw [List.length_map] at hn'
    rw [List.getElem?_map, List.getElem?_range (by rwa [List.length_map]), Option.map_some,
      Option.some_inj]

end BitcoinPir.Sync
