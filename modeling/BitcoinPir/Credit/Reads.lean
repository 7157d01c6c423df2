import BitcoinPir.Credit.Card
import BitcoinPir.Credit.Paid
import BitcoinPir.Wire.Queries

/-!
# Row reads of HarmonyPIR batches

A batch query names groups and bins; the server reads one row for every index in range. The gas
table prices a batch from the geometry of its level: every group is read at `T - 1` bins, once per
sub-query. Nothing in the server's checks bounds a batch by that: groups can be repeated, and an
index list can be as long as the table.

**`batchReads_within_price_iff`**: the rows read are the indices in range, so that the price covers
them exactly if there are at most that many. It does for the batches of an honest client.
-/

namespace BitcoinPir.Meter

open Foundations Wire

/-- The rows of a mapped table, by group and bin. -/
abbrev Rows := ℕ → ℕ → Bytes

section Answer

variable (table : SubTable) (rows : Rows)

def appendEntry (groupId idx : ℕ) : Except String Bytes :=
  if !table.groupExists groupId then .error s!"group_id {groupId} out of range"
  else if table.binsPerTable ≤ idx then .error s!"index {idx} out of range"
  else .ok (rows groupId idx)

/-- The entries at some indices, and the rows that were read for them. -/
def appendEntries (groupId : ℕ) (zeroFillOob : Bool) :
    List UInt32 → Except String (Bytes × List (ℕ × ℕ))
  | [] => .ok ([], [])
  | idx :: indices =>
    if idx.toNat < table.binsPerTable then do
      let entry ← appendEntry table rows groupId idx.toNat
      let (data, reads) ← appendEntries groupId zeroFillOob indices
      return (entry ++ data, (groupId, idx.toNat) :: reads)
    else if zeroFillOob then do
      let (data, reads) ← appendEntries groupId zeroFillOob indices
      return (List.replicate table.params.binSize 0 ++ data, reads)
    else .error s!"index {idx} out of range"

def answerSubQuery (groupId : ℕ) (indices : List UInt32) :
    Except String (Bytes × List (ℕ × ℕ)) :=
  if table.binsPerTable < indices.length then
    .error s!"too many indices: {indices.length} > bins_per_table {table.binsPerTable}"
  else appendEntries table rows groupId true indices

def answerItem (item : HarmonyBatchItem) :
    Except String (HarmonyBatchResultItem × List (ℕ × ℕ)) :=
  if !table.groupExists item.groupId.toNat then
    .error s!"group_id {item.groupId} out of range"
  else do
    let answers ← item.subQueries.mapM (answerSubQuery table rows item.groupId.toNat)
    return (⟨item.groupId, answers.map Prod.fst⟩, answers.flatMap Prod.snd)

def harmonyBatchResponseFromTable (q : HarmonyBatchQuery) :
    Except String (HarmonyBatchResult × List (ℕ × ℕ)) := do
  let answers ← q.items.mapM (answerItem table rows)
  return (⟨q.level, q.roundId, q.subQueriesPerGroup, answers.map Prod.fst⟩,
    answers.flatMap Prod.snd)

end Answer

/-- The answer to a batch, and the rows that were read for it. -/
def harmonyBatchResponse (db : Database) (rows : Table → Rows) (q : HarmonyBatchQuery) :
    Except String (HarmonyBatchResult × List (ℕ × ℕ)) :=
  match Server.harmonyLevelTable db q.level with
  | none => .error s!"invalid level {q.level}"
  | some (table, ref) => harmonyBatchResponseFromTable table (rows ref) q

/-! ## Counting reads -/

/-- The indices of a sub-query that name a bin. -/
def inRange (bins : ℕ) (indices : List UInt32) : ℕ := indices.countP fun idx => idx.toNat < bins

def HarmonyBatchItem.inRange (bins : ℕ) (item : HarmonyBatchItem) : ℕ :=
  (item.subQueries.map (Meter.inRange bins)).sum

def HarmonyBatchQuery.inRange (bins : ℕ) (q : HarmonyBatchQuery) : ℕ :=
  (q.items.map (HarmonyBatchItem.inRange bins)).sum

section Count

variable {table : SubTable} {rows : Rows}

theorem length_reads_appendEntries {groupId : ℕ} {indices : List UInt32} {data : Bytes}
    {reads : List (ℕ × ℕ)} (h : appendEntries table rows groupId true indices = .ok (data, reads)) :
    reads.length = inRange table.binsPerTable indices := by
  induction indices generalizing data reads with
  | nil =>
    cases h
    rfl
  | cons idx indices ih =>
    rw [appendEntries] at h
    by_cases hidx : idx.toNat < table.binsPerTable
    · rw [if_pos hidx] at h
      obtain ⟨entry, -, h⟩ := bind_eq_ok.1 h
      obtain ⟨⟨data', reads'⟩, hrest, h⟩ := bind_eq_ok.1 h
      cases h
      rw [List.length_cons, ih hrest, inRange, inRange, List.countP_cons_of_pos (by simpa using hidx)]
    · rw [if_neg hidx] at h
      obtain ⟨⟨data', reads'⟩, hrest, h⟩ := bind_eq_ok.1 h
      cases h
      rw [ih hrest, inRange, inRange, List.countP_cons_of_neg (by simpa using hidx)]

theorem length_flatMap_of_mapM {α β : Type} {f : α → Except String (β × List (ℕ × ℕ))}
    {count : α → ℕ} {l : List α} {answers : List (β × List (ℕ × ℕ))}
    (hcount : ∀ a ∈ l, ∀ b, f a = .ok b → b.2.length = count a) (h : l.mapM f = .ok answers) :
    (answers.flatMap Prod.snd).length = (l.map count).sum := by
  induction l generalizing answers with
  | nil =>
    cases h
    rfl
  | cons a l ih =>
    rw [List.mapM_cons] at h
    obtain ⟨b, hb, h⟩ := bind_eq_ok.1 h
    obtain ⟨bs, hbs, h⟩ := bind_eq_ok.1 h
    cases h
    rw [List.flatMap_cons, List.length_append, hcount a List.mem_cons_self b hb,
      ih (fun a' ha' => hcount a' (List.mem_cons_of_mem _ ha')) hbs, List.map_cons, List.sum_cons]

theorem length_reads_answerItem {item : HarmonyBatchItem}
    {answer : HarmonyBatchResultItem × List (ℕ × ℕ)} (h : answerItem table rows item = .ok answer) :
    answer.2.length = item.inRange table.binsPerTable := by
  rw [answerItem] at h
  split_ifs at h
  obtain ⟨answers, hanswers, h⟩ := bind_eq_ok.1 h
  cases h
  refine length_flatMap_of_mapM (fun indices _ b hb => ?_) hanswers
  rw [answerSubQuery] at hb
  split_ifs at hb
  exact length_reads_appendEntries hb

/-- The server reads a row for every index in range. -/
theorem length_reads_batch {q : HarmonyBatchQuery} {result : HarmonyBatchResult}
    {reads : List (ℕ × ℕ)}
    (h : harmonyBatchResponseFromTable table rows q = .ok (result, reads)) :
    reads.length = q.inRange table.binsPerTable := by
  obtain ⟨answers, hanswers, h⟩ := bind_eq_ok.1 h
  cases h
  exact length_flatMap_of_mapM (fun item _ b hb => length_reads_answerItem hb) hanswers

end Count

/-! ## Prices -/

theorem sum_map_le {α : Type} {l : List α} {f : α → ℕ} {bound : ℕ} (h : ∀ a ∈ l, f a ≤ bound) :
    (l.map f).sum ≤ l.length * bound := by
  have hle := List.sum_le_card_nsmul (l.map f) bound (by simpa using h)
  rwa [List.length_map, smul_eq_mul] at hle

/-- The batches of an honest client: at most one item per group, and at most `T - 1` indices for
each of the sub-queries announced. -/
structure HonestBatch (sub : SubTableGeometry) (q : HarmonyBatchQuery) : Prop where
  items : q.items.length ≤ sub.groups.toNat
  perGroup : ∀ item ∈ q.items, item.subQueries.length = q.subQueriesPerGroup.toNat
  indices : ∀ item ∈ q.items, ∀ indices ∈ item.subQueries,
    indices.length ≤ Exact.harmonySegment sub.binsPerGroup.toNat - 1

theorem HonestBatch.inRange_le {sub : SubTableGeometry} {q : HarmonyBatchQuery}
    (h : HonestBatch sub q) (bins : ℕ) :
    q.inRange bins ≤ Exact.queryReads sub q.subQueriesPerGroup.toUInt32 := by
  have hitem : ∀ item ∈ q.items, item.inRange bins ≤
      q.subQueriesPerGroup.toNat * (Exact.harmonySegment sub.binsPerGroup.toNat - 1) := by
    intro item hitem
    rw [← h.perGroup item hitem]
    exact sum_map_le fun indices hindices =>
      List.countP_le_length.trans (h.indices item hitem indices hindices)
  calc q.inRange bins
      ≤ q.items.length * (q.subQueriesPerGroup.toNat *
          (Exact.harmonySegment sub.binsPerGroup.toNat - 1)) := sum_map_le hitem
    _ ≤ sub.groups.toNat * (q.subQueriesPerGroup.toNat *
          (Exact.harmonySegment sub.binsPerGroup.toNat - 1)) := Nat.mul_le_mul_right _ h.items
    _ = sub.groups.toNat * (Exact.harmonySegment sub.binsPerGroup.toNat - 1) *
          q.subQueriesPerGroup.toNat := by ring
    _ ≤ Exact.queryReads sub q.subQueriesPerGroup.toUInt32 := by
        exact Nat.mul_le_mul_left _ (le_max_left _ _)

/-- **The price of a batch bounds its reads** exactly if at most that many indices are in range,
for every batch that the server answers. The batch is priced for these reads, and an honest batch
stays within them. -/
theorem batchReads_within_price_iff {K : Type*} [Field K] [LinearOrder K] [FloorRing K]
    (c : Exact.Calibration K) (geometry : DatabaseGeometry) (db : Database)
    (hgeometry : geometry.cuckoo = some (cuckooGeometry db)) (rows : Table → Rows)
    (q : HarmonyBatchQuery) (table : SubTable) (ref : Table)
    (htable : Server.harmonyLevelTable db q.level = some (table, ref))
    (result : HarmonyBatchResult) (reads : List (ℕ × ℕ))
    (hresult : harmonyBatchResponse db rows q = .ok (result, reads)) :
    Exact.workGas c geometry (.harmonyQuery q.level q.subQueriesPerGroup.toUInt32) =
        some (Exact.toGas (Exact.queryReads table.geometry q.subQueriesPerGroup.toUInt32 *
          c.harmonyQueryNsPerRead / 10 ^ 6)) ∧
      (reads.length ≤ Exact.queryReads table.geometry q.subQueriesPerGroup.toUInt32 ↔
        q.inRange table.binsPerTable ≤
          Exact.queryReads table.geometry q.subQueriesPerGroup.toUInt32) ∧
      (HonestBatch table.geometry q →
        reads.length ≤ Exact.queryReads table.geometry q.subQueriesPerGroup.toUInt32) := by
  have hreads : reads.length = q.inRange table.binsPerTable := by
    rw [harmonyBatchResponse, htable] at hresult
    exact length_reads_batch hresult
  refine ⟨?_, by rw [hreads], fun h => hreads.trans_le (h.inRange_le _)⟩
  obtain ⟨-, which, hwhich, hsub⟩ := harmonyLevelTable_ref htable
  rw [Exact.workGas, hgeometry, Option.bind_some, hwhich, Option.bind_some, hsub, Option.map_some,
    Exact.harmonyQueryMs]

/-! ### A batch that names one group 29 times -/

namespace Repeated

/-- INDEX tables of eight bins: `T = 4`, and a query is priced at `75 * 3` reads. -/
def index : SubTable := ⟨indexParams, 8, 0, 75 * 8 * indexParams.binSize⟩

def db : Database := ⟨index, .metadataOnly chunkParams 8, [], [], false⟩

def geometry : DatabaseGeometry := ⟨some (cuckooGeometry db), none, none⟩

def rows (_ : Table) (_ _ : ℕ) : Bytes := List.replicate indexParams.binSize 1

/-- Items for group 0, all asking for the same bins. -/
def batch (items bins : ℕ) : HarmonyBatchQuery :=
  ⟨0, 0, 1, List.replicate items ⟨0, [(List.range bins).map UInt32.ofNat]⟩, 0⟩

/-- A batch that fits the wire comes back from its frame. -/
theorem decode_batch {q : HarmonyBatchQuery} (h : (Request.harmonyBatchQuery q).Fits) :
    Request.decode (0x43 :: (Request.harmonyBatchQuery q).body) = .ok (.harmonyBatchQuery q) :=
  Request.decode_payload h

theorem fits : (Request.harmonyBatchQuery (batch 29 8)).Fits where
  items := by decide
  perGroup item hitem := by
    rw [List.eq_of_mem_replicate hitem]
    rfl
  indices item hitem indices hindices := by
    rw [List.eq_of_mem_replicate hitem, List.mem_singleton] at hindices
    rw [hindices]
    decide

end Repeated

open Repeated

/-- The frame is decoded, priced at 225 reads, and makes 232. -/
theorem repeatedGroup_underpriced :
    Request.decode (0x43 :: (Request.harmonyBatchQuery (batch 29 8)).body) =
        .ok (.harmonyBatchQuery (batch 29 8)) ∧
      (harmonyBatchResponse db rows (batch 29 8)).toOption.map (·.2.length) = some 232 ∧
      Exact.queryReads index.geometry (batch 29 8).subQueriesPerGroup.toUInt32 = 225 :=
  ⟨decode_batch fits, by decide +kernel, by decide +kernel⟩

theorem batchReads_within_price_single :
    ∃ result reads, harmonyBatchResponse db rows (batch 1 3) = .ok (result, reads) ∧
      reads.length ≤ Exact.queryReads index.geometry 1 := by
  obtain ⟨⟨result, reads⟩, hresult⟩ : ∃ r, harmonyBatchResponse db rows (batch 1 3) = .ok r := by
    cases h : harmonyBatchResponse db rows (batch 1 3) with
    | ok r => exact ⟨r, rfl⟩
    | error e =>
      have hsome : (harmonyBatchResponse db rows (batch 1 3)).toOption.isSome := by decide +kernel
      rw [h] at hsome
      cases hsome
  have hall := batchReads_within_price_iff Exact.Production.calibration geometry db rfl rows
    (batch 1 3) index (.main .index) rfl result reads hresult
  exact ⟨result, reads, hresult, hall.2.1.2 (by decide +kernel)⟩

end BitcoinPir.Meter
