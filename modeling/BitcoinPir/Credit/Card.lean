import BitcoinPir.Foundations.Lists
import BitcoinPir.Credit.Gas

/-!
# The gas card

The server publishes the prices of a database as rounded figures (`gasCard`), and the client funds a
frame from them (`DatabaseGasCard.workGas`). The card has no figure for some operations: batches of
queries and queries at sibling levels are derived from the figure of one query at a main level, and
the hint sets of the main levels from the figure of a pool entry.

The arithmetic of the calibration is read as exact, in an ordered field, with one rounding to the
nearest integer at the end. **`estimate_covers`** gives a condition on the calibration and the
geometry under which the client's figure covers the server's price, so that a frame with this
balance is admitted. Operations with a figure of their own have no condition.
-/

namespace BitcoinPir.Meter

namespace Exact

/-! ## Prices -/

structure Calibration (K : Type*) where
  dpfNsPerBin : K
  dpfMsPerGb : K
  onionIndexMsPerGb : K
  onionChunkMsPerGb : K
  onionSiblingQueryMs : K
  onionRegisterKeysMs : K
  harmonyPoolUsPerCell : K
  harmonySiblingUsPerCell : K
  harmonyQueryNsPerRead : K
  oramMsPerSlot : K
  treeTopsMs : K

/-- `round(sqrt(2 n))`. -/
def harmonySegment (bins : ℕ) : ℕ :=
  let s := Nat.sqrt (2 * bins)
  if s < 2 * bins - s * s then s + 1 else s

variable {K : Type*} [Field K] [LinearOrder K] [FloorRing K]

section Price

variable (c : Calibration K)

def dpfMs (sub : SubTableGeometry) : K :=
  sub.cells.toNat * c.dpfNsPerBin / 10 ^ 6 + sub.bytes.toNat / 10 ^ 9 * c.dpfMsPerGb

def hintSetMs (sub : SubTableGeometry) : Option UInt8 → K
  | none => sub.cells.toNat * c.harmonyPoolUsPerCell / 10 ^ 3
  | some _ => sub.cells.toNat * c.harmonySiblingUsPerCell / 10 ^ 3

def poolEntryMs (cuckoo : CuckooGeometry) : K :=
  (cuckoo.index.cells + cuckoo.chunk.cells).toNat * c.harmonyPoolUsPerCell / 10 ^ 3

/-- The row reads a query is priced for. -/
def queryReads (sub : SubTableGeometry) (subQueries : UInt32) : ℕ :=
  sub.groups.toNat * (harmonySegment sub.binsPerGroup.toNat - 1) * max subQueries.toNat 1

def harmonyQueryMs (sub : SubTableGeometry) (subQueries : UInt32) : K :=
  queryReads sub subQueries * c.harmonyQueryNsPerRead / 10 ^ 6

/-- Milliseconds to gas: rounded, not negative, and at most the largest `u64`. -/
def toGas (ms : K) : ℕ := min (max ⌊ms + 1 / 2⌋ 0).toNat (2 ^ 64 - 1)

/-- What a frame must cover before dispatch, as both sides compute it from its work. -/
def frameGas (p : GasParams) (workGas : ℕ) : ℕ :=
  min (workGas + p.baseGasPerFrame.toNat) (2 ^ 64 - 1)

/-- The server's price of an operation. -/
def workGas (db : DatabaseGeometry) : MeteredOp → Option ℕ
  | .dpfIndexRound => db.cuckoo.map fun g => toGas (dpfMs c g.index)
  | .dpfChunkRound => db.cuckoo.map fun g => toGas (dpfMs c g.chunk)
  | .dpfSiblingPass table level =>
    db.cuckoo.bind fun g => (sibling g table level).map fun sub => toGas (dpfMs c sub)
  | .treeTops => db.cuckoo.map fun _ => toGas c.treeTopsMs
  | .onionRegisterKeys => db.onion.map fun _ => toGas c.onionRegisterKeysMs
  | .onionIndexQuery =>
    db.onion.map fun g => toGas (g.indexNttBytes.toNat / 10 ^ 9 * c.onionIndexMsPerGb)
  | .onionChunkQuery =>
    db.onion.map fun g => toGas (g.chunkNttBytes.toNat / 10 ^ 9 * c.onionChunkMsPerGb)
  | .onionSiblingQuery _ => db.onion.map fun _ => toGas c.onionSiblingQueryMs
  | .onionTreeTops => db.onion.map fun _ => toGas c.treeTopsMs
  | .harmonyHintSet level =>
    db.cuckoo.bind fun g => (harmonyLevel level).bind fun which =>
      (harmonySub g which).map fun sub => toGas (hintSetMs c sub which.2)
  | .harmonyPoolEntry => db.cuckoo.map fun g => toGas (poolEntryMs c g)
  | .harmonyContinuation => db.cuckoo.map fun g => toGas (poolEntryMs c g) / 2
  | .harmonyQuery level subQueries =>
    db.cuckoo.bind fun g => (harmonyLevel level).bind fun which =>
      (harmonySub g which).map fun sub => toGas (harmonyQueryMs c sub subQueries)
  | .oramLookup => db.oram.map fun g => toGas (g.slotsPerLookup.toNat * c.oramMsPerSlot)

end Price

/-! ## The card -/

/-- Work gas per request kind, as a server publishes it for a database. -/
structure DatabaseGasCard where
  dpfIndexRound : Option ℕ
  dpfChunkRound : Option ℕ
  dpfIndexSiblingPass : List ℕ
  dpfChunkSiblingPass : List ℕ
  treeTops : Option ℕ
  onionRegisterKeys : Option ℕ
  onionIndexQuery : Option ℕ
  onionChunkQuery : Option ℕ
  onionSiblingQuery : Option ℕ
  harmonyPoolEntry : Option ℕ
  harmonyIndexSiblingSet : List ℕ
  harmonyChunkSiblingSet : List ℕ
  harmonyQueryIndex : Option ℕ
  harmonyQueryChunk : Option ℕ
  oramLookup : Option ℕ

/-- The client's price of an operation. -/
def DatabaseGasCard.workGas (card : DatabaseGasCard) : MeteredOp → Option ℕ
  | .dpfIndexRound => card.dpfIndexRound
  | .dpfChunkRound => card.dpfChunkRound
  | .dpfSiblingPass .index level => card.dpfIndexSiblingPass[level.toNat]?
  | .dpfSiblingPass .chunk level => card.dpfChunkSiblingPass[level.toNat]?
  | .treeTops => card.treeTops
  | .onionRegisterKeys => card.onionRegisterKeys
  | .onionIndexQuery => card.onionIndexQuery
  | .onionChunkQuery => card.onionChunkQuery
  | .onionSiblingQuery _ => card.onionSiblingQuery
  | .onionTreeTops => card.treeTops.or (some 5)
  | .harmonyPoolEntry => card.harmonyPoolEntry
  | .harmonyContinuation => card.harmonyPoolEntry.map (· / 2)
  | .harmonyHintSet level => (harmonyLevel level).bind fun
    | (.index, none) => card.harmonyPoolEntry.map (· / 3)
    | (.chunk, none) => card.harmonyPoolEntry.map fun g => g - g / 3
    | (.index, some l) => card.harmonyIndexSiblingSet[l.toNat]?
    | (.chunk, some l) => card.harmonyChunkSiblingSet[l.toNat]?
  | .harmonyQuery level subQueries => (harmonyLevel level).bind fun which =>
    (match which.1 with
      | .index => card.harmonyQueryIndex
      | .chunk => card.harmonyQueryChunk).map
      fun single => min (single * max subQueries.toNat 1) (2 ^ 64 - 1)
  | .oramLookup => card.oramLookup

/-- A list of figures is published if all of them are defined; a missing one reads as empty. -/
def publishList (figures : List (Option ℕ)) : List ℕ := (figures.mapM id).getD []

section Publish

variable (c : Calibration K)

def gasCard (db : DatabaseGeometry) : DatabaseGasCard :=
  let indexLevels := (db.cuckoo.map (·.indexSiblings.length)).getD 0
  let chunkLevels := (db.cuckoo.map (·.chunkSiblings.length)).getD 0
  { dpfIndexRound := workGas c db .dpfIndexRound
    dpfChunkRound := workGas c db .dpfChunkRound
    dpfIndexSiblingPass := publishList ((List.range indexLevels).map fun level =>
      workGas c db (.dpfSiblingPass .index (UInt8.ofNat level)))
    dpfChunkSiblingPass := publishList ((List.range chunkLevels).map fun level =>
      workGas c db (.dpfSiblingPass .chunk (UInt8.ofNat level)))
    treeTops := workGas c db .treeTops
    onionRegisterKeys := workGas c db .onionRegisterKeys
    onionIndexQuery := workGas c db .onionIndexQuery
    onionChunkQuery := workGas c db .onionChunkQuery
    onionSiblingQuery := workGas c db (.onionSiblingQuery .index)
    harmonyPoolEntry := workGas c db .harmonyPoolEntry
    harmonyIndexSiblingSet := publishList ((List.range indexLevels).map fun level =>
      workGas c db (.harmonyHintSet (10 + UInt8.ofNat level)))
    harmonyChunkSiblingSet := publishList ((List.range chunkLevels).map fun level =>
      workGas c db (.harmonyHintSet (20 + UInt8.ofNat level)))
    harmonyQueryIndex := workGas c db (.harmonyQuery 0 1)
    harmonyQueryChunk := workGas c db (.harmonyQuery 1 1)
    oramLookup := workGas c db .oramLookup }

end Publish

/-! ## Published lists -/

theorem publishList_of_all {n : ℕ} {f : ℕ → Option ℕ} (h : ∀ i < n, (f i).isSome) {i : ℕ}
    (hi : i < n) : (publishList ((List.range n).map f))[i]? = f i := by
  have hall : ((List.range n).map f).mapM id = some ((List.range n).map fun j => (f j).getD 0) := by
    rw [List.mapM_map]
    refine Foundations.mapM_eq_some_map _ fun j hj => ?_
    obtain ⟨g, hg⟩ := Option.isSome_iff_exists.1 (h j (List.mem_range.1 hj))
    simp [hg]
  obtain ⟨g, hg⟩ := Option.isSome_iff_exists.1 (h i hi)
  rw [publishList, hall, Option.getD_some, List.getElem?_map, List.getElem?_range hi]
  simp [hg]

/-! ## Rounding -/

section Rounding

theorem toGas_le_max (ms : K) : toGas ms ≤ 2 ^ 64 - 1 := min_le_right _ _

variable [IsStrictOrderedRing K]

/-- A price is at most `n` gas if it is below `n + 1/2` milliseconds. -/
theorem toGas_le_iff (ms : K) (n : ℕ) : toGas ms ≤ n ↔ ms < n + 1 / 2 ∨ 2 ^ 64 - 1 ≤ n := by
  have hround : (max ⌊ms + 1 / 2⌋ 0).toNat ≤ n ↔ ms < n + 1 / 2 := by
    rw [Int.toNat_le, max_le_iff, and_iff_left (Int.natCast_nonneg n), ← Int.lt_add_one_iff,
      Int.floor_lt]
    push_cast
    constructor <;> intro h <;> linarith
  rw [toGas, min_le_iff, hround]

theorem toGas_mono {ms ms' : K} (h : ms ≤ ms') : toGas ms ≤ toGas ms' := by
  refine min_le_min_right _ (Int.toNat_le_toNat (max_le_max_right 0 (Int.floor_mono ?_)))
  linarith

/-- A price that is not capped is less than half a gas below its milliseconds. -/
theorem sub_half_lt_toGas {ms : K} (h : ms < 2 ^ 63) : ms - 1 / 2 < toGas ms := by
  rcases (toGas_le_iff ms _).1 le_rfl with hlt | hmax
  · linarith
  · have hcast : (2 ^ 63 : K) ≤ toGas ms := by exact_mod_cast (by omega : 2 ^ 63 ≤ toGas ms)
    linarith

/-- Rounding does not lower the number. -/
def NotRoundedDown (ms : K) : Prop := Int.fract ms = 0 ∨ 1 / 2 ≤ Int.fract ms

theorem NotRoundedDown.le_floor {ms : K} (h : NotRoundedDown ms) : ms ≤ ⌊ms + 1 / 2⌋ := by
  have hsplit := Int.floor_add_fract ms
  rcases h with h | h
  · have hmono : (⌊ms⌋ : K) ≤ ⌊ms + 1 / 2⌋ := by
      exact_mod_cast Int.floor_mono (by linarith)
    linarith
  · have hfloor : ⌊ms⌋ + 1 ≤ ⌊ms + 1 / 2⌋ := by
      rw [Int.le_floor]
      push_cast
      linarith
    have hcast : (⌊ms⌋ : K) + 1 ≤ ⌊ms + 1 / 2⌋ := by exact_mod_cast hfloor
    linarith [Int.fract_lt_one ms]

/-- What is at most the rounded number is at most the price, which may be capped. -/
theorem le_toGas {ms ms' : K} (h : ms' ≤ ⌊ms + 1 / 2⌋) :
    ms' ≤ toGas ms ∨ toGas ms = 2 ^ 64 - 1 := by
  rcases le_total (2 ^ 64 - 1) (max ⌊ms + 1 / 2⌋ 0).toNat with hcap | hcap
  · exact .inr (min_eq_right hcap)
  · left
    have hle : ⌊ms + 1 / 2⌋ ≤ (toGas ms : ℤ) := by
      rw [toGas, min_eq_left hcap]
      exact (le_max_left _ _).trans (Int.self_le_toNat _)
    exact h.trans (by exact_mod_cast hle)

end Rounding

/-! ## The sibling hint sets

The wire levels of the sibling sets are `10 + l` and `20 + l`, so that the eleventh INDEX level is
published as the first CHUNK level, and an eleventh CHUNK level has no price. -/

def siblingsOf (cuckoo : CuckooGeometry) : TableKind → List SubTableGeometry
  | .index => cuckoo.indexSiblings
  | .chunk => cuckoo.chunkSiblings

/-- The wire level of the first sibling level of a table. -/
def firstLevel : TableKind → UInt8
  | .index => 10
  | .chunk => 20

/-- The card lists the sibling sets of a table. -/
def SetsPublished (cuckoo : CuckooGeometry) : TableKind → Prop
  | .index => cuckoo.indexSiblings.length ≤ 10 ∨ cuckoo.indexSiblings.length ≤ 20 ∧
    cuckoo.indexSiblings.length ≤ 10 + cuckoo.chunkSiblings.length
  | .chunk => cuckoo.chunkSiblings.length ≤ 10

theorem harmonyLevel_firstLevel (kind : TableKind) : ∀ i < 10,
    harmonyLevel (firstLevel kind + UInt8.ofNat i) = some (kind, some (UInt8.ofNat i)) := by
  cases kind <;> decide

theorem harmonyLevel_ten_chunk : ∀ i < 10,
    harmonyLevel (10 + UInt8.ofNat (10 + i)) = some (.chunk, some (UInt8.ofNat i)) := by decide

theorem eq_firstLevel_add {level l : UInt8} {kind : TableKind}
    (h : harmonyLevel level = some (kind, some l)) : level = firstLevel kind + l := by
  rw [harmonyLevel] at h
  split_ifs at h <;> cases h <;> simp [firstLevel]

section Sets

variable (c : Calibration K)
  {db : DatabaseGeometry} {cuckoo : CuckooGeometry} {kind : TableKind}

theorem sibling_eq (cuckoo : CuckooGeometry) (kind : TableKind) (l : UInt8) :
    sibling cuckoo kind l = (siblingsOf cuckoo kind)[l.toNat]? := by
  cases kind <;> rfl

theorem workGas_hintSet (hdb : db.cuckoo = some cuckoo) {level : UInt8}
    {which : TableKind × Option UInt8} (hlevel : harmonyLevel level = some which) :
    workGas c db (.harmonyHintSet level) =
      (harmonySub cuckoo which).map fun sub => toGas (hintSetMs c sub which.2) := by
  rw [workGas, hdb, Option.bind_some, hlevel, Option.bind_some]

theorem isSome_sibling {l : List SubTableGeometry} {i : ℕ} (h : i < l.length)
    (f : SubTableGeometry → ℕ) : (l[i]?.map f).isSome := by
  rw [List.getElem?_eq_getElem h]
  rfl

theorem isSome_hintSet (hdb : db.cuckoo = some cuckoo) {i : ℕ}
    (hi : i < (siblingsOf cuckoo kind).length) {level : UInt8}
    (hlevel : harmonyLevel level = some (kind, some (UInt8.ofNat i))) :
    (workGas c db (.harmonyHintSet level)).isSome := by
  rw [workGas_hintSet c hdb hlevel, harmonySub, sibling_eq]
  exact isSome_sibling ((Nat.mod_le _ _).trans_lt hi) _

/-- All sibling sets have a figure. -/
theorem SetsPublished.isSome (h : SetsPublished cuckoo kind) (hdb : db.cuckoo = some cuckoo)
    {i : ℕ} (hi : i < (siblingsOf cuckoo kind).length) :
    (workGas c db (.harmonyHintSet (firstLevel kind + UInt8.ofNat i))).isSome := by
  by_cases hten : i < 10
  · exact isSome_hintSet c hdb hi (harmonyLevel_firstLevel kind i hten)
  · cases kind with
    | chunk => exact absurd (hi.trans_le h) hten
    | index =>
      obtain ⟨j, rfl⟩ := Nat.exists_eq_add_of_le (not_lt.1 hten)
      have hbound : j < 10 ∧ j < cuckoo.chunkSiblings.length := by
        simp only [SetsPublished, siblingsOf] at h hi
        omega
      exact isSome_hintSet c hdb hbound.2 (harmonyLevel_ten_chunk j hbound.1)

end Sets

/-! ## Where the estimate covers the price -/

section Estimate

variable (c : Calibration K)

/-- The client's figure for an operation covers the server's price. -/
def Covers (db : DatabaseGeometry) (op : MeteredOp) : Prop :=
  ∀ gas, workGas c db op = some gas → ∃ estimate, (gasCard c db).workGas op = some estimate ∧
    gas ≤ estimate

def mainTable (cuckoo : CuckooGeometry) : TableKind → SubTableGeometry
  | .index => cuckoo.index
  | .chunk => cuckoo.chunk

/-- The cells of both main tables can be counted, and the price of a pool entry is not capped. -/
def PoolInRange (cuckoo : CuckooGeometry) : Prop :=
  cuckoo.index.cells.toNat + cuckoo.chunk.cells.toNat < 2 ^ 64 ∧
    (cuckoo.index.cells.toNat + cuckoo.chunk.cells.toNat : ℕ) * c.harmonyPoolUsPerCell <
      10 ^ 3 * 2 ^ 63

/-- A third of a pool entry is enough for the INDEX hint set if the CHUNK cells take a millisecond
more than twice the INDEX cells, and the other two thirds for the CHUNK hint set if they take at most
half a millisecond more. A sibling set has to be on the card. -/
def HintSetCovered (cuckoo : CuckooGeometry) : Option (TableKind × Option UInt8) → Prop
  | none => True
  | some (.index, none) => PoolInRange c cuckoo ∧
    2 * (cuckoo.index.cells.toNat * c.harmonyPoolUsPerCell) + 10 ^ 3 ≤
      cuckoo.chunk.cells.toNat * c.harmonyPoolUsPerCell
  | some (.chunk, none) => PoolInRange c cuckoo ∧
    cuckoo.chunk.cells.toNat * c.harmonyPoolUsPerCell ≤
      2 * (cuckoo.index.cells.toNat * c.harmonyPoolUsPerCell) + 500
  | some (kind, some _) => SetsPublished cuckoo kind

/-- A query takes at most as long as one at the main level, whose milliseconds are not rounded down
unless the batch is a single query; or it is faster by half a millisecond. -/
def QueryCovered (cuckoo : CuckooGeometry) (which : TableKind × Option UInt8)
    (subQueries : UInt32) : Prop :=
  ∀ sub, harmonySub cuckoo which = some sub →
    let ms := harmonyQueryMs c sub 1
    let mainMs := harmonyQueryMs c (mainTable cuckoo which.1) 1
    ms ≤ mainMs ∧ (subQueries ≤ 1 ∨ NotRoundedDown mainMs) ∨ ms + 1 / 2 ≤ mainMs

/-- When an estimate covers the price. Only three kinds of operations have a condition. -/
def EstimateCovers (db : DatabaseGeometry) : MeteredOp → Prop
  | .onionTreeTops => db.cuckoo = none → c.treeTopsMs < 11 / 2
  | .harmonyHintSet level =>
    ∀ cuckoo, db.cuckoo = some cuckoo → HintSetCovered c cuckoo (harmonyLevel level)
  | .harmonyQuery level subQueries => ∀ cuckoo, db.cuckoo = some cuckoo →
    ∀ which, harmonyLevel level = some which → QueryCovered c cuckoo which subQueries
  | _ => True

variable {c} {db : DatabaseGeometry} {cuckoo : CuckooGeometry} {op : MeteredOp}

theorem covers_of_eq (h : (gasCard c db).workGas op = workGas c db op) : Covers c db op :=
  fun gas hgas => ⟨gas, h.trans hgas, le_rfl⟩

theorem covers_of_none (hgas : workGas c db op = none) : Covers c db op := by
  intro gas h
  rw [hgas] at h
  cases h

/-- An operation is covered if its figure is in a list that is published as a whole. -/
theorem covers_published (opAt : UInt8 → MeteredOp) (siblings : List SubTableGeometry)
    {f : SubTableGeometry → ℕ} {l : UInt8} (hprice : workGas c db (opAt l) = siblings[l.toNat]?.map f)
    (hcard : (gasCard c db).workGas (opAt l) = (publishList ((List.range siblings.length).map
      fun i => workGas c db (opAt (UInt8.ofNat i))))[l.toNat]?)
    (hall : ∀ i < siblings.length, (workGas c db (opAt (UInt8.ofNat i))).isSome) :
    Covers c db (opAt l) := by
  intro gas hgas
  have hlt : l.toNat < siblings.length := by
    obtain ⟨sub, hsome, -⟩ := Option.map_eq_some_iff.1 (hprice.symm.trans hgas)
    exact (List.getElem?_eq_some_iff.1 hsome).1
  refine ⟨gas, ?_, le_rfl⟩
  rw [hcard, publishList_of_all hall hlt, UInt8.ofNat_toNat, hgas]

theorem covers_siblingPass (table : TableKind) (level : UInt8) :
    Covers c db (.dpfSiblingPass table level) := by
  cases hdb : db.cuckoo with
  | none => exact covers_of_none (by rw [workGas, hdb, Option.bind_none])
  | some cuckoo =>
    have hprice : ∀ l, workGas c db (.dpfSiblingPass table l) =
        (siblingsOf cuckoo table)[l.toNat]?.map fun sub => toGas (dpfMs c sub) := by
      intro l
      rw [workGas, hdb, Option.bind_some, sibling_eq]
    refine covers_published (.dpfSiblingPass table) _ (hprice level) ?_ fun i hi => ?_
    · cases table <;>
        simp only [DatabaseGasCard.workGas, gasCard, hdb, Option.map_some, Option.getD_some, siblingsOf]
    · rw [hprice]
      exact isSome_sibling ((Nat.mod_le _ _).trans_lt hi) _

/-! ### Hint sets -/

theorem covers_siblingSet {kind : TableKind} {level l : UInt8} (hdb : db.cuckoo = some cuckoo)
    (hlevel : harmonyLevel level = some (kind, some l)) (h : SetsPublished cuckoo kind) :
    Covers c db (.harmonyHintSet level) := by
  have hprice := workGas_hintSet c hdb hlevel
  obtain rfl := eq_firstLevel_add hlevel
  rw [harmonySub, sibling_eq] at hprice
  refine covers_published (fun l => .harmonyHintSet (firstLevel kind + l)) _ hprice ?_
    fun i => h.isSome c hdb
  simp only [DatabaseGasCard.workGas, hlevel, Option.bind_some]
  cases kind <;> simp only [gasCard, hdb, Option.map_some, Option.getD_some, siblingsOf, firstLevel]

theorem card_query (hdb : db.cuckoo = some cuckoo) (kind : TableKind) :
    (match kind with
      | .index => (gasCard c db).harmonyQueryIndex
      | .chunk => (gasCard c db).harmonyQueryChunk) =
      some (toGas (harmonyQueryMs c (mainTable cuckoo kind) 1)) := by
  have h0 : harmonyLevel 0 = some (.index, none) := rfl
  have h1 : harmonyLevel 1 = some (.chunk, none) := rfl
  cases kind with
  | index =>
    simp only [gasCard, workGas, hdb, Option.bind_some, h0, harmonySub, Option.map_some, mainTable]
  | chunk =>
    simp only [gasCard, workGas, hdb, Option.bind_some, h1, harmonySub, Option.map_some, mainTable]

variable [IsStrictOrderedRing K]

theorem PoolInRange.poolEntryMs_eq (h : PoolInRange c cuckoo) :
    poolEntryMs c cuckoo = hintSetMs c cuckoo.index none + hintSetMs c cuckoo.chunk none ∧
      poolEntryMs c cuckoo < 2 ^ 63 := by
  have hcells : (cuckoo.index.cells + cuckoo.chunk.cells).toNat =
      cuckoo.index.cells.toNat + cuckoo.chunk.cells.toNat := by
    rw [UInt64.toNat_add, Nat.mod_eq_of_lt h.1]
  rw [poolEntryMs, hcells]
  refine ⟨?_, ?_⟩
  · simp only [hintSetMs]
    push_cast
    ring
  · rw [div_lt_iff₀ (by norm_num), mul_comm (2 ^ 63 : K)]
    exact h.2

/-- The two shares of the published pool entry. -/
theorem toGas_hintSet_le (h : PoolInRange c cuckoo) :
    (2 * (cuckoo.index.cells.toNat * c.harmonyPoolUsPerCell) + 10 ^ 3 ≤
        cuckoo.chunk.cells.toNat * c.harmonyPoolUsPerCell →
      toGas (hintSetMs c cuckoo.index none) ≤ toGas (poolEntryMs c cuckoo) / 3) ∧
      (cuckoo.chunk.cells.toNat * c.harmonyPoolUsPerCell ≤
          2 * (cuckoo.index.cells.toNat * c.harmonyPoolUsPerCell) + 500 →
        toGas (hintSetMs c cuckoo.chunk none) ≤
          toGas (poolEntryMs c cuckoo) - toGas (poolEntryMs c cuckoo) / 3) := by
  obtain ⟨hsum, hlt⟩ := h.poolEntryMs_eq
  have hpool := sub_half_lt_toGas hlt
  generalize toGas (poolEntryMs c cuckoo) = pool at hpool ⊢
  rw [hsum] at hpool
  simp only [hintSetMs] at hpool ⊢
  constructor
  · intro hcells
    refine (toGas_le_iff _ _).2 (.inl ?_)
    have hthird : (pool : K) ≤ 3 * (pool / 3 : ℕ) + 2 := by exact_mod_cast (by omega)
    linarith
  · intro hcells
    refine (toGas_le_iff _ _).2 (.inl ?_)
    have hthirds : 2 * (pool : K) ≤ 3 * (pool - pool / 3 : ℕ) := by exact_mod_cast (by omega)
    linarith

theorem covers_hintSet {level : UInt8} (h : EstimateCovers c db (.harmonyHintSet level)) :
    Covers c db (.harmonyHintSet level) := by
  cases hdb : db.cuckoo with
  | none => exact covers_of_none (by rw [workGas, hdb, Option.bind_none])
  | some cuckoo =>
    have hcovered := h cuckoo hdb
    cases hlevel : harmonyLevel level with
    | none =>
      refine covers_of_none ?_
      rw [workGas, hdb, Option.bind_some, hlevel, Option.bind_none]
    | some which =>
      rw [hlevel] at hcovered
      have hpool : (gasCard c db).harmonyPoolEntry = some (toGas (poolEntryMs c cuckoo)) := by
        simp only [gasCard, workGas, hdb, Option.map_some]
      have hprice := workGas_hintSet c hdb hlevel
      obtain ⟨kind, l⟩ := which
      cases l with
      | none =>
        intro gas hgas
        rw [hprice] at hgas
        cases kind with
        | index =>
          cases hgas
          refine ⟨_, ?_, (toGas_hintSet_le hcovered.1).1 hcovered.2⟩
          simp only [DatabaseGasCard.workGas, hlevel, Option.bind_some, hpool, Option.map_some]
        | chunk =>
          cases hgas
          refine ⟨_, ?_, (toGas_hintSet_le hcovered.1).2 hcovered.2⟩
          simp only [DatabaseGasCard.workGas, hlevel, Option.bind_some, hpool, Option.map_some]
      | some l => cases kind <;> exact covers_siblingSet hdb hlevel hcovered

/-! ### Queries and tree tops -/

theorem harmonyQueryMs_eq_mul (sub : SubTableGeometry) (subQueries : UInt32) :
    harmonyQueryMs c sub subQueries =
      (max subQueries.toNat 1 : ℕ) * harmonyQueryMs c sub 1 := by
  have hone : max (1 : UInt32).toNat 1 = 1 := rfl
  rw [harmonyQueryMs, harmonyQueryMs, queryReads, queryReads, hone]
  push_cast
  ring

/-- A batch costs at most the figure of one query at the main level, times the batch. -/
theorem QueryCovered.toGas_le {which : TableKind × Option UInt8} {subQueries : UInt32}
    (h : QueryCovered c cuckoo which subQueries) {sub : SubTableGeometry}
    (hsub : harmonySub cuckoo which = some sub) :
    toGas (harmonyQueryMs c sub subQueries) ≤
      toGas (harmonyQueryMs c (mainTable cuckoo which.1) 1) * max subQueries.toNat 1 := by
  rw [harmonyQueryMs_eq_mul]
  have hle : harmonyQueryMs c sub 1 ≤ ⌊harmonyQueryMs c (mainTable cuckoo which.1) 1 + 1 / 2⌋ ∨
      subQueries ≤ 1 ∧ harmonyQueryMs c sub 1 ≤ harmonyQueryMs c (mainTable cuckoo which.1) 1 := by
    rcases h sub hsub with ⟨hle, hone | hup⟩ | hhalf
    · exact .inr ⟨hone, hle⟩
    · exact .inl (hle.trans hup.le_floor)
    · refine .inl (le_trans ?_ (Int.sub_one_lt_floor _).le)
      linarith
  rcases hle with hle | ⟨hone, hle⟩
  · rcases le_toGas hle with hgas | hcap
    · refine (toGas_le_iff _ _).2 (.inl ?_)
      have hmul := mul_le_mul_of_nonneg_left hgas (Nat.cast_nonneg (α := K) (max subQueries.toNat 1))
      push_cast at hmul ⊢
      linarith
    · rw [hcap]
      exact (toGas_le_max _).trans (Nat.le_mul_of_pos_right _ (by omega))
  · have hmax : max subQueries.toNat 1 = 1 := max_eq_right (UInt32.le_iff_toNat_le.1 hone)
    rw [hmax, Nat.cast_one, one_mul, mul_one]
    exact toGas_mono hle

theorem covers_query {level : UInt8} {subQueries : UInt32}
    (h : EstimateCovers c db (.harmonyQuery level subQueries)) :
    Covers c db (.harmonyQuery level subQueries) := by
  intro gas hgas
  cases hdb : db.cuckoo with
  | none =>
    rw [workGas, hdb] at hgas
    cases hgas
  | some cuckoo =>
    rw [workGas, hdb, Option.bind_some, Option.bind_eq_some_iff] at hgas
    obtain ⟨which, hlevel, hgas⟩ := hgas
    obtain ⟨sub, hsub, rfl⟩ := Option.map_eq_some_iff.1 hgas
    refine ⟨_, ?_, le_min ((h cuckoo hdb which hlevel).toGas_le hsub) (toGas_le_max _)⟩
    rw [DatabaseGasCard.workGas, hlevel, Option.bind_some, card_query hdb, Option.map_some]

theorem covers_onionTreeTops (h : EstimateCovers c db .onionTreeTops) :
    Covers c db .onionTreeTops := by
  cases hdb : db.cuckoo with
  | some cuckoo =>
    intro gas hgas
    obtain ⟨onion, -, rfl⟩ := Option.map_eq_some_iff.1 hgas
    refine ⟨_, ?_, le_rfl⟩
    simp only [DatabaseGasCard.workGas, gasCard, workGas, hdb, Option.map_some, Option.some_or]
  | none =>
    intro gas hgas
    obtain ⟨onion, -, rfl⟩ := Option.map_eq_some_iff.1 hgas
    refine ⟨5, ?_, (toGas_le_iff _ _).2 (.inl ?_)⟩
    · simp only [DatabaseGasCard.workGas, gasCard, workGas, hdb, Option.map_none, Option.none_or]
    · have hms := h hdb
      norm_num
      exact hms

theorem EstimateCovers.covers (h : EstimateCovers c db op) : Covers c db op := by
  cases op with
  | onionTreeTops => exact covers_onionTreeTops h
  | harmonyHintSet level => exact covers_hintSet h
  | harmonyQuery level subQueries => exact covers_query h
  | dpfSiblingPass table level => exact covers_siblingPass table level
  | harmonyContinuation =>
    refine covers_of_eq ?_
    cases hdb : db.cuckoo <;> simp [DatabaseGasCard.workGas, gasCard, workGas, hdb]
  | _ => exact covers_of_eq rfl

/-! ### Admission -/

end Estimate

/-! ### The production database

The calibration and the geometry of the production checkpoint. -/

namespace Production

def calibration : Calibration ℚ where
  dpfNsPerBin := 189 / 10
  dpfMsPerGb := 261
  onionIndexMsPerGb := 15700
  onionChunkMsPerGb := 26000
  onionSiblingQueryMs := 21000
  onionRegisterKeysMs := 200
  harmonyPoolUsPerCell := 1016 / 1000
  harmonySiblingUsPerCell := 71 / 100
  harmonyQueryNsPerRead := 100
  oramMsPerSlot := 2
  treeTopsMs := 5

def sub (bins groups binBytes : UInt64) : SubTableGeometry := ⟨bins, groups, bins * groups * binBytes⟩

def checkpoint : DatabaseGeometry where
  cuckoo := some ⟨sub 567558 75 52, sub 1066928 80 132,
    [sub 70945 75 256, sub 8869 75 256, sub 1109 75 256],
    [sub 133366 80 256, sub 16671 80 256, sub 2084 80 256]⟩
  onion := some ⟨12580000000, 15510000000⟩
  oram := none

end Production

end Exact

end BitcoinPir.Meter
