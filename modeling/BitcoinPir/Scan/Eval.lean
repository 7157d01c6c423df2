import BitcoinPir.Core.Params
import BitcoinPir.Foundations.Bytes
import BitcoinPir.Foundations.Lists

/-!
# Evaluating DPF keys over a table

A server answers a DPF query by adding up, for every key, the bins that the key selects. The
keys of a group are evaluated up to eight at a time (`processPass`); a pass goes over the table
in blocks of 128 bins, skips the blocks in which no key selects anything, and reads a bin once
for all keys.

`none` is a panic: an index past the end of a slice, or a ninth key in a pass. The DPF library is
the parameter `Dpf`. Timing and prefetching are left out, except that the address of a prefetch
is a slice of the table and so must exist.

`processTableGroup_eq`: whatever the blocks, passes and skips, the result of a key is the sum of
the bins it selects (`keyResult`), and no other key has a part in it.
-/

namespace BitcoinPir.Scan

open Foundations

/-- 128 selector bits. -/
structure Block where
  low : UInt64
  high : UInt64
  deriving DecidableEq

def Block.zero : Block := ⟨0, 0⟩

def getDpfBit (block : Block) (bitWithinBlock : ℕ) : Bool :=
  if bitWithinBlock < 64 then (block.low >>> UInt64.ofNat bitWithinBlock) &&& 1 == 1
  else (block.high >>> UInt64.ofNat (bitWithinBlock - 64)) &&& 1 == 1

/-- What is used of the DPF library: a pair of keys for a point of a domain of `2 ^ n` points, and
the selector bits of a key for the first points of its domain. -/
structure Dpf (Key : Type) where
  gen : ℕ → ℕ → Key × Key
  evalPartial : Key → ℕ → List Block

/-- Keys evaluated per pass over a group's table. -/
def maxKeysPerGroup : ℕ := 8

variable {Key : Type} (dpf : Dpf Key)

def binBytes (tableBytes : Bytes) (resultSize bin : ℕ) : Bytes :=
  (tableBytes.drop (bin * resultSize)).take resultSize

section Pass

variable (tableBytes : Bytes) (binsPerTable resultSize : ℕ)

/-- One bin of a block: the selector bits of all keys, and the bin's bytes added to the
accumulators of the keys that select it. -/
def scanBin (blocks : List (Option Block)) (baseBin endBin : ℕ) (accs : List Bytes) (bin : ℕ) :
    Option (List Bytes) :=
  -- the address to prefetch is a slice of the table
  if bin + 4 < endBin ∧ tableBytes.length < (bin + 4) * resultSize then none
  else if maxKeysPerGroup < blocks.length then none
  else
    let bits := blocks.map fun block => block.any fun b => getDpfBit b (bin - baseBin)
    if bits.any id then
      if tableBytes.length < bin * resultSize + resultSize then none
      else
        some (accs.zipWith (fun acc bit =>
          if bit then xorBytes acc (binBytes tableBytes resultSize bin) else acc) bits)
    else some accs

/-- One block of 128 bins, or fewer at the end of the table. -/
def scanBlock (evals : List (List Block)) (accs : List Bytes) (blockIdx : ℕ) :
    Option (List Bytes) :=
  let blocks := evals.map fun e => e[blockIdx]?
  if blocks.all fun block => block.all fun b => b = Block.zero then some accs
  else
    let baseBin := blockIdx * 128
    let endBin := min (baseBin + 128) binsPerTable
    (List.range' baseBin (endBin - baseBin)).foldlM
      (scanBin tableBytes resultSize blocks baseBin endBin) accs

/-- One pass over the table, for at most eight keys. -/
def processPass (keys : List Key) : Option (List Bytes) :=
  let evals := keys.map fun k => dpf.evalPartial k binsPerTable
  let numBlocks := (evals.map List.length).max?.getD 0
  (List.range numBlocks).foldlM (scanBlock tableBytes binsPerTable resultSize evals)
    (keys.map fun _ => List.replicate resultSize 0)

/-- The results of any number of keys over one group's table, one per key. -/
def processTableGroup (keys : List Key) : Option (List Bytes) := do
  let passes ← (chunks maxKeysPerGroup keys.length keys).mapM
    (processPass dpf tableBytes binsPerTable resultSize)
  return passes.flatten

end Pass

/-! ## What a key selects -/

/-- Whether evaluated blocks select bin `x`; there is nothing past the last block. -/
def selects (blocks : List Block) (x : ℕ) : Bool :=
  (blocks[x / 128]?).any fun b => getDpfBit b (x % 128)

/-- A bin added to an accumulator if it is selected. -/
def addBin (sel : ℕ → Bool) (bytes : ℕ → Bytes) (acc : Bytes) (bin : ℕ) : Bytes :=
  if sel bin then xorBytes acc (bytes bin) else acc

/-- The sum of the bins a key selects. -/
def keyResult (tableBytes : Bytes) (binsPerTable resultSize : ℕ) (key : Key) : Bytes :=
  (List.range binsPerTable).foldl
    (addBin (selects (dpf.evalPartial key binsPerTable)) (binBytes tableBytes resultSize))
    (List.replicate resultSize 0)

theorem getDpfBit_zero (bit : ℕ) : getDpfBit Block.zero bit = false := by
  simp [getDpfBit, Block.zero]

/-- Bins that are not selected add nothing. -/
theorem foldl_addBin_of_not {sel : ℕ → Bool} (bytes : ℕ → Bytes) {bins : List ℕ}
    (h : ∀ bin ∈ bins, sel bin = false) (acc : Bytes) :
    bins.foldl (addBin sel bytes) acc = acc := by
  induction bins with
  | nil => rfl
  | cons bin bins ih =>
    have hbin : addBin sel bytes acc bin = acc := by
      rw [addBin, h bin List.mem_cons_self, if_neg Bool.false_ne_true]
    rw [List.foldl_cons, hbin, ih fun b hb => h b (List.mem_cons_of_mem _ hb)]

theorem selects_block (blocks : List Block) {blockIdx bin : ℕ} (h : blockIdx * 128 ≤ bin)
    (h' : bin < blockIdx * 128 + 128) :
    selects blocks bin = (blocks[blockIdx]?).any fun b => getDpfBit b (bin - blockIdx * 128) := by
  have hdiv : bin / 128 = blockIdx := by omega
  have hmod : bin % 128 = bin - blockIdx * 128 := by omega
  rw [selects, hdiv, hmod]

theorem selects_of_length_le {blocks : List Block} {x : ℕ} (h : blocks.length * 128 ≤ x) :
    selects blocks x = false := by
  have hle : blocks.length ≤ x / 128 := by omega
  rw [selects, List.getElem?_eq_none hle]
  rfl

/-! ## One pass -/

section Pass

variable {dpf} {tableBytes : Bytes} {binsPerTable resultSize : ℕ}
  (htable : binsPerTable * resultSize ≤ tableBytes.length)

/-- The blocks of all keys at one place. -/
def blocksAt (dpf : Dpf Key) (binsPerTable : ℕ) (keys : List Key) (blockIdx : ℕ) :
    List (Option Block) :=
  keys.map fun k => (dpf.evalPartial k binsPerTable)[blockIdx]?

include htable

variable {keys : List Key}

/-- **One bin**, key by key. -/
theorem scanBin_eq (hkeys : keys.length ≤ maxKeysPerGroup) {blockIdx endBin : ℕ}
    (hend : endBin ≤ binsPerTable) {bin : ℕ} (hbase : blockIdx * 128 ≤ bin)
    (hblock : bin < blockIdx * 128 + 128) (hbin : bin < endBin) (accs : Key → Bytes) :
    scanBin tableBytes resultSize (blocksAt dpf binsPerTable keys blockIdx) (blockIdx * 128) endBin
        (keys.map accs) bin =
      some (keys.map fun k => addBin (selects (dpf.evalPartial k binsPerTable))
        (binBytes tableBytes resultSize) (accs k) bin) := by
  have hprefetch : ¬ (bin + 4 < endBin ∧ tableBytes.length < (bin + 4) * resultSize) := by
    rintro ⟨hlt, hlen⟩
    have := Nat.mul_le_mul_right resultSize (show bin + 4 ≤ binsPerTable by omega)
    omega
  have hslice : ¬ tableBytes.length < bin * resultSize + resultSize := by
    have := Nat.mul_le_mul_right resultSize (show bin + 1 ≤ binsPerTable by omega)
    rw [Nat.add_mul] at this
    omega
  have hbits : ((blocksAt dpf binsPerTable keys blockIdx).map fun block =>
      block.any fun b => getDpfBit b (bin - blockIdx * 128)) =
      keys.map fun k => selects (dpf.evalPartial k binsPerTable) bin := by
    rw [blocksAt, List.map_map]
    exact List.map_congr_left fun k _ => (selects_block _ hbase hblock).symm
  rw [scanBin, if_neg hprefetch, if_neg (by rw [blocksAt, List.length_map]; omega)]
  simp only [hbits]
  split_ifs with hany
  · rw [List.zipWith_map_left, List.zipWith_map_right, List.zipWith_self]
    rfl
  · congr 1
    apply List.map_congr_left
    intro k hk
    have hsel : selects (dpf.evalPartial k binsPerTable) bin = false := by
      by_contra hne
      exact hany (List.any_eq_true.2 ⟨_, List.mem_map_of_mem hk, by simpa using hne⟩)
    rw [addBin, hsel, if_neg Bool.false_ne_true]

theorem foldlM_scanBin_eq (hkeys : keys.length ≤ maxKeysPerGroup) {blockIdx endBin : ℕ}
    (hend : endBin ≤ binsPerTable) {bins : List ℕ}
    (hbins : ∀ bin ∈ bins, blockIdx * 128 ≤ bin ∧ bin < blockIdx * 128 + 128 ∧ bin < endBin)
    (accs : Key → Bytes) :
    bins.foldlM (scanBin tableBytes resultSize (blocksAt dpf binsPerTable keys blockIdx)
        (blockIdx * 128) endBin) (keys.map accs) =
      some (keys.map fun k => bins.foldl (addBin (selects (dpf.evalPartial k binsPerTable))
        (binBytes tableBytes resultSize)) (accs k)) := by
  induction bins generalizing accs with
  | nil => rfl
  | cons bin bins ih =>
    obtain ⟨hbase, hblock, hbin⟩ := hbins bin List.mem_cons_self
    rw [List.foldlM_cons, scanBin_eq htable hkeys hend hbase hblock hbin]
    exact ih (fun b hb => hbins b (List.mem_cons_of_mem _ hb)) _

/-- **One block**, key by key, skipped or not. -/
theorem scanBlock_eq (hkeys : keys.length ≤ maxKeysPerGroup) (blockIdx : ℕ) (accs : Key → Bytes) :
    scanBlock tableBytes binsPerTable resultSize
        (keys.map fun k => dpf.evalPartial k binsPerTable) (keys.map accs) blockIdx =
      some (keys.map fun k =>
        (List.range' (blockIdx * 128) (min (blockIdx * 128 + 128) binsPerTable - blockIdx * 128)).foldl
          (addBin (selects (dpf.evalPartial k binsPerTable)) (binBytes tableBytes resultSize))
          (accs k)) := by
  have hblocks : ((keys.map fun k => dpf.evalPartial k binsPerTable).map fun e => e[blockIdx]?) =
      blocksAt dpf binsPerTable keys blockIdx := by
    rw [List.map_map]
    rfl
  have hbins : ∀ bin ∈ List.range' (blockIdx * 128)
      (min (blockIdx * 128 + 128) binsPerTable - blockIdx * 128), blockIdx * 128 ≤ bin ∧
        bin < blockIdx * 128 + 128 ∧ bin < min (blockIdx * 128 + 128) binsPerTable := by
    intro bin hbin
    rw [List.mem_range'_1] at hbin
    omega
  rw [scanBlock]
  simp only [hblocks]
  split_ifs with hzero
  · -- a skipped block selects nothing
    congr 1
    apply List.map_congr_left
    intro k hk
    refine (foldl_addBin_of_not _ ?_ _).symm
    intro bin hbin
    obtain ⟨hbase, hblock, -⟩ := hbins bin hbin
    rw [selects_block _ hbase hblock]
    have hall := List.all_eq_true.1 hzero _ (List.mem_map_of_mem hk)
    cases hget : (dpf.evalPartial k binsPerTable)[blockIdx]? with
    | none => rfl
    | some b =>
      rw [hget, Option.all_some, decide_eq_true_eq] at hall
      rw [hall, Option.any_some, getDpfBit_zero]
  · exact foldlM_scanBin_eq htable hkeys (min_le_right ..) hbins accs

/-- **The first blocks** cover the first bins. -/
theorem foldlM_scanBlock_eq (hkeys : keys.length ≤ maxKeysPerGroup) (n : ℕ) :
    (List.range n).foldlM (scanBlock tableBytes binsPerTable resultSize
        (keys.map fun k => dpf.evalPartial k binsPerTable))
        (keys.map fun _ => List.replicate resultSize 0) =
      some (keys.map fun k => (List.range (min (n * 128) binsPerTable)).foldl
        (addBin (selects (dpf.evalPartial k binsPerTable)) (binBytes tableBytes resultSize))
        (List.replicate resultSize 0)) := by
  induction n with
  | zero => simp
  | succ n ih =>
    rw [List.range_succ, List.foldlM_append, ih]
    simp only [Option.bind_eq_bind, Option.bind_some, List.foldlM_cons, List.foldlM_nil,
      scanBlock_eq htable hkeys]
    congr 1
    apply List.map_congr_left
    intro k _
    rw [← List.foldl_append]
    by_cases hlt : n * 128 ≤ binsPerTable
    · have hsplit := range_eq_append
        (show n * 128 ≤ min ((n + 1) * 128) binsPerTable by omega)
      have hlen : min ((n + 1) * 128) binsPerTable - n * 128 =
          min (n * 128 + 128) binsPerTable - n * 128 := by omega
      rw [min_eq_left hlt, hsplit, hlen]
    · have hnone : min (n * 128 + 128) binsPerTable - n * 128 = 0 := by omega
      have hmin : min (n * 128) binsPerTable = min ((n + 1) * 128) binsPerTable := by omega
      rw [hnone, hmin, List.range'_zero, List.append_nil]

theorem processPass_eq (hkeys : keys.length ≤ maxKeysPerGroup) :
    processPass dpf tableBytes binsPerTable resultSize keys =
      some (keys.map (keyResult dpf tableBytes binsPerTable resultSize)) := by
  rw [processPass]
  simp only [foldlM_scanBlock_eq htable hkeys, Option.some_inj]
  apply List.map_congr_left
  intro k hk
  set n := (((keys.map fun k => dpf.evalPartial k binsPerTable).map List.length).max?.getD 0)
  -- past the last block of all keys, key `k` has none either
  have hmem : (dpf.evalPartial k binsPerTable).length ∈
      (keys.map fun k => dpf.evalPartial k binsPerTable).map List.length :=
    List.mem_map_of_mem (List.mem_map_of_mem hk)
  have hle : (dpf.evalPartial k binsPerTable).length ≤ n := List.le_max?_getD_of_mem hmem
  have hrange := range_eq_append (show min (n * 128) binsPerTable ≤ binsPerTable from min_le_right ..)
  rw [keyResult, hrange, List.foldl_append]
  refine (foldl_addBin_of_not _ ?_ _).symm
  intro bin hbin
  rw [List.mem_range'_1] at hbin
  exact selects_of_length_le (by omega)

/-- **Every key has its own result**, in any number and whatever the other keys are. -/
theorem processTableGroup_eq (keys : List Key) :
    processTableGroup dpf tableBytes binsPerTable resultSize keys =
      some (keys.map (keyResult dpf tableBytes binsPerTable resultSize)) := by
  have hpasses : (chunks maxKeysPerGroup keys.length keys).mapM
      (processPass dpf tableBytes binsPerTable resultSize) =
      some ((chunks maxKeysPerGroup keys.length keys).map
        (List.map (keyResult dpf tableBytes binsPerTable resultSize))) :=
    mapM_eq_some_map _ fun pass hpass =>
      processPass_eq htable (length_le_of_mem_chunks hpass)
  rw [processTableGroup, hpasses]
  change some _ = some _
  rw [← List.map_flatten, flatten_chunks (by decide) le_rfl]

end Pass

end BitcoinPir.Scan
