import BitcoinPir.Scan.Eval

/-!
# One scan for several queries

Queries that wait for the same table share a scan: the keys of all of them are evaluated group by
group, and the results dealt back by the number of keys each query has in the group.

`scanJobs_eq_some`: every query gets what its own keys give alone (`scanAlone`). The queries may
have different numbers of groups, and different numbers of keys in a group.
-/

namespace BitcoinPir.Scan

open Foundations

variable {Key : Type}

/-! ## The tables of a server -/

/-- A mapped table file with its parameters, as far as scans read it. The bytes of a group are
`binsPerTable` bins of the table's bin size. -/
structure MappedSubTable where
  mmap : Bytes
  params : TableParams
  binsPerTable : ℕ
  /-- Where the tables of the groups begin, after header and anchor. -/
  dataOffset : ℕ

namespace MappedSubTable

variable (table : MappedSubTable)

/-- Bytes of one group's table. -/
def tableByteSize : ℕ := table.binsPerTable * table.params.binSize

/-- The bytes of a group's table; `none` is a panic. -/
def groupBytes (groupId : ℕ) : Option Bytes :=
  let offset := table.dataOffset + groupId * table.tableByteSize
  if table.mmap.length < offset + table.tableByteSize then none
  else some ((table.mmap.drop offset).take table.tableByteSize)

variable {table}

theorem length_groupBytes {g : ℕ} {bytes : Bytes} (h : table.groupBytes g = some bytes) :
    bytes.length = table.binsPerTable * table.params.binSize := by
  simp only [groupBytes] at h
  split_ifs at h with hlen
  cases h
  rw [List.length_take, List.length_drop, tableByteSize]
  rw [tableByteSize] at hlen
  omega

end MappedSubTable

def groupResults (dpf : Dpf Key) (table : MappedSubTable) (g : ℕ) (keys : List Key) :
    Option (List Bytes) := do
  let bytes ← table.groupBytes g
  processTableGroup dpf bytes table.binsPerTable table.params.binSize keys

theorem groupResults_eq {dpf : Dpf Key} {table : MappedSubTable} {g : ℕ} {bytes : Bytes}
    (h : table.groupBytes g = some bytes) (keys : List Key) :
    groupResults dpf table g keys =
      some (keys.map (keyResult dpf bytes table.binsPerTable table.params.binSize)) := by
  rw [groupResults, h]
  exact processTableGroup_eq (MappedSubTable.length_groupBytes h).ge keys

/-! ## Shared scans -/

/-- The results of one query: per group, one result per key. -/
abbrev GroupResults := List (List Bytes)

/-- A queued query and the call whose channel takes the answer. -/
structure Job (Key : Type) where
  keys : List (List Key)
  reply : ℕ

/-- Deal the results of group `g` to the jobs that have keys for it, in order. -/
def deal (g : ℕ) : List (Job Key) → List GroupResults → List Bytes → List GroupResults
  | job :: jobs, r :: results, accs =>
    match job.keys[g]? with
    | some keys => (r ++ [accs.take keys.length]) :: deal g jobs results (accs.drop keys.length)
    | none => r :: deal g jobs results accs
  | _, _, _ => []

/-- One scan for all jobs: every group is evaluated for the keys of all of them. -/
def scanJobs (dpf : Dpf Key) (table : MappedSubTable) (jobs : List (Job Key)) :
    Option (List GroupResults) := do
  let numGroups := (jobs.map fun j => j.keys.length).max?.getD 0
  let perGroup ← (List.range numGroups).mapM fun g =>
    groupResults dpf table g (jobs.filterMap fun j => j.keys[g]?).flatten
  return perGroup.zipIdx.foldl (fun results (p : List Bytes × ℕ) => deal p.2 jobs results p.1)
    (jobs.map fun _ => [])

/-- A query evaluated alone: every group for its own keys. -/
def scanAlone (dpf : Dpf Key) (table : MappedSubTable) (keys : List (List Key)) :
    Option GroupResults :=
  keys.zipIdx.mapM fun (p : List Key × ℕ) => groupResults dpf table p.2 p.1

section Shared

variable {dpf : Dpf Key} {table : MappedSubTable}

/-- The result of a key in group `g`. -/
def resultIn (dpf : Dpf Key) (table : MappedSubTable) (g : ℕ) (key : Key) : Bytes :=
  keyResult dpf ((table.groupBytes g).getD []) table.binsPerTable table.params.binSize key

/-- The results of a query, key by key. -/
def answersOf (dpf : Dpf Key) (table : MappedSubTable) (keys : List (List Key)) : GroupResults :=
  keys.zipIdx.map fun p => p.1.map (resultIn dpf table p.2)

theorem resultIn_eq {g : ℕ} {bytes : Bytes} (h : table.groupBytes g = some bytes) :
    resultIn dpf table g = keyResult dpf bytes table.binsPerTable table.params.binSize := by
  funext key
  rw [resultIn, h, Option.getD_some]

theorem groupResults_eq_some {g : ℕ} {keys : List Key} {results : List Bytes}
    (h : groupResults dpf table g keys = some results) :
    (∃ bytes, table.groupBytes g = some bytes) ∧ results = keys.map (resultIn dpf table g) := by
  obtain ⟨bytes, hbytes, -⟩ := Option.bind_eq_some_iff.1 h
  rw [groupResults_eq hbytes, Option.some_inj] at h
  exact ⟨⟨bytes, hbytes⟩, by rw [resultIn_eq hbytes, h]⟩

theorem groupResults_resultIn {g : ℕ} (h : ∃ bytes, table.groupBytes g = some bytes)
    (keys : List Key) :
    groupResults dpf table g keys = some (keys.map (resultIn dpf table g)) := by
  obtain ⟨bytes, hbytes⟩ := h
  rw [groupResults_eq hbytes, resultIn_eq hbytes]

/-- **Dealing** gives every job the results of its own keys. -/
theorem deal_eq (f : Key → Bytes) (g : ℕ) (jobs : List (Job Key)) (acc : Job Key → GroupResults) :
    deal g jobs (jobs.map acc) ((jobs.filterMap fun j => j.keys[g]?).flatten.map f) =
      jobs.map fun j => acc j ++ ((j.keys[g]?).map fun keys => keys.map f).toList := by
  induction jobs with
  | nil => rfl
  | cons job jobs ih =>
    rw [List.map_cons, deal]
    cases hget : job.keys[g]? with
    | none =>
      simp only [List.filterMap_cons, hget, ih, List.map_cons, Option.map_none,
        Option.toList_none, List.append_nil]
    | some keys =>
      have hlen : (keys.map f).length = keys.length := List.length_map ..
      simp only [List.filterMap_cons, hget, List.flatten_cons, List.map_append,
        List.take_left' hlen, List.drop_left' hlen, ih, List.map_cons, Option.map_some,
        Option.toList_some]

theorem zipIdx_map_range {α : Type*} (f : ℕ → α) (n : ℕ) :
    ((List.range n).map f).zipIdx = (List.range n).map fun g => (f g, g) := by
  induction n with
  | zero => rfl
  | succ n ih =>
    rw [List.range_succ, List.map_append, List.map_append, List.zipIdx_append, ih, List.length_map,
      List.length_range]
    simp

theorem answersOf_take_succ (keys : List (List Key)) (n : ℕ) :
    answersOf dpf table (keys.take (n + 1)) = answersOf dpf table (keys.take n) ++
      ((keys[n]?).map fun ks => ks.map (resultIn dpf table n)).toList := by
  rw [answersOf, List.take_add_one, List.zipIdx_append, List.map_append]
  congr 1
  cases hget : keys[n]? with
  | none => rfl
  | some ks =>
    have hlen : (keys.take n).length = n :=
      List.length_take_of_le (List.getElem?_eq_some_iff.1 hget).1.le
    simp [hlen]

theorem foldl_deal_eq (jobs : List (Job Key)) (n : ℕ) :
    (List.range n).foldl (fun results g => deal g jobs results
        ((jobs.filterMap fun j => j.keys[g]?).flatten.map (resultIn dpf table g)))
        (jobs.map fun _ => []) =
      jobs.map fun j => answersOf dpf table (j.keys.take n) := by
  induction n with
  | zero => rfl
  | succ n ih =>
    rw [List.range_succ, List.foldl_append, ih, List.foldl_cons, deal_eq]
    exact List.map_congr_left fun j _ => (answersOf_take_succ j.keys n).symm

theorem scanAlone_eq {keys : List (List Key)}
    (h : ∀ g < keys.length, ∃ bytes, table.groupBytes g = some bytes) :
    scanAlone dpf table keys = some (answersOf dpf table keys) := by
  apply mapM_eq_some_map
  rintro ⟨ks, g⟩ hmem
  have hlt := (List.getElem?_eq_some_iff.1 (List.mk_mem_zipIdx_iff_getElem?.1 hmem)).1
  exact groupResults_resultIn (h g hlt) ks

/-- **A shared scan answers what separate scans would.** -/
theorem scanJobs_eq_some {jobs : List (Job Key)} {results : List GroupResults}
    (h : scanJobs dpf table jobs = some results) :
    results.length = jobs.length ∧ ∀ p ∈ jobs.zip results,
      scanAlone dpf table p.1.keys = some p.2 := by
  obtain ⟨perGroup, hgroups, h⟩ := Option.bind_eq_some_iff.1 h
  set n := (jobs.map fun j => j.keys.length).max?.getD 0
  have hall : ∀ g < n, (∃ bytes, table.groupBytes g = some bytes) ∧ perGroup[g]? =
      some ((jobs.filterMap fun j => j.keys[g]?).flatten.map (resultIn dpf table g)) := by
    intro g hg
    obtain ⟨accs, hget, haccs⟩ := getElem?_mapM hgroups (by rw [List.getElem?_range hg])
    obtain ⟨hbytes, rfl⟩ := groupResults_eq_some haccs
    exact ⟨hbytes, hget⟩
  have hper : perGroup = (List.range n).map fun g =>
      (jobs.filterMap fun j => j.keys[g]?).flatten.map (resultIn dpf table g) := by
    apply List.ext_getElem?
    intro g
    by_cases hg : g < n
    · rw [(hall g hg).2, List.getElem?_map, List.getElem?_range hg, Option.map_some]
    · have hlen := length_mapM hgroups
      rw [List.length_range] at hlen
      rw [List.getElem?_eq_none (by omega), List.getElem?_eq_none (by simpa using hg)]
  have hresults : results = jobs.map fun j => answersOf dpf table (j.keys.take n) := by
    rw [hper, zipIdx_map_range] at h
    cases h
    rw [List.foldl_map, foldl_deal_eq]
  have hle : ∀ j ∈ jobs, j.keys.length ≤ n := fun j hj =>
    List.le_max?_getD_of_mem (List.mem_map_of_mem (f := fun j => j.keys.length) hj)
  refine ⟨by rw [hresults, List.length_map], ?_⟩
  rintro ⟨j, r⟩ hp
  obtain ⟨i, hi⟩ := List.getElem?_of_mem hp
  obtain ⟨hj, hr⟩ := List.getElem?_zip_eq_some.1 hi
  have hmem := List.mem_of_getElem? hj
  rw [hresults, List.getElem?_map, hj, Option.map_some, Option.some_inj,
    List.take_of_length_le (hle j hmem)] at hr
  rw [← hr]
  exact scanAlone_eq fun g hg => (hall g (lt_of_lt_of_le hg (hle j hmem))).1

end Shared

end BitcoinPir.Scan
