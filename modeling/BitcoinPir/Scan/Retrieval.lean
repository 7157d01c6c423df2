import BitcoinPir.Scan.Lanes

/-!
# Two-server retrieval

Each of two servers holds one key of a pair and evaluates it over its copy of the table, together
with keys of other queries. `retrieval_exact`: the sum of the two results is the bin the pair was
made for, and zero if the table has no such bin, whatever keys are evaluated beside it. Nor does it
matter how calls interleave on the servers (`concurrent_retrieval_exact`).
-/

namespace BitcoinPir.Scan

open Foundations

variable {Key : Type}

/-- The library's promise: the selector bits of the two keys of a pair differ exactly at the
point the pair was made for. -/
def Dpf.SharesPoint (dpf : Dpf Key) : Prop :=
  ∀ (alpha n numPoints x : ℕ), alpha < 2 ^ n → x < numPoints → x < 2 ^ n →
    (selects (dpf.evalPartial (dpf.gen alpha n).1 numPoints) x ^^
      selects (dpf.evalPartial (dpf.gen alpha n).2 numPoints) x) = decide (x = alpha)

/-! ## Sums of selected bins -/

section Sums

variable {size : ℕ} {bytes : ℕ → Bytes}

theorem length_foldl_addBin (sel : ℕ → Bool) (bins : List ℕ) (acc : Bytes) :
    (bins.foldl (addBin sel bytes) acc).length = acc.length := by
  induction bins generalizing acc with
  | nil => rfl
  | cons bin bins ih =>
    rw [List.foldl_cons, ih, addBin]
    split_ifs
    · exact length_xorBytes ..
    · rfl

theorem length_addBin (sel : ℕ → Bool) (acc : Bytes) (bin : ℕ) :
    (addBin sel bytes acc bin).length = acc.length :=
  length_foldl_addBin sel [bin] acc

/-- One bin in two sums: it counts in their sum if it is selected in exactly one. -/
theorem xorBytes_addBin (sel₀ sel₁ : ℕ → Bool) {acc₀ acc₁ : Bytes} (h₀ : acc₀.length = size)
    (h₁ : acc₁.length = size) {bin : ℕ} (hbin : (bytes bin).length = size) :
    xorBytes (addBin sel₀ bytes acc₀ bin) (addBin sel₁ bytes acc₁ bin) =
      addBin (fun x => sel₀ x ^^ sel₁ x) bytes (xorBytes acc₀ acc₁) bin := by
  simp only [addBin]
  rcases Bool.eq_false_or_eq_true (sel₀ bin) with hs₀ | hs₀ <;>
    rcases Bool.eq_false_or_eq_true (sel₁ bin) with hs₁ | hs₁ <;>
    simp only [hs₀, hs₁, Bool.xor_self, Bool.xor_false, Bool.false_xor, Bool.false_eq_true, if_false,
      if_true]
  -- selected twice, once on either side, never
  · exact xorBytes_xorBytes (h₀.trans hbin.symm) (h₁.trans hbin.symm)
  · exact xorBytes_xorBytes_left (h₀.trans hbin.symm) (h₁.trans hbin.symm)
  · rw [xorBytes_assoc (h₀.trans h₁.symm) (h₁.trans hbin.symm)]

theorem xorBytes_foldl_addBin (sel₀ sel₁ : ℕ → Bool) {bins : List ℕ}
    (hbins : ∀ bin ∈ bins, (bytes bin).length = size) {acc₀ acc₁ : Bytes}
    (h₀ : acc₀.length = size) (h₁ : acc₁.length = size) :
    xorBytes (bins.foldl (addBin sel₀ bytes) acc₀) (bins.foldl (addBin sel₁ bytes) acc₁) =
      bins.foldl (addBin (fun x => sel₀ x ^^ sel₁ x) bytes) (xorBytes acc₀ acc₁) := by
  induction bins generalizing acc₀ acc₁ with
  | nil => rfl
  | cons bin bins ih =>
    rw [List.foldl_cons, List.foldl_cons, List.foldl_cons,
      ih (fun b hb => hbins b (List.mem_cons_of_mem _ hb)) (by rw [length_addBin, h₀])
        (by rw [length_addBin, h₁]),
      xorBytes_addBin sel₀ sel₁ h₀ h₁ (hbins bin List.mem_cons_self)]

theorem foldl_addBin_congr {sel sel' : ℕ → Bool} {bins : List ℕ}
    (h : ∀ bin ∈ bins, sel bin = sel' bin) (acc : Bytes) :
    bins.foldl (addBin sel bytes) acc = bins.foldl (addBin sel' bytes) acc := by
  induction bins generalizing acc with
  | nil => rfl
  | cons bin bins ih =>
    have hbin : addBin sel bytes acc bin = addBin sel' bytes acc bin := by
      rw [addBin, addBin, h bin List.mem_cons_self]
    rw [List.foldl_cons, List.foldl_cons, hbin, ih fun b hb => h b (List.mem_cons_of_mem _ hb)]

theorem foldl_addBin_point {alpha : ℕ} (hbytes : (bytes alpha).length = size) (n : ℕ) :
    (List.range n).foldl (addBin (fun x => decide (x = alpha)) bytes) (List.replicate size 0) =
      if alpha < n then bytes alpha else List.replicate size 0 := by
  induction n with
  | zero => rfl
  | succ n ih =>
    rw [List.range_succ, List.foldl_append, ih, List.foldl_cons, List.foldl_nil, addBin]
    by_cases heq : n = alpha
    · subst heq
      rw [if_neg (lt_irrefl n), if_pos (Nat.lt_succ_self n), if_pos (decide_eq_true rfl), ← hbytes,
        zero_xorBytes]
    · have hiff : alpha < n + 1 ↔ alpha < n := by omega
      rw [if_neg (by simpa using heq)]
      simp only [hiff]

end Sums

theorem length_binBytes {tableBytes : Bytes} {binsPerTable resultSize : ℕ}
    (htable : binsPerTable * resultSize ≤ tableBytes.length) {bin : ℕ} (hbin : bin < binsPerTable) :
    (binBytes tableBytes resultSize bin).length = resultSize := by
  have := Nat.mul_le_mul_right resultSize (show bin + 1 ≤ binsPerTable from hbin)
  rw [Nat.add_mul] at this
  rw [binBytes, List.length_take, List.length_drop]
  omega

theorem xorBytes_keyResult {dpf : Dpf Key} (hdpf : dpf.SharesPoint) {tableBytes : Bytes}
    {binsPerTable resultSize : ℕ} (htable : binsPerTable * resultSize ≤ tableBytes.length)
    {alpha n : ℕ} (halpha : alpha < 2 ^ n) (hcovers : binsPerTable ≤ 2 ^ n) :
    xorBytes (keyResult dpf tableBytes binsPerTable resultSize (dpf.gen alpha n).1)
        (keyResult dpf tableBytes binsPerTable resultSize (dpf.gen alpha n).2) =
      if alpha < binsPerTable then binBytes tableBytes resultSize alpha
      else List.replicate resultSize 0 := by
  have hbins : ∀ bin ∈ List.range binsPerTable,
      (binBytes tableBytes resultSize bin).length = resultSize :=
    fun bin hbin => length_binBytes htable (List.mem_range.1 hbin)
  have hpoint : ∀ bin ∈ List.range binsPerTable,
      (selects (dpf.evalPartial (dpf.gen alpha n).1 binsPerTable) bin ^^
        selects (dpf.evalPartial (dpf.gen alpha n).2 binsPerTable) bin) = decide (bin = alpha) := by
    intro bin hbin
    have hlt := List.mem_range.1 hbin
    exact hdpf alpha n binsPerTable bin halpha hlt (by omega)
  rw [keyResult, keyResult, xorBytes_foldl_addBin _ _ hbins List.length_replicate
    List.length_replicate, xorBytes_self, List.length_replicate, foldl_addBin_congr hpoint]
  by_cases hlt : alpha < binsPerTable
  · exact foldl_addBin_point (length_binBytes htable hlt) binsPerTable
  · rw [if_neg hlt]
    refine foldl_addBin_of_not _ ?_ _
    intro bin hbin
    have := List.mem_range.1 hbin
    exact decide_eq_false (by omega)

/-! ## Retrieval -/

/-- **Two-server retrieval is exact.** Where two servers with the same table evaluate the two keys
of a pair among any others, both have a result for it, and the sum of the two is the bin the pair
was made for, or zero bytes if there is no such bin. -/
theorem retrieval_exact (dpf : Dpf Key) (hdpf : dpf.SharesPoint) (tableBytes : Bytes)
    (binsPerTable resultSize : ℕ) (htable : binsPerTable * resultSize ≤ tableBytes.length)
    (alpha n : ℕ) (halpha : alpha < 2 ^ n) (hcovers : binsPerTable ≤ 2 ^ n)
    (keys₀ keys₁ : List Key) (i j : ℕ) (hi : keys₀[i]? = some (dpf.gen alpha n).1)
    (hj : keys₁[j]? = some (dpf.gen alpha n).2) :
    ∃ results₀ results₁ r₀ r₁,
      processTableGroup dpf tableBytes binsPerTable resultSize keys₀ = some results₀ ∧
      processTableGroup dpf tableBytes binsPerTable resultSize keys₁ = some results₁ ∧
      results₀.length = keys₀.length ∧ results₁.length = keys₁.length ∧
      results₀[i]? = some r₀ ∧ results₁[j]? = some r₁ ∧
      xorBytes r₀ r₁ = if alpha < binsPerTable then binBytes tableBytes resultSize alpha
        else List.replicate resultSize 0 := by
  refine ⟨_, _, _, _, processTableGroup_eq htable keys₀, processTableGroup_eq htable keys₁,
    List.length_map .., List.length_map .., ?_, ?_, xorBytes_keyResult hdpf htable halpha hcovers⟩
  · rw [List.getElem?_map, hi, Option.map_some]
  · rw [List.getElem?_map, hj, Option.map_some]

/-! ## A library without secrets -/

namespace PlainDpf

/-- One selected bit. -/
def pointBlock (a : ℕ) : Block :=
  if a < 64 then ⟨1 <<< UInt64.ofNat a, 0⟩ else ⟨0, 1 <<< UInt64.ofNat (a - 64)⟩

/-- The first key of a pair selects the point, the second nothing. -/
def dpf : Dpf (Option ℕ) where
  gen alpha _ := (some alpha, none)
  evalPartial key numPoints := (List.range ((numPoints + 127) / 128)).map fun b =>
    match key with
    | none => Block.zero
    | some a => if b = a / 128 then pointBlock (a % 128) else Block.zero

theorem getDpfBit_pointBlock : ∀ a i : Fin 128, getDpfBit (pointBlock a) i = decide (i = a) := by
  decide +kernel

theorem selects_none {numPoints x : ℕ} (hx : x < numPoints) :
    selects (dpf.evalPartial none numPoints) x = false := by
  have hblock : x / 128 < (numPoints + 127) / 128 := by omega
  rw [selects, dpf, List.getElem?_map, List.getElem?_range hblock]
  exact getDpfBit_zero _

theorem selects_some {numPoints x : ℕ} (hx : x < numPoints) (alpha : ℕ) :
    selects (dpf.evalPartial (some alpha) numPoints) x = decide (x = alpha) := by
  have hblock : x / 128 < (numPoints + 127) / 128 := by omega
  rw [selects, dpf, List.getElem?_map, List.getElem?_range hblock]
  simp only [Option.map_some, Option.any_some]
  split_ifs with heq
  · have hbit := getDpfBit_pointBlock ⟨alpha % 128, Nat.mod_lt _ (by decide)⟩
      ⟨x % 128, Nat.mod_lt _ (by decide)⟩
    rw [hbit]
    apply decide_eq_decide.2
    rw [Fin.mk.injEq]
    omega
  · rw [getDpfBit_zero]
    refine (decide_eq_false ?_).symm
    rintro rfl
    exact heq rfl

theorem sharesPoint : dpf.SharesPoint := by
  intro alpha n numPoints x _ hx _
  change (selects (dpf.evalPartial (some alpha) numPoints) x ^^
    selects (dpf.evalPartial none numPoints) x) = decide (x = alpha)
  rw [selects_some hx, selects_none hx, Bool.xor_false]

end PlainDpf

theorem retrieval_exact_three_bins : ∃ results₀ results₁ r₀ r₁,
    processTableGroup PlainDpf.dpf [1, 2, 3, 4, 5, 6] 3 2 [none, some 1] = some results₀ ∧
      processTableGroup PlainDpf.dpf [1, 2, 3, 4, 5, 6] 3 2 [none, some 2, some 0] =
        some results₁ ∧
      results₀.length = 2 ∧ results₁.length = 3 ∧ results₀[1]? = some r₀ ∧
      results₁[0]? = some r₁ ∧ xorBytes r₀ r₁ = [3, 4] :=
  retrieval_exact PlainDpf.dpf PlainDpf.sharesPoint [1, 2, 3, 4, 5, 6] 3 2 (by decide) 1 7
    (by decide) (by decide) [none, some 1] [none, some 2, some 0] 1 0 rfl rfl

/-! ## Retrieval from busy servers -/

/-- What a call returned for a key is the key's own result, whatever else ran on the lane. -/
theorem returned_keyResult {dpf : Dpf Key} {table : MappedSubTable} {events : List (Event Key)}
    {i : ℕ} {c : Call Key} {groups : GroupResults}
    (hc : (runFrom (laneStep dpf table) .init events).calls i = some c)
    (hphase : c.phase = .returned groups) {g a : ℕ} {key : Key}
    (hkey : c.keys[g]?.bind (·[a]?) = some key) :
    ∃ bytes, table.groupBytes g = some bytes ∧ groups[g]?.bind (·[a]?) =
      some (keyResult dpf bytes table.binsPerTable table.params.binSize key) := by
  obtain ⟨role, hinv⟩ := runFrom_invariant (I := fun s => ∃ role, Inv dpf table role s)
    (fun s e ⟨role, h⟩ => h.laneStep e) events ⟨none, inv_init⟩
  obtain ⟨keys, hkeys, ha⟩ := Option.bind_eq_some_iff.1 hkey
  cases hinv.call_ok i c hc with
  | returned _ _ _ hown =>
    cases hphase
    obtain ⟨results, hresults, hgroup⟩ := getElem?_mapM hown (i := g) (a := (keys, g))
      (by simpa using hkeys)
    obtain ⟨⟨bytes, hbytes⟩, rfl⟩ := groupResults_eq_some hgroup
    refine ⟨bytes, hbytes, ?_⟩
    rw [hresults, Option.bind_some, List.getElem?_map, ha, resultIn_eq hbytes, Option.map_some]
  | ordered | draining | scanning | replying | replied | waiting | answered | collecting =>
    cases hphase

/-- **Concurrent retrieval is exact**: whatever other calls run on the lanes of the two servers, what
they return for the keys of a pair sums up to the bin the pair was made for. -/
theorem concurrent_retrieval_exact (dpf : Dpf Key) (hdpf : dpf.SharesPoint) (table : MappedSubTable)
    (alpha n : ℕ) (halpha : alpha < 2 ^ n) (hcovers : table.binsPerTable ≤ 2 ^ n)
    (events₀ events₁ : List (Event Key)) (i j : ℕ) (c₀ c₁ : Call Key) (groups₀ groups₁ : GroupResults)
    (hc₀ : (runFrom (laneStep dpf table) .init events₀).calls i = some c₀)
    (hc₁ : (runFrom (laneStep dpf table) .init events₁).calls j = some c₁)
    (hphase₀ : c₀.phase = .returned groups₀) (hphase₁ : c₁.phase = .returned groups₁) (g a b : ℕ)
    (hkey₀ : c₀.keys[g]?.bind (·[a]?) = some (dpf.gen alpha n).1)
    (hkey₁ : c₁.keys[g]?.bind (·[b]?) = some (dpf.gen alpha n).2) :
    ∃ bytes r₀ r₁, table.groupBytes g = some bytes ∧ groups₀[g]?.bind (·[a]?) = some r₀ ∧
      groups₁[g]?.bind (·[b]?) = some r₁ ∧ xorBytes r₀ r₁ =
        if alpha < table.binsPerTable then binBytes bytes table.params.binSize alpha
        else List.replicate table.params.binSize 0 := by
  obtain ⟨bytes, hbytes, hr₀⟩ := returned_keyResult hc₀ hphase₀ hkey₀
  obtain ⟨bytes', hbytes', hr₁⟩ := returned_keyResult hc₁ hphase₁ hkey₁
  obtain rfl : bytes = bytes' := Option.some_inj.1 (hbytes.symm.trans hbytes')
  exact ⟨bytes, _, _, hbytes, hr₀, hr₁,
    xorBytes_keyResult hdpf (MappedSubTable.length_groupBytes hbytes).ge halpha hcovers⟩

namespace PlainDpf

def threeBins : MappedSubTable := ⟨[1, 2, 3, 4, 5, 6], ⟨1, 1, 0, 1, 1, 2⟩, 3, 0⟩

/-- Call 0 scans for itself and for call 1, which was queued meanwhile. -/
def busyLane (key : Option ℕ) : List (Event (Option ℕ)) :=
  [.call 0 [[key]], .call 1 [[some 2]], .drain 0, .scan 0, .reply 0, .reply 0, .handOff 0, .recv 0]

end PlainDpf

theorem concurrent_retrieval_exact_three_bins : ∃ bytes r₀ r₁,
    PlainDpf.threeBins.groupBytes 0 = some bytes ∧
      ([[[3, 4]]] : GroupResults)[0]?.bind (·[0]?) = some r₀ ∧
      ([[[0, 0]]] : GroupResults)[0]?.bind (·[0]?) = some r₁ ∧ xorBytes r₀ r₁ =
        if 1 < 3 then binBytes bytes 2 1 else List.replicate 2 0 :=
  concurrent_retrieval_exact PlainDpf.dpf PlainDpf.sharesPoint PlainDpf.threeBins 1 7 (by decide)
    (by decide) (PlainDpf.busyLane (some 1)) (PlainDpf.busyLane none) 0 0
    ⟨[[some 1]], .returned [[[3, 4]]], []⟩ ⟨[[none]], .returned [[[0, 0]]], []⟩ _ _ rfl rfl rfl rfl
    0 0 0 rfl rfl

end BitcoinPir.Scan
