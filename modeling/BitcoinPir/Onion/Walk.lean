import BitcoinPir.Onion.Merkle

/-!
# What the OnionPIR verification computes for one leaf

The passes of `verifySubTree` interleave the leaves of all groups, and may stop at the first row
that does not unpack. Where they succeed, each leaf has taken exactly one step, with its own
group's row of its own pass (`walkSiblings_getElem?`), and its verdict is a climb in the sense of
`Foundations.HashTree`: one sibling row, then the cached levels (`leafVerdict_eq_true`).
-/

namespace BitcoinPir.Onion

open Foundations

variable {σ : Type} {H : Bytes → Hash256} {env : Environment σ} {tree : OnionTreeKind}

/-! ## What was received fits its fields -/

variable {tops : List OnionTreeTopCache} {client : PirClient} {params : PirParams}
  {st : List LeafState}

theorem parseOnionTreeTopCache_bounds {data : Bytes} (h : parseOnionTreeTopCache data = .ok tops) :
    tops.length < 2 ^ 32 ∧ ∀ top ∈ tops, top.arity < 2 ^ 16 ∧ top.levels.length < 256 := by
  rw [parseOnionTreeTopCache] at h
  split_ifs at h
  obtain ⟨⟨tops₁, rest⟩, hread, h⟩ := bind_eq_ok.1 h
  simp only at h
  split_ifs at h
  cases h
  obtain ⟨hlen, hbounds⟩ := readTrees_bounds topReader hread
  refine ⟨?_, hbounds⟩
  rw [hlen]
  exact lt_of_lt_of_le (leNat_take_lt ..) (by norm_num)

theorem fetchTreeTops_bounds {context : String} {s s' : σ} {blob : Bytes}
    (h : fetchTreeTops env tree context s = .ok (blob, tops, s')) :
    tops.length < 2 ^ 32 ∧ ∀ top ∈ tops, top.arity < 2 ^ 16 ∧ top.levels.length < 256 := by
  simp only [fetchTreeTops, bind_eq_ok, return_eq_ok] at h
  obtain ⟨_, _, _, _, tops₁, hparse, h⟩ := h
  cases h
  exact parseOnionTreeTopCache_bounds hparse

theorem decodeSiblingBatchResult_bound {data : Bytes} {roundId results : ℕ} {context : String}
    {batch : List Bytes} (h : decodeSiblingBatchResult data roundId results context = .ok batch) :
    results < 2 ^ 8 := by
  simp only [decodeSiblingBatchResult] at h
  split_ifs at h with _ _ hcount
  rw [← not_not.1 hcount]
  exact lt_of_lt_of_le (leNat_take_lt ..) (by norm_num)

/-- Only kinds of fewer than 256 groups get through a pass. -/
theorem siblingPasses_bound {arity k numPt : ℕ} {byGroup : List (ℕ × List ℕ)} {n pass : ℕ} {s : σ}
    {r : List LeafState × List (List Bytes) × σ}
    (h : siblingPasses H env client params tree arity k numPt byGroup (n + 1) pass st s = .ok r) :
    k < 2 ^ 8 := by
  simp only [siblingPasses, bind_eq_ok] at h
  obtain ⟨_, _, _, _, batch, hbatch, _⟩ := h
  exact decodeSiblingBatchResult_bound hbatch

/-! ## Well-formed responses -/

theorem responsePayload_cons {variant : UInt8} (h : variant ≠ respError) (payload : Bytes)
    (context : String) : responsePayload (variant :: payload) variant context = .ok payload := by
  have hhead : (variant :: payload).head? ≠ some respError := by simpa using h
  rw [responsePayload, rejectErrorResponse_of_head? hhead, if_neg (not_not.2 rfl)]
  rfl

/-- A blob of tree tops whose counts fit their fields is read back. -/
theorem parseOnionTreeTopCache_write (hlen : tops.length < 2 ^ 32) (hfits : ∀ top ∈ tops, top.Fits)
    (harity : ∀ top ∈ tops, top.arity ≠ 0) :
    parseOnionTreeTopCache (leBytes 4 tops.length ++ tops.flatMap writeTreeTop) = .ok tops := by
  have hcount : leNat (leBytes 4 tops.length) = tops.length :=
    leNat_leBytes_of_lt (by norm_num; omega)
  have hread := readTrees_write topReader 0 hfits
    (fun _ top htop => if_neg (harity top htop)) []
  rw [List.append_nil] at hread
  rw [parseOnionTreeTopCache, if_neg (by rw [List.length_append, length_leBytes]; omega)]
  simp only [List.take_left' (length_leBytes ..), List.drop_left' (length_leBytes ..), hcount,
    hread, ok_bind, List.length_nil, ne_eq, not_true_eq_false, if_false]
  rfl

theorem readResults_write (context : String) {results : List Bytes}
    (h : ∀ r ∈ results, r.length < 2 ^ 32) (rest : Bytes) :
    readResults context results.length
      (results.flatMap (fun r => leBytes 4 r.length ++ r) ++ rest) = .ok (results, rest) := by
  induction results with
  | nil => rfl
  | cons r results ih =>
    have hlen : leNat (leBytes 4 r.length) = r.length :=
      leNat_leBytes_of_lt (by have := h r List.mem_cons_self; norm_num; omega)
    rw [List.flatMap_cons, List.append_assoc, List.append_assoc, List.length_cons, readResults,
      if_neg (by rw [List.length_append, length_leBytes]; omega)]
    simp only [List.take_left' (length_leBytes ..), List.drop_left' (length_leBytes ..), hlen]
    rw [if_neg (by rw [List.length_append]; omega), List.drop_left' rfl,
      ih fun r hr => h r (List.mem_cons_of_mem _ hr), ok_bind, List.take_left' rfl]
    rfl

/-- A batch as the server writes it. -/
def encodeSiblingBatchResult (roundId : ℕ) (results : List Bytes) : Bytes :=
  leBytes 2 roundId ++ leBytes 1 results.length ++
    results.flatMap fun r => leBytes 4 r.length ++ r

theorem decodeSiblingBatchResult_encode {results : List Bytes} (hcount : results.length < 2 ^ 8)
    (h : ∀ r ∈ results, r.length < 2 ^ 32) (context : String) :
    decodeSiblingBatchResult (encodeSiblingBatchResult 0 results) 0 results.length context =
      .ok results := by
  have hnum : leNat (leBytes 1 results.length) = results.length :=
    leNat_leBytes_of_lt (by simpa using hcount)
  have hread := readResults_write context h []
  rw [List.append_nil] at hread
  rw [encodeSiblingBatchResult, List.append_assoc]
  generalize results.flatMap (fun r => leBytes 4 r.length ++ r) = tail at hread
  have h₂ : (leBytes 2 0 ++ (leBytes 1 results.length ++ tail)).take 2 = leBytes 2 0 := rfl
  have h₁ : ((leBytes 2 0 ++ (leBytes 1 results.length ++ tail)).drop 2).take 1 =
      leBytes 1 results.length := rfl
  have h₃ : (leBytes 2 0 ++ (leBytes 1 results.length ++ tail)).drop 3 = tail := rfl
  rw [decodeSiblingBatchResult]
  simp only [h₂, h₁, h₃, hnum, leNat_leBytes, Nat.zero_mod, ne_eq, not_true_eq_false, if_false,
    hread, ok_bind, List.length_nil]
  rfl

/-! ## The rows of a leaf -/

/-- The row group `g` receives in a batch. -/
def receivedRow (client : PirClient) (params : PirParams) (batch : List Bytes) (g : ℕ) :
    Option Bytes :=
  (batch[g]?).bind fun response =>
    unpackOnionPlaintext (client.decryptResponse response) params.polyDegree params.entrySize

theorem siblingRowOf_eq_ok {batch : List Bytes} {g : ℕ} {row : Option Bytes}
    (h : siblingRowOf client params tree batch g = .ok row) :
    row = receivedRow client params batch g := by
  unfold siblingRowOf at h
  unfold receivedRow
  cases hb : batch[g]? with
  | none =>
    rw [hb] at h
    cases h
    rfl
  | some response =>
    rw [hb] at h
    simp only at h
    split at h
    · cases h
    · rename_i row' hrow
      cases h
      rw [Option.bind_some, hrow]

/-- A failed leaf stays as it is. -/
theorem modify_absorbSibling_of_failed {arity : ℕ} {i : ℕ}
    (h : (st[i]?).any LeafState.failed = true) (row : Option Bytes) :
    st.modify i (absorbSibling H arity row) = st := by
  apply List.ext_getElem?
  intro j
  rw [List.getElem?_modify]
  split_ifs with hij
  · subst hij
    cases hget : st[i]? with
    | none => rfl
    | some l =>
      rw [hget, Option.any_some] at h
      simp [absorbSibling, h]
  · simp

/-- **One pass**, where it succeeds, is a run of updates. -/
theorem foldPass_eq_ok {arity : ℕ} {batch : List Bytes} {items : List (ℕ × ℕ)}
    {st' : List LeafState} (h : foldPass H client params tree arity batch items st = .ok st') :
    st' = items.foldl (fun st (g, i) =>
      st.modify i (absorbSibling H arity (receivedRow client params batch g))) st := by
  induction items generalizing st with
  | nil =>
    cases h
    rfl
  | cons e items ih =>
    rw [foldPass] at h
    rw [List.foldl_cons]
    split at h
    · rename_i hfailed
      simp only [modify_absorbSibling_of_failed hfailed]
      exact ih h
    · obtain ⟨row, hrow, hrest⟩ := bind_eq_ok.1 h
      rw [siblingRowOf_eq_ok hrow] at hrest
      exact ih hrest

/-- **All passes**, where they succeed, are a run of updates over the received batches. -/
theorem siblingPasses_eq_ok {arity k numPt : ℕ} {byGroup : List (ℕ × List ℕ)} {n pass : ℕ}
    {st' : List LeafState} {batches : List (List Bytes)} {s s' : σ}
    (h : siblingPasses H env client params tree arity k numPt byGroup n pass st s = .ok (st', batches, s')) :
    batches.length = n ∧
      st' = (batches.zipIdx pass).foldl (fun st (batch, pass) =>
        (passGroupToItem byGroup pass).foldl (fun st (g, i) =>
          st.modify i (absorbSibling H arity (receivedRow client params batch g))) st) st := by
  induction n generalizing pass st batches s with
  | zero =>
    cases h
    exact ⟨rfl, rfl⟩
  | succ n ih =>
    simp only [siblingPasses, bind_eq_ok, return_eq_ok] at h
    obtain ⟨_, _, _, _, batch, _, st₁, hfold, _, hrest, h⟩ := h
    cases h
    obtain ⟨hlen, hst⟩ := ih hrest
    refine ⟨by rw [List.length_cons, hlen], ?_⟩
    rw [List.zipIdx_cons, List.foldl_cons, hst, foldPass_eq_ok hfold]

variable {info : OnionMerkleInfo}

theorem siblingClient_eq_ok (h : siblingClient env tree info = .ok client) :
    env.pir.fromSecretKey (info.kind tree).numPt env.clientId env.secretKey = some client ∧
      (env.pir.paramsInfo (info.kind tree).numPt).entrySize = info.arity * 32 := by
  unfold siblingClient at h
  simp only at h
  split at h
  · cases h
  · rename_i client' hclient
    split_ifs at h with hsize
    cases h
    exact ⟨hclient, not_not.1 hsize⟩

/-- The pass an entry's leaf is walked in. -/
def leafPass (entries : LeafHashes) (i : ℕ) (entry : LeafKey × Hash256) : ℕ :=
  passOf (groupsOf entries) i entry.1.1

/-- The row an entry's leaf receives. -/
def leafRow (client : PirClient) (params : PirParams) (entries : LeafHashes)
    (batches : List (List Bytes)) (i : ℕ) (entry : LeafKey × Hash256) : Option Bytes :=
  receivedRow client params (batches.getD (leafPass entries i entry) []) entry.1.1

variable {entries : LeafHashes} {i : ℕ} {entry : LeafKey × Hash256}

theorem getElem?_groupsOf (hi : entries[i]? = some entry) :
    (groupsOf entries)[i]? = some entry.1.1 := by
  rw [groupsOf, List.getElem?_map, hi]
  rfl

theorem leafPass_lt (hi : entries[i]? = some entry) :
    leafPass entries i entry < maxItemsPerGroup entries :=
  lt_of_lt_of_le (passOf_lt_of_max (getElem?_groupsOf hi) 0) (le_max_left ..)

/-- **One leaf over all passes** takes one step, with its own row. -/
theorem walkSiblings_getElem? (hi : entries[i]? = some entry) {batches : List (List Bytes)}
    {s s' : σ} (h : walkSiblings H env tree info entries s = .ok (st, batches, s')) :
    ∃ client, siblingClient env tree info = .ok client ∧
      st[i]? = some (absorbSibling H info.arity
        (leafRow client (env.pir.paramsInfo (info.kind tree).numPt) entries batches i entry)
        (startLeaf entry)) := by
  obtain ⟨client, hclient, h⟩ := bind_eq_ok.1 h
  obtain ⟨hlen, hst⟩ := siblingPasses_eq_ok h
  have hp : leafPass entries i entry < batches.length := hlen ▸ leafPass_lt hi
  have hstep := getElem?_foldl_passes (absorbSibling H info.arity)
    (receivedRow client (env.pir.paramsInfo (info.kind tree).numPt)) (getElem?_groupsOf hi) hp
    (entries.map startLeaf)
  refine ⟨client, hclient, ?_⟩
  rw [hst, leafRow, List.getD_eq_getElem _ _ hp]
  rw [List.getElem?_map, hi] at hstep
  exact hstep

theorem walkSiblings_bound {s : σ} {r : List LeafState × List (List Bytes) × σ}
    (h : walkSiblings H env tree info entries s = .ok r) : (info.kind tree).k < 2 ^ 8 := by
  obtain ⟨client, -, h⟩ := bind_eq_ok.1 h
  obtain ⟨n, hn⟩ : ∃ n, maxItemsPerGroup entries = n + 1 :=
    ⟨maxItemsPerGroup entries - 1, (Nat.sub_add_cancel (le_max_right ..)).symm⟩
  rw [hn] at h
  exact siblingPasses_bound h

/-! ## Verdicts as climbs -/

/-- The sibling sources of a leaf's whole climb: its row, then the cached levels. -/
def leafSources (arity : ℕ) (row : Bytes) (top : OnionTreeTopCache) : List (ℕ → Hash256) :=
  rowSource arity (rowHash row) :: top.levels.dropLast.map cacheSource

theorem length_leafSources (arity : ℕ) (row : Bytes) {top : OnionTreeTopCache}
    (h : top.levels ≠ []) : (leafSources arity row top).length = top.levels.length := by
  have := List.length_pos_of_ne_nil h
  rw [leafSources, List.length_cons, List.length_map, List.length_dropLast]
  omega

theorem absorbSibling_some (arity : ℕ) (row : Bytes) (entry : LeafKey × Hash256) :
    absorbSibling H arity (some row) (startLeaf entry) = {
      currentHash := H (Digest.concat (HashTree.group arity (rowSource arity (rowHash row)) entry.2
        entry.1.2.toNat))
      nodeIdx := entry.1.2.toNat / arity
      failed := false } := by
  rw [← group_rowSource]
  rfl

/-- A leaf that received a row is accepted exactly when its climb ends in the root its tree top
declares. -/
theorem leafVerdict_some {row : Bytes} {allTops : List OnionTreeTopCache}
    {top : OnionTreeTopCache} (htop : allTops[topIdx tree info entry.1.1]? = some top) :
    leafVerdict H tree info allTops entry (absorbSibling H info.arity (some row) (startLeaf entry)) =
      decide ((HashTree.climb H Digest.concat info.arity (leafSources info.arity row top) entry.2
        entry.1.2.toNat).1 = (rootOf top).getD zeroHash) := by
  rw [absorbSibling_some, leafVerdict]
  simp only [Bool.false_eq_true, if_false, htop, walkCachedLevels_eq_climb, leafSources,
    HashTree.climb]

/-- **An accepted leaf** has a row, a tree top, and a climb to the root declared there. -/
theorem leafVerdict_eq_true {rowOpt : Option Bytes} {allTops : List OnionTreeTopCache}
    (h : leafVerdict H tree info allTops entry (absorbSibling H info.arity rowOpt (startLeaf entry)) =
      true) :
    ∃ row top, rowOpt = some row ∧ allTops[topIdx tree info entry.1.1]? = some top ∧
      (HashTree.climb H Digest.concat info.arity (leafSources info.arity row top) entry.2
        entry.1.2.toNat).1 = (rootOf top).getD zeroHash := by
  rcases rowOpt with _ | row
  · simp [absorbSibling, startLeaf, leafVerdict] at h
  · cases htop : allTops[topIdx tree info entry.1.1]? with
    | none => simp [leafVerdict, absorbSibling_some, htop] at h
    | some top =>
      rw [leafVerdict_some htop] at h
      exact ⟨row, top, rfl, rfl, of_decide_eq_true h⟩

end BitcoinPir.Onion
