import BitcoinPir.Onion.Files

/-!
# Completeness of the OnionPIR Merkle verification

What the builder writes is accepted by the client, for tables of any size and any leaf hashes
(`onionMerkle_complete`): the tree-top blob parses and passes the anchor check, every row asked
for is one of the sibling database, and with the stored rows every committed leaf is accepted,
in any number per group and with repeats.

The server is only bound for rows below `numPt` (`ServesFiles.sibling`), so a run that asked for
a row past the end would not be known to succeed. The passes are followed by what holds before
each of them (`WaitingFrom`): a leaf is in its first state until its own pass, so the row asked
for in that pass is the one above its bin.
-/

namespace BitcoinPir.Onion

open Foundations HashTree Digest

/-! ## Statements -/

/-- The metadata carries the true parameters of the files. -/
structure TrueInfo (H : Bytes → Hash256) (arity : ℕ) (files : OnionFiles)
    (info : OnionMerkleInfo) : Prop where
  arity_eq : info.arity = arity
  superRoot_eq : info.superRoot = files.superRoot
  treeTopsHash_eq : info.treeTopsHash = H files.treeTops
  treeTopsSize_eq : info.treeTopsSize = files.treeTops.length
  kind_eq : ∀ tree, info.kind tree = ⟨(files.siblings tree).k, (files.siblings tree).numPt⟩

/-- The environment serves the files: the tree-top request is answered with the blob, and a
sibling batch that asks group `g` for row `rows g` with results that decrypt to the rows stored
there. The client links the library the builder was linked with. -/
structure ServesFiles {σ : Type} (env : Environment σ) (tree : OnionTreeKind)
    (paramsInfo : ℕ → ShapeInfo) (files : OnionFiles) (client : PirClient) : Prop where
  client_eq : env.pir.fromSecretKey (files.siblings tree).numPt env.clientId env.secretKey =
    some client
  entrySize_eq : ∀ n, (env.pir.paramsInfo n).entrySize = (paramsInfo n).entrySize
  treeTop : ∀ s, ∃ s', env.roundtrip (encodeTreeTopRequest tree.reqTreeTop env.dbId) s =
    .ok (tree.respTreeTop :: files.treeTops, s')
  sibling : ∀ rows : ℕ → ℕ, (∀ g < (files.siblings tree).k, rows g < (files.siblings tree).numPt) →
    ∀ s, ∃ results s',
      env.roundtrip (encodeSiblingBatchQuery tree.reqSibling 0
        ((List.range (files.siblings tree).k).map fun g => client.generateQuery (rows g))
        env.dbId) s = .ok (tree.respSibling :: encodeSiblingBatchResult 0 results, s') ∧
      results.length = (files.siblings tree).k ∧ (∀ r ∈ results, r.length < 2 ^ 32) ∧
      ∀ g < (files.siblings tree).k,
        receivedRow client (env.pir.paramsInfo (files.siblings tree).numPt) results g =
          ((files.siblings tree).dbs[g]?).bind fun db => db[rows g]?

/-- The leaf's hash is the committed one of its group and bin. -/
structure Committed (file : BinHashes) (leaf : OnionMerkleLeaf) : Prop where
  group_lt : leaf.pbcGroup < file.k
  bin_lt : leaf.bin.toNat < file.binsPerTable
  hash_eq : file.hashes[leaf.pbcGroup * file.binsPerTable + leaf.bin.toNat]? = some leaf.hash

def hashesOf (index data : BinHashes) : OnionTreeKind → BinHashes
  | .index => index
  | .data => data

/-! ## Entries of leaves -/

theorem mem_uniqueLeaves {leaves : List OnionMerkleLeaf} {entry : LeafKey × Hash256}
    (h : entry ∈ uniqueLeaves leaves) : ∃ leaf ∈ leaves, entry = (leaf.key, leaf.hash) := by
  suffices hacc : ∀ acc : LeafHashes,
      entry ∈ leaves.foldl (fun unique leaf => if (unique.lookup leaf.key).isSome then unique
        else unique ++ [(leaf.key, leaf.hash)]) acc →
      entry ∈ acc ∨ ∃ leaf ∈ leaves, entry = (leaf.key, leaf.hash) by
    exact (hacc [] h).resolve_left List.not_mem_nil
  clear h
  induction leaves with
  | nil => exact fun acc h => .inl h
  | cons leaf leaves ih =>
    intro acc h
    rw [List.foldl_cons] at h
    rcases ih _ h with h | ⟨l, hl, he⟩
    · split_ifs at h with hseen
      · exact .inl h
      · rcases List.mem_append.1 h with h | h
        · exact .inl h
        · exact .inr ⟨leaf, List.mem_cons_self, List.mem_singleton.1 h⟩
    · exact .inr ⟨l, List.mem_cons_of_mem _ hl, he⟩

/-- Every leaf's key has an entry. -/
theorem key_mem_uniqueLeaves {leaves : List OnionMerkleLeaf} {leaf : OnionMerkleLeaf}
    (h : leaf ∈ leaves) : leaf.key ∈ (uniqueLeaves leaves).map Prod.fst := by
  -- what the accumulator has stays, and the leaf's own step leaves it with the leaf's key
  suffices hacc : ∀ acc : LeafHashes,
      (leaf.key ∈ acc.map Prod.fst ∨ leaf ∈ leaves) →
      leaf.key ∈ (leaves.foldl (fun unique leaf => if (unique.lookup leaf.key).isSome then unique
        else unique ++ [(leaf.key, leaf.hash)]) acc).map Prod.fst from hacc [] (.inr h)
  clear h
  induction leaves with
  | nil => exact fun acc h => h.resolve_right List.not_mem_nil
  | cons l leaves ih =>
    intro acc h
    rw [List.foldl_cons]
    apply ih
    rcases h with h | h
    · left
      split_ifs
      · exact h
      · rw [List.map_append]
        exact List.mem_append_left _ h
    · rcases List.mem_cons.1 h with rfl | h
      · left
        split_ifs with hseen
        · obtain ⟨hash, hlookup⟩ := Option.isSome_iff_exists.1 hseen
          exact List.mem_map.2 ⟨_, mem_of_lookup_eq_some hlookup, rfl⟩
        · simp
      · exact .inr h

/-! ## The passes -/

section Passes

variable {σ : Type} {H : Bytes → Hash256} {env : Environment σ} {tree : OnionTreeKind}
  {client : PirClient} {params : PirParams} {arity k numPt : ℕ}
  {entries : LeafHashes}

/-- Before pass `pass`: every leaf is below a stored row, and the leaves of this and later passes
are in their first state. -/
structure WaitingFrom (entries : LeafHashes) (arity numPt pass : ℕ)
    (st : List LeafState) : Prop where
  row_lt : ∀ l ∈ st, l.nodeIdx / arity < numPt
  start : ∀ i entry, entries[i]? = some entry → pass ≤ leafPass entries i entry →
    st[i]? = some (startLeaf entry)

/-- The row a pass asks a group for. -/
def askedRow (env : Environment σ) (entries : LeafHashes) (arity numPt pass : ℕ)
    (st : List LeafState) (g : ℕ) : ℕ :=
  match (passGroupToItem (itemsByGroup (groupsOf entries)) pass).lookup g with
  | some i => ((st[i]?).map LeafState.nodeIdx).getD 0 / arity
  | none => env.randomRow pass g % numPt

theorem passQueries_eq (pass : ℕ) (st : List LeafState) :
    passQueries env client arity k numPt
        (passGroupToItem (itemsByGroup (groupsOf entries)) pass) pass st =
      (List.range k).map fun g =>
        client.generateQuery (askedRow env entries arity numPt pass st g) := rfl

variable {st : List LeafState}

/-- **Every row asked for is stored.** -/
theorem askedRow_lt (hnum : 0 < numPt) {pass : ℕ} (hst : WaitingFrom entries arity numPt pass st)
    (g : ℕ) :
    askedRow env entries arity numPt pass st g < numPt := by
  rw [askedRow]
  split
  · rename_i i _
    cases hget : st[i]? with
    | none => simpa using hnum
    | some l => exact hst.row_lt l (List.mem_of_getElem? hget)
  · exact Nat.mod_lt _ hnum

/-- In its own pass a leaf asks for the row above its bin. -/
theorem askedRow_leafPass {i : ℕ} {entry : LeafKey × Hash256} (hi : entries[i]? = some entry)
    (hst : WaitingFrom entries arity numPt (leafPass entries i entry) st) :
    askedRow env entries arity numPt (leafPass entries i entry) st entry.1.1 =
      entry.1.2.toNat / arity := by
  have hgroup := getElem?_groupsOf hi
  have hlookup : (passGroupToItem (itemsByGroup (groupsOf entries))
      (leafPass entries i entry)).lookup entry.1.1 = some i := by
    rw [lookup_passGroupToItem, if_pos (List.mem_dedup.2 (List.mem_of_getElem? hgroup))]
    exact getElem?_passOf hgroup
  rw [askedRow, hlookup]
  simp only [hst.start i entry hi le_rfl, Option.map_some, Option.getD_some]
  rfl

/-- A pass whose groups have all received a row does not stop. -/
theorem foldPass_of_rows {batch : List Bytes} {items : List (ℕ × ℕ)}
    (h : ∀ e ∈ items, (receivedRow client params batch e.1).isSome) (st : List LeafState) :
    ∃ st', foldPass H client params tree arity batch items st = .ok st' := by
  induction items generalizing st with
  | nil => exact ⟨st, rfl⟩
  | cons e items ih =>
    obtain ⟨g, i⟩ := e
    rw [foldPass]
    split
    · exact ih (fun e he => h e (List.mem_cons_of_mem _ he)) st
    · obtain ⟨row, hrow⟩ := Option.isSome_iff_exists.1 (h (g, i) List.mem_cons_self)
      obtain ⟨response, hget, hunpack⟩ := Option.bind_eq_some_iff.1 hrow
      have hok : siblingRowOf client params tree batch g = .ok (some row) := by
        simp only [siblingRowOf, hget, hunpack]
      rw [hok]
      exact ih (fun e he => h e (List.mem_cons_of_mem _ he)) _

theorem row_lt_absorbSibling {rowOpt : Option Bytes} {l : LeafState}
    (h : l.nodeIdx / arity < numPt) : (absorbSibling H arity rowOpt l).nodeIdx / arity < numPt := by
  unfold absorbSibling
  split
  · exact h
  · cases rowOpt with
    | none => exact h
    | some row => exact lt_of_le_of_lt (Nat.div_le_self _ _) h

theorem row_lt_foldl {f : ℕ → Option Bytes} {items : List (ℕ × ℕ)}
    (h : ∀ l ∈ st, l.nodeIdx / arity < numPt) :
    ∀ l ∈ items.foldl (fun st (g, i) => st.modify i (absorbSibling H arity (f g))) st,
      l.nodeIdx / arity < numPt := by
  induction items generalizing st with
  | nil => exact h
  | cons e items ih =>
    apply ih
    intro l hl
    obtain ⟨j, hj⟩ := List.getElem?_of_mem hl
    rw [List.getElem?_modify] at hj
    obtain ⟨l', hl', rfl⟩ := Option.map_eq_some_iff.1 hj
    have hlt := h l' (List.mem_of_getElem? hl')
    split_ifs
    · exact row_lt_absorbSibling hlt
    · exact hlt

/-- **One pass** keeps the leaves of later passes waiting. -/
theorem WaitingFrom.foldPass {pass : ℕ} {st' : List LeafState} {batch : List Bytes}
    (hst : WaitingFrom entries arity numPt pass st)
    (h : foldPass H client params tree arity batch
      (passGroupToItem (itemsByGroup (groupsOf entries)) pass) st = .ok st') :
    WaitingFrom entries arity numPt (pass + 1) st' := by
  rw [foldPass_eq_ok h]
  refine ⟨row_lt_foldl hst.row_lt, ?_⟩
  intro i entry hi hpass
  have hfilter := filter_passGroupToItem (getElem?_groupsOf hi) pass
  have hne : pass ≠ passOf (groupsOf entries) i entry.1.1 := by
    rw [leafPass] at hpass
    omega
  rw [if_neg hne] at hfilter
  have hmap := getElem?_foldl_modify
    ((passGroupToItem (itemsByGroup (groupsOf entries)) pass).map fun e : ℕ × ℕ =>
      (e.2, absorbSibling H arity (receivedRow client params batch e.1))) st i
  rw [List.foldl_map, List.filter_map] at hmap
  rw [hmap, hst.start i entry hi (by omega), Function.comp_def, hfilter]
  rfl

/-- The server's answers to the rows below `numPt`, group by group. -/
def AnswersRows (env : Environment σ) (tree : OnionTreeKind) (client : PirClient)
    (params : PirParams) (k numPt : ℕ) (stored : ℕ → ℕ → Bytes) : Prop :=
  ∀ rows : ℕ → ℕ, (∀ g < k, rows g < numPt) → ∀ s, ∃ results s',
    env.roundtrip (encodeSiblingBatchQuery tree.reqSibling 0
      ((List.range k).map fun g => client.generateQuery (rows g)) env.dbId) s =
        .ok (tree.respSibling :: encodeSiblingBatchResult 0 results, s') ∧
    results.length = k ∧ (∀ r ∈ results, r.length < 2 ^ 32) ∧
    ∀ g < k, receivedRow client params results g = some (stored g (rows g))

/-- **All passes succeed**, and every leaf receives the stored row above its bin. -/
theorem siblingPasses_answered {stored : ℕ → ℕ → Bytes}
    (hserver : AnswersRows env tree client params k numPt stored) (hk : k < 2 ^ 8)
    (hnum : 0 < numPt) (hgroups : ∀ e ∈ entries, e.1.1 < k) (n pass : ℕ)
    (hst : WaitingFrom entries arity numPt pass st) (s : σ) :
    ∃ st' batches s', siblingPasses H env client params tree arity k numPt
        (itemsByGroup (groupsOf entries)) n pass st s = .ok (st', batches, s') ∧
      ∀ i entry, entries[i]? = some entry → pass ≤ leafPass entries i entry →
        leafPass entries i entry < pass + n →
        receivedRow client params (batches.getD (leafPass entries i entry - pass) []) entry.1.1 =
          some (stored entry.1.1 (entry.1.2.toNat / arity)) := by
  induction n generalizing pass st s with
  | zero => exact ⟨st, [], s, rfl, fun i entry _ _ h => by omega⟩
  | succ n ih =>
    obtain ⟨results, s₁, hresp, hlen, hsizes, hrows⟩ :=
      hserver (askedRow env entries arity numPt pass st) (fun g _ => askedRow_lt hnum hst g) s
    have hdecode : ∀ context, decodeSiblingBatchResult (encodeSiblingBatchResult 0 results) 0 k
        context = .ok results := by
      rw [← hlen] at hk ⊢
      exact decodeSiblingBatchResult_encode hk hsizes
    have hvariant : tree.respSibling ≠ respError := by cases tree <;> decide
    have hitems : ∀ e ∈ passGroupToItem (itemsByGroup (groupsOf entries)) pass,
        (receivedRow client params results e.1).isSome := by
      intro e he
      obtain ⟨⟨g, items⟩, hmem, he⟩ := List.mem_filterMap.1 he
      obtain ⟨i, -, rfl⟩ := Option.map_eq_some_iff.1 he
      obtain ⟨g', hg', hpair⟩ := List.mem_map.1 hmem
      cases hpair
      obtain ⟨entry, hentry, rfl⟩ := List.mem_map.1 (List.mem_dedup.1 hg')
      rw [hrows _ (hgroups entry hentry)]
      rfl
    obtain ⟨st₁, hfold⟩ : ∃ st₁, foldPass H client params tree arity results
        (passGroupToItem (itemsByGroup (groupsOf entries)) pass) st = .ok st₁ :=
      foldPass_of_rows hitems st
    obtain ⟨st₂, batches, s₂, hrest, hlater⟩ := ih (pass + 1) (hst.foldPass hfold) s₁
    refine ⟨st₂, results :: batches, s₂, ?_, ?_⟩
    · rw [siblingPasses]
      simp only [passQueries_eq, hresp, ok_bind, responsePayload_cons hvariant, hdecode, hfold,
        hrest]
      rfl
    · intro i entry hi hle hlt
      rcases Nat.eq_or_lt_of_le hle with heq | hlt'
      · subst heq
        rw [Nat.sub_self, List.getD_cons_zero,
          hrows _ (hgroups entry (List.mem_of_getElem? hi)), askedRow_leafPass hi hst]
      · have hsub : leafPass entries i entry - pass = leafPass entries i entry - (pass + 1) + 1 := by
          omega
        rw [hsub]
        exact hlater i entry hi hlt' (by omega)

end Passes

/-! ## One leaf -/

section Leaf

variable {H : Bytes → Hash256} {arity : ℕ}

theorem rowSource_siblings (xs : List Hash256) (r : ℕ) {c : ℕ} (hc : c < arity) :
    rowSource arity (rowHash (concat (siblings zeroHash arity xs r)))
      (r * arity + c) = xs.getD (r * arity + c) zeroHash := by
  have hmod : (r * arity + c) % arity = c := by
    rw [Nat.mul_comm, Nat.mul_add_mod, Nat.mod_eq_of_lt hc]
  have hpiece := piece_concat_append (siblings zeroHash arity xs r) []
    (c := c) (by simpa using hc)
  have hlen : c * 32 + 32 ≤
      (concat (siblings zeroHash arity xs r)).length := by
    rw [length_concat, length_siblings]
    omega
  rw [List.append_nil] at hpiece
  rw [rowSource, hmod, rowHash, if_pos hlen, hpiece]
  simp [siblings]

/-- **A leaf of the tree climbs to its root** along the stored row and the tree top. -/
theorem climb_leafSources (harity : 2 ≤ arity) {xs : List Hash256} (hxs : 1 < xs.length)
    {tree : PerGroupTree} (h : treeOfLeaves H arity xs = some tree) {i : ℕ} (hi : i < xs.length) :
    (climb H concat arity
      (leafSources arity (concat (siblings zeroHash arity xs (i / arity)))
        (topOf arity tree)) (xs.getD i zeroHash) i).1 = tree.root := by
  obtain ⟨-, hcount, hlevel⟩ := levels_of_treeOfLeaves harity h
  obtain ⟨hne, -, hroot⟩ := (treeOfLeaves_eq_some harity).1 h
  have hdepth := one_le_depth (H := H) harity hxs
  have htop : (topOf arity tree).levels.length =
      depth H concat zeroHash arity xs := by
    rw [topOf, List.length_drop, cacheFromLevel]
    omega
  set row := concat (siblings zeroHash arity xs (i / arity)) with hrow
  have hlen : (leafSources arity row (topOf arity tree)).length =
      depth H concat zeroHash arity xs := by
    rw [length_leafSources _ _ (List.ne_nil_of_length_pos (by omega)), htop]
  obtain ⟨hlt, hclimb⟩ := climb_honest H concat zeroHash (k := arity) (by omega)
    (leafSources arity row (topOf arity tree)) xs hi (by
      intro t ht c hc
      cases t with
      | zero =>
        -- the stored row is the lowest level
        rw [pow_zero, Nat.div_one]
        exact rowSource_siblings xs (i / arity) hc
      | succ t =>
        have hget : (topOf arity tree).levels.dropLast[t]? =
            some ((parents H concat zeroHash arity)^[t + 1] xs) := by
          rw [List.getElem?_dropLast, if_pos (by omega), topOf, List.getElem?_drop, cacheFromLevel,
            Nat.add_comm, hlevel _ (by omega)]
        have hsource : (leafSources arity row (topOf arity tree))[t + 1]? = some
            (cacheSource ((parents H concat zeroHash arity)^[t + 1] xs)) := by
          rw [leafSources, List.getElem?_cons_succ, List.getElem?_map, hget, Option.map_some]
        rw [(List.getElem?_eq_some_iff.1 hsource).2, cacheSource])
  rw [hlen, length_top H concat zeroHash harity hne] at hlt
  rw [root_eq H concat zeroHash harity hne, Option.some_inj] at hroot
  rw [hclimb, hlen, Nat.lt_one_iff.1 hlt, hroot]

end Leaf

/-! ## The files -/

section Files

variable {H : Bytes → Hash256} {paramsInfo : ℕ → ShapeInfo} {arity : ℕ} {index data : BinHashes}
  {files : OnionFiles} {info : OnionMerkleInfo}

/-- The trees behind the files. -/
structure BuiltFrom (H : Bytes → Hash256) (paramsInfo : ℕ → ShapeInfo) (arity : ℕ)
    (index data : BinHashes) (files : OnionFiles) (trees : OnionTreeKind → List PerGroupTree) :
    Prop where
  kind : ∀ tree, KindBuilt H paramsInfo arity (hashesOf index data tree) (trees tree)
    (files.siblings tree)
  treeTops_eq : files.treeTops = writeTreeTops (trees .index) (trees .data) arity
  superRoot_eq : files.superRoot = superRootOf H (trees .index) (trees .data)

theorem buildMerkleOnion_eq_some (harity : 2 ≤ arity)
    (h : buildMerkleOnion H paramsInfo index data arity = some files) :
    ∃ trees, BuiltFrom H paramsInfo arity index data files trees := by
  obtain ⟨⟨indexTrees, indexSiblings⟩, hindex, h⟩ := Option.bind_eq_some_iff.1 h
  obtain ⟨⟨dataTrees, dataSiblings⟩, hdata, h⟩ := Option.bind_eq_some_iff.1 h
  cases h
  refine ⟨fun | .index => indexTrees | .data => dataTrees, ?_, rfl, rfl⟩
  rintro (_ | _)
  · exact buildTreeKind_eq_some harity hindex
  · exact buildTreeKind_eq_some harity hdata

namespace BuiltFrom

variable {trees : OnionTreeKind → List PerGroupTree}
  (hb : BuiltFrom H paramsInfo arity index data files trees)

theorem exists_kind_of_mem {tree : PerGroupTree} (h : tree ∈ trees .index ++ trees .data) :
    ∃ kind, tree ∈ trees kind := by
  rcases List.mem_append.1 h with h | h
  · exact ⟨.index, h⟩
  · exact ⟨.data, h⟩

include hb

theorem parse_treeTops (harity : 2 ≤ arity) (harity_lt : arity < 2 ^ 16) :
    parseOnionTreeTopCache files.treeTops =
      .ok ((trees .index ++ trees .data).map (topOf arity)) := by
  have hindex := (hb.kind .index).length_trees
  have hdata := (hb.kind .data).length_trees
  have hindex_lt := (hashesOf index data .index).k_lt
  have hdata_lt := (hashesOf index data .data).k_lt
  rw [hb.treeTops_eq]
  apply parseOnionTreeTopCache_write
  · rw [List.length_map, List.length_append]
    omega
  · intro top htop
    obtain ⟨tree, htree, rfl⟩ := List.mem_map.1 htop
    obtain ⟨kind, hmem⟩ := exists_kind_of_mem htree
    exact (hb.kind kind).fits harity harity_lt hmem
  · intro top htop
    obtain ⟨tree, -, rfl⟩ := List.mem_map.1 htop
    change arity ≠ 0
    omega

variable (hinfo : TrueInfo H arity files info)

include hinfo

theorem kind_eq (tree : OnionTreeKind) :
    info.kind tree = ⟨(trees tree).length, (files.siblings tree).numPt⟩ := by
  rw [hinfo.kind_eq, (hb.kind tree).k_eq, (hb.kind tree).length_trees]

theorem checkTreeTopAnchor_treeTops (harity : 2 ≤ arity) :
    checkTreeTopAnchor H info files.treeTops ((trees .index ++ trees .data).map (topOf arity)) =
      true := by
  have hindex : info.index.k = (trees .index).length :=
    congrArg OnionMerkleKindInfo.k (hb.kind_eq hinfo .index)
  have hdata : info.data.k = (trees .data).length :=
    congrArg OnionMerkleKindInfo.k (hb.kind_eq hinfo .data)
  refine (checkTreeTopAnchor_iff _).2 ⟨?_, hinfo.treeTopsSize_eq.symm, hinfo.treeTopsHash_eq.symm,
    ?_, (trees .index ++ trees .data).map PerGroupTree.root, ?_, ?_⟩
  · rw [List.length_map, List.length_append, hindex, hdata]
  · intro top htop
    obtain ⟨tree, -, rfl⟩ := List.mem_map.1 htop
    exact hinfo.arity_eq.symm
  · rw [List.mapM_map]
    apply mapM_eq_some_map
    intro tree htree
    obtain ⟨kind, hmem⟩ := exists_kind_of_mem htree
    exact (hb.kind kind).rootOf_topOf harity hmem
  · rw [hinfo.superRoot_eq, hb.superRoot_eq]
    rfl

theorem getElem?_topIdx {kind : OnionTreeKind} {g : ℕ} {tree : PerGroupTree}
    (h : (trees kind)[g]? = some tree) :
    ((trees .index ++ trees .data).map (topOf arity))[topIdx kind info g]? =
      some (topOf arity tree) := by
  have hindex : info.index.k = (trees .index).length :=
    congrArg OnionMerkleKindInfo.k (hb.kind_eq hinfo .index)
  have hget : (trees .index ++ trees .data)[topIdx kind info g]? = some tree := by
    cases kind with
    | index =>
      change (trees .index ++ trees .data)[g]? = some tree
      rw [List.getElem?_append_left (List.getElem?_eq_some_iff.1 h).1, h]
    | data =>
      change (trees .index ++ trees .data)[info.index.k + g]? = some tree
      rw [hindex, List.getElem?_append_right (Nat.le_add_right ..), Nat.add_sub_cancel_left, h]
  rw [List.getElem?_map, hget, Option.map_some]

/-- **A committed leaf is accepted** with the stored row above its bin. -/
theorem leafVerdict_committed (harity : 2 ≤ arity) {kind : OnionTreeKind} {leaf : OnionMerkleLeaf}
    (hleaf : Committed (hashesOf index data kind) leaf) :
    leafVerdict H kind info ((trees .index ++ trees .data).map (topOf arity)) (leaf.key, leaf.hash)
      (absorbSibling H info.arity (some (concat (siblings zeroHash arity
        ((hashesOf index data kind).group leaf.pbcGroup) (leaf.bin.toNat / arity))))
        (startLeaf (leaf.key, leaf.hash))) = true := by
  obtain ⟨tree, hget, hbuild⟩ := (hb.kind kind).treeOf _ hleaf.group_lt
  have hlen := (hashesOf index data kind).length_group hleaf.group_lt
  have hone := (hb.kind kind).one_lt_bins
  have hbin := hleaf.bin_lt
  have hhash : leaf.hash =
      ((hashesOf index data kind).group leaf.pbcGroup).getD leaf.bin.toNat zeroHash := by
    rw [List.getD_eq_getElem?_getD, BinHashes.getElem?_group _ _ hbin, hleaf.hash_eq,
      Option.getD_some]
  rw [leafVerdict_some (hb.getElem?_topIdx hinfo hget), hinfo.arity_eq]
  apply decide_eq_true
  have hroot := (hb.kind kind).rootOf_topOf harity (List.mem_of_getElem? hget)
  rw [hroot]
  rw [hhash]
  exact climb_leafSources harity (by omega) hbuild (by omega)

end BuiltFrom

/-- The walk of committed leaves: every leaf takes its step with the stored row above its bin. -/
theorem walkSiblings_served {σ : Type} {env : Environment σ} {kind : OnionTreeKind}
    {client : PirClient} {file : BinHashes} {trees : List PerGroupTree}
    (hk : KindBuilt H paramsInfo arity file trees (files.siblings kind)) (harity : 2 ≤ arity)
    (hinfo : TrueInfo H arity files info) (henv : ServesFiles env kind paramsInfo files client)
    {entries : LeafHashes}
    (hentries : ∀ e ∈ entries, e.1.1 < file.k ∧ e.1.2.toNat < file.binsPerTable) (s : σ) :
    ∃ st batches s', walkSiblings H env kind info entries s = .ok (st, batches, s') ∧
      ∀ (i : ℕ) entry, entries[i]? = some entry → st[i]? = some (absorbSibling H info.arity
        (some (concat (siblings zeroHash arity (file.group entry.1.1)
          (entry.1.2.toNat / arity)))) (startLeaf entry)) := by
  have hnum := hk.two_le_numPt
  have hinfoK : (info.kind kind).k = file.k := by rw [hinfo.kind_eq, hk.k_eq]
  have hinfoNum : (info.kind kind).numPt = (files.siblings kind).numPt := by rw [hinfo.kind_eq]
  have hclient : siblingClient env kind info = .ok client := by
    have hsize : (env.pir.paramsInfo (files.siblings kind).numPt).entrySize = info.arity * 32 := by
      rw [henv.entrySize_eq, hk.entrySize_eq, hinfo.arity_eq]
    simp only [siblingClient, hinfoNum, henv.client_eq, hsize, ne_eq, not_true_eq_false, if_false]
  have hserver : AnswersRows env kind client
      (env.pir.paramsInfo (files.siblings kind).numPt) file.k (files.siblings kind).numPt
      (fun g r => concat (siblings zeroHash arity (file.group g) r)) := by
    intro rows hrows s
    rw [← hk.k_eq] at hrows ⊢
    obtain ⟨results, s', hresp, hlen, hsizes, hreceived⟩ := henv.sibling rows hrows s
    refine ⟨results, s', hresp, hlen, hsizes, ?_⟩
    intro g hg
    rw [hreceived g hg, hk.getElem?_dbs harity (hk.k_eq ▸ hg) (hrows g hg)]
  have hstart : WaitingFrom entries arity (files.siblings kind).numPt 0
      (entries.map startLeaf) := by
    refine ⟨?_, ?_⟩
    · intro l hl
      obtain ⟨entry, hentry, rfl⟩ := List.mem_map.1 hl
      exact hk.row_lt_numPt harity (hentries entry hentry).2
    · intro i entry hi _
      rw [List.getElem?_map, hi, Option.map_some]
  obtain ⟨st, batches, s', hrun, hrows⟩ := siblingPasses_answered (H := H) hserver file.k_lt
    (by omega) (fun e he => (hentries e he).1) (maxItemsPerGroup entries) 0 hstart s
  have hwalk : walkSiblings H env kind info entries s = .ok (st, batches, s') := by
    rw [walkSiblings, hclient, ok_bind, hinfoK, hinfoNum, hinfo.arity_eq, hrun]
  refine ⟨st, batches, s', hwalk, ?_⟩
  intro i entry hi
  obtain ⟨client', hclient', hget⟩ := walkSiblings_getElem? hi hwalk
  rw [hclient] at hclient'
  cases hclient'
  have hrow := hrows i entry hi (Nat.zero_le _) (by rw [Nat.zero_add]; exact leafPass_lt hi)
  rw [Nat.sub_zero] at hrow
  rw [hget, leafRow, hinfoNum, hrow]

/-- **Completeness.** If the builder's assertions hold, the metadata is the true one and the
server answers with what was written, then the blob parses and passes the anchor check, every row
above a committed leaf is stored, and every committed leaf is accepted. -/
theorem onionMerkle_complete (harity : 2 ≤ arity) (harity_lt : arity < 2 ^ 16)
    (hfiles : buildMerkleOnion H paramsInfo index data arity = some files)
    (hinfo : TrueInfo H arity files info) :
    ∃ tops, parseOnionTreeTopCache files.treeTops = .ok tops ∧
      checkTreeTopAnchor H info files.treeTops tops = true ∧
      ∀ (kind : OnionTreeKind) (leaves : List OnionMerkleLeaf),
        (∀ leaf ∈ leaves, Committed (hashesOf index data kind) leaf) →
        (∀ leaf ∈ leaves, leaf.bin.toNat / info.arity < (info.kind kind).numPt) ∧
        ∀ (σ : Type) (env : Environment σ) (client : PirClient) (s : σ),
          ServesFiles env kind paramsInfo files client →
          ∃ verdicts s', verifySubTree H env kind info leaves s = .ok (verdicts, s') ∧
            (∀ leaf ∈ leaves, (leaf.key, true) ∈ verdicts) ∧ ∀ v ∈ verdicts, v.2 = true := by
  obtain ⟨trees, hb⟩ := buildMerkleOnion_eq_some harity hfiles
  have hparse := hb.parse_treeTops harity harity_lt
  have hanchor := hb.checkTreeTopAnchor_treeTops hinfo harity
  refine ⟨_, hparse, hanchor, ?_⟩
  intro kind leaves hleaves
  refine ⟨?_, ?_⟩
  · intro leaf hleaf
    rw [hinfo.arity_eq, hinfo.kind_eq]
    exact (hb.kind kind).row_lt_numPt harity (hleaves leaf hleaf).bin_lt
  intro σ env client s henv
  have hentries : ∀ e ∈ env.mapOrder (uniqueLeaves leaves), ∃ leaf ∈ leaves,
      e = (leaf.key, leaf.hash) :=
    fun e he => mem_uniqueLeaves ((env.mapOrder_perm _).mem_iff.1 he)
  obtain ⟨s₁, hresp⟩ := henv.treeTop s
  have hvariant : kind.respTreeTop ≠ respError := by cases kind <;> decide
  have hplaces : ∀ e ∈ env.mapOrder (uniqueLeaves leaves),
      e.1.1 < (hashesOf index data kind).k ∧
        e.1.2.toNat < (hashesOf index data kind).binsPerTable := by
    intro e he
    obtain ⟨leaf, hleaf, rfl⟩ := hentries e he
    exact ⟨(hleaves leaf hleaf).group_lt, (hleaves leaf hleaf).bin_lt⟩
  obtain ⟨st, batches, s₂, hwalk, hst⟩ :=
    walkSiblings_served (hb.kind kind) harity hinfo henv hplaces s₁
  have hverdicts : ∀ v ∈ (env.mapOrder (uniqueLeaves leaves)).zipWith (fun e l => (e.1,
      leafVerdict H kind info ((trees .index ++ trees .data).map (topOf arity)) e l)) st,
      v.2 = true := by
    intro v hv
    obtain ⟨i, hi⟩ := List.getElem?_of_mem hv
    obtain ⟨e, l, he, hl, rfl⟩ := List.getElem?_zipWith_eq_some.1 hi
    obtain ⟨leaf, hleaf, rfl⟩ := hentries e (List.mem_of_getElem? he)
    rw [hst i _ he, Option.some_inj] at hl
    rw [← hl]
    exact hb.leafVerdict_committed hinfo harity (hleaves leaf hleaf)
  refine ⟨_, s₂, ?_, ?_, hverdicts⟩
  · rw [verifySubTree, fetchTreeTops, hresp]
    simp only [ok_bind, responsePayload_cons hvariant, hparse, hanchor, if_true, hwalk, pure_bind]
    rfl
  · intro leaf hleaf
    have hkey : leaf.key ∈ (env.mapOrder (uniqueLeaves leaves)).map Prod.fst :=
      ((env.mapOrder_perm _).map _).mem_iff.2 (key_mem_uniqueLeaves hleaf)
    obtain ⟨e, he, hkey⟩ := List.mem_map.1 hkey
    obtain ⟨i, hi⟩ := List.getElem?_of_mem he
    have hget : ((env.mapOrder (uniqueLeaves leaves)).zipWith (fun e l => (e.1,
        leafVerdict H kind info ((trees .index ++ trees .data).map (topOf arity)) e l)) st)[i]? =
        some (e.1, _) := List.getElem?_zipWith_eq_some.2 ⟨e, _, hi, hst i e hi, rfl⟩
    have hmem := List.mem_of_getElem? hget
    have htrue := hverdicts _ hmem
    rw [← hkey, ← htrue]
    exact hmem

end Files

/-! ## Three bins -/

namespace ThreeBins

/-- Three leaf hashes in one group. -/
def hashes : BinHashes where
  k := 1
  binsPerTable := 3
  hashes := [sha256 [0], sha256 [1], sha256 [2]]
  length_hashes := rfl
  k_lt := by decide
  binsPerTable_lt := by decide

def paramsInfo (numPt : ℕ) : ShapeInfo := ⟨numPt, 64⟩

/-- What the builder writes for them, INDEX and DATA alike. -/
def files : OnionFiles :=
  (buildMerkleOnion sha256 paramsInfo hashes hashes 2).getD
    ⟨[], zeroHash, ⟨0, 0, 0, []⟩, ⟨0, 0, 0, []⟩⟩

theorem isSome_build : (buildMerkleOnion sha256 paramsInfo hashes hashes 2).isSome = true := by
  decide +kernel

theorem build_eq : buildMerkleOnion sha256 paramsInfo hashes hashes 2 = some files := by
  obtain ⟨files', h⟩ := Option.isSome_iff_exists.1 isSome_build
  rw [files, h, Option.getD_some]

def info : OnionMerkleInfo where
  arity := 2
  superRoot := files.superRoot
  treeTopsHash := sha256 files.treeTops
  treeTopsSize := files.treeTops.length
  index := ⟨files.indexSiblings.k, files.indexSiblings.numPt⟩
  data := ⟨files.dataSiblings.k, files.dataSiblings.numPt⟩

theorem trueInfo : TrueInfo sha256 2 files info :=
  ⟨rfl, rfl, rfl, rfl, by rintro (_ | _) <;> rfl⟩

/-- Queries in the clear. -/
def client : PirClient := ⟨fun r => [UInt8.ofNat r], id⟩

def storedRow (r : ℕ) : Bytes := concat (siblings zeroHash 2 (hashes.group 0) r)

/-- The batch that asks for row `r`. -/
def batchQuery (r : ℕ) : Bytes :=
  encodeSiblingBatchQuery OnionTreeKind.index.reqSibling 0 [client.generateQuery r] 0

/-- The answer to it. -/
def batchResult (r : ℕ) : List Bytes := [plaintextOf ((storedRow r).map UInt8.toNat)]

def answer (r : ℕ) : Bytes :=
  OnionTreeKind.index.respSibling :: encodeSiblingBatchResult 0 (batchResult r)

def respond (req : Bytes) : Bytes :=
  if req = batchQuery 0 then answer 0
  else if req = batchQuery 1 then answer 1
  else OnionTreeKind.index.respTreeTop :: files.treeTops

/-- A server without encryption, one byte per coefficient. -/
def env : Environment Unit where
  pir := ⟨fun _ => ⟨64, 64⟩, fun _ _ _ => some client⟩
  roundtrip req _ := .ok (respond req, ())
  clientId := 0
  secretKey := []
  dbId := 0
  randomRow _ _ := 5
  mapOrder := id
  mapOrder_perm := id_perm

theorem roundtrip_eq {req resp : Bytes} (h : respond req = resp) (s : Unit) :
    env.roundtrip req s = .ok (resp, ()) := by
  rw [← h]
  rfl

theorem length_storedRow (r : ℕ) : (storedRow r).length = 64 := by
  rw [storedRow, length_concat, length_siblings]

theorem receivedRow_batchResult (r : ℕ) :
    receivedRow client ⟨64, 64⟩ (batchResult r) 0 = some (storedRow r) := by
  have hunpack := unpackOnionPlaintext_bytes (storedRow r)
    (by rw [length_storedRow]; decide) (by rw [length_storedRow]; decide)
  rw [length_storedRow] at hunpack
  exact hunpack

theorem respond_batchQuery {r : ℕ} (hr : r < 2) : respond (batchQuery r) = answer r := by
  interval_cases r
  · rw [respond, if_pos rfl]
  · rw [respond, if_neg (by decide), if_pos rfl]

theorem respond_treeTop : respond (encodeTreeTopRequest OnionTreeKind.index.reqTreeTop 0) =
    OnionTreeKind.index.respTreeTop :: files.treeTops := by
  rw [respond, if_neg (by decide), if_neg (by decide)]

theorem servesFiles : ServesFiles env .index paramsInfo files client := by
  obtain ⟨trees, hb⟩ := buildMerkleOnion_eq_some (by decide) build_eq
  have hkind := hb.kind .index
  have hnum : (files.siblings .index).numPt = 2 := hkind.numPt_eq.trans (by decide)
  refine ⟨rfl, fun _ => rfl, ?_, ?_⟩
  · exact fun _ => ⟨(), roundtrip_eq respond_treeTop _⟩
  · intro rows hrows _
    refine ⟨batchResult (rows 0), (), roundtrip_eq (respond_batchQuery (hrows 0 (by decide))) _,
      rfl, ?_, ?_⟩
    · intro result hresult
      rw [List.mem_singleton.1 hresult, plaintextOf, List.length_append, length_leBytes,
        length_flatMap_const (w := 8) fun _ _ => length_leBytes .., List.length_map,
        length_storedRow]
      decide
    · intro g hg
      obtain rfl := Nat.lt_one_iff.1 hg
      have hstored := hkind.getElem?_dbs (by decide) (show 0 < hashes.k by decide)
        (by rw [hnum]; exact hrows 0 (by decide))
      rw [hstored]
      exact receivedRow_batchResult (rows 0)

/-- Two bins of the group, one of them twice. -/
def leaves : List OnionMerkleLeaf :=
  [⟨.index, 0, 0, sha256 [0], 0⟩, ⟨.index, 0, 2, sha256 [2], 0⟩, ⟨.index, 0, 0, sha256 [0], 1⟩]

theorem committed : ∀ leaf ∈ leaves, Committed hashes leaf := by
  intro leaf hleaf
  simp only [leaves, List.mem_cons, List.not_mem_nil, or_false] at hleaf
  rcases hleaf with rfl | rfl | rfl <;> exact ⟨by decide, by decide, rfl⟩

end ThreeBins

theorem onionMerkle_complete_three_bins : ∃ verdicts s',
    verifySubTree sha256 ThreeBins.env .index ThreeBins.info ThreeBins.leaves () =
      .ok (verdicts, s') ∧ ((0, 0), true) ∈ verdicts ∧ ((0, 2), true) ∈ verdicts := by
  obtain ⟨tops, -, -, h⟩ := onionMerkle_complete (by decide) (by decide) ThreeBins.build_eq
    ThreeBins.trueInfo
  obtain ⟨-, hrun⟩ := h .index ThreeBins.leaves ThreeBins.committed
  obtain ⟨verdicts, s', hverify, hmem, -⟩ := hrun Unit ThreeBins.env ThreeBins.client ()
    ThreeBins.servesFiles
  exact ⟨verdicts, s', hverify, hmem ⟨.index, 0, 0, sha256 [0], 0⟩ (by simp [ThreeBins.leaves]),
    hmem ⟨.index, 0, 2, sha256 [2], 0⟩ (by simp [ThreeBins.leaves])⟩

end BitcoinPir.Onion
