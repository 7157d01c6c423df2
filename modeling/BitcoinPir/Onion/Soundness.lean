import BitcoinPir.Onion.Builder
import BitcoinPir.Onion.Walk

/-!
# What an accepted OnionPIR leaf shows

`SoundAt` says that every leaf accepted at a given group and bin, with a given number of cached
levels declared for the group's tree, is the committed bin, unless the run exhibits a collision
or a preimage of the padding hash. `soundAt_of` proves it where the tree top declares the depth
of the committed tree, and where the walk would end at a place the committed tree only pads.

The bins are as long as the preimages of inner nodes and are hashed alike, so nothing else
separates leaves from nodes; `Onion.Confusion` shows that in all other cases the verification
accepts bytes that were never committed.
-/

namespace BitcoinPir.Onion

open Foundations HashTree Digest

/-! ## Committed tables -/

/-- The sizes of a database: bytes per bin and the shapes of both tables. A node has as many
children as hashes fit a bin; with fewer than two the builder would not come to a root. -/
structure Geometry where
  entrySize : ℕ
  index : TableShape
  data : TableShape
  two_le_arity : 2 ≤ entrySize / 32

namespace Geometry

variable (geo : Geometry)

def arity : ℕ := geo.entrySize / 32

theorem two_le : 2 ≤ geo.arity := geo.two_le_arity

def shape : OnionTreeKind → TableShape
  | .index => geo.index
  | .data => geo.data

/-- The depth of the committed trees of one kind. -/
def depth (tree : OnionTreeKind) : ℕ := height geo.arity (geo.shape tree).binsPerTable

/-- The counts the wire formats must carry for a verification of this kind to succeed: the
library's rows hold exactly `arity` hashes, and group count, tree count and arity fit one, four
and two bytes. -/
def Servable (tree : OnionTreeKind) : Prop :=
  geo.arity * 32 = geo.entrySize ∧ (geo.shape tree).k < 2 ^ 8 ∧
    geo.index.k + geo.data.k < 2 ^ 32 ∧ geo.arity < 2 ^ 16

end Geometry

/-- The bins of a database. -/
structure OnionTables (geo : Geometry) where
  index : BinTable geo.entrySize geo.index
  data : BinTable geo.entrySize geo.data

namespace OnionTables

variable {geo : Geometry} (H : Bytes → Hash256) (ts : OnionTables geo)

def table : (tree : OnionTreeKind) → BinTable geo.entrySize (geo.shape tree)
  | .index => ts.index
  | .data => ts.data

def group (tree : OnionTreeKind) (g : ℕ) : List Bytes := (ts.table tree).group g

/-- The trees of one table; every table has them (`exists_trees`). -/
def trees (tree : OnionTreeKind) : List PerGroupTree := ((ts.table tree).trees H geo.arity).getD []

/-- The roots of all groups, in the order of the tree tops. -/
def committedRoots : List Hash256 := (ts.trees H .index ++ ts.trees H .data).map PerGroupTree.root

/-- The super-root the builder writes. -/
def superRoot : Hash256 := superRootOf H (ts.trees H .index) (ts.trees H .data)

variable {H ts}

theorem trees_eq (tree : OnionTreeKind) :
    (ts.table tree).trees H geo.arity = some (ts.trees H tree) := by
  obtain ⟨trees, htrees⟩ :=
    (ts.table tree).exists_trees (H := H) geo.two_le
  rw [OnionTables.trees, htrees, Option.getD_some]

theorem length_trees (tree : OnionTreeKind) : (ts.trees H tree).length = (geo.shape tree).k :=
  BinTable.length_trees (trees_eq tree)

theorem length_committedRoots :
    (ts.committedRoots H).length = geo.index.k + geo.data.k := by
  rw [committedRoots, List.length_map, List.length_append, length_trees, length_trees]
  rfl

/-- The position of a group's root. -/
def rootIdx (geo : Geometry) (tree : OnionTreeKind) (g : ℕ) : ℕ :=
  match tree with
  | .index => g
  | .data => geo.index.k + g

/-- The committed root of a group is the root of the hash tree over its bins. -/
theorem getElem?_committedRoots {tree : OnionTreeKind} {g : ℕ} (hg : g < (geo.shape tree).k) :
    (ts.committedRoots H)[rootIdx geo tree g]? =
      root H concat zeroHash geo.arity ((ts.group tree g).map H) := by
  obtain ⟨t, hget, -, hroot⟩ := BinTable.getElem?_trees geo.two_le (trees_eq (H := H) tree) hg
  have hpos : (ts.trees H .index ++ ts.trees H .data)[rootIdx geo tree g]? = some t := by
    cases tree with
    | index =>
      rw [rootIdx, List.getElem?_append_left (List.getElem?_eq_some_iff.1 hget).1, hget]
    | data =>
      have hlen : (ts.trees H .index).length = geo.index.k := length_trees .index
      rw [rootIdx, List.getElem?_append_right (by omega), hlen, Nat.add_sub_cancel_left, hget]
  rw [committedRoots, List.getElem?_map, hpos]
  exact hroot.symm

theorem length_group {tree : OnionTreeKind} {g : ℕ} (hg : g < (geo.shape tree).k) :
    (ts.group tree g).length = (geo.shape tree).binsPerTable :=
  (ts.table tree).length_group hg

end OnionTables

/-! ## The statement -/

section Statement

variable {geo : Geometry} {σ : Type} (H : Bytes → Hash256) (ts : OnionTables geo)
  (env : Environment σ) (tree : OnionTreeKind) (info : OnionMerkleInfo)

/-- Metadata that names the committed database; size and hash of the blob are the server's. -/
structure HonestInfo : Prop where
  arity : info.arity = geo.arity
  index_k : info.index.k = geo.index.k
  data_k : info.data.k = geo.data.k
  superRoot : info.superRoot = ts.superRoot H

/-- The number of levels the received blob declares for the tree of a group. -/
def declaredLevels (g : ℕ) (s : σ) : Option ℕ :=
  match fetchTreeTops env tree (treeTopContext tree) s with
  | .error _ => none
  | .ok (_, tops, _) => (tops[topIdx tree info g]?).map fun top => top.levels.length

/-- What a run received for one of its leaves: all tree tops, the leaf's sibling row, and the
tree top of the leaf's group. -/
def LeafEvidence (leaves : List OnionMerkleLeaf) (s : σ) (key : LeafKey)
    (tops : List OnionTreeTopCache) (row : Bytes) (top : OnionTreeTopCache) : Prop :=
  ∃ blob s₁ st batches s₂ client i hash,
    fetchTreeTops env tree (treeTopContext tree) s = .ok (blob, tops, s₁) ∧
    walkSiblings H env tree info (env.mapOrder (uniqueLeaves leaves)) s₁ = .ok (st, batches, s₂) ∧
    siblingClient env tree info = .ok client ∧
    (env.mapOrder (uniqueLeaves leaves))[i]? = some (key, hash) ∧
    leafRow client (env.pir.paramsInfo (info.kind tree).numPt)
      (env.mapOrder (uniqueLeaves leaves)) batches i (key, hash) = some row ∧
    tops[topIdx tree info key.1]? = some top

/-- The byte strings hashed by the client to verify `bytes` at a bin. -/
def clientMessages (arity : ℕ) (tops : List OnionTreeTopCache) (row : Bytes)
    (top : OnionTreeTopCache) (bytes : Bytes) (bin : UInt32) : List Bytes :=
  openingMessages H concat arity (leafSources arity row top) bytes bin.toNat ++
    [concat (tops.filterMap rootOf)]

/-- The byte strings hashed by the builder for the tree of a group and the super-root. -/
def builderMessages (g : ℕ) : List Bytes :=
  treeMessages H concat zeroHash geo.arity (ts.group tree g) ++
    [concat (ts.committedRoots H)]

/-- **Soundness at a bin, under a hash function.** Whatever the server sends, if its blob declares
`d` levels for the tree of group `g` and the verification of leaves of this kind accepts the hash
of `bytes` at bin `bin` of group `g`, then `bytes` is the committed bin, or the run exhibits two
byte strings with one hash or a preimage of the padding hash. -/
def SoundUnder (H : Bytes → Hash256) (geo : Geometry) (tree : OnionTreeKind) (g d : ℕ)
    (bin : UInt32) : Prop :=
  ∀ (ts : OnionTables geo) (info : OnionMerkleInfo) (σ : Type)
    (env : Environment σ) (leaves : List OnionMerkleLeaf) (s s' : σ)
    (verdicts : List (LeafKey × Bool)) (bytes : Bytes),
    HonestInfo H ts info →
    (env.pir.paramsInfo (info.kind tree).numPt).entrySize = geo.entrySize →
    declaredLevels env tree info g s = some d →
    verifySubTree H env tree info leaves s = .ok (verdicts, s') →
    ((g, bin), true) ∈ verdicts →
    (uniqueLeaves leaves).lookup (g, bin) = some (H bytes) →
    bytes.length = geo.entrySize →
    (ts.group tree g)[bin.toNat]? = some bytes ∨
      ∃ tops row top, LeafEvidence H env tree info leaves s (g, bin) tops row top ∧
        (Collides H (clientMessages H geo.arity tops row top bytes bin ++
            builderMessages H ts tree g) ∨
          Hits H zeroHash (clientMessages H geo.arity tops row top bytes bin))

/-- **Soundness at a bin**, under every hash function. -/
def SoundAt (geo : Geometry) (tree : OnionTreeKind) (g d : ℕ) (bin : UInt32) : Prop :=
  ∀ H : Bytes → Hash256, SoundUnder H geo tree g d bin

end Statement

/-! ## Accepted leaves -/

section Accepted

variable {σ : Type} {H : Bytes → Hash256} {env : Environment σ} {tree : OnionTreeKind}
  {info : OnionMerkleInfo}

theorem nodup_uniqueLeaves (leaves : List OnionMerkleLeaf) :
    ((uniqueLeaves leaves).map Prod.fst).Nodup := by
  -- the accumulator never holds a key twice
  suffices h : ∀ acc : LeafHashes, (acc.map Prod.fst).Nodup →
      ((leaves.foldl (fun unique leaf => if (unique.lookup leaf.key).isSome then unique
        else unique ++ [(leaf.key, leaf.hash)]) acc).map Prod.fst).Nodup from h [] List.nodup_nil
  induction leaves with
  | nil => exact fun acc h => h
  | cons leaf leaves ih =>
    intro acc hacc
    rw [List.foldl_cons]
    apply ih
    split_ifs with hseen
    · exact hacc
    · have hnew : leaf.key ∉ acc.map Prod.fst := by
        intro hmem
        obtain ⟨⟨key, hash⟩, he, rfl⟩ := List.mem_map.1 hmem
        rw [lookup_eq_some_of_mem hacc he] at hseen
        exact hseen rfl
      rw [List.map_append]
      exact List.nodup_append_comm.1 (List.nodup_cons.2 ⟨hnew, hacc⟩)

/-- **An accepted leaf**: the blob passed the anchor check, and the leaf's hash climbs along the
received row and tree top to the root the tree top declares. -/
theorem verifySubTree_accepted {leaves : List OnionMerkleLeaf} {s s' : σ}
    {verdicts : List (LeafKey × Bool)} {key : LeafKey} {hash : Hash256}
    (hrun : verifySubTree H env tree info leaves s = .ok (verdicts, s'))
    (hmem : (key, true) ∈ verdicts) (hhash : (uniqueLeaves leaves).lookup key = some hash) :
    ∃ blob tops s₁ row top,
      fetchTreeTops env tree (treeTopContext tree) s = .ok (blob, tops, s₁) ∧
      checkTreeTopAnchor H info blob tops = true ∧
      (env.pir.paramsInfo (info.kind tree).numPt).entrySize = info.arity * 32 ∧
      LeafEvidence H env tree info leaves s key tops row top ∧
      (climb H concat info.arity (leafSources info.arity row top) hash
        key.2.toNat).1 = (rootOf top).getD zeroHash := by
  obtain ⟨⟨blob, tops, s₁⟩, hfetch, hrun⟩ := bind_eq_ok.1 hrun
  simp only at hrun
  split at hrun
  · rename_i hanchor
    obtain ⟨⟨st, batches, s₂⟩, hwalk, hrun⟩ := bind_eq_ok.1 hrun
    cases hrun
    obtain ⟨i, hget⟩ := List.mem_iff_getElem?.1 hmem
    rw [List.getElem?_zipWith] at hget
    cases hentry : (env.mapOrder (uniqueLeaves leaves))[i]? with
    | none => simp [hentry] at hget
    | some entry =>
      obtain ⟨client, hclient, hst⟩ := walkSiblings_getElem? hentry hwalk
      simp only [hentry, hst, Option.some_inj, Prod.mk.injEq] at hget
      obtain ⟨rfl, hverdict⟩ := hget
      have hunique : entry ∈ uniqueLeaves leaves :=
        (env.mapOrder_perm _).subset (List.mem_of_getElem? hentry)
      have hentry_hash : entry.2 = hash := by
        have := lookup_eq_some_of_mem (nodup_uniqueLeaves leaves) (a := entry.1) (b := entry.2) hunique
        exact Option.some_inj.1 (this.symm.trans hhash)
      obtain ⟨row, top, hrow, htop, hclimb⟩ := leafVerdict_eq_true hverdict
      rw [hentry_hash] at hclimb
      exact ⟨blob, tops, s₁, row, top, hfetch, hanchor, (siblingClient_eq_ok hclient).2,
        ⟨blob, s₁, st, batches, s₂, client, i, entry.2, hfetch, hwalk, hclient, hentry, hrow, htop⟩,
        hclimb⟩
  · cases hrun
    simp at hmem

end Accepted

/-! ## Openings of the committed trees -/

section Openings

variable {σ : Type} {geo : Geometry} {H : Bytes → Hash256} {ts : OnionTables geo}
  {info : OnionMerkleInfo} {env : Environment σ} {tree : OnionTreeKind}

theorem HonestInfo.topIdx_eq (h : HonestInfo H ts info) (g : ℕ) :
    topIdx tree info g = OnionTables.rootIdx geo tree g := by
  cases tree with
  | index => rfl
  | data => rw [topIdx, OnionTables.rootIdx, h.index_k]

theorem HonestInfo.kind_k (h : HonestInfo H ts info) : (info.kind tree).k = (geo.shape tree).k := by
  cases tree with
  | index => exact h.index_k
  | data => exact h.data_k

/-- A blob anchored at the committed super-root has the committed roots, or collides with the
builder. -/
theorem rootOf_eq_or_collides (hinfo : HonestInfo H ts info) {blob : Bytes}
    {tops : List OnionTreeTopCache} (hanchor : checkTreeTopAnchor H info blob tops = true) {g : ℕ}
    (hg : g < (geo.shape tree).k) {top : OnionTreeTopCache}
    (htop : tops[topIdx tree info g]? = some top) :
    ∃ root, rootOf top = some root ∧
      (Collides H [concat (tops.filterMap rootOf),
          concat (ts.committedRoots H)] ∨
        HashTree.root H concat zeroHash geo.arity ((ts.group tree g).map H) = some root) := by
  obtain ⟨hcount, -, -, -, roots, hroots, hsuper⟩ := (checkTreeTopAnchor_iff H).1 hanchor
  obtain ⟨root, hroot, hrootOf⟩ := getElem?_mapM hroots htop
  refine ⟨root, hrootOf, ?_⟩
  rw [filterMap_eq_of_mapM hroots]
  rw [hinfo.superRoot] at hsuper
  change H (concat roots) = H (concat (ts.committedRoots H)) at hsuper
  obtain heq | hcol := eq_or_collides (H := H)
    (S := [concat roots, concat (ts.committedRoots H)]) List.mem_cons_self (by simp)
    hsuper
  · right
    have hlen : roots.length = (ts.committedRoots H).length := by
      rw [length_mapM hroots, hcount, OnionTables.length_committedRoots, hinfo.index_k, hinfo.data_k]
    rw [← OnionTables.getElem?_committedRoots hg, ← concat_inj hlen heq,
      ← hinfo.topIdx_eq, hroot]
  · exact .inl hcol

variable {leaves : List OnionMerkleLeaf} {s s' : σ} {verdicts : List (LeafKey × Bool)} {g d : ℕ}
  {bin : UInt32} {bytes : Bytes}

/-- **An accepted leaf opens the committed tree**, with as many steps as levels were declared;
or the run collides with the builder. The counts of the run fit their wire fields. -/
theorem verifySubTree_opens (hg : g < (geo.shape tree).k) (hinfo : HonestInfo H ts info)
    (hsize : (env.pir.paramsInfo (info.kind tree).numPt).entrySize = geo.entrySize)
    (hd : declaredLevels env tree info g s = some d)
    (hrun : verifySubTree H env tree info leaves s = .ok (verdicts, s'))
    (hmem : ((g, bin), true) ∈ verdicts)
    (hhash : (uniqueLeaves leaves).lookup (g, bin) = some (H bytes)) :
    geo.Servable tree ∧ 0 < d ∧ d < 256 ∧
    ∃ tops row top, LeafEvidence H env tree info leaves s (g, bin) tops row top ∧
      (leafSources geo.arity row top).length = d ∧
      (Collides H (clientMessages H geo.arity tops row top bytes bin ++
          builderMessages H ts tree g) ∨
        root H concat zeroHash geo.arity ((ts.group tree g).map H) =
          some (climb H concat geo.arity (leafSources geo.arity row top) (H bytes)
            bin.toNat).1) := by
  obtain ⟨blob, tops, s₁, row, top, hfetch, hanchor, hentry, hev, hclimb⟩ :=
    verifySubTree_accepted hrun hmem hhash
  obtain ⟨_, _, _, _, s₂, _, _, _, hfetch', hwalk, -, -, -, htop⟩ := id hev
  obtain ⟨hcount, -, -, harity, -⟩ := (checkTreeTopAnchor_iff H).1 hanchor
  obtain ⟨hlen, hbounds⟩ := fetchTreeTops_bounds hfetch
  have htop_mem := List.mem_of_getElem? htop
  -- the declared number of levels is the tree top's
  rw [declaredLevels, hfetch] at hd
  simp only [htop, Option.map_some, Option.some_inj] at hd
  obtain ⟨root, hrootOf, hroot⟩ := rootOf_eq_or_collides hinfo hanchor hg htop
  have hne : top.levels ≠ [] := by
    intro hnil
    simp [rootOf, rootOfLevels, hnil] at hrootOf
  have hpos := List.length_pos_of_ne_nil hne
  rw [hrootOf, Option.getD_some, hinfo.arity] at hclimb
  refine ⟨⟨?_, ?_, ?_, ?_⟩, by omega, hd ▸ (hbounds top htop_mem).2, tops, row, top, hev,
    (length_leafSources _ _ hne).trans hd, ?_⟩
  · rw [← hsize, hentry, hinfo.arity]
  · rw [← hinfo.kind_k]
    exact walkSiblings_bound hwalk
  · rwa [← hinfo.index_k, ← hinfo.data_k, ← hcount]
  · rw [← hinfo.arity, ← harity top htop_mem]
    exact (hbounds top htop_mem).1
  · rcases hroot with hcol | hroot
    · left
      refine hcol.mono ?_
      intro x hx
      rcases List.mem_cons.1 hx with rfl | hx
      · simp [clientMessages]
      · rw [List.mem_singleton.1 hx]
        simp [builderMessages]
    · right
      rw [hroot, hclimb]

/-- **Soundness, where it holds.** Accepted bytes are the committed bin if the tree top declares
the depth of the committed tree and the bin is one of the table's; and nothing is accepted
without a collision or a preimage of the padding where the walk ends at padding. -/
theorem soundAt_of (hg : g < (geo.shape tree).k)
    (h : geo.Servable tree → 0 < d → d < 256 →
      (d = geo.depth tree ∧ bin.toNat < (geo.shape tree).binsPerTable) ∨
        width geo.arity (geo.shape tree).binsPerTable (geo.depth tree - d) ≤
          landing geo.arity (geo.depth tree) d bin.toNat) :
    SoundAt geo tree g d bin := by
  intro H ts info σ env leaves s s' verdicts bytes hinfo hsize hd hrun hmem hhash _
  obtain ⟨hserv, hpos, hlt, tops, row, top, hev, hlen, hopen⟩ :=
    verifySubTree_opens hg hinfo hsize hd hrun hmem hhash
  have hgroup : (ts.group tree g).length = (geo.shape tree).binsPerTable :=
    OnionTables.length_group hg
  have hne : ts.group tree g ≠ [] := by
    apply List.ne_nil_of_length_pos
    rw [hgroup]
    exact (geo.shape tree).binsPerTable_pos
  have hinj := concat_inj_of_length geo.arity
  -- what the opening hashes is among what client and builder hash
  have hclient : openingMessages H concat geo.arity (leafSources geo.arity row top)
      bytes bin.toNat ⊆ clientMessages H geo.arity tops row top bytes bin :=
    List.subset_append_left ..
  have hmono : openingMessages H concat geo.arity (leafSources geo.arity row top)
      bytes bin.toNat ++ treeMessages H concat zeroHash geo.arity (ts.group tree g) ⊆
      clientMessages H geo.arity tops row top bytes bin ++ builderMessages H ts tree g :=
    List.append_subset.2 ⟨List.Subset.trans hclient (List.subset_append_left ..),
      List.Subset.trans (List.subset_append_left ..) (List.subset_append_right ..)⟩
  rcases hopen with hcol | hroot
  · exact .inr ⟨tops, row, top, hev, .inl hcol⟩
  rcases h hserv hpos hlt with ⟨hdepth, hbin⟩ | hpad
  · have hheight : (leafSources geo.arity row top).length =
        depth H concat zeroHash geo.arity ((ts.group tree g).map H) := by
      rw [hlen, hdepth, depth_eq_height, List.length_map, hgroup, Geometry.depth]
    obtain (hcol | hhit) | hget := opening_eq_depth H concat zeroHash geo.two_le hinj hne hroot
      hheight
    · exact .inr ⟨tops, row, top, hev, .inl (hcol.mono hmono)⟩
    · exact .inr ⟨tops, row, top, hev, .inr (hhit.mono hclient)⟩
    · left
      rwa [hlen, hdepth, Geometry.depth,
        Nat.mod_eq_of_lt (lt_pow_height geo.two_le hbin)] at hget
  · obtain (hcol | hhit) | hland := opening_lands H concat zeroHash geo.two_le hinj hne hroot
    · exact .inr ⟨tops, row, top, hev, .inl (hcol.mono hmono)⟩
    · exact .inr ⟨tops, row, top, hev, .inr (hhit.mono hclient)⟩
    · rw [hlen, hgroup] at hland
      exact absurd hland (not_lt.2 hpad)

end Openings

end BitcoinPir.Onion
