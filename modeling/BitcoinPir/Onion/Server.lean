import BitcoinPir.Onion.Soundness

/-!
# A server that makes up its answers

The run of the verifier against a server that answers the tree-top request with tree tops of its
choice and every sibling batch with one row of its choice. `Answers.not_soundUnder` reduces a
failure of soundness to a statement about hashes: tree tops with the committed roots, and a row
along which bytes that were not committed climb to the root of their group.
-/

namespace BitcoinPir.Onion

open Foundations

/-- What the server sends. Counts and lengths fit the wire formats, so that the client reads
back what is sent. -/
structure Answers (geo : Geometry) where
  tops : List OnionTreeTopCache
  row : Bytes
  length_tops : tops.length = geo.index.k + geo.data.k
  fits : ∀ top ∈ tops, top.Fits
  arity_eq : ∀ top ∈ tops, top.arity = geo.arity
  length_row : row.length = geo.entrySize

namespace Answers

variable {geo : Geometry}

section Definitions

variable (ans : Answers geo) (tree : OnionTreeKind)

def blob : Bytes := leBytes 4 ans.tops.length ++ ans.tops.flatMap writeTreeTop

/-- The results of a sibling batch: the same plaintext for every group. -/
def batch : List Bytes :=
  List.replicate (geo.shape tree).k (plaintextOf (ans.row.map UInt8.toNat))

/-- The library: no encryption, one byte per coefficient. -/
def plainPir (geo : Geometry) : OnionPir where
  paramsInfo _ := ⟨geo.entrySize, geo.entrySize⟩
  fromSecretKey _ _ _ := some ⟨fun _ => [], id⟩

/-- The server answers the first request with the blob and every other with the batch. -/
def env : Environment Bool where
  pir := plainPir geo
  roundtrip _ answered :=
    .ok (if answered then tree.respSibling :: encodeSiblingBatchResult 0 (ans.batch tree)
      else tree.respTreeTop :: ans.blob, true)
  clientId := 0
  secretKey := []
  dbId := 0
  randomRow _ _ := 0
  mapOrder := id
  mapOrder_perm := id_perm

/-- The metadata: the committed super-root, and size and hash of the blob the server sends. -/
def info (H : Bytes → Hash256) (ts : OnionTables geo) : OnionMerkleInfo where
  arity := geo.arity
  superRoot := ts.superRoot H
  treeTopsHash := H ans.blob
  treeTopsSize := ans.blob.length
  index := ⟨geo.index.k, 1⟩
  data := ⟨geo.data.k, 1⟩

end Definitions

variable {ans : Answers geo} {tree : OnionTreeKind} {H : Bytes → Hash256} {ts : OnionTables geo}

theorem honestInfo (ans : Answers geo) : HonestInfo H ts (ans.info H ts) := ⟨rfl, rfl, rfl, rfl⟩

theorem respTreeTop_ne_respError : tree.respTreeTop ≠ respError := by
  cases tree <;> decide

theorem respSibling_ne_respError : tree.respSibling ≠ respError := by
  cases tree <;> decide

variable (hserv : geo.Servable tree)

/-! ## Tree tops -/

include hserv in
theorem parse_blob : parseOnionTreeTopCache ans.blob = .ok ans.tops := by
  have htwo := geo.two_le
  apply parseOnionTreeTopCache_write _ ans.fits
  · intro top htop
    rw [ans.arity_eq top htop]
    omega
  · rw [ans.length_tops]
    exact hserv.2.2.1

include hserv in
theorem fetchTreeTops_env (context : String) :
    fetchTreeTops (ans.env tree) tree context false = .ok (ans.blob, ans.tops, true) := by
  have hresp : (ans.env tree).roundtrip
      (encodeTreeTopRequest tree.reqTreeTop (ans.env tree).dbId) false =
      .ok (tree.respTreeTop :: ans.blob, true) := rfl
  rw [fetchTreeTops, hresp]
  simp only [responsePayload_cons respTreeTop_ne_respError, ok_bind, parse_blob hserv]
  rfl

theorem checkTreeTopAnchor_env (hroots : ans.tops.mapM rootOf = some (ts.committedRoots H)) :
    checkTreeTopAnchor H (ans.info H ts) ans.blob ans.tops = true :=
  (checkTreeTopAnchor_iff _).2 ⟨ans.length_tops, rfl, rfl, ans.arity_eq, _, hroots, rfl⟩

/-! ## The sibling round -/

theorem passGroupToItem_single (g : ℕ) : passGroupToItem (itemsByGroup [g]) 0 = [(g, 0)] := by
  simp [passGroupToItem, itemsByGroup, itemsOfGroup, List.range_succ]

theorem maxItemsPerGroup_single (entry : LeafKey × Hash256) : maxItemsPerGroup [entry] = 1 := by
  simp [maxItemsPerGroup, groupsOf, itemsByGroup, itemsOfGroup, List.range_succ]

variable {g : ℕ} (hg : g < (geo.shape tree).k)

include hserv

theorem siblingClient_env :
    siblingClient (ans.env tree) tree (ans.info H ts) = .ok ⟨fun _ => [], id⟩ := by
  have hsize : ((ans.env tree).pir.paramsInfo ((ans.info H ts).kind tree).numPt).entrySize =
      (ans.info H ts).arity * 32 := hserv.1.symm
  simp only [siblingClient, hsize, ne_eq, not_true_eq_false, if_false]
  rfl

include hg in
theorem receivedRow_batch (ans : Answers geo) :
    receivedRow ⟨fun _ => [], id⟩ ⟨geo.entrySize, geo.entrySize⟩ (ans.batch tree) g =
      some ans.row := by
  have hlen := ans.length_row
  have hk := hserv.2.2.2
  have hk2 := geo.two_le
  have hsize := hserv.1
  have hunpack := unpackOnionPlaintext_bytes ans.row (by omega) (by omega)
  rw [hlen] at hunpack
  rw [receivedRow, batch, List.getElem?_replicate, if_pos hg]
  exact hunpack

theorem decode_batch (context : String) :
    decodeSiblingBatchResult (encodeSiblingBatchResult 0 (ans.batch tree)) 0
      (geo.shape tree).k context = .ok (ans.batch tree) := by
  have hlen : (ans.batch tree).length = (geo.shape tree).k := List.length_replicate
  have hk := hserv.2.2.2
  have hsize := hserv.1
  rw [← hlen]
  refine decodeSiblingBatchResult_encode (by rw [hlen]; exact hserv.2.1) ?_ context
  intro r hr
  rw [List.eq_of_mem_replicate hr, plaintextOf, List.length_append, length_leBytes,
    length_flatMap_const (w := 8) fun _ _ => length_leBytes .., List.length_map, ans.length_row]
  omega

include hg in
theorem walkSiblings_env (bin : UInt32) (hash : Hash256) :
    walkSiblings H (ans.env tree) tree (ans.info H ts) [((g, bin), hash)] true =
      .ok ([absorbSibling H geo.arity (some ans.row) (startLeaf ((g, bin), hash))],
        [ans.batch tree], true) := by
  have hk : ((ans.info H ts).kind tree).k = (geo.shape tree).k := ans.honestInfo.kind_k
  have hgroups : groupsOf [((g, bin), hash)] = [g] := rfl
  have hrow : siblingRowOf ⟨fun _ => [], id⟩ ⟨geo.entrySize, geo.entrySize⟩ tree
      (ans.batch tree) g = .ok (some ans.row) := by
    obtain ⟨response, hget, hunpack⟩ :=
      Option.bind_eq_some_iff.1 (receivedRow_batch hserv hg ans)
    simp only [siblingRowOf, hget, hunpack]
  rw [walkSiblings, siblingClient_env hserv, ok_bind, maxItemsPerGroup_single, hgroups,
    siblingPasses, hk]
  simp only [env, if_true, ok_bind, responsePayload_cons respSibling_ne_respError,
    decode_batch hserv, passGroupToItem_single, foldPass, List.map_cons, List.map_nil,
    List.getElem?_cons_zero, Option.any_some, startLeaf, Bool.false_eq_true, if_false, plainPir,
    hrow, siblingPasses]
  rfl

/-! ## The run -/

variable {top : OnionTreeTopCache} {bin : UInt32}

include hg in
/-- **The run accepts** a leaf that climbs to the root of its group's tree top. -/
theorem verifySubTree_env (hroots : ans.tops.mapM rootOf = some (ts.committedRoots H))
    (htop : ans.tops[OnionTables.rootIdx geo tree g]? = some top) {hash : Hash256}
    (hclimb : (HashTree.climb H Digest.concat geo.arity (leafSources geo.arity ans.row top) hash
      bin.toNat).1 = (rootOf top).getD zeroHash) :
    verifySubTree H (ans.env tree) tree (ans.info H ts) [⟨tree, g, bin, hash, 0⟩] false =
      .ok ([((g, bin), true)], true) := by
  have hentries : (ans.env tree).mapOrder (uniqueLeaves [⟨tree, g, bin, hash, 0⟩]) =
      [((g, bin), hash)] := rfl
  have hverdict : leafVerdict H tree (ans.info H ts) ans.tops ((g, bin), hash)
      (absorbSibling H geo.arity (some ans.row) (startLeaf ((g, bin), hash))) = true := by
    exact (leafVerdict_some htop).trans (decide_eq_true hclimb)
  rw [verifySubTree, fetchTreeTops_env hserv]
  simp only [checkTreeTopAnchor_env hroots, if_true, hentries, walkSiblings_env hserv hg, ok_bind,
    List.zipWith_cons_cons, List.zipWith_nil_left, hverdict]
  rfl

include hg in
/-- What the run received is what the server sent. -/
theorem leafEvidence_env (htop : ans.tops[OnionTables.rootIdx geo tree g]? = some top)
    {hash : Hash256} {tops : List OnionTreeTopCache} {row : Bytes} {top' : OnionTreeTopCache}
    (h : LeafEvidence H (ans.env tree) tree (ans.info H ts) [⟨tree, g, bin, hash, 0⟩] false (g, bin)
      tops row top') :
    tops = ans.tops ∧ row = ans.row ∧ top' = top := by
  obtain ⟨blob, s₁, st, batches, s₂, client, i, hash', hfetch, hwalk, hclient, hentry, hrow, htop'⟩ :=
    h
  rw [fetchTreeTops_env hserv] at hfetch
  cases hfetch
  have hentries : (ans.env tree).mapOrder (uniqueLeaves [⟨tree, g, bin, hash, 0⟩]) =
      [((g, bin), hash)] := rfl
  rw [hentries] at hwalk hentry hrow
  rw [walkSiblings_env hserv hg] at hwalk
  cases hwalk
  rw [siblingClient_env hserv] at hclient
  cases hclient
  rw [ans.honestInfo.topIdx_eq, htop] at htop'
  cases htop'
  refine ⟨rfl, ?_, rfl⟩
  -- the only entry is in the only pass
  have hi : i = 0 := by
    have := (List.getElem?_eq_some_iff.1 hentry).1
    simp only [List.length_singleton] at this
    omega
  subst hi
  have hpass : leafPass [((g, bin), hash)] 0 ((g, bin), hash') = 0 := by
    have := leafPass_lt hentry
    rw [maxItemsPerGroup_single] at this
    omega
  rw [leafRow, hpass] at hrow
  have hreceived := receivedRow_batch hserv hg ans
  exact Option.some_inj.1 (hrow.symm.trans hreceived)

include hg in
/-- **A failure of soundness** from tree tops with the committed roots and bytes that climb to
the root of their group, if nothing that was hashed collides or hashes to the padding. -/
theorem not_soundUnder (ans : Answers geo)
    (hroots : ans.tops.mapM rootOf = some (ts.committedRoots H))
    (htop : ans.tops[OnionTables.rootIdx geo tree g]? = some top) {bytes : Bytes}
    (hbytes : bytes.length = geo.entrySize)
    (hclimb : (HashTree.climb H Digest.concat geo.arity (leafSources geo.arity ans.row top)
      (H bytes) bin.toNat).1 = (rootOf top).getD zeroHash)
    (hne : (ts.group tree g)[bin.toNat]? ≠ some bytes)
    (hcol : ¬ HashTree.Collides H (clientMessages H geo.arity ans.tops ans.row top bytes bin ++
      builderMessages H ts tree g))
    (hhit : ¬ HashTree.Hits H zeroHash (clientMessages H geo.arity ans.tops ans.row top bytes bin)) :
    ¬ SoundUnder H geo tree g top.levels.length bin := by
  intro hsound
  have hdeclared : declaredLevels (ans.env tree) tree (ans.info H ts) g false =
      some top.levels.length := by
    rw [declaredLevels, fetchTreeTops_env hserv]
    simp only [ans.honestInfo.topIdx_eq, htop, Option.map_some]
  have hlookup : (uniqueLeaves [⟨tree, g, bin, H bytes, 0⟩]).lookup (g, bin) = some (H bytes) :=
    lookup_eq_some_of_mem (nodup_uniqueLeaves _) List.mem_cons_self
  rcases hsound ts (ans.info H ts) Bool (ans.env tree) [⟨tree, g, bin, H bytes, 0⟩] false true _
    bytes ans.honestInfo rfl hdeclared (verifySubTree_env hserv hg hroots htop hclimb)
    List.mem_cons_self hlookup hbytes with hget | ⟨tops, row, top', hev, hescape⟩
  · exact hne hget
  · obtain ⟨rfl, rfl, rfl⟩ := leafEvidence_env hserv hg htop hev
    exact hescape.elim hcol hhit

end Answers

end BitcoinPir.Onion
