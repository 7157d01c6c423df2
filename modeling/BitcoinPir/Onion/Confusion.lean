import BitcoinPir.Onion.Server

/-!
# Where the OnionPIR verification accepts what was not committed

The converse of `soundAt_of`: for every shape of a database, every number of declared levels and
every bin not covered there, some server makes the client accept bytes that are not the committed
bin, and the run exhibits neither a collision nor a preimage of the padding
(`verifySubTree_sound_iff`).

The committed tree and the opening are built on a hash that numbers the nodes of a tree: it reads
level and position off the first digest of a message and returns those of the parent
(`codeHash`). A tree top with `d` levels over a tree of depth `D` opens the message of the node
`D - d` levels above the leaves; if `d` is larger, the committed bins are themselves messages of
nodes, and the opening starts below them.
-/

namespace BitcoinPir.Onion

open Foundations HashTree Digest

/-! ## A hash that numbers nodes -/

/-- The digest of the node at a level and position. -/
def codeDigest (t q : ℕ) : Hash256 := ⟨leBytes 32 (t * 2 ^ 128 + q + 1), length_leBytes ..⟩

/-- Level and position are in the range the digest can hold. -/
def InRange (t q : ℕ) : Prop := t < 2 ^ 100 ∧ q < 2 ^ 128

theorem leNat_codeDigest {t q : ℕ} (h : InRange t q) :
    leNat (codeDigest t q).val = t * 2 ^ 128 + q + 1 := by
  obtain ⟨ht, hq⟩ := h
  apply leNat_leBytes_of_lt
  omega

theorem codeDigest_inj {t q t' q' : ℕ} (h : InRange t q) (h' : InRange t' q')
    (heq : codeDigest t q = codeDigest t' q') : t = t' ∧ q = q' := by
  have hval := congrArg (fun d => leNat d.val) heq
  simp only [leNat_codeDigest h, leNat_codeDigest h'] at hval
  have := h.2
  have := h'.2
  constructor <;> omega

theorem codeDigest_ne_zeroHash {t q : ℕ} (h : InRange t q) : codeDigest t q ≠ zeroHash := by
  intro heq
  have hval := congrArg (fun d => leNat d.val) heq
  have hzero : leNat zeroHash.val = 0 := by decide
  simp only [leNat_codeDigest h, hzero] at hval
  omega

/-- The hash: the parent of the node named by the first digest. -/
def codeHash (k : ℕ) (message : Bytes) : Hash256 :=
  let v := leNat (message.take 32) - 1
  codeDigest (v / 2 ^ 128 + 1) (v % 2 ^ 128 / k)

theorem codeHash_append (k : ℕ) {t q : ℕ} (h : InRange t q) (rest : Bytes) :
    codeHash k ((codeDigest t q).val ++ rest) = codeDigest (t + 1) (q / k) := by
  have htake : ((codeDigest t q).val ++ rest).take 32 = (codeDigest t q).val :=
    List.take_left' (codeDigest t q).property
  have hq := h.2
  have hdiv : (t * 2 ^ 128 + q + 1 - 1) / 2 ^ 128 = t := by omega
  have hmod : (t * 2 ^ 128 + q + 1 - 1) % 2 ^ 128 = q := by omega
  simp only [codeHash, htake, leNat_codeDigest h, hdiv, hmod]

/-! ## Trees of numbered nodes -/

section Tree

/-- The digests of a tree over `n` leaves whose leaves are nodes of level `e + 1`. Levels up to
`e` go on without end, the others end as those of the tree do. -/
def nodeDigest (k n e t q : ℕ) : Hash256 :=
  if t ≤ e ∨ q < width k n (t - e - 1) then codeDigest t q else zeroHash

/-- The message of a node: the digests of its children. -/
def nodeMessage (k n e t r : ℕ) : Bytes := concat (row k (nodeDigest k n e t) r)

/-- The tree has children at level `t` for the node at position `r` above. -/
def HasNode (k n e t r : ℕ) : Prop :=
  InRange t (r * k) ∧ (t ≤ e ∨ r * k < width k n (t - e - 1))

variable {k n e t r : ℕ}

theorem length_nodeMessage : (nodeMessage k n e t r).length = k * 32 := by
  rw [nodeMessage, length_concat, length_row]

/-- **The hash numbers the tree's nodes.** -/
theorem codeHash_nodeMessage (hk : 0 < k) (h : HasNode k n e t r) :
    codeHash k (nodeMessage k n e t r) = codeDigest (t + 1) r := by
  obtain ⟨k, rfl⟩ : ∃ k', k = k' + 1 := ⟨k - 1, by omega⟩
  have hfirst : nodeDigest (k + 1) n e t (r * (k + 1) + 0) = codeDigest t (r * (k + 1)) := if_pos h.2
  rw [nodeMessage, row, List.range_succ_eq_map, List.map_cons, concat_cons, hfirst,
    codeHash_append _ h.1, Nat.mul_div_cancel _ hk]

theorem nodeDigest_eq_codeDigest (hk : 0 < k) (hleaf : t = e → r < n) (h : HasNode k n e t r) :
    nodeDigest k n e (t + 1) r = codeDigest (t + 1) r := by
  apply if_pos
  obtain hlt | heq | hgt := lt_trichotomy t e
  · exact .inl hlt
  · right
    rw [show t + 1 - e - 1 = 0 by omega]
    exact hleaf heq
  · right
    rw [show t + 1 - e - 1 = (t - e - 1) + 1 by omega, width_succ,
      lt_ceilDiv_iff hk]
    exact h.2.resolve_left (by omega)

/-- Past the end of a level there is padding. -/
theorem nodeDigest_pad {s q : ℕ} (h : width k n s ≤ q) :
    nodeDigest k n e (e + 1 + s) q = zeroHash := by
  apply if_neg
  rw [show e + 1 + s - e - 1 = s by omega]
  omega

/-- Sizes within which all node numbers are in range. -/
structure Small (k n e : ℕ) : Prop where
  two_le : 2 ≤ k
  k_lt : k < 2 ^ 16
  n_pos : 0 < n
  n_lt : n < 2 ^ 32
  e_lt : e < 2 ^ 20

variable (h : Small k n e)

include h

namespace Small

theorem k_pos : 0 < k := by
  have := h.two_le
  omega

theorem mul_lt (hr : r < 2 ^ 32) : r * k < 2 ^ 128 :=
  calc r * k ≤ 2 ^ 32 * 2 ^ 16 := Nat.mul_le_mul hr.le h.k_lt.le
    _ < 2 ^ 128 := by norm_num

theorem height_le : HashTree.height k n ≤ 32 :=
  HashTree.height_le h.two_le h.n_lt.le

theorem width_lt (s : ℕ) : HashTree.width k n s < 2 ^ 32 :=
  lt_of_le_of_lt (width_le h.k_pos n s) h.n_lt

theorem hasNode_leaf (hr : r < n) : HasNode k n e e r := by
  have := h.e_lt
  have := h.n_lt
  exact ⟨⟨by omega, h.mul_lt (by omega)⟩, .inl le_rfl⟩

theorem hasNode_level {s : ℕ} (hs : s < 2 ^ 20) (hr : r * k < width k n s) :
    HasNode k n e (e + 1 + s) r := by
  have := h.e_lt
  have := h.width_lt s
  refine ⟨⟨by omega, by omega⟩, .inr ?_⟩
  rwa [show e + 1 + s - e - 1 = s by omega]

end Small

/-! ### The tree over the messages of one level -/

/-- The bins of a group: the messages of level `e`. -/
def groupBins (k n e : ℕ) : List Bytes := (List.range n).map (nodeMessage k n e e)

theorem map_codeHash_groupBins :
    (groupBins k n e).map (codeHash k) = (List.range n).map (nodeDigest k n e (e + 1 + 0)) := by
  rw [groupBins, List.map_map]
  apply List.map_congr_left
  intro r hr
  have hr := List.mem_range.1 hr
  rw [Function.comp_apply, codeHash_nodeMessage h.k_pos (h.hasNode_leaf hr)]
  exact (nodeDigest_eq_codeDigest h.k_pos (fun _ => hr) (h.hasNode_leaf hr)).symm

theorem codeHash_level {s : ℕ} (hs : s < 2 ^ 20) (hr : r * k < width k n s) :
    codeHash k (nodeMessage k n e (e + 1 + s) r) = nodeDigest k n e (e + 1 + (s + 1)) r := by
  have hnode := h.hasNode_level hs hr
  rw [codeHash_nodeMessage h.k_pos hnode]
  exact (nodeDigest_eq_codeDigest h.k_pos (fun heq => by omega) hnode).symm

theorem level_groupBins {s : ℕ} (hs : s ≤ height k n) :
    (parents (codeHash k) concat zeroHash k)^[s]
        ((groupBins k n e).map (codeHash k)) =
      (List.range (width k n s)).map (nodeDigest k n e (e + 1 + s)) := by
  have hle := h.height_le
  rw [map_codeHash_groupBins h]
  exact iterate_parents_map_range (codeHash k) concat zeroHash h.k_pos
    (fun s => nodeDigest k n e (e + 1 + s)) (fun t _ q hq => nodeDigest_pad hq)
    (fun t ht r hr => codeHash_level h (by omega) hr)

omit h in
theorem length_map_groupBins : ((groupBins k n e).map (codeHash k)).length = n := by
  simp [groupBins]

theorem root_groupBins :
    root (codeHash k) concat zeroHash k ((groupBins k n e).map (codeHash k)) =
      some (codeDigest (e + 1 + height k n) 0) := by
  have hne : (groupBins k n e).map (codeHash k) ≠ [] := by
    apply List.ne_nil_of_length_pos
    rw [length_map_groupBins]
    exact h.n_pos
  have hwidth := width_height h.two_le h.n_pos
  rw [root_eq _ _ _ h.two_le hne, depth_eq_height, length_map_groupBins,
    level_groupBins h le_rfl, hwidth]
  have htop : 0 < width k n (e + 1 + height k n - e - 1) := by
    rw [show e + 1 + height k n - e - 1 = height k n by omega, hwidth]
    exact Nat.one_pos
  exact congrArg some (if_pos (.inr htop))

theorem exists_of_mem_nodeMessages_groupBins {x : Bytes}
    (hx : x ∈ nodeMessages (codeHash k) concat zeroHash k
      ((groupBins k n e).map (codeHash k))) :
    ∃ s r, s < height k n ∧ r * k < width k n s ∧
      x = nodeMessage k n e (e + 1 + s) r := by
  obtain ⟨s, r, hs, hr, rfl⟩ := exists_of_mem_nodeMessages _ _ _ h.two_le hx
  rw [depth_eq_height, length_map_groupBins] at hs
  rw [level_groupBins h hs.le, List.length_map, List.length_range] at hr
  refine ⟨s, r, hs, hr, ?_⟩
  rw [level_groupBins h hs.le, siblings_map_range _ fun q hq => nodeDigest_pad hq]
  rfl

end Tree

/-! ## The confused opening -/

section Opening

variable (k n d i : ℕ)

/-- How far below the committed leaves the opening starts. The committed leaves are the messages
of this level. -/
def below : ℕ := d - height k n

/-- The level of the opened message. -/
def startLevel : ℕ := below k n d + height k n - d

/-- The position of the opened message: the digits of the bin index the walk uses. -/
def startPos : ℕ := i % k ^ d

/-- Message `j` of the opening, the opened one being the first. -/
def openingMessage (j : ℕ) : Bytes :=
  nodeMessage k n (below k n d) (startLevel k n d + j) (startPos k d i / k ^ j)

/-- The cached level for step `j`: the siblings stand where a walk from bin `i` looks. -/
def openingLevel (j : ℕ) : List Hash256 :=
  List.replicate (i / k ^ (j + 1) * k) zeroHash ++
    row k (nodeDigest k n (below k n d) (startLevel k n d + 1 + j))
      (startPos k d i / k ^ (j + 1))

/-- The root of the tree that is opened. -/
def openingRoot : Hash256 := codeDigest (below k n d + 1 + height k n) 0

/-- The tree top: `d` levels, the last one the root. -/
def openingTop : OnionTreeTopCache where
  cacheFromLevel := 1
  arity := k
  levels := (List.range (d - 1)).map (fun j => openingLevel k n d i (j + 1)) ++
    [[openingRoot k n d]]

variable {k n d i}

theorem startLevel_add : startLevel k n d + d = below k n d + height k n := by
  rw [startLevel, below]
  omega

/-- The walk meets the committed tree at a node. -/
def Lands (k n d i : ℕ) : Prop :=
  landing k (height k n) d i < width k n (height k n - d)

/-- Where the walk meets the tree the tree has a node, so it has nodes all the way up. -/
theorem lt_width_of_lands (hk : 0 < k) (h : Lands k n d i) {j : ℕ}
    (hlevel : below k n d < startLevel k n d + 1 + j) :
    startPos k d i / k ^ j < width k n (startLevel k n d + j - below k n d) := by
  rw [startLevel, below] at *
  rw [Lands] at h
  set D := height k n
  obtain hle | hgt := le_or_gt d D
  · -- the opening starts at level `D - d` of the tree
    rw [landing, min_eq_left hle, Nat.sub_eq_zero_of_le hle, pow_zero, Nat.div_one] at h
    have := div_pow_lt_width hk h j
    rw [width_width] at this
    rwa [show d - D + D - d + j - (d - D) = j + (D - d) by omega]
  · -- the opening starts below the tree and meets it at the leaves
    rw [landing, min_eq_right hgt.le, Nat.sub_eq_zero_of_le hgt.le] at h
    have hpow : k ^ d = k ^ (d - D) * k ^ D := by rw [← pow_add, Nat.sub_add_cancel hgt.le]
    rw [← Nat.mod_mul_right_div_self, ← hpow] at h
    have := div_pow_lt_width hk h (j - (d - D))
    rw [Nat.div_div_eq_div_mul, ← pow_add, show d - D + (j - (d - D)) = j by omega] at this
    rwa [show d - D + D - d + j - (d - D) = j - (d - D) by omega]

theorem rowHash_openingMessage {c : ℕ} (hc : c < k) :
    rowHash (openingMessage k n d i 1) c =
      nodeDigest k n (below k n d) (startLevel k n d + 1) (startPos k d i / k * k + c) := by
  have hlen : (openingMessage k n d i 1).length = k * 32 := length_nodeMessage
  have hpiece := piece_concat_append (row k (nodeDigest k n (below k n d)
    (startLevel k n d + 1)) (startPos k d i / k ^ 1)) [] (c := c) (by simpa using hc)
  rw [List.append_nil] at hpiece
  rw [rowHash, if_pos (by rw [hlen]; omega), openingMessage, nodeMessage, hpiece,
    getElem_row, pow_one]

/-- The cached levels hold the siblings where the walk looks for them. -/
theorem cacheSource_openingLevel (j : ℕ) {c : ℕ} (hc : c < k) :
    cacheSource (openingLevel k n d i j) (i / k ^ (j + 1) * k + c) =
      nodeDigest k n (below k n d) (startLevel k n d + 1 + j)
        (startPos k d i / k ^ (j + 1) * k + c) := by
  rw [cacheSource, openingLevel, List.getD_append_right _ _ _ _ (by simp), List.length_replicate,
    Nat.add_sub_cancel_left, List.getD_eq_getElem _ _ (by simpa using hc), getElem_row]

theorem length_openingTop (hd : 0 < d) : (openingTop k n d i).levels.length = d := by
  simp only [openingTop, List.length_append, List.length_map, List.length_range,
    List.length_singleton]
  omega

theorem rootOf_openingTop : rootOf (openingTop k n d i) = some (openingRoot k n d) := by
  rw [rootOf, rootOfLevels, openingTop, List.getLast?_concat]
  rfl

variable (k n d i) in
/-- Where the walk finds the siblings. -/
abbrev openingSources : List (ℕ → Hash256) :=
  leafSources k (openingMessage k n d i 1) (openingTop k n d i)

theorem openingSources_eq : openingSources k n d i =
    rowSource k (rowHash (openingMessage k n d i 1)) ::
      (List.range (d - 1)).map fun j => cacheSource (openingLevel k n d i (j + 1)) := by
  rw [openingSources, leafSources, openingTop]
  simp only [List.dropLast_concat, List.map_map]
  rfl

/-- Source `j` of the opening finds the siblings of the opened node's ancestor. -/
theorem source_opening {j : ℕ} (hj : j < (openingSources k n d i).length) {c : ℕ} (hc : c < k) :
    (openingSources k n d i)[j] (i / k ^ j / k * k + c) =
      nodeDigest k n (below k n d) (startLevel k n d + 1 + j)
        (startPos k d i / k ^ j / k * k + c) := by
  rw [List.getElem_of_eq openingSources_eq hj]
  cases j with
  | zero =>
    rw [List.getElem_cons_zero, rowSource, pow_zero, Nat.div_one, Nat.div_one, Nat.mul_comm,
      Nat.mul_add_mod, Nat.mod_eq_of_lt hc, rowHash_openingMessage hc]
  | succ j =>
    rw [List.getElem_cons_succ, List.getElem_map, List.getElem_range, Nat.div_div_eq_div_mul,
      Nat.div_div_eq_div_mul, ← pow_succ]
    exact cacheSource_openingLevel (j + 1) hc

variable (hs : Small k n (below k n d)) (hi : i < 2 ^ 32) (h : Lands k n d i)

include hs hi h

/-- Every message of the opening is the message of a node. -/
theorem hasNode_openingMessage {j : ℕ} (hj : j ≤ d) :
    HasNode k n (below k n d) (startLevel k n d + j) (startPos k d i / k ^ j) := by
  have hsum := startLevel_add (k := k) (n := n) (d := d)
  have he := hs.e_lt
  have hheight := hs.height_le
  have hpos : startPos k d i / k ^ j < 2 ^ 32 :=
    lt_of_le_of_lt ((Nat.div_le_self ..).trans (Nat.mod_le ..)) hi
  refine ⟨⟨by omega, hs.mul_lt hpos⟩, ?_⟩
  by_cases hle : startLevel k n d + j ≤ below k n d
  · exact .inl hle
  · right
    rw [← lt_ceilDiv_iff hs.k_pos, ← width_succ,
      show startLevel k n d + j - below k n d - 1 + 1 = startLevel k n d + j - below k n d by omega]
    exact lt_width_of_lands hs.k_pos h (by omega)

/-- The messages of the opening hash to the digests above them. -/
theorem codeHash_openingMessage {j : ℕ} (hj : j ≤ d) :
    codeHash k (openingMessage k n d i j) =
      nodeDigest k n (below k n d) (startLevel k n d + j + 1) (startPos k d i / k ^ j) := by
  have hnode := hasNode_openingMessage hs hi h hj
  rw [openingMessage, codeHash_nodeMessage hs.k_pos hnode]
  refine (nodeDigest_eq_codeDigest hs.k_pos (fun heq => ?_) hnode).symm
  have := lt_width_of_lands hs.k_pos h (j := j) (by omega)
  rwa [show startLevel k n d + j - below k n d = 0 by omega] at this

/-- **The confused opening is accepted**: the walk from bin `i` climbs from the opened message to
the committed root. -/
theorem climb_opening (hd : 0 < d) :
    (climb (codeHash k) concat k
        (openingSources k n d i)
        (codeHash k (openingMessage k n d i 0)) i).1 = openingRoot k n d ∧
      climbMessages (codeHash k) concat k
        (openingSources k n d i)
        (codeHash k (openingMessage k n d i 0)) i =
      (List.range d).map fun j => openingMessage k n d i (j + 1) := by
  have hlen : (openingSources k n d i).length = d := by
    rw [openingSources, length_leafSources _ _ (List.ne_nil_of_length_pos (by rwa [length_openingTop hd])),
      length_openingTop hd]
  have hstart : codeHash k (openingMessage k n d i 0) =
      nodeDigest k n (below k n d) (startLevel k n d + 1) (startPos k d i) := by
    rw [codeHash_openingMessage hs hi h (Nat.zero_le d), pow_zero, Nat.div_one]
  obtain ⟨hclimb, hmsgs⟩ := climb_along (codeHash k) concat
    (nodeDigest k n (below k n d))
    (openingSources k n d i) (startLevel k n d + 1) (i := i)
    (p := startPos k d i) (fun j hj c hc => source_opening hj hc)
    (by rw [hlen, startPos, Nat.mod_mod])
    (fun j hj => by
      have := codeHash_openingMessage hs hi h (j := j + 1) (by omega)
      rw [show startLevel k n d + (j + 1) + 1 = startLevel k n d + 1 + j + 1 by omega] at this
      rw [← this, openingMessage, nodeMessage,
        show startLevel k n d + (j + 1) = startLevel k n d + 1 + j by omega])
  rw [hstart, hclimb, hmsgs, hlen]
  constructor
  · -- the position has `d` digits, so the walk ends at position 0
    have htop : startPos k d i / k ^ d = 0 :=
      Nat.div_eq_of_lt (Nat.mod_lt _ (Nat.pow_pos hs.k_pos))
    have hsum := startLevel_add (k := k) (n := n) (d := d)
    have hroot : 0 < width k n (startLevel k n d + 1 + d - below k n d - 1) := by
      rw [show startLevel k n d + 1 + d - below k n d - 1 = height k n by omega,
        width_height hs.two_le hs.n_pos]
      exact Nat.one_pos
    rw [htop, nodeDigest, if_pos (.inr hroot), openingRoot,
      show startLevel k n d + 1 + d = below k n d + 1 + height k n by omega]
  · apply List.map_congr_left
    intro j _
    rw [openingMessage, nodeMessage,
      show startLevel k n d + (j + 1) = startLevel k n d + 1 + j by omega]

end Opening

/-! ## The database and the server -/

section Server

variable (geo : Geometry) (tree : OnionTreeKind) (g d : ℕ) (bin : UInt32)

/-- The number of bins of a group. -/
abbrev Geometry.bins (kind : OnionTreeKind) : ℕ := (geo.shape kind).binsPerTable

/-- The level of the committed bins of a kind: where the opening needs it for the kind under
attack, out of its way for the other. -/
def leafLevel (kind : OnionTreeKind) : ℕ :=
  if kind = tree then below geo.arity (geo.bins tree) d else 1000

/-- The bins of every group of a kind. -/
def committedBins (kind : OnionTreeKind) : List Bytes :=
  groupBins geo.arity (geo.bins kind) (leafLevel geo tree d kind)

theorem length_committedBins (kind : OnionTreeKind) :
    (committedBins geo tree d kind).length = geo.bins kind := by
  simp [committedBins, groupBins]

/-- The root of every group of a kind. -/
def committedRoot (kind : OnionTreeKind) : Hash256 :=
  codeDigest (leafLevel geo tree d kind + 1 + geo.depth kind) 0

/-- The roots of all groups. -/
def allRoots : List Hash256 :=
  List.replicate geo.index.k (committedRoot geo tree d .index) ++
    List.replicate geo.data.k (committedRoot geo tree d .data)

theorem committedRoot_self :
    committedRoot geo tree d tree = openingRoot geo.arity (geo.bins tree) d := by
  rw [committedRoot, leafLevel, if_pos rfl]
  rfl

variable {geo} (hserv : geo.Servable tree)

def committedTable (kind : OnionTreeKind) : BinTable geo.entrySize (geo.shape kind) where
  bins := (List.range (geo.shape kind).k).flatMap fun _ => committedBins geo tree d kind
  length_bins := by
    rw [length_flatMap_const fun _ _ => length_committedBins geo tree d kind, List.length_range]
  length_bin := by
    intro b hb
    obtain ⟨_, _, hb⟩ := List.mem_flatMap.1 hb
    obtain ⟨r, _, rfl⟩ := List.mem_map.1 hb
    rw [length_nodeMessage, hserv.1]

def committedTables : OnionTables geo where
  index := committedTable tree d hserv .index
  data := committedTable tree d hserv .data

theorem group_committedTables {kind : OnionTreeKind} {g' : ℕ} (hg' : g' < (geo.shape kind).k) :
    (committedTables tree d hserv).group kind g' = committedBins geo tree d kind := by
  have htable : (committedTables tree d hserv).table kind = committedTable tree d hserv kind := by
    cases kind <;> rfl
  have hslice := record_flatMap (l := List.range (geo.shape kind).k)
    (fun _ _ => length_committedBins geo tree d kind) (i := g') (by simpa using hg')
  rw [OnionTables.group, htable]
  exact hslice

variable {tree d}

include hserv

theorem small_committed (hd : d < 256) (kind : OnionTreeKind) :
    Small geo.arity (geo.bins kind) (leafLevel geo tree d kind) where
  two_le := geo.two_le
  k_lt := hserv.2.2.2
  n_pos := (geo.shape kind).binsPerTable_pos
  n_lt := (geo.shape kind).binsPerTable_lt
  e_lt := by
    rw [leafLevel, below]
    split_ifs <;> omega

theorem root_committed (hd : d < 256) (kind : OnionTreeKind) :
    root (codeHash geo.arity) concat zeroHash geo.arity
      ((committedBins geo tree d kind).map (codeHash geo.arity)) =
      some (committedRoot geo tree d kind) :=
  root_groupBins (small_committed hserv hd kind)

theorem committedRoots_eq (hd : d < 256) :
    (committedTables tree d hserv).committedRoots (codeHash geo.arity) = allRoots geo tree d := by
  apply List.ext_getElem?
  intro j
  have hroot : ∀ kind, ∀ g' < (geo.shape kind).k,
      ((committedTables tree d hserv).committedRoots (codeHash geo.arity))[OnionTables.rootIdx geo
        kind g']? = some (committedRoot geo tree d kind) := by
    intro kind g' hg'
    rw [OnionTables.getElem?_committedRoots hg', group_committedTables tree d hserv hg',
      root_committed hserv hd]
  by_cases hindex : j < geo.index.k
  · rw [allRoots, List.getElem?_append_left (by simpa using hindex), List.getElem?_replicate,
      if_pos hindex]
    exact hroot .index j hindex
  · rw [allRoots, List.getElem?_append_right (by simpa using hindex), List.length_replicate,
      List.getElem?_replicate]
    split_ifs with hdata
    · have := hroot .data (j - geo.index.k) hdata
      rwa [OnionTables.rootIdx, Nat.add_sub_cancel' (by omega)] at this
    · apply List.getElem?_eq_none
      rw [OnionTables.length_committedRoots]
      omega

end Server

/-! ### What the server sends -/

section Answers

variable (geo : Geometry) (tree : OnionTreeKind) (g d : ℕ) (bin : UInt32)

/-- The tree top of a group: the opening for the group under attack, the bare root for others. -/
def serverTop (kind : OnionTreeKind) (g' : ℕ) : OnionTreeTopCache :=
  if kind = tree ∧ g' = g then
    openingTop geo.arity (geo.bins tree) d bin.toNat
  else ⟨1, geo.arity, [[committedRoot geo tree d kind]]⟩

def serverTops : List OnionTreeTopCache :=
  (List.range geo.index.k).map (serverTop geo tree g d bin .index) ++
    (List.range geo.data.k).map (serverTop geo tree g d bin .data)

def openedBytes : Bytes :=
  openingMessage geo.arity (geo.bins tree) d bin.toNat 0

def siblingRow : Bytes := openingMessage geo.arity (geo.bins tree) d bin.toNat 1

variable {geo}

variable {tree g d bin}

theorem rootOf_serverTop (kind : OnionTreeKind) (g' : ℕ) :
    rootOf (serverTop geo tree g d bin kind g') = some (committedRoot geo tree d kind) := by
  unfold serverTop
  split_ifs with h
  · obtain ⟨rfl, -⟩ := h
    rw [committedRoot_self, rootOf_openingTop]
  · rfl

theorem arity_serverTop (kind : OnionTreeKind) (g' : ℕ) :
    (serverTop geo tree g d bin kind g').arity = geo.arity := by
  unfold serverTop
  split_ifs <;> rfl

theorem length_serverTops :
    (serverTops geo tree g d bin).length = geo.index.k + geo.data.k := by
  simp [serverTops]

theorem exists_of_mem_serverTops {top : OnionTreeTopCache}
    (h : top ∈ serverTops geo tree g d bin) :
    ∃ kind g', top = serverTop geo tree g d bin kind g' := by
  rcases List.mem_append.1 h with h | h
  · obtain ⟨g', -, rfl⟩ := List.mem_map.1 h
    exact ⟨.index, g', rfl⟩
  · obtain ⟨g', -, rfl⟩ := List.mem_map.1 h
    exact ⟨.data, g', rfl⟩

theorem mapM_rootOf_serverTops :
    (serverTops geo tree g d bin).mapM rootOf = some (allRoots geo tree d) := by
  have hmap : ∀ (kind : OnionTreeKind) (m : ℕ),
      ((List.range m).map (serverTop geo tree g d bin kind)).mapM rootOf =
        some (List.replicate m (committedRoot geo tree d kind)) := by
    intro kind m
    rw [mapM_eq_some_map fun _ => committedRoot geo tree d kind]
    · rw [List.map_const', List.length_map, List.length_range]
    · rintro top htop
      obtain ⟨g', -, rfl⟩ := List.mem_map.1 htop
      exact rootOf_serverTop kind g'
  rw [serverTops, List.mapM_append, hmap, hmap]
  rfl

theorem getElem?_serverTops (hg : g < (geo.shape tree).k) :
    (serverTops geo tree g d bin)[OnionTables.rootIdx geo tree g]? =
      some (openingTop geo.arity (geo.bins tree) d bin.toNat) := by
  have htop : serverTop geo tree g d bin tree g =
      openingTop geo.arity (geo.bins tree) d bin.toNat := if_pos ⟨rfl, rfl⟩
  cases tree with
  | index =>
    have hg : g < geo.index.k := hg
    rw [OnionTables.rootIdx, serverTops, List.getElem?_append_left (by simpa using hg),
      List.getElem?_map, List.getElem?_range hg, Option.map_some, htop]
  | data =>
    have hg : g < geo.data.k := hg
    rw [OnionTables.rootIdx, serverTops, List.getElem?_append_right (by simp), List.length_map,
      List.length_range, Nat.add_sub_cancel_left, List.getElem?_map, List.getElem?_range hg,
      Option.map_some, htop]

theorem length_openingLevel_lt (hserv : geo.Servable tree) (j : ℕ) :
    (openingLevel geo.arity (geo.bins tree) d bin.toNat (j + 1)).length < 2 ^ 32 := by
  have hk := hserv.2.2.2
  have hk2 := geo.two_le
  have hbin := bin.toNat_lt
  -- the level is entered one digit short of the bin index
  have hle : bin.toNat / geo.arity ^ (j + 1 + 1) * geo.arity ≤ bin.toNat / 2 := by
    rw [pow_succ, ← Nat.div_div_eq_div_mul]
    refine (Nat.div_mul_le_self ..).trans (Nat.div_le_div_left ?_ (by norm_num))
    exact hk2.trans (Nat.le_self_pow (by omega) _)
  rw [openingLevel, List.length_append, List.length_replicate, length_row]
  omega

theorem fits_serverTop (hserv : geo.Servable tree) (hd : 0 < d) (hd' : d < 256)
    (kind : OnionTreeKind) (g' : ℕ) : (serverTop geo tree g d bin kind g').Fits := by
  have hk := hserv.2.2.2
  refine ⟨?_, ?_, ?_, ?_⟩
  · unfold serverTop
    split_ifs <;> exact (by decide : 1 < 256)
  · rwa [arity_serverTop]
  · unfold serverTop
    split_ifs
    · rwa [length_openingTop hd]
    · exact (by decide : 1 < 256)
  · unfold serverTop
    split_ifs
    · intro level hlevel
      rcases List.mem_append.1 hlevel with hlevel | hlevel
      · obtain ⟨j, -, rfl⟩ := List.mem_map.1 hlevel
        exact length_openingLevel_lt hserv j
      · rw [List.mem_singleton.1 hlevel]
        exact (by decide : 1 < 2 ^ 32)
    · intro level hlevel
      rw [List.mem_singleton.1 hlevel]
      exact (by decide : 1 < 2 ^ 32)

/-- All that the server sends. -/
def confusedAnswers (hserv : geo.Servable tree) (hd : 0 < d) (hd' : d < 256) : Answers geo where
  tops := serverTops geo tree g d bin
  row := siblingRow geo tree d bin
  length_tops := length_serverTops
  fits := by
    intro top htop
    obtain ⟨kind, g', rfl⟩ := exists_of_mem_serverTops htop
    exact fits_serverTop hserv hd hd' kind g'
  arity_eq := by
    intro top htop
    obtain ⟨kind, g', rfl⟩ := exists_of_mem_serverTops htop
    exact arity_serverTop kind g'
  length_row := length_nodeMessage.trans hserv.1

end Answers

/-! ## No escape -/

section Escape

/-- A message that its own hash names: the message of a node, or the roots `pre`. -/
def Named (k n e : ℕ) (pre x : Bytes) : Prop :=
  ∃ t r, InRange t r ∧ codeHash k x = codeDigest t r ∧
    x = if e + height k n + 1 < t then pre else nodeMessage k n e (t - 1) r

variable {k n e : ℕ} {pre : Bytes}

/-- Messages named by their hashes neither collide nor hash to the padding. -/
theorem not_collides_of_named {S : List Bytes} (h : ∀ x ∈ S, Named k n e pre x) :
    ¬ Collides (codeHash k) S := by
  rintro ⟨x, hx, y, hy, hne, heq⟩
  obtain ⟨t, r, hrange, hhash, hxe⟩ := h x hx
  obtain ⟨t', r', hrange', hhash', hye⟩ := h y hy
  rw [hhash, hhash'] at heq
  obtain ⟨rfl, rfl⟩ := codeDigest_inj hrange hrange' heq
  exact hne (hxe.trans hye.symm)

theorem not_hits_of_named {S : List Bytes} (h : ∀ x ∈ S, Named k n e pre x) :
    ¬ Hits (codeHash k) zeroHash S := by
  rintro ⟨x, hx, heq⟩
  obtain ⟨t, r, hrange, hhash, -⟩ := h x hx
  exact codeDigest_ne_zeroHash hrange (hhash ▸ heq)

theorem named_nodeMessage (hk : 0 < k) {t r : ℕ} (h : HasNode k n e t r) (ht : t < 2 ^ 99)
    (hle : t ≤ e + height k n) : Named k n e pre (nodeMessage k n e t r) := by
  refine ⟨t + 1, r, ⟨by omega, lt_of_le_of_lt (Nat.le_mul_of_pos_right r hk) h.1.2⟩,
    codeHash_nodeMessage hk h, ?_⟩
  rw [if_neg (by omega), Nat.add_sub_cancel]

theorem named_groupBins (hs : Small k n e) {x : Bytes} (hx : x ∈ treeMessages (codeHash k)
    concat zeroHash k (groupBins k n e)) : Named k n e pre x := by
  have he := hs.e_lt
  have hheight := hs.height_le
  rcases List.mem_append.1 hx with hx | hx
  · obtain ⟨r, hr, rfl⟩ := List.mem_map.1 hx
    exact named_nodeMessage hs.k_pos (hs.hasNode_leaf (List.mem_range.1 hr)) (by omega) (by omega)
  · obtain ⟨s, r, hlt, hr, rfl⟩ := exists_of_mem_nodeMessages_groupBins hs hx
    exact named_nodeMessage hs.k_pos (hs.hasNode_level (by omega) hr) (by omega) (by omega)

variable {geo : Geometry} {tree : OnionTreeKind} {g d : ℕ} {bin : UInt32}

variable (geo tree d) in
/-- A message named in the tree that is opened. -/
abbrev NamedAt (pre x : Bytes) : Prop :=
  Named geo.arity (geo.bins tree) (below geo.arity (geo.bins tree) d) pre x

/-- The roots of all groups are named by a level above the trees. -/
theorem named_roots (hserv : geo.Servable tree) (hd' : d < 256) (hg : g < (geo.shape tree).k) :
    NamedAt geo tree d (concat (allRoots geo tree d)) (concat (allRoots geo tree d)) := by
  -- the first root is of one kind or the other
  obtain ⟨kind, rest, hfirst⟩ :
      ∃ kind rest, allRoots geo tree d = committedRoot geo tree d kind :: rest := by
    rcases Nat.eq_zero_or_pos geo.index.k with hzero | hpos
    · have hdata : 0 < geo.data.k := by
        cases tree with
        | index => exact absurd hg (by simp [Geometry.shape, hzero])
        | data => exact lt_of_le_of_lt (Nat.zero_le g) hg
      obtain ⟨m, hm⟩ : ∃ m, geo.data.k = m + 1 := ⟨geo.data.k - 1, by omega⟩
      exact ⟨.data, _, by rw [allRoots, hzero, hm]; rfl⟩
    · obtain ⟨m, hm⟩ : ∃ m, geo.index.k = m + 1 := ⟨geo.index.k - 1, by omega⟩
      exact ⟨.index, _, by rw [allRoots, hm]; rfl⟩
  have hsmall := small_committed hserv hd' kind
  have hself := small_committed hserv hd' tree
  have he := hsmall.e_lt
  have hheight := hsmall.height_le
  have hselfheight := hself.height_le
  have habove : below geo.arity (geo.bins tree) d +
      height geo.arity (geo.bins tree) ≤
      leafLevel geo tree d kind + geo.depth kind := by
    by_cases hkind : kind = tree
    · subst hkind
      rw [leafLevel, if_pos rfl, Geometry.depth]
    · rw [leafLevel, if_neg hkind, below]
      omega
  have hdepth : geo.depth kind = height geo.arity (geo.bins kind) := rfl
  have hrange : InRange (leafLevel geo tree d kind + 1 + geo.depth kind) 0 :=
    ⟨by omega, by norm_num⟩
  refine ⟨leafLevel geo tree d kind + 1 + geo.depth kind + 1, 0, ⟨by omega, by norm_num⟩, ?_, ?_⟩
  · rw [hfirst, concat_cons, committedRoot, codeHash_append _ hrange, Nat.zero_div]
  · rw [if_pos (by omega)]

end Escape

/-! ## The exact condition -/

section Exact

variable {geo : Geometry} {tree : OnionTreeKind} {g d : ℕ} {bin : UInt32}

section Confused

variable (hserv : geo.Servable tree) (hd' : d < 256) (hg : g < (geo.shape tree).k)
  (hland : Lands geo.arity (geo.bins tree) d bin.toNat)

theorem group_opening (hg : g < (geo.shape tree).k) : (committedTables tree d hserv).group tree g =
    groupBins geo.arity (geo.bins tree)
      (below geo.arity (geo.bins tree) d) := by
  rw [group_committedTables tree d hserv hg, committedBins, leafLevel, if_pos rfl]

include hserv hd'

theorem small_opening : Small geo.arity (geo.bins tree)
    (below geo.arity (geo.bins tree) d) := by
  have := small_committed hserv hd' tree
  rwa [leafLevel, if_pos rfl] at this

include hland in
/-- The messages of the opening are named by their hashes. -/
theorem named_openingMessage (pre : Bytes) {j : ℕ} (hj : j ≤ d) :
    NamedAt geo tree d pre
      (openingMessage geo.arity (geo.bins tree) d bin.toNat j) := by
  have hsmall := small_opening hserv hd'
  have hsum := startLevel_add (k := geo.arity) (n := (geo.bins tree)) (d := d)
  have he := hsmall.e_lt
  have hheight := hsmall.height_le
  exact named_nodeMessage hsmall.k_pos (hasNode_openingMessage hsmall bin.toNat_lt hland hj)
    (by omega) (by omega)

include hg hland in
theorem named_clientMessages (hd : 0 < d) {x : Bytes}
    (hx : x ∈ clientMessages (codeHash geo.arity) geo.arity (serverTops geo tree g d bin)
      (siblingRow geo tree d bin)
      (openingTop geo.arity (geo.bins tree) d bin.toNat)
      (openedBytes geo tree d bin) bin) :
    NamedAt geo tree d (concat (allRoots geo tree d)) x := by
  have hmsgs := (climb_opening (small_opening hserv hd') bin.toNat_lt hland hd).2
  rcases List.mem_append.1 hx with hx | hx
  · rcases List.mem_cons.1 hx with rfl | hx
    · exact named_openingMessage hserv hd' hland _ (Nat.zero_le d)
    · rw [openedBytes, siblingRow, hmsgs] at hx
      obtain ⟨j, hj, rfl⟩ := List.mem_map.1 hx
      exact named_openingMessage hserv hd' hland _ (List.mem_range.1 hj)
  · rw [List.mem_singleton.1 hx, filterMap_eq_of_mapM mapM_rootOf_serverTops]
    exact named_roots hserv hd' hg

include hg in
theorem named_builderMessages {x : Bytes}
    (hx : x ∈ builderMessages (codeHash geo.arity) (committedTables tree d hserv) tree g) :
    NamedAt geo tree d (concat (allRoots geo tree d)) x := by
  rcases List.mem_append.1 hx with hx | hx
  · rw [group_opening hserv hg] at hx
    exact named_groupBins (small_opening hserv hd') hx
  · rw [List.mem_singleton.1 hx, committedRoots_eq hserv hd']
    exact named_roots hserv hd' hg

include hg hland in
/-- The opened message is not the committed bin: it is the message of another level, or there is
no such bin. -/
theorem openedBytes_not_committed
    (hne : ¬ (d = geo.depth tree ∧ bin.toNat < geo.bins tree)) :
    ((committedTables tree d hserv).group tree g)[bin.toNat]? ≠ some (openedBytes geo tree d bin) := by
  intro hget
  have hsmall := small_opening hserv hd'
  have hsum := startLevel_add (k := geo.arity) (n := (geo.bins tree)) (d := d)
  have he := hsmall.e_lt
  have hheight := hsmall.height_le
  have hnode := hasNode_openingMessage hsmall bin.toNat_lt hland (Nat.zero_le d)
  rw [group_opening hserv hg] at hget
  obtain ⟨hlt, hget⟩ := List.getElem?_eq_some_iff.1 hget
  rw [groupBins, List.length_map, List.length_range] at hlt
  have hhash := congrArg (codeHash geo.arity) hget
  simp only [groupBins, List.getElem_map, List.getElem_range] at hhash
  rw [codeHash_nodeMessage hsmall.k_pos (hsmall.hasNode_leaf hlt), openedBytes, openingMessage,
    codeHash_nodeMessage hsmall.k_pos hnode] at hhash
  obtain ⟨hlevels, -⟩ := codeDigest_inj
    ⟨by omega, lt_of_lt_of_le bin.toNat_lt (by norm_num)⟩
    ⟨by omega, lt_of_le_of_lt (Nat.le_mul_of_pos_right _ hsmall.k_pos) hnode.1.2⟩ hhash
  have hdepth : d = height geo.arity (geo.bins tree) := by omega
  exact hne ⟨hdepth, hlt⟩

end Confused

/-- **Confusion.** Where the walk meets the committed tree at a node other than the named bin,
bytes that were not committed are accepted without a collision or a preimage of the padding. -/
theorem not_soundAt (hserv : geo.Servable tree) (hd : 0 < d) (hd' : d < 256)
    (hg : g < (geo.shape tree).k)
    (hland : Lands geo.arity (geo.bins tree) d bin.toNat)
    (hne : ¬ (d = geo.depth tree ∧ bin.toNat < geo.bins tree)) :
    ¬ SoundAt geo tree g d bin := by
  intro hsound
  have hroots : (serverTops geo tree g d bin).mapM rootOf =
      some ((committedTables tree d hserv).committedRoots (codeHash geo.arity)) := by
    rw [mapM_rootOf_serverTops, committedRoots_eq hserv hd']
  have hroot : (rootOf (openingTop geo.arity (geo.bins tree) d bin.toNat)).getD zeroHash =
      openingRoot geo.arity (geo.bins tree) d := by
    rw [rootOf_openingTop, Option.getD_some]
  have hclimb := (climb_opening (small_opening hserv hd') bin.toNat_lt hland hd).1.trans hroot.symm
  have hfail := Answers.not_soundUnder hserv hg (confusedAnswers hserv hd hd') hroots
    (getElem?_serverTops hg) (length_nodeMessage.trans hserv.1) hclimb
    (openedBytes_not_committed hserv hd' hg hland hne)
    (not_collides_of_named fun x hx => (List.mem_append.1 hx).elim
      (named_clientMessages hserv hd' hg hland hd) (named_builderMessages hserv hd' hg))
    (not_hits_of_named fun x hx => named_clientMessages hserv hd' hg hland hd hx)
  rw [length_openingTop hd] at hfail
  exact hfail (hsound _)

/-- **The exact condition.** The verification is sound at a bin exactly when no verification can
succeed at all, or the tree top declares the depth of the committed tree and the bin is one of
the table's, or the walk ends at a place the committed tree only pads. -/
theorem verifySubTree_sound_iff (geo : Geometry) (tree : OnionTreeKind) (g d : ℕ) (bin : UInt32)
    (hg : g < (geo.shape tree).k) :
    SoundAt geo tree g d bin ↔
      (geo.Servable tree → 0 < d → d < 256 →
        (d = geo.depth tree ∧ bin.toNat < (geo.shape tree).binsPerTable) ∨
          width geo.arity (geo.shape tree).binsPerTable (geo.depth tree - d) ≤
            landing geo.arity (geo.depth tree) d bin.toNat) := by
  constructor
  · intro hsound hserv hd hd'
    by_contra hcond
    rw [not_or, not_le] at hcond
    exact not_soundAt hserv hd hd' hg hcond.2 hcond.1 hsound
  · exact soundAt_of hg

end Exact

/-! ## A tree top that is one level short -/

namespace ShortTop

/-- Two hashes per node, three INDEX bins and one DATA bin. -/
def geo : Geometry where
  entrySize := 64
  index := ⟨1, 3, by decide, UInt32.toNat_lt 3⟩
  data := ⟨1, 1, by decide, by decide⟩
  two_le_arity := by decide

theorem servable : geo.Servable .index := by
  unfold Geometry.Servable
  decide

def binOf (b : UInt8) : Bytes := List.replicate 64 b

def tables : OnionTables geo where
  index := ⟨[binOf 1, binOf 2, binOf 3], by decide, by decide⟩
  data := ⟨[binOf 4], by decide, by decide⟩

/-- The two nodes below the root of the INDEX tree. -/
def nodes : List Hash256 :=
  [sha256 (concat [sha256 (binOf 1), sha256 (binOf 2)]),
    sha256 (concat [sha256 (binOf 3), zeroHash])]

/-- The tree tops declare one level each; the INDEX tree has two. -/
def answers : Answers geo where
  tops := [⟨1, 2, [[sha256 (concat nodes)]]⟩, ⟨1, 2, [[sha256 (binOf 4)]]⟩]
  row := concat nodes
  length_tops := rfl
  fits := by
    intro top htop
    rcases List.mem_pair.1 htop with rfl | rfl <;>
      exact ⟨by decide, by decide, by decide, fun level h => List.mem_singleton.1 h ▸ by decide⟩
  arity_eq := by
    intro top htop
    rcases List.mem_pair.1 htop with rfl | rfl <;> rfl
  length_row := length_concat ..

/-- The preimage of the first node, presented as bin 0. -/
def bytes : Bytes := concat [sha256 (binOf 1), sha256 (binOf 2)]

def top : OnionTreeTopCache := ⟨1, 2, [[sha256 (concat nodes)]]⟩

set_option maxRecDepth 100000 in
/-- The tops have the committed roots, `bytes` climbs to the root and is not bin 0, and no message
hashed on either side collides with another or hashes to the padding. -/
theorem evaluated :
    answers.tops.mapM rootOf = some (tables.committedRoots sha256) ∧
    (climb sha256 concat geo.arity (leafSources geo.arity answers.row top)
      (sha256 bytes) 0).1 = (rootOf top).getD zeroHash ∧
    (tables.group .index 0)[0]? ≠ some bytes ∧
    ¬ Collides sha256 (clientMessages sha256 geo.arity answers.tops answers.row top bytes 0 ++
      builderMessages sha256 tables .index 0) ∧
    ¬ Hits sha256 zeroHash
      (clientMessages sha256 geo.arity answers.tops answers.row top bytes 0) := by
  decide +kernel

end ShortTop

/-- With both levels declared, every bin of the table is sound. -/
theorem verifySubTree_sound_iff_bothLevels :
    0 < (ShortTop.geo.shape .index).k ∧ SoundAt ShortTop.geo .index 0 2 2 :=
  ⟨by decide, (verifySubTree_sound_iff ShortTop.geo .index 0 2 2 (by decide)).2
    fun _ _ _ => .inl (by decide)⟩

/-- A tree top with one level over a tree of depth two: under SHA-256 the client accepts the
preimage of an inner node as bin 0. -/
theorem verifySubTree_accepts_inner_node : ¬ SoundUnder sha256 ShortTop.geo .index 0 1 0 := by
  obtain ⟨hroots, hclimb, hne, hcol, hhit⟩ := ShortTop.evaluated
  have htop : ShortTop.answers.tops[OnionTables.rootIdx ShortTop.geo .index 0]? =
      some ShortTop.top := rfl
  have hlen : ShortTop.bytes.length = ShortTop.geo.entrySize := length_concat ..
  exact Answers.not_soundUnder ShortTop.servable (by decide) ShortTop.answers hroots htop hlen
    hclimb hne hcol hhit

end BitcoinPir.Onion
