import BitcoinPir.Core.Types
import BitcoinPir.Core.Merkle

/-!
# Tree-top blobs

Both Merkle subsystems publish the upper levels of all their trees in one blob of the same
format, written by the database builders and parsed by the client:

* `writeTreeTop` writes one tree top, `readTrees` reads a number of them, with the error texts
  and the arity check of the parser that calls it (`TopReader`);
* `readTrees_write`: what was written is read back, as long as every count fits its field;
* `walkCachedLevels` climbs the levels of a tree top, and is a climb of `Foundations.HashTree`
  (`walkCachedLevels_eq_climb`).

Readers keep the unread suffix of the input where the source keeps an offset into it.
-/

namespace BitcoinPir

open Foundations HashTree Digest

/-- The first hash of the last level. -/
def rootOfLevels (levels : List (List Hash256)) : Option Hash256 := levels.getLast?.bind List.head?

/-- The Merkle tree of one PBC group. -/
structure PerGroupTree where
  /-- All levels, leaf hashes first. -/
  levels : List (List Hash256)
  root : Hash256
  deriving DecidableEq

/-- The tree both builders make from a group's leaf hashes. `none` is a panic: a group without
leaves has no root. -/
def treeOfLeaves (H : Bytes → Hash256) (arity : ℕ) (leaves : List Hash256) :
    Option PerGroupTree := do
  let levels := buildLevels H arity leaves.length leaves
  let root ← rootOfLevels levels
  return { levels, root }

theorem treeOfLeaves_eq_some {H : Bytes → Hash256} {arity : ℕ} (harity : 2 ≤ arity)
    {leaves : List Hash256} {tree : PerGroupTree} :
    treeOfLeaves H arity leaves = some tree ↔
      leaves ≠ [] ∧ tree.levels = levels H concat zeroHash arity leaves ∧
        root H concat zeroHash arity leaves = some tree.root := by
  have hbuild := buildLevels_eq_levels H (show 0 < arity by omega) leaves
  simp only [treeOfLeaves, hbuild, Option.bind_eq_bind, Option.bind_eq_some_iff]
  constructor
  · rintro ⟨root, hroot, htree⟩
    cases htree
    refine ⟨?_, rfl, hroot⟩
    rintro rfl
    simp [rootOfLevels, levels, levelsAux] at hroot
  · rintro ⟨-, hlevels, hroot⟩
    refine ⟨tree.root, hroot, ?_⟩
    rw [← hlevels]
    rfl

/-- A group with leaves has a tree. -/
theorem exists_treeOfLeaves (H : Bytes → Hash256) {arity : ℕ} (harity : 2 ≤ arity)
    {leaves : List Hash256} (hne : leaves ≠ []) : ∃ tree, treeOfLeaves H arity leaves = some tree := by
  have hroot := root_eq H concat zeroHash harity hne
  exact ⟨⟨levels H concat zeroHash arity leaves, _⟩,
    (treeOfLeaves_eq_some harity).2 ⟨hne, rfl, hroot⟩⟩

/-- The cached upper levels of one tree, as they stand in a blob. -/
structure CachedTop where
  /-- The number of levels below the first cached one. -/
  cacheFromLevel : ℕ
  arity : ℕ
  /-- Cached hashes, lowest level first. -/
  levels : List (List Hash256)
  deriving DecidableEq

/-! ## Writing -/

/-- One cached level: its number of hashes, then the hashes. -/
def writeCachedLevel (level : List Hash256) : Bytes := leBytes 4 level.length ++ concat level

/-- The 8-byte header of a tree top. -/
def topHeader (top : CachedTop) : Bytes :=
  leBytes 1 top.cacheFromLevel ++ leBytes 4 (top.levels.map List.length).sum ++
    leBytes 2 top.arity ++ leBytes 1 top.levels.length

def writeTreeTop (top : CachedTop) : Bytes := topHeader top ++ top.levels.flatMap writeCachedLevel

/-- Every count of the tree top fits its field. -/
structure CachedTop.Fits (top : CachedTop) : Prop where
  cacheFromLevel_lt : top.cacheFromLevel < 256
  arity_lt : top.arity < 2 ^ 16
  numLevels_lt : top.levels.length < 256
  level_lt : ∀ level ∈ top.levels, level.length < 2 ^ 32

theorem length_topHeader (top : CachedTop) : (topHeader top).length = 8 := by
  simp [topHeader]

theorem le_length_writeTreeTops (tops : List CachedTop) :
    tops.length * 8 ≤ (tops.flatMap writeTreeTop).length := by
  induction tops with
  | nil => simp
  | cons top tops ih =>
    rw [List.flatMap_cons, List.length_append, writeTreeTop, List.length_append, length_topHeader,
      List.length_cons]
    omega

/-! ## Reading -/

/-- What differs between the parsers: their error texts, and what they require of the arity. -/
structure TopReader where
  truncatedHeader : ℕ → PirError
  checkArity : ℕ → ℕ → PirResult Unit
  truncatedCount : ℕ → ℕ → PirError
  truncatedHashes : ℕ → ℕ → PirError

variable (r : TopReader)

/-- One cached level of tree `t`. -/
def readLevel (t lvl : ℕ) (data : Bytes) : PirResult (List Hash256 × Bytes) :=
  if data.length < 4 then .error (r.truncatedCount t lvl)
  else
    let n := leNat (data.take 4)
    let rest := data.drop 4
    if rest.length < n * 32 then .error (r.truncatedHashes t lvl)
    else .ok (pieces 32 n rest, rest.drop (n * 32))

/-- The next cached levels of tree `t`, from level `lvl` on. -/
def readLevels (t : ℕ) : ℕ → ℕ → Bytes → PirResult (List (List Hash256) × Bytes)
  | 0, _, data => .ok ([], data)
  | numLevels + 1, lvl, data => do
    let (nodes, rest) ← readLevel r t lvl data
    let (levels, rest) ← readLevels t numLevels (lvl + 1) rest
    return (nodes :: levels, rest)

/-- One tree: an 8-byte header whose total node count is ignored, then its levels. -/
def readTree (t : ℕ) (data : Bytes) : PirResult (CachedTop × Bytes) :=
  if data.length < 8 then .error (r.truncatedHeader t)
  else do
    let cacheFromLevel := leNat (data.take 1)
    let arity := leNat ((data.drop 5).take 2)
    let numLevels := leNat ((data.drop 7).take 1)
    r.checkArity t arity
    let (levels, rest) ← readLevels r t numLevels 0 (data.drop 8)
    return ({ cacheFromLevel, arity, levels }, rest)

/-- The next trees, from tree `t` on. -/
def readTrees : ℕ → ℕ → Bytes → PirResult (List CachedTop × Bytes)
  | 0, _, data => .ok ([], data)
  | numTrees + 1, t, data => do
    let (top, rest) ← readTree r t data
    let (tops, rest) ← readTrees numTrees (t + 1) rest
    return (top :: tops, rest)

/-! ### What was read fits its fields -/

theorem length_readLevels {t : ℕ} {n lvl : ℕ} {data : Bytes} {levels : List (List Hash256)}
    {rest : Bytes} (h : readLevels r t n lvl data = .ok (levels, rest)) : levels.length = n := by
  induction n generalizing lvl data levels with
  | zero =>
    cases h
    rfl
  | succ n ih =>
    obtain ⟨⟨nodes, rest₁⟩, -, h⟩ := bind_eq_ok.1 h
    obtain ⟨⟨levels₁, rest₂⟩, hrest, h⟩ := bind_eq_ok.1 h
    cases h
    rw [List.length_cons, ih hrest]

/-- A field of `w` bytes holds less than `256 ^ w`. -/
theorem leNat_take_lt (w : ℕ) (data : Bytes) : leNat (data.take w) < 256 ^ w :=
  lt_of_lt_of_le (leNat_lt _) (Nat.pow_le_pow_right (by norm_num) (List.length_take_le ..))

theorem readTree_bounds {t : ℕ} {data : Bytes} {top : CachedTop} {rest : Bytes}
    (h : readTree r t data = .ok (top, rest)) : top.arity < 2 ^ 16 ∧ top.levels.length < 256 := by
  rw [readTree] at h
  split_ifs at h
  obtain ⟨-, -, h⟩ := bind_eq_ok.1 h
  obtain ⟨⟨levels, rest₁⟩, hlevels, h⟩ := bind_eq_ok.1 h
  cases h
  refine ⟨lt_of_lt_of_le (leNat_take_lt ..) (by norm_num), ?_⟩
  rw [length_readLevels r hlevels]
  exact lt_of_lt_of_le (leNat_take_lt ..) (by norm_num)

theorem readTrees_bounds {n t : ℕ} {data : Bytes} {tops : List CachedTop} {rest : Bytes}
    (h : readTrees r n t data = .ok (tops, rest)) :
    tops.length = n ∧ ∀ top ∈ tops, top.arity < 2 ^ 16 ∧ top.levels.length < 256 := by
  induction n generalizing t data tops with
  | zero =>
    cases h
    simp
  | succ n ih =>
    obtain ⟨⟨top, rest₁⟩, htop, h⟩ := bind_eq_ok.1 h
    obtain ⟨⟨tops₁, rest₂⟩, hrest, h⟩ := bind_eq_ok.1 h
    cases h
    obtain ⟨hlen, hbounds⟩ := ih hrest
    refine ⟨by rw [List.length_cons, hlen], ?_⟩
    intro e he
    rcases List.mem_cons.1 he with rfl | he
    · exact readTree_bounds r htop
    · exact hbounds e he

/-! ## Reading back -/

theorem readLevel_write (t lvl : ℕ) {level : List Hash256} (h : level.length < 2 ^ 32)
    (rest : Bytes) : readLevel r t lvl (writeCachedLevel level ++ rest) = .ok (level, rest) := by
  have hn : leNat (leBytes 4 level.length) = level.length := leNat_leBytes_of_lt (by norm_num; omega)
  have htake : (writeCachedLevel level ++ rest).take 4 = leBytes 4 level.length := by
    rw [writeCachedLevel, List.append_assoc, List.take_left' (length_leBytes ..)]
  have hdrop : (writeCachedLevel level ++ rest).drop 4 = concat level ++ rest := by
    rw [writeCachedLevel, List.append_assoc, List.drop_left' (length_leBytes ..)]
  have hlen : (writeCachedLevel level ++ rest).length = 4 + level.length * 32 + rest.length := by
    simp [writeCachedLevel, Nat.add_assoc]
  rw [readLevel, if_neg (by omega)]
  simp only [htake, hdrop, hn]
  rw [if_neg (by simp), pieces_concat_append, List.drop_left' (length_concat ..)]

theorem readLevels_write (t lvl : ℕ) {levels : List (List Hash256)}
    (h : ∀ level ∈ levels, level.length < 2 ^ 32) (rest : Bytes) :
    readLevels r t levels.length lvl (levels.flatMap writeCachedLevel ++ rest) =
      .ok (levels, rest) := by
  induction levels generalizing lvl with
  | nil => rfl
  | cons level levels ih =>
    rw [List.flatMap_cons, List.append_assoc, List.length_cons, readLevels,
      readLevel_write r t lvl (h level List.mem_cons_self), ok_bind]
    simp only
    rw [ih (lvl + 1) fun l hl => h l (List.mem_cons_of_mem _ hl)]
    rfl

theorem readTree_write (t : ℕ) {top : CachedTop} (h : top.Fits)
    (harity : r.checkArity t top.arity = .ok ()) (rest : Bytes) :
    readTree r t (writeTreeTop top ++ rest) = .ok (top, rest) := by
  have hcache : leNat (leBytes 1 top.cacheFromLevel) = top.cacheFromLevel :=
    leNat_leBytes_of_lt (by simpa using h.cacheFromLevel_lt)
  have hdeclared : leNat (leBytes 2 top.arity) = top.arity :=
    leNat_leBytes_of_lt (by simpa using h.arity_lt)
  have hnum : leNat (leBytes 1 top.levels.length) = top.levels.length :=
    leNat_leBytes_of_lt (by simpa using h.numLevels_lt)
  rw [writeTreeTop, List.append_assoc]
  generalize htail : top.levels.flatMap writeCachedLevel ++ rest = tail
  have h₁ : (topHeader top ++ tail).take 1 = leBytes 1 top.cacheFromLevel := rfl
  have h₅ : ((topHeader top ++ tail).drop 5).take 2 = leBytes 2 top.arity := rfl
  have h₇ : ((topHeader top ++ tail).drop 7).take 1 = leBytes 1 top.levels.length := rfl
  have h₈ : (topHeader top ++ tail).drop 8 = tail := List.drop_left' (length_topHeader top)
  rw [readTree]
  simp only [h₁, h₅, h₇, h₈, hcache, hdeclared, hnum]
  rw [harity, ← htail, readLevels_write r t 0 h.level_lt]
  rfl

/-- **Tree tops are read back** as they were written. -/
theorem readTrees_write (t : ℕ) {tops : List CachedTop} (h : ∀ top ∈ tops, top.Fits)
    (harity : ∀ t, ∀ top ∈ tops, r.checkArity t top.arity = .ok ()) (rest : Bytes) :
    readTrees r tops.length t (tops.flatMap writeTreeTop ++ rest) = .ok (tops, rest) := by
  induction tops generalizing t with
  | nil => rfl
  | cons top tops ih =>
    rw [List.flatMap_cons, List.append_assoc, List.length_cons, readTrees,
      readTree_write r t (h top List.mem_cons_self) (harity t top List.mem_cons_self), ok_bind]
    simp only
    rw [ih (t + 1) (fun e he => h e (List.mem_cons_of_mem _ he))
      (fun t e he => harity t e (List.mem_cons_of_mem _ he)), ok_bind]
    rfl

/-! ## Walking the cached levels -/

section Walk

variable (H : Bytes → Hash256) (arity : ℕ)

/-- Walk cached levels upwards: at each level the running hash stands among its cached
siblings, and zero hashes where the level has no node. -/
def walkCachedLevels : List (List Hash256) → Hash256 → ℕ → Hash256
  | [], hash, _ => hash
  | levelNodes :: levels, hash, idx =>
    let parentStart := idx / arity * arity
    let childPos := idx % arity
    let children := (List.range arity).map fun c =>
      if c = childPos then hash
      else if parentStart + c < levelNodes.length then levelNodes.getD (parentStart + c) zeroHash
      else zeroHash
    walkCachedLevels levels (computeParentN H children) (idx / arity)

/-- Siblings read off a cached level. -/
def cacheSource (levelNodes : List Hash256) (pos : ℕ) : Hash256 := levelNodes.getD pos zeroHash

/-- Siblings read off a row of `arity` hashes by their position in the level. -/
def rowSource (row : ℕ → Hash256) (pos : ℕ) : Hash256 := row (pos % arity)

theorem walkCachedLevels_eq_climb (levels : List (List Hash256)) (hash : Hash256) (idx : ℕ) :
    walkCachedLevels H arity levels hash idx =
      (climb H concat arity (levels.map cacheSource) hash idx).1 := by
  induction levels generalizing hash idx with
  | nil => rfl
  | cons levelNodes levels ih =>
    have hgroup : ((List.range arity).map fun c => if c = idx % arity then hash
        else if idx / arity * arity + c < levelNodes.length then
          levelNodes.getD (idx / arity * arity + c) zeroHash else zeroHash) =
        group arity (cacheSource levelNodes) hash idx := by
      apply List.map_congr_left
      intro c _
      rw [cacheSource]
      split_ifs with h₁ h₂
      · rfl
      · rfl
      · rw [List.getD_eq_default _ _ (not_lt.1 h₂)]
    rw [walkCachedLevels, ih]
    simp only [hgroup, computeParentN, List.map_cons, climb]

theorem group_rowSource (row : ℕ → Hash256) (hash : Hash256) (idx : ℕ) :
    ((List.range arity).map fun c => if c = idx % arity then hash else row c) =
      group arity (rowSource arity row) hash idx := by
  apply List.map_congr_left
  intro c hc
  rw [rowSource, Nat.mul_comm, Nat.mul_add_mod, Nat.mod_eq_of_lt (List.mem_range.1 hc)]

end Walk

end BitcoinPir
