import BitcoinPir.Core.Passes
import BitcoinPir.Bucket.Builder

/-!
# The client's bucket-Merkle verification

The client's side of the commitments of `Bucket.Builder`: parsing the tree-top blob, checking
its roots against a super-root, and verifying bins against the tree tops with sibling rows
fetched from the servers.

Parsers keep the unread suffix of the input where the source keeps an offset into it; the error
texts are the source's. Everything a server sends is arbitrary: `verifySiblingLevels` runs
against any querier with any state.
-/

namespace BitcoinPir.Bucket

open Foundations

/-- The cached upper levels of one group's tree, as the server sends them. -/
structure TreeTop where
  /-- The number of sibling levels below the first cached level. -/
  cacheFromLevel : ℕ
  /-- Cached hashes, lowest level first. -/
  levels : List (List Hash256)
  deriving DecidableEq

def TreeTop.root (top : TreeTop) : Option Hash256 := rootOfLevels top.levels

section SuperRoot

variable (H : Bytes → Hash256)

/-- The roots of the tree tops, in order. -/
def collectRoots : ℕ → List TreeTop → PirResult (List Hash256)
  | _, [] => .ok []
  | position, top :: tops =>
    match top.root with
    | none => .error (.verificationFailed s!"bucket tree-top {position} has no root")
    | some root =>
      match collectRoots (position + 1) tops with
      | .error e => .error e
      | .ok roots => .ok (root :: roots)

/-- Bind the INDEX and CHUNK roots, in protocol order, to a super-root. -/
def verifyTreeTopsSuperRoot (treeTops : List TreeTop) (indexK chunkK : ℕ) (expected : Hash256) :
    PirResult Unit :=
  let exact := indexK + chunkK
  if treeTops.length ≠ exact then
    .error (.verificationFailed
      s!"bucket tree-tops count mismatch: expected {exact} ({indexK} INDEX + {chunkK} CHUNK), got {treeTops.length}")
  else
    match collectRoots 0 treeTops with
    | .error e => .error e
    | .ok roots =>
      let actual := H (Digest.concat roots)
      if actual ≠ expected then
        .error (.verificationFailed
          s!"bucket tree-tops super-root mismatch: expected {hexEncode expected.val}, got {hexEncode actual.val}")
      else .ok ()

end SuperRoot

/-! ## Parsing the tree-top blob -/

/-- The bucket parser: it accepts trees of arity 8 only. -/
def topReader : TopReader where
  truncatedHeader t := .decode s!"tree-tops: truncated header for tree {t}"
  checkArity t declared :=
    if declared ≠ arity then
      .error (.decode s!"tree-tops: tree {t} declares arity {declared}, expected {arity}")
    else .ok ()
  truncatedCount t lvl := .decode s!"tree-tops: truncated level count for tree {t} level {lvl}"
  truncatedHashes t lvl := .decode s!"tree-tops: truncated hashes for tree {t} level {lvl}"

def parseTreeTops (data : Bytes) : PirResult (List TreeTop) :=
  if data.length < 4 then .error (.decode "tree-tops blob too short")
  else
    let numTrees := leNat (data.take 4)
    let maxTreesFromHeaders := (data.length - 4) / 8
    if maxTreesFromHeaders < numTrees then
      .error (.decode
        s!"tree-tops declares {numTrees} trees but only {maxTreesFromHeaders} headers can fit")
    else do
      let (tops, rest) ← readTrees topReader numTrees 0 (data.drop 4)
      if rest.length ≠ 0 then
        .error (.decode s!"tree-tops: trailing bytes after declared trees: {rest.length}")
      else return tops.map fun top => ⟨top.cacheFromLevel, top.levels⟩

/-! ## Planning the sibling queries -/

/-- One bin to verify: its group, its index in the group's table, its bytes. -/
structure SubItem where
  pbcGroup : ℕ
  binIndex : UInt32
  binContent : Bytes
  deriving DecidableEq

/-- The padded passes of one sibling level. -/
structure SiblingLevelPlan where
  level : ℕ
  levelBinsPerTable : ℕ
  passes : List (List (Option ℕ))
  deriving DecidableEq

/-- Rows by level, pass and group. -/
abbrev LevelRows := List (List (List (Option Bytes)))

def groupsOf (items : List SubItem) : List ℕ := items.map SubItem.pbcGroup

def maxItemsPerGroup (items : List SubItem) : ℕ :=
  ((itemsByGroup (groupsOf items)).map fun e => e.2.length).max?.getD 1

/-- The sibling levels walked by every item: the largest count any tree top declares. -/
def maxSibLevels (treeTops : List TreeTop) : ℕ := (treeTops.map TreeTop.cacheFromLevel).max?.getD 0

/-- The row counts of `n` sibling levels above `nodes` nodes. -/
def levelGroupsCount : ℕ → ℕ → List ℕ
  | 0, _ => []
  | n + 1, nodes => (nodes ⌈/⌉ arity) :: levelGroupsCount n (nodes ⌈/⌉ arity)

def passTargets (tableK : ℕ) (groupToItem : List (ℕ × ℕ)) (plannedNodeIdx : List ℕ) :
    List (Option ℕ) :=
  (List.range tableK).map fun g =>
    (groupToItem.lookup g).map fun i => plannedNodeIdx.getD i 0 / arity

/-- The plans of the levels from `level` on; node indices lose one digit per level. -/
def levelPlans (byGroup : List (ℕ × List ℕ)) (tableK maxItems : ℕ) :
    ℕ → List ℕ → List ℕ → List SiblingLevelPlan
  | _, [], _ => []
  | level, groupsAtLevel :: counts, plannedNodeIdx =>
    { level
      levelBinsPerTable := groupsAtLevel
      passes := (List.range maxItems).map fun pass =>
        passTargets tableK (passGroupToItem byGroup pass) plannedNodeIdx } ::
    levelPlans byGroup tableK maxItems (level + 1) counts (plannedNodeIdx.map (· / arity))

/-- Every sibling query of a verification, planned from the bin indices alone. -/
def siblingPlans (items : List SubItem) (bins tableK : ℕ) (treeTops : List TreeTop) :
    List SiblingLevelPlan :=
  levelPlans (itemsByGroup (groupsOf items)) tableK (maxItemsPerGroup items) 0
    (levelGroupsCount (maxSibLevels treeTops) bins) (items.map fun it => it.binIndex.toNat)

/-! ## Walking to the root -/

/-- The running state of one item. -/
structure ItemState where
  currentHash : Hash256
  nodeIdx : ℕ
  malformedEvidence : Bool
  deriving DecidableEq

section Walk

variable (H : Bytes → Hash256)

def SubItem.start (it : SubItem) : ItemState where
  currentHash := computeBinLeafHash H it.binIndex.toNat it.binContent
  nodeIdx := it.binIndex.toNat
  malformedEvidence := false

/-- Walk one sibling level with the row received for it. A missing row or one of another size
marks the evidence malformed; the walk goes on. -/
def absorbRow (rowOpt : Option Bytes) (s : ItemState) : ItemState :=
  match rowOpt with
  | none => { currentHash := zeroHash, nodeIdx := s.nodeIdx / arity, malformedEvidence := true }
  | some row =>
    if row.length ≠ sibRowSize then
      { currentHash := zeroHash, nodeIdx := s.nodeIdx / arity, malformedEvidence := true }
    else
      let childPos := s.nodeIdx % arity
      let children := (List.range arity).map fun c =>
        if c = childPos then s.currentHash else Digest.piece 32 row c
      { s with currentHash := computeParentN H children, nodeIdx := s.nodeIdx / arity }

/-- Walk one pass: every item of the pass absorbs its group's row. -/
def walkPass (groupToItem : List (ℕ × ℕ)) (rows : List (Option Bytes)) (st : List ItemState) :
    List ItemState :=
  groupToItem.foldl (fun st (g, i) => st.modify i (absorbRow H (rows.getD g none))) st

def walkLevel (byGroup : List (ℕ × List ℕ)) (maxItems level : ℕ)
    (batchRows : List (List (Option Bytes))) (st : List ItemState) :
    PirResult (List ItemState) :=
  if batchRows.length ≠ maxItems then
    .error (.protocol
      s!"Merkle L{level}: querier returned {batchRows.length} pass results, expected {maxItems}")
  else
    .ok (batchRows.zipIdx.foldl
      (fun st (rows, pass) => walkPass H (passGroupToItem byGroup pass) rows st) st)

/-- Walk all sibling levels, from `level` on. -/
def walkLevels (byGroup : List (ℕ × List ℕ)) (maxItems : ℕ) :
    ℕ → LevelRows → List ItemState → PirResult (List ItemState)
  | _, [], st => .ok st
  | level, batchRows :: allRows, st =>
    match walkLevel H byGroup maxItems level batchRows st with
    | .error e => .error e
    | .ok st => walkLevels byGroup maxItems (level + 1) allRows st

/-- The verdict on an item after the sibling levels. -/
def finishItem (treeTops : List TreeTop) (it : SubItem) (s : ItemState) : Bool :=
  match treeTops[it.pbcGroup]? with
  | none => false
  | some top =>
    if top.levels.isEmpty then false
    else
      let hash := walkCachedLevels H arity top.levels.dropLast s.currentHash s.nodeIdx
      !s.malformedEvidence && hash == top.root.getD zeroHash

/-- The verdicts from the rows received for the planned queries. -/
def checkRows (items : List SubItem) (bins tableK : ℕ) (treeTops : List TreeTop)
    (allRows : LevelRows) : PirResult (List Bool) :=
  let plans := siblingPlans items bins tableK treeTops
  if allRows.length ≠ plans.length then
    .error (.protocol
      s!"Merkle querier returned {allRows.length} level results, expected {plans.length}")
  else
    match walkLevels H (itemsByGroup (groupsOf items)) (maxItemsPerGroup items) 0 allRows
        (items.map (SubItem.start H)) with
    | .error e => .error e
    | .ok st => .ok (items.zipWith (finishItem H treeTops) st)

end Walk

/-- A querier: answers the plans of one table type and database, with a state of its own. -/
abbrev SiblingQuerier (σ : Type) :=
  ℕ → List SiblingLevelPlan → ℕ → σ → PirResult (LevelRows × σ)

/-- Verify bins of one table type against the tree tops of its groups. -/
def verifySiblingLevels {σ : Type} (H : Bytes → Hash256) (querier : SiblingQuerier σ)
    (items : List SubItem) (bins tableK tableType : ℕ) (treeTops : List TreeTop) (dbId : ℕ)
    (s : σ) : PirResult (List Bool × σ) := do
  let (allRows, s) ← querier tableType (siblingPlans items bins tableK treeTops) dbId s
  let oks ← checkRows H items bins tableK treeTops allRows
  return (oks, s)

end BitcoinPir.Bucket
