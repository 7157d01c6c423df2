import BitcoinPir.Core.TreeTops
import BitcoinPir.Core.Passes
import BitcoinPir.Core.Protocol
import BitcoinPir.Onion.Unpack

/-!
# The client's OnionPIR Merkle verification

The client fetches one blob with the tree tops of all groups, checks that their roots hash to a
super-root, and verifies leaf hashes group by group: one sibling row per leaf is fetched under
encryption, the rest of the path is read off the tree top.

The encryption library and the server are not modelled: `Environment` gives what they answer as
arbitrary functions. So do the order in which a hash map lists its keys and the random rows of
dummy queries. `arity` is a natural number where the source casts it to 32 bits; a blob that
passes the anchor check has an arity of at most 16 bits.
-/

namespace BitcoinPir.Onion

open Foundations

/-! ## Types -/

inductive OnionTreeKind
  | index
  | data
  deriving DecidableEq, Repr

namespace OnionTreeKind

def reqTreeTop : OnionTreeKind → UInt8
  | index => 0x54
  | data => 0x56

def respTreeTop : OnionTreeKind → UInt8
  | index => 0x54
  | data => 0x56

def reqSibling : OnionTreeKind → UInt8
  | index => 0x53
  | data => 0x55

def respSibling : OnionTreeKind → UInt8
  | index => 0x53
  | data => 0x55

def name : OnionTreeKind → String
  | index => "index"
  | data => "data"

end OnionTreeKind

/-- The sibling databases of one kind: how many, and how many rows each has. -/
structure OnionMerkleKindInfo where
  k : ℕ
  numPt : ℕ
  deriving DecidableEq

/-- The Merkle metadata of a database. -/
structure OnionMerkleInfo where
  arity : ℕ
  superRoot : Hash256
  treeTopsHash : Hash256
  treeTopsSize : ℕ
  index : OnionMerkleKindInfo
  data : OnionMerkleKindInfo
  deriving DecidableEq

def OnionMerkleInfo.kind (info : OnionMerkleInfo) : OnionTreeKind → OnionMerkleKindInfo
  | .index => info.index
  | .data => info.data

structure OnionMerkleLeaf where
  tree : OnionTreeKind
  pbcGroup : ℕ
  bin : UInt32
  hash : Hash256
  resultIdx : ℕ
  deriving DecidableEq

/-- Where a leaf is in its kind of trees: group and bin. -/
abbrev LeafKey := ℕ × UInt32

abbrev LeafHashes := List (LeafKey × Hash256)

def OnionMerkleLeaf.key (leaf : OnionMerkleLeaf) : LeafKey := (leaf.pbcGroup, leaf.bin)

abbrev OnionTreeTopCache := CachedTop

def rootOf (top : OnionTreeTopCache) : Option Hash256 := rootOfLevels top.levels

/-! ## Wire formats -/

/-- The parser's error texts; it refuses arity 0. -/
def topReader : TopReader where
  truncatedHeader t := .decode s!"onionpir tree-tops: truncated header for tree {t}"
  checkArity t arity :=
    if arity = 0 then .error (.decode s!"onionpir tree-tops: tree {t} has arity=0") else .ok ()
  truncatedCount t lvl := .decode s!"onionpir tree-tops: truncated level-{lvl} count for tree {t}"
  truncatedHashes t lvl :=
    .decode s!"onionpir tree-tops: truncated hashes for tree {t} level {lvl}"

def parseOnionTreeTopCache (data : Bytes) : PirResult (List OnionTreeTopCache) :=
  if data.length < 4 then
    .error (.decode "onionpir tree-tops blob too short (need 4B num_trees)")
  else do
    let (tops, rest) ← readTrees topReader (leNat (data.take 4)) 0 (data.drop 4)
    if rest.length ≠ 0 then
      .error (.decode s!"onionpir tree-tops: {rest.length} trailing bytes")
    else return tops

def encodeTreeTopRequest (variant dbId : UInt8) : Bytes := encodeRequest variant (dbIdSuffix dbId)

def encodeSiblingBatchQuery (variant : UInt8) (roundId : ℕ) (queries : List Bytes)
    (dbId : UInt8) : Bytes :=
  encodeRequest variant (leBytes 2 roundId ++ leBytes 1 queries.length ++
    queries.flatMap (fun q => leBytes 4 q.length ++ q) ++ dbIdSuffix dbId)

/-- The next results of a batch, each with its length in front. -/
def readResults (context : String) : ℕ → Bytes → PirResult (List Bytes × Bytes)
  | 0, data => .ok ([], data)
  | n + 1, data =>
    if data.length < 4 then .error (.decode s!"{context}: truncated sibling result len")
    else
      let len := leNat (data.take 4)
      let rest := data.drop 4
      if rest.length < len then .error (.decode s!"{context}: truncated sibling result bytes")
      else do
        let (results, tail) ← readResults context n (rest.drop len)
        return (rest.take len :: results, tail)

def decodeSiblingBatchResult (data : Bytes) (expectedRoundId expectedResults : ℕ)
    (context : String) : PirResult (List Bytes) :=
  if data.length < 3 then .error (.decode s!"{context}: sibling result batch too short")
  else
    let roundId := leNat (data.take 2)
    if roundId ≠ expectedRoundId then
      .error (.protocol
        s!"{context}: sibling round_id mismatch: expected {expectedRoundId}, got {roundId}")
    else
      let numGroups := leNat ((data.drop 2).take 1)
      if numGroups ≠ expectedResults then
        .error (.protocol
          s!"{context}: sibling result count mismatch: expected {expectedResults}, got {numGroups}")
      else do
        let (results, rest) ← readResults context numGroups (data.drop 3)
        if rest.length ≠ 0 then
          .error (.decode s!"{context}: trailing bytes after sibling result batch: {rest.length}")
        else return results

/-- A response of the expected kind, without its variant byte. -/
def responsePayload (body : Bytes) (expectedVariant : UInt8) (context : String) :
    PirResult Bytes :=
  match body with
  | [] => .error (.decode s!"{context}: empty response body")
  | variant :: payload => do
    rejectErrorResponse body context
    if variant ≠ expectedVariant then
      .error (.unexpectedResponse "OnionPIR response opcode" s!"{context}: 0x{hexByte variant}")
    else return payload

/-! ## The anchor -/

section Anchor

variable (H : Bytes → Hash256)

/-- Bind a blob and the tree tops parsed from it to the metadata: the number of trees, the
blob's size and hash, the arity of every tree, and the roots' hash. -/
def checkTreeTopAnchor (info : OnionMerkleInfo) (blob : Bytes) (allTops : List OnionTreeTopCache) :
    Bool :=
  if allTops.length ≠ info.index.k + info.data.k then false
  else if blob.length ≠ info.treeTopsSize then false
  else if H blob ≠ info.treeTopsHash then false
  else if ∃ top ∈ allTops, top.arity ≠ info.arity then false
  else
    match allTops.mapM rootOf with
    | none => false
    | some roots => H (Digest.concat roots) = info.superRoot

theorem checkTreeTopAnchor_iff {info : OnionMerkleInfo} {blob : Bytes}
    {allTops : List OnionTreeTopCache} :
    checkTreeTopAnchor H info blob allTops = true ↔
      allTops.length = info.index.k + info.data.k ∧ blob.length = info.treeTopsSize ∧
        H blob = info.treeTopsHash ∧ (∀ top ∈ allTops, top.arity = info.arity) ∧
        ∃ roots, allTops.mapM rootOf = some roots ∧ H (Digest.concat roots) = info.superRoot := by
  unfold checkTreeTopAnchor
  split_ifs with h₁ h₂ h₃ h₄
  · simp [h₁]
  · simp [h₂]
  · simp [h₃]
  · obtain ⟨top, htop, hne⟩ := h₄
    simp only [false_iff]
    rintro ⟨-, -, -, h, -⟩
    exact hne (h top htop)
  · have harity : ∀ top ∈ allTops, top.arity = info.arity := by
      intro top htop
      by_contra hne
      exact h₄ ⟨top, htop, hne⟩
    rw [not_not] at h₁ h₂ h₃
    cases hroots : allTops.mapM rootOf with
    | none => simp
    | some roots => simpa [h₁, h₂, h₃] using fun _ => harity

end Anchor

/-! ## The environment -/

/-- Library parameters for a database size. -/
structure PirParams where
  entrySize : ℕ
  polyDegree : ℕ

/-- A client of the encryption library. -/
structure PirClient where
  generateQuery : ℕ → Bytes
  decryptResponse : Bytes → Bytes

/-- What the verification uses of the encryption library. -/
structure OnionPir where
  paramsInfo : ℕ → PirParams
  fromSecretKey : ℕ → ℕ → Bytes → Option PirClient

/-- Everything a verification runs against: the library, the connection with the server's state
`σ` behind it, the session's key, the database, and the choices left to the run time. -/
structure Environment (σ : Type) where
  pir : OnionPir
  roundtrip : Bytes → σ → PirResult (Bytes × σ)
  clientId : ℕ
  secretKey : Bytes
  dbId : UInt8
  /-- The row of the dummy query of a group in a pass. -/
  randomRow : ℕ → ℕ → ℕ
  /-- The order in which a hash map lists its entries. -/
  mapOrder : LeafHashes → LeafHashes
  mapOrder_perm : ∀ entries, (mapOrder entries).Perm entries

/-- The order of insertion is one a map may have. -/
theorem id_perm (entries : LeafHashes) : (id entries).Perm entries :=
  List.Perm.refl _

variable {σ : Type}

/-- Fetch and parse the tree-top blob. -/
def fetchTreeTops (env : Environment σ) (tree : OnionTreeKind) (context : String) (s : σ) :
    PirResult (Bytes × List OnionTreeTopCache × σ) := do
  let (resp, s) ← env.roundtrip (encodeTreeTopRequest tree.reqTreeTop env.dbId) s
  let blob ← responsePayload resp tree.respTreeTop context
  let tops ← parseOnionTreeTopCache blob
  return (blob, tops, s)

/-! ## The leaves -/

/-- The leaves by key; the first hash of a key stays. -/
def uniqueLeaves (leaves : List OnionMerkleLeaf) : LeafHashes :=
  leaves.foldl (fun unique leaf =>
    if (unique.lookup leaf.key).isSome then unique else unique ++ [(leaf.key, leaf.hash)]) []

/-- The running state of one leaf. -/
structure LeafState where
  currentHash : Hash256
  nodeIdx : ℕ
  failed : Bool
  deriving DecidableEq

/-- The state before any sibling row. -/
def startLeaf (entry : LeafKey × Hash256) : LeafState where
  currentHash := entry.2
  nodeIdx := entry.1.2.toNat
  failed := false

/-- The `c`-th hash of a row, zero past its end. -/
def rowHash (row : Bytes) (c : ℕ) : Hash256 :=
  if c * 32 + 32 ≤ row.length then Digest.piece 32 row c else zeroHash

/-- Fold the sibling row of a leaf into its running hash; a missing result fails the leaf. -/
def absorbSibling (H : Bytes → Hash256) (arity : ℕ) (rowOpt : Option Bytes) (st : LeafState) :
    LeafState :=
  if st.failed then st
  else
    match rowOpt with
    | none => { st with failed := true }
    | some row =>
      let childPos := st.nodeIdx % arity
      let children := (List.range arity).map fun c =>
        if c = childPos then st.currentHash else rowHash row c
      { st with currentHash := computeParentN H children, nodeIdx := st.nodeIdx / arity }

/-- The row a group's result decrypts to; `none` if the batch has no such group. -/
def siblingRowOf (client : PirClient) (params : PirParams) (tree : OnionTreeKind)
    (batch : List Bytes) (g : ℕ) : PirResult (Option Bytes) :=
  match batch[g]? with
  | none => .ok none
  | some response =>
    let rawPt := client.decryptResponse response
    match unpackOnionPlaintext rawPt params.polyDegree params.entrySize with
    | none =>
      .error (.protocol
        s!"onion_unpack rejected {tree.name} sibling plaintext (len={rawPt.length} N={params.polyDegree} es={params.entrySize})")
    | some row => .ok (some row)

section Passes

variable (H : Bytes → Hash256) (env : Environment σ) (client : PirClient) (params : PirParams)
  (tree : OnionTreeKind) (arity k numPt : ℕ)

/-- Fold the results of one pass into its leaves. -/
def foldPass (batch : List Bytes) :
    List (ℕ × ℕ) → List LeafState → PirResult (List LeafState)
  | [], st => .ok st
  | (g, i) :: rest, st =>
    if (st[i]?).any LeafState.failed then foldPass batch rest st
    else do
      let row ← siblingRowOf client params tree batch g
      foldPass batch rest (st.modify i (absorbSibling H arity row))

/-- The queries of a pass: one per group, for a random row where the group has no leaf. -/
def passQueries (groupToItem : List (ℕ × ℕ)) (pass : ℕ) (st : List LeafState) : List Bytes :=
  (List.range k).map fun g =>
    client.generateQuery
      (match groupToItem.lookup g with
      | some i => ((st[i]?).map LeafState.nodeIdx).getD 0 / arity
      | none => env.randomRow pass g % numPt)

/-- The next passes, from pass `pass` on. The received batches are returned with the states. -/
def siblingPasses (byGroup : List (ℕ × List ℕ)) :
    ℕ → ℕ → List LeafState → σ → PirResult (List LeafState × List (List Bytes) × σ)
  | 0, _, st, s => .ok (st, [], s)
  | n + 1, pass, st, s => do
    let groupToItem := passGroupToItem byGroup pass
    let queries := passQueries env client arity k numPt groupToItem pass st
    let (resp, s) ←
      env.roundtrip (encodeSiblingBatchQuery tree.reqSibling 0 queries env.dbId) s
    let context := s!"OnionPIR {tree.name} sibling response"
    let payload ← responsePayload resp tree.respSibling context
    let batch ← decodeSiblingBatchResult payload 0 k context
    let st ← foldPass H client params tree arity batch groupToItem st
    let (st, batches, s) ← siblingPasses byGroup n (pass + 1) st s
    return (st, batch :: batches, s)

end Passes

section Verify

variable (H : Bytes → Hash256) (env : Environment σ) (tree : OnionTreeKind)
  (info : OnionMerkleInfo)

/-- The sibling client of a kind of trees. -/
def siblingClient : PirResult PirClient :=
  let numPt := (info.kind tree).numPt
  match env.pir.fromSecretKey numPt env.clientId env.secretKey with
  | none =>
    .error (.invalidState
      s!"OnionPIR sib Client::from_secret_key returned None (num_pt={numPt}, client_id={env.clientId}, sk_len={env.secretKey.length}). Likely cause: onionpir rev / ACTIVE_CONFIG drift between this binary and the session-master key. Recovery: drop FheState + restart the session.")
  | some client =>
    let params := env.pir.paramsInfo numPt
    if params.entrySize ≠ info.arity * 32 then
      .error (.protocol
        s!"OnionPIR Merkle {tree.name}: sibling DB entry_size {params.entrySize} != arity*32 ({info.arity * 32}) — onionpir rev / build-shape drift")
    else .ok client

def groupsOf (entries : LeafHashes) : List ℕ := entries.map fun e => e.1.1

/-- At least one pass, and as many as the fullest group has leaves. -/
def maxItemsPerGroup (entries : LeafHashes) : ℕ :=
  max (((itemsByGroup (groupsOf entries)).map fun e => e.2.length).max?.getD 0) 1

/-- Walk every entry through its sibling level. -/
def walkSiblings (entries : LeafHashes) (s : σ) :
    PirResult (List LeafState × List (List Bytes) × σ) := do
  let client ← siblingClient env tree info
  siblingPasses H env client (env.pir.paramsInfo (info.kind tree).numPt) tree info.arity
    (info.kind tree).k (info.kind tree).numPt (itemsByGroup (groupsOf entries))
    (maxItemsPerGroup entries) 0 (entries.map startLeaf) s

/-- The tree top of a group: INDEX trees come first. -/
def topIdx (g : ℕ) : ℕ :=
  match tree with
  | .index => g
  | .data => info.index.k + g

/-- Walk the tree top of the leaf's group and compare with its root. -/
def leafVerdict (allTops : List OnionTreeTopCache) (entry : LeafKey × Hash256) (st : LeafState) :
    Bool :=
  if st.failed then false
  else
    match allTops[topIdx tree info entry.1.1]? with
    | none => false
    | some top =>
      walkCachedLevels H info.arity top.levels.dropLast st.currentHash st.nodeIdx =
        (rootOf top).getD zeroHash

def treeTopContext : String := s!"OnionPIR {tree.name} tree-top response"

def verifySubTree (leaves : List OnionMerkleLeaf) (s : σ) :
    PirResult (List (LeafKey × Bool) × σ) := do
  let (blob, allTops, s) ← fetchTreeTops env tree (treeTopContext tree) s
  let entries := env.mapOrder (uniqueLeaves leaves)
  if checkTreeTopAnchor H info blob allTops then
    let (st, _, s) ← walkSiblings H env tree info entries s
    return (entries.zipWith (fun e l => (e.1, leafVerdict H tree info allTops e l)) st, s)
  else return (entries.map fun e => (e.1, false), s)

end Verify

end BitcoinPir.Onion
