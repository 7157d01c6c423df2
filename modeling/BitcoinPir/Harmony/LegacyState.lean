import BitcoinPir.Harmony.HintState

/-!
# The saved state of a group

What `serialize_legacy_state` writes of a group of the vendored client: its parameters, its query
count and relocated segments, the cache of its permutation and all its hints.
`deserialize_legacy_state` reads these back, builds the permutation from the master key and the group
id, and relocates the segments again (`deserializeLegacyState_encode`).

A permutation is not modelled beyond what it is built from (`Prp`).
-/

namespace BitcoinPir.HarmonyClient

open Foundations Reader

inductive PrpBackend
  | hmr12
  | fastPrp
  deriving DecidableEq

def PrpBackend.toByte : PrpBackend → UInt8
  | .hmr12 => 0
  | .fastPrp => 1

/-- `PrpBackend::try_from`, in a build with both backends. -/
def PrpBackend.ofByte (b : UInt8) : Except String PrpBackend :=
  if b = 0 then .ok .hmr12
  else if b = 1 then .ok .fastPrp
  else .error s!"unsupported HarmonyPIR PRP backend: {b}"

/-- A permutation, by what it is built from. -/
structure Prp where
  backend : PrpBackend
  key : Bytes
  domain : ℕ
  cache : Bytes

structure RelocationDs where
  nPrime : ℕ
  t : ℕ
  prp : Prp
  /-- The relocated segments, in order. -/
  hist : List ℕ

def RelocationDs.relocateSegment (ds : RelocationDs) (segment : ℕ) : Except String RelocationDs :=
  if segment < 2 * ds.nPrime / ds.t then .ok { ds with hist := ds.hist ++ [segment] }
  else .error s!"index {segment} out of range (max {2 * ds.nPrime / ds.t - 1})"

/-- A random generator: its seed and how much was drawn from it. -/
structure Rng where
  seed : Bytes
  drawn : ℕ

def makeRngSeed (key : Bytes) (groupId queryCount : ℕ) : Bytes :=
  key ++ leBytes 4 groupId ++ leBytes 4 queryCount ++ List.replicate 8 0

/-- The part of a group that is written. -/
structure GroupState where
  n : UInt32
  w : UInt32
  t : UInt32
  queryCount : UInt32
  backend : PrpBackend
  /-- The table size before padding. -/
  realN : UInt32
  relocatedSegments : List UInt32
  prpCache : Bytes
  hints : List Bytes

structure RemoteClient extends GroupState where
  ds : RelocationDs
  rng : Rng
  inFlight : InFlight

namespace GroupState

/-- The number of segments. -/
def m (s : GroupState) : ℕ := 2 * s.n.toNat / s.t.toNat

def maxQueries (s : GroupState) : ℕ := s.m / 2

def encode (s : GroupState) : Bytes :=
  leBytes 4 s.n.toNat ++ (leBytes 4 s.w.toNat ++ (leBytes 4 s.t.toNat ++
    (leBytes 4 s.queryCount.toNat ++ ([s.backend.toByte] ++ (leBytes 4 s.realN.toNat ++
    (leBytes 4 s.relocatedSegments.length ++
    (s.relocatedSegments.flatMap (fun segment => leBytes 4 segment.toNat) ++
    (leBytes 4 s.prpCache.length ++ (s.prpCache ++ s.hints.flatMap id)))))))))

end GroupState

def RemoteClient.serializeLegacyState (c : RemoteClient) : Except String Bytes :=
  if c.inFlight = .idle then .ok c.toGroupState.encode
  else .error "serialize_legacy_state called while another query operation is in flight"

/-! ### Reading -/

/-- A field of `len` of the `total` bytes, read with the error for its end. -/
def stateField {α : Type} (total len : ℕ) (field : String) (read : String → Reader String α) :
    Reader String α := fun b =>
  read (s!"serialized state truncated while reading {field}: " ++
    s!"need {total - b.length + len}, have {total}") b

/-- The checks of `Params::new`. -/
def newParams (n w t : UInt32) : Except String Unit := do
  require (n ≠ 0) "invalid parameters: N must be > 0"
  require (w ≠ 0) "invalid parameters: w must be > 0"
  require (t ≠ 0) "invalid parameters: T must be > 0"
  require (2 * n.toNat % t.toNat = 0) "invalid parameters: T must divide 2N evenly"

def readGroupState (total : ℕ) : Reader String GroupState := do
  let n ← stateField total 4 "padded_n" takeU32
  let w ← stateField total 4 "w" takeU32
  let t ← stateField total 4 "t" takeU32
  let queryCount ← stateField total 4 "query_count" takeU32
  let backendByte ← stateField total 1 "prp_backend" takeU8
  let backend ← lift (PrpBackend.ofByte backendByte)
  let realN ← stateField total 4 "real_n" takeU32
  let count ← stateField total 4 "relocated_count" takeU32
  let relocatedSegments ← stateField total (4 * count.toNat) "relocated segments" fun e =>
    many (takeU32 e) count.toNat
  let cacheLen ← stateField total 4 "cache_len" takeU32
  let prpCache ← stateField total cacheLen.toNat "PRP cache" (take cacheLen.toNat)
  lift ((newParams n w t).mapError fun e => s!"invalid serialized params: {e}")
  ensure (realN ≠ 0 ∧ realN ≤ n) s!"serialized real_n {realN} is outside 1..={n}"
  let m := 2 * n.toNat / t.toNat
  ensure (queryCount.toNat ≤ m / 2 ∧ count = queryCount)
    (s!"serialized query/relocation count mismatch: queries={queryCount}, " ++
      s!"relocations={count}")
  ensure (m * w.toNat < 2 ^ 64) "serialized hint length overflow"
  let hints ← stateField total (m * w.toNat) "hints" fun e => many (take w.toNat e) m
  return ⟨n, w, t, queryCount, backend, realN, relocatedSegments, prpCache, hints⟩

namespace GroupState

/-- A group as it is rebuilt under a key and an id, with a new random generator. -/
def restored (s : GroupState) (masterKey : PrpKey) (groupId : ℕ) : RemoteClient where
  toGroupState := s
  ds :=
    { nPrime := s.n.toNat
      t := s.t.toNat
      prp := ⟨s.backend, deriveGroupKey masterKey groupId, 2 * s.n.toNat, s.prpCache⟩
      hist := s.relocatedSegments.map UInt32.toNat }
  rng := ⟨makeRngSeed (deriveGroupKey masterKey groupId) groupId s.queryCount.toNat, 0⟩
  inFlight := .idle

/-- The permutation is built and the relocations are made again, one by one. -/
def restore (s : GroupState) (masterKey : PrpKey) (groupId : ℕ) : Except String RemoteClient := do
  let ds ← s.relocatedSegments.foldlM (fun ds segment =>
      (ds.relocateSegment segment.toNat).mapError fun e => s!"replay relocation failed: {e}")
    { (s.restored masterKey groupId).ds with hist := [] }
  return { s.restored masterKey groupId with ds }

end GroupState

def deserializeLegacyState (data : Bytes) (masterKey : PrpKey) (groupId : ℕ) :
    Except String RemoteClient := do
  require (29 ≤ data.length) "serialized state is too short"
  let (s, rest) ← readGroupState data.length data
  require (rest = []) s!"serialized state has {rest.length} trailing bytes"
  s.restore masterKey groupId

/-! ### The round trip -/

theorem reads_stateField {α : Type} {total len : ℕ} {field : String}
    {read : String → Reader String α} {bs : Bytes} {a : α} (h : ∀ e, Reads (read e) bs a) :
    Reads (stateField total len field read) bs a :=
  fun rest => h _ rest

/-- Segments of the table can be relocated again in their order. -/
theorem foldlM_relocateSegment {ds : RelocationDs} {segments : List UInt32}
    (h : ∀ segment ∈ segments, segment.toNat < 2 * ds.nPrime / ds.t) :
    segments.foldlM (fun ds segment => (ds.relocateSegment segment.toNat).mapError fun e =>
      s!"replay relocation failed: {e}") ds =
        .ok { ds with hist := ds.hist ++ segments.map UInt32.toNat } := by
  induction segments generalizing ds with
  | nil =>
    rw [List.map_nil, List.append_nil]
    rfl
  | cons segment segments ih =>
    rw [List.foldlM_cons, RelocationDs.relocateSegment, if_pos (h segment List.mem_cons_self)]
    refine Eq.trans (ih fun x hx => h x (List.mem_cons_of_mem _ hx)) ?_
    rw [List.append_assoc]
    rfl

namespace GroupState

/-- The states of groups that can be read back: valid parameters, as many relocations as queries, one
hint of `w` bytes for every segment. -/
@[mk_iff]
structure Valid (s : GroupState) : Prop where
  params : newParams s.n s.w s.t = .ok ()
  realN : s.realN ≠ 0 ∧ s.realN ≤ s.n
  queries : s.queryCount.toNat ≤ s.maxQueries
  log : s.relocatedSegments.length = s.queryCount.toNat
  segments : ∀ segment ∈ s.relocatedSegments.map UInt32.toNat, segment < s.m
  hints : s.hints.length = s.m
  rows : ∀ hint ∈ s.hints, hint.length = s.w.toNat
  short : s.encode.length < 2 ^ 32

instance (s : GroupState) : Decidable s.Valid := decidable_of_iff _ (valid_iff s).symm

variable {s : GroupState}

theorem Valid.fields_short (h : s.Valid) : s.prpCache.length < 2 ^ 32 ∧ s.m * s.w.toNat < 2 ^ 64 ∧
    29 ≤ s.encode.length := by
  have hshort := h.short
  have hlen : (s.hints.flatMap id).length = s.m * s.w.toNat := by
    rw [length_flatMap_const (f := id) h.rows, h.hints]
  simp only [encode, List.length_append, length_leBytes, List.length_singleton, hlen] at hshort ⊢
  omega

theorem Valid.reads (h : s.Valid) (total : ℕ) : Reads (readGroupState total) s.encode s := by
  have hlog : UInt32.ofNat s.relocatedSegments.length = s.queryCount := by
    rw [h.log, UInt32.ofNat_toNat]
  have hcount : (UInt32.ofNat s.relocatedSegments.length).toNat = s.relocatedSegments.length := by
    rw [hlog, h.log]
  obtain ⟨hcache, hoverflow, -⟩ := h.fields_short
  have hcacheLen := UInt32.toNat_ofNat_of_lt' hcache
  have hbackend : PrpBackend.ofByte s.backend.toByte = .ok s.backend := by cases s.backend <;> rfl
  have hsegments : ∀ e : String, Reads (many (takeU32 e) s.relocatedSegments.length)
      (s.relocatedSegments.flatMap fun segment => leBytes 4 segment.toNat) s.relocatedSegments :=
    fun e => reads_many fun segment _ => reads_takeU32 segment e
  have hhints : ∀ e : String, Reads (many (take s.w.toNat e) s.m) (s.hints.flatMap id) s.hints := by
    intro e
    rw [← h.hints]
    exact reads_many fun hint hmem => reads_take (h.rows hint hmem) e
  refine (reads_stateField (reads_takeU32 s.n)).bind ((reads_stateField (reads_takeU32 s.w)).bind
    ((reads_stateField (reads_takeU32 s.t)).bind ((reads_stateField
    (reads_takeU32 s.queryCount)).bind ((reads_stateField (reads_takeU8 _)).bind
    ((reads_lift hbackend).check
    ((reads_stateField (reads_takeU32 s.realN)).bind ((reads_stateField
    (reads_countU32 (h.log ▸ s.queryCount.toNat_lt))).bind ?_)))))))
  rw [hcount]
  refine (reads_stateField hsegments).bind ((reads_stateField (reads_countU32 hcache)).bind ?_)
  rw [hcacheLen]
  refine (reads_stateField (reads_take rfl)).bind ((reads_lift (a := ()) ?_).check
    ((reads_ensure h.realN _).check ((reads_ensure ⟨h.queries, hlog⟩ _).check
    ((reads_ensure hoverflow _).check ((reads_stateField hhints).map _)))))
  rw [h.params]
  rfl

theorem Valid.restore_eq (h : s.Valid) (masterKey : PrpKey) (groupId : ℕ) :
    s.restore masterKey groupId = .ok (s.restored masterKey groupId) :=
  bind_eq_ok.2 ⟨_, foldlM_relocateSegment fun _ hmem => h.segments _ (List.mem_map_of_mem hmem), rfl⟩

/-- **A group is read back as it was written**, under any key and id. -/
theorem Valid.deserializeLegacyState_encode (h : s.Valid) (masterKey : PrpKey) (groupId : ℕ) :
    deserializeLegacyState s.encode masterKey groupId = .ok (s.restored masterKey groupId) := by
  have hread := h.reads s.encode.length []
  rw [List.append_nil] at hread
  rw [deserializeLegacyState, require_of h.fields_short.2.2, hread]
  exact h.restore_eq masterKey groupId

end GroupState

/-! ### The groups of a run -/

/-- The group as its requests depend on it. -/
def RemoteClient.toGroup (c : RemoteClient) (groupId : ℕ) : HarmonyGroup :=
  ⟨⟨c.ds.prp.key, groupId, c.realN.toNat, c.ds.hist, c.queryCount.toNat⟩, c.inFlight⟩

def GroupState.saved (s : GroupState) : SavedGroup :=
  ⟨s.realN.toNat, s.relocatedSegments.map UInt32.toNat, s.queryCount.toNat⟩

/-- In the runs of a client the same group is restored. -/
theorem GroupState.Valid.deserializeGroup_saved {s : GroupState} (h : s.Valid)
    {maxQueries : ℕ → ℕ} (hmax : maxQueries s.realN.toNat = s.maxQueries) (key : PrpKey)
    (l : Layout) (slot : Slot) :
    deserializeGroup deriveGroupKey maxQueries key l slot s.saved =
      .ok ((s.restored key (slot.groupId l)).toGroup (slot.groupId l)) := by
  have hpos : s.realN.toNat ≠ 0 := fun hzero => h.realN.1 (UInt32.toNat_inj.1 hzero)
  have hrestorable : s.saved.Restorable maxQueries :=
    ⟨hpos, hmax ▸ h.queries, (List.length_map _).trans h.log⟩
  rw [deserializeGroup, if_pos hrestorable]
  rfl

end BitcoinPir.HarmonyClient
