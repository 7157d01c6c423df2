import BitcoinPir.Oram.Lookup
import BitcoinPir.Foundations.Lists

/-!
# Direct ORAM requests have one shape

What the host sees of a request is how often each ORAM is accessed and how long the response is.
A request none of whose calls fails (`Undisturbed`) makes `hash_fns` INDEX accesses for each slot and
as many CHUNK accesses as the budget leaves, whatever it asks for and whatever it finds; successful
responses have one length in any case (`requests_have_one_shape`). Nothing is assumed of calls that
the request does not make: an ORAM may fail in other states or at other batches. A record outside
the CHUNK table is different: the request is given up before any CHUNK access.
-/

namespace BitcoinPir.DirectOram

open Foundations Meter

theorem TableState.checkNotPoisoned_of_none {σ : Type} {s : TableState σ}
    (h : s.poisoned = none) (label : String) : s.checkNotPoisoned label = .ok () := by
  unfold checkNotPoisoned
  rw [h]

/-! ## INDEX reads -/

section Index

variable {σ : Type} {t : IndexTable}

theorem IndexTable.length_blockIds (t : IndexTable) (scriptHashes : List ScriptHash) :
    (t.blockIds scriptHashes).length = t.hashFns * scriptHashes.length := by
  rw [blockIds, List.length_map, length_flatMap_const fun scriptHash _ =>
    t.length_candidateBins scriptHash, Nat.mul_comm]

theorem IndexTable.length_of_selectLookups {scriptHashes : List ScriptHash} {blocks : List Bytes}
    {lookups : List IndexLookup} (h : t.selectLookups scriptHashes blocks = .ok lookups) :
    lookups.length = scriptHashes.length := by
  induction scriptHashes generalizing blocks lookups with
  | nil =>
    cases h
    rfl
  | cons scriptHash scriptHashes ih =>
    simp only [selectLookups, bind_eq_ok, return_eq_ok] at h
    obtain ⟨lookup, -, rest, hrest, rfl⟩ := h
    rw [List.length_cons, ih hrest, List.length_cons]

/-- A batch of INDEX lookups makes `hash_fns` accesses for each script hash. -/
theorem IndexTable.lookupMany_eq_ok {oram : Oram σ} {scriptHashes : List ScriptHash}
    {s s' : TableState σ} {lookups : List IndexLookup}
    (h : t.lookupMany oram scriptHashes s = (.ok lookups, s')) :
    lookups.length = scriptHashes.length ∧
      s'.accesses = s.accesses + t.hashFns * scriptHashes.length := by
  unfold lookupMany at h
  split_ifs at h with hempty
  · cases h
    simp [hempty]
  split at h
  · cases h
  split at h
  next found after hbatched =>
    cases h
    unfold lookupManyBatched at hbatched
    dsimp only at hbatched
    split at hbatched
    · cases hbatched
    split at hbatched
    · cases hbatched
    next hselect =>
      split at hbatched
      · cases hbatched
      · cases hbatched
        exact ⟨length_of_selectLookups hselect, by rw [t.length_blockIds]⟩
  · cases h

end Index

/-! ## CHUNK reads -/

section Chunk

variable {τ : Type} {t : ChunkTable} {oram : Oram τ} {s s' : TableState τ}

/-- A batch of chunks is read with one access for each. -/
theorem ChunkTable.readChunks_eq_ok {chunkIds : List ℕ} {payloads : List Bytes}
    (h : t.readChunks oram chunkIds s = (.ok payloads, s')) :
    s'.accesses = s.accesses + chunkIds.length := by
  unfold readChunks at h
  split_ifs at h with hempty
  · cases h
    simp [hempty]
  split at h
  · cases h
  split at h
  · cases h
  next found after hbatched =>
    split_ifs at h
    · cases h
      unfold readChunksBatched at hbatched
      split at hbatched
      · cases hbatched
      split at hbatched
      · cases hbatched
      dsimp only at hbatched
      split at hbatched
      · cases hbatched
      · cases hbatched
        rfl
    · cases h

theorem ChunkTable.readDummyMany_eq_ok {count : ℕ}
    (h : t.readDummyMany oram count s = (.ok (), s')) : s'.accesses = s.accesses + count := by
  unfold readDummyMany at h
  split_ifs at h with hcount
  · cases h
    simp [hcount]
  · cases h
  split at h
  · cases h
  split at h
  · cases h
  dsimp only at h
  split at h
  · cases h
  · cases h
    rfl

end Chunk

/-! ## The end of a request -/

section Finish

variable {σ τ α : Type} (t : Tables) (indexOram : Oram σ) (chunkOram : Oram τ)

theorem TableState.accesses_abortRequest (s : TableState σ) (label : String) :
    (s.abortRequest label).accesses = s.accesses := by
  unfold abortRequest
  split_ifs <;> rfl

theorem TableState.accesses_finishRequest (oram : Oram σ) (label : String) (saveState : Bool)
    (s : TableState σ) : (s.finishRequest oram label saveState).2.accesses = s.accesses := by
  unfold finishRequest
  split
  · rfl
  · split_ifs
    · rfl
    · rfl
    · split <;> rfl

/-- Ending a request makes no access. -/
theorem accesses_finishBoth (result : Except String α) (s : State σ τ) :
    (finishBoth t indexOram chunkOram result s).2.index.accesses = s.index.accesses ∧
      (finishBoth t indexOram chunkOram result s).2.chunk.accesses = s.chunk.accesses := by
  have hindex := TableState.accesses_finishRequest indexOram "index" t.index.saveState s.index
  have hchunk := TableState.accesses_finishRequest chunkOram "chunk" t.chunk.saveState s.chunk
  unfold finishBoth
  rcases hi : s.index.finishRequest indexOram "index" t.index.saveState with ⟨e | _, index⟩
  · rw [hi] at hindex
    exact ⟨hindex, TableState.accesses_abortRequest _ _⟩
  · rw [hi] at hindex
    rcases hc : s.chunk.finishRequest chunkOram "chunk" t.chunk.saveState with ⟨e | _, chunk⟩
    · rw [hc] at hchunk
      exact ⟨hindex, hchunk⟩
    · rw [hc] at hchunk
      exact ⟨hindex, hchunk⟩

end Finish

/-! ## The accesses of a request -/

/-- The CHUNK calls of a request succeed: the dummy reads of a demand over the budget, or the reads
of the chunks asked for and of dummies for the rest. -/
def ChunkTable.CallsSucceed {τ : Type} (t : ChunkTable) (oram : Oram τ) (budget : ℕ)
    (chunkIds : List ℕ) (s : TableState τ) : Prop :=
  if budget < chunkIds.length then ∃ s', t.readDummyMany oram budget s = (.ok (), s')
  else ∃ payloads s₁ s₂, t.readChunks oram chunkIds s = (.ok payloads, s₁) ∧
    t.readDummyMany oram (budget - chunkIds.length) s₁ = (.ok (), s₂)

/-- The budgets are accepted for a number of slots. -/
def Tables.Affords (t : Tables) (slots : ℕ) : Prop :=
  t.index.hashFns * slots < 2 ^ 64 ∧ t.index.hashFns * slots ≤ t.accessBudget

instance (t : Tables) (slots : ℕ) : Decidable (t.Affords slots) :=
  inferInstanceAs (Decidable (_ ∧ _))

section Request

variable {σ τ : Type} (t : Tables) (indexOram : Oram σ) (chunkOram : Oram τ)

/-- The tables are usable and, in this state, every call that the request makes on them succeeds. A
record whose chunks lie outside the CHUNK table makes the read of its chunks fail. -/
structure Undisturbed (query : OramLookupRequest) (s : State σ τ) : Prop where
  length_slotPresent : query.slotPresent.length = query.scriptHashes.length
  index_usable : s.index.poisoned = none
  chunk_usable : s.chunk.poisoned = none
  calls : t.Affords query.scriptHashes.length → ∃ lookups index slots,
    t.index.lookupMany indexOram query.scriptHashes s.index = (.ok lookups, index) ∧
      ((lookups.zip query.slotPresent).mapM fun slot => planSlot slot.1 slot.2) = .ok slots ∧
      t.chunk.CallsSucceed chunkOram
        (t.accessBudget - t.index.hashFns * query.scriptHashes.length) (slots.flatMap Prod.snd)
        s.chunk

variable {t indexOram chunkOram}

variable (indexOram) in
/-- Whatever the slots ask for, the CHUNK half of a request uses the whole budget. -/
theorem readPlanned_accesses {budget : ℕ} {slots : PlannedSlots}
    {s : State σ τ}
    (h : t.chunk.CallsSucceed chunkOram budget (slots.flatMap Prod.snd) s.chunk) :
    (readPlanned t indexOram chunkOram budget slots s).2.index.accesses = s.index.accesses ∧
      (readPlanned t indexOram chunkOram budget slots s).2.chunk.accesses =
        s.chunk.accesses + budget := by
  unfold readPlanned
  unfold ChunkTable.CallsSucceed at h
  dsimp only
  split_ifs at h ⊢ with hover
  · obtain ⟨chunk, hdummy⟩ := h
    rw [hdummy]
    obtain ⟨hi, hc⟩ := accesses_finishBoth t indexOram chunkOram
      (.error (s!"direct ORAM chunk demand {(slots.flatMap Prod.snd).length} " ++
        s!"exceeds remaining access budget {budget}") : Except String (List NativeLookupResult))
      { s with chunk }
    exact ⟨hi, hc.trans (ChunkTable.readDummyMany_eq_ok hdummy)⟩
  · obtain ⟨payloads, chunk, chunk', hread, hdummy⟩ := h
    rw [hread]
    dsimp only
    rw [hdummy]
    obtain ⟨hi, hc⟩ := accesses_finishBoth t indexOram chunkOram
      (.ok (fillResults slots payloads)) { s with chunk := chunk' }
    refine ⟨hi, hc.trans ?_⟩
    -- Real and dummy reads add up to the budget.
    have hreads := ChunkTable.readChunks_eq_ok hread
    have hdummies := ChunkTable.readDummyMany_eq_ok hdummy
    dsimp only
    omega

/-- The INDEX and CHUNK accesses of a request with a number of slots. -/
def Tables.shape (t : Tables) (slots : ℕ) : ℕ × ℕ :=
  if t.Affords slots then (t.index.hashFns * slots, t.accessBudget - t.index.hashFns * slots)
  else (0, 0)

/-- The accesses of a request depend on its number of slots only. -/
theorem Undisturbed.accesses {query : OramLookupRequest} {s : State σ τ}
    (h : Undisturbed t indexOram chunkOram query s) :
    let after := (directNativeLookupSlots t indexOram chunkOram query.scriptHashes
      query.slotPresent s).2
    after.index.accesses = s.index.accesses + (t.shape query.scriptHashes.length).1 ∧
      after.chunk.accesses = s.chunk.accesses + (t.shape query.scriptHashes.length).2 := by
  unfold directNativeLookupSlots Tables.shape
  rw [if_neg (not_not.2 h.length_slotPresent)]
  by_cases hoverflow : 2 ^ 64 ≤ t.index.hashFns * query.scriptHashes.length
  · rw [if_pos hoverflow, if_neg fun haff => absurd haff.1 (by omega)]
    exact ⟨rfl, rfl⟩
  rw [if_neg hoverflow]
  by_cases hbudget : t.accessBudget < t.index.hashFns * query.scriptHashes.length
  · rw [if_pos hbudget, if_neg fun haff => absurd haff.2 (by omega)]
    exact ⟨rfl, rfl⟩
  have haff : t.Affords query.scriptHashes.length := ⟨by omega, by omega⟩
  obtain ⟨lookups, index, slots, hlookup, hslots, hchunk⟩ := h.calls haff
  obtain ⟨hlen, haccesses⟩ := IndexTable.lookupMany_eq_ok hlookup
  rw [if_neg hbudget, if_pos haff, TableState.checkNotPoisoned_of_none h.index_usable,
    TableState.checkNotPoisoned_of_none h.chunk_usable, hlookup]
  dsimp only
  rw [if_neg (not_not.2 hlen), hslots]
  have hplanned := readPlanned_accesses indexOram (s := { s with index }) hchunk
  exact ⟨hplanned.1.trans haccesses, hplanned.2⟩

end Request

/-! ## The length of a response -/

section Response

variable {σ τ : Type} {t : Tables} {indexOram : Oram σ} {chunkOram : Oram τ} {s s' : State σ τ}

theorem length_fillResults (slots : PlannedSlots) (payloads : List Bytes) :
    (fillResults slots payloads).length = slots.length := by
  induction slots generalizing payloads with
  | nil => rfl
  | cons slot slots ih => rw [fillResults, List.length_cons, ih, List.length_cons]

theorem finishBoth_eq_ok {α : Type} {result : Except String α} {a : α}
    (h : finishBoth t indexOram chunkOram result s = (.ok a, s')) : result = .ok a := by
  unfold finishBoth at h
  split at h
  · cases h
  · split at h
    · cases h
    · exact (Prod.mk.inj h).1

theorem readPlanned_eq_ok {budget : ℕ} {slots : PlannedSlots}
    {results : List NativeLookupResult}
    (h : readPlanned t indexOram chunkOram budget slots s = (.ok results, s')) :
    results.length = slots.length := by
  unfold readPlanned at h
  dsimp only at h
  split_ifs at h
  · split at h
    · cases h
    · cases finishBoth_eq_ok h
  · split at h
    · cases h
    · split at h
      · cases h
      · cases finishBoth_eq_ok h
        exact length_fillResults _ _

/-- A successful lookup has a result for every slot. -/
theorem directNativeLookupSlots_eq_ok {scriptHashes : List ScriptHash} {slotPresent : List Bool}
    {results : List NativeLookupResult}
    (h : directNativeLookupSlots t indexOram chunkOram scriptHashes slotPresent s =
      (.ok results, s')) : results.length = scriptHashes.length := by
  unfold directNativeLookupSlots at h
  dsimp only at h
  split_ifs at h with hpresent
  · cases h
  · cases h
  · cases h
  split at h
  · cases h
  · cases h
  split at h
  · cases h
  split_ifs at h with hlookups
  · cases h
  split at h
  · cases h
  next slots hslots =>
    have hforall := (mapM_eq_ok.1 hslots).length_eq
    rw [List.length_zip] at hforall
    rw [readPlanned_eq_ok h]
    omega

theorem OramLookupItem.length_encode (item : OramLookupItem) :
    item.encode.length = 10 + item.rawChunkData.length := by
  unfold encode
  simp only [List.length_append, List.length_singleton, length_leBytes]

theorem length_flatMap_encode (results : List NativeLookupResult) :
    ((results.map NativeLookupResult.toItem).flatMap OramLookupItem.encode).length =
      10 * results.length + (results.map fun result => result.rawChunkData.length).sum := by
  induction results with
  | nil => rfl
  | cons result results ih =>
    rw [List.map_cons, List.flatMap_cons, List.length_append, ih, OramLookupItem.length_encode,
      List.map_cons, List.sum_cons, List.length_cons, NativeLookupResult.toItem]
    dsimp only
    omega

/-- The padding makes up for the chunks that are not there. -/
theorem length_encodeOramLookupResult {query : OramLookupRequest} {r : OramLookupResult}
    (h : handleOramLookup t indexOram chunkOram query s = (.ok r, s')) :
    (encodeOramLookupResult r).length = 3 + 10 * query.scriptHashes.length +
      (t.accessBudget - t.index.hashFns * query.scriptHashes.length) * directChunkRecordSize := by
  unfold handleOramLookup at h
  split at h
  · cases h
  next lookup after hlookup =>
    dsimp only at h
    split_ifs at h
    · cases h
    split at h
    · cases h
    next padding hpadding =>
      cases h
      have hlen := directNativeLookupSlots_eq_ok hlookup
      unfold directOramResponsePaddingBytes at hpadding
      dsimp only at hpadding
      split_ifs at hpadding with _ _ _ hfits
      cases hpadding
      unfold encodeOramLookupResult
      simp only [List.length_append, List.length_singleton, length_leBytes, length_flatMap_encode,
        List.length_replicate]
      omega

end Response

/-! ## Two requests -/

section Shape

variable {σ τ : Type} (t : Tables) (indexOram : Oram σ) (chunkOram : Oram τ)

/-- The INDEX and CHUNK accesses a request makes. -/
def accessCounts (query : OramLookupRequest) (s : State σ τ) : ℕ × ℕ :=
  let after := (directNativeLookupSlots t indexOram chunkOram query.scriptHashes
    query.slotPresent s).2
  (after.index.accesses - s.index.accesses, after.chunk.accesses - s.chunk.accesses)

/-- **One shape.** Two requests with the same number of slots against the same tables, in whatever
states, make the same INDEX and the same CHUNK accesses if none of their calls fails, over-budget
requests included; and any two successful responses have the same length. -/
theorem requests_have_one_shape (query query' : OramLookupRequest) (s s' : State σ τ)
    (hsame : query.scriptHashes.length = query'.scriptHashes.length) :
    (Undisturbed t indexOram chunkOram query s → Undisturbed t indexOram chunkOram query' s' →
      accessCounts t indexOram chunkOram query s = t.shape query.scriptHashes.length ∧
        accessCounts t indexOram chunkOram query s =
          accessCounts t indexOram chunkOram query' s') ∧
      ∀ r r' after after', handleOramLookup t indexOram chunkOram query s = (.ok r, after) →
        handleOramLookup t indexOram chunkOram query' s' = (.ok r', after') →
        (encodeOramLookupResult r).length = (encodeOramLookupResult r').length := by
  constructor
  · intro h h'
    have hcounts : ∀ {query s}, Undisturbed t indexOram chunkOram query s →
        accessCounts t indexOram chunkOram query s = t.shape query.scriptHashes.length := by
      intro query s h
      obtain ⟨hindex, hchunk⟩ := h.accesses
      unfold accessCounts
      dsimp only
      rw [hindex, hchunk, Nat.add_sub_cancel_left, Nat.add_sub_cancel_left]
    exact ⟨hcounts h, by rw [hcounts h, hcounts h', hsame]⟩
  · intro r r' after after' hr hr'
    rw [length_encodeOramLookupResult hr, length_encodeOramLookupResult hr', hsame]

end Shape

/-! ## A table of one record -/

/-- An ORAM that serves fixed contents and never fails. -/
def fixedOram (content : ℕ → Bytes) : Oram Unit where
  readBatch _ ids := (.ok (ids.map content), ())
  dummyAccessBatch _ _ := (.ok (), ())
  drainEvictions _ count := (.ok count, ())
  persist _ := (.ok (), ())

/-- The script hash of the record is all zeros; its only chunk is `start`. -/
def oneRecord (start : UInt8) (_ : ℕ) : Bytes :=
  [1] ++ List.replicate 20 0 ++ [start, 0, 0, 0] ++ [1]

def oneChunk (_ : ℕ) : Bytes := List.replicate 40 7

/-- One INDEX bin with one slot, one chunk and a budget of three accesses. -/
def oneTables : Tables where
  index :=
    { hashFns := 1, slotsPerBin := 1, totalItems := 1, itemsPerBlock := 1, drainPerAccess := 2
      saveState := false, candidateBins := fun _ => [0], length_candidateBins := fun _ => rfl
      candidateBins_lt := fun _ bin h => by rw [List.mem_singleton.1 h]; exact Nat.one_pos }
  chunk := { totalChunks := 1, itemsPerBlock := 1, drainPerAccess := 2, saveState := false }
  accessBudget := 3

def freshState : State Unit Unit where
  index := { oram := (), poisoned := none, dirty := false, accesses := 0 }
  chunk := { oram := (), poisoned := none, dirty := false, accesses := 0 }

/-- A lookup of the hash of the record. -/
def knownQuery : OramLookupRequest := ⟨0, [Digest.zero scriptHashSize], [true]⟩

/-- A lookup of a hash without a record. -/
def unknownQuery : OramLookupRequest := ⟨0, [⟨List.replicate 20 4, rfl⟩], [true]⟩

/-- An ORAM whose controller makes a number of path accesses and then fails. -/
def finiteOram (content : ℕ → Bytes) : Oram ℕ where
  readBatch left ids :=
    if ids.length ≤ left then (.ok (ids.map content), left - ids.length)
    else (.error "logical access counter overflow", left)
  dummyAccessBatch left count :=
    if count ≤ left then (.ok (), left - count)
    else (.error "logical access counter overflow", left)
  drainEvictions left count := (.ok count, left)
  persist left := (.ok (), left)

/-- The ORAMs have one INDEX access and two CHUNK accesses left. -/
def lastAccesses : State ℕ ℕ where
  index := { oram := 1, poisoned := none, dirty := false, accesses := 0 }
  chunk := { oram := 2, poisoned := none, dirty := false, accesses := 0 }

/-- The ORAMs serve either request, and fail in the states after it. -/
theorem requests_have_one_shape_lastAccesses :
    (accessCounts oneTables (finiteOram (oneRecord 0)) (finiteOram oneChunk) knownQuery
        lastAccesses = (1, 2) ∧
      accessCounts oneTables (finiteOram (oneRecord 0)) (finiteOram oneChunk) knownQuery
          lastAccesses =
        accessCounts oneTables (finiteOram (oneRecord 0)) (finiteOram oneChunk) unknownQuery
          lastAccesses) ∧
      ∀ r r' after after',
        handleOramLookup oneTables (finiteOram (oneRecord 0)) (finiteOram oneChunk) knownQuery
          lastAccesses = (.ok r, after) →
        handleOramLookup oneTables (finiteOram (oneRecord 0)) (finiteOram oneChunk) unknownQuery
          lastAccesses = (.ok r', after') →
        (encodeOramLookupResult r).length = (encodeOramLookupResult r').length := by
  have h := requests_have_one_shape oneTables (finiteOram (oneRecord 0)) (finiteOram oneChunk)
    knownQuery unknownQuery lastAccesses lastAccesses rfl
  exact ⟨h.1 ⟨rfl, rfl, rfl, fun _ => ⟨_, _, _, rfl, rfl, _, _, _, rfl, rfl⟩⟩
    ⟨rfl, rfl, rfl, fun _ => ⟨_, _, _, rfl, rfl, _, _, _, rfl, rfl⟩⟩, h.2⟩

/-- A record whose chunk lies outside the CHUNK table gives its script hash away: the request is
given up before any CHUNK access. -/
theorem stray_record_shows :
    accessCounts oneTables (fixedOram (oneRecord 5)) (fixedOram oneChunk) knownQuery freshState =
        (1, 0) ∧
      accessCounts oneTables (fixedOram (oneRecord 5)) (fixedOram oneChunk) unknownQuery
        freshState = (1, 2) := by
  decide +kernel

end BitcoinPir.DirectOram
