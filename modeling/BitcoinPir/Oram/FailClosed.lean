import BitcoinPir.Oram.Shape

/-!
# Direct ORAM fails closed

A request touches two ORAMs and then commits both. An error between the first access and the second
commit would leave the pair in a state no request may use. Here every such error either comes after
both tables have committed or leaves a poisoned table, and a poisoned table stops every later request
before it touches an ORAM (`lookup_fails_closed`).

Whether an ORAM is touched is read off a log of the calls its controller gets (`Oram.logged`); the
model is the same for every controller.
-/

namespace BitcoinPir.DirectOram

open Foundations Meter

/-! ## Calls of the controllers -/

/-- A call of an ORAM controller. -/
inductive Call
  | readBatch (ids : List ℕ)
  | dummyAccessBatch (count : ℕ)
  | drainEvictions (count : ℕ)
  | persist
  deriving DecidableEq

/-- The controller with a log of the calls it gets. -/
def Oram.logged {σ : Type} (oram : Oram σ) : Oram (σ × List Call) where
  readBatch s ids :=
    let r := oram.readBatch s.1 ids
    (r.1, (r.2, s.2 ++ [.readBatch ids]))
  dummyAccessBatch s count :=
    let r := oram.dummyAccessBatch s.1 count
    (r.1, (r.2, s.2 ++ [.dummyAccessBatch count]))
  drainEvictions s count :=
    let r := oram.drainEvictions s.1 count
    (r.1, (r.2, s.2 ++ [.drainEvictions count]))
  persist s :=
    let r := oram.persist s.1
    (r.1, (r.2, s.2 ++ [.persist]))

/-! ## What a step leaves behind -/

section Tables

variable {σ : Type} {s s' s'' : TableState σ}

namespace TableState

/-- The table is as it was, or marked as touched, or poisoned. -/
def Attended (s s' : TableState σ) : Prop :=
  s' = s ∨ s'.dirty = true ∨ s'.poisoned.isSome = true

theorem Attended.trans (h : s.Attended s') (h' : s'.Attended s'') : s.Attended s'' := by
  rcases h' with rfl | h'
  · exact h
  · exact .inr h'

theorem isSome_poison (s : TableState σ) (why : String) : (s.poison why).poisoned.isSome = true := by
  cases h : s.poisoned with
  | none => simp [poison, h]
  | some why' => simp [poison, h]

theorem isSome_of_checkNotPoisoned {label e : String} (h : s.checkNotPoisoned label = .error e) :
    s.poisoned.isSome = true := by
  cases hp : s.poisoned with
  | none => rw [checkNotPoisoned, hp] at h; cases h
  | some why => rfl

theorem exists_checkNotPoisoned (h : s.poisoned.isSome = true) (label : String) :
    ∃ e, s.checkNotPoisoned label = .error e := by
  obtain ⟨why, hwhy⟩ := Option.isSome_iff_exists.1 h
  exact ⟨_, by rw [checkNotPoisoned, hwhy]⟩

/-- A table given up is poisoned, or was never touched. -/
theorem Attended.abortRequest (h : s.Attended s') (label : String) :
    (s'.abortRequest label).poisoned.isSome = true ∨ s'.abortRequest label = s := by
  rw [TableState.abortRequest]
  split_ifs with hdirty
  · exact .inl (isSome_poison _ _)
  · rcases h with rfl | h | h
    · exact .inr rfl
    · exact absurd h hdirty
    · exact .inl h

/-- A commit that fails poisons its table. -/
theorem isSome_of_finishRequest {oram : Oram σ} {label e : String} {saveState : Bool}
    (h : s.finishRequest oram label saveState = (.error e, s')) : s'.poisoned.isSome = true := by
  rw [finishRequest] at h
  split at h
  · next hcheck =>
    cases h
    exact isSome_of_checkNotPoisoned hcheck
  · split_ifs at h
    · cases h
    · cases h
    · split at h
      · cases h
        exact isSome_poison _ _
      · cases h

end TableState

theorem IndexTable.dirty_lookupManyBatched (t : IndexTable) (oram : Oram σ)
    (scriptHashes : List ScriptHash) (s : TableState σ) :
    (t.lookupManyBatched oram scriptHashes s).2.dirty = s.dirty := by
  unfold lookupManyBatched
  dsimp only
  split
  · rfl
  · split
    · rfl
    · split
      · rfl
      · rfl

theorem IndexTable.attended_lookupMany (t : IndexTable) (oram : Oram σ)
    (scriptHashes : List ScriptHash) (s : TableState σ) :
    s.Attended (t.lookupMany oram scriptHashes s).2 := by
  unfold lookupMany
  split_ifs
  · exact .inl rfl
  · split
    · exact .inl rfl
    · have hdirty := t.dirty_lookupManyBatched oram scriptHashes { s with dirty := true }
      split
      · next hbatch =>
        rw [hbatch] at hdirty
        exact .inr (.inl hdirty)
      · exact .inr (.inr (TableState.isSome_poison _ _))

theorem ChunkTable.dirty_readChunksBatched (t : ChunkTable) (oram : Oram σ) (chunkIds : List ℕ)
    (s : TableState σ) : (t.readChunksBatched oram chunkIds s).2.dirty = s.dirty := by
  unfold readChunksBatched
  split
  · rfl
  · split
    · rfl
    · dsimp only
      split
      · rfl
      · rfl

theorem ChunkTable.attended_readChunks (t : ChunkTable) (oram : Oram σ) (chunkIds : List ℕ)
    (s : TableState σ) : s.Attended (t.readChunks oram chunkIds s).2 := by
  unfold readChunks
  split_ifs
  · exact .inl rfl
  · split
    · exact .inl rfl
    · have hdirty := t.dirty_readChunksBatched oram chunkIds { s with dirty := true }
      split
      · exact .inr (.inr (TableState.isSome_poison _ _))
      · next hbatch =>
        rw [hbatch] at hdirty
        split_ifs
        · exact .inr (.inl hdirty)
        · exact .inr (.inr (TableState.isSome_poison _ _))

theorem ChunkTable.attended_readDummyMany (t : ChunkTable) (oram : Oram σ) (count : ℕ)
    (s : TableState σ) : s.Attended (t.readDummyMany oram count s).2 := by
  unfold readDummyMany
  split_ifs
  · exact .inl rfl
  · exact .inl rfl
  · split
    · exact .inl rfl
    · split
      · exact .inr (.inr (TableState.isSome_poison _ _))
      · dsimp only
        split
        · exact .inr (.inr (TableState.isSome_poison _ _))
        · exact .inr (.inl rfl)

end Tables

/-! ## Errors -/

section Request

variable {σ τ : Type} {t : Tables} {indexOram : Oram σ} {chunkOram : Oram τ}
variable {s s' s₀ : State σ τ} {e : String}

/-- One of the tables is poisoned. -/
def State.Poisoned (s : State σ τ) : Prop :=
  s.index.poisoned.isSome = true ∨ s.chunk.poisoned.isSome = true

/-- The tables are as they were, or marked, or poisoned. -/
structure State.Attended (s s' : State σ τ) : Prop where
  index : s.index.Attended s'.index
  chunk : s.chunk.Attended s'.chunk

theorem State.Attended.abort (h : s.Attended s') : s'.abort.Poisoned ∨ s'.abort = s := by
  rcases h.index.abortRequest "index" with hindex | hindex
  · exact .inl (.inl hindex)
  · rcases h.chunk.abortRequest "chunk" with hchunk | hchunk
    · exact .inl (.inr hchunk)
    · refine .inr ?_
      rw [State.abort, hindex, hchunk]

/-- A request from `s₀` comes to its commits, or is given up: then a table is poisoned, or nothing
was touched. -/
def Ends (t : Tables) (indexOram : Oram σ) (chunkOram : Oram τ) (s₀ : State σ τ)
    (r : Except String (List NativeLookupResult) × State σ τ) : Prop :=
  (∃ result s₁, s₀.Attended s₁ ∧ r = finishBoth t indexOram chunkOram result s₁) ∨
    (r.2.Poisoned ∨ r.2 = s₀)

theorem readPlanned_ends (hs : s₀.Attended s) (chunkBudget : ℕ)
    (slots : PlannedSlots) :
    Ends t indexOram chunkOram s₀ (readPlanned t indexOram chunkOram chunkBudget slots s) := by
  have hdummy := t.chunk.attended_readDummyMany chunkOram
  have hread := t.chunk.attended_readChunks chunkOram (slots.flatMap Prod.snd) s.chunk
  unfold readPlanned
  dsimp only
  split_ifs
  · have hdummy := hdummy chunkBudget s.chunk
    split
    · next hrun =>
      rw [hrun] at hdummy
      exact .inr (State.Attended.abort ⟨hs.index, hs.chunk.trans hdummy⟩)
    · next hrun =>
      rw [hrun] at hdummy
      refine .inl ⟨_, _, ?_, rfl⟩
      exact ⟨hs.index, hs.chunk.trans hdummy⟩
  · split
    · next hrun =>
      rw [hrun] at hread
      exact .inr (State.Attended.abort ⟨hs.index, hs.chunk.trans hread⟩)
    · next chunk hrun =>
      rw [hrun] at hread
      have hdummy := hdummy (chunkBudget - (slots.flatMap Prod.snd).length) chunk
      split
      · next hrun =>
        rw [hrun] at hdummy
        exact .inr (State.Attended.abort ⟨hs.index, hs.chunk.trans (hread.trans hdummy)⟩)
      · next hrun =>
        rw [hrun] at hdummy
        refine .inl ⟨_, _, ?_, rfl⟩
        exact ⟨hs.index, hs.chunk.trans (hread.trans hdummy)⟩

theorem directNativeLookupSlots_ends (scriptHashes : List ScriptHash) (slotPresent : List Bool) :
    Ends t indexOram chunkOram s
      (directNativeLookupSlots t indexOram chunkOram scriptHashes slotPresent s) := by
  have hlookup := t.index.attended_lookupMany indexOram scriptHashes s.index
  unfold directNativeLookupSlots
  dsimp only
  split_ifs
  · exact .inr (.inr rfl)
  · exact .inr (.inr rfl)
  · exact .inr (.inr rfl)
  · split
    · exact .inr (.inr rfl)
    · exact .inr (.inr rfl)
    · split
      · next hrun =>
        rw [hrun] at hlookup
        exact .inr (State.Attended.abort ⟨hlookup, .inl rfl⟩)
      · next hrun =>
        rw [hrun] at hlookup
        split_ifs
        · exact .inr (State.Attended.abort ⟨hlookup, .inl rfl⟩)
        · split
          · exact .inr (State.Attended.abort ⟨hlookup, .inl rfl⟩)
          · refine readPlanned_ends ?_ _ _
            exact ⟨hlookup, .inl rfl⟩

/-- Both tables are committed. -/
def Committed (t : Tables) (indexOram : Oram σ) (chunkOram : Oram τ) (s s' : State σ τ) : Prop :=
  s.index.finishRequest indexOram "index" t.index.saveState = (.ok (), s'.index) ∧
    s.chunk.finishRequest chunkOram "chunk" t.chunk.saveState = (.ok (), s'.chunk)

theorem finishBoth_error {α : Type} {result : Except String α}
    (h : finishBoth t indexOram chunkOram result s = (.error e, s')) :
    Committed t indexOram chunkOram s s' ∨ s'.Poisoned := by
  unfold finishBoth at h
  split at h
  · next hindex =>
    cases h
    exact .inr (.inl (TableState.isSome_of_finishRequest hindex))
  · next hindex =>
    split at h
    · next hchunk =>
      cases h
      exact .inr (.inr (TableState.isSome_of_finishRequest hchunk))
    · next hchunk =>
      cases h
      exact .inl ⟨hindex, hchunk⟩

variable (t indexOram chunkOram)

/-- No request gets past a poisoned table. -/
theorem lookup_of_poisoned (hs : s.Poisoned) (scriptHashes : List ScriptHash)
    (slotPresent : List Bool) :
    ∃ e, directNativeLookupSlots t indexOram chunkOram scriptHashes slotPresent s =
      (.error e, s) := by
  unfold directNativeLookupSlots
  dsimp only
  split_ifs
  · exact ⟨_, rfl⟩
  · exact ⟨_, rfl⟩
  · exact ⟨_, rfl⟩
  · rcases hs with hs | hs
    · obtain ⟨e, he⟩ := TableState.exists_checkNotPoisoned hs "index"
      rw [he]
      exact ⟨e, rfl⟩
    · obtain ⟨e, he⟩ := TableState.exists_checkNotPoisoned hs "chunk"
      rw [he]
      cases s.index.checkNotPoisoned "index" with
      | error e' => exact ⟨e', rfl⟩
      | ok _ => exact ⟨e, rfl⟩

/-! ## Later requests -/

/-- Requests one after another: what each returns, and the state they leave. -/
def lookupAll : List (List ScriptHash × List Bool) → State σ τ →
    List (Except String (List NativeLookupResult)) × State σ τ
  | [], s => ([], s)
  | (scriptHashes, slotPresent) :: batches, s =>
    let r := directNativeLookupSlots t indexOram chunkOram scriptHashes slotPresent s
    let rest := lookupAll batches r.2
    (r.1 :: rest.1, rest.2)

variable {t indexOram chunkOram}

theorem lookupAll_of_poisoned (hs : s.Poisoned) (batches : List (List ScriptHash × List Bool)) :
    (∀ r ∈ (lookupAll t indexOram chunkOram batches s).1, ∃ e, r = .error e) ∧
      (lookupAll t indexOram chunkOram batches s).2 = s := by
  induction batches with
  | nil => exact ⟨fun r hr => absurd hr List.not_mem_nil, rfl⟩
  | cons batch batches ih =>
    obtain ⟨e, he⟩ := lookup_of_poisoned t indexOram chunkOram hs batch.1 batch.2
    rw [lookupAll, he]
    refine ⟨fun r hr => ?_, ih.2⟩
    rcases List.mem_cons.1 hr with rfl | hr
    · exact ⟨e, rfl⟩
    · exact ih.1 r hr

end Request

/-- **Direct ORAM fails closed.** If a request returns an error and a controller was called for it,
both tables committed what its reads had marked, or one of them is poisoned and every later request
returns an error without a call of either controller. -/
theorem lookup_fails_closed {σ τ : Type} (t : Tables) (indexOram : Oram σ) (chunkOram : Oram τ)
    (scriptHashes : List ScriptHash) (slotPresent : List Bool)
    {s s' : State (σ × List Call) (τ × List Call)} {e : String}
    (h : directNativeLookupSlots t indexOram.logged chunkOram.logged scriptHashes slotPresent s =
      (.error e, s'))
    (htouched : s'.index.oram.2 ≠ s.index.oram.2 ∨ s'.chunk.oram.2 ≠ s.chunk.oram.2) :
    (∃ result s₁, s.Attended s₁ ∧
        directNativeLookupSlots t indexOram.logged chunkOram.logged scriptHashes slotPresent s =
          finishBoth t indexOram.logged chunkOram.logged result s₁ ∧
        Committed t indexOram.logged chunkOram.logged s₁ s') ∨
      s'.Poisoned ∧ ∀ batches,
        (∀ r ∈ (lookupAll t indexOram.logged chunkOram.logged batches s').1, ∃ e, r = .error e) ∧
        (lookupAll t indexOram.logged chunkOram.logged batches s').2 = s' := by
  rcases directNativeLookupSlots_ends (t := t) (s := s) scriptHashes slotPresent with
    ⟨result, s₁, hs₁, hcommit⟩ | hs
  · have hfinish := hcommit.symm.trans h
    rcases finishBoth_error hfinish with hs | hs
    · exact .inl ⟨result, s₁, hs₁, hcommit, hs⟩
    · exact .inr ⟨hs, lookupAll_of_poisoned hs⟩
  · rw [h] at hs
    rcases hs with hs | rfl
    · exact .inr ⟨hs, lookupAll_of_poisoned hs⟩
    · rcases htouched with htouched | htouched
      · exact absurd rfl htouched
      · exact absurd rfl htouched

/-- A controller whose evictions fail. -/
def stuckOram (content : ℕ → Bytes) : Oram Unit :=
  { fixedOram content with drainEvictions := fun s _ => (.error "no space", s) }

def loggedFresh : State (Unit × List Call) (Unit × List Call) :=
  ⟨⟨((), []), none, false, 0⟩, ⟨((), []), none, false, 0⟩⟩

def stuckIndex : Oram (Unit × List Call) := (stuckOram (oneRecord 0)).logged

def servedChunk : Oram (Unit × List Call) := (fixedOram oneChunk).logged

/-- The evictions after the INDEX reads fail. -/
theorem lookup_fails_closed_stuck :
    ∃ e s', directNativeLookupSlots oneTables stuckIndex servedChunk [Digest.zero scriptHashSize]
        [true] loggedFresh = (.error e, s') ∧
      s'.index.oram.2 = [.readBatch [0], .drainEvictions 2] ∧
      ((∃ result s₁, loggedFresh.Attended s₁ ∧
          directNativeLookupSlots oneTables stuckIndex servedChunk [Digest.zero scriptHashSize]
            [true] loggedFresh = finishBoth oneTables stuckIndex servedChunk result s₁ ∧
          Committed oneTables stuckIndex servedChunk s₁ s') ∨
        s'.Poisoned ∧ ∀ batches,
          (∀ r ∈ (lookupAll oneTables stuckIndex servedChunk batches s').1, ∃ e, r = .error e) ∧
          (lookupAll oneTables stuckIndex servedChunk batches s').2 = s') := by
  refine ⟨_, _, rfl, by decide, ?_⟩
  exact lookup_fails_closed oneTables (stuckOram (oneRecord 0)) (fixedOram oneChunk) _ _ rfl
    (.inl (by decide))

end BitcoinPir.DirectOram
