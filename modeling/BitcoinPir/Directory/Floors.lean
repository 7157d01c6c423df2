import BitcoinPir.Directory.Checkpoints
import BitcoinPir.Directory.Entries

/-!
# Rollback floors

A client keeps, for every provider and every shard, the highest state it has accepted. A new event
is accepted against the floor of its provider or shard, and its acceptance moves the floor. Stored
floors are read back as they were (`decode_entryFloor_iff`, `decode_checkpointFloor_iff`).

`EntryRollbackState.Follows` and `CheckpointRollbackState.Follows` say what may come after a floor.
Both are reflexive and transitive, and every acceptance moves a floor to one that follows it
(`prepareDirectoryEntryAcceptance_follows`, `prepareDirectoryCheckpointAcceptance_follows`).
-/

namespace BitcoinPir.Directory

open Foundations

structure EntryRollbackState where
  directoryPubkey : Hash256
  providerId : Hash256
  highestDirectorySequence : UInt64
  eventIdAtHighestSequence : Hash256
  eventCreatedAtAtHighestSequence : UInt64
  statusAtHighestSequence : EntryStatus
  highestOperatorAssertionEpoch : UInt64
  operatorAssertionDigestAtHighestEpoch : Hash256
  deriving DecidableEq

structure CheckpointRollbackState where
  directoryPubkey : Hash256
  shard : UInt8
  highestCheckpointEpoch : UInt64
  catalogRootAtHighestEpoch : Hash256
  eventIdAtHighestEpoch : Hash256
  eventCreatedAtAtHighestEpoch : UInt64
  deriving DecidableEq

/-! ## Encodings -/

def entryStateDomain : Bytes := toUtf8 "BitcoinPIR/directory-entry-state/v1"

def checkpointStateDomain : Bytes := toUtf8 "BitcoinPIR/directory-checkpoint-state/v1"

def EntryStatus.code : EntryStatus → UInt8
  | .active => 1
  | .tombstone => 2

namespace EntryRollbackState

def validate (s : EntryRollbackState) : DirectoryResult Unit :=
  require (isZero s.directoryPubkey = false ∧ isZero s.providerId = false ∧
    s.highestDirectorySequence ≠ 0 ∧ isZero s.eventIdAtHighestSequence = false ∧
    s.eventCreatedAtAtHighestSequence ≠ 0 ∧
    (s.highestOperatorAssertionEpoch = 0 ↔
      isZero s.operatorAssertionDigestAtHighestEpoch = true) ∧
    ¬(s.statusAtHighestSequence = .active ∧ s.highestOperatorAssertionEpoch = 0))
    .corruptRollbackState

def encode (s : EntryRollbackState) : DirectoryResult Bytes := do
  s.validate
  return entryStateDomain ++ [1] ++ s.directoryPubkey.val ++ s.providerId.val ++
    leBytes 8 s.highestDirectorySequence.toNat ++ s.eventIdAtHighestSequence.val ++
    leBytes 8 s.eventCreatedAtAtHighestSequence.toNat ++ [s.statusAtHighestSequence.code] ++
    leBytes 8 s.highestOperatorAssertionEpoch.toNat ++ s.operatorAssertionDigestAtHighestEpoch.val

open Reader in
def readFields : Reader DirectoryError EntryRollbackState := do
  let version ← takeU8 .corruptRollbackState
  ensure (version = 1) .corruptRollbackState
  let directoryPubkey ← takeArr 32 .corruptRollbackState
  let providerId ← takeArr 32 .corruptRollbackState
  let highestDirectorySequence ← takeU64 .corruptRollbackState
  let eventIdAtHighestSequence ← takeArr 32 .corruptRollbackState
  let eventCreatedAtAtHighestSequence ← takeU64 .corruptRollbackState
  let status ← takeU8 .corruptRollbackState
  let statusAtHighestSequence ← lift (okOr
    ([EntryStatus.active, .tombstone].find? fun s => s.code == status) .corruptRollbackState)
  let highestOperatorAssertionEpoch ← takeU64 .corruptRollbackState
  let operatorAssertionDigestAtHighestEpoch ← takeArr 32 .corruptRollbackState
  return { directoryPubkey, providerId, highestDirectorySequence, eventIdAtHighestSequence,
           eventCreatedAtAtHighestSequence, statusAtHighestSequence,
           highestOperatorAssertionEpoch, operatorAssertionDigestAtHighestEpoch }

def decode (bytes : Bytes) : DirectoryResult EntryRollbackState := do
  require (bytes.length = entryStateDomain.length + 1 + 32 + 32 + 8 + 32 + 8 + 1 + 8 + 32 ∧
    entryStateDomain.isPrefixOf bytes = true) .corruptRollbackState
  let (value, rest) ← readFields (bytes.drop entryStateDomain.length)
  require (rest = []) .corruptRollbackState
  value.validate
  return value

end EntryRollbackState

namespace CheckpointRollbackState

def validate (s : CheckpointRollbackState) : DirectoryResult Unit :=
  require (isZero s.directoryPubkey = false ∧ s.shard.toNat < directoryShardCount ∧
    s.highestCheckpointEpoch ≠ 0 ∧ isZero s.catalogRootAtHighestEpoch = false ∧
    isZero s.eventIdAtHighestEpoch = false ∧ s.eventCreatedAtAtHighestEpoch ≠ 0)
    .corruptRollbackState

def encode (s : CheckpointRollbackState) : DirectoryResult Bytes := do
  s.validate
  return checkpointStateDomain ++ [1] ++ s.directoryPubkey.val ++ [s.shard] ++
    leBytes 8 s.highestCheckpointEpoch.toNat ++ s.catalogRootAtHighestEpoch.val ++
    s.eventIdAtHighestEpoch.val ++ leBytes 8 s.eventCreatedAtAtHighestEpoch.toNat

open Reader in
def readFields : Reader DirectoryError CheckpointRollbackState := do
  let version ← takeU8 .corruptRollbackState
  ensure (version = 1) .corruptRollbackState
  let directoryPubkey ← takeArr 32 .corruptRollbackState
  let shard ← takeU8 .corruptRollbackState
  let highestCheckpointEpoch ← takeU64 .corruptRollbackState
  let catalogRootAtHighestEpoch ← takeArr 32 .corruptRollbackState
  let eventIdAtHighestEpoch ← takeArr 32 .corruptRollbackState
  let eventCreatedAtAtHighestEpoch ← takeU64 .corruptRollbackState
  return { directoryPubkey, shard, highestCheckpointEpoch, catalogRootAtHighestEpoch,
           eventIdAtHighestEpoch, eventCreatedAtAtHighestEpoch }

def decode (bytes : Bytes) : DirectoryResult CheckpointRollbackState := do
  require (bytes.length = checkpointStateDomain.length + 1 + 32 + 1 + 8 + 32 + 32 + 8 ∧
    checkpointStateDomain.isPrefixOf bytes = true) .corruptRollbackState
  let (value, rest) ← readFields (bytes.drop checkpointStateDomain.length)
  require (rest = []) .corruptRollbackState
  value.validate
  return value

end CheckpointRollbackState

section RoundTrip

open Reader

variable {b : Bytes}

theorem find?_code_eq_some {code : UInt8} {status : EntryStatus} :
    ([EntryStatus.active, .tombstone].find? fun s => s.code == code) = some status ↔
      code = status.code := by
  constructor
  · intro h
    have hcode := List.find?_some h
    exact (beq_iff_eq.1 hcode).symm
  · rintro rfl
    cases status <;> rfl

/-- **A stored floor is read back as it was written**, and nothing else is read. -/
theorem EntryRollbackState.decode_entryFloor_iff {s : EntryRollbackState} :
    decode b = .ok s ↔ s.encode = .ok b := by
  cases s
  simp only [decode, encode, readFields, bind_eq_ok, Reader.bind_eq_ok, takeU8_eq_ok, ensure_eq_ok,
    takeArr_eq_ok, takeU64_eq_ok, lift_eq_ok, okOr_eq_ok, find?_code_eq_some, pure_eq_ok,
    require_eq_ok, return_eq_ok, exists_const, Prod.exists, List.isPrefixOf_iff_prefix,
    ↓existsAndEq, mk.injEq, true_and, and_true]
  constructor
  · rintro ⟨⟨-, r, rfl⟩, u, h, hvalid⟩
    rw [List.drop_left] at h
    exact ⟨u, hvalid, by simp [h]⟩
  · rintro ⟨u, hvalid, rfl⟩
    simp only [List.append_assoc, List.drop_left]
    exact ⟨⟨by simp [Digest.length_val], _, rfl⟩, u, by simp, hvalid⟩

theorem CheckpointRollbackState.decode_checkpointFloor_iff {s : CheckpointRollbackState} :
    decode b = .ok s ↔ s.encode = .ok b := by
  cases s
  simp only [decode, encode, readFields, bind_eq_ok, Reader.bind_eq_ok, takeU8_eq_ok, ensure_eq_ok,
    takeArr_eq_ok, takeU64_eq_ok, pure_eq_ok, require_eq_ok, return_eq_ok, exists_const, Prod.exists,
    List.isPrefixOf_iff_prefix, ↓existsAndEq, mk.injEq, true_and, and_true]
  constructor
  · rintro ⟨⟨-, r, rfl⟩, u, h, hvalid⟩
    rw [List.drop_left] at h
    exact ⟨u, hvalid, by simp [h]⟩
  · rintro ⟨u, hvalid, rfl⟩
    simp only [List.append_assoc, List.drop_left]
    exact ⟨⟨by simp [Digest.length_val], _, rfl⟩, u, by simp, hvalid⟩

end RoundTrip

/-! ## Acceptance -/

inductive AcceptanceDisposition
  | initial
  | advanced
  | exactReplay
  deriving DecidableEq

/-- A verified event of kind `V` with the floor it was accepted against and the floor it leads to. -/
structure Unpersisted (V S : Type) where
  verified : V
  expectedState : Option S
  successorState : S
  disposition : AcceptanceDisposition

abbrev UnpersistedEntry := Unpersisted VerifiedEntryEvent EntryRollbackState

abbrev UnpersistedCheckpoint :=
  Unpersisted VerifiedCheckpointEvent CheckpointRollbackState

/-- A verified event whose floor has been made durable. -/
structure Persisted (V S : Type) where
  verified : V
  state : S
  disposition : AcceptanceDisposition

/-- An acceptance counts once the durable bytes read back as the proposed floor. -/
def Unpersisted.confirmDurableState {V S : Type} [DecidableEq S] (u : Unpersisted V S)
    (decode : Bytes → DirectoryResult S) (durable : Bytes) :
    DirectoryResult (Persisted V S) := do
  let durableState ← decode durable
  require (durableState = u.successorState) .corruptRollbackState
  return { verified := u.verified, state := durableState, disposition := u.disposition }

theorem Unpersisted.confirmDurableState_eq_ok {V S : Type} [DecidableEq S] {u : Unpersisted V S}
    {decode : Bytes → DirectoryResult S} {durable : Bytes} {p : Persisted V S}
    (h : u.confirmDurableState decode durable = .ok p) :
    decode durable = .ok u.successorState ∧ p.verified = u.verified ∧
      p.state = u.successorState := by
  simp only [confirmDurableState, bind_eq_ok, require_eq_ok, exists_const, return_eq_ok] at h
  obtain ⟨s, hs, rfl, rfl⟩ := h
  exact ⟨hs, rfl, rfl⟩

/-- The disposition of an acceptance that is not a replay. -/
def dispositionOf {S : Type} (current : Option S) : AcceptanceDisposition :=
  if current.isSome then .advanced else .initial

/-- The operator epoch and digest an entry brings; an entry without an assertion brings zeros. -/
def candidateOperator (entry : DirectoryEntry) : DirectoryResult (UInt64 × Hash256) :=
  match entry.operatorAssertion with
  | some assertion => do
    let digest ← okOr entry.operatorAssertionDigest .invalidOperatorAssertion
    return (assertion.assertionEpoch, digest)
  | none => .ok (0, Digest.zero 32)

/-- The operator epoch and digest after an entry. A tombstone keeps those of the floor; an active
entry must not go back, and after a tombstone it must go forward. -/
def operatorState (entry : DirectoryEntry) (current : Option EntryRollbackState) :
    DirectoryResult (UInt64 × Hash256) := do
  let candidate ← candidateOperator entry
  match current with
  | none => return candidate
  | some current =>
    if entry.status = .tombstone then
      return (current.highestOperatorAssertionEpoch, current.operatorAssertionDigestAtHighestEpoch)
    else do
      require (¬(current.statusAtHighestSequence = .tombstone ∧
        candidate.1 ≤ current.highestOperatorAssertionEpoch)) .reactivationRequiresNewOperatorEpoch
      require (current.highestOperatorAssertionEpoch ≤ candidate.1) .operatorEpochRollback
      require (¬(candidate.1 = current.highestOperatorAssertionEpoch ∧
        candidate.2 ≠ current.operatorAssertionDigestAtHighestEpoch)) .operatorEpochFork
      return candidate

/-- The floor after an entry that is not a replay. -/
def advanceEntry (verified : VerifiedEntryEvent) (current : Option EntryRollbackState) :
    DirectoryResult UnpersistedEntry := do
  let operator ← operatorState verified.entry current
  let successorState : EntryRollbackState :=
    { directoryPubkey := verified.event.pubkey
      providerId := verified.entry.providerId
      highestDirectorySequence := verified.entry.directorySequence
      eventIdAtHighestSequence := verified.event.id
      eventCreatedAtAtHighestSequence := verified.event.createdAt
      statusAtHighestSequence := verified.entry.status
      highestOperatorAssertionEpoch := operator.1
      operatorAssertionDigestAtHighestEpoch := operator.2 }
  successorState.validate
  return { verified, expectedState := current, successorState,
           disposition := dispositionOf current }

def prepareDirectoryEntryAcceptance (verified : VerifiedEntryEvent)
    (current : Option EntryRollbackState) : DirectoryResult UnpersistedEntry :=
  match current with
  | none => advanceEntry verified none
  | some current => do
    current.validate
    require (current.directoryPubkey = verified.event.pubkey ∧
      current.providerId = verified.entry.providerId) .corruptRollbackState
    require (current.highestDirectorySequence ≤ verified.entry.directorySequence)
      .directorySequenceRollback
    if verified.entry.directorySequence = current.highestDirectorySequence then do
      require (verified.event.id = current.eventIdAtHighestSequence) .directorySequenceFork
      require (verified.event.createdAt = current.eventCreatedAtAtHighestSequence)
        .corruptRollbackState
      require (verified.entry.status = current.statusAtHighestSequence) .corruptRollbackState
      return { verified, expectedState := some current, successorState := current,
               disposition := .exactReplay }
    else do
      require (current.eventCreatedAtAtHighestSequence < verified.event.createdAt)
        .replaceableTimestampNotAdvanced
      advanceEntry verified (some current)

/-- The floor after a checkpoint that is not a replay. -/
def advanceCheckpoint (verified : VerifiedCheckpointEvent)
    (current : Option CheckpointRollbackState) : DirectoryResult UnpersistedCheckpoint := do
  let successorState : CheckpointRollbackState :=
    { directoryPubkey := verified.event.pubkey
      shard := verified.checkpoint.shard
      highestCheckpointEpoch := verified.checkpoint.checkpointEpoch
      catalogRootAtHighestEpoch := verified.checkpoint.catalogRoot
      eventIdAtHighestEpoch := verified.event.id
      eventCreatedAtAtHighestEpoch := verified.event.createdAt }
  successorState.validate
  return { verified, expectedState := current, successorState,
           disposition := dispositionOf current }

def prepareDirectoryCheckpointAcceptance (verified : VerifiedCheckpointEvent)
    (current : Option CheckpointRollbackState) : DirectoryResult UnpersistedCheckpoint :=
  match current with
  | none => advanceCheckpoint verified none
  | some current => do
    current.validate
    require (current.directoryPubkey = verified.event.pubkey ∧
      current.shard = verified.checkpoint.shard) .corruptRollbackState
    require (current.highestCheckpointEpoch ≤ verified.checkpoint.checkpointEpoch)
      .checkpointEpochRollback
    if verified.checkpoint.checkpointEpoch = current.highestCheckpointEpoch then do
      require (verified.checkpoint.catalogRoot = current.catalogRootAtHighestEpoch)
        .checkpointSplitView
      require (verified.event.id = current.eventIdAtHighestEpoch) .checkpointEpochFork
      require (verified.event.createdAt = current.eventCreatedAtAtHighestEpoch)
        .corruptRollbackState
      return { verified, expectedState := some current, successorState := current,
               disposition := .exactReplay }
    else do
      require (current.eventCreatedAtAtHighestEpoch < verified.event.createdAt)
        .replaceableTimestampNotAdvanced
      advanceCheckpoint verified (some current)

/-! ## What may follow a floor -/

/-- `s'` may come after `s`. The sequence number does not go back, and it stands for one event,
created at one time and with one status; a later number comes with a later time. The operator epoch
does not go back and stands for one assertion; to leave a tombstone it has to grow. -/
structure EntryRollbackState.Follows (s s' : EntryRollbackState) : Prop where
  sequence_le : s.highestDirectorySequence ≤ s'.highestDirectorySequence
  same_sequence : s.highestDirectorySequence = s'.highestDirectorySequence → s' = s
  created_lt : s.highestDirectorySequence < s'.highestDirectorySequence →
    s.eventCreatedAtAtHighestSequence < s'.eventCreatedAtAtHighestSequence
  epoch_le : s.highestOperatorAssertionEpoch ≤ s'.highestOperatorAssertionEpoch
  same_epoch : s.highestOperatorAssertionEpoch = s'.highestOperatorAssertionEpoch →
    s'.operatorAssertionDigestAtHighestEpoch = s.operatorAssertionDigestAtHighestEpoch
  reactivated : s.statusAtHighestSequence = .tombstone → s'.statusAtHighestSequence = .active →
    s.highestOperatorAssertionEpoch < s'.highestOperatorAssertionEpoch

/-- `s'` may come after `s`. The epoch does not go back and stands for one checkpoint event with
one catalog root. -/
structure CheckpointRollbackState.Follows (s s' : CheckpointRollbackState) : Prop where
  epoch_le : s.highestCheckpointEpoch ≤ s'.highestCheckpointEpoch
  same_epoch : s.highestCheckpointEpoch = s'.highestCheckpointEpoch → s' = s
  created_lt : s.highestCheckpointEpoch < s'.highestCheckpointEpoch →
    s.eventCreatedAtAtHighestEpoch < s'.eventCreatedAtAtHighestEpoch

theorem EntryRollbackState.Follows.refl (s : EntryRollbackState) : s.Follows s where
  sequence_le := UInt64.le_refl _
  same_sequence _ := rfl
  created_lt h := absurd h (UInt64.lt_irrefl _)
  epoch_le := UInt64.le_refl _
  same_epoch _ := rfl
  reactivated h h' := by cases h.symm.trans h'

theorem CheckpointRollbackState.Follows.refl (s : CheckpointRollbackState) : s.Follows s where
  epoch_le := UInt64.le_refl _
  same_epoch _ := rfl
  created_lt h := absurd h (UInt64.lt_irrefl _)

/-- Between two equal values of a counter that does not go back nothing has changed. -/
theorem eq_and_eq_of_le {a b c : UInt64} (hab : a ≤ b) (hbc : b ≤ c) (hac : a = c) :
    a = b ∧ b = c := by
  subst hac
  have hba := UInt64.le_antisymm hab hbc
  exact ⟨hba, hba.symm⟩

/-- A value that grows with a counter, across a step at which the counter may stand still. -/
theorem lt_of_follows {a b c x y z : UInt64} (hab : a ≤ b) (hbc : b ≤ c) (hac : a < c)
    (hxy : a < b → x < y) (hyz : b < c → y < z) (heqx : a = b → x = y) (heqz : b = c → y = z) :
    x < z := by
  rcases UInt64.lt_or_eq_of_le hab with hlt | rfl
  · rcases UInt64.lt_or_eq_of_le hbc with hlt' | rfl
    · exact UInt64.lt_trans (hxy hlt) (hyz hlt')
    · exact heqz rfl ▸ hxy hlt
  · exact heqx rfl ▸ hyz hac

theorem EntryRollbackState.Follows.trans {s s' s'' : EntryRollbackState} (h : s.Follows s')
    (h' : s'.Follows s'') : s.Follows s'' where
  sequence_le := UInt64.le_trans h.sequence_le h'.sequence_le
  same_sequence heq := by
    obtain ⟨h₁, h₂⟩ := eq_and_eq_of_le h.sequence_le h'.sequence_le heq
    rw [h'.same_sequence h₂, h.same_sequence h₁]
  created_lt hlt := lt_of_follows h.sequence_le h'.sequence_le hlt h.created_lt h'.created_lt
    (fun heq => by rw [h.same_sequence heq]) fun heq => by rw [h'.same_sequence heq]
  epoch_le := UInt64.le_trans h.epoch_le h'.epoch_le
  same_epoch heq := by
    obtain ⟨h₁, h₂⟩ := eq_and_eq_of_le h.epoch_le h'.epoch_le heq
    rw [h'.same_epoch h₂, h.same_epoch h₁]
  reactivated htomb hactive := by
    cases hmid : s'.statusAtHighestSequence with
    | active => exact UInt64.lt_of_lt_of_le (h.reactivated htomb hmid) h'.epoch_le
    | tombstone => exact UInt64.lt_of_le_of_lt h.epoch_le (h'.reactivated hmid hactive)

theorem CheckpointRollbackState.Follows.trans {s s' s'' : CheckpointRollbackState}
    (h : s.Follows s') (h' : s'.Follows s'') : s.Follows s'' where
  epoch_le := UInt64.le_trans h.epoch_le h'.epoch_le
  same_epoch heq := by
    obtain ⟨h₁, h₂⟩ := eq_and_eq_of_le h.epoch_le h'.epoch_le heq
    rw [h'.same_epoch h₂, h.same_epoch h₁]
  created_lt hlt := lt_of_follows h.epoch_le h'.epoch_le hlt h.created_lt h'.created_lt
    (fun heq => by rw [h.same_epoch heq]) fun heq => by rw [h'.same_epoch heq]

/-! ## An acceptance moves a floor forward -/

/-- The floor `s` is that of the entry: its provider, sequence number, event, time and status. -/
structure EntryRollbackState.Records (s : EntryRollbackState) (v : VerifiedEntryEvent) : Prop where
  provider : s.providerId = v.entry.providerId
  sequence : s.highestDirectorySequence = v.entry.directorySequence
  event : s.eventIdAtHighestSequence = v.event.id
  created : s.eventCreatedAtAtHighestSequence = v.event.createdAt
  status : s.statusAtHighestSequence = v.entry.status

/-- The floor `s` is that of the checkpoint. -/
structure CheckpointRollbackState.Records (s : CheckpointRollbackState)
    (v : VerifiedCheckpointEvent) : Prop where
  epoch : s.highestCheckpointEpoch = v.checkpoint.checkpointEpoch
  root : s.catalogRootAtHighestEpoch = v.checkpoint.catalogRoot
  event : s.eventIdAtHighestEpoch = v.event.id
  created : s.eventCreatedAtAtHighestEpoch = v.event.createdAt

theorem operatorState_some {entry : DirectoryEntry} {current : EntryRollbackState}
    {operator : UInt64 × Hash256} (h : operatorState entry (some current) = .ok operator) :
    current.highestOperatorAssertionEpoch ≤ operator.1 ∧
      (current.highestOperatorAssertionEpoch = operator.1 →
        operator.2 = current.operatorAssertionDigestAtHighestEpoch) ∧
      (current.statusAtHighestSequence = .tombstone → entry.status = .active →
        current.highestOperatorAssertionEpoch < operator.1) := by
  obtain ⟨candidate, -, h⟩ := bind_eq_ok.1 h
  split_ifs at h with hstatus
  · cases h
    exact ⟨UInt64.le_refl _, fun _ => rfl, fun _ hactive => by cases hstatus.symm.trans hactive⟩
  · simp only [bind_eq_ok, require_eq_ok, exists_const, return_eq_ok] at h
    obtain ⟨hreactivate, hle, hfork, rfl⟩ := h
    refine ⟨hle, fun heq => ?_, fun htomb _ => ?_⟩
    · by_contra hne
      exact hfork ⟨heq.symm, hne⟩
    · exact UInt64.not_le.1 fun hle' => hreactivate ⟨htomb, hle'⟩

variable {current : Option EntryRollbackState}

/-- An active entry sets the operator epoch and digest to its own. -/
theorem candidateOperator_of_active {entry : DirectoryEntry} {operator : UInt64 × Hash256}
    (hactive : entry.status = .active) (h : operatorState entry current = .ok operator) :
    candidateOperator entry = .ok operator := by
  obtain ⟨candidate, hcandidate, h⟩ := bind_eq_ok.1 h
  cases current with
  | none =>
    cases h
    exact hcandidate
  | some current =>
    dsimp only at h
    rw [if_neg (by rw [hactive]; decide)] at h
    simp only [bind_eq_ok, return_eq_ok] at h
    obtain ⟨-, -, -, -, -, -, rfl⟩ := h
    exact hcandidate

theorem advanceEntry_eq_ok {v : VerifiedEntryEvent} {u : UnpersistedEntry}
    (h : advanceEntry v current = .ok u) :
    u.verified = v ∧ u.successorState.Records v ∧
      operatorState v.entry current = .ok (u.successorState.highestOperatorAssertionEpoch,
        u.successorState.operatorAssertionDigestAtHighestEpoch) := by
  obtain ⟨operator, hoperator, h⟩ := bind_eq_ok.1 h
  obtain ⟨_, -, h⟩ := bind_eq_ok.1 h
  cases h
  exact ⟨rfl, ⟨rfl, rfl, rfl, rfl, rfl⟩, hoperator⟩

/-- The floor `s` comes from an entry: it was the stored one, or the entry, if active, set its
operator epoch and digest. -/
def EntryRollbackState.FromEntry (s : EntryRollbackState) (current : Option EntryRollbackState)
    (entry : DirectoryEntry) : Prop :=
  current = some s ∨ (entry.status = .active → candidateOperator entry =
    .ok (s.highestOperatorAssertionEpoch, s.operatorAssertionDigestAtHighestEpoch))

/-- An accepted entry is recorded by a floor that follows the one before. -/
theorem prepareDirectoryEntryAcceptance_follows {v : VerifiedEntryEvent} {u : UnpersistedEntry}
    (h : prepareDirectoryEntryAcceptance v current = .ok u) :
    u.verified = v ∧ u.successorState.Records v ∧ u.successorState.FromEntry current v.entry ∧
      ∀ s, current = some s → s.Follows u.successorState := by
  cases current with
  | none =>
    obtain ⟨hverified, hrecords, hoperator⟩ := advanceEntry_eq_ok h
    exact ⟨hverified, hrecords, .inr fun hactive => candidateOperator_of_active hactive hoperator,
      fun s hs => by cases hs⟩
  | some current =>
    simp only [prepareDirectoryEntryAcceptance, bind_eq_ok, require_eq_ok, exists_const] at h
    obtain ⟨-, -, hkey, hle, h⟩ := h
    split_ifs at h with hseq
    · simp only [bind_eq_ok, require_eq_ok, exists_const, return_eq_ok] at h
      obtain ⟨hid, hcreated, hstatus, rfl⟩ := h
      refine ⟨rfl, ⟨hkey.2, hseq.symm, hid.symm, hcreated.symm, hstatus.symm⟩, .inl rfl, ?_⟩
      rintro s ⟨⟩
      exact .refl _
    · obtain ⟨_, hcreated, h⟩ := bind_eq_ok.1 h
      rw [require_eq_ok] at hcreated
      obtain ⟨hverified, hrecords, hoperator⟩ := advanceEntry_eq_ok h
      refine ⟨hverified, hrecords,
        .inr fun hactive => candidateOperator_of_active hactive hoperator, ?_⟩
      rintro s ⟨⟩
      obtain ⟨hepoch, hdigest, hreactivate⟩ := operatorState_some hoperator
      exact {
        sequence_le := hrecords.sequence ▸ hle
        same_sequence := fun heq => absurd (heq.trans hrecords.sequence).symm hseq
        created_lt := fun _ => hrecords.created ▸ hcreated
        epoch_le := hepoch
        same_epoch := hdigest
        reactivated := fun htomb hactive => hreactivate htomb (hrecords.status ▸ hactive) }

variable {v : VerifiedCheckpointEvent} {current : Option CheckpointRollbackState}
  {u : UnpersistedCheckpoint}

theorem advanceCheckpoint_eq_ok
    (h : advanceCheckpoint v current = .ok u) : u.verified = v ∧ u.successorState.Records v := by
  obtain ⟨_, -, h⟩ := bind_eq_ok.1 h
  cases h
  exact ⟨rfl, ⟨rfl, rfl, rfl, rfl⟩⟩

/-- An accepted checkpoint is recorded by a floor that follows the one before. -/
theorem prepareDirectoryCheckpointAcceptance_follows
    (h : prepareDirectoryCheckpointAcceptance v current = .ok u) :
    u.verified = v ∧ u.successorState.Records v ∧
      ∀ s, current = some s → s.Follows u.successorState := by
  cases current with
  | none =>
    obtain ⟨hverified, hrecords⟩ := advanceCheckpoint_eq_ok h
    exact ⟨hverified, hrecords, fun s hs => by cases hs⟩
  | some current =>
    simp only [prepareDirectoryCheckpointAcceptance, bind_eq_ok, require_eq_ok, exists_const] at h
    obtain ⟨-, -, -, hle, h⟩ := h
    split_ifs at h with hepoch
    · simp only [bind_eq_ok, require_eq_ok, exists_const, return_eq_ok] at h
      obtain ⟨hroot, hid, hcreated, rfl⟩ := h
      refine ⟨rfl, ⟨hepoch.symm, hroot.symm, hid.symm, hcreated.symm⟩, ?_⟩
      rintro s ⟨⟩
      exact .refl _
    · obtain ⟨_, hcreated, h⟩ := bind_eq_ok.1 h
      rw [require_eq_ok] at hcreated
      obtain ⟨hverified, hrecords⟩ := advanceCheckpoint_eq_ok h
      refine ⟨hverified, hrecords, ?_⟩
      rintro s ⟨⟩
      exact {
        epoch_le := hrecords.epoch ▸ hle
        same_epoch := fun heq => absurd (heq.trans hrecords.epoch).symm hepoch
        created_lt := fun _ => hrecords.created ▸ hcreated }

end BitcoinPir.Directory
