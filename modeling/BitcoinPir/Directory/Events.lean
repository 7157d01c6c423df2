import BitcoinPir.Core.Merkle
import BitcoinPir.Core.Utf8
import BitcoinPir.Foundations.Reader

/-!
# Signed events of the discovery directory

The directory is published as NIP-01 events signed by one pinned key. An event is read from JSON,
its bounds are checked, its id is recomputed and its signature is verified. JSON, SHA-256 and the
signature schemes are libraries of the source: `Library` collects them as parameters.
-/

namespace BitcoinPir.Directory

open Foundations

/-- The errors of the codec and of the rollback rules. -/
inductive DirectoryError
  | inputTooLarge
  | invalidJson
  | nonCanonicalJson
  | invalidHex
  | invalidValue
  | unsupportedVersion
  | wrongDirectoryKey
  | wrongEventKind
  | invalidEventId
  | invalidEventSignature
  | invalidTags
  | differentAddressableCoordinate
  | replaceableTimestampNotAdvanced
  | invalidEntryTag
  | invalidCheckpointTag
  | invalidShard
  | entryExpired
  | checkpointExpired
  | invalidOperatorAssertion
  | invalidCatalogHints
  | invalidCatalogRoot
  | catalogEntrySetMismatch
  | directorySequenceRollback
  | directorySequenceFork
  | operatorEpochRollback
  | operatorEpochFork
  | reactivationRequiresNewOperatorEpoch
  | checkpointEpochRollback
  | checkpointEpochFork
  | checkpointSplitView
  | corruptRollbackState
  deriving DecidableEq, Repr

abbrev DirectoryResult : Type → Type := Except DirectoryError

def DirectoryError.text : DirectoryError → String
  | .inputTooLarge => "directory input exceeds its v1 bound"
  | .invalidJson => "directory JSON is malformed, duplicated, or unknown"
  | .nonCanonicalJson => "directory content JSON is not canonical"
  | .invalidHex => "directory fixed bytes are not canonical lowercase hex"
  | .invalidValue => "directory value is invalid or outside its v1 bound"
  | .unsupportedVersion => "directory protocol version is unsupported"
  | .wrongDirectoryKey => "Nostr event is not signed by the pinned directory key"
  | .wrongEventKind => "Nostr event kind is not BitcoinPIR NIP-78 v1"
  | .invalidEventId => "Nostr event id does not match its canonical NIP-01 preimage"
  | .invalidEventSignature => "Nostr event BIP340 signature is invalid"
  | .invalidTags => "Nostr event tags are malformed or outside their v1 bound"
  | .differentAddressableCoordinate => "Nostr events do not have the same addressable coordinate"
  | .replaceableTimestampNotAdvanced => "Nostr addressable-event timestamp did not advance"
  | .invalidEntryTag => "directory entry d tag is missing, duplicated, or mismatched"
  | .invalidCheckpointTag => "directory checkpoint d tag is missing, duplicated, or mismatched"
  | .invalidShard => "directory coarse shard tag is missing or mismatched"
  | .entryExpired => "directory entry is not currently valid"
  | .checkpointExpired => "directory checkpoint is not currently valid"
  | .invalidOperatorAssertion => "directory operator assertion is malformed or has a bad signature"
  | .invalidCatalogHints => "directory catalog hints are malformed or unsorted"
  | .invalidCatalogRoot => "directory catalog checkpoint root is invalid"
  | .catalogEntrySetMismatch => "directory shard entries do not exactly match the signed checkpoint"
  | .directorySequenceRollback => "directory sequence rollback was rejected"
  | .directorySequenceFork => "directory published a fork at one sequence"
  | .operatorEpochRollback => "operator assertion epoch rollback was rejected"
  | .operatorEpochFork => "operator assertion fork at one epoch was rejected"
  | .reactivationRequiresNewOperatorEpoch =>
    "directory tombstone reactivation requires a newer operator assertion"
  | .checkpointEpochRollback => "catalog checkpoint epoch rollback was rejected"
  | .checkpointEpochFork => "catalog checkpoint event differs at an already retained epoch"
  | .checkpointSplitView => "catalog checkpoint root differs at an already retained epoch"
  | .corruptRollbackState => "durable directory rollback state is inconsistent"

/-- A value or an error. -/
def okOr {ε α : Type} (o : Option α) (e : ε) : Except ε α := o.elim (.error e) .ok

theorem okOr_eq_ok {ε α : Type} {o : Option α} {e : ε} {a : α} :
    okOr o e = .ok a ↔ o = some a := by
  cases o <;> simp [okOr]

/-! ## Lowercase hex -/

/-- A digit of `0123456789abcdef`. -/
def hexDigit (n : ℕ) : Char := if n < 10 then Char.ofNat (48 + n) else Char.ofNat (87 + n)

def lowerHex (bytes : Bytes) : String :=
  String.ofList (bytes.flatMap fun b => [hexDigit (b.toNat / 16), hexDigit (b.toNat % 16)])

def nibble (value : UInt8) : DirectoryResult UInt8 :=
  if 48 ≤ value ∧ value ≤ 57 then .ok (value - 48)
  else if 97 ≤ value ∧ value ≤ 102 then .ok (value - 97 + 10)
  else .error .invalidHex

/-- The bytes of consecutive pairs of digits. -/
def hexPairs : Bytes → DirectoryResult Bytes
  | hi :: lo :: rest => do
    let hi ← nibble hi
    let lo ← nibble lo
    let bytes ← hexPairs rest
    return (hi <<< 4 ||| lo) :: bytes
  | _ => .ok []

def decodeLowerHex (n : ℕ) (value : String) : DirectoryResult (Digest n) := do
  require ((toUtf8 value).length = n * 2 ∧ ∀ b ∈ toUtf8 value, b < 128) .invalidHex
  let decoded ← hexPairs (toUtf8 value)
  return Digest.read n decoded

def decodeLowerHexVec (value : String) : DirectoryResult Bytes := do
  require ((toUtf8 value).length % 2 = 0 ∧ ∀ b ∈ toUtf8 value, b < 128) .invalidHex
  hexPairs (toUtf8 value)

theorem utf8EncodeChar_hexDigit {n : ℕ} (hn : n < 16) :
    ∃ d, String.utf8EncodeChar (hexDigit n) = [d] ∧ d < 128 ∧ nibble d = .ok (UInt8.ofNat n) := by
  have hall : ∀ n < 16, ∃ d, String.utf8EncodeChar (hexDigit n) = [d] ∧ d < 128 ∧
      (nibble d).toOption = some (UInt8.ofNat n) := by decide +kernel
  obtain ⟨d, hd, hlt, hnibble⟩ := hall n hn
  refine ⟨d, hd, hlt, ?_⟩
  cases hok : nibble d with
  | error e => rw [hok] at hnibble; simp [Except.toOption] at hnibble
  | ok a => rw [hok] at hnibble; simpa [Except.toOption] using hnibble

theorem nibbles_toNat (b : UInt8) :
    UInt8.ofNat (b.toNat / 16) <<< 4 ||| UInt8.ofNat (b.toNat % 16) = b := by
  have hall : ∀ n < 256, UInt8.ofNat (n / 16) <<< 4 ||| UInt8.ofNat (n % 16) = UInt8.ofNat n := by
    decide +kernel
  rw [hall b.toNat b.toNat_lt, UInt8.ofNat_toNat]

theorem toUtf8_lowerHex_cons (b : UInt8) (bytes : Bytes) :
    ∃ hi lo, toUtf8 (lowerHex (b :: bytes)) = hi :: lo :: toUtf8 (lowerHex bytes) ∧
      hi < 128 ∧ lo < 128 ∧ nibble hi = .ok (UInt8.ofNat (b.toNat / 16)) ∧
      nibble lo = .ok (UInt8.ofNat (b.toNat % 16)) := by
  have hb := b.toNat_lt
  obtain ⟨hi, hhi, hhilt, hhinib⟩ := utf8EncodeChar_hexDigit (n := b.toNat / 16) (by omega)
  obtain ⟨lo, hlo, hlolt, hlonib⟩ := utf8EncodeChar_hexDigit (n := b.toNat % 16) (by omega)
  refine ⟨hi, lo, ?_, hhilt, hlolt, hhinib, hlonib⟩
  rw [toUtf8_eq, toUtf8_eq, lowerHex, lowerHex, String.toList_ofList, String.toList_ofList,
    List.flatMap_cons, List.flatMap_append, List.flatMap_cons, List.flatMap_cons, hhi, hlo]
  rfl

/-- What is written in hex is read back. -/
theorem decodeLowerHexVec_lowerHex (bytes : Bytes) :
    decodeLowerHexVec (lowerHex bytes) = .ok bytes := by
  have hdigits : (toUtf8 (lowerHex bytes)).length % 2 = 0 ∧
      (∀ b ∈ toUtf8 (lowerHex bytes), b < 128) ∧
      hexPairs (toUtf8 (lowerHex bytes)) = .ok bytes := by
    induction bytes with
    | nil => decide +kernel
    | cons b bytes ih =>
      obtain ⟨heven, hascii, hpairs⟩ := ih
      obtain ⟨hi, lo, hcons, hhi, hlo, hhinib, hlonib⟩ := toUtf8_lowerHex_cons b bytes
      rw [hcons]
      refine ⟨?_, ?_, ?_⟩
      · rw [List.length_cons, List.length_cons]
        omega
      · rintro c (_ | ⟨_, _ | ⟨_, hc⟩⟩)
        exacts [hhi, hlo, hascii c hc]
      · rw [hexPairs, hhinib, hlonib, hpairs, ok_bind, ok_bind, nibbles_toNat]
        rfl
  obtain ⟨heven, hascii, hpairs⟩ := hdigits
  rw [decodeLowerHexVec, require_of ⟨heven, hascii⟩, ok_bind, hpairs]

theorem lowerHex_injective : Function.Injective lowerHex := by
  intro bs cs h
  have hbs := decodeLowerHexVec_lowerHex bs
  rw [h, decodeLowerHexVec_lowerHex] at hbs
  exact (Except.ok.inj hbs).symm

/-! ## JSON records -/

structure NostrEventJson where
  id : String
  pubkey : String
  createdAt : UInt64
  kind : UInt16
  tags : List (List String)
  content : String
  sig : String
  deriving DecidableEq

structure CheckpointEntryJson where
  providerId : String
  directorySequence : UInt64
  eventId : String
  deriving DecidableEq

structure CheckpointJson where
  v : UInt8
  shard : UInt8
  checkpointEpoch : UInt64
  notBefore : UInt64
  validUntil : UInt64
  entries : List CheckpointEntryJson
  catalogRoot : String
  deriving DecidableEq

structure EndpointJson where
  transport : String
  url : String
  deriving DecidableEq

structure OperatorAssertionJson where
  v : UInt8
  operatorPubkeyEd25519 : String
  stableServerId : String
  providerId : String
  assertionEpoch : UInt64
  notBefore : UInt64
  validUntil : UInt64
  endpoints : List EndpointJson
  signatureEd25519 : String
  deriving DecidableEq

structure CatalogHintJson where
  backend : String
  role : String
  access : String
  attestation : String
  deriving DecidableEq

structure HealthJson where
  cls : String
  observedBucket : UInt64
  deriving DecidableEq

structure EntryJson where
  v : UInt8
  providerId : String
  directorySequence : UInt64
  directoryValidUntil : UInt64
  status : String
  operatorAssertion : Option OperatorAssertionJson
  catalogHints : List CatalogHintJson
  health : HealthJson
  deriving DecidableEq

/-- What the directory takes from libraries: `serde_json` for each record, SHA-256, and the
verification of BIP340 and strict Ed25519 signatures (a malformed key or signature does not
verify). -/
structure Library where
  /-- A relay message as command, subscription and the exact text of its event. -/
  relayMessage : String → Option (String × String × String)
  eventFromJson : Bytes → Option NostrEventJson
  /-- The NIP-01 array `[0, pubkey, created_at, kind, tags, content]`. -/
  idPreimage : String → UInt64 → UInt16 → List (List String) → String → Bytes
  checkpointFromJson : Bytes → Option CheckpointJson
  checkpointToJson : CheckpointJson → Bytes
  entryFromJson : Bytes → Option EntryJson
  entryToJson : EntryJson → Bytes
  sha256 : Bytes → Hash256
  bip340Verify : Hash256 → Hash256 → Digest 64 → Bool
  ed25519VerifyStrict : Hash256 → Bytes → Digest 64 → Bool

/-! ## Events -/

def bitcoinpirDirectoryKind : UInt16 := 30078

def maxNostrEventBytes : ℕ := 256 * 1024

def maxNostrContentBytes : ℕ := 192 * 1024

def maxNostrTags : ℕ := 64

def maxNostrTagItems : ℕ := 8

def maxNostrTagValueBytes : ℕ := 1024

def isZero {n : ℕ} (d : Digest n) : Bool := d.val.all (· == 0)

/-- `char::is_control`. -/
def isControl (c : Char) : Bool := c.val < 0x20 || (0x7f ≤ c.val && c.val < 0xa0)

def containsControl (value : String) : Bool := value.toList.any isControl

structure NostrEvent where
  id : Hash256
  pubkey : Hash256
  createdAt : UInt64
  kind : UInt16
  tags : List (List String)
  content : String
  signature : Digest 64
  deriving DecidableEq

namespace NostrEvent

def validateBounds (event : NostrEvent) : DirectoryResult Unit := do
  require (isZero event.pubkey = false ∧ isZero event.id = false ∧
    (toUtf8 event.content).length ≤ maxNostrContentBytes ∧ event.tags.length ≤ maxNostrTags)
    .invalidValue
  event.tags.forM fun tag => do
    require (tag ≠ [] ∧ tag.length ≤ maxNostrTagItems) .invalidTags
    tag.forM fun value =>
      require ((toUtf8 value).length ≤ maxNostrTagValueBytes ∧ containsControl value = false)
        .invalidTags

variable (lib : Library)

def parseJson (bytes : Bytes) : DirectoryResult NostrEvent := do
  require (bytes ≠ [] ∧ bytes.length ≤ maxNostrEventBytes) .inputTooLarge
  let wire ← okOr (lib.eventFromJson bytes) .invalidJson
  let id ← decodeLowerHex 32 wire.id
  let pubkey ← decodeLowerHex 32 wire.pubkey
  let signature ← decodeLowerHex 64 wire.sig
  let value : NostrEvent :=
    { id, pubkey, createdAt := wire.createdAt, kind := wire.kind, tags := wire.tags,
      content := wire.content, signature }
  value.validateBounds
  return value

def computedId (event : NostrEvent) : DirectoryResult Hash256 := do
  event.validateBounds
  return lib.sha256 (lib.idPreimage (lowerHex event.pubkey.val) event.createdAt event.kind
    event.tags event.content)

/-- The id is the hash of the event and the signature is one of the event's own key. -/
def verifyOwnSignature (event : NostrEvent) : DirectoryResult Unit := do
  event.validateBounds
  require (event.kind = bitcoinpirDirectoryKind) .wrongEventKind
  let computed ← event.computedId lib
  require (computed = event.id) .invalidEventId
  require (lib.bip340Verify event.pubkey event.id event.signature = true) .invalidEventSignature

def verifyForDirectoryKey (event : NostrEvent) (pinned : Hash256) : DirectoryResult Unit := do
  require (event.pubkey = pinned) .wrongDirectoryKey
  event.verifyOwnSignature lib

/-- What a verified event guarantees: it is of the pinned key, its id is the hash of its fields
and the key signed that id. -/
structure SignedBy (event : NostrEvent) (pinned : Hash256) : Prop where
  pubkey : event.pubkey = pinned
  id : event.id = lib.sha256 (lib.idPreimage (lowerHex event.pubkey.val) event.createdAt event.kind
    event.tags event.content)
  signature : lib.bip340Verify pinned event.id event.signature = true

theorem SignedBy.of_verify {lib : Library} {event : NostrEvent} {pinned : Hash256}
    (h : event.verifyForDirectoryKey lib pinned = .ok ()) : event.SignedBy lib pinned := by
  simp only [verifyForDirectoryKey, verifyOwnSignature, computedId, bind_eq_ok, require_eq_ok,
    exists_const, return_eq_ok] at h
  obtain ⟨hpubkey, -, -, -, _, ⟨-, -, hcomputed⟩, hid, hsig⟩ := h
  exact ⟨hpubkey, hid.symm.trans hcomputed.symm, hpubkey ▸ hsig⟩

/-- The value of the only tag of a name. -/
def exactlyOneTagValue (event : NostrEvent) (name : String) : DirectoryResult String :=
  match event.tags.filter fun tag => tag.head? = some name with
  | [[_, value]] => .ok value
  | _ => .error .invalidTags

/-- NIP-01 replacement: `gt` if `candidate` is the event to retain. A later timestamp wins and, on
a tie, the lower id. -/
def nip01AddressableReplacementOrder (candidate current : NostrEvent) :
    DirectoryResult Ordering := do
  require (candidate.kind = bitcoinpirDirectoryKind ∧ current.kind = bitcoinpirDirectoryKind)
    .wrongEventKind
  let candidateD ← candidate.exactlyOneTagValue "d"
  let currentD ← current.exactlyOneTagValue "d"
  require (candidate.kind = current.kind ∧ candidate.pubkey = current.pubkey ∧
    candidateD = currentD) .differentAddressableCoordinate
  return (compare candidate.createdAt current.createdAt).then
    (compare current.id.val candidate.id.val)

/-- The `d` and `s` tags, which have to be the only ones. -/
def exactDirectoryProfileTagValues (event : NostrEvent) :
    DirectoryResult (String × String) :=
  match event.tags with
  | [[d, dValue], [s, sValue]] =>
    if d = "d" ∧ s = "s" then .ok (dValue, sValue) else .error .invalidTags
  | _ => .error .invalidTags

end NostrEvent

/-! ## Shards -/

def directoryShardCount : ℕ := 16

def directoryShardTagPrefix : String := "bitcoinpir-service-directory-shard-v1:"

/-- The shard of a provider: the first digit of its id. -/
def coarseShardForProvider (providerId : Hash256) : UInt8 := providerId.val.headD 0 >>> 4

def shardTagValue (shard : UInt8) : String :=
  if directoryShardCount ≤ shard.toNat then ""
  else directoryShardTagPrefix ++ String.singleton (hexDigit shard.toNat)

end BitcoinPir.Directory
