import BitcoinPir.Directory.Events

/-!
# Provider entries

An entry names a provider, its sequence number in the directory and, while it is active, the
operator's own signed assertion of where the provider can be reached. A tombstone withdraws a
provider. The failures of the inner assertion are all reported as one error, so its codec is
modelled with that error alone.
-/

namespace BitcoinPir.Directory

open Foundations

/-! ## Endpoints -/

def maxDirectoryEndpointLen : ℕ := 512

/-- The text before the first `c` and, if there is one, the text after it. -/
def splitOnce (c : Char) : List Char → List Char × Option (List Char)
  | [] => ([], none)
  | x :: xs =>
    if x = c then ([], some xs)
    else
      let rest := splitOnce c xs
      (x :: rest.1, rest.2)

/-- The parts of a text between the occurrences of `c`. -/
def splitAll (c : Char) : List Char → List (List Char)
  | [] => [[]]
  | x :: xs =>
    if x = c then [] :: splitAll c xs
    else
      match splitAll c xs with
      | part :: parts => (x :: part) :: parts
      | [] => [[x]]

def isLowerOrDigit (c : Char) : Bool := ('a' ≤ c && c ≤ 'z') || ('0' ≤ c && c ≤ '9')

def isDigit (c : Char) : Bool := '0' ≤ c && c ≤ '9'

def isHexDigit (c : Char) : Bool :=
  isDigit c || ('a' ≤ c && c ≤ 'f') || ('A' ≤ c && c ≤ 'F')

/-- Lower case letters, digits and inner hyphens. -/
def isHostLabel (label : List Char) : Bool :=
  !label.isEmpty && label.length ≤ 63 && label.head? != some '-' && label.getLast? != some '-' &&
    label.all fun c => isLowerOrDigit c || c == '-'

/-- A dotted name that is not an address in numbers. -/
def isHost (host : List Char) : Bool :=
  !host.isEmpty && host.length ≤ 253 && host.contains '.' && host.head? != some '.' &&
    host.getLast? != some '.' &&
    !(host.all fun c => isHexDigit c || c == 'x' || c == 'X' || c == '.') &&
    (splitAll '.' host).all isHostLabel

/-- An explicit port: a decimal number of 16 bits in shortest form, neither 0 nor the default. -/
def isPort (port : List Char) : Bool :=
  let value := port.foldl (fun n c => 10 * n + (c.toNat - '0'.toNat)) 0
  !port.isEmpty && port.all isDigit && value ≤ 65535 && value != 0 && value != 443 &&
    (toString value).toList == port

/-- Nonempty segments, none of them `.` or `..`. -/
def isPath (path : List Char) : Bool :=
  path.isEmpty ||
    (path.head? != some '/' && path.getLast? != some '/' && !(splitAll '/' path).contains [] &&
      (path.all fun c => isLowerOrDigit c || ('A' ≤ c && c ≤ 'Z') || "-_.~/".toList.contains c) &&
      !(splitAll '/' path).any fun segment => segment == ['.'] || segment == ['.', '.'])

/-- A `wss` URL in the one form that is accepted. -/
def isCanonicalPublicWssEndpoint (endpoint : String) : Bool :=
  let chars := endpoint.toList
  if chars.isEmpty || maxDirectoryEndpointLen < (toUtf8 endpoint).length ||
      chars.any (fun c => c.val ≤ 0x20 || 0x7f ≤ c.val) then false
  else if !"wss://".toList.isPrefixOf chars then false
  else
    let rest := chars.drop 6
    if rest.isEmpty || rest.getLast? == some '/' || rest.any ("@\\?#".toList.contains ·) then false
    else
      let (authority, path) := splitOnce '/' rest
      if authority.isEmpty || authority.head? == some '[' || 1 < authority.count ':' then false
      else
        let (host, port) := splitOnce ':' authority
        isHost host && (port.elim true isPort) && isPath (path.getD [])

/-! ## Operator assertions -/

def providerIdDomain : Bytes := toUtf8 "BitcoinPIR/provider-id/v1"

def directoryOperatorAssertionSignatureDomain : Bytes :=
  toUtf8 "BitcoinPIR/directory-operator-assertion/v1"

def directoryOperatorAssertionDigestDomain : Bytes :=
  toUtf8 "BitcoinPIR/directory-operator-assertion-digest/v1"

def directoryAssertionVersion : UInt8 := 1

def maxDirectoryServerIdLen : ℕ := 256

def maxDirectoryEndpoints : ℕ := 8

def maxDirectoryAssertionLen : ℕ := 8 * 1024

def maxDirectoryAssertionValiditySeconds : ℕ := 31 * 24 * 60 * 60

/-- An endpoint; `wss` is the only transport, encoded as 1. -/
structure DirectoryEndpoint where
  url : String
  deriving DecidableEq

/-- What an operator signs about a server. -/
structure OperatorAssertion where
  operatorPubkeyEd25519 : Hash256
  stableServerId : String
  providerId : Hash256
  assertionEpoch : UInt64
  notBefore : UInt64
  validUntil : UInt64
  endpoints : List DirectoryEndpoint
  signatureEd25519 : Digest 64
  deriving DecidableEq

def putBytesU16 (bytes : Bytes) : Bytes := leBytes 2 bytes.length ++ bytes

namespace DirectoryEndpoint

/-- The URL is canonical and of bounded length. -/
def Valid (endpoint : DirectoryEndpoint) : Prop :=
  endpoint.url ≠ "" ∧ (toUtf8 endpoint.url).length ≤ maxDirectoryEndpointLen ∧
    isCanonicalPublicWssEndpoint endpoint.url = true

instance (endpoint : DirectoryEndpoint) : Decidable endpoint.Valid :=
  inferInstanceAs (Decidable (_ ∧ _))

def encode (endpoint : DirectoryEndpoint) : Bytes := 1 :: putBytesU16 (toUtf8 endpoint.url)

/-- The order of endpoints, by the bytes of the URL. -/
def Before (a b : DirectoryEndpoint) : Prop := toUtf8 a.url < toUtf8 b.url

instance : DecidableRel Before := fun a b => List.decidableLT (toUtf8 a.url) (toUtf8 b.url)

end DirectoryEndpoint

open Reader in
/-- A length-prefixed text of bounded length. -/
def readStringU16 (max : ℕ) : Reader DirectoryError String := do
  let len ← takeU16 .invalidOperatorAssertion
  ensure (len.toNat ≤ max) .invalidOperatorAssertion
  let bytes ← take len.toNat .invalidOperatorAssertion
  lift (okOr (String.fromUTF8? ⟨bytes.toArray⟩) .invalidOperatorAssertion)

open Reader in
def readEndpoint : Reader DirectoryError DirectoryEndpoint := do
  let transport ← takeU8 .invalidOperatorAssertion
  ensure (transport = 1) .invalidOperatorAssertion
  let url ← readStringU16 maxDirectoryEndpointLen
  ensure (DirectoryEndpoint.Valid { url }) .invalidOperatorAssertion
  return { url }

variable (lib : Library)

/-- The provider id derives from the operator key and the server id. -/
def deriveProviderId (operatorPubkey : Hash256) (stableServerId : String) : Hash256 :=
  lib.sha256 (providerIdDomain ++ operatorPubkey.val ++
    leBytes 4 (toUtf8 stableServerId).length ++ toUtf8 stableServerId)

/-- The highest assertion a caller has accepted before; zero if there is none. -/
structure AssertionRollbackGuard where
  highestAssertionEpoch : UInt64
  digestAtHighestEpoch : Hash256

/-- Nothing was accepted before. -/
def AssertionRollbackGuard.initial : AssertionRollbackGuard :=
  { highestAssertionEpoch := 0, digestAtHighestEpoch := Digest.zero 32 }

namespace OperatorAssertion

/-- The rules for the fields, whoever signed. -/
def validate (a : OperatorAssertion) : DirectoryResult Unit := do
  require (toUtf8 a.stableServerId ≠ [] ∧
    (toUtf8 a.stableServerId).length ≤ maxDirectoryServerIdLen ∧
    ∀ b ∈ toUtf8 a.stableServerId, ¬(b < 0x20 ∨ b = 0x7f)) .invalidOperatorAssertion
  require (isZero a.operatorPubkeyEd25519 = false ∧ isZero a.providerId = false ∧
    a.assertionEpoch ≠ 0 ∧ a.notBefore ≠ 0 ∧ a.notBefore ≤ a.validUntil ∧
    a.validUntil.toNat - a.notBefore.toNat ≤ maxDirectoryAssertionValiditySeconds)
    .invalidOperatorAssertion
  require (deriveProviderId lib a.operatorPubkeyEd25519 a.stableServerId = a.providerId)
    .invalidOperatorAssertion
  require (a.endpoints ≠ [] ∧ a.endpoints.length ≤ maxDirectoryEndpoints) .invalidOperatorAssertion
  require (∀ endpoint ∈ a.endpoints, endpoint.Valid) .invalidOperatorAssertion
  require (a.endpoints.IsChain DirectoryEndpoint.Before) .invalidOperatorAssertion

/-- The bytes before the signature; only valid assertions have them. -/
def unsignedEncoding (a : OperatorAssertion) : DirectoryResult Bytes := do
  a.validate lib
  return [directoryAssertionVersion] ++ a.operatorPubkeyEd25519.val ++
    putBytesU16 (toUtf8 a.stableServerId) ++ a.providerId.val ++ leBytes 8 a.assertionEpoch.toNat ++
    leBytes 8 a.notBefore.toNat ++ leBytes 8 a.validUntil.toNat ++ leBytes 1 a.endpoints.length ++
    a.endpoints.flatMap DirectoryEndpoint.encode

def encode (a : OperatorAssertion) : DirectoryResult Bytes := do
  let unsigned ← a.unsignedEncoding lib
  let out := unsigned ++ a.signatureEd25519.val
  require (out.length ≤ maxDirectoryAssertionLen) .invalidOperatorAssertion
  return out

open Reader in
def readFields : Reader DirectoryError OperatorAssertion := do
  let version ← takeU8 .invalidOperatorAssertion
  ensure (version = directoryAssertionVersion) .invalidOperatorAssertion
  let operatorPubkeyEd25519 ← takeArr 32 .invalidOperatorAssertion
  let stableServerId ← readStringU16 maxDirectoryServerIdLen
  let providerId ← takeArr 32 .invalidOperatorAssertion
  let assertionEpoch ← takeU64 .invalidOperatorAssertion
  let notBefore ← takeU64 .invalidOperatorAssertion
  let validUntil ← takeU64 .invalidOperatorAssertion
  let count ← takeU8 .invalidOperatorAssertion
  ensure (count ≠ 0 ∧ count.toNat ≤ maxDirectoryEndpoints) .invalidOperatorAssertion
  let endpoints ← many readEndpoint count.toNat
  let signatureEd25519 ← takeArr 64 .invalidOperatorAssertion
  return { operatorPubkeyEd25519, stableServerId, providerId, assertionEpoch, notBefore, validUntil,
           endpoints, signatureEd25519 }

/-- Only the canonical encoding is accepted. -/
def decode (bytes : Bytes) : DirectoryResult OperatorAssertion := do
  require (bytes.length ≤ maxDirectoryAssertionLen) .invalidOperatorAssertion
  let (value, rest) ← readFields bytes
  require (rest = []) .invalidOperatorAssertion
  value.validate lib
  let canonical ← value.encode lib
  require (canonical = bytes) .invalidOperatorAssertion
  return value

/-- The message that the operator signs. -/
def signingPreimage (a : OperatorAssertion) : DirectoryResult Bytes := do
  let unsigned ← a.unsignedEncoding lib
  return directoryOperatorAssertionSignatureDomain ++ unsigned

def assertionDigest (a : OperatorAssertion) : DirectoryResult Hash256 := do
  let encoded ← a.encode lib
  return lib.sha256 (directoryOperatorAssertionDigestDomain ++ encoded)

/-- Signed by the operator, about the provider. -/
def verifySignatureAndBinding (a : OperatorAssertion) (providerId operatorPubkey : Hash256) :
    DirectoryResult Unit := do
  a.validate lib
  require (a.providerId = providerId ∧ a.operatorPubkeyEd25519 = operatorPubkey)
    .invalidOperatorAssertion
  let message ← a.signingPreimage lib
  require (lib.ed25519VerifyStrict operatorPubkey message a.signatureEd25519 = true)
    .invalidOperatorAssertion

/-- The digest of an assertion that is signed by the expected operator, current, and not behind
what was accepted before. -/
def verifyCurrentFor (a : OperatorAssertion) (providerId operatorPubkey : Hash256)
    (nowUnix : UInt64) (rollback : AssertionRollbackGuard) : DirectoryResult Hash256 := do
  a.verifySignatureAndBinding lib providerId operatorPubkey
  require (a.notBefore ≤ nowUnix ∧ nowUnix ≤ a.validUntil) .invalidOperatorAssertion
  require (rollback.highestAssertionEpoch = 0 ↔ isZero rollback.digestAtHighestEpoch = true)
    .invalidOperatorAssertion
  require (rollback.highestAssertionEpoch ≤ a.assertionEpoch) .invalidOperatorAssertion
  let digest ← a.assertionDigest lib
  require (¬(a.assertionEpoch = rollback.highestAssertionEpoch ∧ a.assertionEpoch ≠ 0 ∧
    digest ≠ rollback.digestAtHighestEpoch)) .invalidOperatorAssertion
  return digest

end OperatorAssertion

/-! ## Entries -/

def directoryEntryDPrefix : String := "bitcoinpir-service-directory-v1:"

def maxDirectoryCatalogHints : ℕ := 64

def healthBucketSeconds : ℕ := 300

def maxDirectoryEntryValiditySeconds : ℕ := 31 * 24 * 60 * 60

/-- Whether a provider is listed or withdrawn. -/
inductive EntryStatus
  | active
  | tombstone
  deriving DecidableEq

/-- What the directory observed of a provider. -/
inductive HealthClass
  | unknown
  | available
  | degraded
  | unavailable
  deriving DecidableEq

structure DirectoryHealth where
  cls : HealthClass
  observedBucket : UInt64
  deriving DecidableEq

inductive DirectoryBackend
  | dpf
  | harmony
  | onion
  | oram
  deriving DecidableEq

inductive DirectoryServerRole
  | primary
  | secondary
  deriving DecidableEq

inductive DirectoryAccessClass
  | free
  | paid
  | bestEffort
  deriving DecidableEq

inductive DirectoryAttestation
  | none
  | sevSnp
  deriving DecidableEq

/-- A service that a provider offers. -/
structure CatalogHint where
  backend : DirectoryBackend
  role : DirectoryServerRole
  access : DirectoryAccessClass
  attestation : DirectoryAttestation
  deriving DecidableEq

def EntryStatus.name : EntryStatus → String
  | .active => "active"
  | .tombstone => "tombstone"

def HealthClass.name : HealthClass → String
  | .unknown => "unknown"
  | .available => "available"
  | .degraded => "degraded"
  | .unavailable => "unavailable"

def DirectoryBackend.name : DirectoryBackend → String
  | .dpf => "dpf"
  | .harmony => "harmony"
  | .onion => "onion"
  | .oram => "oram"

def DirectoryServerRole.name : DirectoryServerRole → String
  | .primary => "primary"
  | .secondary => "secondary"

def DirectoryAccessClass.name : DirectoryAccessClass → String
  | .free => "free"
  | .paid => "paid"
  | .bestEffort => "best-effort"

def DirectoryAttestation.name : DirectoryAttestation → String
  | .none => "none"
  | .sevSnp => "sev-snp"

/-- The value whose name is given. -/
def parseName {α : Type} (name : α → String) (all : List α) (value : String) (e : DirectoryError) :
    DirectoryResult α :=
  okOr (all.find? fun a => name a == value) e

def parseEntryStatus (value : String) : DirectoryResult EntryStatus :=
  parseName EntryStatus.name [.active, .tombstone] value .invalidValue

def parseHealthClass (value : String) : DirectoryResult HealthClass :=
  parseName HealthClass.name [.unknown, .available, .degraded, .unavailable] value .invalidValue

def DirectoryBackend.parse (value : String) : DirectoryResult DirectoryBackend :=
  parseName DirectoryBackend.name [.dpf, .harmony, .onion, .oram] value .invalidCatalogHints

def DirectoryServerRole.parse (value : String) : DirectoryResult DirectoryServerRole :=
  parseName DirectoryServerRole.name [.primary, .secondary] value .invalidCatalogHints

def DirectoryAccessClass.parse (value : String) : DirectoryResult DirectoryAccessClass :=
  parseName DirectoryAccessClass.name [.free, .paid, .bestEffort] value .invalidCatalogHints

def DirectoryAttestation.parse (value : String) : DirectoryResult DirectoryAttestation :=
  parseName DirectoryAttestation.name [.none, .sevSnp] value .invalidCatalogHints

def DirectoryBackend.code : DirectoryBackend → ℕ
  | .dpf => 1
  | .harmony => 2
  | .onion => 3
  | .oram => 4

def DirectoryAccessClass.code : DirectoryAccessClass → ℕ
  | .free => 1
  | .paid => 2
  | .bestEffort => 3

/-- The order of hints: by backend, then by access class. -/
def CatalogHint.Before (a b : CatalogHint) : Prop :=
  a.backend.code < b.backend.code ∨
    a.backend.code = b.backend.code ∧ a.access.code < b.access.code

instance : DecidableRel CatalogHint.Before := fun _ _ => inferInstanceAs (Decidable (_ ∨ _))

/-- At most one hint for a backend, all of one role and attestation. -/
def validateCatalogHints (hints : List CatalogHint) : DirectoryResult Unit := do
  require (hints.length ≤ maxDirectoryCatalogHints) .invalidCatalogHints
  require (hints.IsChain CatalogHint.Before) .invalidCatalogHints
  require (hints.IsChain fun a b => a.backend ≠ b.backend) .invalidCatalogHints
  require (∀ first ∈ hints.head?, ∀ hint ∈ hints,
    hint.role = first.role ∧ hint.attestation = first.attestation) .invalidCatalogHints

def catalogHintFromWire (wire : CatalogHintJson) : DirectoryResult CatalogHint := do
  let backend ← DirectoryBackend.parse wire.backend
  let role ← DirectoryServerRole.parse wire.role
  let access ← DirectoryAccessClass.parse wire.access
  let attestation ← DirectoryAttestation.parse wire.attestation
  return { backend, role, access, attestation }

def catalogHintToWire (hint : CatalogHint) : CatalogHintJson :=
  { backend := hint.backend.name, role := hint.role.name, access := hint.access.name,
    attestation := hint.attestation.name }

/-- The fields are decoded here and checked later. -/
def operatorAssertionFromWire (wire : OperatorAssertionJson) :
    DirectoryResult OperatorAssertion := do
  require (wire.v = 1) .unsupportedVersion
  let operatorPubkeyEd25519 ← decodeLowerHex 32 wire.operatorPubkeyEd25519
  let providerId ← decodeLowerHex 32 wire.providerId
  let endpoints ← wire.endpoints.mapM fun endpoint => do
    require (endpoint.transport = "wss") .invalidOperatorAssertion
    return { url := endpoint.url : DirectoryEndpoint }
  let signatureEd25519 ← decodeLowerHex 64 wire.signatureEd25519
  return { operatorPubkeyEd25519, stableServerId := wire.stableServerId, providerId,
           assertionEpoch := wire.assertionEpoch, notBefore := wire.notBefore,
           validUntil := wire.validUntil, endpoints, signatureEd25519 }

def operatorAssertionToWire (a : OperatorAssertion) :
    DirectoryResult OperatorAssertionJson := do
  let _ ← a.encode lib
  return { v := 1, operatorPubkeyEd25519 := lowerHex a.operatorPubkeyEd25519.val,
           stableServerId := a.stableServerId, providerId := lowerHex a.providerId.val,
           assertionEpoch := a.assertionEpoch, notBefore := a.notBefore,
           validUntil := a.validUntil,
           endpoints := a.endpoints.map fun endpoint => { transport := "wss", url := endpoint.url },
           signatureEd25519 := lowerHex a.signatureEd25519.val }

/-- What the directory publishes about a provider. -/
structure DirectoryEntry where
  providerId : Hash256
  directorySequence : UInt64
  directoryValidUntil : UInt64
  status : EntryStatus
  operatorAssertion : Option OperatorAssertion
  operatorAssertionDigest : Option Hash256
  catalogHints : List CatalogHint
  health : DirectoryHealth
  deriving DecidableEq

/-- An entry with the event that carried it. -/
structure VerifiedEntryEvent where
  event : NostrEvent
  entry : DirectoryEntry
  shard : UInt8
  deriving DecidableEq

def entryDTagValue (providerId : Hash256) : String := directoryEntryDPrefix ++ lowerHex providerId.val

namespace DirectoryEntry

/-- The digest of the assertion is not on the wire. -/
def fromWire (wire : EntryJson) : DirectoryResult DirectoryEntry := do
  require (wire.v = 1) .unsupportedVersion
  let providerId ← decodeLowerHex 32 wire.providerId
  let status ← parseEntryStatus wire.status
  let operatorAssertion ← wire.operatorAssertion.mapM operatorAssertionFromWire
  let catalogHints ← wire.catalogHints.mapM catalogHintFromWire
  let cls ← parseHealthClass wire.health.cls
  return { providerId, directorySequence := wire.directorySequence,
           directoryValidUntil := wire.directoryValidUntil, status, operatorAssertion,
           operatorAssertionDigest := none, catalogHints,
           health := { cls, observedBucket := wire.health.observedBucket } }

def canonicalJsonBytes (entry : DirectoryEntry) : DirectoryResult Bytes := do
  let operatorAssertion ← entry.operatorAssertion.mapM (operatorAssertionToWire lib)
  let bytes := lib.entryToJson
    { v := 1, providerId := lowerHex entry.providerId.val,
      directorySequence := entry.directorySequence,
      directoryValidUntil := entry.directoryValidUntil, status := entry.status.name,
      operatorAssertion, catalogHints := entry.catalogHints.map catalogHintToWire,
      health := { cls := entry.health.cls.name, observedBucket := entry.health.observedBucket } }
  require (bytes.length ≤ maxNostrContentBytes) .inputTooLarge
  return bytes

/-- Check an entry at a time; the digest of its assertion is filled in. -/
def validateAndVerify (entry : DirectoryEntry) (nowUnix : UInt64) :
    DirectoryResult DirectoryEntry := do
  require (isZero entry.providerId = false ∧ entry.directorySequence ≠ 0 ∧ nowUnix ≠ 0 ∧
    nowUnix ≤ entry.directoryValidUntil ∧
    entry.directoryValidUntil.toNat - nowUnix.toNat ≤ maxDirectoryEntryValiditySeconds ∧
    entry.health.observedBucket ≠ 0 ∧
    entry.health.observedBucket.toNat % healthBucketSeconds = 0 ∧
    entry.health.observedBucket ≤ nowUnix) .entryExpired
  validateCatalogHints entry.catalogHints
  match entry.status with
  | .active => do
    let assertion ← okOr entry.operatorAssertion .invalidOperatorAssertion
    require (assertion.providerId = entry.providerId ∧
      entry.directoryValidUntil ≤ assertion.validUntil) .invalidOperatorAssertion
    let encoded ← assertion.encode lib
    let decoded ← OperatorAssertion.decode lib encoded
    require (decoded = assertion) .invalidOperatorAssertion
    let digest ← assertion.verifyCurrentFor lib entry.providerId assertion.operatorPubkeyEd25519
      nowUnix .initial
    return { entry with operatorAssertionDigest := some digest }
  | .tombstone => do
    require (entry.operatorAssertion = none ∧ entry.catalogHints = []) .invalidValue
    return { entry with operatorAssertionDigest := none }

/-- Both the received and the parsed form must be canonical. -/
def parseCanonicalJson (content : String) (nowUnix : UInt64) :
    DirectoryResult DirectoryEntry := do
  let bytes := toUtf8 content
  require (bytes ≠ [] ∧ bytes.length ≤ maxNostrContentBytes) .inputTooLarge
  let wire ← okOr (lib.entryFromJson bytes) .invalidJson
  require (lib.entryToJson wire = bytes) .nonCanonicalJson
  let parsed ← fromWire wire
  let value ← parsed.validateAndVerify lib nowUnix
  let canonical ← value.canonicalJsonBytes lib
  require (canonical = bytes) .nonCanonicalJson
  return value

end DirectoryEntry

/-- The event, its tags and the entry in it, at a time. -/
def verifyDirectoryEntryEvent (eventJson : Bytes) (pinned : Hash256) (nowUnix : UInt64) :
    DirectoryResult VerifiedEntryEvent := do
  let event ← NostrEvent.parseJson lib eventJson
  event.verifyForDirectoryKey lib pinned
  require (event.createdAt ≠ 0 ∧ event.createdAt ≤ nowUnix) .entryExpired
  let (dValue, shardValue) ←
    event.exactDirectoryProfileTagValues.mapError fun _ => .invalidEntryTag
  require (directoryEntryDPrefix.toList.isPrefixOf dValue.toList = true) .invalidEntryTag
  let providerFromTag ← decodeLowerHex 32
    (String.ofList (dValue.toList.drop directoryEntryDPrefix.toList.length))
  let entry ← DirectoryEntry.parseCanonicalJson lib event.content nowUnix
  require (providerFromTag = entry.providerId ∧ dValue = entryDTagValue entry.providerId)
    .invalidEntryTag
  let shard := coarseShardForProvider entry.providerId
  require (shardValue = shardTagValue shard) .invalidShard
  require (event.createdAt ≤ entry.directoryValidUntil) .entryExpired
  require (entry.directoryValidUntil.toNat - event.createdAt.toNat ≤
    maxDirectoryEntryValiditySeconds) .entryExpired
  require (∀ assertion ∈ entry.operatorAssertion,
    assertion.notBefore ≤ event.createdAt ∧ event.createdAt ≤ assertion.validUntil)
    .invalidOperatorAssertion
  return { event, entry, shard }

/-! ## What a verified entry guarantees -/

/-- The event is signed by the pinned key and the entry is current. An active entry carries an
assertion that is current too, with its digest. -/
structure VerifiedEntryEvent.Genuine (v : VerifiedEntryEvent) (pinned : Hash256)
    (nowUnix : UInt64) : Prop where
  signed : v.event.SignedBy lib pinned
  created : v.event.createdAt ≤ nowUnix
  current : nowUnix ≤ v.entry.directoryValidUntil
  shard : v.shard = coarseShardForProvider v.entry.providerId
  active : v.entry.status = .active → ∃ assertion digest,
    v.entry.operatorAssertion = some assertion ∧ v.entry.operatorAssertionDigest = some digest ∧
      assertion.providerId = v.entry.providerId ∧ assertion.notBefore ≤ nowUnix ∧
      nowUnix ≤ assertion.validUntil
  tombstone : v.entry.status = .tombstone → v.entry.operatorAssertion = none

variable {lib}

theorem OperatorAssertion.current_of_verify {a : OperatorAssertion}
    {providerId operatorPubkey digest : Hash256} {nowUnix : UInt64}
    {rollback : AssertionRollbackGuard}
    (h : a.verifyCurrentFor lib providerId operatorPubkey nowUnix rollback = .ok digest) :
    a.notBefore ≤ nowUnix ∧ nowUnix ≤ a.validUntil := by
  obtain ⟨_, -, h⟩ := bind_eq_ok.1 h
  obtain ⟨_, hwindow, -⟩ := bind_eq_ok.1 h
  exact require_eq_ok.1 hwindow

/-- A checked entry differs from the one given only in the digest. -/
theorem DirectoryEntry.validateAndVerify_eq_ok {entry value : DirectoryEntry} {nowUnix : UInt64}
    (h : entry.validateAndVerify lib nowUnix = .ok value) :
    nowUnix ≤ value.directoryValidUntil ∧
      (value.status = .active → ∃ assertion digest,
        value.operatorAssertion = some assertion ∧ value.operatorAssertionDigest = some digest ∧
          assertion.providerId = value.providerId ∧ assertion.notBefore ≤ nowUnix ∧
          nowUnix ≤ assertion.validUntil) ∧
      (value.status = .tombstone → value.operatorAssertion = none) := by
  simp only [validateAndVerify, bind_eq_ok, require_eq_ok, exists_const] at h
  obtain ⟨hwindow, -, -, h⟩ := h
  cases hstatus : entry.status with
  | active =>
    simp only [hstatus, bind_eq_ok, okOr_eq_ok, require_eq_ok, exists_const, return_eq_ok] at h
    obtain ⟨assertion, hassertion, hprovider, -, -, -, -, -, digest, hdigest, rfl⟩ := h
    refine ⟨hwindow.2.2.2.1, fun _ => ?_, fun hs => ?_⟩
    · exact ⟨assertion, digest, hassertion, rfl, hprovider.1,
        OperatorAssertion.current_of_verify hdigest⟩
    · cases hs
  | tombstone =>
    simp only [hstatus, bind_eq_ok, require_eq_ok, exists_const, return_eq_ok] at h
    obtain ⟨hnone, rfl⟩ := h
    refine ⟨hwindow.2.2.2.1, fun hs => ?_, fun _ => hnone.1⟩
    cases hs

/-- What the checks of an event establish. -/
theorem verifyDirectoryEntryEvent_eq_ok {eventJson : Bytes} {pinned : Hash256} {nowUnix : UInt64}
    {v : VerifiedEntryEvent} (h : verifyDirectoryEntryEvent lib eventJson pinned nowUnix = .ok v) :
    v.Genuine lib pinned nowUnix := by
  simp only [verifyDirectoryEntryEvent, DirectoryEntry.parseCanonicalJson, bind_eq_ok, require_eq_ok,
    exists_const, return_eq_ok, Prod.exists] at h
  obtain ⟨event, -, _, hsigned, hcreated, -, -, -, -, -, -, _, ⟨-, -, -, -, _, -, _, hvalue, -, -, -,
    rfl⟩, -, -, -, -, -, rfl⟩ := h
  obtain ⟨hcurrent, hactive, htombstone⟩ := DirectoryEntry.validateAndVerify_eq_ok hvalue
  exact ⟨.of_verify hsigned, hcreated.2, hcurrent, rfl, hactive, htombstone⟩

end BitcoinPir.Directory
