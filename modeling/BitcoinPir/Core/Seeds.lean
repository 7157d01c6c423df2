import BitcoinPir.Core.Merkle
import BitcoinPir.Core.Protocol

/-!
# Chain-derived seeds

A database is built with seeds derived from the block it is anchored at, so that nobody chooses
them. `deriveSeedU64` is the first eight bytes of a tagged hash of the anchor; the hash function
is the parameter `H`.
-/

namespace BitcoinPir

open Foundations

/-- A block of the chain. -/
structure ChainAnchor where
  blockHash : Hash256
  blockHeight : UInt32
  deriving DecidableEq

/-- The blocks a delta spans. -/
@[ext]
structure DeltaAnchor where
  fromAnchor : ChainAnchor
  toAnchor : ChainAnchor
  deriving DecidableEq

def chainAnchorBytes : ℕ := 36

def deltaAnchorBytes : ℕ := 72

/-- The stored form of an anchor: block hash, height. -/
def ChainAnchor.toBytes (anchor : ChainAnchor) : Bytes :=
  anchor.blockHash.val ++ leBytes 4 anchor.blockHeight.toNat

def ChainAnchor.fromBytes (bytes : Bytes) : Option ChainAnchor :=
  if bytes.length ≠ chainAnchorBytes then none
  else some ⟨Digest.read 32 bytes, UInt32.ofNat (leNat ((bytes.drop 32).take 4))⟩

def DeltaAnchor.toBytes (anchor : DeltaAnchor) : Bytes :=
  anchor.fromAnchor.toBytes ++ anchor.toAnchor.toBytes

def DeltaAnchor.fromBytes (bytes : Bytes) : Option DeltaAnchor :=
  if bytes.length ≠ deltaAnchorBytes then none
  else do
    let fromAnchor ← ChainAnchor.fromBytes (bytes.take chainAnchorBytes)
    let toAnchor ← ChainAnchor.fromBytes (bytes.drop chainAnchorBytes)
    return ⟨fromAnchor, toAnchor⟩

/-- The anchor of a database: a block for a snapshot, two blocks for a delta. -/
inductive HeaderAnchor
  | snapshot (anchor : ChainAnchor)
  | delta (anchor : DeltaAnchor)
  deriving DecidableEq

/-- The bytes an anchor contributes to a seed; the leading word keeps the two kinds apart. -/
def HeaderAnchor.absorb : HeaderAnchor → Bytes
  | .snapshot a =>
    toUtf8 "snapshot/" ++ leBytes 4 a.blockHeight.toNat ++ a.blockHash.val
  | .delta a =>
    toUtf8 "delta/" ++ leBytes 4 a.fromAnchor.blockHeight.toNat ++ a.fromAnchor.blockHash.val ++
      leBytes 4 a.toAnchor.blockHeight.toNat ++ a.toAnchor.blockHash.val

variable (H : Bytes → Hash256)

def taggedHash (domain : String) (context : HeaderAnchor) : Hash256 :=
  let tagHash := H (toUtf8 "BitcoinPIR/seed/v1/" ++ toUtf8 domain)
  H (tagHash.val ++ tagHash.val ++ context.absorb)

def deriveSeedU64 (domain : String) (context : HeaderAnchor) : UInt64 :=
  UInt64.ofNat (leNat ((taggedHash H domain context).val.take 8))

def indexCuckooMaster : String := "index/cuckoo/master"

def chunkCuckooMaster : String := "chunk/cuckoo/master"

def indexTagFingerprint : String := "index/tag/fingerprint"

/-- The seeds that place the items of a database and fingerprint its script hashes. -/
structure AnchorSeeds where
  indexMaster : UInt64
  chunkMaster : UInt64
  indexTag : UInt64
  deriving DecidableEq

/-- The seeds of a database anchored at `anchor`. -/
def AnchorSeeds.derive (anchor : HeaderAnchor) : AnchorSeeds where
  indexMaster := deriveSeedU64 H indexCuckooMaster anchor
  chunkMaster := deriveSeedU64 H chunkCuckooMaster anchor
  indexTag := deriveSeedU64 H indexTagFingerprint anchor

/-! ## Checking delivered seeds -/

/-- The fields of a table header that the seed check reads. -/
structure CuckooHeader where
  masterSeed : UInt64
  tagSeed : UInt64
  anchor : Option HeaderAnchor

/-- Sixteen hexadecimal digits. -/
def hexU64 (n : UInt64) : String :=
  let digits := Nat.toDigits 16 n.toNat
  String.ofList (List.replicate (16 - digits.length) '0' ++ digits)

/-- Compare one seed of a header with the seed derived from its anchor. -/
def verifySeed (field domain : String) (anchor : HeaderAnchor) (seed : UInt64) :
    Except String Unit :=
  let derived := deriveSeedU64 H domain anchor
  if derived ≠ seed then
    .error s!"{field} mismatch under domain \"{domain}\": derived 0x{hexU64 derived}, header has 0x{hexU64 seed}"
  else .ok ()

/-- The seeds of a header are the ones derived from its anchor; only INDEX headers have a tag
seed. -/
def verifyAnchorSeeds (header : CuckooHeader) (masterDomain : String)
    (tagDomain : Option String) : Except String Unit :=
  match header.anchor with
  | none => .error "no anchor in header (pre-Phase-C database)"
  | some anchor => do
    verifySeed H "master_seed" masterDomain anchor header.masterSeed
    match tagDomain with
    | none => .ok ()
    | some domain => verifySeed H "tag_seed" domain anchor header.tagSeed

end BitcoinPir
