import BitcoinPir.Foundations.Reader
import BitcoinPir.Core.Protocol
import BitcoinPir.Core.Merkle

/-!
# Root bundles

The payload a builder signs for a database: the chain state it was built from, the build
parameters, and the Merkle roots of its artifacts under their labels. The signatures of a bundle
are not part of a database proof and are left out. The format is canonical
(`RootBundlePayload.decode_rootBundle_iff`).
-/

namespace BitcoinPir.Trust

open Foundations Reader

inductive BuildKind
  | snapshot
  | delta
  deriving DecidableEq

/-- A block, as the trust crates name it. -/
structure AttestedChainAnchor where
  blockHash : Hash256
  height : UInt32
  deriving DecidableEq

/-- A Merkle root under its label. -/
structure NamedRoot where
  label : String
  root : Hash256
  deriving DecidableEq

structure RootBundlePayload where
  networkMagic : Digest 4
  buildKind : BuildKind
  fromAnchor : AttestedChainAnchor
  anchor : AttestedChainAnchor
  utxoMuhash : Hash256
  dustThresholdSats : UInt64
  maxUtxosPerSpk : UInt32
  paramsHash : Hash256
  /-- The eight bytes of the signed time stamp. -/
  issuedAt : UInt64
  roots : List NamedRoot
  deriving DecidableEq

inductive BundleError
  | malformed (what : String)
  | invalidRoots (what : String)
  deriving DecidableEq

def BundleError.text : BundleError → String
  | .malformed m => s!"malformed bundle: {m}"
  | .invalidRoots m => s!"invalid roots: {m}"

def payloadVersion : UInt16 := 1

def maxRoots : ℕ := 1024

def maxLabelLen : ℕ := 64

/-! ## Encoding -/

def BuildKind.toByte : BuildKind → UInt8
  | .snapshot => 0
  | .delta => 1

def BuildKind.fromByte (b : UInt8) : Except BundleError BuildKind :=
  if b = 0 then .ok .snapshot
  else if b = 1 then .ok .delta
  else .error (.malformed "unknown build kind")

/-- Each label is below the next. -/
def strictlySorted : List NamedRoot → Bool
  | r :: r' :: rs => r.label < r'.label && strictlySorted (r' :: rs)
  | _ => true

/-- The root list is canonical: labels are short, printable, sorted and distinct. -/
def validateRoots (roots : List NamedRoot) : Except BundleError Unit := do
  require (roots ≠ []) (.invalidRoots "empty root list")
  require (roots.length ≤ maxRoots) (.invalidRoots "too many roots")
  roots.forM fun r => do
    require (r.label ≠ "" ∧ (toUtf8 r.label).length ≤ maxLabelLen) (.invalidRoots "label length")
    require (∀ b ∈ toUtf8 r.label, 0x21 ≤ b ∧ b ≤ 0x7e)
      (.invalidRoots "label must be printable ASCII, no spaces")
  require (strictlySorted roots) (.invalidRoots "labels must be strictly sorted")

def encodeNamedRoot (r : NamedRoot) : Bytes :=
  UInt8.ofNat (toUtf8 r.label).length :: (toUtf8 r.label ++ r.root.val)

/-- The canonical encoding; a root list that is not canonical is never encoded. -/
def RootBundlePayload.encode (p : RootBundlePayload) : Except BundleError Bytes := do
  validateRoots p.roots
  return leBytes 2 payloadVersion.toNat ++ (p.networkMagic.val ++ (p.buildKind.toByte ::
    (p.fromAnchor.blockHash.val ++ (leBytes 4 p.fromAnchor.height.toNat ++
    (p.anchor.blockHash.val ++ (leBytes 4 p.anchor.height.toNat ++ (p.utxoMuhash.val ++
    (leBytes 8 p.dustThresholdSats.toNat ++ (leBytes 4 p.maxUtxosPerSpk.toNat ++
    (p.paramsHash.val ++ (leBytes 8 p.issuedAt.toNat ++ (leBytes 2 p.roots.length ++
    p.roots.flatMap encodeNamedRoot))))))))))))

/-! ## Decoding -/

def labelFromUtf8 (labelBytes : Bytes) : Except BundleError String :=
  match fromUtf8 labelBytes with
  | none => .error (.invalidRoots "label not UTF-8")
  | some label => .ok label

def takeNamedRoot : Reader BundleError NamedRoot := do
  let labelLen ← takeU8 (.malformed "label len")
  let labelBytes ← take labelLen.toNat (.malformed "label")
  let label ← lift (labelFromUtf8 labelBytes)
  let root ← takeArr 32 (.malformed "root")
  return ⟨label, root⟩

def takeNamedRoots : ℕ → Reader BundleError (List NamedRoot)
  | 0 => pure []
  | n + 1 => do
    let r ← takeNamedRoot
    let rs ← takeNamedRoots n
    return r :: rs

def takePayload : Reader BundleError RootBundlePayload := do
  let version ← takeU16 (.malformed "version")
  ensure (version = payloadVersion) (.malformed "unsupported payload version")
  let networkMagic ← takeArr 4 (.malformed "network magic")
  let kindByte ← takeU8 (.malformed "build kind")
  let buildKind ← lift (BuildKind.fromByte kindByte)
  let fromHash ← takeArr 32 (.malformed "from block hash")
  let fromHeight ← takeU32 (.malformed "from height")
  let hash ← takeArr 32 (.malformed "block hash")
  let height ← takeU32 (.malformed "height")
  let utxoMuhash ← takeArr 32 (.malformed "muhash")
  let dustThresholdSats ← takeU64 (.malformed "dust threshold")
  let maxUtxosPerSpk ← takeU32 (.malformed "max utxos")
  let paramsHash ← takeArr 32 (.malformed "params hash")
  let issuedAt ← takeU64 (.malformed "issued at")
  let nRoots ← takeU16 (.malformed "root count")
  ensure (nRoots.toNat ≤ maxRoots) (.invalidRoots "too many roots")
  let roots ← takeNamedRoots nRoots.toNat
  return {
    networkMagic, buildKind, utxoMuhash, dustThresholdSats, maxUtxosPerSpk, paramsHash,
    issuedAt, roots
    fromAnchor := ⟨fromHash, fromHeight⟩
    anchor := ⟨hash, height⟩ }

/-- Strict decoding: unknown versions, non-canonical root lists and trailing bytes are
refused. -/
def RootBundlePayload.decode (bytes : Bytes) : Except BundleError RootBundlePayload := do
  let (payload, rest) ← takePayload bytes
  require (rest = []) (.malformed "trailing bytes")
  validateRoots payload.roots
  return payload

/-- The root under a label. Labels are sorted and distinct in a decoded payload, so the binary
search of the source finds the one entry with this label. -/
def RootBundlePayload.root (payload : RootBundlePayload) (label : String) : Option Hash256 :=
  (payload.roots.find? fun r => r.label = label).map NamedRoot.root

/-! ## Round trip -/

variable {b r : Bytes}

theorem labelFromUtf8_eq_ok {label : String} : labelFromUtf8 b = .ok label ↔ b = toUtf8 label := by
  unfold labelFromUtf8
  constructor
  · intro h
    cases hb : fromUtf8 b <;> rw [hb] at h <;> cases h
    exact (toUtf8_of_fromUtf8 hb).symm
  · rintro rfl
    rw [fromUtf8_toUtf8]

theorem takeNamedRoot_eq_ok {x : NamedRoot} :
    takeNamedRoot b = .ok (x, r) ↔ (toUtf8 x.label).length < 256 ∧ b = encodeNamedRoot x ++ r := by
  cases x
  simp only [takeNamedRoot, encodeNamedRoot, Reader.bind_eq_ok, takeU8_eq_ok, take_eq_ok, lift_eq_ok,
    labelFromUtf8_eq_ok, takeArr_eq_ok, pure_eq_ok, ↓existsAndEq, NamedRoot.mk.injEq, true_and,
    and_true]
  constructor
  · rintro ⟨len, rfl, hlen⟩
    exact ⟨hlen ▸ len.toNat_lt, by simp [hlen]⟩
  · rintro ⟨hlt, rfl⟩
    exact ⟨_, by simp, (UInt8.toNat_ofNat_of_lt' hlt).symm⟩

theorem takeNamedRoots_eq_ok {n : ℕ} {xs : List NamedRoot} :
    takeNamedRoots n b = .ok (xs, r) ↔ xs.length = n ∧ (∀ x ∈ xs, (toUtf8 x.label).length < 256) ∧
      b = xs.flatMap encodeNamedRoot ++ r := by
  induction n generalizing xs b r with
  | zero =>
    rw [takeNamedRoots, pure_eq_ok, List.length_eq_zero_iff, eq_comm (a := r)]
    exact and_congr_right fun hxs => by simp [hxs]
  | succ n ih =>
    simp only [takeNamedRoots, Reader.bind_eq_ok, takeNamedRoot_eq_ok, ih, pure_eq_ok, ↓existsAndEq]
    cases xs with
    | nil => simp
    | cons x xs =>
      simp only [List.cons.injEq, ↓existsAndEq, List.length_cons, Nat.add_right_cancel_iff,
        List.forall_mem_cons, List.flatMap_cons, List.append_assoc, and_true]
      tauto

theorem fromByte_eq_ok {k : UInt8} {kind : BuildKind} :
    BuildKind.fromByte k = .ok kind ↔ k = kind.toByte := by
  unfold BuildKind.fromByte
  split_ifs <;> cases kind <;> simp_all [BuildKind.toByte]

/-- **The format is canonical**: bytes are read as exactly the payload they encode. -/
theorem RootBundlePayload.decode_rootBundle_iff {p : RootBundlePayload} :
    RootBundlePayload.decode b = .ok p ↔ p.encode = .ok b := by
  obtain ⟨_, _, ⟨⟩, ⟨⟩, _, _, _, _, _, roots⟩ := p
  simp only [RootBundlePayload.decode, RootBundlePayload.encode, takePayload, bind_eq_ok,
    Reader.bind_eq_ok, takeU16_eq_ok, ensure_eq_ok, takeArr_eq_ok, takeU8_eq_ok, lift_eq_ok,
    fromByte_eq_ok, takeU32_eq_ok, takeU64_eq_ok, takeNamedRoots_eq_ok, pure_eq_ok, require_eq_ok,
    return_eq_ok, exists_const, Prod.exists, ↓existsAndEq, mk.injEq, AttestedChainAnchor.mk.injEq,
    true_and, and_true, List.append_nil]
  constructor
  · rintro ⟨n, u, ⟨rfl, -, hlen, -⟩, hvalid⟩
    exact ⟨u, hvalid, by rw [hlen]⟩
  · rintro ⟨u, hvalid, rfl⟩
    have hchecks := hvalid
    simp only [validateRoots, bind_eq_ok, require_eq_ok, exists_const, forM_eq_ok] at hchecks
    obtain ⟨-, hcount, hlabels, -⟩ := hchecks
    have hn := UInt16.toNat_ofNat_of_lt' (hcount.trans_lt (by decide))
    exact ⟨UInt16.ofNat roots.length, u, ⟨by rw [hn], hn.symm ▸ hcount, hn.symm,
      fun x hx => (hlabels x hx).1.2.trans_lt (by decide)⟩, hvalid⟩

end BitcoinPir.Trust
