import BitcoinPir.Directory.Entries

/-!
# Signed statements

What the parties sign: an operator its servers' identities and where they can be reached, a server
the channel key of a boot and the redeem requests it sends, an issuer its answers. Each statement
is signed as a byte string under a tag of its kind. The tags differ before the shortest of them
ends, and behind a tag every field has a fixed width, its length or its count in front, so the bytes
determine the kind and the fields (`signed_eq_of_signingPreimage_eq`).
-/

namespace BitcoinPir.Trust

open Foundations Reader Directory Digest

/-! ## Identities and manifests -/

inductive IdentityError
  | truncated (field : String)
  | unknownVersion (kind : String) (version : UInt8)
  | fieldTooLong (field : String) (len : ℕ)
  | tooManyManifestRoots (n : ℕ)
  | trailingBytes (n : ℕ)

def maxServerIdLen : ℕ := 256

def maxGitRevLen : ℕ := 256

def maxManifestRoots : ℕ := 32

/-- The operator's statement of a server's identity key. -/
structure IdentityCert where
  version : UInt8
  operatorPubkey : Hash256
  serverId : String
  identityPubkey : Hash256
  validFrom : Int64
  validUntil : Int64
  signature : Digest 64

/-- The server's statement of the channel key of this boot and of what it runs. -/
structure ChannelManifest where
  version : UInt8
  identityPubkey : Hash256
  serverId : String
  channelPub : Hash256
  binarySha256 : Hash256
  gitRev : String
  manifestRoots : List Hash256
  issuedAt : Int64
  signature : Digest 64

def readI64 (e : IdentityError) : Reader IdentityError Int64 := do
  let x ← takeU64 e
  return x.toInt64

/-- A text of at most `max` bytes behind its length. -/
def readText (kind field : String) (max : ℕ) : Reader IdentityError String := do
  let len ← takeU16 (.truncated (kind ++ "." ++ field ++ "_len"))
  ensure (len.toNat ≤ max) (.fieldTooLong field len.toNat)
  let bytes ← take len.toNat (.truncated (kind ++ "." ++ field))
  lift (okOr (fromUtf8 bytes) (.fieldTooLong (field ++ " (utf8)") len.toNat))

/-- A statement that takes up all of the bytes. -/
def decodeAll {α : Type} (p : Reader IdentityError α) (bytes : Bytes) : Except IdentityError α := do
  let (value, rest) ← p bytes
  require (rest = []) (.trailingBytes rest.length)
  return value

def IdentityCert.readFields : Reader IdentityError IdentityCert := do
  let version ← takeU8 (.truncated "IdentityCert.version")
  ensure (version = 1) (.unknownVersion "IdentityCert" version)
  let certType ← takeU8 (.truncated "IdentityCert.type")
  ensure (certType = 1) (.unknownVersion "IdentityCert.type" certType)
  let operatorPubkey ← takeArr 32 (.truncated "IdentityCert.operator_pubkey")
  let serverId ← readText "IdentityCert" "server_id" maxServerIdLen
  let identityPubkey ← takeArr 32 (.truncated "IdentityCert.identity_pubkey")
  let validFrom ← readI64 (.truncated "IdentityCert.valid_from")
  let validUntil ← readI64 (.truncated "IdentityCert.valid_until")
  let signature ← takeArr 64 (.truncated "IdentityCert.signature")
  return { version, operatorPubkey, serverId, identityPubkey, validFrom, validUntil, signature }

def IdentityCert.decode (bytes : Bytes) : Except IdentityError IdentityCert :=
  decodeAll IdentityCert.readFields bytes

def ChannelManifest.readFields : Reader IdentityError ChannelManifest := do
  let version ← takeU8 (.truncated "ChannelManifest.version")
  ensure (version = 1) (.unknownVersion "ChannelManifest" version)
  let manifestType ← takeU8 (.truncated "ChannelManifest.type")
  ensure (manifestType = 2) (.unknownVersion "ChannelManifest.type" manifestType)
  let identityPubkey ← takeArr 32 (.truncated "ChannelManifest.identity_pubkey")
  let serverId ← readText "ChannelManifest" "server_id" maxServerIdLen
  let channelPub ← takeArr 32 (.truncated "ChannelManifest.channel_pub")
  let binarySha256 ← takeArr 32 (.truncated "ChannelManifest.binary_sha256")
  let gitRev ← readText "ChannelManifest" "git_rev" maxGitRevLen
  let nRoots ← takeU8 (.truncated "ChannelManifest.n_roots")
  ensure (nRoots.toNat ≤ maxManifestRoots) (.tooManyManifestRoots nRoots.toNat)
  let manifestRoots ← manyFrom (fun i => takeArr 32 (.truncated
    (if i = 0 then "ChannelManifest.manifest_roots[0]" else "ChannelManifest.manifest_roots[i]")))
    0 nRoots.toNat
  let issuedAt ← readI64 (.truncated "ChannelManifest.issued_at")
  let signature ← takeArr 64 (.truncated "ChannelManifest.signature")
  return { version, identityPubkey, serverId, channelPub, binarySha256, gitRev, manifestRoots,
           issuedAt, signature }

def ChannelManifest.decode (bytes : Bytes) : Except IdentityError ChannelManifest :=
  decodeAll ChannelManifest.readFields bytes

/-! ## Redeem requests and responses -/

/-- What a server signs of a redeem request. -/
structure RedeemRequest where
  serverId : String
  nonce : Digest 16
  unixTime : UInt64
  items : List (UInt8 × Bytes)

/-- What the issuer signs of its answer. -/
structure RedeemResponse where
  nonce : Digest 16
  gasAdded : UInt64
  satValue : UInt64
  itemsAccepted : UInt32

def redeemItem (item : UInt8 × Bytes) : Bytes := [item.1] ++ leBytes 4 item.2.length ++ item.2

/-! ## Preimages -/

def identityCertDomainTag : Bytes := toUtf8 "BPIR-IDENTITY-CERT-V1"

def channelManifestDomainTag : Bytes := toUtf8 "BPIR-CHANNEL-MANIFEST-V1"

def redeemSigningDomainV1 : Bytes := toUtf8 "BPIR-CREDIT-REDEEM-V1"

def redeemResponseSigningDomainV1 : Bytes := toUtf8 "BPIR-CREDIT-REDEEM-RESPONSE-V1"

def IdentityCert.signingPreimage (c : IdentityCert) : Bytes :=
  identityCertDomainTag ++ [c.version] ++ c.operatorPubkey.val ++
    putBytesU16 (toUtf8 c.serverId) ++ c.identityPubkey.val ++
    leBytes 8 c.validFrom.toUInt64.toNat ++ leBytes 8 c.validUntil.toUInt64.toNat

def ChannelManifest.signingPreimage (m : ChannelManifest) : Bytes :=
  channelManifestDomainTag ++ [m.version] ++ m.identityPubkey.val ++
    putBytesU16 (toUtf8 m.serverId) ++ m.channelPub.val ++ m.binarySha256.val ++
    putBytesU16 (toUtf8 m.gitRev) ++ leBytes 1 m.manifestRoots.length ++
    m.manifestRoots.flatMap (·.val) ++ leBytes 8 m.issuedAt.toUInt64.toNat

def RedeemRequest.signingPreimage (r : RedeemRequest) : Bytes :=
  redeemSigningDomainV1 ++ putBytesU16 (toUtf8 r.serverId) ++ r.nonce.val ++
    leBytes 8 r.unixTime.toNat ++ leBytes 4 r.items.length ++ r.items.flatMap redeemItem

def RedeemResponse.signingPreimage (r : RedeemResponse) : Bytes :=
  redeemResponseSigningDomainV1 ++ r.nonce.val ++ leBytes 8 r.gasAdded.toNat ++
    leBytes 8 r.satValue.toNat ++ leBytes 4 r.itemsAccepted.toNat

inductive Statement
  | identityCert (c : IdentityCert)
  | channelManifest (m : ChannelManifest)
  | operatorAssertion (a : OperatorAssertion)
  | redeemRequest (r : RedeemRequest)
  | redeemResponse (r : RedeemResponse)

namespace Statement

/-- The tag the bytes start with. -/
def domain : Statement → Bytes
  | identityCert _ => identityCertDomainTag
  | channelManifest _ => channelManifestDomainTag
  | operatorAssertion _ => directoryOperatorAssertionSignatureDomain
  | redeemRequest _ => redeemSigningDomainV1
  | redeemResponse _ => redeemResponseSigningDomainV1

/-- The statement without its signature. -/
def signed : Statement → Statement
  | identityCert c => identityCert { c with signature := zero 64 }
  | channelManifest m => channelManifest { m with signature := zero 64 }
  | operatorAssertion a => operatorAssertion { a with signatureEd25519 := zero 64 }
  | s => s

variable (lib : Library)

/-- The field values are those a receiver accepts, or fit the lengths that are signed. -/
def Acceptable : Statement → Prop
  | identityCert c => ∃ bytes, IdentityCert.decode bytes = .ok c
  | channelManifest m => ∃ bytes, ChannelManifest.decode bytes = .ok m
  | operatorAssertion a => a.validate lib = .ok ()
  | redeemRequest r => (toUtf8 r.serverId).length < 2 ^ 16 ∧ r.items.length < 2 ^ 32 ∧
      ∀ item ∈ r.items, item.2.length < 2 ^ 32
  | redeemResponse _ => True

/-- The bytes that are signed; only assertions are checked first. -/
def signingPreimage : Statement → DirectoryResult Bytes
  | identityCert c => .ok c.signingPreimage
  | channelManifest m => .ok m.signingPreimage
  | operatorAssertion a => a.signingPreimage lib
  | redeemRequest r => .ok r.signingPreimage
  | redeemResponse r => .ok r.signingPreimage

end Statement

/-! ## Reading a preimage from its front -/

section Fronts

variable {a b : Bytes}

@[simp]
theorem digest_append_iff {w : ℕ} {d e : Digest w} :
    d.val ++ a = e.val ++ b ↔ d = e ∧ a = b :=
  ⟨append_inj, fun h => by rw [h.1, h.2]⟩

theorem leBytes_append_iff {w m n : ℕ} (hm : m < 256 ^ w) (hn : n < 256 ^ w) :
    leBytes w m ++ a = leBytes w n ++ b ↔ m = n ∧ a = b := by
  refine ⟨fun h => ?_, fun h => by rw [h.1, h.2]⟩
  obtain ⟨hmod, h⟩ := leBytes_append_inj h
  rw [Nat.mod_eq_of_lt hm, Nat.mod_eq_of_lt hn] at hmod
  exact ⟨hmod, h⟩

@[simp]
theorem u64_append_iff {x y : UInt64} :
    leBytes 8 x.toNat ++ a = leBytes 8 y.toNat ++ b ↔ x = y ∧ a = b := by
  rw [leBytes_append_iff x.toNat_lt y.toNat_lt, UInt64.toNat_inj]

@[simp]
theorem toUInt64_inj {x y : Int64} : x.toUInt64 = y.toUInt64 ↔ x = y := by
  cases x
  cases y
  simp

theorem item_append_iff {w : ℕ} {x y : Bytes} (hx : x.length < 256 ^ w) (hy : y.length < 256 ^ w) :
    leBytes w x.length ++ (x ++ a) = leBytes w y.length ++ (y ++ b) ↔ x = y ∧ a = b := by
  rw [leBytes_append_iff hx hy]
  exact ⟨fun h => List.append_inj h.2 h.1, fun h => by simp [h]⟩

theorem text_append_iff {s t : String} (hs : (toUtf8 s).length < 2 ^ 16)
    (ht : (toUtf8 t).length < 2 ^ 16) :
    putBytesU16 (toUtf8 s) ++ a = putBytesU16 (toUtf8 t) ++ b ↔ s = t ∧ a = b := by
  have hinj : toUtf8 s = toUtf8 t ↔ s = t :=
    ⟨fun h => by simpa [fromUtf8_toUtf8] using congrArg fromUtf8 h, fun h => by rw [h]⟩
  rw [putBytesU16, putBytesU16, List.append_assoc, List.append_assoc,
    item_append_iff (w := 2) hs ht, hinj]

end Fronts

/-! ## Lengths of accepted fields -/

theorem length_of_readText {kind field s : String} {max : ℕ} {b r : Bytes}
    (h : readText kind field max b = .ok (s, r)) : (toUtf8 s).length ≤ max := by
  simp only [readText, Reader.bind_eq_ok, ensure_eq_ok, take_eq_ok, lift_eq_ok, okOr_eq_ok] at h
  obtain ⟨len, _, -, _, _, ⟨hlen, -⟩, bytes, _, ⟨-, hbytes⟩, htext, -⟩ := h
  rwa [toUtf8_of_fromUtf8 htext, hbytes]

theorem length_manyFrom {α ε : Type} {p : ℕ → Reader ε α} {i n : ℕ} {b r : Bytes} {as : List α}
    (h : manyFrom p i n b = .ok (as, r)) : as.length = n := by
  induction n generalizing i b r as with
  | zero => rw [(pure_eq_ok.1 h).1, List.length_nil]
  | succ n ih =>
    simp only [manyFrom, Reader.bind_eq_ok, pure_eq_ok] at h
    obtain ⟨_, _, -, as', _, has, rfl, -⟩ := h
    rw [List.length_cons, ih has]

theorem IdentityCert.length_of_decode {bytes : Bytes} {c : IdentityCert}
    (h : IdentityCert.decode bytes = .ok c) : (toUtf8 c.serverId).length < 2 ^ 16 := by
  obtain ⟨⟨_, _⟩, h, hc⟩ := BitcoinPir.bind_eq_ok.1 h
  obtain ⟨_, -, hc⟩ := BitcoinPir.bind_eq_ok.1 hc
  cases hc
  simp only [readFields, Reader.bind_eq_ok, pure_eq_ok] at h
  obtain ⟨_, _, -, _, _, -, _, _, -, _, _, -, _, _, -, _, _, hid, _, _, -, _, _, -, _, _, -, _, _, -,
    rfl, -⟩ := h
  exact (length_of_readText hid).trans_lt (by decide)

theorem ChannelManifest.length_of_decode {bytes : Bytes} {m : ChannelManifest}
    (h : ChannelManifest.decode bytes = .ok m) :
    (toUtf8 m.serverId).length < 2 ^ 16 ∧ (toUtf8 m.gitRev).length < 2 ^ 16 ∧
      m.manifestRoots.length < 256 := by
  obtain ⟨⟨_, _⟩, h, hm⟩ := BitcoinPir.bind_eq_ok.1 h
  obtain ⟨_, -, hm⟩ := BitcoinPir.bind_eq_ok.1 hm
  cases hm
  simp only [readFields, Reader.bind_eq_ok, pure_eq_ok] at h
  obtain ⟨_, _, -, _, _, -, _, _, -, _, _, -, _, _, -, _, _, hid, _, _, -, _, _, -, _, _, hrev,
    nRoots, _, -, _, _, -, _, _, hroots, _, _, -, _, _, -, rfl, -⟩ := h
  exact ⟨(length_of_readText hid).trans_lt (by decide),
    (length_of_readText hrev).trans_lt (by decide),
    (length_manyFrom hroots).trans_lt nRoots.toNat_lt⟩

/-! ## The bytes determine the statement -/

theorem IdentityCert.signed_inj {c c' : IdentityCert} (hc : (toUtf8 c.serverId).length < 2 ^ 16)
    (hc' : (toUtf8 c'.serverId).length < 2 ^ 16) (h : c.signingPreimage = c'.signingPreimage) :
    { c with signature := zero 64 } = { c' with signature := zero 64 } := by
  have h := congrArg (· ++ []) h
  simp only [signingPreimage, List.append_assoc, List.append_cancel_left_eq, List.cons_append,
    List.nil_append, List.cons.injEq, digest_append_iff, text_append_iff hc hc', u64_append_iff, toUInt64_inj] at h
  simp [h]

theorem ChannelManifest.signed_inj {m m' : ChannelManifest}
    (hm : (toUtf8 m.serverId).length < 2 ^ 16 ∧ (toUtf8 m.gitRev).length < 2 ^ 16 ∧
      m.manifestRoots.length < 256)
    (hm' : (toUtf8 m'.serverId).length < 2 ^ 16 ∧ (toUtf8 m'.gitRev).length < 2 ^ 16 ∧
      m'.manifestRoots.length < 256) (h : m.signingPreimage = m'.signingPreimage) :
    { m with signature := zero 64 } = { m' with signature := zero 64 } := by
  have h := congrArg (· ++ []) h
  simp only [signingPreimage, List.append_assoc, List.append_cancel_left_eq, List.cons_append,
    List.nil_append, List.cons.injEq, digest_append_iff, text_append_iff hm.1 hm'.1, text_append_iff hm.2.1 hm'.2.1,
    leBytes_append_iff (w := 1) hm.2.2 hm'.2.2] at h
  obtain ⟨hversion, hidentity, hserver, hchannel, hbinary, hgit, hroots⟩ := h
  obtain ⟨hroots, h⟩ := eq_of_flatMap_append (fun _ _ _ _ _ _ => digest_append_iff.1) hroots
  simp only [u64_append_iff, toUInt64_inj] at h
  simp [*]

theorem endpoint_append_inj {e e' : DirectoryEndpoint} (he : e.Valid) (he' : e'.Valid)
    {a b : Bytes} (h : e.encode ++ a = e'.encode ++ b) : e = e' ∧ a = b := by
  cases e
  cases e'
  simpa [DirectoryEndpoint.encode, text_append_iff (he.2.1.trans_lt (by decide))
    (he'.2.1.trans_lt (by decide))] using h

theorem assertion_signed_inj {lib : Library} {a a' : OperatorAssertion}
    (ha : a.validate lib = .ok ()) (ha' : a'.validate lib = .ok ())
    (h : a.signingPreimage lib = a'.signingPreimage lib) :
    { a with signatureEd25519 := zero 64 } =
      { a' with signatureEd25519 := zero 64 } := by
  have h := congrArg (Except.map (· ++ [])) h
  simp only [OperatorAssertion.signingPreimage, OperatorAssertion.unsignedEncoding, ha, ha', ok_bind,
    pure, Except.pure, Except.map, Except.ok.injEq] at h
  simp only [OperatorAssertion.validate, BitcoinPir.bind_eq_ok, require_eq_ok, exists_const] at ha ha'
  obtain ⟨⟨-, hid, -⟩, -, -, ⟨-, hcount⟩, hvalid, -⟩ := ha
  obtain ⟨⟨-, hid', -⟩, -, -, ⟨-, hcount'⟩, hvalid', -⟩ := ha'
  simp only [List.append_assoc, List.append_cancel_left_eq, List.cons_append, List.nil_append,
    List.cons.injEq, true_and, digest_append_iff, u64_append_iff,
    text_append_iff (hid.trans_lt (by decide)) (hid'.trans_lt (by decide)),
    leBytes_append_iff (w := 1) (hcount.trans_lt (by decide)) (hcount'.trans_lt (by decide))] at h
  obtain ⟨hoperator, hserver, hprovider, hepoch, hbefore, huntil, hendpoints⟩ := h
  obtain ⟨hendpoints, -⟩ := eq_of_flatMap_append
    (fun x hx y hy _ _ => endpoint_append_inj (hvalid x hx) (hvalid' y hy)) hendpoints
  simp [*]

theorem RedeemRequest.signed_inj {r r' : RedeemRequest}
    (hr : (toUtf8 r.serverId).length < 2 ^ 16 ∧ r.items.length < 2 ^ 32 ∧
      ∀ item ∈ r.items, item.2.length < 2 ^ 32)
    (hr' : (toUtf8 r'.serverId).length < 2 ^ 16 ∧ r'.items.length < 2 ^ 32 ∧
      ∀ item ∈ r'.items, item.2.length < 2 ^ 32)
    (h : r.signingPreimage = r'.signingPreimage) : r = r' := by
  have h := congrArg (· ++ []) h
  simp only [signingPreimage, List.append_assoc, List.append_cancel_left_eq, digest_append_iff,
    text_append_iff hr.1 hr'.1, u64_append_iff, leBytes_append_iff (w := 4) hr.2.1 hr'.2.1] at h
  obtain ⟨hid, hnonce, htime, hitems⟩ := h
  obtain ⟨hitems, -⟩ := eq_of_flatMap_append (fun x hx y hy a b h => by
    simpa [redeemItem, item_append_iff (w := 4) (hr.2.2 x hx) (hr'.2.2 y hy), Prod.ext_iff,
      and_assoc] using h) hitems
  cases r
  simp_all

theorem RedeemResponse.signed_inj {r r' : RedeemResponse}
    (h : r.signingPreimage = r'.signingPreimage) : r = r' := by
  have h := congrArg (· ++ []) h
  simp only [signingPreimage, List.append_assoc, List.append_cancel_left_eq, digest_append_iff,
    u64_append_iff, leBytes_append_iff (w := 4) r.itemsAccepted.toNat_lt r'.itemsAccepted.toNat_lt,
    UInt32.toNat_inj] at h
  cases r
  simp_all

namespace Statement

variable {lib : Library}

theorem take_domain {s : Statement} {p : Bytes} (h : s.signingPreimage lib = .ok p) :
    p.take 21 = s.domain.take 21 := by
  have hlen : 21 ≤ s.domain.length := by cases s <;> simp only [domain] <;> decide
  obtain ⟨body, rfl⟩ : ∃ body, p = s.domain ++ body := by
    cases s with
    | operatorAssertion a =>
      obtain ⟨unsigned, -, h⟩ := BitcoinPir.bind_eq_ok.1 h
      exact ⟨unsigned, (Except.ok.inj h).symm⟩
    | _ =>
      rw [← Except.ok.inj h]
      exact ⟨_, List.append_assoc _ _ _⟩
  exact List.take_append_of_le_length hlen

/-- **Signed statements are unambiguous.** Statements with the same preimage are of one kind and
agree in all that is signed. -/
theorem signed_eq_of_signingPreimage_eq (lib : Library) (s s' : Statement) (hs : s.Acceptable lib)
    (hs' : s'.Acceptable lib) {p : Bytes} (h : s.signingPreimage lib = .ok p)
    (h' : s'.signingPreimage lib = .ok p) : s.signed = s'.signed := by
  have heq := h.trans h'.symm
  -- the first bytes of the tags already tell the kinds apart
  have htag := (take_domain h).symm.trans (take_domain h')
  cases s <;> cases s' <;> try exact absurd htag (by simp only [domain]; decide)
  case identityCert.identityCert c c' =>
    obtain ⟨_, hc⟩ := hs
    obtain ⟨_, hc'⟩ := hs'
    exact congrArg identityCert (IdentityCert.signed_inj (IdentityCert.length_of_decode hc)
      (IdentityCert.length_of_decode hc') (Except.ok.inj heq))
  case channelManifest.channelManifest m m' =>
    obtain ⟨_, hm⟩ := hs
    obtain ⟨_, hm'⟩ := hs'
    exact congrArg channelManifest (ChannelManifest.signed_inj (ChannelManifest.length_of_decode hm)
      (ChannelManifest.length_of_decode hm') (Except.ok.inj heq))
  case operatorAssertion.operatorAssertion a a' =>
    exact congrArg operatorAssertion (assertion_signed_inj hs hs' heq)
  case redeemRequest.redeemRequest r r' =>
    exact congrArg redeemRequest (RedeemRequest.signed_inj hs hs' (Except.ok.inj heq))
  case redeemResponse.redeemResponse r r' =>
    exact congrArg redeemResponse (RedeemResponse.signed_inj (Except.ok.inj heq))

/-- A certificate of zero keys. -/
def zeroCert (signature : Digest 64) : IdentityCert :=
  { version := 1, operatorPubkey := zero 32, serverId := "s", identityPubkey := zero 32,
    validFrom := 0, validUntil := 0, signature }

/-- A library that reads nothing and verifies nothing. -/
def noLibrary : Library where
  relayMessage _ := none
  eventFromJson _ := none
  idPreimage _ _ _ _ _ := []
  checkpointFromJson _ := none
  checkpointToJson _ := []
  entryFromJson _ := none
  entryToJson _ := []
  sha256 _ := zero 32
  bip340Verify _ _ _ := false
  ed25519VerifyStrict _ _ _ := false

set_option maxRecDepth 4000 in
theorem signed_eq_zeroCert :
    (identityCert (zeroCert (zero 64))).signed =
      (identityCert (zeroCert ⟨List.replicate 64 1, rfl⟩)).signed :=
  signed_eq_of_signingPreimage_eq noLibrary (identityCert _) (identityCert _)
    ⟨[1, 1] ++ List.replicate 32 0 ++ [1, 0, 115] ++ List.replicate 112 0, rfl⟩
    ⟨[1, 1] ++ List.replicate 32 0 ++ [1, 0, 115] ++ List.replicate 48 0 ++ List.replicate 64 1,
      rfl⟩ rfl rfl

end Statement

end BitcoinPir.Trust
