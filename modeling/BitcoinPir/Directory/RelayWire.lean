import BitcoinPir.Directory.Catalog

/-!
# What a directory relay accepts

`validateEventJson` checks what does not change with time: the signature, the exact encoding, the two
tags and the shard. `validateCurrentEventProfile` checks the content at a time. The relay calls it at
the time an event is received and, when it opens its archive, at the time the event was created.

The two calls agree on checkpoints (`verifyDirectoryCheckpointEvent_at_creation`). They agree on an
entry iff its health was not observed after its creation (`verifyDirectoryEntryEvent_at_creation`).
-/

namespace BitcoinPir.Directory

open Foundations

/-- The relay also writes events. -/
structure RelayLibrary extends Library where
  eventToJson : NostrEventJson → Bytes

inductive EventProfile
  | entry
  | checkpoint
  deriving DecidableEq

structure ValidatedEvent where
  event : NostrEvent
  canonicalJson : Bytes
  dTag : String
  sTag : String
  shard : UInt8
  profile : EventProfile

def afterPrefix (pre value : String) : Option String :=
  if pre.toList.isPrefixOf value.toList then
    some (String.ofList (value.toList.drop pre.toList.length))
  else none

def parseShardTag (value : String) : Except String UInt8 :=
  okOr (((List.range directoryShardCount).map UInt8.ofNat).find? fun shard =>
    value = shardTagValue shard) "directory shard tag is not canonical"

/-- The profile of an event, from the namespace of its `d` tag. -/
def parseProfile (dTag : String) (shard : UInt8) : Except String EventProfile :=
  match afterPrefix directoryEntryDPrefix dTag with
  | some providerHex => do
    let provider ← (decodeLowerHex 32 providerHex).mapError fun _ =>
      "entry d-tag provider must be exact lowercase 32-byte hex"
    require (coarseShardForProvider provider = shard) "entry EVENT d/s shards disagree"
    return .entry
  | none =>
    match afterPrefix directoryCheckpointDPrefix dTag with
    | some checkpointShard => do
      require (checkpointShard = String.singleton (hexDigit shard.toNat))
        "checkpoint EVENT d/s shards disagree"
      return .checkpoint
    | none => .error "EVENT has no BitcoinPIR directory d namespace"

variable (lib : RelayLibrary) (pinned : Hash256)

def NostrEvent.toJsonBytes (event : NostrEvent) : DirectoryResult Bytes := do
  event.validateBounds
  let bytes := lib.eventToJson
    { id := lowerHex event.id.val, pubkey := lowerHex event.pubkey.val,
      createdAt := event.createdAt, kind := event.kind, tags := event.tags,
      content := event.content, sig := lowerHex event.signature.val }
  require (bytes.length ≤ maxNostrEventBytes) .inputTooLarge
  return bytes

/-- The time that the source passes along is not used. -/
def validateEventJson (eventJson : Bytes) : Except String ValidatedEvent := do
  require (eventJson ≠ [] ∧ eventJson.length ≤ maxNostrEventBytes)
    "EVENT object exceeds the directory event bound"
  let event ← (NostrEvent.parseJson lib.toLibrary eventJson).mapError fun error =>
    s!"EVENT object is invalid: {error.text}"
  (event.verifyForDirectoryKey lib.toLibrary pinned).mapError fun error =>
    s!"EVENT identity verification failed: {error.text}"
  let canonicalJson ← (event.toJsonBytes lib).mapError fun error =>
    s!"EVENT canonical encoding failed: {error.text}"
  require (canonicalJson = eventJson) "EVENT object is not the exact canonical encoding"
  let (dTag, sTag) ← event.exactDirectoryProfileTagValues.mapError fun _ =>
    "EVENT does not have the exact ordered d/s profile"
  let shard ← parseShardTag sTag
  let profile ← parseProfile dTag shard
  return { event, canonicalJson, dTag, sTag, shard, profile }

def validateCurrentEventProfile (event : ValidatedEvent) (nowUnix : UInt64) : Except String Unit :=
  match event.profile,
      verifyDirectoryEntryEvent lib.toLibrary event.canonicalJson pinned nowUnix,
      verifyDirectoryCheckpointEvent lib.toLibrary event.canonicalJson pinned nowUnix with
  | .entry, .ok _, .error _ | .checkpoint, .error _, .ok _ => .ok ()
  | _, _, _ => .error "EVENT is not one current BitcoinPIR directory profile event"

/-! ## What a validated event guarantees -/

/-- The event that the bytes encode, with its coordinate. -/
structure ValidatedEvent.Genuine (v : ValidatedEvent) (eventJson : Bytes) : Prop where
  canonical : v.canonicalJson = eventJson
  parsed : NostrEvent.parseJson lib.toLibrary eventJson = .ok v.event
  pubkey : v.event.pubkey = pinned
  kind : v.event.kind = bitcoinpirDirectoryKind
  tags : v.event.tags = [["d", v.dTag], ["s", v.sTag]]
  shard_lt : v.shard.toNat < directoryShardCount
  profile : parseProfile v.dTag v.shard = .ok v.profile

variable {lib pinned}

theorem mapError_eq_ok {ε ε' α : Type} {x : Except ε α} {f : ε → ε'} {a : α} :
    x.mapError f = .ok a ↔ x = .ok a := by
  cases x <;> simp [Except.mapError]

theorem exactDirectoryProfileTagValues_eq_ok {event : NostrEvent} {d s : String}
    (h : event.exactDirectoryProfileTagValues = .ok (d, s)) :
    event.tags = [["d", d], ["s", s]] := by
  unfold NostrEvent.exactDirectoryProfileTagValues at h
  split at h
  next dName dValue sName sValue htags =>
    split_ifs at h with hnames
    obtain ⟨rfl, rfl⟩ := hnames
    cases h
    exact htags
  next => cases h

theorem parseShardTag_eq_ok {value : String} {shard : UInt8}
    (h : parseShardTag value = .ok shard) : shard.toNat < directoryShardCount := by
  rw [parseShardTag, okOr_eq_ok] at h
  obtain ⟨n, hn, rfl⟩ := List.mem_map.1 (List.mem_of_find?_eq_some h)
  have hlt : n < 16 := List.mem_range.1 hn
  have hsize : n < UInt8.size := lt_trans hlt (by decide)
  rw [UInt8.toNat_ofNat_of_lt' hsize]
  exact hlt

variable {eventJson : Bytes} {v : ValidatedEvent}

theorem validateEventJson_eq_ok (h : validateEventJson lib pinned eventJson = .ok v) :
    v.Genuine lib pinned eventJson := by
  simp only [validateEventJson, NostrEvent.verifyForDirectoryKey, NostrEvent.verifyOwnSignature,
    mapError_eq_ok, bind_eq_ok, require_eq_ok, exists_const, return_eq_ok, Prod.exists] at h
  obtain ⟨-, event, hparsed, ⟨hpubkey, -, -, hkind, -⟩, canonical, -, hcanonical, d, s, htags, shard,
    hshard, profile, hprofile, rfl⟩ := h
  exact ⟨hcanonical, hparsed, hpubkey, hkind, exactDirectoryProfileTagValues_eq_ok htags,
    parseShardTag_eq_ok hshard, hprofile⟩

/-- The `d` tag determines profile and shard. -/
theorem parseProfile_inj {dTag : String} {shard shard' : UInt8} {profile profile' : EventProfile}
    (hlt : shard.toNat < directoryShardCount) (hlt' : shard'.toNat < directoryShardCount)
    (h : parseProfile dTag shard = .ok profile) (h' : parseProfile dTag shard' = .ok profile') :
    shard = shard' ∧ profile = profile' := by
  unfold parseProfile at h h'
  cases hentry : afterPrefix directoryEntryDPrefix dTag with
  | some providerHex =>
    simp only [hentry, bind_eq_ok, require_eq_ok, exists_const, return_eq_ok] at h h'
    obtain ⟨provider, hprovider, rfl, rfl⟩ := h
    obtain ⟨provider', hprovider', rfl, rfl⟩ := h'
    obtain rfl : provider = provider' := Except.ok.inj (hprovider.symm.trans hprovider')
    exact ⟨rfl, rfl⟩
  | none =>
    rw [hentry] at h h'
    cases hcheckpoint : afterPrefix directoryCheckpointDPrefix dTag with
    | none =>
      rw [hcheckpoint] at h
      cases h
    | some digit =>
      simp only [hcheckpoint, bind_eq_ok, require_eq_ok, exists_const, return_eq_ok] at h h'
      obtain ⟨hdigit, rfl⟩ := h
      obtain ⟨hdigit', rfl⟩ := h'
      have hall : ∀ n < 16, ∀ m < 16,
          String.singleton (hexDigit n) = String.singleton (hexDigit m) → n = m := by
        decide +kernel
      have hnat := hall _ hlt _ hlt' (hdigit.symm.trans hdigit')
      exact ⟨UInt8.toNat_inj.1 hnat, rfl⟩

theorem ValidatedEvent.Genuine.exactlyOneTagValue (h : v.Genuine lib pinned eventJson) :
    v.event.exactlyOneTagValue "d" = .ok v.dTag := by
  rw [NostrEvent.exactlyOneTagValue, h.tags]
  rfl

/-- Events of one coordinate are ordered by time of creation and then by id. -/
theorem ValidatedEvent.Genuine.order {w : ValidatedEvent} {eventJson' : Bytes}
    (hv : v.Genuine lib pinned eventJson) (hw : w.Genuine lib pinned eventJson')
    (hd : v.dTag = w.dTag) :
    v.event.nip01AddressableReplacementOrder w.event =
      .ok ((compare v.event.createdAt w.event.createdAt).then
        (compare w.event.id.val v.event.id.val)) := by
  rw [NostrEvent.nip01AddressableReplacementOrder, require_of ⟨hv.kind, hw.kind⟩, ok_bind,
    hv.exactlyOneTagValue, ok_bind, hw.exactlyOneTagValue, ok_bind,
    require_of ⟨hv.kind.trans hw.kind.symm, hv.pubkey.trans hw.pubkey.symm, hd⟩, ok_bind]
  rfl

/-! ## The check at the time of creation -/

section
variable {lib : Library} {pinned : Hash256}

variable {t : UInt64} {entry value : DirectoryEntry}

theorem OperatorAssertion.verifyCurrentFor_at {a : OperatorAssertion}
    {providerId operatorPubkey digest : Hash256} {t' : UInt64} {rollback : AssertionRollbackGuard}
    (h : a.verifyCurrentFor lib providerId operatorPubkey t rollback = .ok digest)
    (hwindow : a.notBefore ≤ t' ∧ t' ≤ a.validUntil) :
    a.verifyCurrentFor lib providerId operatorPubkey t' rollback = .ok digest := by
  obtain ⟨_, hbinding, h⟩ := bind_eq_ok.1 h
  obtain ⟨_, -, h⟩ := bind_eq_ok.1 h
  refine bind_eq_ok.2 ⟨(), hbinding, bind_eq_ok.2 ⟨(), require_of hwindow _, h⟩⟩

/-- A checked entry differs from the one given only in the digest. -/
theorem DirectoryEntry.eq_of_validateAndVerify (h : entry.validateAndVerify lib t = .ok value) :
    ∃ digest, value = { entry with operatorAssertionDigest := digest } := by
  simp only [validateAndVerify, bind_eq_ok] at h
  obtain ⟨-, -, -, -, h⟩ := h
  cases hstatus : entry.status with
  | active =>
    simp only [hstatus, bind_eq_ok, return_eq_ok] at h
    obtain ⟨-, -, -, -, -, -, -, -, -, -, digest, -, rfl⟩ := h
    exact ⟨some digest, by rw [← hstatus]⟩
  | tombstone =>
    simp only [hstatus, bind_eq_ok, return_eq_ok] at h
    obtain ⟨-, -, rfl⟩ := h
    exact ⟨none, by rw [← hstatus]⟩

theorem DirectoryEntry.observedBucket_le_of_validateAndVerify
    (h : entry.validateAndVerify lib t = .ok value) :
    entry.health.observedBucket ≤ t := by
  obtain ⟨_, hwindow, -⟩ := bind_eq_ok.1 h
  exact (require_eq_ok.1 hwindow).2.2.2.2.2.2.2

/-- The time matters in four comparisons only. -/
theorem DirectoryEntry.validateAndVerify_at {t' : UInt64}
    (h : entry.validateAndVerify lib t = .ok value) (hpos : t' ≠ 0)
    (huntil : t' ≤ entry.directoryValidUntil)
    (hlong : entry.directoryValidUntil.toNat - t'.toNat ≤ maxDirectoryEntryValiditySeconds)
    (hbucket : entry.health.observedBucket ≤ t')
    (hassertions : ∀ assertion ∈ entry.operatorAssertion,
      assertion.notBefore ≤ t' ∧ t' ≤ assertion.validUntil) :
    entry.validateAndVerify lib t' = .ok value := by
  simp only [validateAndVerify, bind_eq_ok, require_eq_ok, exists_const] at h ⊢
  obtain ⟨⟨hprovider, hsequence, -, -, -, hsome, hbuckets, -⟩, _, hhints, h⟩ := h
  refine ⟨⟨hprovider, hsequence, hpos, huntil, hlong, hsome, hbuckets, hbucket⟩, _, hhints, ?_⟩
  cases hstatus : entry.status with
  | active =>
    simp only [hstatus, bind_eq_ok, okOr_eq_ok, require_eq_ok, exists_const] at h ⊢
    obtain ⟨assertion, hassertion, hbound, encoded, hencoded, decoded, hdecoded, hsame, digest, hdigest,
      h⟩ := h
    exact ⟨assertion, hassertion, hbound, encoded, hencoded, decoded, hdecoded, hsame, digest,
      OperatorAssertion.verifyCurrentFor_at hdigest (hassertions assertion hassertion), h⟩
  | tombstone =>
    rw [hstatus] at h
    exact h

/-- The health bucket an event's content gives, where the content is an entry. -/
def observedBucket? (lib : Library) (event : NostrEvent) : Option UInt64 :=
  (lib.entryFromJson (toUtf8 event.content)).map fun wire => wire.health.observedBucket

theorem DirectoryEntry.health_of_fromWire {wire : EntryJson} (h : fromWire wire = .ok entry) :
    entry.health.observedBucket = wire.health.observedBucket := by
  simp only [fromWire, bind_eq_ok, return_eq_ok] at h
  obtain ⟨-, -, -, -, -, -, -, -, -, -, -, -, rfl⟩ := h
  rfl

/-- An entry that was accepted at some time is accepted at the time of its creation iff its health
was observed by then. -/
theorem verifyDirectoryEntryEvent_at_creation {eventJson : Bytes} {event : NostrEvent}
    {v : VerifiedEntryEvent} (hevent : NostrEvent.parseJson lib eventJson = .ok event)
    (h : verifyDirectoryEntryEvent lib eventJson pinned t = .ok v) :
    (∃ w, verifyDirectoryEntryEvent lib eventJson pinned event.createdAt = .ok w) ↔
      ∀ bucket ∈ observedBucket? lib event, bucket ≤ event.createdAt := by
  simp only [verifyDirectoryEntryEvent, DirectoryEntry.parseCanonicalJson, hevent, ok_bind, bind_eq_ok,
    okOr_eq_ok, require_eq_ok, exists_const, return_eq_ok, Prod.exists] at h ⊢
  constructor
  · rintro ⟨-, -, -, -, -, -, -, -, -, -, _, ⟨-, wire, hwire, -, parsed, hfrom, value, hvalue, -⟩, -⟩ bucket
      hbucket
    rw [observedBucket?, hwire] at hbucket
    cases hbucket
    change wire.health.observedBucket ≤ event.createdAt
    rw [← DirectoryEntry.health_of_fromWire hfrom]
    exact DirectoryEntry.observedBucket_le_of_validateAndVerify hvalue
  · intro hbucket
    obtain ⟨_, hsigned, hcreated, d, s, htags, hprefix, provider, hprovider, entry,
      ⟨hbounds, wire, hwire, hcanonical, parsed, hfrom, _, hvalue, bytes, hbytes, hexact, rfl⟩, htag,
      hshard, huntil, hlong, hassertions, rfl⟩ := h
    obtain ⟨digest, rfl⟩ := DirectoryEntry.eq_of_validateAndVerify hvalue
    have hobserved : parsed.health.observedBucket ≤ event.createdAt := by
      rw [DirectoryEntry.health_of_fromWire hfrom]
      exact hbucket _ (by rw [observedBucket?, hwire]; rfl)
    have hagain := DirectoryEntry.validateAndVerify_at hvalue hcreated.1 huntil hlong hobserved
      hassertions
    exact ⟨_, _, hsigned, ⟨hcreated.1, UInt64.le_refl _⟩, d, s, htags, hprefix, provider, hprovider, _,
      ⟨hbounds, wire, hwire, hcanonical, parsed, hfrom, _, hagain, bytes, hbytes, hexact, rfl⟩, htag,
      hshard, huntil, hlong, hassertions, rfl⟩

/-- A checkpoint's window is also checked at the time of creation. -/
theorem verifyDirectoryCheckpointEvent_at_creation {eventJson : Bytes} {event : NostrEvent}
    {v : VerifiedCheckpointEvent} (hevent : NostrEvent.parseJson lib eventJson = .ok event)
    (h : verifyDirectoryCheckpointEvent lib eventJson pinned t = .ok v) :
    verifyDirectoryCheckpointEvent lib eventJson pinned event.createdAt = .ok v := by
  simp only [verifyDirectoryCheckpointEvent, CatalogCheckpoint.parseCanonicalJson,
    CatalogCheckpoint.validateCurrent, hevent, ok_bind, bind_eq_ok, require_eq_ok, exists_const,
    return_eq_ok, Prod.exists] at h ⊢
  obtain ⟨_, hsigned, hcreated, _, ⟨hbounds, wire, hwire, hcanonical, entries, hentries, hversion, root,
    hroot, ⟨⟨hshard, hepoch, hbefore, -, -, hlong⟩, hrest⟩, bytes, hbytes, hexact, rfl⟩, d, s, htags,
    htag, htag', hwindow, rfl⟩ := h
  exact ⟨_, hsigned, ⟨hcreated.1, UInt64.le_refl _⟩, _, ⟨hbounds, wire, hwire, hcanonical, entries,
    hentries, hversion, root, hroot, ⟨⟨hshard, hepoch, hbefore, hwindow.1, hwindow.2, hlong⟩, hrest⟩,
    bytes, hbytes, hexact, rfl⟩, d, s, htags, htag, htag', hwindow, rfl⟩

theorem entryPrefix_not_checkpointDTagValue (shard : UInt8) :
    directoryEntryDPrefix.toList.isPrefixOf (checkpointDTagValue shard).toList = false := by
  have hall : ∀ n < 16, directoryEntryDPrefix.toList.isPrefixOf
      (directoryCheckpointDPrefix ++ String.singleton (hexDigit n)).toList = false := by
    decide +kernel
  unfold checkpointDTagValue
  split_ifs with hshard
  · decide +kernel
  · exact hall shard.toNat (not_le.1 hshard)

/-- No event is both an entry and a checkpoint. -/
theorem not_entry_and_checkpoint {eventJson : Bytes} {t' : UInt64} {v : VerifiedEntryEvent}
    {w : VerifiedCheckpointEvent} (hv : verifyDirectoryEntryEvent lib eventJson pinned t = .ok v)
    (hw : verifyDirectoryCheckpointEvent lib eventJson pinned t' = .ok w) : False := by
  simp only [verifyDirectoryEntryEvent, bind_eq_ok, require_eq_ok, exists_const, Prod.exists] at hv
  simp only [verifyDirectoryCheckpointEvent, bind_eq_ok, require_eq_ok, exists_const, Prod.exists] at hw
  obtain ⟨event, hevent, -, -, -, d, s, htags, hprefix, -⟩ := hv
  obtain ⟨event', hevent', -, -, -, checkpoint, -, d', s', htags', hd, -⟩ := hw
  have hsame : event = event' := Except.ok.inj (hevent.symm.trans hevent')
  rw [mapError_eq_ok] at htags htags'
  rw [hsame, htags'] at htags
  have hdd : d' = d := congrArg Prod.fst (Except.ok.inj htags)
  rw [← hdd, hd, entryPrefix_not_checkpointDTagValue] at hprefix
  cases hprefix

end

/-- The health of an entry was observed by the time the entry was created. -/
def ValidatedEvent.ObservedByCreation (lib : Library) (v : ValidatedEvent) : Prop :=
  v.profile = .entry → ∀ bucket ∈ observedBucket? lib v.event, bucket ≤ v.event.createdAt

/-- An event that was current at some time is current at its creation iff its health was observed
by then. -/
theorem validateCurrentEventProfile_at_creation {t : UInt64} (hv : v.Genuine lib pinned eventJson)
    (h : validateCurrentEventProfile lib pinned v t = .ok ()) :
    validateCurrentEventProfile lib pinned v v.event.createdAt = .ok () ↔
      v.ObservedByCreation lib.toLibrary := by
  have hparsed := hv.parsed
  rw [← hv.canonical] at hparsed
  unfold validateCurrentEventProfile at h
  split at h
  next _ entry error hprofile hentry hcheckpoint =>
    have hno : ∀ t' w, verifyDirectoryCheckpointEvent lib.toLibrary v.canonicalJson pinned t' ≠ .ok w :=
      fun t' w hw => not_entry_and_checkpoint hentry hw
    have hiff := verifyDirectoryEntryEvent_at_creation hparsed hentry
    rw [ValidatedEvent.ObservedByCreation, ← hiff]
    unfold validateCurrentEventProfile
    rw [hprofile]
    cases hagain : verifyDirectoryEntryEvent lib.toLibrary v.canonicalJson pinned
        v.event.createdAt with
    | error e => simp
    | ok w =>
      cases hother : verifyDirectoryCheckpointEvent lib.toLibrary v.canonicalJson pinned
          v.event.createdAt with
      | error e => simp
      | ok w => exact absurd hother (hno _ _)
  next _ error checkpoint hprofile hentry hcheckpoint =>
    have hagain := verifyDirectoryCheckpointEvent_at_creation hparsed hcheckpoint
    have htrue : v.ObservedByCreation lib.toLibrary := by
      intro hentry
      rw [hprofile] at hentry
      cases hentry
    rw [iff_true_right htrue]
    unfold validateCurrentEventProfile
    rw [hprofile, hagain]
    cases hother : verifyDirectoryEntryEvent lib.toLibrary v.canonicalJson pinned
        v.event.createdAt with
    | error e => rfl
    | ok w => exact (not_entry_and_checkpoint hother hcheckpoint).elim
  next => cases h

end BitcoinPir.Directory
