import BitcoinPir.Directory.Catalog
import BitcoinPir.Foundations.Lists

/-!
# What an accepted view guarantees

`AcceptedView.Accepted` collects what the checks on a view establish: the checkpoint and every
entry are verified events of the pinned key, the entries are exactly those the checkpoint lists,
and each new floor records its event and follows the stored floor. Every view that takes part in
the selection has it, for a checkpoint that one of the relays sent
(`accepted_of_mem_acceptedViews`).
-/

namespace BitcoinPir.Directory

open Foundations

/-- The stored floor of a provider, if it can be read. -/
def RollbackFloors.entry (floors : RollbackFloors) (providerId : Hash256) :
    Option EntryRollbackState :=
  (floors.entries (lowerHex providerId.val)).bind fun floor =>
    (decodeFloor EntryRollbackState.decode floor).toOption

/-- The stored floor of a shard, if it can be read. -/
def RollbackFloors.checkpoint (floors : RollbackFloors) (shard : UInt8) :
    Option CheckpointRollbackState :=
  (floors.checkpoints shard).bind fun floor =>
    (decodeFloor CheckpointRollbackState.decode floor).toOption

/-- How a checkpoint lists an entry. -/
def VerifiedEntryEvent.listing (e : VerifiedEntryEvent) : CheckpointEntry where
  providerId := e.entry.providerId
  directorySequence := e.entry.directorySequence
  eventId := e.event.id

variable (lib : Library) (key : Hash256) (nowUnix : UInt64) (floors : RollbackFloors)

/-- The text of an event is in a message of one of the relays. -/
def Sent (relays : List (List String)) (event : String) : Prop :=
  ∃ messages ∈ relays, ∃ message ∈ messages, ∃ command subscription,
    lib.relayMessage message = some (command, subscription, event)

/-- An entry accepted with the floor `floor`, which encodes `s`, under the checkpoint `v`. -/
structure AcceptedEntry (v : VerifiedCheckpointEvent) (e : VerifiedEntryEvent) (floor : Bytes)
    (s : EntryRollbackState) : Prop where
  genuine : e.Genuine lib key nowUnix
  decoded : EntryRollbackState.decode floor = .ok s
  records : s.Records e
  origin : s.FromEntry (floors.entry e.entry.providerId) e.entry
  follows : ∀ s₀, floors.entry e.entry.providerId = some s₀ → s₀.Follows s
  shard : e.shard = v.checkpoint.shard
  listed : e.listing ∈ v.checkpoint.entries

/-- A view accepted under the checkpoint `v`. -/
structure AcceptedView.Accepted (view : AcceptedView) (v : VerifiedCheckpointEvent) : Prop where
  verified : ∃ raw, verifyDirectoryCheckpointEvent lib raw key nowUnix = .ok v
  epoch : view.epoch = v.checkpoint.checkpointEpoch
  checkpoint : view.checkpoint = (v.checkpoint.catalogRoot, v.event.id)
  floor : ∃ s, CheckpointRollbackState.decode view.checkpointFloor = .ok s ∧ s.Records v ∧
    ∀ s₀, floors.checkpoint v.checkpoint.shard = some s₀ → s₀.Follows s
  entry_floor : ∀ x ∈ view.entryFloors, ∃ e s, e.entry.providerId = x.1 ∧
    AcceptedEntry lib key nowUnix floors v e x.2 s
  /-- Every listed entry has a floor, tombstones included. -/
  complete : ∀ l ∈ v.checkpoint.entries, ∃ e floor s, e.listing = l ∧
    (e.entry.providerId, floor) ∈ view.entryFloors ∧
    AcceptedEntry lib key nowUnix floors v e floor s
  providers_nodup : (view.entryFloors.map Prod.fst).Nodup
  returned : ∀ c ∈ view.entries, ∃ e floor s, (e.entry.providerId, floor) ∈ view.entryFloors ∧
    AcceptedEntry lib key nowUnix floors v e floor s ∧ e.entry.status = .active ∧
      catalogEntry e = some c

variable {lib key nowUnix floors}

/-! ## The verified view -/

/-- What has been verified so far, of the events of which the relay sent these texts. -/
structure ViewVerified (lib : Library) (key : Hash256) (nowUnix : UInt64) (shard : UInt8)
    (events : List String)
    (view : Option VerifiedCheckpointEvent × List VerifiedEntryEvent) : Prop where
  checkpoint : ∀ v, view.1 = some v → v.checkpoint.shard = shard ∧
    ∃ event ∈ events, verifyDirectoryCheckpointEvent lib (toUtf8 event) key nowUnix = .ok v
  entries : ∀ e ∈ view.2, e.Genuine lib key nowUnix

theorem ViewVerified.addVerified {shard : UInt8} {events : List String}
    {view view' : Option VerifiedCheckpointEvent × List VerifiedEntryEvent}
    {head : String × NostrEvent × String} (hsent : head.2.2 ∈ events)
    (hview : ViewVerified lib key nowUnix shard events view)
    (h : addVerified lib shard key nowUnix view head = .ok view') :
    ViewVerified lib key nowUnix shard events view' := by
  unfold Directory.addVerified at h
  split_ifs at h
  · simp only [bind_eq_ok, reason_eq_ok, require_eq_ok, exists_const, return_eq_ok] at h
    obtain ⟨v, hv, hshard, rfl⟩ := h
    refine ⟨?_, hview.entries⟩
    rintro _ ⟨⟩
    exact ⟨hshard, _, hsent, hv⟩
  · obtain ⟨e, he, h⟩ := bind_eq_ok.1 h
    rw [reason_eq_ok] at he
    cases h
    refine ⟨hview.checkpoint, fun e' he' => ?_⟩
    rcases List.mem_append.1 he' with hmem | hmem
    · exact hview.entries e' hmem
    · rw [List.mem_singleton] at hmem
      exact hmem ▸ verifyDirectoryEntryEvent_eq_ok he

/-- The head of a coordinate is one of the events. -/
theorem mem_of_heads {events : List String} {heads : Heads}
    (h : events.foldlM (addHead lib key) ∅ = .ok heads) {head : String × NostrEvent × String}
    (hhead : head ∈ heads.toList) : head.2.2 ∈ events := by
  have hall : ∀ (d : String) (x : NostrEvent × String), heads[d]? = some x → x.2 ∈ events := by
    refine foldlM_invariant (I := fun heads : Heads =>
      ∀ (d : String) (x : NostrEvent × String), heads[d]? = some x → x.2 ∈ events) ?_ ?_ h
    · intro raw hraw before after hbefore hadd d x hx
      simp only [addHead, bind_eq_ok, return_eq_ok] at hadd
      obtain ⟨event, -, _, -, d', -, newer, -, rfl⟩ := hadd
      cases newer with
      | false => exact hbefore d x hx
      | true =>
        rw [if_pos rfl, Std.TreeMap.getElem?_insert] at hx
        split_ifs at hx
        · cases hx
          exact hraw
        · exact hbefore d x hx
    · intro d x hx
      simp at hx
  exact hall head.1 head.2 (Std.TreeMap.mem_toList_iff_getElem?_eq_some.1 hhead)

theorem verifyShardView_eq_ok {events : List String} {shard : UInt8} {view : ShardView}
    (h : verifyShardView lib events shard key nowUnix = .ok view) :
    view.checkpoint.checkpoint.shard = shard ∧
      (∃ event ∈ events,
        verifyDirectoryCheckpointEvent lib (toUtf8 event) key nowUnix = .ok view.checkpoint) ∧
      ∀ e ∈ view.entries, e.Genuine lib key nowUnix := by
  simp only [verifyShardView, bind_eq_ok, okOr_eq_ok, return_eq_ok] at h
  obtain ⟨heads, hheads, found, hfound, v, hv, rfl⟩ := h
  have hnone : ViewVerified lib key nowUnix shard events (none, []) := by
    refine ⟨?_, ?_⟩
    · rintro v ⟨⟩
    · rintro e ⟨⟩
  have hview : ViewVerified lib key nowUnix shard events found :=
    foldlM_invariant (fun head hhead _ _ hb hadd =>
      hb.addVerified (mem_of_heads hheads hhead) hadd) hnone hfound
  obtain ⟨hshard, hevent⟩ := hview.checkpoint v hv
  exact ⟨hshard, hevent, hview.entries⟩

/-- The events of a shard are in the relay's messages. -/
theorem mem_eventsByShard {messages : List String} {shards : List (List String)}
    (h : eventsByShard lib messages = .ok shards) {n : ℕ} {events : List String}
    (hn : shards[n]? = some events) {event : String} (hevent : event ∈ events) :
    ∃ message ∈ messages, ∃ command subscription,
      lib.relayMessage message = some (command, subscription, event) := by
  refine foldlM_invariant (I := fun shards : List (List String) =>
    ∀ (n : ℕ) events, shards[n]? = some events → ∀ event ∈ events, ∃ message ∈ messages,
      ∃ command subscription, lib.relayMessage message = some (command, subscription, event))
    ?_ ?_ h n events hn event hevent
  · intro message hmessage before after hbefore hadd n events hn event hevent
    simp only [bind_eq_ok, okOr_eq_ok, return_eq_ok, Prod.exists] at hadd
    obtain ⟨command, subscription, sent, hsent, shard, -, rfl⟩ := hadd
    rw [List.getElem?_modify] at hn
    obtain ⟨old, hold, rfl⟩ := Option.map_eq_some_iff.1 hn
    split_ifs at hevent
    · rcases List.mem_append.1 hevent with hevent | hevent
      · exact hbefore n old hold event hevent
      · rw [List.mem_singleton] at hevent
        exact ⟨message, hmessage, command, subscription, hevent ▸ hsent⟩
    · exact hbefore n old hold event hevent
  · intro n events hn event hevent
    rw [List.eq_of_mem_replicate (List.mem_of_getElem? hn)] at hevent
    cases hevent

/-! ## The floors of an accepted view -/

/-- The floor an acceptance starts from is the stored one. -/
theorem mapM_decodeFloor_eq_ok {S : Type} {decode : Bytes → DirectoryResult S}
    {stored : Option String} {current : Option S}
    (h : stored.mapM (decodeFloor decode) = .ok current) :
    (stored.bind fun floor => (decodeFloor decode floor).toOption) = current := by
  cases stored with
  | none =>
    cases h
    rfl
  | some floor =>
    obtain ⟨s, hs, h⟩ := bind_eq_ok.1 (show (decodeFloor decode floor >>= fun s => .ok (some s)) =
      .ok current from h)
    cases h
    rw [Option.bind_some, hs]
    rfl

theorem acceptEntry_eq_ok {e : VerifiedEntryEvent} {x : PersistedEntry × Bytes}
    (h : acceptEntry floors e = .ok x) :
    x.1.verified = e ∧ EntryRollbackState.decode x.2 = .ok x.1.state ∧ x.1.state.Records e ∧
      x.1.state.FromEntry (floors.entry e.entry.providerId) e.entry ∧
      ∀ s₀, floors.entry e.entry.providerId = some s₀ → s₀.Follows x.1.state := by
  simp only [acceptEntry, bind_eq_ok, reason_eq_ok, return_eq_ok] at h
  obtain ⟨current, hcurrent, u, hu, floor, -, p, hp, rfl⟩ := h
  have hstored : floors.entry e.entry.providerId = current := mapM_decodeFloor_eq_ok hcurrent
  obtain ⟨hdecode, hverified, hstate⟩ := Unpersisted.confirmDurableState_eq_ok hp
  obtain ⟨hu', hrecords, horigin, hfollows⟩ := prepareDirectoryEntryAcceptance_follows hu
  rw [hstate]
  exact ⟨hverified.trans hu', hdecode, hrecords, hstored ▸ horigin, fun s₀ hs₀ => hfollows s₀ (hstored ▸ hs₀)⟩

theorem acceptCheckpoint_eq_ok {v : VerifiedCheckpointEvent} {x : PersistedCheckpoint × Bytes}
    (h : acceptCheckpoint floors v = .ok x) :
    x.1.verified = v ∧ CheckpointRollbackState.decode x.2 = .ok x.1.state ∧
      x.1.state.Records v ∧
      ∀ s₀, floors.checkpoint v.checkpoint.shard = some s₀ → s₀.Follows x.1.state := by
  simp only [acceptCheckpoint, bind_eq_ok, reason_eq_ok, return_eq_ok] at h
  obtain ⟨current, hcurrent, u, hu, floor, -, p, hp, rfl⟩ := h
  have hstored : floors.checkpoint v.checkpoint.shard = current := mapM_decodeFloor_eq_ok hcurrent
  obtain ⟨hdecode, hverified, hstate⟩ := Unpersisted.confirmDurableState_eq_ok hp
  obtain ⟨hu', hrecords, hfollows⟩ := prepareDirectoryCheckpointAcceptance_follows hu
  rw [hstate]
  exact ⟨hverified.trans hu', hdecode, hrecords, fun s₀ hs₀ => hfollows s₀ (hstored ▸ hs₀)⟩

/-! ## Membership in the checkpoint -/

theorem CheckpointEntry.Before.trans {a b c : CheckpointEntry} (h : a.Before b) (h' : b.Before c) :
    a.Before c := List.lt_trans h h'

instance : Trans CheckpointEntry.Before CheckpointEntry.Before CheckpointEntry.Before :=
  ⟨CheckpointEntry.Before.trans⟩

/-- A checkpoint lists a provider once. -/
theorem nodup_providers {entries : List CheckpointEntry}
    (h : entries.IsChain CheckpointEntry.Before) :
    (entries.map CheckpointEntry.providerId).Nodup := by
  rw [List.Nodup, List.pairwise_map]
  refine h.pairwise.imp ?_
  intro a b hab heq
  rw [CheckpointEntry.Before, heq] at hab
  exact List.lt_irrefl _ hab

/-- What a bound catalog says about its entries: they are the given ones, and in order the listed
ones. -/
theorem bindPersistedDirectoryShardCatalog_eq_ok {c : PersistedCheckpoint}
    {entries sorted : List PersistedEntry}
    (h : bindPersistedDirectoryShardCatalog c entries = .ok sorted) :
    sorted.Perm entries ∧
      sorted.map (·.verified.listing) = c.verified.checkpoint.entries ∧
      ∀ p ∈ sorted, p.verified.shard = c.verified.checkpoint.shard := by
  simp only [bindPersistedDirectoryShardCatalog, bind_eq_ok, require_eq_ok, exists_const,
    return_eq_ok] at h
  obtain ⟨hlen, hmatch, rfl⟩ := h
  set sorted := entries.insertionSort fun a b =>
    a.verified.entry.providerId.val ≤ b.verified.entry.providerId.val with hsorted
  have hperm : sorted.Perm entries := List.perm_insertionSort _ _
  have hlen' : sorted.length = c.verified.checkpoint.entries.length := hperm.length_eq.trans hlen
  have hat : ∀ i (hi : i < sorted.length) (hi' : i < c.verified.checkpoint.entries.length),
      (sorted[i], c.verified.checkpoint.entries[i]) ∈
        sorted.zip c.verified.checkpoint.entries := by
    intro i hi hi'
    rw [← List.getElem_zip (h := by rw [List.length_zip]; omega)]
    exact List.getElem_mem _
  refine ⟨hperm, ?_, fun p hp => ?_⟩
  · apply List.ext_getElem
    · rw [List.length_map, hlen']
    · intro i hi hi'
      rw [List.length_map] at hi
      obtain ⟨-, -, hprovider, hsequence, hevent⟩ := hmatch _ (hat i hi hi')
      rw [List.getElem_map, VerifiedEntryEvent.listing, hprovider, hsequence, hevent]
  · obtain ⟨i, hi, rfl⟩ := List.getElem_of_mem hp
    exact (hmatch _ (hat i hi (hlen' ▸ hi))).2.1

/-! ## Accepted views -/

theorem acceptView_accepted {view : ShardView} {accepted : AcceptedView}
    (hraw : ∃ raw, verifyDirectoryCheckpointEvent lib raw key nowUnix = .ok view.checkpoint)
    (hentries : ∀ e ∈ view.entries, e.Genuine lib key nowUnix)
    (h : acceptView view floors = .ok accepted) :
    accepted.Accepted lib key nowUnix floors view.checkpoint := by
  simp only [acceptView, bind_eq_ok, reason_eq_ok, return_eq_ok, Prod.exists] at h
  obtain ⟨c, cfloor, hc, xs, hxs, sorted, hbind, rfl⟩ := h
  obtain ⟨hverified, hdecode, hrecords, hfollows⟩ := acceptCheckpoint_eq_ok hc
  obtain ⟨hperm, hlisting, hshard⟩ := bindPersistedDirectoryShardCatalog_eq_ok hbind
  rw [show c.verified = view.checkpoint from hverified] at hlisting hshard
  obtain ⟨raw, hraw'⟩ := hraw
  have hgenuine := verifyDirectoryCheckpointEvent_eq_ok hraw'
  -- Every accepted entry is one of the view's and, by the binding, a listed one.
  have hentry : ∀ x ∈ xs, AcceptedEntry lib key nowUnix floors view.checkpoint x.1.verified x.2
      x.1.state := by
    intro x hx
    obtain ⟨e, he, hxe⟩ := exists_rel_of_mem (mapM_eq_ok.1 hxs) hx
    obtain ⟨hxv, hxdecode, hxrecords, hxorigin, hxfollows⟩ := acceptEntry_eq_ok hxe
    have hsorted := hperm.mem_iff.2 (List.mem_map_of_mem hx)
    have hlisted := hlisting ▸ List.mem_map_of_mem hsorted
    have hown := hshard x.1 hsorted
    rw [hxv] at hlisted hown ⊢
    exact ⟨hentries e he, hxdecode, hxrecords, hxorigin, hxfollows, hown, hlisted⟩
  refine ⟨⟨raw, hraw'⟩, ?_, ?_, ⟨c.state, hdecode, hrecords, hfollows⟩, ?_, ?_, ?_, ?_⟩
  · rw [show c.verified = view.checkpoint from hverified]
  · rw [show c.verified = view.checkpoint from hverified]
  · intro y hy
    obtain ⟨x, hx, rfl⟩ := List.mem_map.1 hy
    exact ⟨x.1.verified, x.1.state, rfl, hentry x hx⟩
  · intro l hl
    rw [← hlisting] at hl
    obtain ⟨p, hp, rfl⟩ := List.mem_map.1 hl
    obtain ⟨x, hx, rfl⟩ := List.mem_map.1 (hperm.mem_iff.1 hp)
    exact ⟨x.1.verified, x.2, x.1.state, rfl, List.mem_map.2 ⟨x, hx, rfl⟩, hentry x hx⟩
  · have hnodup := nodup_providers hgenuine.ordered
    rw [← hlisting, List.map_map, (hperm.map _).nodup_iff, List.map_map] at hnodup
    rwa [List.map_map]
  · intro y hy
    obtain ⟨p, hp, hpy⟩ := List.mem_filterMap.1 hy
    obtain ⟨hp, hactive⟩ := List.mem_filter.1 hp
    obtain ⟨x, hx, rfl⟩ := List.mem_map.1 (hperm.mem_iff.1 hp)
    exact ⟨x.1.verified, x.2, x.1.state, List.mem_map.2 ⟨x, hx, rfl⟩, hentry x hx,
      of_decide_eq_true hactive, hpy⟩

/-- Every view that takes part in the selection of a shard is accepted under a checkpoint of that
shard, which a relay sent. -/
theorem accepted_of_mem_acceptedViews {relays : List (List String)} {shard : ℕ}
    {view : AcceptedView} (h : view ∈ acceptedViews lib relays floors key nowUnix shard) :
    ∃ v, v.checkpoint.shard = UInt8.ofNat shard ∧ (∃ event, Sent lib relays event ∧
      verifyDirectoryCheckpointEvent lib (toUtf8 event) key nowUnix = .ok v) ∧
      view.Accepted lib key nowUnix floors v := by
  obtain ⟨messages, hmessages, h⟩ := List.mem_filterMap.1 h
  cases hviews : relayViews lib floors key nowUnix messages with
  | error text =>
    rw [hviews] at h
    cases h
  | ok views =>
    rw [hviews] at h
    obtain ⟨result, hresult, h⟩ := Option.bind_eq_some_iff.1 h
    obtain ⟨shards, hsplit, hshards⟩ := bind_eq_ok.1 hviews
    cases hshards
    rw [List.getElem?_map, List.getElem?_zipIdx, Option.map_map] at hresult
    obtain ⟨events, hn, hevents⟩ := Option.map_eq_some_iff.1 hresult
    cases result with
    | error text => cases h
    | ok accepted =>
      cases h
      obtain ⟨shardView, hshardView, haccept⟩ := bind_eq_ok.1 hevents
      obtain ⟨hshard, ⟨event, hevent, hv⟩, hentries⟩ := verifyShardView_eq_ok hshardView
      rw [Nat.zero_add] at hshard
      exact ⟨shardView.checkpoint, hshard,
        ⟨event, ⟨messages, hmessages, mem_eventsByShard hsplit hn hevent⟩, hv⟩,
        acceptView_accepted ⟨_, hv⟩ hentries haccept⟩

end BitcoinPir.Directory
