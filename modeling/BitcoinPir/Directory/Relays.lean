import BitcoinPir.Directory.Rollback

/-!
# One honest relay is enough

Relays are not trusted: each can send anything, including old signed events. As long as the events
they sent hold one signed checkpoint per epoch (`OneCheckpointPerEpoch`), the views of further
relays cannot take a shard away or move it back to an older epoch. In any case every active entry
returned is listed in the accepted checkpoint of its shard (`further_relays_keep_shards`).
-/

namespace BitcoinPir.Directory

open Foundations

/-! ## Selection -/

/-- Views of one epoch have one checkpoint. -/
def Agree (views : List AcceptedView) : Prop :=
  ∀ a ∈ views, ∀ b ∈ views, b.epoch = a.epoch → b.checkpoint = a.checkpoint

variable {views : List AcceptedView}

theorem Agree.splitViewEpoch_eq_none (h : Agree views) :
    splitViewEpoch views = none := by
  induction views with
  | nil => rfl
  | cons view views ih =>
    have hno : ¬(views.any fun other =>
        other.epoch == view.epoch && other.checkpoint != view.checkpoint) = true := by
      intro hany
      obtain ⟨other, hother, hdiffer⟩ := List.any_eq_true.1 hany
      rw [Bool.and_eq_true, beq_iff_eq, bne_iff_ne] at hdiffer
      exact hdiffer.2 (h view List.mem_cons_self other (List.mem_cons_of_mem _ hother) hdiffer.1)
    rw [splitViewEpoch, if_neg hno]
    exact ih fun a ha b hb => h a (List.mem_cons_of_mem _ ha) b (List.mem_cons_of_mem _ hb)

theorem epoch_le_newestEpoch {view : AcceptedView} (h : view ∈ views) :
    view.epoch ≤ newestEpoch views := by
  induction views with
  | nil => cases h
  | cons head views ih =>
    rw [newestEpoch]
    rcases List.mem_cons.1 h with rfl | hmem
    · split_ifs with hlt
      · exact UInt64.le_refl _
      · exact UInt64.not_lt.1 hlt
    · split_ifs with hlt
      · exact UInt64.le_of_lt (UInt64.lt_of_le_of_lt (ih hmem) hlt)
      · exact ih hmem

theorem exists_epoch_eq_newestEpoch (h : views ≠ []) :
    ∃ view ∈ views, view.epoch = newestEpoch views := by
  induction views with
  | nil => exact absurd rfl h
  | cons head views ih =>
    rw [newestEpoch]
    split_ifs with hlt
    · exact ⟨head, List.mem_cons_self, rfl⟩
    · by_cases hviews : views = []
      · subst hviews
        refine ⟨head, List.mem_cons_self, ?_⟩
        exact UInt64.le_antisymm (UInt64.not_lt.1 hlt) (UInt64.zero_le)
      · obtain ⟨view, hmem, hepoch⟩ := ih hviews
        exact ⟨view, List.mem_cons_of_mem _ hmem, hepoch⟩

/-- Among views that agree one is selected, and none is newer. -/
theorem Agree.selectView (h : Agree views) (hne : views ≠ []) :
    ∃ view agreeing, selectView views = .ok (view, agreeing) ∧
      ∀ other ∈ views, other.epoch ≤ view.epoch := by
  obtain ⟨newest, hmem, hepoch⟩ := exists_epoch_eq_newestEpoch hne
  have hfilter : views.filter (fun view => view.epoch == newestEpoch views) ≠ [] := by
    refine List.ne_nil_of_mem (a := newest) ?_
    rw [List.mem_filter, beq_iff_eq]
    exact ⟨hmem, hepoch⟩
  have hselect : Directory.selectView views =
      .ok ((views.filter fun view => view.epoch == newestEpoch views).getLast hfilter,
        (views.filter fun view => view.epoch == newestEpoch views).length) := by
    unfold Directory.selectView
    rw [h.splitViewEpoch_eq_none]
    dsimp only
    rw [List.getLast?_eq_some_getLast hfilter]
    rfl
  refine ⟨_, _, hselect, fun other hother => ?_⟩
  rw [(selectView_eq_ok hselect).2]
  exact epoch_le_newestEpoch hother

/-! ## The shards and entries of a catalog -/

/-- A list of the catalog to which every shard's selected view adds its part. -/
theorem mem_foldl_addShard {α : Type} {views : ℕ → List AcceptedView}
    {field : DirectoryCatalog → List α} {part : ℕ → AcceptedView × ℕ → List α}
    (hfield : ∀ catalog n, field (addShard views catalog n) =
      field catalog ++ (selectView (views n)).toOption.elim [] (part n))
    (ns : List ℕ) (catalog : DirectoryCatalog) {x : α} :
    x ∈ field (ns.foldl (addShard views) catalog) ↔ x ∈ field catalog ∨
      ∃ n ∈ ns, ∃ view agreeing, selectView (views n) = .ok (view, agreeing) ∧
        x ∈ part n (view, agreeing) := by
  induction ns generalizing catalog with
  | nil => simp
  | cons n ns ih =>
    rw [List.foldl_cons, ih, List.exists_mem_cons_iff, ← or_assoc, hfield, List.mem_append]
    refine or_congr_left (or_congr_right ?_)
    cases hselect : selectView (views n) with
    | error text => simp [Except.toOption]
    | ok selected =>
      refine ⟨fun h => ⟨selected.1, selected.2, rfl, h⟩, ?_⟩
      rintro ⟨view, agreeing, heq, h⟩
      cases heq
      exact h

theorem shards_addShard (views : ℕ → List AcceptedView) (catalog : DirectoryCatalog) (n : ℕ) :
    (addShard views catalog n).shards = catalog.shards ++
      (selectView (views n)).toOption.elim [] fun selected =>
        [⟨UInt8.ofNat n, selected.1.epoch, selected.2, lowerHex selected.1.checkpoint.2.val⟩] := by
  unfold addShard
  cases selectView (views n) with
  | error text => exact (List.append_nil _).symm
  | ok selected => rfl

theorem entries_addShard (views : ℕ → List AcceptedView) (catalog : DirectoryCatalog) (n : ℕ) :
    (addShard views catalog n).entries = catalog.entries ++
      (selectView (views n)).toOption.elim [] fun selected => selected.1.entries := by
  unfold addShard
  cases selectView (views n) with
  | error text => exact (List.append_nil _).symm
  | ok selected => rfl

section Catalog

variable {lib : Library} {relays : List (List String)} {floors : RollbackFloors} {key : Hash256}
  {nowUnix : UInt64}

/-- Shards and entries are collected shard by shard. -/
theorem verifyDirectoryCatalogViews_foldl :
    let collected := (List.range directoryShardCount).foldl
      (addShard (acceptedViews lib relays floors key nowUnix))
      (.start (rejectedViews lib relays floors key nowUnix) floors)
    (verifyDirectoryCatalogViews lib relays floors key nowUnix).shards = collected.shards ∧
      (verifyDirectoryCatalogViews lib relays floors key nowUnix).entries = collected.entries := by
  unfold verifyDirectoryCatalogViews
  dsimp only
  split_ifs <;> exact ⟨rfl, rfl⟩

theorem mem_shards {sh : CatalogShard} :
    sh ∈ (verifyDirectoryCatalogViews lib relays floors key nowUnix).shards ↔
      ∃ n < directoryShardCount, ∃ view agreeing,
        selectView (acceptedViews lib relays floors key nowUnix n) = .ok (view, agreeing) ∧
          sh = ⟨UInt8.ofNat n, view.epoch, agreeing, lowerHex view.checkpoint.2.val⟩ := by
  rw [verifyDirectoryCatalogViews_foldl.1, mem_foldl_addShard (shards_addShard _)]
  simp only [DirectoryCatalog.start, List.not_mem_nil, false_or, List.mem_range,
    List.mem_singleton]

theorem mem_entries {c : CatalogEntry} :
    c ∈ (verifyDirectoryCatalogViews lib relays floors key nowUnix).entries ↔
      ∃ n < directoryShardCount, ∃ view agreeing,
        selectView (acceptedViews lib relays floors key nowUnix n) = .ok (view, agreeing) ∧
          c ∈ view.entries := by
  rw [verifyDirectoryCatalogViews_foldl.2, mem_foldl_addShard (entries_addShard _)]
  simp only [DirectoryCatalog.start, List.not_mem_nil, false_or, List.mem_range]

end Catalog

/-! ## Further relays -/

variable (lib : Library) (key : Hash256) (nowUnix : UInt64)

/-- Among the events the relays sent, no two different checkpoints of a shard are validly signed
for one epoch. -/
def OneCheckpointPerEpoch (relays : List (List String)) : Prop :=
  ∀ event event' v v', Sent lib relays event → Sent lib relays event' →
    verifyDirectoryCheckpointEvent lib (toUtf8 event) key nowUnix = .ok v →
    verifyDirectoryCheckpointEvent lib (toUtf8 event') key nowUnix = .ok v' →
    v.checkpoint.shard = v'.checkpoint.shard →
    v.checkpoint.checkpointEpoch = v'.checkpoint.checkpointEpoch →
    v.checkpoint.catalogRoot = v'.checkpoint.catalogRoot ∧ v.event.id = v'.event.id

/-- An active entry of a catalog is listed, with its event and sequence number, in the accepted
checkpoint `v` of its shard `sh`. It comes from a signed event that is current: created by now, not
expired, with an operator assertion that is current too. -/
structure CatalogEntry.ListedIn (c : CatalogEntry) (sh : CatalogShard)
    (v : VerifiedCheckpointEvent) (e : VerifiedEntryEvent) : Prop where
  checkpoint : ∃ raw, verifyDirectoryCheckpointEvent lib raw key nowUnix = .ok v
  shard : v.checkpoint.shard = sh.shard
  epoch : v.checkpoint.checkpointEpoch = sh.epoch
  event : lowerHex v.event.id.val = sh.eventId
  returned : catalogEntry e = some c
  genuine : e.Genuine lib key nowUnix
  active : e.entry.status = .active
  provider_shard : coarseShardForProvider e.entry.providerId = sh.shard
  listed : { providerId := e.entry.providerId, directorySequence := c.directorySequence,
             eventId := e.event.id : CheckpointEntry } ∈ v.checkpoint.entries
  event_id : c.eventId = lowerHex e.event.id.val

variable {lib key nowUnix} {floors : RollbackFloors}

theorem directorySequence_of_catalogEntry {e : VerifiedEntryEvent} {c : CatalogEntry}
    (h : catalogEntry e = some c) :
    c.directorySequence = e.entry.directorySequence ∧ c.eventId = lowerHex e.event.id.val := by
  obtain ⟨assertion, -, h⟩ := Option.bind_eq_some_iff.1 h
  cases h
  exact ⟨rfl, rfl⟩

theorem OneCheckpointPerEpoch.agree {relays : List (List String)}
    (hone : OneCheckpointPerEpoch lib key nowUnix relays) (n : ℕ) :
    Agree (acceptedViews lib relays floors key nowUnix n) := by
  intro a ha b hb hepoch
  obtain ⟨va, hashard, ⟨eventa, hsenta, hva⟩, ha⟩ := accepted_of_mem_acceptedViews ha
  obtain ⟨vb, hbshard, ⟨eventb, hsentb, hvb⟩, hb⟩ := accepted_of_mem_acceptedViews hb
  have hsame := hone eventb eventa vb va hsentb hsenta hvb hva (hbshard.trans hashard.symm)
    (by rw [← hb.epoch, ← ha.epoch, hepoch])
  rw [ha.checkpoint, hb.checkpoint, hsame.1, hsame.2]

/-- The views of further relays are added to those there are. -/
theorem acceptedViews_sublist {relays relays' : List (List String)}
    (h : relays.Sublist relays') (n : ℕ) :
    (acceptedViews lib relays floors key nowUnix n).Sublist
      (acceptedViews lib relays' floors key nowUnix n) := h.filterMap _

/-- **One honest relay is enough.** Further relays, in any position and with any messages, take no
accepted shard away and lower no accepted epoch, if the events sent hold one checkpoint per epoch.
Every active entry returned is listed in the accepted checkpoint of its shard, signed and
current. -/
theorem further_relays_keep_shards (lib : Library) (relays relays' : List (List String))
    (floors : RollbackFloors) (key : Hash256) (nowUnix : UInt64)
    (hmore : relays.Sublist relays') :
    (OneCheckpointPerEpoch lib key nowUnix relays' →
      ∀ sh ∈ (verifyDirectoryCatalogViews lib relays floors key nowUnix).shards,
      ∃ sh' ∈ (verifyDirectoryCatalogViews lib relays' floors key nowUnix).shards,
        sh'.shard = sh.shard ∧ sh.epoch ≤ sh'.epoch) ∧
    ∀ c ∈ (verifyDirectoryCatalogViews lib relays' floors key nowUnix).entries,
      ∃ sh ∈ (verifyDirectoryCatalogViews lib relays' floors key nowUnix).shards, ∃ v e,
        c.ListedIn lib key nowUnix sh v e := by
  constructor
  · intro hone sh hsh
    obtain ⟨n, hn, view, agreeing, hselect, rfl⟩ := mem_shards.1 hsh
    have hmem := (acceptedViews_sublist hmore n).subset (selectView_eq_ok hselect).1
    obtain ⟨view', agreeing', hselect', hnewest⟩ :=
      (hone.agree n).selectView (List.ne_nil_of_mem hmem)
    exact ⟨_, mem_shards.2 ⟨n, hn, view', agreeing', hselect', rfl⟩, rfl, hnewest view hmem⟩
  · intro c hc
    obtain ⟨n, hn, view, agreeing, hselect, hc⟩ := mem_entries.1 hc
    obtain ⟨v, hshard, -, hview⟩ := accepted_of_mem_acceptedViews (selectView_eq_ok hselect).1
    obtain ⟨e, floor, s, -, hentry, hactive, hreturned⟩ := hview.returned c hc
    obtain ⟨hsequence, hevent⟩ := directorySequence_of_catalogEntry hreturned
    refine ⟨_, mem_shards.2 ⟨n, hn, view, agreeing, hselect, rfl⟩, v, e, ?_⟩
    exact {
      checkpoint := hview.verified
      shard := hshard
      epoch := hview.epoch.symm
      event := by rw [hview.checkpoint]
      returned := hreturned
      genuine := hentry.genuine
      active := hactive
      provider_shard := by rw [← hentry.genuine.shard, hentry.shard, hshard]
      listed := hsequence ▸ hentry.listed
      event_id := hevent }

/-! ## A directory of one active entry -/

namespace OneEntry

/-- The hash, key and event id of the example. -/
def ones : Hash256 := ⟨List.replicate 32 1, by decide⟩

def event (d content : String) : NostrEventJson :=
  { id := lowerHex ones.val, pubkey := lowerHex ones.val, createdAt := 305, kind := 30078,
    tags := [["d", d], ["s", "bitcoinpir-service-directory-shard-v1:0"]], content,
    sig := lowerHex (ones.val ++ ones.val) }

def assertion : OperatorAssertionJson :=
  { v := 1, operatorPubkeyEd25519 := lowerHex ones.val, stableServerId := "pir1",
    providerId := lowerHex ones.val, assertionEpoch := 2, notBefore := 300, validUntil := 900,
    endpoints := [⟨"wss", "wss://pir.example"⟩], signatureEd25519 := lowerHex (ones.val ++ ones.val) }

def entry : EntryJson :=
  { v := 1, providerId := lowerHex ones.val, directorySequence := 4, directoryValidUntil := 800,
    status := "active", operatorAssertion := some assertion, catalogHints := [],
    health := ⟨"available", 300⟩ }

def checkpoint : CheckpointJson :=
  { v := 1, shard := 0, checkpointEpoch := 7, notBefore := 300, validUntil := 900,
    entries := [⟨lowerHex ones.val, 4, lowerHex ones.val⟩], catalogRoot := lowerHex ones.val }

/-- A publisher with one provider in one shard. -/
def library : Library where
  relayMessage message :=
    if message = "checkpoint" ∨ message = "entry" then
      some ("EVENT", "bitcoinpir-directory-v1-shard-0", message) else none
  eventFromJson bytes :=
    if bytes = toUtf8 "entry" then
      some (event ("bitcoinpir-service-directory-v1:" ++ lowerHex ones.val) "entry")
    else some (event "bitcoinpir-service-directory-checkpoint-v1:0" "checkpoint")
  idPreimage _ _ _ _ _ := []
  checkpointFromJson _ := some checkpoint
  checkpointToJson _ := toUtf8 "checkpoint"
  entryFromJson _ := some entry
  entryToJson _ := toUtf8 "entry"
  sha256 _ := ones
  bip340Verify _ _ _ := true
  ed25519VerifyStrict _ _ _ := true

def noFloors : RollbackFloors := { entries := fun _ => none, checkpoints := fun _ => none }

/-- The last relay sends the directory, another junk. -/
def relays : List (List String) := [["junk"], ["checkpoint", "entry"]]

/-- The only event that verifies as a checkpoint is the checkpoint. -/
theorem oneCheckpointPerEpoch : OneCheckpointPerEpoch library ones 305 relays := by
  have honly : ∀ event v, Sent library relays event →
      verifyDirectoryCheckpointEvent library (toUtf8 event) ones 305 = .ok v →
      event = "checkpoint" := by
    rintro event v ⟨messages, -, message, -, command, subscription, hsent⟩ hv
    simp only [library, Option.ite_none_right_eq_some, Option.some_inj, Prod.mk.injEq] at hsent
    obtain ⟨hmessage | hmessage, -, -, rfl⟩ := hsent
    · exact hmessage
    · have hnot : (verifyDirectoryCheckpointEvent library (toUtf8 "entry") ones 305).toOption =
          none := by decide +kernel
      rw [← hmessage, hv] at hnot
      cases hnot
  intro event event' v v' hsent hsent' hv hv' _ _
  rw [honly event v hsent hv] at hv
  rw [honly event' v' hsent' hv'] at hv'
  obtain rfl : v = v' := Except.ok.inj (hv.symm.trans hv')
  exact ⟨rfl, rfl⟩

end OneEntry

open OneEntry in
/-- With a junk relay before it the shard stays, and its active entry is listed. -/
theorem further_relays_keep_oneEntry :
    (verifyDirectoryCatalogViews library [["checkpoint", "entry"]] noFloors ones 305).shards =
      [⟨0, 7, 1, lowerHex ones.val⟩] ∧
    (∃ sh' ∈ (verifyDirectoryCatalogViews library relays noFloors ones 305).shards,
      sh'.shard = 0 ∧ 7 ≤ sh'.epoch) ∧
    ∃ c ∈ (verifyDirectoryCatalogViews library relays noFloors ones 305).entries,
      c.serverId = "pir1" ∧
      ∃ sh ∈ (verifyDirectoryCatalogViews library relays noFloors ones 305).shards, ∃ v e,
        c.ListedIn library ones 305 sh v e := by
  have hshards : (verifyDirectoryCatalogViews library [["checkpoint", "entry"]] noFloors
      ones 305).shards = [⟨0, 7, 1, lowerHex ones.val⟩] := by decide +kernel
  have hentries : (verifyDirectoryCatalogViews library relays noFloors ones 305).entries.map
      CatalogEntry.serverId = ["pir1"] := by decide +kernel
  have hkeep := further_relays_keep_shards library [["checkpoint", "entry"]] relays noFloors ones
    305 (List.sublist_cons_self _ _)
  refine ⟨hshards, ?_, ?_⟩
  · exact hkeep.1 oneCheckpointPerEpoch ⟨0, 7, 1, lowerHex ones.val⟩
      (by rw [hshards]; exact List.mem_singleton_self _)
  · obtain ⟨c, hc, hname⟩ := List.mem_map.1 (hentries ▸ List.mem_singleton_self "pir1")
    exact ⟨c, hc, hname, hkeep.2 c hc⟩

end BitcoinPir.Directory
