import BitcoinPir.Directory.Views
import BitcoinPir.Foundations.Runs

/-!
# No rollback over a history of refreshes

A client refreshes its catalog again and again, each time with whatever the relays send and with
the floors the last refresh returned. `RollbackFloors.Advance` is what may happen to the floors:
none disappears and each moves to one that follows it. A refresh computes every new floor from the
floors it was given, so one refresh is an advance whatever views it selects. The floors it leaves
record every entry of the accepted checkpoints, tombstones included
(`DirectoryCatalog.Recorded`). Over a history this gives `refreshes_advance`.
-/

namespace BitcoinPir.Directory

open Foundations Function

/-! ## Floors after an insertion -/

namespace RollbackFloors

variable {f g : RollbackFloors} {p q : Hash256} {shard other : UInt8} {floor : Bytes}

theorem decodeFloor_lowerHex {S : Type} {decode : Bytes → DirectoryResult S} {s : S}
    (h : decode floor = .ok s) : decodeFloor decode (lowerHex floor) = .ok s := by
  rw [decodeFloor, decodeLowerHexVec_lowerHex]
  exact reason_eq_ok.2 h

variable {s : EntryRollbackState} {xs : List (Hash256 × Bytes)}

theorem entry_insertEntry_self (h : EntryRollbackState.decode floor = .ok s) :
    (f.insertEntry p floor).entry p = some s := by
  unfold entry insertEntry
  dsimp only
  rw [update_self, Option.bind_some, decodeFloor_lowerHex h]
  rfl

theorem entry_insertEntry_of_ne (h : q ≠ p) : (f.insertEntry p floor).entry q = f.entry q := by
  have hkey : lowerHex q.val ≠ lowerHex p.val := fun heq =>
    h (Subtype.ext (lowerHex_injective heq))
  unfold entry insertEntry
  dsimp only
  rw [update_of_ne hkey]

theorem checkpoint_insertCheckpoint_self {s : CheckpointRollbackState}
    (h : CheckpointRollbackState.decode floor = .ok s) :
    (f.insertCheckpoint shard floor).checkpoint shard = some s := by
  unfold checkpoint insertCheckpoint
  dsimp only
  rw [update_self, Option.bind_some, decodeFloor_lowerHex h]
  rfl

theorem checkpoint_insertCheckpoint_of_ne (h : other ≠ shard) :
    (f.insertCheckpoint shard floor).checkpoint other = f.checkpoint other := by
  unfold checkpoint insertCheckpoint
  dsimp only
  rw [update_of_ne h]

/-- Inserting entries leaves the floors of shards and of other providers. -/
theorem checkpoint_foldl_insertEntry (xs : List (Hash256 × Bytes)) (f : RollbackFloors)
    (shard : UInt8) :
    (xs.foldl (fun f x => f.insertEntry x.1 x.2) f).checkpoint shard = f.checkpoint shard := by
  induction xs generalizing f with
  | nil => rfl
  | cons x xs ih => exact ih _

theorem entry_foldl_insertEntry_of_notMem (h : p ∉ xs.map Prod.fst) :
    (xs.foldl (fun f x => f.insertEntry x.1 x.2) f).entry p = f.entry p := by
  induction xs generalizing f with
  | nil => rfl
  | cons x xs ih =>
    rw [List.map_cons, List.mem_cons, not_or] at h
    rw [List.foldl_cons, ih h.2, entry_insertEntry_of_ne h.1]

theorem entry_foldl_insertEntry_of_mem (hnodup : (xs.map Prod.fst).Nodup) (hmem : (p, floor) ∈ xs)
    (hdecode : EntryRollbackState.decode floor = .ok s) :
    (xs.foldl (fun f x => f.insertEntry x.1 x.2) f).entry p = some s := by
  induction xs generalizing f with
  | nil => cases hmem
  | cons x xs ih =>
    obtain ⟨hx, hnodup⟩ := List.nodup_cons.1 hnodup
    rw [List.foldl_cons]
    rcases List.mem_cons.1 hmem with rfl | hmem
    · rw [entry_foldl_insertEntry_of_notMem hx, entry_insertEntry_self hdecode]
    · exact ih hnodup hmem

/-! ## Advances -/

/-- No floor of `f` is lost in `f'`, and each has moved to one that follows it. -/
structure Advance (f f' : RollbackFloors) : Prop where
  entries_kept : ∀ k, (f.entries k).isSome → (f'.entries k).isSome
  checkpoints_kept : ∀ shard, (f.checkpoints shard).isSome → (f'.checkpoints shard).isSome
  entry : ∀ p s, f.entry p = some s → ∃ s', f'.entry p = some s' ∧ s.Follows s'
  checkpoint : ∀ shard s, f.checkpoint shard = some s →
    ∃ s', f'.checkpoint shard = some s' ∧ s.Follows s'

theorem Advance.refl (f : RollbackFloors) : f.Advance f :=
  ⟨fun _ h => h, fun _ h => h, fun _ s h => ⟨s, h, .refl s⟩, fun _ s h => ⟨s, h, .refl s⟩⟩

theorem Advance.trans {f'' : RollbackFloors} (h : f.Advance g) (h' : g.Advance f'') :
    f.Advance f'' := by
  refine ⟨fun k hk => h'.entries_kept k (h.entries_kept k hk),
    fun k hk => h'.checkpoints_kept k (h.checkpoints_kept k hk), ?_, ?_⟩
  · intro p s hs
    obtain ⟨s', hs', hfollows⟩ := h.entry p s hs
    obtain ⟨s'', hs'', hfollows'⟩ := h'.entry p s' hs'
    exact ⟨s'', hs'', hfollows.trans hfollows'⟩
  · intro shard s hs
    obtain ⟨s', hs', hfollows⟩ := h.checkpoint shard s hs
    obtain ⟨s'', hs'', hfollows'⟩ := h'.checkpoint shard s' hs'
    exact ⟨s'', hs'', hfollows.trans hfollows'⟩

theorem isSome_update {K V : Type} [DecidableEq K] {m : K → Option V} {k k' : K} {v : V}
    (h : (m k).isSome) : (update m k' (some v) k).isSome := by
  by_cases heq : k = k'
  · rw [heq, update_self]
    rfl
  · rwa [update_of_ne heq]

/-- The new floor only has to follow the floor in `f`, from which it was computed, and not what
has been inserted meanwhile. -/
theorem Advance.insertEntry (h : f.Advance g) (hdecode : EntryRollbackState.decode floor = .ok s)
    (hfollows : ∀ s₀, f.entry p = some s₀ → s₀.Follows s) :
    f.Advance (g.insertEntry p floor) := by
  refine ⟨fun k hk => isSome_update (h.entries_kept k hk), h.checkpoints_kept, ?_, h.checkpoint⟩
  intro q s₀ hs₀
  by_cases hqp : q = p
  · subst hqp
    exact ⟨s, entry_insertEntry_self hdecode, hfollows s₀ hs₀⟩
  · rw [entry_insertEntry_of_ne hqp]
    exact h.entry q s₀ hs₀

theorem Advance.insertCheckpoint {s : CheckpointRollbackState} (h : f.Advance g)
    (hdecode : CheckpointRollbackState.decode floor = .ok s)
    (hfollows : ∀ s₀, f.checkpoint shard = some s₀ → s₀.Follows s) :
    f.Advance (g.insertCheckpoint shard floor) := by
  refine ⟨h.entries_kept, fun k hk => isSome_update (h.checkpoints_kept k hk), h.entry, ?_⟩
  intro other s₀ hs₀
  by_cases heq : other = shard
  · subst heq
    exact ⟨s, checkpoint_insertCheckpoint_self hdecode, hfollows s₀ hs₀⟩
  · rw [checkpoint_insertCheckpoint_of_ne heq]
    exact h.checkpoint other s₀ hs₀

theorem Advance.foldl_insertEntry (h : f.Advance g)
    (hxs : ∀ x ∈ xs, ∃ s, EntryRollbackState.decode x.2 = .ok s ∧ ∀ s₀, f.entry x.1 = some s₀ → s₀.Follows s) :
    f.Advance (xs.foldl (fun f x => f.insertEntry x.1 x.2) g) := by
  induction xs generalizing g with
  | nil => exact h
  | cons x xs ih =>
    obtain ⟨s, hdecode, hfollows⟩ := hxs x List.mem_cons_self
    exact ih (h.insertEntry hdecode hfollows) fun y hy => hxs y (List.mem_cons_of_mem _ hy)

end RollbackFloors

/-! ## One refresh -/

section Refresh

variable {lib : Library} {key : Hash256} {nowUnix : UInt64} {floors g : RollbackFloors}

/-- Storing the floors of an accepted view is an advance. -/
theorem AcceptedView.Accepted.advance {view : AcceptedView} {v : VerifiedCheckpointEvent}
    (hview : view.Accepted lib key nowUnix floors v) (h : floors.Advance g) :
    floors.Advance (g.insertView v.checkpoint.shard view) := by
  obtain ⟨s, hdecode, -, hfollows⟩ := hview.floor
  refine (h.insertCheckpoint hdecode hfollows).foldl_insertEntry fun x hx => ?_
  obtain ⟨e, s, he, hentry⟩ := hview.entry_floor x hx
  exact ⟨s, hentry.decoded, he ▸ hentry.follows⟩

/-- A selected view is one of the accepted ones, of the highest epoch among them. -/
theorem selectView_eq_ok {views : List AcceptedView} {view : AcceptedView} {agreeing : ℕ}
    (h : selectView views = .ok (view, agreeing)) :
    view ∈ views ∧ view.epoch = newestEpoch views := by
  unfold selectView at h
  split at h
  · cases h
  · rw [okOr_eq_ok] at h
    obtain ⟨last, hlast, heq⟩ := Option.map_eq_some_iff.1 h
    cases heq
    obtain ⟨hmem, hepoch⟩ := List.mem_filter.1 (List.mem_of_getLast? hlast)
    exact ⟨hmem, beq_iff_eq.1 hepoch⟩

theorem addShard_advance {relays : List (List String)} {catalog : DirectoryCatalog}
    (h : floors.Advance catalog.state) (shard : ℕ) :
    floors.Advance
      (addShard (acceptedViews lib relays floors key nowUnix) catalog shard).state := by
  unfold addShard
  cases hselect : selectView (acceptedViews lib relays floors key nowUnix shard) with
  | error text => exact h
  | ok selected =>
    obtain ⟨v, hshard, -, hview⟩ := accepted_of_mem_acceptedViews (selectView_eq_ok hselect).1
    exact hshard ▸ hview.advance h

/-- A refresh advances the floors. -/
theorem verifyDirectoryCatalogViews_advance (relays : List (List String)) :
    floors.Advance (verifyDirectoryCatalogViews lib relays floors key nowUnix).state := by
  have hfold : ∀ (shards : List ℕ) (catalog : DirectoryCatalog), floors.Advance catalog.state →
      floors.Advance
        (shards.foldl (addShard (acceptedViews lib relays floors key nowUnix)) catalog).state := by
    intro shards
    induction shards with
    | nil => exact fun catalog h => h
    | cons shard shards ih => exact fun catalog h => ih _ (addShard_advance h shard)
  unfold verifyDirectoryCatalogViews
  dsimp only
  split_ifs
  · exact hfold _ _ (.refl floors)
  · exact hfold _ _ (.refl floors)

end Refresh

/-! ## What a refresh accepts is recorded -/

section Recorded

variable {lib : Library} {key : Hash256} {nowUnix : UInt64} {floors g : RollbackFloors}

/-- The floors `after` a refresh record an entry that was accepted against the floors `before`. -/
def VerifiedEntryEvent.RecordedIn (e : VerifiedEntryEvent) (before after : RollbackFloors) : Prop :=
  ∃ s, after.entry e.entry.providerId = some s ∧ s.Records e ∧
    s.FromEntry (before.entry e.entry.providerId) e.entry

/-- The floors record the checkpoint `v` that was accepted for a shard, and every entry it lists:
an active one or a tombstone. -/
structure CatalogShard.RecordedIn (sh : CatalogShard) (lib : Library) (key : Hash256)
    (nowUnix : UInt64) (before after : RollbackFloors) (v : VerifiedCheckpointEvent) : Prop where
  genuine : v.Genuine lib key nowUnix
  shard : v.checkpoint.shard = sh.shard
  epoch : v.checkpoint.checkpointEpoch = sh.epoch
  event : lowerHex v.event.id.val = sh.eventId
  floor : ∃ s, after.checkpoint sh.shard = some s ∧ s.Records v
  entries : ∀ l ∈ v.checkpoint.entries, ∃ e : VerifiedEntryEvent, e.listing = l ∧
    e.Genuine lib key nowUnix ∧ e.RecordedIn before after

/-- What a catalog returns and the checkpoints of its shards are recorded in its floors. -/
structure DirectoryCatalog.Recorded (catalog : DirectoryCatalog) (lib : Library) (key : Hash256)
    (nowUnix : UInt64) (floors : RollbackFloors) : Prop where
  entry : ∀ c ∈ catalog.entries, ∃ e : VerifiedEntryEvent, catalogEntry e = some c ∧
    e.entry.status = .active ∧ e.RecordedIn floors catalog.state
  shard : ∀ sh ∈ catalog.shards, ∃ v,
    sh.RecordedIn lib key nowUnix floors catalog.state v

/-- The invariant of the loop over the shards: what was accepted for the first `n` shards is
recorded, and belongs to them, so that the shards to come do not touch it. -/
structure RecordedUpTo (lib : Library) (key : Hash256) (nowUnix : UInt64) (floors : RollbackFloors)
    (n : ℕ) (catalog : DirectoryCatalog) : Prop where
  entry : ∀ c ∈ catalog.entries, ∃ e : VerifiedEntryEvent, catalogEntry e = some c ∧
    e.entry.status = .active ∧ e.RecordedIn floors catalog.state ∧
    ∃ i < n, coarseShardForProvider e.entry.providerId = UInt8.ofNat i
  shard : ∀ sh ∈ catalog.shards, (∃ v, sh.RecordedIn lib key nowUnix floors catalog.state v) ∧
    ∃ i < n, sh.shard = UInt8.ofNat i

theorem ofNat_shard_ne {i n : ℕ} (hi : i < n) (hn : n < directoryShardCount) :
    UInt8.ofNat i ≠ UInt8.ofNat n := by
  unfold directoryShardCount at hn
  intro heq
  have := congrArg UInt8.toNat heq
  rw [UInt8.toNat_ofNat', UInt8.toNat_ofNat'] at this
  omega

variable {view : AcceptedView} {v : VerifiedCheckpointEvent} {shard : UInt8}
  (hview : view.Accepted lib key nowUnix floors v)

include hview

/-- The providers of an accepted view are in its shard. -/
theorem AcceptedView.Accepted.coarseShard {p : Hash256}
    (hp : p ∈ view.entryFloors.map Prod.fst) : coarseShardForProvider p = v.checkpoint.shard := by
  obtain ⟨x, hx, rfl⟩ := List.mem_map.1 hp
  obtain ⟨e, s, he, hentry⟩ := hview.entry_floor x hx
  rw [← he, ← hentry.genuine.shard, hentry.shard]

/-- An accepted entry of a view is recorded by the floors of the view. -/
theorem AcceptedView.Accepted.recordedIn {e : VerifiedEntryEvent} {floor : Bytes} {s : EntryRollbackState}
    (hmem : (e.entry.providerId, floor) ∈ view.entryFloors)
    (hentry : AcceptedEntry lib key nowUnix floors v e floor s) :
    e.RecordedIn floors (g.insertView shard view) :=
  ⟨s, RollbackFloors.entry_foldl_insertEntry_of_mem hview.providers_nodup hmem hentry.decoded,
    hentry.records, hentry.origin⟩

/-- The view of a shard leaves what is recorded of the others. -/
theorem VerifiedEntryEvent.RecordedIn.insertView {e : VerifiedEntryEvent}
    (h : e.RecordedIn floors g)
    (hne : coarseShardForProvider e.entry.providerId ≠ v.checkpoint.shard) :
    e.RecordedIn floors (g.insertView shard view) := by
  obtain ⟨s, hs, hrecords, horigin⟩ := h
  refine ⟨s, ?_, hrecords, horigin⟩
  have hnot : e.entry.providerId ∉ view.entryFloors.map Prod.fst := fun hmem =>
    hne (hview.coarseShard hmem)
  exact (RollbackFloors.entry_foldl_insertEntry_of_notMem hnot).trans hs

theorem CatalogShard.RecordedIn.insertView {sh : CatalogShard} {w : VerifiedCheckpointEvent}
    (h : sh.RecordedIn lib key nowUnix floors g w) (hshard : v.checkpoint.shard = shard)
    (hne : sh.shard ≠ shard) :
    sh.RecordedIn lib key nowUnix floors (g.insertView shard view) w := by
  refine { h with floor := ?_, entries := fun l hl => ?_ }
  · rw [RollbackFloors.insertView, RollbackFloors.checkpoint_foldl_insertEntry,
      RollbackFloors.checkpoint_insertCheckpoint_of_ne hne]
    exact h.floor
  · obtain ⟨e, rfl, hgenuine, hrecorded⟩ := h.entries l hl
    refine ⟨e, rfl, hgenuine, hrecorded.insertView hview ?_⟩
    rw [hshard]
    exact fun heq => hne ((h.genuine.in_shard _ hl).trans h.shard ▸ heq)

theorem RecordedUpTo.addView {n agreeing : ℕ} {catalog : DirectoryCatalog}
    (h : RecordedUpTo lib key nowUnix floors n catalog) (hn : n < directoryShardCount)
    (hshard : v.checkpoint.shard = UInt8.ofNat n) : RecordedUpTo lib key nowUnix floors (n + 1)
      { validUntil := min catalog.validUntil view.validUntil
        shards := catalog.shards ++ [⟨UInt8.ofNat n, view.epoch, agreeing,
          lowerHex view.checkpoint.2.val⟩]
        entries := catalog.entries ++ view.entries
        rejected := catalog.rejected
        state := catalog.state.insertView (UInt8.ofNat n) view } := by
  constructor
  · intro c hc
    rcases List.mem_append.1 hc with hc | hc
    · obtain ⟨e, hce, hactive, hrecorded, i, hi, hcoarse⟩ := h.entry c hc
      refine ⟨e, hce, hactive, hrecorded.insertView hview ?_, i, by omega, hcoarse⟩
      rw [hcoarse, hshard]
      exact ofNat_shard_ne hi hn
    · obtain ⟨e, floor, s, hmem, hentry, hactive, hce⟩ := hview.returned c hc
      refine ⟨e, hce, hactive, hview.recordedIn hmem hentry, n, by omega, ?_⟩
      rw [← hentry.genuine.shard, hentry.shard, hshard]
  · intro sh hsh
    rcases List.mem_append.1 hsh with hsh | hsh
    · obtain ⟨⟨w, hw⟩, i, hi, hshi⟩ := h.shard sh hsh
      exact ⟨⟨w, hw.insertView hview hshard (hshi ▸ ofNat_shard_ne hi hn)⟩, i, by omega, hshi⟩
    · rw [List.mem_singleton] at hsh
      subst hsh
      obtain ⟨raw, hraw⟩ := hview.verified
      obtain ⟨s, hdecode, hrecords, -⟩ := hview.floor
      refine ⟨⟨v, verifyDirectoryCheckpointEvent_eq_ok hraw, hshard, hview.epoch.symm, ?_,
        ⟨s, ?_, hrecords⟩, fun l hl => ?_⟩, n, by omega, rfl⟩
      · rw [hview.checkpoint]
      · rw [RollbackFloors.insertView, RollbackFloors.checkpoint_foldl_insertEntry,
          RollbackFloors.checkpoint_insertCheckpoint_self hdecode]
      · obtain ⟨e, floor, s, hl, hmem, hentry⟩ := hview.complete l hl
        exact ⟨e, hl, hentry.genuine, hview.recordedIn hmem hentry⟩

omit hview

theorem RecordedUpTo.addShard {n : ℕ} {catalog : DirectoryCatalog} {relays : List (List String)}
    (h : RecordedUpTo lib key nowUnix floors n catalog) (hn : n < directoryShardCount) :
    RecordedUpTo lib key nowUnix floors (n + 1)
      (addShard (acceptedViews lib relays floors key nowUnix) catalog n) := by
  unfold Directory.addShard
  cases hselect : selectView (acceptedViews lib relays floors key nowUnix n) with
  | error text =>
    refine ⟨fun c hc => ?_, fun sh hsh => ?_⟩
    · obtain ⟨e, hce, hactive, hrecorded, i, hi, hcoarse⟩ := h.entry c hc
      exact ⟨e, hce, hactive, hrecorded, i, by omega, hcoarse⟩
    · obtain ⟨hw, i, hi, hshi⟩ := h.shard sh hsh
      exact ⟨hw, i, by omega, hshi⟩
  | ok selected =>
    obtain ⟨v, hshard, -, hview⟩ := accepted_of_mem_acceptedViews (selectView_eq_ok hselect).1
    exact h.addView hview hn hshard

theorem verifyDirectoryCatalogViews_recorded (relays : List (List String)) :
    (verifyDirectoryCatalogViews lib relays floors key nowUnix).Recorded lib key nowUnix
      floors := by
  have hfold : ∀ (start : DirectoryCatalog), RecordedUpTo lib key nowUnix floors 0 start →
      ∀ n ≤ directoryShardCount, RecordedUpTo lib key nowUnix floors n ((List.range n).foldl
        (addShard (acceptedViews lib relays floors key nowUnix)) start) := by
    intro start hstart n
    induction n with
    | zero => exact fun _ => hstart
    | succ n ih =>
      intro hn
      rw [List.range_succ, List.foldl_append]
      exact (ih (by omega)).addShard (by omega)
  have hall := hfold (.start (rejectedViews lib relays floors key nowUnix) floors)
    ⟨fun c hc => (List.not_mem_nil hc).elim, fun sh hsh => (List.not_mem_nil hsh).elim⟩
    directoryShardCount le_rfl
  have hrecorded : ∀ catalog : DirectoryCatalog,
      RecordedUpTo lib key nowUnix floors directoryShardCount catalog →
      catalog.Recorded lib key nowUnix floors := by
    refine fun catalog h => ⟨fun c hc => ?_, fun sh hsh => (h.shard sh hsh).1⟩
    obtain ⟨e, hce, hactive, hrecords, -⟩ := h.entry c hc
    exact ⟨e, hce, hactive, hrecords⟩
  unfold verifyDirectoryCatalogViews
  dsimp only
  split_ifs with hempty
  · exact ⟨(hrecorded _ hall).entry, (hrecorded _ hall).shard⟩
  · exact hrecorded _ hall

end Recorded

/-! ## Histories -/

/-- One refresh: what the relays sent, the pinned key and the time. -/
structure Refresh where
  relays : List (List String)
  key : Hash256
  nowUnix : UInt64

/-- The catalog of a refresh against the stored floors. -/
def Refresh.catalog (lib : Library) (floors : RollbackFloors) (r : Refresh) : DirectoryCatalog :=
  verifyDirectoryCatalogViews lib r.relays floors r.key r.nowUnix

/-- The floors stored after a refresh. -/
def refresh (lib : Library) (floors : RollbackFloors) (r : Refresh) : RollbackFloors :=
  (r.catalog lib floors).state

theorem runFrom_refresh_advance (lib : Library) (floors : RollbackFloors) (rs : List Refresh) :
    floors.Advance (runFrom (refresh lib) floors rs) :=
  runFrom_invariant (I := floors.Advance)
    (fun _ r h => h.trans (verifyDirectoryCatalogViews_advance r.relays)) rs (.refl floors)

/-- Over any history of refreshes, with whatever the relays send, the floors only advance, and what
every refresh accepts is recorded by the floors it leaves behind. -/
theorem refreshes_advance (lib : Library) (floors : RollbackFloors) (earlier later : List Refresh) :
    (runFrom (refresh lib) floors earlier).Advance
        (runFrom (refresh lib) floors (earlier ++ later)) ∧
      ∀ r : Refresh, (r.catalog lib (runFrom (refresh lib) floors earlier)).Recorded lib r.key
        r.nowUnix (runFrom (refresh lib) floors earlier) := by
  constructor
  · rw [runFrom_append]
    exact runFrom_refresh_advance lib _ later
  · exact fun r => verifyDirectoryCatalogViews_recorded r.relays

end BitcoinPir.Directory
