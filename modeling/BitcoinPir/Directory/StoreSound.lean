import BitcoinPir.Directory.Store

/-!
# What the archive of a directory relay guarantees

The invariant `Db.Sound` pairs the database with the table of its head rows, which are the champions
of the archived rows. It is kept by every call (`ingestCall_sound`), whatever the events, the times
and the outcomes of the commits. From it follow the heads, the counters and the catalog. The startup
replays the archive: its map of winners is again a table of champions, so it agrees with the heads,
and only the check of each row at the time of its creation can fail.
-/

namespace BitcoinPir.Directory

open Foundations

/-! ## The order of replacement -/

namespace WinnerRecord

variable {a b c : WinnerRecord}

theorem Beats.asymm (h : a.Beats b) : ¬ b.Beats a := by
  rintro (hlt | ⟨heq, hid⟩)
  · rcases h with h | ⟨h, -⟩
    · exact UInt64.lt_asymm h hlt
    · exact UInt64.lt_irrefl _ (h ▸ hlt)
  · rcases h with h | ⟨-, h⟩
    · exact UInt64.lt_irrefl _ (heq ▸ h)
    · rw [Std.OrientedCmp.gt_iff_lt.2 hid] at h
      cases h

theorem Beats.trans (hab : a.Beats b) (hbc : b.Beats c) : a.Beats c := by
  rcases hab with hab | ⟨hab, hid⟩
  · rcases hbc with hbc | ⟨hbc, -⟩
    · exact Or.inl (UInt64.lt_trans hbc hab)
    · exact Or.inl (hbc ▸ hab)
  · rcases hbc with hbc | ⟨hbc, hid'⟩
    · exact Or.inl (hab ▸ hbc)
    · exact Or.inr ⟨hab.trans hbc, Std.TransCmp.lt_trans hid hid'⟩

/-- Of two different events one replaces the other. -/
theorem Beats.total (hne : a.eventId ≠ b.eventId) : a.Beats b ∨ b.Beats a := by
  rcases Nat.lt_trichotomy a.createdAt.toNat b.createdAt.toNat with h | h | h
  · exact Or.inr (Or.inl h)
  · rw [UInt64.toNat_inj] at h
    cases hid : compare a.eventId.val b.eventId.val with
    | lt => exact Or.inl (Or.inr ⟨h, hid⟩)
    | eq => exact absurd (Subtype.ext (Std.LawfulEqCmp.eq_of_compare hid)) hne
    | gt => exact Or.inr (Or.inr ⟨h.symm, Std.OrientedCmp.gt_iff_lt.1 hid⟩)
  · exact Or.inl (Or.inl h)

end WinnerRecord

/-- The entry of the map of winners that a row gives. -/
def EventRow.winner (row : EventRow) : WinnerRecord :=
  { coordinate := row.coordinate, eventId := row.eventId, createdAt := row.createdAt,
    shard := row.shard, profile := row.profile }

def EventRow.Beats (a b : EventRow) : Prop := a.winner.Beats b.winner

/-- The order of the rows is the order of their events. -/
theorem ValidatedEvent.Genuine.order_eq_gt_iff {lib : RelayLibrary} {pinned : Hash256}
    {v w : ValidatedEvent} {eventJson eventJson' : Bytes} (hv : v.Genuine lib pinned eventJson)
    (hw : w.Genuine lib pinned eventJson') (hd : v.dTag = w.dTag) (t t' : UInt64) :
    v.event.nip01AddressableReplacementOrder w.event = .ok .gt ↔
      (EventRow.ofEvent v t).Beats (EventRow.ofEvent w t') := by
  rw [hv.order hw hd, Except.ok.injEq, Ordering.then_eq_gt, Std.compare_eq_gt,
    Std.LawfulEqCmp.compare_eq_iff_eq, Std.OrientedCmp.gt_iff_lt]
  rfl

/-! ## The invariant -/

variable (lib : RelayLibrary) (config : StoreConfig)

/-- The row of an event that was current when it was received. -/
def EventRow.Archived (row : EventRow) : Prop :=
  ∃ event, validateEventJson lib config.pinned row.eventJson = .ok event ∧
    row = .ofEvent event row.receivedAt ∧ row.createdAt ≤ row.receivedAt ∧
    validateCurrentEventProfile lib config.pinned event row.receivedAt = .ok ()

/-- The database of a relay, with the table of its head rows. -/
structure Db.Sound (db : Db) (table : List EventRow) : Prop where
  metadata : db.profile = profileName ∧ db.directoryPubkey = config.pinned ∧
    db.maxArchiveEvents = config.maxArchiveEvents ∧ db.maxArchiveBytes = config.maxArchiveBytes
  ids_nodup : (db.events.map EventRow.eventId).Nodup
  archived : ∀ row ∈ db.events, row.Archived lib config
  count_eq : db.archiveEventCount = db.events.length
  bytes_eq : db.archiveBytes = (db.events.map fun row => row.eventJson.length).sum
  count_le : db.archiveEventCount ≤ config.maxArchiveEvents
  bytes_le : db.archiveBytes ≤ config.maxArchiveBytes
  heads_eq : db.heads = table.map EventRow.head
  champions : Champions EventRow.coordinate EventRow.Beats db.events table
  groups_le : ∀ group, (table.countP fun row => row.group = group) ≤ capacity group.2

variable {lib config}

namespace EventRow.Archived

variable {a b : EventRow}

theorem genuine (h : a.Archived lib config) :
    ∃ event : ValidatedEvent, event.Genuine lib config.pinned a.eventJson ∧
      a = .ofEvent event a.receivedAt := by
  obtain ⟨event, hevent, hrow, -, -⟩ := h
  exact ⟨event, validateEventJson_eq_ok hevent, hrow⟩

/-- The coordinate determines shard and profile. -/
theorem group_eq (ha : a.Archived lib config) (hb : b.Archived lib config)
    (hkey : a.coordinate = b.coordinate) : a.group = b.group := by
  obtain ⟨v, hv, hva⟩ := ha.genuine
  obtain ⟨w, hw, hwb⟩ := hb.genuine
  rw [hva, hwb] at hkey ⊢
  have hd : v.dTag = w.dTag := congrArg (fun key => key.2.2) hkey
  have hprofile := hv.profile
  rw [hd] at hprofile
  obtain ⟨hs, hp⟩ := parseProfile_inj hv.shard_lt hw.shard_lt hprofile hw.profile
  exact Prod.ext hs hp

theorem shard_lt (h : a.Archived lib config) : a.shard.toNat < directoryShardCount := by
  obtain ⟨v, hv, hva⟩ := h.genuine
  rw [hva]
  exact hv.shard_lt

theorem pubkey_kind (h : a.Archived lib config) :
    a.pubkey = config.pinned ∧ a.kind = bitcoinpirDirectoryKind := by
  obtain ⟨v, hv, hva⟩ := h.genuine
  rw [hva]
  exact ⟨hv.pubkey, hv.kind⟩

end EventRow.Archived

namespace Db.Sound

variable {db : Db} {table : List EventRow}

theorem initial : (Db.initial config).Sound lib config [] where
  metadata := ⟨rfl, rfl, rfl, rfl⟩
  ids_nodup := List.nodup_nil
  archived _ hrow := absurd hrow List.not_mem_nil
  count_eq := rfl
  bytes_eq := rfl
  count_le := Nat.zero_le _
  bytes_le := Nat.zero_le _
  heads_eq := rfl
  champions := .nil
  groups_le _ := Nat.zero_le _

variable (h : db.Sound lib config table)

include h

theorem mem_events {row : EventRow} (hrow : row ∈ table) : row ∈ db.events := (h.champions.champion row hrow).mem

theorem eq_of_eventId {a b : EventRow} (ha : a ∈ db.events) (hb : b ∈ db.events)
    (hid : a.eventId = b.eventId) : a = b :=
  List.inj_on_of_nodup_map h.ids_nodup ha hb hid

theorem rowById_eq {row : EventRow} (hrow : row ∈ db.events) :
    db.rowById row.eventId = some row := find?_key_eq_some h.ids_nodup hrow

/-- The join of heads and events is the table. -/
theorem headRows_eq : db.headRows = table := by
  rw [Db.headRows, h.heads_eq, List.filterMap_map]
  calc
    _ = table.filterMap some := List.filterMap_congr fun row hrow => h.rowById_eq (h.mem_events hrow)
    _ = table := List.filterMap_some

/-- The current row of a coordinate is the row of the table. -/
theorem current_eq (coordinate : Coordinate) :
    ((db.heads.find? fun head => head.coordinate = coordinate).bind
      fun head => db.rowById head.eventId) =
      table.find? fun row => row.coordinate = coordinate := by
  rw [h.heads_eq, List.find?_map, Option.map_eq_bind, Option.bind_assoc]
  change (table.find? fun row => row.coordinate = coordinate).bind _ = _
  cases hfind : table.find? fun row => row.coordinate = coordinate with
  | none => rfl
  | some row => exact h.rowById_eq (h.mem_events (List.mem_of_find?_eq_some hfind))

/-- A row that wins its coordinate and fits in is archived. -/
theorem archive {row : EventRow} {db' : Db} (hrow : row.Archived lib config)
    (hnew : db.rowById row.eventId = none)
    (hwins : ∀ a ∈ table, a.coordinate = row.coordinate → row.Beats a)
    (hroom : (table.find? fun a => a.coordinate = row.coordinate) = none →
      (table.countP fun a => a.group = row.group) < capacity row.profile)
    (hcount : db.archiveEventCount < config.maxArchiveEvents)
    (hbytes : db.archiveBytes + row.eventJson.length ≤ config.maxArchiveBytes)
    (h' : db.archive row = .ok db') :
    db'.Sound lib config (upsert EventRow.coordinate table row) := by
  obtain ⟨_, -, h'⟩ := bind_eq_ok.1 h'
  obtain ⟨_, -, h'⟩ := bind_eq_ok.1 h'
  cases h'
  have hids : row.eventId ∉ db.events.map EventRow.eventId := by
    intro hmem
    obtain ⟨old, hold, heq⟩ := List.mem_map.1 hmem
    have hfound := h.rowById_eq hold
    rw [heq, hnew] at hfound
    cases hfound
  refine
    { metadata := h.metadata
      ids_nodup := ?_
      archived := ?_
      count_eq := ?_
      bytes_eq := ?_
      count_le := hcount
      bytes_le := hbytes
      heads_eq := ?_
      champions := h.champions.upsert (fun _ _ _ => WinnerRecord.Beats.trans) hwins
      groups_le := ?_ }
  · rw [List.map_append, List.map_singleton]
    rw [← List.concat_eq_append]
    exact h.ids_nodup.concat hids
  · intro a ha
    rcases List.mem_append.1 ha with ha | ha
    · exact h.archived a ha
    · rwa [List.mem_singleton.1 ha]
  · rw [List.length_append, List.length_singleton, h.count_eq]
  · rw [List.map_append, List.sum_append, List.map_singleton, List.sum_singleton, h.bytes_eq]
  · rw [h.heads_eq]
    exact upsert_map EventRow.head fun _ => rfl
  · -- A replacement leaves the group as it was; a new head is counted against the capacity.
    intro group
    by_cases hmem : ∃ a ∈ table, a.coordinate = row.coordinate
    · have hgroups := map_upsert_of_mem EventRow.group
        (fun a ha hkey => (h.archived a (h.mem_events ha)).group_eq hrow hkey) hmem
      have hcountP : ∀ l : List EventRow, (l.countP fun a => a.group = group) =
          (l.map EventRow.group).countP fun g => g = group := by
        intro l
        rw [List.countP_map]
        rfl
      rw [hcountP, hgroups, ← hcountP]
      exact h.groups_le group
    · rw [upsert_of_not_mem hmem]
      by_cases hgroup : row.group = group
      · have hlt := hroom (find?_key_eq_none.2 hmem)
        have hprofile : row.profile = group.2 := congrArg Prod.snd hgroup
        rw [hprofile] at hlt
        simpa [List.countP_cons, hgroup] using hlt
      · simpa [List.countP_cons, hgroup] using h.groups_le group

end Db.Sound

/-! ## Every call keeps the invariant -/

/-- The tables change only where an event is saved. -/
theorem ingestDecision_eq_ok {db db' : Db} {event : ValidatedEvent} {receivedAt : UInt64}
    {disposition : IngestDisposition} {name : String}
    (h : ingestDecision lib config db event receivedAt = .ok (disposition, name, db')) :
    db' = db ∨
      ∃ current, current = ((db.heads.find? fun head =>
          head.coordinate = (EventRow.ofEvent event receivedAt).coordinate).bind
            fun head => db.rowById head.eventId) ∧
        db.rowById event.event.id = none ∧ event.event.createdAt ≤ receivedAt ∧
        validateCurrentEventProfile lib config.pinned event receivedAt = .ok () ∧
        replaces lib config event current = .ok true ∧
        (current = none → (db.headRows.countP fun head =>
          head.group = (EventRow.ofEvent event receivedAt).group) < capacity event.profile) ∧
        db.archiveEventCount < config.maxArchiveEvents ∧
        db.archiveBytes + event.canonicalJson.length ≤ config.maxArchiveBytes ∧
        db.archive (.ofEvent event receivedAt) = .ok db' := by
  unfold ingestDecision at h
  cases hold : db.rowById event.event.id with
  | some row =>
    rw [hold] at h
    obtain ⟨_, -, h⟩ := bind_eq_ok.1 h
    cases h
    exact Or.inl rfl
  | none =>
    rw [hold] at h
    by_cases htime : receivedAt = 0 ∨ receivedAt < event.event.createdAt
    · rw [if_pos htime] at h
      cases h
      exact Or.inl rfl
    · rw [if_neg htime] at h
      obtain ⟨_, -, h⟩ := bind_eq_ok.1 h
      obtain ⟨_, -, h⟩ := bind_eq_ok.1 h
      cases hcurrent : validateCurrentEventProfile lib config.pinned event receivedAt with
      | error e =>
        rw [hcurrent] at h
        cases h
        exact Or.inl rfl
      | ok u =>
        rw [hcurrent] at h
        obtain ⟨newer, hnewer, h⟩ := bind_eq_ok.1 h
        split_ifs at h with hreplaced hfull harchive
        · cases h
          exact Or.inl rfl
        · cases h
          exact Or.inl rfl
        · cases h
          exact Or.inl rfl
        · obtain ⟨db'', harchived, h⟩ := bind_eq_ok.1 h
          cases h
          rw [not_or, not_le, not_lt] at harchive
          rw [not_or, UInt64.not_lt] at htime
          rw [Bool.not_eq_false] at hreplaced
          rw [hreplaced] at hnewer
          refine Or.inr ⟨_, rfl, rfl, htime.2, rfl, hnewer, fun hnone => ?_, harchive.1, harchive.2,
            harchived⟩
          exact not_le.1 fun hle => hfull ⟨hnone, hle⟩

theorem ingestCall_sound {db : Db} {table : List EventRow} (h : db.Sound lib config table)
    (call : IngestCall) :
    (∃ table', (ingestCall lib config db call).Sound lib config table') ∧
      ∀ row ∈ (ingestCall lib config db call).events,
        row ∈ db.events ∨ row.eventJson = call.eventJson := by
  have hsame : (∃ table', db.Sound lib config table') ∧
      ∀ row ∈ db.events, row ∈ db.events ∨ row.eventJson = call.eventJson :=
    ⟨⟨table, h⟩, fun _ hrow => Or.inl hrow⟩
  unfold ingestCall
  cases hevent : validateEventJson lib config.pinned call.eventJson with
  | error e => exact hsame
  | ok event =>
    have hgenuine := validateEventJson_eq_ok hevent
    simp only [ingest]
    cases hdecision : ingestDecision lib config db event call.receivedAt with
    | error e => exact hsame
    | ok result =>
      obtain ⟨disposition, name, db'⟩ := result
      cases call.commit with
      | error e => exact hsame
      | ok u =>
        rcases ingestDecision_eq_ok hdecision with rfl | ⟨current, hcurrent, hnew, htime, hvalid,
          hreplaces, hroom, hcount, hbytes, harchive⟩
        · exact hsame
        · rw [h.current_eq] at hcurrent
          rw [h.headRows_eq] at hroom
          have hrow : (EventRow.ofEvent event call.receivedAt).Archived lib config :=
            ⟨event, by rw [← hgenuine.canonical] at hevent; exact hevent, rfl, htime, hvalid⟩
          have hwins : ∀ a ∈ table, a.coordinate = (EventRow.ofEvent event call.receivedAt).coordinate →
              (EventRow.ofEvent event call.receivedAt).Beats a := by
            intro a ha hkey
            rw [hcurrent, ← hkey, find?_key_eq_some h.champions.nodup ha] at hreplaces
            obtain ⟨stored, hstored, hreplaces⟩ := bind_eq_ok.1 hreplaces
            obtain ⟨order, horder, hreplaces⟩ := bind_eq_ok.1 hreplaces
            have hgt : order = .gt := of_decide_eq_true (Except.ok.inj hreplaces)
            rw [mapError_eq_ok, hgt] at horder
            obtain ⟨event', hevent', ha', -, -⟩ := h.archived a (h.mem_events ha)
            have hsame : stored = event' := Except.ok.inj (hstored.symm.trans hevent')
            rw [ha'] at hkey ⊢
            rw [hsame] at horder
            exact (hgenuine.order_eq_gt_iff (validateEventJson_eq_ok hevent')
              (congrArg (fun key => key.2.2) hkey).symm _ _).1 horder
          refine ⟨⟨_, h.archive hrow hnew hwins (fun hnone => hroom (hcurrent.trans hnone)) hcount
            hbytes harchive⟩, fun row hmem => ?_⟩
          obtain ⟨_, -, harchive⟩ := bind_eq_ok.1 harchive
          obtain ⟨_, -, harchive⟩ := bind_eq_ok.1 harchive
          cases harchive
          rcases List.mem_append.1 hmem with hmem | hmem
          · exact Or.inl hmem
          · rw [List.mem_singleton.1 hmem]
            exact Or.inr hgenuine.canonical

end BitcoinPir.Directory
