import BitcoinPir.Directory.StoreSound

/-!
# The relay opens its own archive

The startup replays the archive row by row (`scanRow_ok`, `scanRows_ok`) and then removes the winner
of each head (`scanHeads_eq_ok`). On a sound database it succeeds iff every row passes the check at
the time of its creation (`fullStartupValidation_eq_ok_iff`).
-/

namespace BitcoinPir.Directory

open Foundations

variable (lib : RelayLibrary) (config : StoreConfig)

/-- The health of an entry was observed by the time the entry was created. -/
def ObservedByCreation (eventJson : Bytes) : Prop :=
  ∀ event, validateEventJson lib config.pinned eventJson = .ok event →
    event.ObservedByCreation lib.toLibrary

variable {lib config}

/-! ## One row -/

variable {row : EventRow} {rows : List EventRow} {table : List WinnerRecord}

theorem EventRow.Archived.validateArchiveRow_eq (h : row.Archived lib config)
    (hobserved : ObservedByCreation lib config row.eventJson) :
    validateArchiveRow lib config row = .ok row.winner := by
  obtain ⟨event, hevent, hrow, htime, hcurrent⟩ := h
  have hgenuine := validateEventJson_eq_ok hevent
  have hagain := (validateCurrentEventProfile_at_creation hgenuine hcurrent).2
    (hobserved event hevent)
  have hcolumns : row.eventId = event.event.id ∧ row.pubkey = event.event.pubkey ∧
      row.kind = event.event.kind ∧ row.createdAt = event.event.createdAt ∧
      row.dTag = event.dTag ∧ row.sTag = event.sTag ∧ row.shard = event.shard ∧
      row.profile = event.profile ∧ row.createdAt ≤ row.receivedAt :=
    ⟨congrArg EventRow.eventId hrow, congrArg EventRow.pubkey hrow, congrArg EventRow.kind hrow,
      congrArg EventRow.createdAt hrow, congrArg EventRow.dTag hrow, congrArg EventRow.sTag hrow,
      congrArg EventRow.shard hrow, congrArg EventRow.profile hrow, htime⟩
  refine bind_eq_ok.2 ⟨event.event, mapError_eq_ok.2 hgenuine.parsed, bind_eq_ok.2 ⟨event, hevent,
    bind_eq_ok.2 ⟨(), hagain, bind_eq_ok.2 ⟨(), require_of hcolumns _, ?_⟩⟩⟩⟩
  obtain ⟨-, hpubkey, hkind, hcreated, hd, -, hshard, hprofile, -⟩ := hcolumns
  rw [EventRow.winner, EventRow.coordinate, hpubkey, hkind, hcreated, hd, hshard, hprofile]
  rfl

theorem EventRow.Archived.observed (h : row.Archived lib config) {winner : WinnerRecord}
    (hwinner : validateArchiveRow lib config row = .ok winner) :
    ObservedByCreation lib config row.eventJson := by
  intro event hevent
  obtain ⟨event', hevent', hrow, -, hcurrent⟩ := h
  have hsame : event' = event := Except.ok.inj (hevent'.symm.trans hevent)
  subst hsame
  have hgenuine := validateEventJson_eq_ok hevent
  simp only [validateArchiveRow, bind_eq_ok] at hwinner
  obtain ⟨parsed, hparsed, validated, hvalidated, _, hagain, _⟩ := hwinner
  have hp : parsed = event'.event :=
    Except.ok.inj ((mapError_eq_ok.1 hparsed).symm.trans hgenuine.parsed)
  have hv : validated = event' := Except.ok.inj (hvalidated.symm.trans hevent)
  rw [hp, hv] at hagain
  exact (validateCurrentEventProfile_at_creation hgenuine hcurrent).1 hagain

/-! ## The map of winners -/

/-- Among the winners, the order and the coordinates are those of the rows. -/
abbrev Winners (rows : List EventRow) (winners : List WinnerRecord) : Prop :=
  Champions WinnerRecord.coordinate WinnerRecord.Beats (rows.map EventRow.winner) winners

theorem recordWinner_ok {all : List EventRow} {winners : List WinnerRecord}
    (h : Winners rows winners) (hid : row.eventId ∉ rows.map EventRow.eventId)
    (hall : Winners all table) (hbound : table.length ≤ maxCoordinates) (hsub : rows ++ [row] ⊆ all) :
    ∃ winners', recordWinner winners row.winner = .ok winners' ∧ Winners (rows ++ [row]) winners' := by
  have hupsert (hwins : ∀ a ∈ winners, a.coordinate = row.coordinate → row.winner.Beats a) :
      Winners (rows ++ [row]) (upsert WinnerRecord.coordinate winners row.winner) := by
    rw [Winners, List.map_append]
    exact h.upsert (fun _ _ _ => WinnerRecord.Beats.trans) hwins
  unfold recordWinner
  cases hfind : winners.find? fun current => current.coordinate = row.winner.coordinate with
  | some current =>
    have hmem := List.mem_of_find?_eq_some hfind
    have hkey : current.coordinate = row.winner.coordinate := by
      simpa using List.find?_some hfind
    by_cases hbeats : row.winner.Beats current
    · refine ⟨_, if_pos hbeats, hupsert fun a ha hak => ?_⟩
      rwa [h.eq_of_key ha hmem (hak.trans hkey.symm)]
    · refine ⟨_, if_neg hbeats, ?_⟩
      have hne : current.eventId ≠ row.winner.eventId := by
        intro heq
        obtain ⟨old, hold, holdw⟩ := List.mem_map.1 (h.champion current hmem).mem
        exact hid (List.mem_map.2 ⟨old, hold, by rw [← holdw] at heq; exact heq⟩)
      rw [Winners, List.map_append]
      exact h.keep hmem hkey ((WinnerRecord.Beats.total hne).resolve_right hbeats)
  | none =>
    have hnone := find?_key_eq_none.1 hfind
    have hnew := hupsert fun a ha hak => absurd ⟨a, ha, hak⟩ hnone
    have hlength := (hnew.length_le hall (List.map_subset _ hsub)).trans hbound
    rw [upsert_of_not_mem hnone, List.length_append] at hlength
    exact ⟨_, bind_eq_ok.2 ⟨(), require_of hlength _, rfl⟩, hnew⟩

/-! ## The rows of the archive -/

/-- The state of the scan after some rows. -/
structure ArchiveScan.Of (rows : List EventRow) (scan : ArchiveScan) : Prop where
  winners : Winners rows scan.winners
  count : scan.archiveCount = rows.length
  bytes : scan.archiveBytes = (rows.map fun row => row.eventJson.length).sum

variable (lib config) in
/-- What makes the scan of an archive succeed. -/
structure Scannable (rows : List EventRow) (table : List WinnerRecord) : Prop where
  archived : ∀ row ∈ rows, row.Archived lib config
  observed : ∀ row ∈ rows, ObservedByCreation lib config row.eventJson
  ids_nodup : (rows.map EventRow.eventId).Nodup
  count_le : rows.length ≤ config.maxArchiveEvents
  bytes_le : (rows.map fun row => row.eventJson.length).sum ≤ config.maxArchiveBytes
  winners : Winners rows table
  winners_le : table.length ≤ maxCoordinates

theorem scanRow_ok {later : List EventRow} {scan : ArchiveScan}
    (h : Scannable lib config (rows ++ row :: later) table) (hscan : scan.Of rows) :
    ∃ scan', scanRow lib config scan row = .ok scan' ∧ scan'.Of (rows ++ [row]) := by
  have hmem : row ∈ rows ++ row :: later := by simp
  have hid : row.eventId ∉ rows.map EventRow.eventId := by
    have hnodup := h.ids_nodup
    rw [List.map_append, List.nodup_append] at hnodup
    exact fun hin => hnodup.2.2 _ hin _ List.mem_cons_self rfl
  have hcount := h.count_le
  have hbytes := h.bytes_le
  simp only [List.length_append, List.length_cons, List.map_append, List.map_cons, List.sum_append,
    List.sum_cons] at hcount hbytes
  obtain ⟨winners', hwinners', hnew⟩ := recordWinner_ok hscan.winners hid h.winners h.winners_le (by simp)
  have hcountStep : scan.archiveCount + 1 ≤ config.maxArchiveEvents := by
    rw [hscan.count]
    omega
  have hbytesStep : scan.archiveBytes + row.eventJson.length ≤ config.maxArchiveBytes := by
    rw [hscan.bytes]
    omega
  refine ⟨_, bind_eq_ok.2 ⟨(), require_of hcountStep _, bind_eq_ok.2 ⟨(), require_of hbytesStep _,
    bind_eq_ok.2 ⟨row.winner, (h.archived row hmem).validateArchiveRow_eq (h.observed row hmem),
      bind_eq_ok.2 ⟨winners', hwinners', rfl⟩⟩⟩⟩, hnew, ?_, ?_⟩
  · simp [hscan.count]
  · simp [hscan.bytes]

theorem scanRows_ok {later : List EventRow} {scan : ArchiveScan} (hscan : scan.Of rows)
    (h : Scannable lib config (rows ++ later) table) :
    ∃ scan', later.foldlM (scanRow lib config) scan = .ok scan' ∧ scan'.Of (rows ++ later) := by
  -- Induction on the rows to come: each of them moves to the rows done.
  induction later generalizing rows scan with
  | nil => exact ⟨scan, rfl, by rwa [List.append_nil]⟩
  | cons row later ih =>
    obtain ⟨next, hnext, hof⟩ := scanRow_ok h hscan
    rw [List.append_cons] at h ⊢
    obtain ⟨last, hlast, hall⟩ := ih hof h
    exact ⟨last, by rw [List.foldlM_cons, hnext, ok_bind, hlast], hall⟩

/-- A scan that succeeds has checked every row. -/
theorem exists_validated_of_scan {scan scan' : ArchiveScan}
    (h : rows.foldlM (scanRow lib config) scan = .ok scan') :
    ∀ row ∈ rows, ∃ winner, validateArchiveRow lib config row = .ok winner := by
  induction rows generalizing scan with
  | nil => simp
  | cons row rows ih =>
    obtain ⟨next, hnext, h⟩ := bind_eq_ok.1 h
    intro row' hrow'
    rcases List.mem_cons.1 hrow' with rfl | hrow'
    · simp only [scanRow, bind_eq_ok] at hnext
      obtain ⟨_, _, _, _, winner, hwinner, _⟩ := hnext
      exact ⟨winner, hwinner⟩
    · exact ih h row' hrow'

/-! ## The heads -/

/-- Each head takes its winner out of the map. -/
theorem scanHeads_eq_ok {winners : List WinnerRecord} (scan : HeadScan)
    (hsub : winners ⊆ scan.winners) (hmap : (scan.winners.map WinnerRecord.coordinate).Nodup)
    (hnodup : (winners.map WinnerRecord.coordinate).Nodup)
    (hbound : scan.headCount + winners.length ≤ maxCoordinates) :
    (winners.map WinnerRecord.head).foldlM scanHead scan = .ok
      { winners := scan.winners.filter fun w => w.coordinate ∉ winners.map WinnerRecord.coordinate,
        headCount := scan.headCount + winners.length,
        counts := fun group => scan.counts group + winners.countP fun w => w.group = group } := by
  -- Induction on the heads: the winners of the later ones are still in the map.
  induction winners generalizing scan with
  | nil => simp [pure, Except.pure]
  | cons winner winners ih =>
    rw [List.map_cons, List.nodup_cons] at hnodup
    rw [List.length_cons] at hbound
    have hfind : (scan.winners.find? fun w => w.coordinate = winner.coordinate) = some winner :=
      find?_key_eq_some hmap (hsub List.mem_cons_self)
    have hstep : scanHead scan winner.head = .ok
        { winners := scan.winners.filter fun w => w.coordinate ≠ winner.coordinate,
          headCount := scan.headCount + 1,
          counts := fun group => scan.counts group + if winner.group = group then 1 else 0 } := by
      have hroom : scan.headCount + 1 ≤ maxCoordinates := by omega
      exact bind_eq_ok.2 ⟨(), require_of hroom _, bind_eq_ok.2 ⟨winner, okOr_eq_ok.2 hfind,
        bind_eq_ok.2 ⟨(), require_of rfl _, rfl⟩⟩⟩
    have hrest : winners ⊆ scan.winners.filter fun w => w.coordinate ≠ winner.coordinate := by
      intro w hw
      rw [List.mem_filter, decide_eq_true_iff]
      refine ⟨hsub (List.mem_cons_of_mem _ hw), fun heq => hnodup.1 ?_⟩
      exact List.mem_map.2 ⟨w, hw, heq⟩
    rw [List.map_cons, List.foldlM_cons, hstep, ok_bind, ih _ hrest
      (hmap.sublist (List.filter_sublist.map _)) hnodup.2 (by simp only; omega)]
    simp only [List.filter_filter, List.map_cons, List.mem_cons, not_or, List.length_cons,
      List.countP_cons, decide_eq_true_eq]
    congr 2
    · simp [Bool.and_comm]
    · omega
    · funext group
      omega

/-! ## The whole database -/

theorem mem_shards_of_lt {shard : UInt8} (h : shard.toNat < directoryShardCount) : shard ∈ shards :=
  List.mem_map.2 ⟨shard.toNat, List.mem_range.2 h, UInt8.ofNat_toNat⟩

def shardGroups (shard : UInt8) : List (UInt8 × EventProfile) :=
  [(shard, .entry), (shard, .checkpoint)]

theorem mem_shardGroups (shard : UInt8) (profile : EventProfile) :
    (shard, profile) ∈ shardGroups shard := by
  cases profile <;> simp [shardGroups]

namespace Db.Sound

variable {db : Db} {table : List EventRow}

theorem events_perm (db : Db) : (db.events.mergeSort eventIdOrder).Perm db.events :=
  List.mergeSort_perm _ _

variable (h : db.Sound lib config table)

include h

theorem length_le : table.length ≤ maxCoordinates := by
  have hle := length_le_sum_of_countP_le EventRow.group (fun group => capacity group.2)
    (shards.flatMap shardGroups) table (fun row hrow => ?_) fun group _ => h.groups_le group
  · exact hle
  · exact List.mem_flatMap.2 ⟨row.shard, mem_shards_of_lt (h.archived row (h.mem_events hrow)).shard_lt,
      mem_shardGroups row.shard row.profile⟩

/-- The winners of the archive, in any order of its rows, are the head rows. -/
theorem winners {rows : List EventRow} (hperm : rows.Perm db.events) :
    Winners rows (table.map EventRow.winner) :=
  (h.champions.map EventRow.winner (fun _ => rfl) fun _ _ hbeats => hbeats).congr
    fun _ => (hperm.map _).mem_iff.symm

theorem scannable
    (hobserved : ∀ row ∈ db.events, ObservedByCreation lib config row.eventJson) :
    Scannable lib config (db.events.mergeSort eventIdOrder) (table.map EventRow.winner) := by
  have hperm := events_perm db
  refine ⟨fun row hrow => h.archived row (hperm.mem_iff.1 hrow),
    fun row hrow => hobserved row (hperm.mem_iff.1 hrow), (hperm.map _).nodup_iff.2 h.ids_nodup,
    ?_, ?_, h.winners hperm, ?_⟩
  · rw [hperm.length_eq, ← h.count_eq]
    exact h.count_le
  · rw [(hperm.map _).sum_eq, ← h.bytes_eq]
    exact h.bytes_le
  · rw [List.length_map]
    exact h.length_le

/-- The winners that the scan finds are the head rows. -/
theorem winners_perm {scan : ArchiveScan} (hscan : scan.Of (db.events.mergeSort eventIdOrder)) :
    scan.winners.Perm (table.map EventRow.winner) :=
  hscan.winners.perm (fun _ _ => WinnerRecord.Beats.asymm) (h.winners (events_perm db))
    fun _ => Iff.rfl

/-- The database opens iff the health of every archived entry was observed by its creation. -/
theorem fullStartupValidation_eq_ok_iff : fullStartupValidation lib config db = .ok () ↔
    ∀ row ∈ db.events, ObservedByCreation lib config row.eventJson := by
  have hsorted := events_perm db
  constructor
  · intro hok row hrow
    simp only [fullStartupValidation, bind_eq_ok] at hok
    obtain ⟨_, _, _, _, archive, harchive, _⟩ := hok
    obtain ⟨winner, hwinner⟩ := exists_validated_of_scan harchive row (hsorted.mem_iff.2 hrow)
    exact (h.archived row hrow).observed hwinner
  · intro hobserved
    have hforeign : ∀ head ∈ db.heads, ∃ row ∈ db.events, row.eventId = head.eventId := by
      intro head hhead
      rw [h.heads_eq] at hhead
      obtain ⟨row, hrow, rfl⟩ := List.mem_map.1 hhead
      exact ⟨row, h.mem_events hrow, rfl⟩
    have hstart : ArchiveScan.Of [] ⟨[], 0, 0⟩ := ⟨Champions.nil, rfl, rfl⟩
    obtain ⟨archive, harchive, hof⟩ := scanRows_ok hstart (h.scannable hobserved)
    have hcounters : db.archiveEventCount = archive.archiveCount ∧
        db.archiveBytes = archive.archiveBytes := by
      rw [hof.count, hof.bytes, h.count_eq, h.bytes_eq]
      exact ⟨hsorted.length_eq.symm, (hsorted.map _).sum_eq.symm⟩
    have hwinners := h.winners_perm hof
    -- The heads in order are the heads of the winners in some order.
    obtain ⟨winners, hperm, hheads⟩ : ∃ winners : List WinnerRecord,
        winners.Perm (table.map EventRow.winner) ∧
          db.heads.mergeSort headOrder = winners.map WinnerRecord.head := by
      refine exists_perm_map ((List.mergeSort_perm _ _).trans ?_)
      rw [h.heads_eq, List.map_map]
      exact List.Perm.refl _
    have hsame : winners.Perm archive.winners := hperm.trans hwinners.symm
    have hnodup := hof.winners.nodup
    have hscan := scanHeads_eq_ok ⟨archive.winners, 0, fun _ => 0⟩ hsame.subset hnodup
      ((hsame.map _).nodup_iff.2 hnodup) (by
        rw [Nat.zero_add, hperm.length_eq, List.length_map]
        exact h.length_le)
    have hempty : (archive.winners.filter fun w =>
        w.coordinate ∉ winners.map WinnerRecord.coordinate) = [] := by
      refine List.filter_eq_nil_iff.2 fun w hw => ?_
      rw [decide_eq_true_iff, not_not]
      exact List.mem_map_of_mem (hsame.mem_iff.2 hw)
    have hcounts : ∀ group, (winners.countP fun w => w.group = group) ≤ capacity group.2 := by
      intro group
      rw [hperm.countP_eq, List.countP_map]
      exact h.groups_le group
    rw [← hheads] at hscan
    refine bind_eq_ok.2 ⟨(), require_of hforeign _, bind_eq_ok.2 ⟨(), require_of h.metadata _,
      bind_eq_ok.2 ⟨archive, harchive, bind_eq_ok.2 ⟨(), require_of hcounters _,
        bind_eq_ok.2 ⟨_, hscan, bind_eq_ok.2 ⟨(), require_of hempty _, require_of ?_ _⟩⟩⟩⟩⟩⟩
    intro shard _
    simp only [Nat.zero_add]
    exact ⟨hcounts (shard, .entry), hcounts (shard, .checkpoint)⟩

/-! ## The catalog -/

theorem shard_rows_length_le (shard : UInt8) :
    (table.filter fun row => row.shard = shard).length ≤ maxCatalogEventsPerShard := by
  refine length_le_sum_of_countP_le EventRow.group (fun group => capacity group.2)
    (shardGroups shard) _ (fun row hrow => ?_) fun group _ => ?_
  · rw [List.mem_filter, decide_eq_true_iff] at hrow
    rw [← hrow.2]
    exact mem_shardGroups row.shard row.profile
  · exact List.filter_sublist.countP_le.trans (h.groups_le group)

theorem rows_bytes_lt {rows : List EventRow} (hsub : rows.Sublist table) :
    (rows.map fun row => row.eventJson.length).sum < 2 ^ 64 := by
  have hnodup : rows.Nodup := h.champions.nodup.of_map.sublist hsub
  obtain ⟨rows', hperm, hsublist⟩ := List.subperm_of_subset hnodup fun row hrow =>
    h.mem_events (hsub.subset hrow)
  calc
    (rows.map fun row => row.eventJson.length).sum
      = (rows'.map fun row => row.eventJson.length).sum := (hperm.symm.map _).sum_eq
    _ ≤ (db.events.map fun row => row.eventJson.length).sum := (hsublist.map _).sum_le_sum (by simp)
    _ ≤ config.maxArchiveBytes := h.bytes_eq ▸ h.bytes_le
    _ ≤ i64Max := config.bytes_range.2
    _ < 2 ^ 64 := by decide

/-- The catalog of a shard lists the heads of the shard, each once. -/
theorem catalogSnapshotIds_ok {shard : UInt8} (hshard : shard.toNat < directoryShardCount) :
    ∃ plan, catalogSnapshotIds config db shard = .ok plan ∧ plan.eventIds.Nodup ∧
      ∀ id, id ∈ plan.eventIds ↔
        ∃ head ∈ db.heads, ∃ row ∈ db.events, head.eventId = id ∧ row.eventId = id ∧
          row.shard = shard := by
  have hfilter : (db.headRows.filter fun row =>
      row.pubkey = config.pinned ∧ row.kind = bitcoinpirDirectoryKind ∧ row.shard = shard) =
      table.filter fun row => row.shard = shard := by
    rw [h.headRows_eq]
    refine List.filter_congr fun row hrow => ?_
    obtain ⟨hpubkey, hkind⟩ := (h.archived row (h.mem_events hrow)).pubkey_kind
    simp [hpubkey, hkind]
  have hperm := List.mergeSort_perm (table.filter fun row => row.shard = shard) catalogOrder
  have hbytes := h.rows_bytes_lt (List.filter_sublist (p := fun row => row.shard = shard))
  rw [← (hperm.map _).sum_eq] at hbytes
  have hlength := h.shard_rows_length_le shard
  rw [← hperm.length_eq] at hlength
  have hplan : catalogSnapshotIds config db shard = .ok
      { eventIds := ((table.filter fun row => row.shard = shard).mergeSort catalogOrder).map
          EventRow.eventId,
        eventJsonBytes := (((table.filter fun row => row.shard = shard).mergeSort catalogOrder).map
          fun row => row.eventJson.length).sum } := by
    unfold catalogSnapshotIds
    rw [hfilter]
    exact bind_eq_ok.2 ⟨(), require_of hshard _, bind_eq_ok.2 ⟨(), require_of hbytes _,
      bind_eq_ok.2 ⟨(), require_of hlength _, rfl⟩⟩⟩
  refine ⟨_, hplan, ?_, fun id => ?_⟩
  · refine (hperm.map _).nodup_iff.2 (List.Nodup.map_on (fun a ha b hb heq => ?_)
      (h.champions.nodup.of_map.filter _))
    exact h.eq_of_eventId (h.mem_events (List.mem_of_mem_filter ha))
      (h.mem_events (List.mem_of_mem_filter hb)) heq
  · rw [(hperm.map _).mem_iff, List.mem_map]
    constructor
    · rintro ⟨row, hrow, rfl⟩
      rw [List.mem_filter, decide_eq_true_iff] at hrow
      refine ⟨row.head, ?_, row, h.mem_events hrow.1, rfl, rfl, hrow.2⟩
      rw [h.heads_eq]
      exact List.mem_map_of_mem hrow.1
    · rintro ⟨head, hhead, row, hrow, hheadId, hid, hrowShard⟩
      rw [h.heads_eq] at hhead
      obtain ⟨row', hrow', rfl⟩ := List.mem_map.1 hhead
      have hsame : row = row' := h.eq_of_eventId hrow (h.mem_events hrow') (hid.trans hheadId.symm)
      subst hsame
      exact ⟨row, List.mem_filter.2 ⟨hrow', decide_eq_true hrowShard⟩, hid⟩

end Db.Sound

/-! ## Every run -/

variable (lib config)

/-- The event of a row replaces the event of another. -/
def EventRow.Replaces (row other : EventRow) : Prop :=
  ∃ event event', NostrEvent.parseJson lib.toLibrary row.eventJson = .ok event ∧
    NostrEvent.parseJson lib.toLibrary other.eventJson = .ok event' ∧
    event.nip01AddressableReplacementOrder event' = .ok .gt

/-- The heads are the winners, the counters are the totals, and the catalogs list the heads. -/
structure Db.Serves (db : Db) : Prop where
  one_head : (db.heads.map HeadRow.coordinate).Nodup
  has_head : ∀ row ∈ db.events, ∃ head ∈ db.heads, head.coordinate = row.coordinate
  head_wins : ∀ head ∈ db.heads, ∃ row ∈ db.events, row.eventId = head.eventId ∧
    row.coordinate = head.coordinate ∧
    ∀ other ∈ db.events, other.coordinate = head.coordinate → other = row ∨ row.Replaces lib other
  event_count : db.archiveEventCount = db.events.length
  bytes : db.archiveBytes = (db.events.map fun row => row.eventJson.length).sum
  catalog : ∀ shard : UInt8, shard.toNat < directoryShardCount →
    ∃ plan, catalogSnapshotIds config db shard = .ok plan ∧ plan.eventIds.Nodup ∧
      ∀ id, id ∈ plan.eventIds ↔
        ∃ head ∈ db.heads, ∃ row ∈ db.events, head.eventId = id ∧ row.eventId = id ∧
          row.shard = shard

variable {lib config}

theorem EventRow.Archived.replaces {a b : EventRow} (ha : a.Archived lib config)
    (hb : b.Archived lib config) (hkey : a.coordinate = b.coordinate) (h : a.Beats b) :
    a.Replaces lib b := by
  obtain ⟨v, hv, hva⟩ := ha.genuine
  obtain ⟨w, hw, hwb⟩ := hb.genuine
  refine ⟨v.event, w.event, hv.parsed, hw.parsed, ?_⟩
  rw [hva, hwb] at hkey h
  exact (hv.order_eq_gt_iff hw (congrArg (fun key => key.2.2) hkey) _ _).2 h

theorem Db.Sound.serves {db : Db} {table : List EventRow} (h : db.Sound lib config table) :
    db.Serves lib config where
  one_head := by
    rw [h.heads_eq, List.map_map]
    exact h.champions.nodup
  has_head row hrow := by
    obtain ⟨best, hbest, hkey⟩ := h.champions.covers row hrow
    rw [h.heads_eq]
    exact ⟨best.head, List.mem_map_of_mem hbest, hkey⟩
  head_wins head hhead := by
    rw [h.heads_eq] at hhead
    obtain ⟨row, hrow, rfl⟩ := List.mem_map.1 hhead
    have hmem := h.mem_events hrow
    refine ⟨row, hmem, rfl, rfl, fun other hother hkey => ?_⟩
    rcases (h.champions.champion row hrow).beats_rest other hother hkey with heq | hbeats
    · exact Or.inl heq
    · exact Or.inr ((h.archived row hmem).replaces (h.archived other hother) hkey.symm hbeats)
  event_count := h.count_eq
  bytes := h.bytes_eq
  catalog _ hshard := h.catalogSnapshotIds_ok hshard

theorem exists_sound_ingestCall (db : Db) (call : IngestCall)
    (h : ∃ table, Db.Sound lib config db table) :
    ∃ table, Db.Sound lib config (ingestCall lib config db call) table := by
  obtain ⟨table, h⟩ := h
  exact (ingestCall_sound h call).1

/-- The archived events are among those that were sent. -/
theorem observed_ingestCall (db : Db) (call : IngestCall)
    (h : (∃ table, Db.Sound lib config db table) ∧
      ∀ row ∈ db.events, ObservedByCreation lib config row.eventJson)
    (hcall : ObservedByCreation lib config call.eventJson) :
    (∃ table, Db.Sound lib config (ingestCall lib config db call) table) ∧
      ∀ row ∈ (ingestCall lib config db call).events,
        ObservedByCreation lib config row.eventJson := by
  obtain ⟨⟨table, hsound⟩, hrows⟩ := h
  obtain ⟨hsound', hnew⟩ := ingestCall_sound hsound call
  refine ⟨hsound', fun row hrow => ?_⟩
  rcases hnew row hrow with hold | heq
  · exact hrows row hold
  · rwa [heq]

theorem exists_sound_initial : ∃ table, Db.Sound lib config (Db.initial config) table :=
  ⟨[], .initial⟩

/-- The database of every run is sound. -/
theorem runFrom_sound (lib : RelayLibrary) (config : StoreConfig) (calls : List IngestCall) :
    ∃ table, Db.Sound lib config (runFrom (ingestCall lib config) (Db.initial config) calls) table :=
  runFrom_invariant exists_sound_ingestCall calls exists_sound_initial

/-- The heads, the counters and the catalogs are right after every run of calls. The database opens
after every run of calls with entries whose health was observed by the time they were created. -/
theorem ingestCalls_serve_and_reopen (lib : RelayLibrary) (config : StoreConfig)
    (calls : List IngestCall) :
    (runFrom (ingestCall lib config) (Db.initial config) calls).Serves lib config ∧
      (EachStep (ingestCall lib config)
        (fun _ call => ObservedByCreation lib config call.eventJson) (Db.initial config) calls →
        fullStartupValidation lib config
          (runFrom (ingestCall lib config) (Db.initial config) calls) = .ok ()) := by
  constructor
  · obtain ⟨table, h⟩ := runFrom_sound lib config calls
    exact h.serves
  · intro hcalls
    obtain ⟨⟨table, h⟩, hobserved⟩ := hcalls.invariant observed_ingestCall
      ⟨exists_sound_initial, fun row hrow => absurd hrow List.not_mem_nil⟩
    exact h.fullStartupValidation_eq_ok_iff.2 hobserved

/-! ## A provider that was taken down -/

/-- The directory key of the example, and the id of its event and of its provider. -/
def relayKey : Hash256 := ⟨List.replicate 32 1, rfl⟩

def relayConfig : StoreConfig where
  pinned := relayKey
  maxArchiveEvents := 1000
  maxArchiveBytes := 1000
  pinned_nonzero := by decide
  events_range := by decide
  bytes_range := by decide

/-- A publisher whose only event says that the provider is down, with health observed at 600. -/
def tombstoneLibrary (createdAt : UInt64) : RelayLibrary where
  relayMessage _ := none
  eventFromJson _ := some
    { id := lowerHex relayKey.val, pubkey := lowerHex relayKey.val, createdAt, kind := 30078,
      tags := [["d", entryDTagValue relayKey], ["s", shardTagValue 0]], content := "entry",
      sig := lowerHex (relayKey.val ++ relayKey.val) }
  idPreimage _ _ _ _ _ := []
  checkpointFromJson _ := none
  checkpointToJson _ := []
  entryFromJson _ := some
    { v := 1, providerId := lowerHex relayKey.val, directorySequence := 1,
      directoryValidUntil := 1000, status := "tombstone", operatorAssertion := none,
      catalogHints := [], health := { cls := "unavailable", observedBucket := 600 } }
  entryToJson _ := toUtf8 "entry"
  sha256 _ := relayKey
  bip340Verify _ _ _ := true
  ed25519VerifyStrict _ _ _ := true
  eventToJson _ := toUtf8 "event"

/-- The event arrives at 700. -/
def tombstoneCall : IngestCall :=
  { eventJson := toUtf8 "event", receivedAt := 700, commit := .ok () }

def tombstoneStore (createdAt : UInt64) : Db :=
  runFrom (ingestCall (tombstoneLibrary createdAt) relayConfig) (Db.initial relayConfig)
    [tombstoneCall]

theorem createdAt_of_parseJson {createdAt : UInt64} {eventJson : Bytes} {event : NostrEvent}
    (h : NostrEvent.parseJson (tombstoneLibrary createdAt).toLibrary eventJson = .ok event) :
    event.createdAt = createdAt := by
  simp only [NostrEvent.parseJson, bind_eq_ok, return_eq_ok] at h
  obtain ⟨_, _, wire, hwire, _, _, _, _, _, _, _, _, rfl⟩ := h
  cases hwire
  rfl

theorem observedByCreation_tombstone (eventJson : Bytes) :
    ObservedByCreation (tombstoneLibrary 600) relayConfig eventJson := by
  intro event hevent _ bucket hbucket
  rw [createdAt_of_parseJson (validateEventJson_eq_ok hevent).parsed]
  cases hbucket
  exact UInt64.le_refl _

/-- The tombstone was created when the health was observed. -/
theorem tombstone_reopened :
    (tombstoneStore 600).Serves (tombstoneLibrary 600) relayConfig ∧
      fullStartupValidation (tombstoneLibrary 600) relayConfig (tombstoneStore 600) = .ok () := by
  obtain ⟨hserves, hopens⟩ :=
    ingestCalls_serve_and_reopen (tombstoneLibrary 600) relayConfig [tombstoneCall]
  refine ⟨hserves, hopens ?_⟩
  exact eachStep_cons.2 ⟨observedByCreation_tombstone _, eachStep_nil _⟩

/-- The tombstone was created at 500 and arrives at 700, with health observed at 600: it is archived,
and the relay does not open its archive any more. -/
theorem tombstone_not_reopened :
    (tombstoneStore 500).events.map EventRow.createdAt = [500] ∧
      fullStartupValidation (tombstoneLibrary 500) relayConfig (tombstoneStore 500) =
        .error "EVENT is not one current BitcoinPIR directory profile event" := by
  decide +kernel

end BitcoinPir.Directory
