import BitcoinPir.Tables.Builder
import BitcoinPir.Foundations.Lists

/-!
# Lookups are exact

What the builder put into a group is what a client finds there.

* **`lookupIndex_exact`**: a record is found in each of its three groups, and a script hash whose
  tag no record has is found in none.
* **`lookupChunk_exact`**: a chunk is found in each of its three groups. Chunk 0 is the delicate
  case: an empty slot reads as chunk 0 with zero bytes. It is right because chunk 0 is inserted
  first: its first bin holds it or is full, and in a bin that holds it no empty slot comes
  before it.

Both rest on `probe_of_built`, which speaks of any table, slot format and reader.
-/

namespace BitcoinPir.Tables

open Foundations

/-! ## Bins of a written table -/

section Bins

variable {ι β : Type} {w : ℕ} {write : Option ι → Bytes}

/-- The slots of bin `b`. -/
def binSlots (slotsPerBin : ℕ) (table : List (Option ι)) (b : ℕ) : List (Option ι) :=
  (table.drop (b * slotsPerBin)).take slotsPerBin

theorem getElem?_binSlots {slotsPerBin b s : ℕ} (hs : s < slotsPerBin) (table : List (Option ι)) :
    (binSlots slotsPerBin table b)[s]? = table[b * slotsPerBin + s]? := by
  rw [binSlots, List.getElem?_take_of_lt hs, List.getElem?_drop]

theorem binOfGroup_flatMap (params : TableParams) {table : List (Option ι)}
    (hw : ∀ s, (write s).length = params.slotSize) (b : ℕ) :
    binOfGroup params (table.flatMap write) b =
      (binSlots params.slotsPerBin table b).flatMap write := by
  rw [binOfGroup, TableParams.binSize, ← Nat.mul_assoc, drop_flatMap_const fun a _ => hw a,
    take_flatMap_const fun a _ => hw a, binSlots]

/-- Scanning written slots reads them in order. -/
theorem scanSlots_flatMap (read : Bytes → Option β) {slots : List (Option ι)} {n : ℕ}
    (hn : slots.length ≤ n) (hpos : 0 < w) (hw : ∀ s, (write s).length = w) :
    scanSlots w n read (slots.flatMap write) = slots.findSome? fun s => read (write s) := by
  have hlen := length_flatMap_const (l := slots) (f := write) fun a _ => hw a
  have hfits : ∀ slot : ℕ, slot * w + w ≤ (slots.flatMap write).length ↔ slot < slots.length := by
    intro slot
    rw [hlen, show slot * w + w = (slot + 1) * w by ring, Nat.mul_le_mul_right_iff hpos]
    rfl
  have hall : (List.range n).takeWhile
      (fun slot => decide (slot * w + w ≤ (slots.flatMap write).length)) =
        List.range slots.length := by
    obtain ⟨d, rfl⟩ := Nat.exists_eq_add_of_le hn
    rw [List.range_add, List.takeWhile_append_of_pos fun slot hslot =>
      decide_eq_true ((hfits slot).2 (List.mem_range.1 hslot))]
    cases d with
    | zero => simp
    | succ d =>
      rw [List.range_succ_eq_map, List.map_cons, List.takeWhile_cons_of_neg, List.append_nil]
      rw [decide_eq_true_eq, hfits]
      omega
  have hslots : slots = (List.range slots.length).map fun s => slots.getD s none :=
    List.ext_getElem (by simp) fun s hs _ => by simp [hs]
  rw [scanSlots, hall]
  conv_rhs => rw [hslots, List.findSome?_map]
  refine findSome?_congr fun s hs => ?_
  rw [List.mem_range] at hs
  rw [record_flatMap (fun a _ => hw a) hs]
  simp [hs]

end Bins

/-! ## Searching built tables -/

section Search

variable {ι β : Type} {slotsPerBin numHashFns numBins : ℕ} {hashFns : ι → ℕ → ℕ}
  {inserted : List ι} {table : List (Option ι)} {f : Option ι → Option β} {v : β}

theorem mem_items_of_binSlots {b : ℕ} {x : ι} (h : some x ∈ binSlots slotsPerBin table b) :
    x ∈ Slots.items table := by
  have hmem := List.mem_of_mem_drop (List.mem_of_mem_take h)
  exact Slots.mem_items.2 (List.mem_iff_getElem?.1 hmem)

/-- A bin that holds the item yields its value: the slots before it are occupied, by items that
yield nothing else. -/
theorem findSome?_binSlots_of_slot (hfront : FrontFilled slotsPerBin table) {a : ι} {b s : ℕ}
    (hs : s < slotsPerBin) (hslot : table[b * slotsPerBin + s]? = some (some a))
    (ha : f (some a) = some v)
    (hothers : ∀ x ∈ Slots.items table, f (some x) = none ∨ f (some x) = some v) :
    (binSlots slotsPerBin table b).findSome? f = some v := by
  refine findSome?_eq_some_of_getElem? (s := s) ((getElem?_binSlots hs table).trans hslot) ha ?_
  intro r hr c hc
  obtain ⟨x, hx⟩ := hfront b r s hr hs ⟨a, hslot⟩
  rw [getElem?_binSlots (by omega), hx] at hc
  cases hc
  exact hothers x (Slots.mem_items.2 ⟨_, hx⟩)

/-- A bin yields nothing but the value if its empty slots, should it have any, yield nothing. -/
theorem findSome?_binSlots_none_or {b : ℕ} (hempty : f none = none ∨ BinFull slotsPerBin table b)
    (hothers : ∀ x ∈ Slots.items table, f (some x) = none ∨ f (some x) = some v) :
    (binSlots slotsPerBin table b).findSome? f = none ∨
      (binSlots slotsPerBin table b).findSome? f = some v := by
  refine findSome?_eq_none_or fun c hc => ?_
  cases c with
  | some x => exact hothers x (mem_items_of_binSlots hc)
  | none =>
    rcases hempty with hnone | hfull
    · exact .inl hnone
    · obtain ⟨s, hs⟩ := List.mem_iff_getElem?.1 hc
      have hlt : s < slotsPerBin := by
        have := (List.getElem?_eq_some_iff.1 hs).1
        rw [binSlots, List.length_take] at this
        omega
      obtain ⟨x, hx⟩ := hfull s hlt
      rw [getElem?_binSlots hlt, hx] at hs
      cases hs

/-- **An inserted item is found** by searching its bins in order. If empty slots could be mistaken
for the item, it has to be the item inserted first, with at most two bins. -/
theorem probe_of_built (hb : Built slotsPerBin numHashFns numBins hashFns inserted table)
    (hslots : 0 < slotsPerBin) {a : ι} (hmem : a ∈ inserted) (ha : f (some a) = some v)
    (hothers : ∀ x ∈ inserted, f (some x) = none ∨ f (some x) = some v)
    (hempty : f none = none ∨ inserted.head? = some a ∧ numHashFns ≤ 2) :
    (List.range numHashFns).findSome?
      (fun hf => (binSlots slotsPerBin table (hashFns a hf)).findSome? f) = some v := by
  have hothers' : ∀ x ∈ Slots.items table, f (some x) = none ∨ f (some x) = some v :=
    fun x hx => hothers x (hb.items.mem_iff.1 hx)
  obtain ⟨p, hp⟩ := Slots.mem_items.1 (hb.items.mem_iff.2 hmem)
  obtain ⟨hf, hhf, hbin⟩ := hb.inOwnBins p a hp
  have hslot : table[hashFns a hf * slotsPerBin + p % slotsPerBin]? = some (some a) := by
    rw [hbin, Nat.div_add_mod', hp]
  refine findSome?_eq_some_of_getElem? (s := hf) (List.getElem?_range hhf)
    (findSome?_binSlots_of_slot hb.frontFilled (Nat.mod_lt _ hslots) hslot ha hothers') ?_
  intro r hr c hc
  obtain rfl : r = c := by
    rw [List.getElem?_range (by omega)] at hc
    exact Option.some_inj.1 hc
  rcases hempty with hnone | ⟨hhead, htwo⟩
  · exact findSome?_binSlots_none_or (.inl hnone) hothers'
  · -- Only the first bin is searched before: it holds the item, or it has no empty slot.
    obtain rfl : r = 0 := by omega
    rcases hb.first a hhead with ⟨s, hs, hheld⟩ | hfull
    · exact .inr (findSome?_binSlots_of_slot hb.frontFilled hs hheld ha hothers')
    · exact findSome?_binSlots_none_or (.inr hfull) hothers'

/-- Nothing is found in a table none of whose slots yields anything. -/
theorem probe_none_of_built (hb : Built slotsPerBin numHashFns numBins hashFns inserted table)
    (hempty : f none = none) (hothers : ∀ x ∈ inserted, f (some x) = none) (bins : ℕ → ℕ) :
    (List.range numHashFns).findSome?
      (fun hf => (binSlots slotsPerBin table (bins hf)).findSome? f) = none := by
  refine List.findSome?_eq_none_iff.2 fun hf _ => List.findSome?_eq_none_iff.2 fun c hc => ?_
  cases c with
  | none => exact hempty
  | some x => exact hothers x (hb.items.mem_iff.1 (mem_items_of_binSlots hc))

end Search

/-! ## Keyed tables -/

section Keyed

variable {α β : Type} {params : TableParams} {binOf : α → UInt64 → ℕ → ℕ} {groupId numBins : ℕ}
  {keys : List α} {table : List (Option ℕ)}

/-- The bins of the `i`-th key. -/
def keyBins (params : TableParams) (binOf : α → UInt64 → ℕ → ℕ) (groupId numBins : ℕ)
    (keys : List α) (i hf : ℕ) : ℕ :=
  ((keys[i]?).map fun key =>
    binOf key (deriveCuckooKey params.masterSeed groupId hf) numBins).getD 0

theorem keyBins_of_getElem? {key : α} {i : ℕ} (h : keys[i]? = some key) (hf : ℕ) :
    keyBins params binOf groupId numBins keys i hf =
      binOf key (deriveCuckooKey params.masterSeed groupId hf) numBins := by
  rw [keyBins, h]
  rfl

theorem insertAll_nil_table {ι : Type} {slotsPerBin numHashFns : ℕ}
    {hashFns : Option ι → ℕ → ℕ} {x : Option ι} {xs : List (Option ι)} : insertAll slotsPerBin numHashFns hashFns 0 (x :: xs) = none := by
  have hfree : ∀ b, placeInBin slotsPerBin ([] : List (Option ι)) x b = none := by
    intro b
    rw [placeInBin, firstFree, List.find?_eq_none.2 (by simp)]
    rfl
  have hfirst : cuckooInsert slotsPerBin numHashFns hashFns [] x = none := by
    rw [cuckooInsert, List.findSome?_eq_none_iff.2 fun b _ => hfree b]
    simp [cuckooMaxKicks, evictFrom]
  rw [insertAll, Nat.zero_mul, List.replicate_zero, List.foldlM_cons, hfirst]
  rfl

/-- Positions of fewer than `2 ^ 32` keys fit an entry, and none is the marker. -/
theorem map_entryIdx {n : ℕ} (hn : n < 2 ^ 32) :
    (List.range n).map entryIdx = (List.range n).map some := by
  refine List.map_congr_left fun i hi => ?_
  have hlt := List.mem_range.1 hi
  rw [entryIdx, Nat.mod_eq_of_lt (by omega), if_neg (by rw [emptyEntry]; omega)]

/-- Tables over keys are built tables. With no bins at all there are no keys either. -/
theorem buildKeyedTable_built (params : TableParams) (hlen : keys.length < 2 ^ 32)
    (hbin : ∀ key hk, 0 < numBins → binOf key hk numBins < numBins)
    (hslots : 0 < params.slotsPerBin) (hhash : 0 < params.cuckooNumHashes)
    (h : buildKeyedTable params binOf groupId numBins keys = some table) :
    Built params.slotsPerBin params.cuckooNumHashes numBins
      (keyBins params binOf groupId numBins keys) (List.range keys.length) table := by
  rw [buildKeyedTable, map_entryIdx hlen] at h
  rcases Nat.eq_zero_or_pos numBins with rfl | hpos
  · cases hkeys : List.range keys.length with
    | nil =>
      rw [hkeys] at h
      cases h
      exact built_nil ..
    | cons i is =>
      rw [hkeys, List.map_cons, insertAll_nil_table] at h
      cases h
  · refine insertAll_built (fun i hf _ => ?_) hslots hhash h
    rw [itemBins, Option.getD_some]
    cases keys[i]? with
    | none => exact hpos
    | some key => exact hbin key _ hpos

variable {slotOf : α → Bytes} {read : Bytes → Option β}

@[simp] theorem length_writeSlot {slotSize : ℕ} (hslot : ∀ x, (slotOf x).length = slotSize)
    (entries : List α) (s : Option ℕ) :
    (writeSlot slotSize slotOf entries s).length = slotSize := by
  rcases s with _ | i
  · simp [writeSlot]
  · cases hi : entries[i]? <;> simp [writeSlot, hi, hslot]

/-- Looking a key up in a written table searches the key's bins. -/
theorem probeBins_flatMap (params : TableParams) {γ : Type} {write : Option ℕ → Bytes}
    (hpos : 0 < params.slotSize)
    (hw : ∀ s, (write s).length = params.slotSize) (key : γ) (binOf : γ → UInt64 → ℕ → ℕ) :
    probeBins params binOf (scanSlots params.slotSize params.slotsPerBin read) groupId numBins
        (table.flatMap write) key =
      (List.range params.cuckooNumHashes).findSome? fun hf =>
        (binSlots params.slotsPerBin table
          (binOf key (deriveCuckooKey params.masterSeed groupId hf) numBins)).findSome?
            fun s => read (write s) := by
  refine findSome?_congr fun hf _ => ?_
  rw [binOfGroup_flatMap params hw, scanSlots_flatMap read _ hpos hw]
  rw [binSlots, List.length_take]
  exact Nat.min_le_left ..

end Keyed

/-! ## Groups of a file -/

/-- Group `g` of a file was built from the items whose groups include `g`. -/
theorem buildGroups_getElem? {α : Type} {k : ℕ} {groupsOf : α → Option (List ℕ)}
    {buildGroup : ℕ → List ℕ → Option Bytes} {xs : List α} {tables : List Bytes}
    (h : buildGroups k groupsOf buildGroup xs = some tables) :
    ∃ groups : List (List ℕ), xs.mapM groupsOf = some groups ∧
      (∀ g < k, ∃ data, tables[g]? = some data) ∧
      ∀ g data, tables[g]? = some data →
        buildGroup g ((List.range xs.length).filter fun i => g ∈ groups.getD i []) = some data := by
  obtain ⟨groups, hgroups, h⟩ := Option.bind_eq_some_iff.1 h
  have hlen := length_mapM hgroups
  have hitem : ∀ g < k, (groupItems k groups).zipIdx[g]? =
      some ((List.range xs.length).filter (fun i => g ∈ groups.getD i []), g) := by
    intro g hg
    simp [groupItems, hg, hlen]
  refine ⟨groups, hgroups, fun g hg => ?_, fun g data hdata => ?_⟩
  · obtain ⟨data, hdata, -⟩ := getElem?_mapM h (hitem g hg)
    exact ⟨data, hdata⟩
  · have hg : g < k := by
      have := (List.getElem?_eq_some_iff.1 hdata).1
      rw [length_mapM h] at this
      simpa [groupItems] using this
    obtain ⟨data', hdata', hbuild⟩ := getElem?_mapM h (hitem g hg)
    rw [hdata] at hdata'
    cases hdata'
    exact hbuild

/-- An item is an entry of each of its groups. -/
theorem mem_groupEntries {groups : List (List ℕ)} {own : List ℕ} {i g n : ℕ} (hi : i < n)
    (hown : groups[i]? = some own) (hg : g ∈ own) :
    i ∈ (List.range n).filter fun i => g ∈ groups.getD i [] :=
  List.mem_filter.2 ⟨List.mem_range.2 hi, by simpa [List.getD, hown] using hg⟩

theorem length_groupEntries_lt {n : ℕ} (hn : n < 2 ^ 32) (p : ℕ → Bool) :
    ((List.range n).filter p).length < 2 ^ 32 :=
  (List.length_filter_le _ _).trans_lt (by rwa [List.length_range])

/-- Entries stand in input order, so item 0 is an entry at position 0. -/
theorem exists_index_filter_range {p : ℕ → Bool} {i n : ℕ} (h : i ∈ (List.range n).filter p) :
    ∃ a, ((List.range n).filter p)[a]? = some i ∧ (i = 0 → a = 0) := by
  obtain ⟨a, ha⟩ := List.mem_iff_getElem?.1 h
  by_cases hi : i = 0
  · subst hi
    obtain ⟨hmem, hp⟩ := List.mem_filter.1 h
    obtain ⟨m, rfl⟩ : ∃ m, n = m + 1 := ⟨n - 1, by have := List.mem_range.1 hmem; omega⟩
    refine ⟨0, ?_, fun _ => rfl⟩
    rw [List.range_succ_eq_map, List.filter_cons_of_pos hp]
    rfl
  · exact ⟨a, ha, fun h0 => absurd h0 hi⟩

/-! ## INDEX -/

section Index

variable {k numBins : ℕ} {masterSeed tagSeed : UInt64} {records : List IndexRecord}

/-- The INDEX table parameters of a database. -/
abbrev indexParamsOf (k : ℕ) (masterSeed : UInt64) : TableParams :=
  { indexParams with k, masterSeed }

theorem length_indexSlot (r : IndexRecord) : (indexSlot tagSeed r).length = indexSlotSize := by
  simp [indexSlot, indexSlotSize, tagSize]

/-- Reading a record's slot gives its chunk range, for the record's tag only. -/
theorem readIndexSlot_indexSlot (r : IndexRecord) (tag : UInt64) :
    readIndexSlot tag (indexSlot tagSeed r) =
      if computeTag tagSeed r.scriptHash = tag then some (r.startChunkId, r.numChunks.toUInt32)
      else none := by
  have htag : u64At (indexSlot tagSeed r) 0 = computeTag tagSeed r.scriptHash := by
    rw [u64At, List.drop_zero, indexSlot, List.append_assoc,
      List.take_left' (length_leBytes 8 _), leNat_leBytes_of_lt (UInt64.toNat_lt _),
      UInt64.ofNat_toNat]
  have hstart : u32At (indexSlot tagSeed r) 8 = r.startChunkId := by
    rw [u32At, indexSlot, List.append_assoc, List.drop_left' (length_leBytes 8 _),
      List.take_left' (length_leBytes 4 _), leNat_leBytes_of_lt (UInt32.toNat_lt _),
      UInt32.ofNat_toNat]
  have hnum : u8At (indexSlot tagSeed r) 12 = r.numChunks := by
    rw [u8At, indexSlot]
    simp
  rw [readIndexSlot, htag, hstart, hnum]

theorem readIndexSlot_empty {tag : UInt64} (h : tag ≠ 0) :
    readIndexSlot tag (List.replicate indexSlotSize 0) = none := by
  have hzero : u64At (List.replicate indexSlotSize 0) 0 = 0 := by decide
  rw [readIndexSlot, hzero, if_neg (Ne.symm h)]

theorem buildIndexGroup_eq_some {g : ℕ} {entries : List ℕ} {data : Bytes}
    (hlen : entries.length < 2 ^ 32)
    (h : buildIndexGroup (indexParamsOf k masterSeed) tagSeed numBins records g entries =
      some data) :
    ∃ own table, (∀ i ∈ entries, ∀ r, records[i]? = some r → r ∈ own) ∧
      (∀ r ∈ own, r ∈ records) ∧
      Built 4 2 numBins (keyBins (indexParamsOf k masterSeed) cuckooHash g numBins
        (own.map IndexRecord.scriptHash)) (List.range own.length) table ∧
      data = table.flatMap (writeSlot indexSlotSize (indexSlot tagSeed) own) := by
  obtain ⟨table, htable, hdata⟩ := Option.bind_eq_some_iff.1 h
  have hown : ((entries.filterMap (records[·]?)).map IndexRecord.scriptHash).length < 2 ^ 32 := by
    rw [List.length_map]
    exact (List.length_filterMap_le _ _).trans_lt hlen
  have hb := buildKeyedTable_built (indexParamsOf k masterSeed) hown
    (fun key hk hpos => cuckooHash_lt key hk hpos)
    (show 0 < indexParams.slotsPerBin by decide) (show 0 < indexParams.cuckooNumHashes by decide)
    htable
  rw [List.length_map] at hb
  refine ⟨_, table, fun i hi r hr => List.mem_filterMap.2 ⟨i, hi, hr⟩, fun r hr => ?_, hb,
    (Option.some_inj.1 hdata).symm⟩
  obtain ⟨i, -, hi⟩ := List.mem_filterMap.1 hr
  exact List.mem_of_getElem? hi

theorem readIndexSlot_writeSlot {own : List IndexRecord} {i : ℕ} {r : IndexRecord}
    (hi : own[i]? = some r) (tag : UInt64) :
    readIndexSlot tag (writeSlot indexSlotSize (indexSlot tagSeed) own (some i)) =
      if computeTag tagSeed r.scriptHash = tag then some (r.startChunkId, r.numChunks.toUInt32)
      else none := by
  rw [writeSlot, hi]
  exact readIndexSlot_indexSlot r tag

theorem lookupIndex_flatMap {g : ℕ} {own : List IndexRecord} {table : List (Option ℕ)}
    (scriptHash : ScriptHash) :
    lookupIndex (indexParamsOf k masterSeed) tagSeed g numBins
        (table.flatMap (writeSlot indexSlotSize (indexSlot tagSeed) own)) scriptHash =
      (List.range 2).findSome? fun hf =>
        (binSlots 4 table (cuckooHash scriptHash (deriveCuckooKey masterSeed g hf)
          numBins)).findSome? fun s => readIndexSlot (computeTag tagSeed scriptHash)
            (writeSlot indexSlotSize (indexSlot tagSeed) own s) :=
  probeBins_flatMap (indexParamsOf k masterSeed) (show 0 < indexSlotSize by decide)
    (fun s => length_writeSlot length_indexSlot own s)
    scriptHash cuckooHash

/-- A record of a group is found there, if no other record has its tag. -/
theorem lookupIndex_of_mem {g : ℕ} {entries : List ℕ} {data : Bytes}
    (hlen : entries.length < 2 ^ 32)
    (h : buildIndexGroup (indexParamsOf k masterSeed) tagSeed numBins records g entries =
      some data) {i : ℕ} {r : IndexRecord} (hi : i ∈ entries) (hr : records[i]? = some r)
    (hzero : computeTag tagSeed r.scriptHash ≠ 0)
    (hsame : ∀ r' ∈ records, computeTag tagSeed r'.scriptHash = computeTag tagSeed r.scriptHash →
      r' = r) :
    lookupIndex (indexParamsOf k masterSeed) tagSeed g numBins data r.scriptHash =
      some (r.startChunkId, r.numChunks.toUInt32) := by
  obtain ⟨own, table, hmem, hown, hb, rfl⟩ := buildIndexGroup_eq_some hlen h
  obtain ⟨a, ha⟩ := List.mem_iff_getElem?.1 (hmem i hi r hr)
  have hkey : (own.map IndexRecord.scriptHash)[a]? = some r.scriptHash := by
    rw [List.getElem?_map, ha]
    rfl
  rw [lookupIndex_flatMap]
  have hfound := probe_of_built hb (by omega) (a := a)
    (f := fun s => readIndexSlot (computeTag tagSeed r.scriptHash)
      (writeSlot indexSlotSize (indexSlot tagSeed) own s))
    (List.mem_range.2 (List.getElem?_eq_some_iff.1 ha).1)
    (by rw [readIndexSlot_writeSlot ha, if_pos rfl]) ?_
    (.inl (readIndexSlot_empty hzero))
  · simp only [keyBins_of_getElem? hkey] at hfound
    exact hfound
  · intro x hx
    obtain ⟨r', hr'⟩ : ∃ r', own[x]? = some r' :=
      ⟨_, List.getElem?_eq_getElem (List.mem_range.1 hx)⟩
    rw [readIndexSlot_writeSlot hr']
    split_ifs with heq
    · rw [hsame r' (hown r' (List.mem_of_getElem? hr')) heq]
      exact .inr rfl
    · exact .inl rfl

/-- A script hash whose tag no record has is found in no group. -/
theorem lookupIndex_of_forall_ne {g : ℕ} {entries : List ℕ} {data : Bytes}
    (hlen : entries.length < 2 ^ 32)
    (h : buildIndexGroup (indexParamsOf k masterSeed) tagSeed numBins records g entries =
      some data) {scriptHash : ScriptHash} (hzero : computeTag tagSeed scriptHash ≠ 0)
    (hne : ∀ r ∈ records, computeTag tagSeed r.scriptHash ≠ computeTag tagSeed scriptHash) :
    lookupIndex (indexParamsOf k masterSeed) tagSeed g numBins data scriptHash = none := by
  obtain ⟨own, table, -, hown, hb, rfl⟩ := buildIndexGroup_eq_some hlen h
  rw [lookupIndex_flatMap]
  refine probe_none_of_built hb (readIndexSlot_empty hzero) ?_ _
  intro x hx
  obtain ⟨r', hr'⟩ : ∃ r', own[x]? = some r' :=
    ⟨_, List.getElem?_eq_getElem (List.mem_range.1 hx)⟩
  rw [readIndexSlot_writeSlot hr', if_neg (hne r' (hown r' (List.mem_of_getElem? hr')))]

/-- **INDEX lookups are exact.** If all groups were built from records with distinct, non-zero
tags, each record is found in each of its three groups, and a script hash with another non-zero
tag is found in none. Tables store 32-bit positions, so that the records are fewer than `2 ^ 32`. -/
theorem lookupIndex_exact (k : ℕ) (hk : 3 ≤ k) (masterSeed tagSeed : UInt64) (numBins : ℕ)
    (records : List IndexRecord) (hrange : records.length < 2 ^ 32)
    (htags : (records.map fun r => computeTag tagSeed r.scriptHash).Nodup)
    (hzero : ∀ r ∈ records, computeTag tagSeed r.scriptHash ≠ 0) (tables : List Bytes)
    (hbuild : buildIndexCuckoo (indexParamsOf k masterSeed) tagSeed numBins records =
      some tables) :
    (∀ r ∈ records, ∃ groups, deriveGroups3 r.scriptHash k = some groups ∧ groups.length = 3 ∧
      groups.Nodup ∧ ∀ g ∈ groups, ∃ data, tables[g]? = some data ∧
        lookupIndex (indexParamsOf k masterSeed) tagSeed g numBins data r.scriptHash =
          some (r.startChunkId, r.numChunks.toUInt32)) ∧
    ∀ scriptHash, computeTag tagSeed scriptHash ≠ 0 →
      (∀ r ∈ records, computeTag tagSeed r.scriptHash ≠ computeTag tagSeed scriptHash) →
      ∀ (g : ℕ) (data : Bytes), tables[g]? = some data →
        lookupIndex (indexParamsOf k masterSeed) tagSeed g numBins data scriptHash = none := by
  obtain ⟨allGroups, hgroups, hexists, hgroup⟩ := buildGroups_getElem? hbuild
  constructor
  · intro r hr
    obtain ⟨i, hi⟩ := List.mem_iff_getElem?.1 hr
    obtain ⟨groups, hi', hderive⟩ := getElem?_mapM hgroups hi
    obtain ⟨hnodup, hlt, hlen⟩ := deriveGroups3_spec (k := k) (by omega) hderive
    refine ⟨groups, hderive, hlen, hnodup, fun g hg => ?_⟩
    obtain ⟨data, hdata⟩ := hexists g (hlt g hg)
    refine ⟨data, hdata, lookupIndex_of_mem (length_groupEntries_lt hrange _)
      (hgroup g data hdata) ?_ hi (hzero r hr) ?_⟩
    · exact mem_groupEntries (List.getElem?_eq_some_iff.1 hi).1 hi' hg
    · exact fun r' hr' heq => List.inj_on_of_nodup_map htags hr' hr heq
  · intro scriptHash hne hother g data hdata
    exact lookupIndex_of_forall_ne (length_groupEntries_lt hrange _) (hgroup g data hdata) hne
      hother

end Index

/-- Two records over three groups of two bins. -/
def sampleRecords : List IndexRecord :=
  [⟨⟨List.replicate 20 1, by decide⟩, 5, 2⟩, ⟨⟨List.replicate 20 2, by decide⟩, 0, 0⟩]

theorem lookupIndex_exact_sample :
    ∃ tables, buildIndexCuckoo (indexParamsOf 3 9) 7 2 sampleRecords = some tables ∧
      (∀ r ∈ sampleRecords, ∃ groups, deriveGroups3 r.scriptHash 3 = some groups ∧
        groups.length = 3 ∧ groups.Nodup ∧ ∀ g ∈ groups, ∃ data, tables[g]? = some data ∧
          lookupIndex (indexParamsOf 3 9) 7 g 2 data r.scriptHash =
            some (r.startChunkId, r.numChunks.toUInt32)) ∧
      ∀ scriptHash, computeTag 7 scriptHash ≠ 0 →
        (∀ r ∈ sampleRecords, computeTag 7 r.scriptHash ≠ computeTag 7 scriptHash) →
        ∀ (g : ℕ) (data : Bytes), tables[g]? = some data →
          lookupIndex (indexParamsOf 3 9) 7 g 2 data scriptHash = none := by
  obtain ⟨tables, htables⟩ := Option.isSome_iff_exists.1
    (show (buildIndexCuckoo (indexParamsOf 3 9) 7 2 sampleRecords).isSome by decide +kernel)
  exact ⟨tables, htables, lookupIndex_exact 3 (by omega) 9 7 2 sampleRecords (by decide)
    (by decide +kernel) (by decide +kernel) tables htables⟩

/-! ## CHUNK -/

section Chunk

variable {k numBins : ℕ} {masterSeed : UInt64} {chunks : List Chunk}

/-- The CHUNK table parameters of a database. -/
abbrev chunkParamsOf (k : ℕ) (masterSeed : UInt64) : TableParams :=
  { chunkParams with k, masterSeed }

theorem length_chunkSlot (id : UInt32) : (chunkSlot chunks id).length = chunkSlotSize := by
  rw [chunkSlot, List.length_append, chunkSlotSize]
  cases chunks[id.toNat]? with
  | none => simp
  | some c => exact congrArg (4 + ·) c.property

/-- Reading a chunk's slot gives its bytes, for the chunk's id only. -/
theorem readChunkSlot_chunkSlot {id : UInt32} {c : Chunk} (hc : chunks[id.toNat]? = some c)
    (id' : UInt32) :
    readChunkSlot id' (chunkSlot chunks id) = if id = id' then some c.val else none := by
  have hid : leBytes 4 id.toNat = leBytes 4 id'.toNat ↔ id = id' := by
    constructor
    · intro h
      exact UInt32.toNat_inj.1 (leBytes_inj_of_lt (UInt32.toNat_lt _) (UInt32.toNat_lt _) h)
    · rintro rfl
      rfl
  rw [readChunkSlot, chunkSlot, hc, List.take_left' (length_leBytes 4 _),
    List.drop_left' (length_leBytes 4 _)]
  simp only [hid]
  rfl

/-- An empty slot is mistaken for chunk 0 only. -/
theorem readChunkSlot_empty {id : UInt32} (h : id ≠ 0) :
    readChunkSlot id (List.replicate chunkSlotSize 0) = none := by
  have hzero : (List.replicate chunkSlotSize (0 : UInt8)).take 4 =
      leBytes 4 (0 : UInt32).toNat := by decide
  rw [readChunkSlot, hzero, if_neg]
  intro heq
  exact h (UInt32.toNat_inj.1
    (leBytes_inj_of_lt (UInt32.toNat_lt _) (UInt32.toNat_lt _) heq).symm)

theorem buildChunkGroup_eq_some {g : ℕ} {entries : List ℕ} {data : Bytes}
    (hlen : entries.length < 2 ^ 32)
    (h : buildChunkGroup (chunkParamsOf k masterSeed) numBins chunks g entries = some data) :
    ∃ table, Built 3 2 numBins (keyBins (chunkParamsOf k masterSeed) cuckooHashInt g numBins
        (entries.map UInt32.ofNat)) (List.range entries.length) table ∧
      data = table.flatMap
        (writeSlot chunkSlotSize (chunkSlot chunks) (entries.map UInt32.ofNat)) := by
  obtain ⟨table, htable, hdata⟩ := Option.bind_eq_some_iff.1 h
  have hb := buildKeyedTable_built (chunkParamsOf k masterSeed)
    (by rwa [List.length_map])
    (fun key hk hpos => cuckooHashInt_lt key hk hpos)
    (show 0 < chunkParams.slotsPerBin by decide) (show 0 < chunkParams.cuckooNumHashes by decide)
    htable
  rw [List.length_map] at hb
  exact ⟨table, hb, (Option.some_inj.1 hdata).symm⟩

theorem lookupChunk_flatMap {g : ℕ} {ids : List UInt32} {table : List (Option ℕ)} (id : UInt32) :
    lookupChunk (chunkParamsOf k masterSeed) g numBins
        (table.flatMap (writeSlot chunkSlotSize (chunkSlot chunks) ids)) id =
      (List.range 2).findSome? fun hf =>
        (binSlots 3 table (cuckooHashInt id (deriveCuckooKey masterSeed g hf)
          numBins)).findSome? fun s => readChunkSlot id
            (writeSlot chunkSlotSize (chunkSlot chunks) ids s) :=
  probeBins_flatMap (chunkParamsOf k masterSeed) (show 0 < chunkSlotSize by decide)
    (fun s => length_writeSlot length_chunkSlot ids s)
    id cuckooHashInt

theorem readChunkSlot_writeSlot {entries : List ℕ} {x j : ℕ} (hx : entries[x]? = some j)
    (hj : j < 2 ^ 32) {c : Chunk} (hc : chunks[j]? = some c) (id : UInt32) :
    readChunkSlot id (writeSlot chunkSlotSize (chunkSlot chunks) (entries.map UInt32.ofNat)
        (some x)) = if UInt32.ofNat j = id then some c.val else none := by
  rw [writeSlot, List.getElem?_map, hx]
  exact readChunkSlot_chunkSlot (by rw [UInt32.toNat_ofNat_of_lt' hj, hc]) id

/-- A chunk of a group is found there; chunk 0 because it is the group's first entry. -/
theorem lookupChunk_of_mem {g : ℕ} {entries : List ℕ} {data : Bytes}
    (hentries : entries.length < 2 ^ 32)
    (h : buildChunkGroup (chunkParamsOf k masterSeed) numBins chunks g entries = some data)
    (hlt : ∀ i ∈ entries, i < chunks.length) (hlen : chunks.length ≤ 2 ^ 32) {i a : ℕ}
    (ha : entries[a]? = some i) (hzero : i = 0 → a = 0) {c : Chunk} (hc : chunks[i]? = some c) :
    lookupChunk (chunkParamsOf k masterSeed) g numBins data (UInt32.ofNat i) = some c.val := by
  obtain ⟨table, hb, rfl⟩ := buildChunkGroup_eq_some hentries h
  have hbound : ∀ {x j : ℕ}, entries[x]? = some j → j < 2 ^ 32 := fun hx =>
    lt_of_lt_of_le (hlt _ (List.mem_of_getElem? hx)) hlen
  have hrange : a < entries.length := (List.getElem?_eq_some_iff.1 ha).1
  have hkey : (entries.map UInt32.ofNat)[a]? = some (UInt32.ofNat i) := by
    rw [List.getElem?_map, ha]
    rfl
  rw [lookupChunk_flatMap]
  have hfound := probe_of_built hb (by omega) (a := a)
    (f := fun s => readChunkSlot (UInt32.ofNat i)
      (writeSlot chunkSlotSize (chunkSlot chunks) (entries.map UInt32.ofNat) s))
    (v := c.val) (List.mem_range.2 hrange)
    (by rw [readChunkSlot_writeSlot ha (hbound ha) hc, if_pos rfl]) ?_ ?_
  · simp only [keyBins_of_getElem? hkey] at hfound
    exact hfound
  · intro x hx
    obtain ⟨j, hj⟩ : ∃ j, entries[x]? = some j :=
      ⟨_, List.getElem?_eq_getElem (List.mem_range.1 hx)⟩
    obtain ⟨cj, hcj⟩ : ∃ cj, chunks[j]? = some cj :=
      ⟨_, List.getElem?_eq_getElem (hlt j (List.mem_of_getElem? hj))⟩
    rw [readChunkSlot_writeSlot hj (hbound hj) hcj]
    split_ifs with heq
    · have hij := congrArg UInt32.toNat heq
      rw [UInt32.toNat_ofNat_of_lt' (hbound hj), UInt32.toNat_ofNat_of_lt' (hbound ha)] at hij
      rw [hij, hc] at hcj
      exact .inr (congrArg _ (congrArg Subtype.val (Option.some_inj.1 hcj)).symm)
    · exact .inl rfl
  · by_cases hi : i = 0
    · obtain rfl := hzero hi
      refine .inr ⟨?_, le_refl 2⟩
      rw [List.head?_range, if_neg (by omega)]
    · refine .inl (readChunkSlot_empty fun heq => hi ?_)
      have := congrArg UInt32.toNat heq
      rwa [UInt32.toNat_ofNat_of_lt' (hbound ha)] at this

/-- A chunk is found in each of its groups. -/
theorem lookupChunk_of_build (hk : 3 ≤ k) (hlen : chunks.length < 2 ^ 32) {tables : List Bytes}
    (hbuild : buildChunkCuckoo (chunkParamsOf k masterSeed) numBins chunks = some tables)
    {id : ℕ} (hid : id < chunks.length) :
    ∃ groups, deriveIntGroups3 (UInt32.ofNat id) k = some groups ∧ ∀ g ∈ groups,
      ∃ data, tables[g]? = some data ∧
        lookupChunk (chunkParamsOf k masterSeed) g numBins data (UInt32.ofNat id) =
          some chunks[id].val := by
  rw [buildChunkCuckoo, Nat.mod_eq_of_lt hlen] at hbuild
  obtain ⟨allGroups, hgroups, hexists, hgroup⟩ := buildGroups_getElem? hbuild
  rw [List.length_map, List.length_range] at hgroup
  have hitem : ((List.range chunks.length).map UInt32.ofNat)[id]? = some (UInt32.ofNat id) := by
    rw [List.getElem?_map, List.getElem?_range hid]
    rfl
  obtain ⟨groups, hi', hderive⟩ := getElem?_mapM hgroups hitem
  obtain ⟨-, hlt, -⟩ := deriveIntGroups3_spec (k := k) (by omega) hderive
  refine ⟨groups, hderive, fun g hg => ?_⟩
  obtain ⟨data, hdata⟩ := hexists g (hlt g hg)
  have hmem := mem_groupEntries hid hi' hg
  obtain ⟨a, ha, hfirst⟩ := exists_index_filter_range hmem
  refine ⟨data, hdata, lookupChunk_of_mem (length_groupEntries_lt hlen _) (hgroup g data hdata) ?_
    hlen.le ha hfirst (List.getElem?_eq_getElem hid)⟩
  intro i hi
  exact List.mem_range.1 (List.mem_filter.1 hi).1

/-- **CHUNK lookups are exact**, chunk 0 included. -/
theorem lookupChunk_exact (k : ℕ) (hk : 3 ≤ k) (masterSeed : UInt64) (numBins : ℕ)
    (chunks : List Chunk) (hlen : chunks.length < 2 ^ 32) (tables : List Bytes)
    (hbuild : buildChunkCuckoo (chunkParamsOf k masterSeed) numBins chunks = some tables)
    (id : ℕ) (hid : id < chunks.length) :
    ∃ groups, deriveIntGroups3 (UInt32.ofNat id) k = some groups ∧ groups.length = 3 ∧
      groups.Nodup ∧ ∀ g ∈ groups, ∃ data, tables[g]? = some data ∧
        lookupChunk (chunkParamsOf k masterSeed) g numBins data (UInt32.ofNat id) =
          some chunks[id].val := by
  obtain ⟨groups, hderive, hfound⟩ := lookupChunk_of_build hk hlen hbuild hid
  obtain ⟨hnodup, -, hlen3⟩ := deriveIntGroups3_spec (k := k) (by omega) hderive
  exact ⟨groups, hderive, hlen3, hnodup, hfound⟩

end Chunk

/-- Five chunks over three groups of two bins of three slots. -/
def sampleChunks : List Chunk := (List.range 5).map fun i => ⟨List.replicate 40 (.ofNat i), by simp⟩

theorem lookupChunk_exact_sample :
    ∃ tables, buildChunkCuckoo (chunkParamsOf 3 9) 2 sampleChunks = some tables ∧
      ∃ groups, deriveIntGroups3 (UInt32.ofNat 0) 3 = some groups ∧ groups.length = 3 ∧
        groups.Nodup ∧ ∀ g ∈ groups, ∃ data, tables[g]? = some data ∧
          lookupChunk (chunkParamsOf 3 9) g 2 data (UInt32.ofNat 0) =
            some (List.replicate 40 0) := by
  obtain ⟨tables, htables⟩ := Option.isSome_iff_exists.1
    (show (buildChunkCuckoo (chunkParamsOf 3 9) 2 sampleChunks).isSome by decide +kernel)
  exact ⟨tables, htables, lookupChunk_exact 3 (by omega) 9 2 sampleChunks (by decide) tables
    htables 0 (by decide)⟩

end BitcoinPir.Tables
