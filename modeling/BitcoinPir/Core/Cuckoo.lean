import BitcoinPir.Foundations.Slots

/-!
# Cuckoo insertion

The insertion shared by the INDEX and CHUNK tables. A table is flat: bin `b` is the slots
`b * slotsPerBin` to `b * slotsPerBin + slotsPerBin - 1`, and an empty slot is `none` (the
source's `EMPTY` marker). What is inserted is a slot value as well, so that the marker itself can
be inserted and leaves its slot empty. A value is put into the first free slot of the first of its
bins that has one; if none has, values are kicked to other bins until one fits.

`Insertion` says what an insertion can do, and **`insertAll_built`** what a built table looks
like: every item sits exactly once, in a bin of its own; within a bin occupied slots come first;
and the item inserted first is in its first bin, or that bin is full.
-/

namespace BitcoinPir

open Foundations

section Insert

variable {ι : Type} (slotsPerBin numHashFns : ℕ) (hashFns : Option ι → ℕ → ℕ)

/-- The most kicks before an insertion is given up. -/
def cuckooMaxKicks : ℕ := 10000

/-- The first empty slot of a bin. -/
def firstFree (table : List (Option ι)) (bin : ℕ) : Option ℕ :=
  ((List.range slotsPerBin).map (bin * slotsPerBin + ·)).find? fun p => (table[p]?).any (·.isNone)

/-- Put an entry into the first empty slot of a bin, if it has one. -/
def placeInBin (table : List (Option ι)) (entry : Option ι) (bin : ℕ) :
    Option (List (Option ι)) :=
  (firstFree slotsPerBin table bin).map fun p => table.set p entry

/-- The first of an entry's bins that is not `bin`; `bin` itself if there is no other. -/
def altBin (entry : Option ι) (bin : ℕ) : ℕ :=
  (((List.range numHashFns).map (hashFns entry)).find? (· ≠ bin)).getD bin

/-- The eviction chain. `none` when the kicks are used up; a bin outside the table would be a
panic. -/
def evictFrom : ℕ → ℕ → List (Option ι) → Option ι → ℕ → Option (List (Option ι))
  | 0, _, _, _, _ => none
  | fuel + 1, kick, table, current, currentBin =>
    let p := currentBin * slotsPerBin + kick % slotsPerBin
    match table[p]? with
    | some evicted =>
      let table := table.set p current
      let alt := altBin numHashFns hashFns evicted currentBin
      match placeInBin slotsPerBin table evicted alt with
      | some table => some table
      | none => evictFrom fuel (kick + 1) table evicted alt
    | none => none

/-- Insert an entry. `none` when it does not fit within the kicks. -/
def cuckooInsert (table : List (Option ι)) (entry : Option ι) : Option (List (Option ι)) :=
  match ((List.range numHashFns).map (hashFns entry)).findSome?
      (placeInBin slotsPerBin table entry) with
  | some table => some table
  | none => evictFrom slotsPerBin numHashFns hashFns cuckooMaxKicks 0 table entry (hashFns entry 0)

/-- Insert entries one after another into an empty table; `none` is the builder's panic. -/
def insertAll (numBins : ℕ) (entries : List (Option ι)) : Option (List (Option ι)) :=
  entries.foldlM (cuckooInsert slotsPerBin numHashFns hashFns)
    (List.replicate (numBins * slotsPerBin) none)

end Insert

/-! ## What one insertion does -/

section Steps

variable {ι : Type} {slotsPerBin numHashFns : ℕ} {hashFns : ι → ℕ → ℕ}
  {table table' : List (Option ι)} {item : ι} {bin : ℕ}

/-- The bins of an item: those of the entry that holds it. -/
def itemBins (hashFns : Option ι → ℕ → ℕ) (item : ι) : ℕ → ℕ := hashFns (some item)

/-- `b` is one of the item's bins. -/
def IsBinOf (numHashFns : ℕ) (hashFns : ι → ℕ → ℕ) (item : ι) (b : ℕ) : Prop :=
  ∃ hf < numHashFns, hashFns item hf = b

/-- A slot of one of the item's bins. -/
def InOwnBin (slotsPerBin numHashFns : ℕ) (hashFns : ι → ℕ → ℕ) (item : ι) (p : ℕ) : Prop :=
  IsBinOf numHashFns hashFns item (p / slotsPerBin)

/-- All slots of a bin hold items. -/
def BinFull (slotsPerBin : ℕ) (table : List (Option ι)) (bin : ℕ) : Prop :=
  ∀ s < slotsPerBin, Slots.Occupied table (bin * slotsPerBin + s)

/-- In every bin the occupied slots come first. -/
def FrontFilled (slotsPerBin : ℕ) (table : List (Option ι)) : Prop :=
  ∀ b s s', s < s' → s' < slotsPerBin → Slots.Occupied table (b * slotsPerBin + s') →
    Slots.Occupied table (b * slotsPerBin + s)

theorem slot_div {s : ℕ} (hs : s < slotsPerBin) (b : ℕ) :
    (b * slotsPerBin + s) / slotsPerBin = b := by
  rw [Nat.mul_comm, Nat.mul_add_div (by omega), Nat.div_eq_of_lt hs, Nat.add_zero]

theorem slot_mod {s : ℕ} (hs : s < slotsPerBin) (b : ℕ) :
    (b * slotsPerBin + s) % slotsPerBin = s := by
  rw [Nat.mul_comm, Nat.mul_add_mod, Nat.mod_eq_of_lt hs]

/-- A slot number determines its bin and its place in it. -/
theorem slot_inj {b b' s s' : ℕ} (hs : s < slotsPerBin) (hs' : s' < slotsPerBin)
    (h : b * slotsPerBin + s = b' * slotsPerBin + s') : b = b' ∧ s = s' :=
  ⟨by rw [← slot_div hs b, h, slot_div hs'], by rw [← slot_mod hs b, h, slot_mod hs']⟩

/-- Where an item is put: an empty slot of the bin, all slots before it being occupied. -/
theorem placeInBin_eq_some {entry : Option ι}
    (h : placeInBin slotsPerBin table entry bin = some table') :
    ∃ s < slotsPerBin, table[bin * slotsPerBin + s]? = some none ∧
      table' = table.set (bin * slotsPerBin + s) entry ∧
      ∀ s' < s, table[bin * slotsPerBin + s']? ≠ some none := by
  obtain ⟨p, hp, rfl⟩ := Option.map_eq_some_iff.1 h
  obtain ⟨hfree, as, bs, hsplit, has⟩ := List.find?_eq_some_iff_append.1 hp
  have hget : ((List.range slotsPerBin).map (bin * slotsPerBin + ·))[as.length]? = some p := by
    rw [hsplit, List.getElem?_append_right (le_refl _), Nat.sub_self]
    rfl
  rw [List.getElem?_map, Option.map_eq_some_iff] at hget
  obtain ⟨s, hs, rfl⟩ := hget
  obtain ⟨hlt, hs⟩ := List.getElem?_eq_some_iff.1 hs
  rw [List.getElem_range] at hs
  subst hs
  rw [List.length_range] at hlt
  refine ⟨as.length, hlt, ?_, rfl, ?_⟩
  · rcases hslot : table[bin * slotsPerBin + as.length]? with _ | (_ | x)
    · simp [hslot] at hfree
    · rfl
    · simp [hslot] at hfree
  · intro s' hs' hnone
    have hmem : bin * slotsPerBin + s' ∈ as := by
      have hget' : ((List.range slotsPerBin).map (bin * slotsPerBin + ·))[s']? =
          some (bin * slotsPerBin + s') := by
        rw [List.getElem?_map, List.getElem?_range (by omega)]
        rfl
      rw [hsplit, List.getElem?_append_left hs'] at hget'
      exact List.mem_of_getElem? hget'
    have := has _ hmem
    simp [hnone] at this

/-- A bin without an empty slot is full, if the table has it. -/
theorem binFull_of_placeInBin {entry : Option ι}
    (h : placeInBin slotsPerBin table entry bin = none) (hlen : (bin + 1) * slotsPerBin ≤ table.length) : BinFull slotsPerBin table bin := by
  intro s hs
  have hp : bin * slotsPerBin + s < table.length := by
    rw [Nat.add_mul] at hlen
    omega
  have hnone := List.find?_eq_none.1 (Option.map_eq_none_iff.1 h) (bin * slotsPerBin + s)
    (List.mem_map.2 ⟨s, List.mem_range.2 hs, rfl⟩)
  rcases hslot : table[bin * slotsPerBin + s]? with _ | (_ | x)
  · rw [List.getElem?_eq_none_iff] at hslot
    omega
  · simp [hslot] at hnone
  · exact ⟨x, hslot⟩

theorem altBin_isBinOf {hashFns : Option ι → ℕ → ℕ}
    (h : IsBinOf numHashFns (itemBins hashFns) item bin) :
    IsBinOf numHashFns (itemBins hashFns) item (altBin numHashFns hashFns (some item) bin) := by
  unfold altBin
  cases hfind : ((List.range numHashFns).map (hashFns (some item))).find? (· ≠ bin) with
  | none => exact h
  | some b =>
    obtain ⟨hf, hmem, hb⟩ := List.mem_map.1 (List.mem_of_find?_eq_some hfind)
    exact ⟨hf, List.mem_range.1 hmem, hb⟩

end Steps

/-! ## What a whole insertion does

`Insertion` lists the moves an insertion can make; every invariant of a table is checked on them
once. -/

section Runs

variable {ι : Type} (slotsPerBin numHashFns : ℕ) (hashFns : ι → ℕ → ℕ)

/-- An insertion puts the item into the first empty slot of one of its bins, or exchanges it for
an item of a full bin of its own and inserts that one. -/
inductive Insertion : List (Option ι) → ι → List (Option ι) → Prop
  | place {table item b s} (hbin : IsBinOf numHashFns hashFns item b) (hs : s < slotsPerBin)
      (hfree : table[b * slotsPerBin + s]? = some none)
      (hfirst : ∀ s' < s, table[b * slotsPerBin + s']? ≠ some none) :
      Insertion table item (table.set (b * slotsPerBin + s) (some item))
  | kick {table item b s evicted table'} (hbin : IsBinOf numHashFns hashFns item b)
      (hs : s < slotsPerBin) (hfull : BinFull slotsPerBin table b)
      (hslot : table[b * slotsPerBin + s]? = some (some evicted))
      (hrest : Insertion (table.set (b * slotsPerBin + s) (some item)) evicted table') :
      Insertion table item table'

variable {slotsPerBin numHashFns hashFns} {table table' : List (Option ι)} {item : ι}

/-- The rule that every item sits in a bin of its own. -/
abbrev InOwnBins (slotsPerBin numHashFns : ℕ) (hashFns : ι → ℕ → ℕ) (table : List (Option ι)) :
    Prop :=
  Slots.Placed (InOwnBin slotsPerBin numHashFns hashFns) table

theorem inOwnBin_slot {b s : ℕ} (hs : s < slotsPerBin) :
    InOwnBin slotsPerBin numHashFns hashFns item (b * slotsPerBin + s) ↔
      IsBinOf numHashFns hashFns item b := by
  rw [InOwnBin, slot_div hs]

/-- The item is in bin `b`, or the bin is full. -/
def HeldOrFull (slotsPerBin : ℕ) (table : List (Option ι)) (a : ι) (b : ℕ) : Prop :=
  (∃ s < slotsPerBin, table[b * slotsPerBin + s]? = some (some a)) ∨ BinFull slotsPerBin table b

theorem BinFull.set {b : ℕ} (h : BinFull slotsPerBin table b) (p : ℕ) (x : ι) :
    BinFull slotsPerBin (table.set p (some x)) b := fun s hs => (h s hs).set p x

section Insertion

variable (h : Insertion slotsPerBin numHashFns hashFns table item table')

include h

theorem Insertion.length : table'.length = table.length := by
  induction h with
  | place => rw [List.length_set]
  | kick _ _ _ _ _ ih => rw [ih, List.length_set]

theorem Insertion.items : (Slots.items table').Perm (item :: Slots.items table) := by
  induction h with
  | place _ _ hfree _ => exact Slots.items_set_free hfree _
  | kick _ _ _ hslot _ ih => exact ih.trans (Slots.items_set_full hslot _)

theorem Insertion.inOwnBins (ht : InOwnBins slotsPerBin numHashFns hashFns table) :
    InOwnBins slotsPerBin numHashFns hashFns table' := by
  induction h with
  | place hbin hs _ _ => exact ht.set ((inOwnBin_slot hs).2 hbin)
  | kick hbin hs _ _ _ ih => exact ih (ht.set ((inOwnBin_slot hs).2 hbin))

theorem Insertion.frontFilled (ht : FrontFilled slotsPerBin table) :
    FrontFilled slotsPerBin table' := by
  induction h with
  | @place table item b s hbin hs hfree hfirst =>
    intro b' r r' hlt hr' hocc
    by_cases heq : b * slotsPerBin + s = b' * slotsPerBin + r'
    · -- The slots before the one just filled were not empty.
      obtain ⟨rfl, rfl⟩ := slot_inj hs hr' heq
      have hlen := (List.getElem?_eq_some_iff.1 hfree).1
      rcases hslot : table[b * slotsPerBin + r]? with _ | (_ | x)
      · rw [List.getElem?_eq_none_iff] at hslot
        omega
      · exact absurd hslot (hfirst r hlt)
      · exact Slots.Occupied.set ⟨x, hslot⟩ _ _
    · rw [Slots.occupied_set_ne heq] at hocc
      exact (ht b' r r' hlt hr' hocc).set _ _
  | @kick table item b s evicted table' hbin hs hfull hslot hrest ih =>
    apply ih
    intro b' r r' hlt hr' hocc
    by_cases heq : b * slotsPerBin + s = b' * slotsPerBin + r'
    · obtain ⟨rfl, rfl⟩ := slot_inj hs hr' heq
      exact (hfull r (by omega)).set _ _
    · rw [Slots.occupied_set_ne heq] at hocc
      exact (ht b' r r' hlt hr' hocc).set _ _

/-- An item leaves a bin only when the bin is full, and a full bin stays full. -/
theorem Insertion.heldOrFull {a : ι} {b₀ : ℕ} (ht : HeldOrFull slotsPerBin table a b₀) :
    HeldOrFull slotsPerBin table' a b₀ := by
  induction h with
  | @place table item b s hbin hs hfree hfirst =>
    rcases ht with ⟨r, hr, ha⟩ | hfull
    · left
      refine ⟨r, hr, ?_⟩
      rw [List.getElem?_set_ne, ha]
      intro heq
      rw [heq, ha] at hfree
      cases hfree
    · exact .inr (hfull.set _ _)
  | @kick table item b s evicted table' hbin hs hfull hslot hrest ih =>
    apply ih
    rcases ht with ⟨r, hr, ha⟩ | hfull₀
    · by_cases heq : b * slotsPerBin + s = b₀ * slotsPerBin + r
      · obtain ⟨rfl, rfl⟩ := slot_inj hs hr heq
        exact .inr (hfull.set _ _)
      · exact .inl ⟨r, hr, by rw [List.getElem?_set_ne heq, ha]⟩
    · exact .inr (hfull₀.set _ _)

/-! ## The code makes insertions -/

end Insertion

variable {numBins : ℕ}

/-- The bins computed for items exist in the table. -/
def BinsExist (numBins numHashFns : ℕ) (hashFns : ι → ℕ → ℕ) : Prop :=
  ∀ x, ∀ hf < numHashFns, hashFns x hf < numBins

theorem BinsExist.le {x : ι} {b : ℕ} (h : BinsExist numBins numHashFns hashFns)
    (hb : IsBinOf numHashFns hashFns x b) (hlen : table.length = numBins * slotsPerBin) :
    (b + 1) * slotsPerBin ≤ table.length := by
  obtain ⟨hf, hlt, rfl⟩ := hb
  rw [hlen]
  exact Nat.mul_le_mul_right _ (h x hf hlt)

/-! ## Built tables -/

/-- What holds of a table while items are inserted. -/
structure Built (slotsPerBin numHashFns numBins : ℕ) (hashFns : ι → ℕ → ℕ) (inserted : List ι)
    (table : List (Option ι)) : Prop where
  length : table.length = numBins * slotsPerBin
  items : (Slots.items table).Perm inserted
  inOwnBins : InOwnBins slotsPerBin numHashFns hashFns table
  frontFilled : FrontFilled slotsPerBin table
  first : ∀ a, inserted.head? = some a → HeldOrFull slotsPerBin table a (hashFns a 0)

theorem built_nil (slotsPerBin numHashFns numBins : ℕ) (hashFns : ι → ℕ → ℕ) :
    Built slotsPerBin numHashFns numBins hashFns []
      (List.replicate (numBins * slotsPerBin) none) where
  length := List.length_replicate
  items := by rw [Slots.items_replicate_none]
  inOwnBins := Slots.placed_replicate_none _
  frontFilled := by
    rintro b s s' - - ⟨x, hx⟩
    rw [List.getElem?_replicate] at hx
    split_ifs at hx
    cases hx
  first := by rintro a ⟨⟩

theorem firstFree_replicate {b : ℕ} (hb : b < numBins) (hslots : 0 < slotsPerBin) :
    firstFree slotsPerBin (List.replicate (numBins * slotsPerBin) (none : Option ι)) b =
      some (b * slotsPerBin) := by
  have hlt : b * slotsPerBin < numBins * slotsPerBin := (Nat.mul_lt_mul_right hslots).2 hb
  obtain ⟨n, rfl⟩ : ∃ n, slotsPerBin = n + 1 := ⟨slotsPerBin - 1, by omega⟩
  rw [firstFree, List.range_succ_eq_map, List.map_cons, List.find?_cons_of_pos]
  · rfl
  · simp [hlt]

variable {hashFns : Option ι → ℕ → ℕ} (hbins : BinsExist numBins numHashFns (itemBins hashFns))
  (hslots : 0 < slotsPerBin) (hhash : 0 < numHashFns)

include hbins hslots

theorem evictFrom_insertion {fuel kick : ℕ} {current : ι} {currentBin : ℕ}
    (hlen : table.length = numBins * slotsPerBin)
    (hown : InOwnBins slotsPerBin numHashFns (itemBins hashFns) table)
    (hcur : IsBinOf numHashFns (itemBins hashFns) current currentBin)
    (hfull : BinFull slotsPerBin table currentBin)
    (h : evictFrom slotsPerBin numHashFns hashFns fuel kick table (some current) currentBin =
      some table') :
    Insertion slotsPerBin numHashFns (itemBins hashFns) table current table' := by
  induction fuel generalizing kick table current currentBin with
  | zero => cases h
  | succ fuel ih =>
    have hs : kick % slotsPerBin < slotsPerBin := Nat.mod_lt _ hslots
    -- the bin is full, so that what is evicted is an item
    obtain ⟨evicted, hslot⟩ := hfull _ hs
    simp only [evictFrom, hslot] at h
    have hev : IsBinOf numHashFns (itemBins hashFns) evicted currentBin :=
      (inOwnBin_slot hs).1 (hown _ _ hslot)
    have halt := altBin_isBinOf hev
    refine .kick hcur hs hfull hslot ?_
    rcases hplace : placeInBin slotsPerBin
        (table.set (currentBin * slotsPerBin + kick % slotsPerBin) (some current)) (some evicted)
        (altBin numHashFns hashFns (some evicted) currentBin) with _ | t
    · rw [hplace] at h
      have hlen' : (table.set (currentBin * slotsPerBin + kick % slotsPerBin)
          (some current)).length = numBins * slotsPerBin := by rw [List.length_set, hlen]
      exact ih hlen' (hown.set ((inOwnBin_slot hs).2 hcur)) halt
        (binFull_of_placeInBin hplace (hbins.le halt hlen')) h
    · rw [hplace] at h
      cases h
      obtain ⟨s, hs', hfree, rfl, hfirst⟩ := placeInBin_eq_some hplace
      exact .place halt hs' hfree hfirst

include hhash

theorem cuckooInsert_insertion (hlen : table.length = numBins * slotsPerBin)
    (hown : InOwnBins slotsPerBin numHashFns (itemBins hashFns) table)
    (h : cuckooInsert slotsPerBin numHashFns hashFns table (some item) = some table') :
    Insertion slotsPerBin numHashFns (itemBins hashFns) table item table' := by
  rw [cuckooInsert] at h
  rcases hfind : ((List.range numHashFns).map (hashFns (some item))).findSome?
      (placeInBin slotsPerBin table (some item)) with _ | t
  · rw [hfind] at h
    have hcur : IsBinOf numHashFns (itemBins hashFns) item (hashFns (some item) 0) :=
      ⟨0, hhash, rfl⟩
    have hnone := List.findSome?_eq_none_iff.1 hfind (hashFns (some item) 0)
      (List.mem_map.2 ⟨0, List.mem_range.2 hhash, rfl⟩)
    exact evictFrom_insertion hbins hslots hlen hown hcur
      (binFull_of_placeInBin hnone (hbins.le hcur hlen)) h
  · rw [hfind] at h
    cases h
    obtain ⟨b, hb, hplace⟩ := List.exists_of_findSome?_eq_some hfind
    obtain ⟨hf, hlt, rfl⟩ := List.mem_map.1 hb
    obtain ⟨s, hs, hfree, rfl, hfirst⟩ := placeInBin_eq_some hplace
    exact .place ⟨hf, List.mem_range.1 hlt, rfl⟩ hs hfree hfirst

/-- In an empty table the item goes to its first bin. -/
theorem cuckooInsert_replicate
    (h : cuckooInsert slotsPerBin numHashFns hashFns
      (List.replicate (numBins * slotsPerBin) none) (some item) = some table') :
    table'[hashFns (some item) 0 * slotsPerBin + 0]? = some (some item) := by
  have hb : hashFns (some item) 0 < numBins := hbins item 0 hhash
  obtain ⟨n, rfl⟩ : ∃ n, numHashFns = n + 1 := ⟨numHashFns - 1, by omega⟩
  have hplace : placeInBin slotsPerBin (List.replicate (numBins * slotsPerBin) none) (some item)
      (hashFns (some item) 0) = some ((List.replicate (numBins * slotsPerBin) none).set
        (hashFns (some item) 0 * slotsPerBin) (some item)) := by
    rw [placeInBin, firstFree_replicate hb hslots]
    rfl
  rw [cuckooInsert, List.range_succ_eq_map, List.map_cons, List.findSome?_cons, hplace] at h
  cases h
  rw [Nat.add_zero, List.getElem?_set_self]
  rw [List.length_replicate]
  exact (Nat.mul_lt_mul_right hslots).2 hb

theorem Built.insert {inserted : List ι}
    (hb : Built slotsPerBin numHashFns numBins (itemBins hashFns) inserted table)
    (hempty : inserted = [] → table = List.replicate (numBins * slotsPerBin) none)
    (h : cuckooInsert slotsPerBin numHashFns hashFns table (some item) = some table') :
    Built slotsPerBin numHashFns numBins (itemBins hashFns) (inserted ++ [item]) table' := by
  have hins := cuckooInsert_insertion hbins hslots hhash hb.length hb.inOwnBins h
  refine ⟨hins.length.trans hb.length, ?_, hins.inOwnBins hb.inOwnBins,
    hins.frontFilled hb.frontFilled, ?_⟩
  · exact hins.items.trans ((hb.items.cons item).trans (List.perm_append_singleton _ _).symm)
  · intro a ha
    cases inserted with
    | nil =>
      obtain rfl : item = a := by simpa using ha
      rw [hempty rfl] at h
      exact .inl ⟨0, hslots, cuckooInsert_replicate hbins hslots hhash h⟩
    | cons x xs => exact hins.heldOrFull (hb.first a (by simpa using ha))

/-- **A table that was built** holds every item exactly once, in a bin of its own, with the
occupied slots of a bin first; the item inserted first is in its first bin unless that is
full. -/
theorem insertAll_built {xs : List ι}
    (h : insertAll slotsPerBin numHashFns hashFns numBins (xs.map some) = some table) :
    Built slotsPerBin numHashFns numBins (itemBins hashFns) xs table := by
  suffices hall : ∀ (ys inserted : List ι) (t : List (Option ι)),
      Built slotsPerBin numHashFns numBins (itemBins hashFns) inserted t →
      (inserted = [] → t = List.replicate (numBins * slotsPerBin) none) →
      (ys.map some).foldlM (cuckooInsert slotsPerBin numHashFns hashFns) t = some table →
      Built slotsPerBin numHashFns numBins (itemBins hashFns) (inserted ++ ys) table from
    hall xs [] _ (built_nil ..) (fun _ => rfl) h
  intro ys
  induction ys with
  | nil =>
    intro inserted t hb _ hfold
    cases hfold
    rwa [List.append_nil]
  | cons y ys ih =>
    intro inserted t hb hempty hfold
    obtain ⟨t', ht', hfold⟩ := Option.bind_eq_some_iff.1 hfold
    have := ih (inserted ++ [y]) t' (hb.insert hbins hslots hhash hempty ht')
      (fun he => by simp at he) hfold
    rwa [List.append_assoc, List.singleton_append] at this

end Runs

end BitcoinPir
