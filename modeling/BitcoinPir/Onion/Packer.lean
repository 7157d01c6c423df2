import BitcoinPir.Foundations.Bytes
import BitcoinPir.Foundations.HashTree

/-!
# Packing records into OnionPIR entries

The packer of the two OnionPIR builders. Records are copied into entries of one size, several to an
entry while they fit; a record that does not fit into what is left of an entry starts a new one, and
one longer than an entry runs over several.

`Packer.stream` is everything copied so far with the padding between. Packing only ever appends to
it (`Packer.pack_spec`), so that a record stays where it was put.
-/

namespace BitcoinPir.Onion

open Foundations HashTree

structure Packer where
  /-- The entries written out. -/
  written : List Bytes
  currentEntry : Bytes
  currentPos : ℕ

/-- What the packer returns for a record, and the index stores. -/
structure Location where
  entryId : UInt32
  byteOffset : UInt16
  numEntries : UInt8

namespace Packer

section Definitions

variable (entrySize : ℕ) (p : Packer) (data : Bytes)

def new : Packer := ⟨[], List.replicate entrySize 0, 0⟩

def entryCount : ℕ := p.written.length

/-- Writes out the current entry and clears it. -/
def emit : Packer := ⟨p.written ++ [p.currentEntry], List.replicate entrySize 0, 0⟩

def flushEntry : Packer := if 0 < p.currentPos then p.emit entrySize else p

/-- Copies into the current entry and moves the position behind the copy. A full entry is written
out. -/
def copyAt (pos : ℕ) : Packer :=
  let p : Packer := ⟨p.written,
    p.currentEntry.take pos ++ data ++ p.currentEntry.drop (pos + data.length), pos + data.length⟩
  if p.currentPos = entrySize then p.emit entrySize else p

end Definitions

/-- The loop over the entries of a long record. Every entry but the last is written out at once. -/
def spill (entrySize : ℕ) : ℕ → Bytes → Packer → Packer
  | 0, _, p => p
  | 1, data, p => p.copyAt entrySize (data.take entrySize) 0
  | n + 2, data, p =>
    let chunk := data.take entrySize
    let p : Packer := ⟨p.written, chunk ++ p.currentEntry.drop chunk.length, p.currentPos⟩
    spill entrySize (n + 1) (data.drop entrySize) (p.emit entrySize)

/-- `none` is the failed assertion that the number of entries fits a byte. -/
def pack (entrySize : ℕ) (p : Packer) (data : Bytes) : Option (Packer × Location) :=
  if data.length = 0 then
    some (p, ⟨UInt32.ofNat p.entryCount, UInt16.ofNat p.currentPos, 1⟩)
  else if data.length ≤ entrySize - p.currentPos then
    some (p.copyAt entrySize data p.currentPos,
      ⟨UInt32.ofNat p.entryCount, UInt16.ofNat p.currentPos, 1⟩)
  else
    let p := p.flushEntry entrySize
    let entryId := UInt32.ofNat p.entryCount
    if data.length ≤ entrySize then some (p.copyAt entrySize data 0, ⟨entryId, 0, 1⟩)
    else
      let numEntries := data.length ⌈/⌉ entrySize
      if numEntries ≤ 255 then
        some (spill entrySize numEntries data p, ⟨entryId, 0, UInt8.ofNat numEntries⟩)
      else none

/-- The entries of the file. -/
def finish (entrySize : ℕ) (p : Packer) : List Bytes := (p.flushEntry entrySize).written

/-! ## The stream -/

/-- What was copied, with the padding. -/
def stream (p : Packer) : Bytes := p.written.flatten ++ p.currentEntry.take p.currentPos

structure Valid (entrySize : ℕ) (p : Packer) : Prop where
  uniform : Uniform entrySize p.written
  length_current : p.currentEntry.length = entrySize
  pos_lt : p.currentPos < entrySize

section Stream

variable {entrySize : ℕ} {p : Packer} {data : Bytes}

theorem valid_new (h : 0 < entrySize) : (new entrySize).Valid entrySize :=
  ⟨uniform_nil, List.length_replicate .., h⟩

theorem valid_emit (h : 0 < entrySize) (hu : Uniform entrySize p.written)
    (hc : p.currentEntry.length = entrySize) : (p.emit entrySize).Valid entrySize :=
  ⟨hu.concat hc, List.length_replicate .., h⟩

theorem stream_emit : (p.emit entrySize).stream = p.written.flatten ++ p.currentEntry := by
  simp [emit, stream]

theorem Valid.length_stream (h : p.Valid entrySize) :
    p.stream.length = p.entryCount * entrySize + p.currentPos := by
  rw [stream, List.length_append, h.uniform.length_flatten, entryCount,
    List.length_take_of_le (h.length_current ▸ h.pos_lt.le)]

theorem copyAt_spec (data : Bytes) (pos : ℕ) (hsize : 0 < entrySize) (hu : Uniform entrySize p.written)
    (hc : p.currentEntry.length = entrySize) (hfit : pos + data.length ≤ entrySize) :
    (p.copyAt entrySize data pos).Valid entrySize ∧
      (p.copyAt entrySize data pos).stream =
        p.written.flatten ++ p.currentEntry.take pos ++ data := by
  have hpos : (p.currentEntry.take pos).length = pos := List.length_take_of_le (by omega)
  have hlen : (p.currentEntry.take pos ++ data ++
      p.currentEntry.drop (pos + data.length)).length = entrySize := by
    simp only [List.length_append, hpos, List.length_drop, hc]
    omega
  unfold copyAt
  dsimp only
  split_ifs with hfull
  · have hdrop : p.currentEntry.drop (pos + data.length) = [] :=
      List.drop_eq_nil_iff.2 (by omega)
    refine ⟨valid_emit hsize hu hlen, ?_⟩
    rw [stream_emit]
    simp only [hdrop, List.append_nil, List.append_assoc]
  · refine ⟨⟨hu, hlen, by dsimp only; omega⟩, ?_⟩
    rw [stream]
    dsimp only
    have htake : (p.currentEntry.take pos ++ data).length = pos + data.length := by
      rw [List.length_append, hpos]
    rw [List.take_left' htake, List.append_assoc]

theorem flushEntry_spec (hsize : 0 < entrySize) (h : p.Valid entrySize) :
    (p.flushEntry entrySize).Valid entrySize ∧ (p.flushEntry entrySize).currentPos = 0 ∧
      ∃ padding, (p.flushEntry entrySize).stream = p.stream ++ padding := by
  unfold flushEntry
  split_ifs with hpos
  · refine ⟨valid_emit hsize h.uniform h.length_current, rfl, p.currentEntry.drop p.currentPos, ?_⟩
    rw [stream_emit, stream, List.append_assoc, List.take_append_drop]
  · exact ⟨h, by omega, [], (List.append_nil _).symm⟩

/-- Nothing but whole entries is written out at position 0. -/
theorem stream_of_pos_zero (h : p.currentPos = 0) : p.stream = p.written.flatten := by
  rw [stream, h, List.take_zero, List.append_nil]

theorem spill_spec (hsize : 0 < entrySize) {n : ℕ} (hu : Uniform entrySize p.written)
    (hc : p.currentEntry.length = entrySize) (hlt : n * entrySize < data.length)
    (hle : data.length ≤ (n + 1) * entrySize) :
    (spill entrySize (n + 1) data p).Valid entrySize ∧
      (spill entrySize (n + 1) data p).stream = p.written.flatten ++ data := by
  -- Induction on the entries that are left; all but the last are full.
  induction n generalizing p data with
  | zero =>
    have htake : data.take entrySize = data := List.take_of_length_le (by omega)
    rw [spill, htake]
    have hcopy := copyAt_spec data 0 hsize hu hc (by omega)
    rwa [List.take_zero, List.append_nil] at hcopy
  | succ n ih =>
    have hfull : (data.take entrySize).length = entrySize := by
      rw [List.length_take_of_le]
      rw [add_mul] at hlt
      omega
    have hdrop : p.currentEntry.drop entrySize = [] := List.drop_eq_nil_iff.2 (by omega)
    have hentry : (data.take entrySize ++ p.currentEntry.drop (data.take entrySize).length) =
        data.take entrySize := by rw [hfull, hdrop, List.append_nil]
    rw [spill, hentry]
    have hrest := @ih ⟨p.written ++ [data.take entrySize], List.replicate entrySize 0, 0⟩
      (data.drop entrySize) (hu.concat hfull) (List.length_replicate ..)
      (by rw [List.length_drop]; rw [add_mul] at hlt; omega)
      (by rw [List.length_drop]; rw [add_mul] at hle; omega)
    refine ⟨hrest.1, hrest.2.trans ?_⟩
    rw [List.flatten_append, List.flatten_singleton, List.append_assoc, List.take_append_drop]

/-- A record is appended at the returned location. -/
def Packed (entrySize : ℕ) (p : Packer) (data : Bytes) (q : Packer) (loc : Location) : Prop :=
  q.Valid entrySize ∧ p.stream <+: q.stream ∧
    ∃ first offset, loc = ⟨UInt32.ofNat first, UInt16.ofNat offset,
        UInt8.ofNat (data.length ⌈/⌉ entrySize)⟩ ∧
      PlacedAt entrySize q.stream first offset (data.length ⌈/⌉ entrySize) data

theorem placedAt_append (elements padding data : Bytes) {first offset : ℕ} (count : ℕ)
    (hoffset : offset < entrySize) (hle : offset + data.length ≤ count * entrySize)
    (hlt : (count - 1) * entrySize < offset + data.length)
    (hat : (elements ++ padding).length = first * entrySize + offset) :
    PlacedAt entrySize (elements ++ padding ++ data) first offset count data := by
  refine ⟨hoffset, hle, hlt, ?_⟩
  rw [← hat, List.drop_left]

theorem ceilDiv_eq_one (hpos : 0 < data.length) (hle : data.length ≤ entrySize) :
    data.length ⌈/⌉ entrySize = 1 := by
  have hsize : 0 < entrySize := hpos.trans_le hle
  have hone : data.length ⌈/⌉ entrySize ≤ 1 := by
    rw [ceilDiv_le_iff_le_mul hsize]
    omega
  have hzero : 0 < data.length ⌈/⌉ entrySize := (lt_ceilDiv_iff hsize).2 (by omega)
  omega

/-- **Packing appends.** -/
theorem pack_spec (hsize : 0 < entrySize) (h : p.Valid entrySize) (hpos : 0 < data.length)
    (hcount : data.length ⌈/⌉ entrySize ≤ 255) :
    ∃ q loc, pack entrySize p data = some (q, loc) ∧ Packed entrySize p data q loc := by
  rw [pack, if_neg hpos.ne']
  by_cases hfit : data.length ≤ entrySize - p.currentPos
  · -- It fits behind what is in the current entry.
    have hone := ceilDiv_eq_one hpos (hfit.trans (Nat.sub_le ..))
    have hlt := h.pos_lt
    obtain ⟨hvalid, hstream⟩ := copyAt_spec data p.currentPos hsize h.uniform
      h.length_current (by omega)
    change _ = p.stream ++ data at hstream
    rw [if_pos hfit]
    refine ⟨_, _, rfl, hvalid, ?_, p.entryCount, p.currentPos, by rw [hone]; rfl, ?_⟩
    · rw [hstream]
      exact List.prefix_append ..
    · have hplaced := placedAt_append p.stream [] data 1 hlt (by omega) (by omega)
        (by rw [List.append_nil, h.length_stream])
      rwa [List.append_nil, ← hstream, ← hone] at hplaced
  · -- The entry is closed; the record starts the next one.
    obtain ⟨hflush, hzero, padding, hpadding⟩ := flushEntry_spec hsize h
    have hlength := hflush.length_stream
    rw [if_neg hfit]
    generalize p.flushEntry entrySize = r at *
    rw [hzero] at hlength
    have hwhole : r.written.flatten = p.stream ++ padding := by
      rw [← stream_of_pos_zero hzero, hpadding]
    rw [hpadding] at hlength
    have hfirst : ∀ q : Packer, q.Valid entrySize → q.stream = p.stream ++ padding ++ data →
        Packed entrySize p data q
          ⟨UInt32.ofNat r.entryCount, 0, UInt8.ofNat (data.length ⌈/⌉ entrySize)⟩ := by
      intro q hq hstream
      refine ⟨hq, ?_, r.entryCount, 0, rfl, ?_⟩
      · rw [hstream, List.append_assoc]
        exact List.prefix_append ..
      · rw [hstream]
        refine placedAt_append _ _ _ _ hsize ?_ ?_ hlength
        · have hle := (ceilDiv_le_iff_le_mul hsize).1 (le_refl (data.length ⌈/⌉ entrySize))
          rw [Nat.zero_add, Nat.mul_comm]
          exact hle
        · have hblocks : 0 < data.length ⌈/⌉ entrySize := (lt_ceilDiv_iff hsize).2 (by omega)
          have hlt := (lt_ceilDiv_iff hsize).1 (Nat.sub_lt hblocks Nat.one_pos)
          omega
    by_cases hone : data.length ≤ entrySize
    · rw [if_pos hone]
      obtain ⟨hvalid, hstream⟩ := copyAt_spec data 0 hsize hflush.uniform
        hflush.length_current (by omega)
      rw [List.take_zero, List.append_nil, hwhole] at hstream
      refine ⟨_, _, rfl, ?_⟩
      have hpacked := hfirst _ hvalid hstream
      rwa [ceilDiv_eq_one hpos hone] at hpacked
    · rw [if_neg hone, if_pos hcount]
      refine ⟨_, _, rfl, ?_⟩
      obtain ⟨n, hn⟩ : ∃ n, data.length ⌈/⌉ entrySize = n + 1 :=
        Nat.exists_eq_succ_of_ne_zero ((lt_ceilDiv_iff hsize).2 (by omega)).ne'
      have hlt : n * entrySize < data.length := (lt_ceilDiv_iff hsize).1 (by omega)
      have hle : data.length ≤ (n + 1) * entrySize := by
        rw [Nat.mul_comm]
        exact (ceilDiv_le_iff_le_mul hsize).1 hn.le
      obtain ⟨hvalid, hstream⟩ := spill_spec hsize hflush.uniform hflush.length_current hlt hle
      rw [hwhole, ← hn] at hstream
      rw [← hn] at hvalid
      exact hfirst _ hvalid hstream

theorem uniform_finish (hsize : 0 < entrySize) (h : p.Valid entrySize) :
    Uniform entrySize (p.finish entrySize) := (flushEntry_spec hsize h).1.uniform

/-- The file holds the stream. -/
theorem stream_prefix_finish (hsize : 0 < entrySize) (h : p.Valid entrySize) :
    p.stream <+: (p.finish entrySize).flatten := by
  obtain ⟨-, hzero, padding, hpadding⟩ := flushEntry_spec hsize h
  rw [finish, ← stream_of_pos_zero hzero, hpadding]
  exact List.prefix_append ..

end Stream

end Packer

end BitcoinPir.Onion
