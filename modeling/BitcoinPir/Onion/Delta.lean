import BitcoinPir.Core.Hash
import BitcoinPir.Core.Types
import BitcoinPir.Core.Varint
import BitcoinPir.Foundations.Reader
import BitcoinPir.Onion.Packer

/-!
# Delta records in an OnionPIR database

`deltaGen1Onion` packs the records of a grouped delta file into entries and writes an index record
for each; the index builder makes an INDEX slot of it. The client scans the slot
(`scanIndexBin`), fetches the entries it names and puts them together (`assembleEntryBytes`).

The byte that counts the entries of a record is also the mark of a record that was left out.
`deltaGen1Onion_readsBack_iff` says which records are read as they were written.
-/

namespace BitcoinPir.Onion.Delta

open Foundations HashTree Reader

/-! ## The grouped delta file -/

structure DeltaRecord where
  scriptHash : ScriptHash
  deltaBytes : Bytes

/-- The reader that panics. -/
def readVarint : Reader String UInt64 := fun data =>
  match tryReadVarint data with
  | .ok r => .ok r
  | .error .tooLarge => .error "VarInt too large"
  | .error .truncated => .error "Unexpected end of data while reading varint"

def skipSpent : Reader String Unit := do
  let _ ← take 32 "range start index out of range"
  let _ ← readVarint
  return ()

def skipNew : Reader String Unit := do
  let _ ← take 32 "range start index out of range"
  let _ ← readVarint
  let _ ← readVarint
  return ()

/-- Walks over the body of a record. -/
def skipBody : Reader String Unit := do
  let numSpent ← readVarint
  let _ ← many skipSpent numSpent.toNat
  let numNew ← readVarint
  let _ ← many skipNew numNew.toNat
  return ()

def readBody : Reader String Bytes := fun data =>
  (skipBody data).map fun x => (data.take (data.length - x.2.length), x.2)

def readRecord (i : ℕ) : Reader String DeltaRecord := do
  let scriptHash ← takeArr 20 s!"truncated: scripthash header at entry {i}"
  let deltaBytes ← readBody
  return ⟨scriptHash, deltaBytes⟩

def readFile : Reader String (List DeltaRecord) := do
  let numScripts ← takeU32 "grouped delta file too short"
  manyFrom readRecord 0 numScripts.toNat

/-- The records of a file; what follows them is not looked at. -/
def readGrouped (file : Bytes) : Except String (List DeltaRecord) := (readFile file).map Prod.fst

/-! ## The builder -/

def flagWhale : UInt8 := 0x40

structure IndexRecord where
  scriptHash : ScriptHash
  location : Location

section Builder

variable (entrySize : ℕ)

/-- A record of more than 255 entries is left out. -/
def packRecord (p : Packer) (r : DeltaRecord) : Option (Packer × IndexRecord) :=
  if 255 < r.deltaBytes.length ⌈/⌉ entrySize then some (p, ⟨r.scriptHash, ⟨0, 0, flagWhale⟩⟩)
  else (p.pack entrySize r.deltaBytes).map fun x => (x.1, ⟨r.scriptHash, x.2⟩)

def packAll : List DeltaRecord → Packer → Option (List IndexRecord × Packer)
  | [], p => some ([], p)
  | r :: records, p => do
    let (p, record) ← packRecord entrySize p r
    let (index, p) ← packAll records p
    return (record :: index, p)

structure OnionFiles where
  index : List IndexRecord
  packedEntries : List Bytes

def deltaGen1Onion (file : Bytes) : Except String OnionFiles := do
  let records ← readGrouped file
  match packAll entrySize records (Packer.new entrySize) with
  | some (index, p) => return ⟨index, p.finish entrySize⟩
  | none => .error "delta data exceeds u8"

end Builder

/-- The slot that the index builder makes of an index record. -/
def indexSlot (tagSeed : UInt64) (r : IndexRecord) : Bytes :=
  leBytes 8 (computeTag tagSeed r.scriptHash).toNat ++
    (leBytes 4 r.location.entryId.toNat ++
      (leBytes 2 r.location.byteOffset.toNat ++ [r.location.numEntries]))

/-! ## The client -/

def whaleNumEntries : UInt8 := 0x40

def field (bin : Bytes) (off width : ℕ) : ℕ := leNat ((bin.drop off).take width)

/-- The slots from a position on. -/
def scanSlots (bin : Bytes) (tag : UInt64) (slotSize : ℕ) : ℕ → ℕ → Option Location
  | 0, _ => none
  | n + 1, slot =>
    let off := slot * slotSize
    if bin.length < off + slotSize then none
    else
      let slotTag := UInt64.ofNat (field bin off 8)
      if slotTag = tag ∧ slotTag ≠ 0 then
        let numEntries := UInt8.ofNat (field bin (off + 14) 1)
        some ⟨UInt32.ofNat (field bin (off + 8) 4), UInt16.ofNat (field bin (off + 12) 2),
          if numEntries = whaleNumEntries then 0 else numEntries⟩
      else scanSlots bin tag slotSize n (slot + 1)

def scanIndexBin (entryBytes : Bytes) (tag : UInt64) (slotsPerBin slotSize : ℕ) : Option Location :=
  scanSlots entryBytes tag slotSize slotsPerBin 0

def assembleEntryBytes (ir : Location) (chunkData : UInt32 → Option Bytes) (dbId : UInt8) :
    PirResult Bytes := do
  let pieces ← (List.range ir.numEntries.toNat).mapM fun i => do
    let eid := ir.entryId + UInt32.ofNat i
    match chunkData eid with
    | none => throw (.invalidState s!"missing decrypted entry_id {eid} (db_id={dbId})")
    | some entry =>
      if i = 0 then
        if entry.length < ir.byteOffset.toNat then
          throw (.protocol
            s!"byte_offset {ir.byteOffset} exceeds entry size {entry.length}")
        else return entry.drop ir.byteOffset.toNat
      else return entry
  return pieces.flatten

/-! ## Bodies are not empty -/

variable {data rest : Bytes}

theorem readVarintFrom_length {result v : UInt64} {shift : ℕ}
    (h : readVarintFrom result shift data = .ok (v, rest)) : rest.length < data.length := by
  induction data generalizing result shift with
  | nil => cases h
  | cons byte data ih =>
    rw [readVarintFrom] at h
    split_ifs at h
    · cases h
      exact Nat.lt_succ_self _
    · exact (ih h).trans (Nat.lt_succ_self _)

theorem readVarint_length {v : UInt64} (h : readVarint data = .ok (v, rest)) :
    rest.length < data.length := by
  rw [readVarint] at h
  split at h
  next r hr =>
    cases h
    exact readVarintFrom_length hr
  next => cases h
  next => cases h

theorem take_length {n : ℕ} {e : String} {x : Bytes}
    (h : (take n e : Reader String Bytes) data = .ok (x, rest)) :
    rest.length ≤ data.length := by
  obtain ⟨rfl, -⟩ := take_eq_ok.1 h
  rw [List.length_append]
  exact Nat.le_add_left ..

theorem many_length {p : Reader String Unit}
    (hp : ∀ {data rest : Bytes}, p data = .ok ((), rest) → rest.length ≤ data.length) {n : ℕ}
    {us : List Unit} (h : many p n data = .ok (us, rest)) :
    rest.length ≤ data.length := by
  induction n generalizing us data with
  | zero =>
    obtain ⟨-, rfl⟩ := pure_eq_ok.1 h
    exact le_rfl
  | succ n ih =>
    simp only [many, Reader.bind_eq_ok, pure_eq_ok] at h
    obtain ⟨_, _, h1, _, _, h2, -, rfl⟩ := h
    exact (ih h2).trans (hp h1)

theorem skipSpent_length (h : skipSpent data = .ok ((), rest)) :
    rest.length ≤ data.length := by
  simp only [skipSpent, Reader.bind_eq_ok, pure_eq_ok] at h
  obtain ⟨_, _, h1, _, _, h2, -, rfl⟩ := h
  exact (readVarint_length h2).le.trans (take_length h1)

theorem skipNew_length (h : skipNew data = .ok ((), rest)) :
    rest.length ≤ data.length := by
  simp only [skipNew, Reader.bind_eq_ok, pure_eq_ok] at h
  obtain ⟨_, _, h1, _, _, h2, _, _, h3, -, rfl⟩ := h
  exact (readVarint_length h3).le.trans ((readVarint_length h2).le.trans (take_length h1))

theorem skipBody_length (h : skipBody data = .ok ((), rest)) :
    rest.length < data.length := by
  simp only [skipBody, Reader.bind_eq_ok, pure_eq_ok] at h
  obtain ⟨_, _, h1, _, _, h2, _, _, h3, _, _, h4, -, rfl⟩ := h
  have hspent := many_length skipSpent_length h2
  have hnew := many_length skipNew_length h4
  exact (hnew.trans_lt (readVarint_length h3)).trans_le
    (hspent.trans (readVarint_length h1).le)

theorem readBody_pos {x : Bytes} (h : readBody data = .ok (x, rest)) : 0 < x.length := by
  rw [readBody] at h
  cases hskip : skipBody data with
  | error e =>
    rw [hskip] at h
    cases h
  | ok y =>
    rw [hskip] at h
    cases h
    have hlt := skipBody_length hskip
    rw [List.length_take]
    omega

theorem manyFrom_pos {i n : ℕ} {records : List DeltaRecord}
    (h : manyFrom readRecord i n data = .ok (records, rest)) :
    ∀ r ∈ records, 0 < r.deltaBytes.length := by
  induction n generalizing i records data rest with
  | zero =>
    obtain ⟨rfl, -⟩ := pure_eq_ok.1 h
    exact fun r hr => absurd hr List.not_mem_nil
  | succ n ih =>
    simp only [manyFrom, readRecord, Reader.bind_eq_ok, pure_eq_ok] at h
    obtain ⟨_, _, ⟨_, _, _, _, _, hbody, rfl, _⟩, _, _, h2, rfl, _⟩ := h
    intro r hr
    rcases List.mem_cons.1 hr with rfl | hr
    · exact readBody_pos hbody
    · exact ih h2 r hr

theorem readGrouped_pos {file : Bytes} {records : List DeltaRecord}
    (h : readGrouped file = .ok records) : ∀ r ∈ records, 0 < r.deltaBytes.length := by
  rw [readGrouped] at h
  cases hfile : readFile file with
  | error e =>
    rw [hfile] at h
    cases h
  | ok x =>
    rw [hfile] at h
    cases h
    obtain ⟨_, _, -, hrest⟩ := Reader.bind_eq_ok.1 hfile
    exact manyFrom_pos hrest

/-! ## What the builder writes -/

/-- The index record of a record whose bytes, unless it was left out, are in the entries. -/
structure Recorded (entrySize : ℕ) (entries : Bytes) (r : DeltaRecord) (ir : IndexRecord) : Prop where
  scriptHash_eq : ir.scriptHash = r.scriptHash
  whale : 255 < r.deltaBytes.length ⌈/⌉ entrySize → ir.location = ⟨0, 0, flagWhale⟩
  placed : r.deltaBytes.length ⌈/⌉ entrySize ≤ 255 → ∃ first offset,
    ir.location = ⟨UInt32.ofNat first, UInt16.ofNat offset,
      UInt8.ofNat (r.deltaBytes.length ⌈/⌉ entrySize)⟩ ∧
    PlacedAt entrySize entries first offset (r.deltaBytes.length ⌈/⌉ entrySize) r.deltaBytes

section Built

variable {entrySize : ℕ} {entries entries' : Bytes} {r : DeltaRecord} {ir : IndexRecord}

theorem Recorded.mono (h : Recorded entrySize entries r ir) (hp : entries <+: entries') :
    Recorded entrySize entries' r ir where
  scriptHash_eq := h.scriptHash_eq
  whale := h.whale
  placed hle := by
    obtain ⟨first, offset, hloc, hplaced⟩ := h.placed hle
    exact ⟨first, offset, hloc, hplaced.mono hp⟩

theorem packRecord_spec (hsize : 0 < entrySize) {p : Packer} (hp : p.Valid entrySize)
    (hpos : 0 < r.deltaBytes.length) :
    ∃ q ir, packRecord entrySize p r = some (q, ir) ∧ q.Valid entrySize ∧
      p.stream <+: q.stream ∧ Recorded entrySize q.stream r ir := by
  rw [packRecord]
  split_ifs with hwhale
  · exact ⟨p, _, rfl, hp, List.prefix_rfl, rfl, fun _ => rfl, fun hle => absurd hwhale hle.not_gt⟩
  · obtain ⟨q, loc, hpack, hq, hprefix, hloc⟩ := Packer.pack_spec hsize hp hpos (not_lt.1 hwhale)
    rw [hpack]
    exact ⟨q, _, rfl, hq, hprefix, rfl, fun h => absurd h hwhale, fun _ => hloc⟩

/-- The builder never fails its assertion, and every record stays where it was put. -/
theorem packAll_spec (hsize : 0 < entrySize) {records : List DeltaRecord} {p : Packer}
    (hp : p.Valid entrySize) (hpos : ∀ r ∈ records, 0 < r.deltaBytes.length) :
    ∃ index q, packAll entrySize records p = some (index, q) ∧ q.Valid entrySize ∧
      p.stream <+: q.stream ∧ List.Forall₂ (Recorded entrySize q.stream) records index := by
  induction records generalizing p with
  | nil => exact ⟨[], p, rfl, hp, List.prefix_rfl, .nil⟩
  | cons r records ih =>
    obtain ⟨q, ir, hrecord, hq, hpq, hr⟩ := packRecord_spec hsize hp (hpos r List.mem_cons_self)
    obtain ⟨index, q', hrest, hq', hqq', hindex⟩ :=
      ih hq fun r' hr' => hpos r' (List.mem_cons_of_mem _ hr')
    refine ⟨ir :: index, q', ?_, hq', hpq.trans hqq', .cons (hr.mono hqq') hindex⟩
    rw [packAll, hrecord]
    simp only [Option.bind_eq_bind, Option.bind_some, hrest]
    rfl

theorem deltaGen1Onion_spec {entrySize : ℕ} (hsize : 0 < entrySize) {file : Bytes} {records : List DeltaRecord}
    (hread : readGrouped file = .ok records) :
    ∃ files, deltaGen1Onion entrySize file = .ok files ∧ Uniform entrySize files.packedEntries ∧
      List.Forall₂ (Recorded entrySize files.packedEntries.flatten) records files.index := by
  obtain ⟨index, q, hpack, hq, -, hindex⟩ :=
    packAll_spec hsize (Packer.valid_new hsize) (readGrouped_pos hread)
  refine ⟨⟨index, q.finish entrySize⟩, ?_, Packer.uniform_finish hsize hq, ?_⟩
  · rw [deltaGen1Onion, hread]
    change (match packAll entrySize records (Packer.new entrySize) with
      | some (index, p) => (return ⟨index, p.finish entrySize⟩ : Except String OnionFiles)
      | none => .error "delta data exceeds u8") = _
    rw [hpack]
    rfl
  · exact hindex.imp fun _ _ h => h.mono (Packer.stream_prefix_finish hsize hq)

end Built

/-! ## What the client reads -/

theorem field_append {pre post : Bytes} {off width n : ℕ} (hoff : pre.length = off)
    (hn : n < 256 ^ width) : field (pre ++ (leBytes width n ++ post)) off width = n := by
  rw [field, List.drop_left' hoff, List.take_left' (length_leBytes width n), leNat_leBytes_of_lt hn]

/-- The slot comes back as it was made, with the mark read as no entries. -/
theorem scanIndexBin_indexSlot (tagSeed : UInt64) (ir : IndexRecord) :
    scanIndexBin (indexSlot tagSeed ir) (computeTag tagSeed ir.scriptHash) 1 15 =
      if computeTag tagSeed ir.scriptHash = 0 then none
      else some ⟨ir.location.entryId, ir.location.byteOffset,
        if ir.location.numEntries = whaleNumEntries then 0 else ir.location.numEntries⟩ := by
  obtain ⟨scriptHash, entryId, byteOffset, numEntries⟩ := ir
  generalize htag : computeTag tagSeed scriptHash = tag
  have hbin : indexSlot tagSeed ⟨scriptHash, entryId, byteOffset, numEntries⟩ =
      leBytes 8 tag.toNat ++ (leBytes 4 entryId.toNat ++
        (leBytes 2 byteOffset.toNat ++ [numEntries])) := by rw [indexSlot, htag]
  rw [hbin]
  have hf0 : ∀ post : Bytes, field (leBytes 8 tag.toNat ++ post) 0 8 = tag.toNat := fun post =>
    @field_append [] post 0 8 _ rfl tag.toNat_lt
  have hf8 : ∀ post : Bytes, field (leBytes 8 tag.toNat ++ (leBytes 4 entryId.toNat ++ post)) 8 4 =
      entryId.toNat := fun post => field_append (length_leBytes 8 _) entryId.toNat_lt
  have hf12 := @field_append (leBytes 8 tag.toNat ++ leBytes 4 entryId.toNat) [numEntries] 12 2
    byteOffset.toNat (by simp) byteOffset.toNat_lt
  have hf14 := @field_append (leBytes 8 tag.toNat ++ leBytes 4 entryId.toNat ++
    leBytes 2 byteOffset.toNat) [] 14 1 numEntries.toNat (by simp) numEntries.toNat_lt
  have hone : leBytes 1 numEntries.toNat ++ [] = [numEntries] := by simp [leBytes]
  rw [hone] at hf14
  simp only [List.append_assoc] at hf12 hf14
  rw [scanIndexBin, scanSlots]
  simp only [Nat.zero_mul, Nat.zero_add, hf0, hf8, hf12, hf14, UInt64.ofNat_toNat,
    UInt32.ofNat_toNat, UInt16.ofNat_toNat, UInt8.ofNat_toNat, true_and]
  have hlen : ¬(leBytes 8 tag.toNat ++ (leBytes 4 entryId.toNat ++
      (leBytes 2 byteOffset.toNat ++ [numEntries]))).length < 15 := by simp
  rw [if_neg hlen]
  by_cases hzero : tag = 0
  · rw [if_neg (not_not.2 hzero), if_pos hzero]
    rfl
  · rw [if_pos hzero, if_neg hzero]

section Assemble

variable {entrySize : ℕ} {packed : List Bytes} {chunkData : UInt32 → Option Bytes}

/-- Every packed entry is fetched under its number. -/
def ServesEntries (chunkData : UInt32 → Option Bytes) (packed : List Bytes) : Prop :=
  ∀ j entry, packed[j]? = some entry → chunkData (UInt32.ofNat j) = some entry

theorem fetch_eq (hserves : ServesEntries chunkData packed) {first i : ℕ}
    (hi : first + i < packed.length) :
    chunkData (UInt32.ofNat first + UInt32.ofNat i) = some packed[first + i] := by
  rw [← UInt32.ofNat_add]
  exact hserves _ _ (List.getElem?_eq_getElem hi)

theorem assembleEntryBytes_eq {first offset count : ℕ} (hu : Uniform entrySize packed)
    (hoffset : offset < entrySize) (hsize : entrySize ≤ 2 ^ 16) (hpos : 0 < count)
    (hcount : count ≤ 255) (hlt : ∀ i < count, first + i < packed.length)
    (hserves : ServesEntries chunkData packed) (dbId : UInt8) :
    assembleEntryBytes ⟨UInt32.ofNat first, UInt16.ofNat offset, UInt8.ofNat count⟩ chunkData dbId =
      .ok (((packed.drop first).take count).flatten.drop offset) := by
  have hnum : (UInt8.ofNat count).toNat = count :=
    UInt8.toNat_ofNat_of_lt' (Nat.lt_succ_of_le hcount)
  have hoff : (UInt16.ofNat offset).toNat = offset :=
    UInt16.toNat_ofNat_of_lt' (hoffset.trans_le hsize)
  obtain ⟨n, rfl⟩ := Nat.exists_eq_succ_of_ne_zero hpos.ne'
  have hfirst : first < packed.length := hlt 0 hpos
  have hlen : packed[first].length = entrySize := hu _ (List.getElem_mem hfirst)
  have hblocks : (packed.drop first).take (n + 1) =
      packed[first] :: (packed.drop (first + 1)).take n := by
    rw [List.drop_eq_getElem_cons hfirst, List.take_succ_cons]
  have hflatten : ((packed.drop first).take (n + 1)).flatten.drop offset =
      (packed[first].drop offset :: (packed.drop (first + 1)).take n).flatten := by
    rw [hblocks, List.flatten_cons, List.flatten_cons, List.drop_append_of_le_length (by omega)]
  unfold assembleEntryBytes
  dsimp only
  rw [hnum, hoff, List.range_succ_eq_map, hflatten]
  refine bind_eq_ok.2 ⟨_, mapM_eq_ok.2 (.cons ?_ ?_), rfl⟩
  · rw [fetch_eq hserves (hlt 0 hpos)]
    dsimp only [Nat.add_zero]
    rw [if_pos rfl, if_neg (by omega)]
    rfl
  · rw [List.forall₂_map_left_iff, List.forall₂_iff_get]
    have hrest : ((packed.drop (first + 1)).take n).length = n := by
      have hlast := hlt n (Nat.lt_succ_self n)
      rw [List.length_take_of_le]
      rw [List.length_drop]
      omega
    refine ⟨by rw [List.length_range, hrest], fun i hi hi' => ?_⟩
    have hentry : first + (i + 1) < packed.length := hlt (i + 1) (by omega)
    simp only [List.get_eq_getElem, List.getElem_range, List.getElem_take, List.getElem_drop]
    rw [fetch_eq hserves hentry]
    simp only [Nat.succ_ne_zero, if_false, show first + (i + 1) = first + 1 + i by omega]
    rfl

end Assemble

/-- A record is classified as left out exactly if it was, and otherwise read with its own bytes
first. -/
def ReadsBack (entrySize : ℕ) (tagSeed : UInt64) (packed : List Bytes) (r : DeltaRecord)
    (ir : IndexRecord) : Prop :=
  ∃ found, scanIndexBin (indexSlot tagSeed ir) (computeTag tagSeed r.scriptHash) 1 15 = some found ∧
    (found.numEntries = 0 ↔ 255 < r.deltaBytes.length ⌈/⌉ entrySize) ∧
    (r.deltaBytes.length ⌈/⌉ entrySize ≤ 255 → ∀ chunkData dbId, ServesEntries chunkData packed →
      ∃ raw, assembleEntryBytes found chunkData dbId = .ok raw ∧ r.deltaBytes <+: raw)

section ReadBack

variable {entrySize : ℕ} {packed : List Bytes} {r : DeltaRecord} {ir : IndexRecord}

theorem numEntries_ne_zero {count : ℕ} (hpos : 0 < count) (hcount : count ≤ 255) :
    UInt8.ofNat count ≠ 0 := by
  intro h
  have hnat := congrArg UInt8.toNat h
  rw [UInt8.toNat_ofNat_of_lt' (Nat.lt_succ_of_le hcount)] at hnat
  exact hpos.ne' hnat

theorem numEntries_eq_whale_iff {count : ℕ} (hcount : count ≤ 255) :
    UInt8.ofNat count = whaleNumEntries ↔ count = 64 := by
  rw [← UInt8.toNat_inj, UInt8.toNat_ofNat_of_lt' (Nat.lt_succ_of_le hcount)]
  rfl

/-- A record whose count is the mark is found, without entries. -/
theorem Recorded.misread {entries : Bytes} (h : Recorded entrySize entries r ir)
    (hmark : r.deltaBytes.length ⌈/⌉ entrySize = 64) {tagSeed : UInt64}
    (htag : computeTag tagSeed r.scriptHash ≠ 0) :
    (scanIndexBin (indexSlot tagSeed ir) (computeTag tagSeed r.scriptHash) 1 15).map
      Location.numEntries = some 0 := by
  have hin : r.deltaBytes.length ⌈/⌉ entrySize ≤ 255 := hmark.le.trans (by decide)
  obtain ⟨first, offset, hloc, -⟩ := h.placed hin
  have hscan := scanIndexBin_indexSlot tagSeed ir
  rw [h.scriptHash_eq, if_neg htag, hloc, if_pos ((numEntries_eq_whale_iff hin).2 hmark)] at hscan
  rw [hscan]
  rfl

theorem Recorded.readsBack_iff (hsize : 0 < entrySize) (hle : entrySize ≤ 2 ^ 16)
    (hu : Uniform entrySize packed) (h : Recorded entrySize packed.flatten r ir)
    (hpos : 0 < r.deltaBytes.length) (tagSeed : UInt64) :
    ReadsBack entrySize tagSeed packed r ir ↔
      computeTag tagSeed r.scriptHash ≠ 0 ∧ r.deltaBytes.length ⌈/⌉ entrySize ≠ 64 := by
  have hblocks : 0 < r.deltaBytes.length ⌈/⌉ entrySize := (lt_ceilDiv_iff hsize).2 (by omega)
  have hscan := scanIndexBin_indexSlot tagSeed ir
  rw [h.scriptHash_eq] at hscan
  by_cases htag : computeTag tagSeed r.scriptHash = 0
  · rw [if_pos htag] at hscan
    constructor
    · rintro ⟨found, hfound, -⟩
      rw [hscan] at hfound
      cases hfound
    · exact fun hcond => absurd htag hcond.1
  rw [if_neg htag] at hscan
  rcases lt_or_ge 255 (r.deltaBytes.length ⌈/⌉ entrySize) with hwhale | hin
  · rw [h.whale hwhale] at hscan
    refine ⟨fun _ => ⟨htag, by omega⟩, fun _ => ⟨_, hscan, ?_, fun hin => ?_⟩⟩
    · exact ⟨fun _ => hwhale, fun _ => rfl⟩
    · exact absurd hwhale hin.not_gt
  · obtain ⟨first, offset, hloc, hplaced⟩ := h.placed hin
    by_cases hmark : r.deltaBytes.length ⌈/⌉ entrySize = 64
    · constructor
      · rintro ⟨found, hfound, hclass, -⟩
        have hzero := h.misread hmark htag
        rw [hfound] at hzero
        exact absurd (hclass.1 (Option.some_inj.1 hzero)) hin.not_gt
      · exact fun hcond => absurd hmark hcond.2
    · rw [hloc] at hscan
      rw [if_neg fun hw => hmark ((numEntries_eq_whale_iff hin).1 hw)] at hscan
      refine ⟨fun _ => ⟨htag, hmark⟩, fun _ => ⟨_, hscan, ?_, fun _ chunkData dbId hserves => ?_⟩⟩
      · exact ⟨fun hzero => absurd hzero (numEntries_ne_zero hblocks hin),
          fun hwhale => absurd hwhale hin.not_gt⟩
      · have hlt : ∀ i < r.deltaBytes.length ⌈/⌉ entrySize, first + i < packed.length :=
          fun i hi => hplaced.lt_length hu (List.length_pos_iff.1 hpos) hi
        exact ⟨_, assembleEntryBytes_eq hu hplaced.offset_lt hle hblocks hin hlt hserves dbId,
          hplaced.prefix_blocks hu⟩

end ReadBack

/-- **Delta records are read as written**, for every file that is accepted and every record of it,
iff the fingerprint of the script hash is not that of an empty slot and the record does not take up
exactly 64 entries. -/
theorem deltaGen1Onion_readsBack_iff {entrySize : ℕ} (hsize : 0 < entrySize) (hle : entrySize ≤ 2 ^ 16)
    (tagSeed : UInt64) {file : Bytes} {records : List DeltaRecord} {files : OnionFiles}
    (hread : readGrouped file = .ok records) (hfiles : deltaGen1Onion entrySize file = .ok files)
    {i : ℕ} {r : DeltaRecord} (hr : records[i]? = some r) :
    ∃ ir, files.index[i]? = some ir ∧
      (ReadsBack entrySize tagSeed files.packedEntries r ir ↔
        computeTag tagSeed r.scriptHash ≠ 0 ∧ r.deltaBytes.length ⌈/⌉ entrySize ≠ 64) := by
  obtain ⟨files', hfiles', hu, hindex⟩ := deltaGen1Onion_spec hsize hread
  rw [hfiles] at hfiles'
  cases hfiles'
  obtain ⟨hi, rfl⟩ := List.getElem?_eq_some_iff.1 hr
  have hi' : i < files.index.length := hindex.length_eq ▸ hi
  have hrecorded := hindex.get hi hi'
  exact ⟨_, List.getElem?_eq_getElem hi', hrecorded.readsBack_iff hsize hle hu
    (readGrouped_pos hread _ (List.getElem_mem hi)) tagSeed⟩

namespace OneRecord

def scriptHash : ScriptHash := ⟨List.replicate 20 1, rfl⟩

/-- A record with the given number of spent outpoints, all bytes of them zero, and nothing new;
`count` is the varint of their number. -/
def body (count : Bytes) (numSpent : ℕ) : Bytes :=
  count ++ (List.replicate (33 * numSpent) 0 ++ [0])

def file (count : Bytes) (numSpent : ℕ) : Bytes :=
  leBytes 4 1 ++ (scriptHash.val ++ body count numSpent)

theorem many_skipSpent (n : ℕ) (rest : Bytes) :
    many skipSpent n (List.replicate (33 * n) 0 ++ rest) =
      .ok (List.replicate n (), rest) := by
  induction n with
  | zero => rfl
  | succ n ih =>
    have hsplit : List.replicate (33 * (n + 1)) (0 : UInt8) ++ rest =
        List.replicate 32 0 ++ (0 :: (List.replicate (33 * n) 0 ++ rest)) := by
      rw [show 33 * (n + 1) = 32 + (1 + 33 * n) by ring, List.replicate_add, List.replicate_add,
        List.append_assoc, List.append_assoc]
      rfl
    have hone : skipSpent (List.replicate 32 0 ++ (0 :: (List.replicate (33 * n) 0 ++ rest))) =
        .ok ((), List.replicate (33 * n) 0 ++ rest) := by
      refine Reader.bind_eq_ok.2 ⟨_, _, take_eq_ok.2 ⟨rfl, rfl⟩, ?_⟩
      exact Reader.bind_eq_ok.2 ⟨0, _, rfl, rfl⟩
    rw [hsplit]
    exact Reader.bind_eq_ok.2 ⟨(), _, hone, Reader.bind_eq_ok.2 ⟨_, _, ih, rfl⟩⟩

theorem readGrouped_file {count : Bytes} {numSpent : UInt64}
    (hcount : ∀ rest, readVarint (count ++ rest) = .ok (numSpent, rest)) :
    readGrouped (file count numSpent.toNat) =
      .ok [⟨scriptHash, body count numSpent.toNat⟩] := by
  have hskip : skipBody (body count numSpent.toNat) = .ok ((), []) :=
    Reader.bind_eq_ok.2 ⟨_, _, hcount _, Reader.bind_eq_ok.2 ⟨_, _, many_skipSpent _ _,
      Reader.bind_eq_ok.2 ⟨0, [], rfl, rfl⟩⟩⟩
  have hbody : readBody (body count numSpent.toNat) = .ok (body count numSpent.toNat, []) := by
    rw [readBody, hskip]
    simp [Except.map]
  have hrecord : readRecord 0 (scriptHash.val ++ body count numSpent.toNat) =
      .ok (⟨scriptHash, body count numSpent.toNat⟩, []) :=
    Reader.bind_eq_ok.2 ⟨_, _, takeArr_eq_ok.2 rfl,
      Reader.bind_eq_ok.2 ⟨_, _, hbody, rfl⟩⟩
  have hfile : readFile (file count numSpent.toNat) =
      .ok ([⟨scriptHash, body count numSpent.toNat⟩], []) :=
    Reader.bind_eq_ok.2 ⟨1, _, takeU32_eq_ok.2 rfl,
      Reader.bind_eq_ok.2 ⟨_, _, hrecord, rfl⟩⟩
  rw [readGrouped, hfile]
  rfl

theorem computeTag_ne_zero : computeTag 0 scriptHash ≠ 0 := by decide +kernel

/-- The record of a file that takes up 64 entries is read as left out. -/
theorem misread_of_blocks {file bytes : Bytes}
    (hread : readGrouped file = .ok [⟨scriptHash, bytes⟩])
    (hblocks : bytes.length ⌈/⌉ 3328 = 64) : ∃ files ir,
    deltaGen1Onion 3328 file = .ok files ∧ files.index = [ir] ∧
    (scanIndexBin (indexSlot 0 ir) (computeTag 0 scriptHash) 1 15).map Location.numEntries =
      some 0 := by
  obtain ⟨files, hfiles, -, hindex⟩ := @deltaGen1Onion_spec 3328 (by decide) _ _ hread
  obtain ⟨ir, rest, hir, hrest, heq⟩ := List.forall₂_cons_left_iff.1 hindex
  rw [List.forall₂_nil_left_iff.1 hrest] at heq
  exact ⟨files, ir, hfiles, heq, hir.misread hblocks computeTag_ne_zero⟩

end OneRecord

open OneRecord in
/-- A record of 300 spent outpoints spills over three entries and is read back. -/
theorem deltaGen1Onion_readsBack_iff_threeEntries : ∃ files ir,
    (body [0xac, 0x02] 300).length ⌈/⌉ 3328 = 3 ∧
    deltaGen1Onion 3328 (file [0xac, 0x02] 300) = .ok files ∧ files.index[0]? = some ir ∧
    ReadsBack 3328 0 files.packedEntries ⟨scriptHash, body [0xac, 0x02] 300⟩ ir := by
  have hread : readGrouped (file [0xac, 0x02] 300) = .ok [⟨scriptHash, body [0xac, 0x02] 300⟩] :=
    @readGrouped_file [0xac, 0x02] (UInt64.ofNat 300) fun _ => rfl
  have hblocks : (body [0xac, 0x02] 300).length ⌈/⌉ 3328 = 3 := by
    rw [body, List.length_append, List.length_append, List.length_replicate]
    decide +kernel
  obtain ⟨files, hfiles, -⟩ := @deltaGen1Onion_spec 3328 (by decide) _ _ hread
  obtain ⟨ir, hir, hiff⟩ := deltaGen1Onion_readsBack_iff (by decide) (by decide) 0 hread hfiles (i := 0) rfl
  exact ⟨files, ir, hblocks, hfiles, hir, hiff.2 ⟨computeTag_ne_zero, by rw [hblocks]; decide⟩⟩

open OneRecord in
/-- A record of 6400 spent outpoints takes up 64 entries of the production size. It is packed, and
read as left out. -/
theorem sixtyFour_entries_misread : ∃ files ir,
    readGrouped (file [0x80, 0x32] 6400) = .ok [⟨scriptHash, body [0x80, 0x32] 6400⟩] ∧
    deltaGen1Onion 3328 (file [0x80, 0x32] 6400) = .ok files ∧ files.index = [ir] ∧
    (body [0x80, 0x32] 6400).length ⌈/⌉ 3328 = 64 ∧
    (scanIndexBin (indexSlot 0 ir) (computeTag 0 scriptHash) 1 15).map Location.numEntries =
      some 0 := by
  have hread : readGrouped (file [0x80, 0x32] 6400) =
      .ok [⟨scriptHash, body [0x80, 0x32] 6400⟩] :=
    @readGrouped_file [0x80, 0x32] (UInt64.ofNat 6400) fun _ => rfl
  have hblocks : (body [0x80, 0x32] 6400).length ⌈/⌉ 3328 = 64 := by
    rw [body, List.length_append, List.length_append, List.length_replicate]
    decide +kernel
  obtain ⟨files, ir, hfiles, hindex, hscan⟩ := misread_of_blocks hread hblocks
  exact ⟨files, ir, hread, hfiles, hindex, hblocks, hscan⟩

end BitcoinPir.Onion.Delta
