import BitcoinPir.Sync.Records
import BitcoinPir.Sync.Step

/-!
# Snapshot records

A record of a snapshot is the number of its outputs and then the outputs, with their variable-length
numbers. The two decoders of the client read a record back, whatever it is padded with
(`decodeUtxoEntries_serialize`, `parseUtxoData_serialize`). Bytes that no builder wrote can hold
numbers that the fields of an entry have no room for. Those are cut to size: a decoded entry has the
values stored exactly if they fit (`utxos_exact_iff`).
-/

namespace BitcoinPir.Sync

open Foundations

/-! ## The builder -/

structure ShortenedEntry where
  txid : Digest 32
  vout : UInt32
  amount : UInt64
  height : UInt32
  deriving DecidableEq

/-- What is stored of an entry. -/
def ShortenedEntry.utxo (e : ShortenedEntry) : UtxoEntry := ⟨e.txid, e.vout, e.amount⟩

def serializeEntry (e : ShortenedEntry) : Bytes :=
  e.txid.val ++ (writeVarint e.vout.toUInt64 ++ writeVarint e.amount)

def serializeGroupSorted (entries : List ShortenedEntry) : Bytes :=
  writeVarint (UInt64.ofNat entries.length) ++ entries.flatMap serializeEntry

/-! ## The decoder of the core library -/

def parseUtxoEntries : ℕ → Bytes → List UtxoEntry
  | 0, _ => []
  | n + 1, data =>
    if data.length < 32 then []
    else
      match tryReadVarint (data.drop 32) with
      | .error _ => []
      | .ok (vout, rest) =>
        match tryReadVarint rest with
        | .error _ => []
        | .ok (amount, rest) => ⟨Digest.read 32 data, vout.toUInt32, amount⟩ :: parseUtxoEntries n rest

/-- Malformed data ends the list. -/
def parseUtxoData (data : Bytes) : List UtxoEntry :=
  match tryReadVarint data with
  | .error _ => []
  | .ok (count, rest) => parseUtxoEntries count.toNat rest

/-! ## Records are read back -/

theorem serializeEntry_append (e : ShortenedEntry) (rest : Bytes) :
    ¬(serializeEntry e ++ rest).length < 32 ∧
      Digest.read 32 (serializeEntry e ++ rest) = e.txid ∧
      (serializeEntry e ++ rest).drop 32 =
        writeVarint e.vout.toUInt64 ++ (writeVarint e.amount ++ rest) := by
  have htxid : e.txid.val.length = 32 := e.txid.property
  rw [serializeEntry, List.append_assoc, List.append_assoc]
  refine ⟨?_, ?_, List.drop_left' htxid⟩
  · rw [List.length_append]
    omega
  · exact Digest.read_append ..

theorem decodeUtxoEntriesFrom_serialize (entries : List ShortenedEntry) (rest : Bytes) :
    decodeUtxoEntriesFrom entries.length (entries.flatMap serializeEntry ++ rest) =
      .ok (entries.map ShortenedEntry.utxo) := by
  induction entries with
  | nil => rfl
  | cons e entries ih =>
    rw [List.flatMap_cons, List.append_assoc, List.length_cons, decodeUtxoEntriesFrom]
    obtain ⟨hlen, htxid, hdrop⟩ := serializeEntry_append e (entries.flatMap serializeEntry ++ rest)
    have hne : ∀ (value : UInt64) (tail : Bytes), writeVarint value ++ tail ≠ [] := fun value tail h =>
      writeVarint_ne_nil value (List.append_eq_nil_iff.1 h).1
    rw [if_neg hlen, htxid, hdrop]
    rw [if_neg (hne _ _), tryReadVarint_write]
    dsimp only
    rw [if_neg (hne _ _), tryReadVarint_write]
    dsimp only
    rw [ih, UInt32.toUInt32_toUInt64]
    rfl

theorem parseUtxoEntries_serialize (entries : List ShortenedEntry) (rest : Bytes) :
    parseUtxoEntries entries.length (entries.flatMap serializeEntry ++ rest) =
      entries.map ShortenedEntry.utxo := by
  induction entries with
  | nil => rfl
  | cons e entries ih =>
    rw [List.flatMap_cons, List.append_assoc, List.length_cons, parseUtxoEntries]
    obtain ⟨hlen, htxid, hdrop⟩ := serializeEntry_append e (entries.flatMap serializeEntry ++ rest)
    rw [if_neg hlen, htxid, hdrop, tryReadVarint_write]
    dsimp only
    rw [tryReadVarint_write]
    dsimp only
    rw [ih, UInt32.toUInt32_toUInt64]
    rfl

theorem decodeUtxoEntries_serialize {entries : List ShortenedEntry} (hlen : entries.length < 2 ^ 64)
    (rest : Bytes) : decodeUtxoEntries (serializeGroupSorted entries ++ rest) =
      .ok (entries.map ShortenedEntry.utxo) := by
  rw [decodeUtxoEntries, serializeGroupSorted, List.append_assoc, if_neg, tryReadVarint_write]
  · dsimp only
    rw [toNat_ofNat_length hlen, decodeUtxoEntriesFrom_serialize]
  · exact fun h => writeVarint_ne_nil _ (List.append_eq_nil_iff.1 h).1

theorem parseUtxoData_serialize {entries : List ShortenedEntry} (hlen : entries.length < 2 ^ 64)
    (rest : Bytes) : parseUtxoData (serializeGroupSorted entries ++ rest) =
      entries.map ShortenedEntry.utxo := by
  rw [parseUtxoData, serializeGroupSorted, List.append_assoc, tryReadVarint_write]
  dsimp only
  rw [toNat_ofNat_length hlen, parseUtxoEntries_serialize]

/-! ## Stored values -/

/-- The encoding at the start of the data, and the bytes after it. -/
def splitVarint : Bytes → Bytes × Bytes
  | [] => ([], [])
  | byte :: rest =>
    if byte.toNat < 128 then ([byte], rest)
    else (byte :: (splitVarint rest).1, (splitVarint rest).2)

/-- The values of the output index and the amount of each of `n` entries, whatever their size. -/
def storedValues : ℕ → Bytes → List (ℕ × ℕ)
  | 0, _ => []
  | n + 1, data =>
    let vout := splitVarint (data.drop 32)
    let amount := splitVarint vout.2
    (varintValue vout.1, varintValue amount.1) :: storedValues n amount.2

theorem splitVarint_append {enc : Bytes} (henc : IsVarint enc) (rest : Bytes) :
    splitVarint (enc ++ rest) = (enc, rest) := by
  induction enc with
  | nil => cases henc
  | cons byte enc ih =>
    rw [List.cons_append, splitVarint]
    by_cases hbyte : byte.toNat < 128
    · rw [if_pos hbyte, (isVarint_cons_of_lt hbyte).1 henc]
      rfl
    · rw [if_neg hbyte, ih ((isVarint_cons_of_le (Nat.not_lt.1 hbyte)).1 henc)]

/-- What is read is the encoding at the start, modulo `2 ^ 64`. -/
theorem splitVarint_of_read {data rest : Bytes} {v : UInt64}
    (h : tryReadVarint data = .ok (v, rest)) :
    (splitVarint data).2 = rest ∧ v = UInt64.ofNat (varintValue (splitVarint data).1) := by
  rw [tryReadVarint_eq] at h
  rcases exists_isVarint_append data with ⟨enc, tail, rfl, henc⟩ | hall
  · rw [tryReadVarintCounted_append henc] at h
    split_ifs at h
    · obtain ⟨hv, hrest⟩ := Prod.mk.inj (Except.ok.inj h)
      rw [splitVarint_append henc]
      rw [List.drop_left] at hrest
      exact ⟨hrest, hv.symm⟩
    · cases h
  · obtain ⟨e, he⟩ := readVarintAt_of_le hall 0 0 0
    rw [tryReadVarintCounted, he] at h
    cases h

/-- An entry has the stored values modulo the size of its fields. -/
def UtxoEntry.Cut (e : UtxoEntry) (stored : ℕ × ℕ) : Prop :=
  e.vout.toNat = stored.1 % 2 ^ 32 ∧ e.amountSats.toNat = stored.2 % 2 ^ 64

/-- Every entry of a complete list is read from its stored values. -/
theorem decodeUtxoEntriesFrom_cut {n : ℕ} {data : Bytes} {entries : List UtxoEntry}
    (h : decodeUtxoEntriesFrom n data = .ok entries) (hlen : entries.length = n) :
    List.Forall₂ UtxoEntry.Cut entries (storedValues n data) := by
  induction n generalizing data entries with
  | zero =>
    rw [List.eq_nil_of_length_eq_zero hlen]
    exact .nil
  | succ n ih =>
    rw [decodeUtxoEntriesFrom] at h
    -- an early end leaves fewer entries than were announced
    have hshort : ∀ {l : List UtxoEntry}, (Except.ok [] : PirResult _) = .ok l →
        l.length ≠ n + 1 := by
      rintro l hl
      cases hl
      exact (Nat.succ_ne_zero n).symm
    by_cases htxid : data.length < 32
    · rw [if_pos htxid] at h
      exact absurd hlen (hshort h)
    rw [if_neg htxid] at h
    by_cases hempty : data.drop 32 = []
    · rw [if_pos hempty] at h
      exact absurd hlen (hshort h)
    · rw [if_neg hempty] at h
      cases hvout : tryReadVarint (data.drop 32) with
      | error e =>
        rw [hvout] at h
        cases h
      | ok r =>
        obtain ⟨vout, rest⟩ := r
        rw [hvout] at h
        dsimp only at h
        split_ifs at h
        · exact absurd hlen (hshort h)
        · cases hamount : tryReadVarint rest with
          | error e =>
            rw [hamount] at h
            cases h
          | ok r =>
            obtain ⟨amount, rest'⟩ := r
            rw [hamount] at h
            dsimp only at h
            obtain ⟨hrest, hv⟩ := splitVarint_of_read hvout
            obtain ⟨hrest', ha⟩ := splitVarint_of_read hamount
            cases htail : decodeUtxoEntriesFrom n rest' with
            | error e =>
              rw [htail] at h
              cases h
            | ok tail =>
              rw [htail] at h
              cases h
              rw [storedValues, hrest, hrest']
              refine .cons ⟨?_, ?_⟩ (ih htail (Nat.succ.inj hlen))
              · rw [hv, UInt64.toNat_toUInt32, UInt64.toNat_ofNat']
                rw [Nat.mod_mod_of_dvd _ (by decide)]
              · rw [ha, UInt64.toNat_ofNat']

/-- The values of an entry as numbers. -/
def UtxoEntry.values (e : UtxoEntry) : ℕ × ℕ := (e.vout.toNat, e.amountSats.toNat)

/-- The count that a record starts with, as it is read. -/
def leadingCount (data : Bytes) : Option ℕ := (tryReadVarint data).toOption.map fun r => r.1.toNat

theorem cut_exact_iff {entries : List UtxoEntry} {stored : List (ℕ × ℕ)}
    (h : List.Forall₂ UtxoEntry.Cut entries stored) :
    entries.map UtxoEntry.values = stored ↔ ∀ s ∈ stored, s.1 < 2 ^ 32 ∧ s.2 < 2 ^ 64 := by
  induction h with
  | nil => simp
  | @cons e s entries stored hcut _ ih =>
    have hhead : e.values = s ↔ s.1 < 2 ^ 32 ∧ s.2 < 2 ^ 64 := by
      rw [UtxoEntry.values, hcut.1, hcut.2, Prod.ext_iff]
      omega
    rw [List.map_cons, List.cons.injEq, List.forall_mem_cons, hhead, ih]

/-- **Snapshot records are read back, and complete lists are exact if the stored values fit.** -/
theorem utxos_exact_iff (stored : List ShortenedEntry) (padding : ℕ) (data : Bytes)
    (entries : List UtxoEntry) :
    (stored.length < 2 ^ 64 →
      decodeUtxoEntries (serializeGroupSorted stored ++ List.replicate padding 0) =
          .ok (stored.map ShortenedEntry.utxo) ∧
        parseUtxoData (serializeGroupSorted stored ++ List.replicate padding 0) =
          stored.map ShortenedEntry.utxo) ∧
    (decodeUtxoEntries data = .ok entries → leadingCount data = some entries.length →
      (entries.map UtxoEntry.values = storedValues entries.length (splitVarint data).2 ↔
        ∀ s ∈ storedValues entries.length (splitVarint data).2, s.1 < 2 ^ 32 ∧ s.2 < 2 ^ 64)) := by
  refine ⟨fun hlen => ⟨decodeUtxoEntries_serialize hlen _, parseUtxoData_serialize hlen _⟩,
    fun h hcount => cut_exact_iff ?_⟩
  rw [decodeUtxoEntries] at h
  split_ifs at h with hempty
  · cases h
    exact .nil
  · cases hread : tryReadVarint data with
    | error e =>
      rw [hread] at h
      cases h
    | ok r =>
      rw [hread] at h
      rw [leadingCount, hread] at hcount
      rw [(splitVarint_of_read hread).1]
      have hlen : r.1.toNat = entries.length := Option.some_inj.1 hcount
      dsimp only at h
      rw [hlen] at h
      exact decodeUtxoEntriesFrom_cut h rfl

/-- A record whose output index is `2 ^ 32`. -/
def overlongRecord : Bytes := 1 :: (List.replicate 32 0 ++ [0x80, 0x80, 0x80, 0x80, 0x10, 5])

def overlongEntry : UtxoEntry := ⟨⟨List.replicate 32 0, rfl⟩, 0, 5⟩

/-- A record of two outputs, one of the largest index. -/
def fittingRecord : Bytes :=
  2 :: (List.replicate 32 0 ++ [0xff, 0xff, 0xff, 0xff, 0x0f, 7] ++ List.replicate 32 0 ++ [1, 5])

def fittingEntries : List UtxoEntry :=
  [⟨overlongEntry.txid, 2 ^ 32 - 1, 7⟩, ⟨overlongEntry.txid, 1, 5⟩]

theorem utxos_exact_iff_samples :
    decodeUtxoEntries (serializeGroupSorted [⟨overlongEntry.txid, 2 ^ 32 - 1, 7, 0⟩] ++
        List.replicate 3 0) = .ok [⟨overlongEntry.txid, 2 ^ 32 - 1, 7⟩] ∧
      fittingEntries.map UtxoEntry.values = storedValues 2 (splitVarint fittingRecord).2 ∧
      [overlongEntry].map UtxoEntry.values ≠ storedValues 1 (splitVarint overlongRecord).2 := by
  refine ⟨((utxos_exact_iff [⟨overlongEntry.txid, 2 ^ 32 - 1, 7, 0⟩] 3 [] []).1 (by decide)).1,
    ((utxos_exact_iff [] 0 fittingRecord fittingEntries).2 (by decide) (by decide)).2 (by decide),
    fun h => ?_⟩
  exact absurd (((utxos_exact_iff [] 0 overlongRecord [overlongEntry]).2 (by decide) (by decide)).1 h)
    (by decide)

/-- The output index `2 ^ 32` is decoded as zero. -/
theorem overlong_vout_cut :
    decodeUtxoEntries overlongRecord = .ok [overlongEntry] ∧ leadingCount overlongRecord = some 1 ∧
      storedValues 1 (splitVarint overlongRecord).2 = [(2 ^ 32, 5)] ∧
      [overlongEntry].map UtxoEntry.values = [(0, 5)] := by decide

end BitcoinPir.Sync
