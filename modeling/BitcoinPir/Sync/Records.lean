import BitcoinPir.Core.VarintValue
import BitcoinPir.Sync.Replay

/-!
# Reading delta records back

What `delta_gen_0` writes is sliced by `delta_gen_1` into the records it was written from
(`buildChunks_write`), and a record is decoded by the client to the delta it was written from
(`decodeDeltaData_write`). The bytes a record is padded with are never read.
-/

namespace BitcoinPir.Sync

open Foundations Reader

theorem readVarint_write (value : UInt64) (rest : Bytes) :
    readVarint (writeVarint value ++ rest) = .ok (value, rest) := by
  unfold readVarint
  rw [tryReadVarint_write]

theorem writeVarint_ne_nil (value : UInt64) : writeVarint value ≠ [] := by
  intro h
  have := tryReadVarint_write value []
  rw [h] at this
  cases this

theorem toNat_ofNat_length {α : Type} {l : List α} (h : l.length < 2 ^ 64) :
    (UInt64.ofNat l.length).toNat = l.length :=
  Nat.mod_eq_of_lt h

/-- Transaction id and output index as a delta record has them. -/
def OutPoint.bytes (o : OutPoint) : Bytes := o.txid.val ++ leBytes 4 o.vout.toNat

theorem OutPoint.bytes_inj {a b : OutPoint} : a.bytes = b.bytes ↔ a = b := by
  constructor
  · intro h
    obtain ⟨htxid, hvout⟩ := List.append_inj h (by rw [a.txid.property, b.txid.property])
    have hv : a.vout = b.vout := by
      apply UInt32.toNat_inj.1
      exact leBytes_inj_of_lt a.vout.toNat_lt b.vout.toNat_lt hvout
    cases a
    cases b
    simp only [OutPoint.mk.injEq]
    exact ⟨Subtype.ext htxid, hv⟩
  · rintro rfl
    rfl

theorem readSpent_write (o : OutPoint) (rest : Bytes) :
    readSpent (writeSpent o ++ rest) = .ok (o.bytes, rest) := by
  have hvout : o.vout.toUInt64.toNat = o.vout.toNat := UInt32.toNat_toUInt64 _
  have hlt : o.vout.toUInt64.toNat < 2 ^ 32 := by
    exact o.vout.toNat_lt
  refine Reader.bind_eq_ok.2 ⟨o.txid, writeVarint o.vout.toUInt64 ++ rest,
    takeArr_eq_ok.2 (by rw [writeSpent, List.append_assoc]), ?_⟩
  refine Reader.bind_eq_ok.2 ⟨_, rest, readVarint_write _ _, ?_⟩
  refine Reader.bind_eq_ok.2 ⟨(), rest, ensure_eq_ok.2 ⟨hlt, rfl⟩, ?_⟩
  refine pure_eq_ok.2 ⟨?_, rfl⟩
  rw [hvout, OutPoint.bytes]

theorem readNew_write (n : UtxoEntry) (rest : Bytes) :
    readNew (writeNew n ++ rest) = .ok (n, rest) := by
  have hlt : n.vout.toUInt64.toNat < 2 ^ 32 := by
    exact n.vout.toNat_lt
  refine Reader.bind_eq_ok.2
    ⟨n.txid, writeVarint n.vout.toUInt64 ++ (writeVarint n.amountSats ++ rest),
    takeArr_eq_ok.2 (by rw [writeNew, List.append_assoc, List.append_assoc]), ?_⟩
  refine Reader.bind_eq_ok.2 ⟨_, _, readVarint_write _ _, ?_⟩
  refine Reader.bind_eq_ok.2 ⟨(), _, ensure_eq_ok.2 ⟨hlt, rfl⟩, ?_⟩
  refine Reader.bind_eq_ok.2 ⟨_, rest, readVarint_write _ _, ?_⟩
  refine pure_eq_ok.2 ⟨?_, rfl⟩
  rw [UInt32.toUInt32_toUInt64]

theorem readTimes_write {α β : Type} {r : Reader PirError β} {write : α → Bytes} {f : α → β}
    (h : ∀ a rest, r (write a ++ rest) = .ok (f a, rest)) (l : List α) (rest : Bytes) :
    readTimes r l.length (l.flatMap write ++ rest) = .ok (l.map f, rest) := by
  induction l with
  | nil => rfl
  | cons a l ih =>
    rw [List.flatMap_cons, List.append_assoc]
    refine Reader.bind_eq_ok.2 ⟨_, _, h a _, ?_⟩
    refine Reader.bind_eq_ok.2 ⟨_, _, ih, ?_⟩
    exact pure_eq_ok.2 ⟨rfl, rfl⟩

/-- The lists of a delta can be counted with 64 bits. -/
def ScriptDelta.Fits (d : ScriptDelta) : Prop := d.spent.length < 2 ^ 64 ∧ d.newUtxos.length < 2 ^ 64

/-- A record is decoded to what it was written from; the padding is ignored. -/
theorem decodeDeltaData_write {d : ScriptDelta} (hd : d.Fits) (rest : Bytes) :
    decodeDeltaData (writeDelta d ++ rest) = .ok ⟨d.spent.map OutPoint.bytes, d.newUtxos⟩ := by
  have hread : readDeltaData (writeDelta d ++ rest) =
      .ok (⟨d.spent.map OutPoint.bytes, d.newUtxos⟩, rest) := by
    rw [writeDelta, List.append_assoc, List.append_assoc, List.append_assoc]
    refine Reader.bind_eq_ok.2 ⟨_, _, readVarint_write _ _, ?_⟩
    rw [toNat_ofNat_length hd.1]
    refine Reader.bind_eq_ok.2 ⟨_, _, readTimes_write readSpent_write _ _, ?_⟩
    refine Reader.bind_eq_ok.2 ⟨_, _, readVarint_write _ _, ?_⟩
    rw [toNat_ofNat_length hd.2]
    refine Reader.bind_eq_ok.2 ⟨_, _, readTimes_write readNew_write _ _, ?_⟩
    refine pure_eq_ok.2 ⟨?_, rfl⟩
    rw [List.map_id']
  rw [decodeDeltaData, hread]
  rfl

theorem skipVarint_write (value : UInt64) (rest : Bytes) :
    skipVarint (writeVarint value ++ rest) = some (value, rest) := by
  rw [skipVarint, tryReadVarint_write]
  rfl

theorem skipEntries_write {α : Type} {numbers : ℕ} {write : α → Bytes}
    (h : ∀ a rest, Nat.iterate (fun d => d.bind fun d => (skipVarint d).map Prod.snd) numbers
      (some ((write a ++ rest).drop 32)) = some rest) (l : List α) (rest : Bytes) :
    skipEntries numbers l.length (l.flatMap write ++ rest) = some rest := by
  induction l with
  | nil => rfl
  | cons a l ih =>
    rw [List.flatMap_cons, List.append_assoc, List.length_cons, skipEntries, h]
    exact ih

theorem skipSpent_write (l : List OutPoint) (rest : Bytes) :
    skipEntries 1 l.length (l.flatMap writeSpent ++ rest) = some rest := by
  refine skipEntries_write (fun o rest => ?_) l rest
  rw [writeSpent, List.append_assoc, List.drop_left' o.txid.property]
  simp [skipVarint_write]

theorem skipNew_write (l : List UtxoEntry) (rest : Bytes) :
    skipEntries 2 l.length (l.flatMap writeNew ++ rest) = some rest := by
  refine skipEntries_write (fun n rest => ?_) l rest
  rw [writeNew, List.append_assoc, List.append_assoc, List.drop_left' n.txid.property]
  simp [skipVarint_write]

theorem skipRecord_write {d : ScriptDelta} (hd : d.Fits) (rest : Bytes) :
    skipRecord (writeDelta d ++ rest) = some rest := by
  rw [writeDelta, List.append_assoc, List.append_assoc, List.append_assoc, skipRecord,
    skipVarint_write]
  simp only [Option.bind_eq_bind, Option.bind_some]
  rw [toNat_ofNat_length hd.1, skipSpent_write]
  simp only [Option.bind_some, skipVarint_write]
  rw [toNat_ofNat_length hd.2, skipNew_write]

/-- The grouped file is sliced into the records it was written from. -/
theorem packRecords_write (es : Deltas) (hes : ∀ e ∈ es, e.2.Fits)
    (chunkId : UInt32) (rest : Bytes) :
    ∃ records, packRecords es.length chunkId
        (es.flatMap (fun e => e.1.val ++ writeDelta e.2) ++ rest) = some records ∧
      List.Forall₂ (fun e r => ∃ id, r = packRecord e.1 id (writeDelta e.2)) es records := by
  induction es generalizing chunkId with
  | nil => exact ⟨[], rfl, .nil⟩
  | cons e es ih =>
    set tail := es.flatMap (fun e => e.1.val ++ writeDelta e.2) ++ rest with htail
    have hdata : (e :: es).flatMap (fun e => e.1.val ++ writeDelta e.2) ++ rest =
        e.1.val ++ (writeDelta e.2 ++ tail) := by
      rw [List.flatMap_cons, List.append_assoc, List.append_assoc]
    have harr : (takeArr 20 () (e.1.val ++ (writeDelta e.2 ++ tail))).toOption =
        some (e.1, writeDelta e.2 ++ tail) := by
      rw [takeArr_eq_ok.2 rfl]
      rfl
    have hslice : (writeDelta e.2 ++ tail).take ((writeDelta e.2 ++ tail).length - tail.length) =
        writeDelta e.2 := by
      rw [List.length_append, Nat.add_sub_cancel]
      exact List.take_left
    obtain ⟨records, hrecords, hall⟩ := ih (fun e' he' => hes e' (List.mem_cons_of_mem _ he'))
      (chunkId + (packRecord e.1 chunkId (writeDelta e.2)).numChunks.toUInt32)
    refine ⟨packRecord e.1 chunkId (writeDelta e.2) :: records, ?_, .cons ⟨chunkId, rfl⟩ hall⟩
    rw [List.length_cons, packRecords, hdata, harr]
    simp only [Option.bind_eq_bind, Option.bind_some]
    rw [skipRecord_write (hes e List.mem_cons_self)]
    simp only [Option.bind_some]
    rw [hslice, hrecords]
    rfl

/-- **Reading the grouped file back**: as many records as the 32-bit count says. -/
theorem buildChunks_write {es : Deltas} (hes : ∀ e ∈ es, e.2.Fits) :
    ∃ records, buildChunks (writeGrouped es) = some records ∧
      List.Forall₂ (fun e r => ∃ id, r = packRecord e.1 id (writeDelta e.2))
        (es.take (es.length % 2 ^ 32)) records := by
  have hcount : leNat ((writeGrouped es).take 4) = es.length % 2 ^ 32 := by
    rw [writeGrouped, List.take_left' (length_leBytes ..), leNat_leBytes]
    norm_num
  have hdrop : (writeGrouped es).drop 4 =
      (es.take (es.length % 2 ^ 32)).flatMap (fun e => e.1.val ++ writeDelta e.2) ++
        (es.drop (es.length % 2 ^ 32)).flatMap (fun e => e.1.val ++ writeDelta e.2) := by
    rw [writeGrouped, List.drop_left' (length_leBytes ..), ← List.flatMap_append,
      List.take_append_drop]
  have hlen : (es.take (es.length % 2 ^ 32)).length = es.length % 2 ^ 32 :=
    List.length_take_of_le (Nat.mod_le _ _)
  obtain ⟨records, hrecords, hall⟩ := packRecords_write
    (es.take (es.length % 2 ^ 32)) (fun e he => hes e (List.mem_of_mem_take he)) 0
    ((es.drop (es.length % 2 ^ 32)).flatMap (fun e => e.1.val ++ writeDelta e.2))
  refine ⟨records, ?_, hall⟩
  rw [buildChunks, hcount, hdrop, ← hlen]
  rw [hlen] at hrecords ⊢
  exact hrecords

end BitcoinPir.Sync
