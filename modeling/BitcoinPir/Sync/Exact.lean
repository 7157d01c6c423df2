import BitcoinPir.Sync.Chain
import BitcoinPir.Sync.Records
import BitcoinPir.Sync.Step

/-!
# Delta sync is exact

Merging the record that the two tools make for a script hash into its snapshot entries gives the
script hash's unspent outputs above the dust threshold at the end of the range. The replay is
related to the chain by `ReplayInv`; the files are read back by `buildChunks_write` and
`decodeDeltaData_write`.

* `entriesAbove_of_no_record`: a script hash without a record has the same outputs before and after
  the range, as long as the grouped file has fewer than 2^32 records;
* `mergeDeltaBatch_exact`: a batch of snapshot results and delta answers merges to the outputs at
  the end of the range; a whale delta gives a whale; without a record nothing changes.
-/

namespace BitcoinPir.Sync

open Foundations

/-! ## Outputs above the dust threshold -/

def UtxoEntry.point (e : UtxoEntry) : OutPoint := ⟨e.txid, e.vout⟩

/-- The outputs of a script hash above the dust threshold. -/
def above (h : ScriptHash) (outputs : Created) : List UtxoEntry :=
  (outputs.filter fun e => e.2.1 = h ∧ dustThreshold < e.2.2).map fun e =>
    ⟨e.1.txid, e.1.vout, e.2.2⟩

theorem mem_above {h : ScriptHash} {outputs : Created}
    {x : UtxoEntry} :
    x ∈ above h outputs ↔ (x.point, h, x.amountSats) ∈ outputs ∧ dustThreshold < x.amountSats := by
  rw [above, List.mem_map]
  constructor
  · rintro ⟨⟨o, h', v⟩, he, rfl⟩
    obtain ⟨hmem, htest⟩ := List.mem_filter.1 he
    obtain ⟨rfl, hv⟩ := of_decide_eq_true htest
    exact ⟨hmem, hv⟩
  · rintro ⟨hmem, hv⟩
    exact ⟨_, List.mem_filter.2 ⟨hmem, decide_eq_true ⟨rfl, hv⟩⟩, rfl⟩

theorem nodup_above {h : ScriptHash} {outputs : Created}
    (hkeys : (outputs.map Prod.fst).Nodup) : (above h outputs).Nodup := by
  apply List.Nodup.of_map UtxoEntry.point
  rw [above, List.map_map]
  exact hkeys.sublist (List.filter_sublist.map _)

/-- The outputs the replay kept become the new outputs of their script hash. -/
theorem deltaOf_addNewUtxos (deltas : Deltas)
    (drained : Created) (h : ScriptHash) :
    deltaOf (addNewUtxos deltas drained) h =
      ⟨(deltaOf deltas h).spent, (deltaOf deltas h).newUtxos ++ above h drained⟩ := by
  induction drained generalizing deltas with
  | nil => simp [addNewUtxos, above]
  | cons e drained ih =>
    rw [addNewUtxos, List.foldl_cons]
    refine (ih _).trans ?_
    split_ifs with hdust
    · have hskip : above h (e :: drained) = above h drained := by
        rw [above, List.filter_cons_of_neg (by simp [hdust]), above]
      rw [hskip]
    · rw [deltaOf_entryOrDefault]
      split_ifs with heq
      · have hkeep : above h (e :: drained) = ⟨e.1.txid, e.1.vout, e.2.2⟩ :: above h drained := by
          rw [above, List.filter_cons_of_pos (by simp [heq, UInt64.not_le.1 hdust]), above, List.map_cons]
        rw [hkeep, heq, List.append_assoc, List.singleton_append]
      · have hskip : above h (e :: drained) = above h drained := by
          rw [above, List.filter_cons_of_neg (by simp [Ne.symm heq]), above]
        rw [hskip]

theorem keys_addNewUtxos {deltas : Deltas}
    (hnodup : (deltas.map Prod.fst).Nodup) (drained : Created) :
    ((addNewUtxos deltas drained).map Prod.fst).Nodup := by
  induction drained generalizing deltas with
  | nil => exact hnodup
  | cons e drained ih =>
    rw [addNewUtxos, List.foldl_cons]
    split_ifs
    · exact ih hnodup
    · exact ih (keys_entryOrDefault _ _ _ hnodup)

section Exact

variable (hash160 : Bytes → ScriptHash) (unspendable : Bytes → Bool)

/-- The unspent outputs of a script hash above the dust threshold. -/
def entriesAbove (unspent : Outputs) (h : ScriptHash) : List UtxoEntry :=
  above h (unspent.map (view hash160))

variable {hash160 unspendable} {dump : Outputs} {done : List OutPoint} {n : ℕ}
variable {st : Replay} {unspent : Outputs}
variable {drained : Created} {h : ScriptHash}

theorem nodup_entriesAbove (hkeys : (unspent.map Prod.fst).Nodup) :
    (entriesAbove hash160 unspent h).Nodup := by
  apply nodup_above
  rw [List.map_map]
  exact hkeys

/-- **Applying the delta of a script hash** to its outputs before the range gives its outputs after
it. -/
theorem ReplayInv.apply_exact (hinv : ReplayInv hash160 unspendable dump done n st unspent)
    (hunique : (dump.map Prod.fst ++ done).Nodup) (hspendable : Spendable hash160 unspendable h)
    (hdrained : drained.Perm st.inRangeCreated) {entries : List UtxoEntry}
    (hentries : entries.Perm (entriesAbove hash160 dump h)) :
    (applyDeltaData entries
      ⟨(deltaOf (addNewUtxos st.deltas drained) h).spent.map OutPoint.bytes,
        (deltaOf (addNewUtxos st.deltas drained) h).newUtxos⟩).Perm
      (entriesAbove hash160 unspent h) := by
  obtain ⟨hdump, -, hdisj⟩ := List.nodup_append.1 hunique
  rw [deltaOf_addNewUtxos, hinv.noNew]
  have hkeys : (drained.map Prod.fst).Nodup := (hdrained.map _).nodup_iff.2 hinv.createdNodup
  have hleft : ((entries.filter fun e =>
      e.outpoint ∉ (deltaOf st.deltas h).spent.map OutPoint.bytes) ++ above h drained).Nodup := by
    refine List.nodup_append.2 ⟨(hentries.nodup_iff.2 (nodup_entriesAbove hdump)).filter _,
      nodup_above hkeys, ?_⟩
    rintro x hx y hy rfl
    -- An output kept by the replay was created in the range, so that it is not in the snapshot.
    have hold := (mem_above.1 (hentries.mem_iff.1 (List.mem_of_mem_filter hx))).1
    have hnew := hinv.created _ (hdrained.mem_iff.1 (mem_above.1 hy).1)
    exact hdisj _ (key_of_mem_view hold) _ hnew rfl
  have hspent : ∀ x : UtxoEntry, x.outpoint ∈ (deltaOf st.deltas h).spent.map OutPoint.bytes ↔
      x.point ∈ (deltaOf st.deltas h).spent := by
    intro x
    constructor
    · intro hmem
      obtain ⟨o, ho, heq⟩ := List.mem_map.1 hmem
      have hpoint : o = x.point := OutPoint.bytes_inj.1 heq
      rwa [hpoint] at ho
    · exact fun hmem => List.mem_map.2 ⟨x.point, hmem, rfl⟩
  refine (List.perm_ext_iff_of_nodup hleft (nodup_entriesAbove hinv.unspentNodup)).2 fun x => ?_
  rw [List.mem_append, List.mem_filter, decide_eq_true_eq, hspent, hentries.mem_iff, entriesAbove,
    entriesAbove, mem_above, mem_above, mem_above, hinv.exact h hspendable, hdrained.mem_iff]
  tauto

end Exact

/-! ## What the records say -/

theorem writeDelta_ne_nil (d : ScriptDelta) : writeDelta d ≠ [] := by
  rw [writeDelta, List.append_assoc, List.append_assoc]
  exact List.append_ne_nil_of_left_ne_nil (writeVarint_ne_nil _) _

theorem packRecord_scriptHash (h : ScriptHash) (id : UInt32) (bytes : Bytes) :
    (packRecord h id bytes).scriptHash = h := by
  rw [packRecord]
  split_ifs <;> rfl

/-- A record that is not marked as too large has chunks, which start with its bytes. -/
theorem packRecord_data {h : ScriptHash} {id : UInt32} {bytes : Bytes}
    (hchunks : (packRecord h id bytes).numChunks ≠ 0) :
    0 < (packRecord h id bytes).numChunks.toNat ∧
      ∃ pad, (packRecord h id bytes).data = bytes ++ pad := by
  refine ⟨Nat.pos_of_ne_zero fun hzero => hchunks (UInt8.toNat_inj.1 hzero), ?_⟩
  rw [packRecord] at hchunks ⊢
  split_ifs at hchunks ⊢
  · exact absurd rfl hchunks
  · exact ⟨_, rfl⟩

/-- What a snapshot answers for a script hash. -/
inductive SnapshotOf (hash160 : Bytes → ScriptHash) (dump : Outputs)
    (h : ScriptHash) : Option QueryResult → Prop
  | absent : entriesAbove hash160 dump h = [] → SnapshotOf hash160 dump h none
  | found {r : QueryResult} : r.isWhale = false → r.entries.Perm (entriesAbove hash160 dump h) →
      SnapshotOf hash160 dump h (some r)
  | whale {r : QueryResult} : r.isWhale = true → SnapshotOf hash160 dump h (some r)

/-- What a delta database with these records answers for a script hash. -/
inductive DeltaAnswer (records : List PackedRecord) (h : ScriptHash) : Option QueryResult → Prop
  | absent : h ∉ records.map PackedRecord.scriptHash → DeltaAnswer records h none
  | found {record : PackedRecord} {base : UInt32} {r : QueryResult} (verified : Bool) :
      record ∈ records → record.scriptHash = h →
      matchedResult (.delta base) (record.numChunks = 0) record.numChunks.toNat record.data = .ok r →
      DeltaAnswer records h (some { r with merkleVerified := verified })

def NotWhale (s : Option QueryResult) : Prop := ∀ r, s = some r → r.isWhale = false

/-- How a merged result relates to the snapshot's result, the delta's and the outputs before and
after the range. A missing record means that the outputs are the same if the records could be
counted. -/
structure MergedExactly (initial final : List UtxoEntry) (counted : Prop)
    (s d m : Option QueryResult) : Prop where
  unchanged : d = none → m = s ∧ (counted → initial.Perm final)
  whale : ∀ del, d = some del → del.isWhale = true → NotWhale s →
    ∃ r, m = some r ∧ r.isWhale = true
  exact : ∀ del, d = some del → del.isWhale = false → NotWhale s →
    ∃ r, m = some r ∧ r.isWhale = false ∧ r.entries.Perm final

theorem mergeEntry_found {s : Option QueryResult} {del : QueryResult} {b final : List UtxoEntry}
    {counted : Prop} {data : DeltaData} (hnone : s = none → b = [])
    (hsome : ∀ snap, s = some snap → snap.isWhale = false → snap.entries.Perm b)
    (hraw : del.isWhale = false →
      ∃ raw, del.rawChunkData = some raw ∧ raw ≠ [] ∧ decodeDeltaData raw = .ok data)
    (happly : ∀ entries, entries.Perm b → (applyDeltaData entries data).Perm final) :
    ∃ m, mergeEntry s (some del) = .ok m ∧ MergedExactly b final counted s (some del) m := by
  cases s with
  | none =>
    rw [mergeEntry]
    split_ifs with hw
    · exact ⟨_, rfl, by simp, fun _ _ _ _ => ⟨_, rfl, rfl⟩, fun del' heq hw' _ => by
        cases heq
        rw [hw] at hw'
        cases hw'⟩
    · rw [Bool.not_eq_true] at hw
      obtain ⟨raw, hdata, -, hdecode⟩ := hraw hw
      rw [hdata]
      have hnew : newEntry del raw =
          .ok (some ⟨data.newUtxos, false, del.merkleVerified, none, [], [], none⟩) := by
        rw [newEntry, hdecode]
        rfl
      refine ⟨_, hnew, by simp, ?_, fun _ _ _ _ => ⟨_, rfl, rfl, ?_⟩⟩
      · rintro del' heq hw'
        cases heq
        rw [hw] at hw'
        cases hw'
      · exact happly [] (by rw [hnone rfl])
  | some snap =>
    rw [mergeEntry]
    split_ifs with hw
    · refine ⟨_, rfl, by simp, fun _ _ _ _ => ⟨_, rfl, rfl⟩, fun del' heq hw' _ => ?_⟩
      cases heq
      rw [hw.1] at hw'
      cases hw'
    · cases hsnap : snap.isWhale with
      | true =>
        have hmerge : ∃ m, mergeRecord snap del del.rawChunkData = .ok m := by
          cases del.rawChunkData with
          | none => exact ⟨_, rfl⟩
          | some raw' =>
            rw [mergeRecord, mergeDelta, if_pos (.inl hsnap)]
            exact ⟨_, rfl⟩
        obtain ⟨m, hm⟩ := hmerge
        refine ⟨m, hm, by simp, fun _ _ _ hnot => ?_, fun _ _ _ hnot => ?_⟩
        all_goals
          have := hnot snap rfl
          rw [hsnap] at this
          cases this
      | false =>
        have hdel : del.isWhale = false := by
          rw [hsnap] at hw
          simpa using hw
        obtain ⟨raw, hdata, hne, hdecode⟩ := hraw hdel
        have hmerge : mergeDelta snap raw = .ok ⟨applyDeltaData snap.entries data, false,
            snap.merkleVerified, none, [], [], none⟩ := by
          rw [mergeDelta, if_neg (by simp [hsnap, hne]), hdecode, hsnap]
          rfl
        rw [hdata, mergeRecord, hmerge]
        refine ⟨_, rfl, by simp, fun del' heq hw' _ => ?_, fun _ _ _ _ => ⟨_, rfl, rfl, ?_⟩⟩
        · cases heq
          rw [hdel] at hw'
          cases hw'
        · exact happly _ (hsome snap rfl hsnap)

/-- The answer of a database that has a record made from the delta `d`. -/
theorem matchedResult_record {base : UInt32} {h : ScriptHash} {id : UInt32} {d : ScriptDelta}
    {r : QueryResult} (hd : d.Fits)
    (hr : matchedResult (.delta base) ((packRecord h id (writeDelta d)).numChunks = 0)
      (packRecord h id (writeDelta d)).numChunks.toNat (packRecord h id (writeDelta d)).data = .ok r)
    (hwhale : r.isWhale = false) :
    ∃ raw, r.rawChunkData = some raw ∧ raw ≠ [] ∧
      decodeDeltaData raw = .ok ⟨d.spent.map OutPoint.bytes, d.newUtxos⟩ := by
  cases hr
  obtain ⟨hpos, pad, hdata⟩ := packRecord_data (of_decide_eq_false hwhale)
  refine ⟨_, if_pos ⟨nofun, hpos⟩, ?_, ?_⟩
  · rw [hdata]
    exact List.append_ne_nil_of_left_ne_nil (writeDelta_ne_nil d) pad
  · rw [hdata]
    exact decodeDeltaData_write hd pad

/-! ## Delta sync -/

section DeltaSync

variable {hash160 : Bytes → ScriptHash} {unspendable : Bytes → Bool}
variable {dump : Outputs} {range : BlockRange}
variable {drained : Created} {written : Deltas}

variable (hunique : (dump.map Prod.fst ++ createdOutpoints range.blocks).Nodup)
  (hdrained : drained.Perm (replayBlocks hash160 dump range.blocks).inRangeCreated)
  (hwritten : written.Perm (addNewUtxos (replayBlocks hash160 dump range.blocks).deltas drained))

include hunique hdrained hwritten

/-- A written record is the delta of its script hash, and its lists can be counted. -/
theorem written_spec {e : ScriptHash × ScriptDelta} (he : e ∈ written) :
    e.2 = deltaOf (addNewUtxos (replayBlocks hash160 dump range.blocks).deltas drained) e.1 ∧
      e.2.Fits := by
  have hinv : ReplayInv hash160 (fun _ => false) _ _ _ _ _ := replayBlocks_inv hunique
  have hkeys := keys_addNewUtxos hinv.deltasNodup drained
  have hdelta := deltaOf_of_mem hkeys (hwritten.mem_iff.1 he)
  refine ⟨hdelta.symm, ?_⟩
  rw [← hdelta, deltaOf_addNewUtxos, hinv.noNew]
  constructor
  · exact (hinv.spentLen e.1).trans_lt range.inputs_lt
  · have hcreated : (createdOutpoints range.blocks).length =
        (range.blocks.flatten.flatMap Transaction.created).length := by
      rw [createdOutpoints, ← List.map_flatMap, List.length_map]
    calc (above e.1 drained).length
        ≤ drained.length := by
          rw [above, List.length_map]
          exact List.length_filter_le _ _
      _ = (replayBlocks hash160 dump range.blocks).inRangeCreated.length := hdrained.length_eq
      _ ≤ (createdOutpoints range.blocks).length := hinv.createdLen
      _ < 2 ^ 64 := hcreated ▸ range.outputs_lt

section Records

variable {records : List PackedRecord}
  (hrecords : List.Forall₂ (fun e r => ∃ id, r = packRecord e.1 id (writeDelta e.2))
    (written.take (written.length % 2 ^ 32)) records)
  {h : ScriptHash} (hspendable : Spendable hash160 unspendable h)

include hrecords hspendable

/-- **A script hash without a record** has the same outputs before and after the range. -/
theorem entriesAbove_of_no_record (hcount : written.length < 2 ^ 32)
    (hnone : h ∉ records.map PackedRecord.scriptHash) :
    (entriesAbove hash160 dump h).Perm
      (entriesAbove hash160 (unspentAfter unspendable dump range.blocks) h) := by
  rw [Nat.mod_eq_of_lt hcount, List.take_length] at hrecords
  have habsent : h ∉ (addNewUtxos (replayBlocks hash160 dump range.blocks).deltas drained).map
      Prod.fst := by
    intro hmem
    obtain ⟨e, he, rfl⟩ := List.mem_map.1 hmem
    obtain ⟨r, hr, id, rfl⟩ := exists_rel_of_mem hrecords.flip (hwritten.mem_iff.2 he)
    exact hnone (List.mem_map.2 ⟨_, hr, packRecord_scriptHash ..⟩)
  have hexact := (replayBlocks_inv hunique).apply_exact hunique hspendable hdrained
    (List.Perm.refl (entriesAbove hash160 dump h))
  -- an empty delta removes nothing and adds nothing
  rw [deltaOf_of_not_mem habsent] at hexact
  simpa [applyDeltaData] using hexact

/-- **One script hash.** -/
theorem mergeEntry_exact {s d : Option QueryResult}
    (hs : SnapshotOf hash160 dump h s) (hd : DeltaAnswer records h d) :
    ∃ m, mergeEntry s d = .ok m ∧
      MergedExactly (entriesAbove hash160 dump h)
        (entriesAbove hash160 (unspentAfter unspendable dump range.blocks) h)
        (written.length < 2 ^ 32) s d m := by
  cases hd with
  | absent hnone =>
    refine ⟨s, by cases s <;> rfl, fun _ => ⟨rfl, fun hcount => ?_⟩, ?_, ?_⟩
    · exact entriesAbove_of_no_record hunique hdrained hwritten hrecords hspendable hcount hnone
    all_goals
      intro del hdel
      cases hdel
  | found verified hmem hkey hr =>
    obtain ⟨e, he, id, rfl⟩ := exists_rel_of_mem hrecords hmem
    obtain ⟨hdelta, hfits⟩ := written_spec hunique hdrained hwritten (List.mem_of_mem_take he)
    rw [packRecord_scriptHash] at hkey
    subst hkey
    have hraw := matchedResult_record hfits hr
    refine mergeEntry_found (b := entriesAbove hash160 dump e.1) ?_ ?_ hraw
      fun entries hentries => ?_
    · rintro rfl
      cases hs
      assumption
    · rintro snap rfl hwhale
      cases hs with
      | found _ hperm => exact hperm
      | whale hw =>
        rw [hw] at hwhale
        cases hwhale
    · rw [hdelta]
      exact (replayBlocks_inv hunique).apply_exact hunique hspendable hdrained hentries

end Records

/-- **Delta sync is exact.** -/
theorem mergeDeltaBatch_exact : ∃ records, buildChunks (writeGrouped written) = some records ∧
      ∀ (scriptHashes : List ScriptHash) (snapshots deltas : QueryResults),
        (∀ h ∈ scriptHashes, Spendable hash160 unspendable h) →
        List.Forall₂ (SnapshotOf hash160 dump) scriptHashes snapshots →
        List.Forall₂ (DeltaAnswer records) scriptHashes deltas →
        ∃ merged, mergeDeltaBatch snapshots deltas = .ok merged ∧
          ∀ (i : ℕ) (h : ScriptHash) (s d : Option QueryResult), scriptHashes[i]? = some h →
            snapshots[i]? = some s → deltas[i]? = some d → ∃ m, merged[i]? = some m ∧
              MergedExactly (entriesAbove hash160 dump h)
                (entriesAbove hash160 (unspentAfter unspendable dump range.blocks) h)
                (written.length < 2 ^ 32) s d m := by
  obtain ⟨records, hbuild, hrecords⟩ := buildChunks_write fun e he =>
    (written_spec hunique hdrained hwritten (e := e) he).2
  refine ⟨records, hbuild, fun scriptHashes snapshots deltas hspendable hsnap hdelta => ?_⟩
  have hlen : snapshots.length = deltas.length := hsnap.length_eq.symm.trans hdelta.length_eq
  have hentry : ∀ (i : ℕ) h s d, scriptHashes[i]? = some h → snapshots[i]? = some s →
      deltas[i]? = some d → ∃ m, mergeEntry s d = .ok m ∧
        MergedExactly (entriesAbove hash160 dump h)
          (entriesAbove hash160 (unspentAfter unspendable dump range.blocks) h)
          (written.length < 2 ^ 32) s d m := by
    intro i h s d hi hs hd
    exact mergeEntry_exact hunique hdrained hwritten hrecords
      (hspendable h (List.mem_of_getElem? hi)) (rel_of_getElem? hsnap hi hs)
      (rel_of_getElem? hdelta hi hd)
  have hok : ∃ merged, mergeDeltaBatch snapshots deltas = .ok merged := by
    rw [mergeDeltaBatch, if_neg (not_not.2 hlen)]
    apply exists_mapM_eq_ok
    rintro ⟨s, d⟩ hsd
    obtain ⟨i, hi⟩ := List.getElem?_of_mem hsd
    obtain ⟨hs, hd⟩ := List.getElem?_zip_eq_some.1 hi
    have hlt : i < scriptHashes.length :=
      hsnap.length_eq ▸ (List.getElem?_eq_some_iff.1 hs).1
    obtain ⟨m, hm, -⟩ := hentry i _ s d (List.getElem?_eq_getElem hlt) hs hd
    exact ⟨m, hm⟩
  obtain ⟨merged, hmerged⟩ := hok
  refine ⟨merged, hmerged, fun i h s d hi hs hd => ?_⟩
  obtain ⟨m, hget, hm⟩ := getElem?_mergeDeltaBatch hmerged hs hd
  obtain ⟨m', hm', hexact⟩ := hentry i h s d hi hs hd
  cases hm.symm.trans hm'
  exact ⟨m, hget, hexact⟩

end DeltaSync

/-! ## A block that spends one of two outputs -/

namespace OneBlock

def hash160 (script : Bytes) : ScriptHash :=
  ⟨(script ++ List.replicate 20 0).take 20, by
    rw [List.length_take, List.length_append, List.length_replicate]
    omega⟩

/-- `OP_RETURN`. -/
def unspendable (script : Bytes) : Bool := script.head? = some 0x6a

def script : Bytes := List.replicate 20 1

/-- A script that the block does not touch. -/
def quietScript : Bytes := List.replicate 20 3

def spentPoint : OutPoint := ⟨⟨List.replicate 32 4, rfl⟩, 0⟩

def newPoint : OutPoint := ⟨⟨List.replicate 32 2, rfl⟩, 0⟩

def quietPoint : OutPoint := ⟨⟨List.replicate 32 3, rfl⟩, 5⟩

def dump : Outputs :=
  [(spentPoint, ⟨script, 1000⟩), (quietPoint, ⟨quietScript, 2000⟩)]

def range : BlockRange where
  blocks := [[⟨newPoint.txid, false, [spentPoint], [⟨script, 900⟩]⟩]]
  inputs_lt := by decide
  outputs_lt := by decide

def drained : Created := [(newPoint, hash160 script, 900)]

def delta : ScriptDelta := ⟨[spentPoint], [⟨newPoint.txid, 0, 900⟩]⟩

def written : Deltas := [(hash160 script, delta)]

def snapshot : QueryResult :=
  ⟨[⟨spentPoint.txid, 0, 1000⟩], false, true, none, [], [], none⟩

def quiet : QueryResult := ⟨[⟨quietPoint.txid, 5, 2000⟩], false, true, none, [], [], none⟩

def record : PackedRecord := packRecord (hash160 script) 0 (writeDelta delta)

/-- What a delta database answers with that record. -/
def answer : QueryResult := ⟨[], false, true, some record.data, [], [], none⟩

theorem spendable {h : ScriptHash} (hhead : h.val.head? ≠ some 0x6a) :
    Spendable hash160 unspendable h := by
  intro s hs heq
  have hop : s.head? = some 0x6a := of_decide_eq_true hs
  cases s with
  | nil => cases hop
  | cons b s =>
    cases hop
    exact hhead (heq ▸ rfl)

end OneBlock

open OneBlock in
/-- One script hash has a record, the other has none and keeps its output. -/
theorem mergeDeltaBatch_exact_one_block :
    buildChunks (writeGrouped written) = some [record] ∧
      ∃ r, mergeDeltaBatch [some snapshot, some quiet] [some answer, none] =
          .ok [some r, some quiet] ∧ r.entries.Perm [⟨newPoint.txid, 0, 900⟩] ∧
        (entriesAbove hash160 dump (hash160 quietScript)).Perm (entriesAbove hash160
          (unspentAfter unspendable dump range.blocks) (hash160 quietScript)) := by
  obtain ⟨records, hbuild, hall⟩ := @mergeDeltaBatch_exact hash160 unspendable dump range drained
    written (by decide) (by decide) (by decide)
  have hrecords : buildChunks (writeGrouped written) = some [record] := by rfl
  cases hbuild.symm.trans hrecords
  obtain ⟨merged, hmerged, hexact⟩ := hall [hash160 script, hash160 quietScript]
    [some snapshot, some quiet] [some answer, none]
    (by
      intro h hh
      rcases List.mem_pair.1 hh with rfl | rfl
      · exact spendable (by decide)
      · exact spendable (by decide))
    (.cons (.found rfl (by decide)) (.cons (.found rfl (by decide)) .nil))
    (.cons (@DeltaAnswer.found _ _ record 7 _ true List.mem_cons_self rfl rfl)
      (.cons (.absent (by decide)) .nil))
  refine ⟨hrecords, ?_⟩
  obtain ⟨m, hm, hentry⟩ := hexact 0 _ _ _ rfl rfl rfl
  obtain ⟨m', hm', hquiet⟩ := hexact 1 _ _ _ rfl rfl rfl
  obtain ⟨r, rfl, -, hperm⟩ := hentry.exact answer rfl rfl (fun s hs => by cases hs; rfl)
  obtain ⟨rfl, hsame⟩ := hquiet.unchanged rfl
  have htwo : merged = [some r, some quiet] := by
    have hlen := (length_mergeDeltaBatch hmerged).2
    obtain ⟨a, b, rfl⟩ := List.length_eq_two.1 hlen
    rw [List.getElem?_cons_zero, Option.some_inj] at hm
    rw [List.getElem?_cons_succ, List.getElem?_cons_zero, Option.some_inj] at hm'
    rw [hm, hm']
  exact ⟨r, htwo ▸ hmerged, hperm, hsame (by decide)⟩

end BitcoinPir.Sync
