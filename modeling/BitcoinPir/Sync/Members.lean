import BitcoinPir.Foundations.Runs
import BitcoinPir.Sync.Exact

/-!
# The new entries of a delta and the UTXO set

A snapshot is built from the UTXO set of the node, which never holds a provably unspendable output.
`delta_gen_0` replays blocks, and keeps every output it sees until it is spent. `Kept` relates the
two after every action of a range: what the replay keeps is unspent or unspendable, and what is
unspendable it keeps forever. `newEntries_mem_utxoSet_iff` draws the conclusion for the file.
-/

namespace BitcoinPir.Sync

open Foundations

/-- `CScript::IsUnspendable` of the node: an `OP_RETURN`, or a script over 10,000 bytes. -/
def isUnspendable (script : Bytes) : Bool := script.head? = some 0x6a || 10000 < script.length

/-- An input spends an output that is there. -/
def SpendsUnspent (unspent : Outputs) : Action → Prop
  | .spend o => o ∈ unspent.map Prod.fst
  | .create _ => True

/-- The output an action creates. -/
def Action.output : Action → Option (OutPoint × TxOut)
  | .spend _ => none
  | .create output => some output

/-- An outpoint names one output, even where a transaction is included twice. -/
def OneOutput (outputs : Outputs) : Prop :=
  ∀ e ∈ outputs, ∀ e' ∈ outputs, e.1 = e'.1 → e.2 = e'.2

/-- Blocks that the node accepts after the snapshot, and the snapshot is its UTXO set. -/
structure ValidRange (dump : Outputs) (blocks : List Block) : Prop where
  dump_spendable : ∀ e ∈ dump, isUnspendable e.2.scriptPubkey = false
  oneOutput : OneOutput (dump ++ (actionsOf blocks).filterMap Action.output)
  spends : EachStep (unspentAct isUnspendable) SpendsUnspent dump (actionsOf blocks)

theorem mem_output_actionsOf {blocks : List Block} {e : OutPoint × TxOut} :
    e ∈ (actionsOf blocks).filterMap Action.output ↔ ∃ tx ∈ blocks.flatten, e ∈ tx.created := by
  have htx : ∀ tx : Transaction, tx.actions.filterMap Action.output = tx.created := by
    intro tx
    rw [Transaction.actions]
    simp [Function.comp_def, Action.output]
  rw [actionsOf, List.filterMap_flatMap]
  simp only [htx, List.mem_flatMap]

theorem exists_mem_created {tx : Transaction} {output : TxOut} :
    (∃ o, (o, output) ∈ tx.created) ↔ output ∈ tx.outputs := by
  constructor
  · rintro ⟨o, h⟩
    obtain ⟨⟨out, i⟩, hmem, heq⟩ := List.mem_map.1 h
    cases heq
    exact (List.mem_zipIdx hmem).2.2 ▸ List.getElem_mem _
  · intro h
    obtain ⟨i, hi, rfl⟩ := List.mem_iff_getElem.1 h
    refine ⟨⟨tx.txid, UInt32.ofNat i⟩, List.mem_map.2 ⟨(tx.outputs[i], i), ?_, rfl⟩⟩
    exact List.mk_mem_zipIdx_iff_getElem?.2 (List.getElem?_eq_getElem hi)

section Kept

variable (hash160 : Bytes → ScriptHash)

/-- The replay and the UTXO set after the outputs `done` were created. -/
structure Kept (dump done : Outputs) (st : Replay)
    (unspent : Outputs) : Prop where
  unspent_or_unspendable : ∀ e ∈ st.inRangeCreated, ∃ out, (e.1, out) ∈ done ∧
    e = view hash160 (e.1, out) ∧
    (isUnspendable out.scriptPubkey = false → (e.1, out) ∈ unspent)
  unspendable_kept : ∀ e ∈ done, isUnspendable e.2.scriptPubkey = true →
    view hash160 e ∈ st.inRangeCreated
  spendable : ∀ e ∈ unspent, isUnspendable e.2.scriptPubkey = false ∧ e ∈ dump ++ done
  keysNodup : (st.deltas.map Prod.fst).Nodup
  noNew : ∀ h, (deltaOf st.deltas h).newUtxos = []

variable {hash160} {dump done unspent : Outputs} {st : Replay}
variable {utxos : OutPoint → Option ScriptHash}

/-- A spend removes the outpoint from what was created in the range, if it is there. -/
theorem inRangeCreated_spend (st : Replay) (o : OutPoint) :
    (st.spend utxos o).inRangeCreated = st.inRangeCreated.filter fun e => e.1 ≠ o := by
  unfold Replay.spend
  split_ifs with hin
  · rfl
  · have hfilter : (st.inRangeCreated.filter fun e => e.1 ≠ o) = st.inRangeCreated := by
      refine List.filter_eq_self.2 fun e he => decide_eq_true ?_
      rintro rfl
      exact hin (List.mem_map_of_mem he)
    rw [hfilter]
    cases utxos o <;> rfl

theorem Kept.deltas_spend (h : Kept hash160 dump done st unspent) (o : OutPoint) :
    ((st.spend utxos o).deltas.map Prod.fst).Nodup ∧
      ∀ hash, (deltaOf (st.spend utxos o).deltas hash).newUtxos = [] := by
  unfold Replay.spend
  split_ifs
  · exact ⟨h.keysNodup, h.noNew⟩
  · cases utxos o with
    | none => exact ⟨h.keysNodup, h.noNew⟩
    | some scriptHash =>
      dsimp only
      refine ⟨keys_entryOrDefault _ _ _ h.keysNodup, fun hash => ?_⟩
      rw [deltaOf_entryOrDefault]
      split_ifs
      · exact h.noNew scriptHash
      · exact h.noNew hash

theorem Kept.spend (h : Kept hash160 dump done st unspent) (hone : OneOutput (dump ++ done))
    {o : OutPoint} (ho : o ∈ unspent.map Prod.fst) :
    Kept hash160 dump done (st.spend utxos o) (unspent.filter fun e => e.1 ≠ o) where
  unspent_or_unspendable e he := by
    rw [inRangeCreated_spend] at he
    obtain ⟨he, hne⟩ := List.mem_filter.1 he
    obtain ⟨out, hdone, hview, hunspent⟩ := h.unspent_or_unspendable e he
    exact ⟨out, hdone, hview, fun hs => List.mem_filter.2 ⟨hunspent hs, hne⟩⟩
  unspendable_kept e he hun := by
    rw [inRangeCreated_spend]
    refine List.mem_filter.2 ⟨h.unspendable_kept e he hun, decide_eq_true ?_⟩
    -- The spent output is another one: it is spendable.
    rintro rfl
    obtain ⟨e', he', heq⟩ := List.mem_map.1 ho
    obtain ⟨hspendable, hmem⟩ := h.spendable e' he'
    rw [hone e' hmem e (List.mem_append_right _ he) heq] at hspendable
    rw [hspendable] at hun
    cases hun
  spendable e he := h.spendable e (List.mem_of_mem_filter he)
  keysNodup := (h.deltas_spend o).1
  noNew := (h.deltas_spend o).2

theorem Kept.create (h : Kept hash160 dump done st unspent) {output : OutPoint × TxOut}
    (hone : OneOutput (dump ++ (done ++ [output]))) :
    Kept hash160 dump (done ++ [output]) (st.create hash160 output)
      (unspentAct isUnspendable unspent (.create output)) where
  unspent_or_unspendable e he := by
    rcases List.mem_append.1 he with he | he
    · obtain ⟨he, -⟩ := List.mem_filter.1 he
      obtain ⟨out, hdone, hview, hunspent⟩ := h.unspent_or_unspendable e he
      refine ⟨out, List.mem_append_left _ hdone, hview, fun hs => ?_⟩
      rw [unspentAct]
      split_ifs
      · exact hunspent hs
      · exact List.mem_append_left _ (hunspent hs)
    · rw [List.mem_singleton.1 he]
      refine ⟨output.2, List.mem_append_right _ List.mem_cons_self, rfl, fun hs => ?_⟩
      rw [unspentAct, hs]
      exact List.mem_append_right _ List.mem_cons_self
  unspendable_kept e he hun := by
    have hlast : output ∈ dump ++ (done ++ [output]) :=
      List.mem_append_right _ (List.mem_append_right _ List.mem_cons_self)
    by_cases heq : e.1 = output.1
    · have hsame : e = output := Prod.ext heq (hone e (List.mem_append_right _ he) output hlast heq)
      rw [hsame]
      exact List.mem_append_right _ List.mem_cons_self
    · rcases List.mem_append.1 he with he | he
      · refine List.mem_append_left _ (List.mem_filter.2 ⟨h.unspendable_kept e he hun, ?_⟩)
        exact decide_eq_true heq
      · rw [List.mem_singleton.1 he] at heq
        exact absurd rfl heq
  spendable e he := by
    have hmono : ∀ e ∈ unspent,
        isUnspendable e.2.scriptPubkey = false ∧ e ∈ dump ++ (done ++ [output]) := by
      intro e he
      obtain ⟨hs, hmem⟩ := h.spendable e he
      rw [← List.append_assoc]
      exact ⟨hs, List.mem_append_left _ hmem⟩
    rw [unspentAct] at he
    split_ifs at he with hun
    · exact hmono e he
    · rcases List.mem_append.1 he with he | he
      · exact hmono e he
      · rw [List.mem_singleton.1 he]
        exact ⟨Bool.eq_false_iff.2 hun,
          List.mem_append_right _ (List.mem_append_right _ List.mem_cons_self)⟩
  keysNodup := h.keysNodup
  noNew := h.noNew

theorem OneOutput.subset {l l' : Outputs} (h : OneOutput l') (hsub : l ⊆ l') :
    OneOutput l := fun e he e' he' => h e (hsub he) e' (hsub he')

/-- The replay and the UTXO set stay related over all actions. -/
theorem Kept.run (utxos : OutPoint → Option ScriptHash) (acts : List Action)
    (h : Kept hash160 dump done st unspent)
    (hone : OneOutput (dump ++ (done ++ acts.filterMap Action.output)))
    (hspends : EachStep (unspentAct isUnspendable) SpendsUnspent unspent acts) :
    Kept hash160 dump (done ++ acts.filterMap Action.output)
      (acts.foldl (Replay.act hash160 utxos) st)
      (acts.foldl (unspentAct isUnspendable) unspent) := by
  induction acts generalizing done st unspent with
  | nil => simpa using h
  | cons act acts ih =>
    cases act with
    | spend o =>
      have hdone : OneOutput (dump ++ done) := hone.subset fun e he =>
        (List.mem_append.1 he).elim (List.mem_append_left _) fun he =>
          List.mem_append_right _ (List.mem_append_left _ he)
      exact ih (h.spend hdone hspends.1) hone hspends.2
    | create output =>
      have hcons : (Action.create output :: acts).filterMap Action.output =
          output :: acts.filterMap Action.output := rfl
      have hassoc : done ++ (Action.create output :: acts).filterMap Action.output =
          (done ++ [output]) ++ acts.filterMap Action.output := by
        rw [hcons, List.append_assoc, List.singleton_append]
      rw [hassoc] at hone ⊢
      have hdone : OneOutput (dump ++ (done ++ [output])) := hone.subset fun e he =>
        (List.mem_append.1 he).elim (List.mem_append_left _) fun he =>
          List.mem_append_right _ (List.mem_append_left _ he)
      exact ih (h.create hdone) hone hspends.2

theorem Kept.init (hdump : ∀ e ∈ dump, isUnspendable e.2.scriptPubkey = false) :
    Kept hash160 dump [] ⟨[], []⟩ dump where
  unspent_or_unspendable _ he := absurd he List.not_mem_nil
  unspendable_kept _ he := absurd he List.not_mem_nil
  spendable e he := ⟨hdump e he, List.mem_append_left _ he⟩
  keysNodup := List.nodup_nil
  noNew _ := rfl

theorem ValidRange.kept {blocks : List Block} (h : ValidRange dump blocks) :
    Kept hash160 dump ((actionsOf blocks).filterMap Action.output)
      (replayBlocks hash160 dump blocks) (unspentAfter isUnspendable dump blocks) := by
  rw [replayBlocks_eq, unspentAfter_eq]
  have hinit : Kept hash160 dump [] ⟨[], []⟩ dump := .init h.dump_spendable
  have hrun := hinit.run (utxoMap hash160 dump) (actionsOf blocks)
    (by rw [List.nil_append]; exact h.oneOutput) h.spends
  rwa [List.nil_append] at hrun

end Kept

section File

variable {hash160 : Bytes → ScriptHash} {dump done unspent : Outputs} {st : Replay}
variable {drained : Created}

/-- The new entries that are written are the outputs the replay kept, without dust. -/
theorem Kept.mem_written (h : Kept hash160 dump done st unspent)
    (hdrained : drained.Perm st.inRangeCreated) (hash : ScriptHash) (n : UtxoEntry) :
    (∃ d, (hash, d) ∈ addNewUtxos st.deltas drained ∧ n ∈ d.newUtxos) ↔
      (n.point, hash, n.amountSats) ∈ st.inRangeCreated ∧ dustThreshold < n.amountSats := by
  have hnew : n ∈ (deltaOf (addNewUtxos st.deltas drained) hash).newUtxos ↔
      (n.point, hash, n.amountSats) ∈ st.inRangeCreated ∧ dustThreshold < n.amountSats := by
    rw [deltaOf_addNewUtxos, h.noNew, List.nil_append, mem_above, hdrained.mem_iff]
  rw [← hnew]
  constructor
  · rintro ⟨d, hd, hn⟩
    rwa [deltaOf_of_mem (keys_addNewUtxos h.keysNodup drained) hd]
  · intro hn
    by_cases hkey : hash ∈ (addNewUtxos st.deltas drained).map Prod.fst
    · obtain ⟨e, he, rfl⟩ := List.mem_map.1 hkey
      rw [deltaOf_of_mem (keys_addNewUtxos h.keysNodup drained) he] at hn
      exact ⟨e.2, he, hn⟩
    · rw [deltaOf_of_not_mem hkey] at hn
      cases hn

/-- An output the replay kept is in the UTXO set iff it can be spent. -/
theorem Kept.mem_unspent_iff (h : Kept hash160 dump done st unspent)
    (hone : OneOutput (dump ++ done)) {o : OutPoint} {out : TxOut} (hdone : (o, out) ∈ done)
    (hkept : view hash160 (o, out) ∈ st.inRangeCreated) :
    view hash160 (o, out) ∈ unspent.map (view hash160) ↔
      isUnspendable out.scriptPubkey = false := by
  constructor
  · intro hmem
    obtain ⟨out', hin, -, -⟩ := mem_map_view.1 hmem
    obtain ⟨hs, hall⟩ := h.spendable _ hin
    rwa [hone _ hall _ (List.mem_append_right _ hdone) rfl] at hs
  · intro hs
    obtain ⟨out', hdone', -, hin⟩ := h.unspent_or_unspendable _ hkept
    have hsame : out' = out :=
      hone _ (List.mem_append_right _ hdone') _ (List.mem_append_right _ hdone) rfl
    rw [hsame] at hin
    exact List.mem_map_of_mem (hin hs)

end File

/-- **New entries are members of the UTXO set.** For every snapshot and every range of valid blocks,
every new entry that is written for a script hash is an output above the dust threshold that the UTXO
set after the range has for that hash, iff no output of the range above the threshold is provably
unspendable. -/
theorem newEntries_mem_utxoSet_iff (hash160 : Bytes → ScriptHash) {dump : Outputs}
    {blocks : List Block} (hvalid : ValidRange dump blocks)
    {drained : Created}
    (hdrained : drained.Perm (replayBlocks hash160 dump blocks).inRangeCreated) :
    (∀ e ∈ addNewUtxos (replayBlocks hash160 dump blocks).deltas drained, ∀ n ∈ e.2.newUtxos,
      n ∈ entriesAbove hash160 (unspentAfter isUnspendable dump blocks) e.1) ↔
    ∀ tx ∈ blocks.flatten, ∀ output ∈ tx.outputs, dustThreshold < output.value →
      isUnspendable output.scriptPubkey = false := by
  have hkept : Kept hash160 dump _ (replayBlocks hash160 dump blocks)
    (unspentAfter isUnspendable dump blocks) := hvalid.kept
  constructor
  · intro hall tx htx output hout hvalue
    obtain ⟨o, ho⟩ := exists_mem_created.2 hout
    have hdone := mem_output_actionsOf.2 ⟨tx, htx, ho⟩
    by_contra hun
    have hin := hkept.unspendable_kept _ hdone (Bool.eq_true_of_not_eq_false hun)
    -- The output is kept to the end of the range, and written.
    obtain ⟨d, hd, hn⟩ := (hkept.mem_written hdrained (hash160 output.scriptPubkey)
      ⟨o.txid, o.vout, output.value⟩).2 ⟨hin, hvalue⟩
    have hmem := (mem_above.1 (hall _ hd _ hn)).1
    exact hun ((hkept.mem_unspent_iff hvalid.oneOutput hdone hin).1 hmem)
  · intro hall e he n hn
    obtain ⟨hin, hvalue⟩ := (hkept.mem_written hdrained e.1 n).1 ⟨e.2, he, hn⟩
    obtain ⟨out, hdone, hview, -⟩ := hkept.unspent_or_unspendable _ hin
    obtain ⟨tx, htx, ho⟩ := mem_output_actionsOf.1 hdone
    have hout := exists_mem_created.1 ⟨_, ho⟩
    have hamount : n.amountSats = out.value := congrArg (fun v => v.2.2) hview
    have hspendable := hall tx htx out hout (hamount ▸ hvalue)
    rw [hview] at hin
    refine mem_above.2 ⟨?_, hvalue⟩
    rw [hview]
    exact (hkept.mem_unspent_iff hvalid.oneOutput hdone hin).2 hspendable

namespace OneCoinbase

def point : OutPoint := ⟨⟨List.replicate 32 5, rfl⟩, 0⟩

/-- One block with a coinbase transaction of one output. -/
def blocks (output : TxOut) : List Block := [[⟨point.txid, true, [], [output]⟩]]

theorem valid (output : TxOut) : ValidRange [] (blocks output) where
  dump_spendable _ he := absurd he List.not_mem_nil
  oneOutput e he e' he' _ := by
    rw [List.mem_singleton.1 he, List.mem_singleton.1 he']
  spends := ⟨trivial, trivial⟩

def payment : TxOut := ⟨List.replicate 20 1, 1000⟩

def opReturn : TxOut := ⟨[0x6a, 0], 1000⟩

end OneCoinbase

open OneCoinbase OneBlock in
/-- A payment is written, and in the UTXO set. -/
theorem newEntries_mem_utxoSet_iff_payment :
    addNewUtxos (replayBlocks hash160 [] (blocks payment)).deltas
        (replayBlocks hash160 [] (blocks payment)).inRangeCreated =
      [(hash160 payment.scriptPubkey, ⟨[], [⟨point.txid, 0, 1000⟩]⟩)] ∧
    ⟨point.txid, 0, 1000⟩ ∈ entriesAbove hash160 (unspentAfter isUnspendable [] (blocks payment))
      (hash160 payment.scriptPubkey) := by
  refine ⟨by rfl, ?_⟩
  have hall := (newEntries_mem_utxoSet_iff hash160 (valid payment) (List.Perm.refl _)).2 (by decide)
  exact hall _ List.mem_cons_self _ List.mem_cons_self

open OneCoinbase OneBlock in
/-- An `OP_RETURN` output with an amount is written, and never in the UTXO set. -/
theorem opReturn_written :
    ValidRange [] (blocks opReturn) ∧
    addNewUtxos (replayBlocks hash160 [] (blocks opReturn)).deltas
        (replayBlocks hash160 [] (blocks opReturn)).inRangeCreated =
      [(hash160 opReturn.scriptPubkey, ⟨[], [⟨point.txid, 0, 1000⟩]⟩)] ∧
    unspentAfter isUnspendable [] (blocks opReturn) = [] :=
  ⟨valid opReturn, by rfl, by rfl⟩

end BitcoinPir.Sync
