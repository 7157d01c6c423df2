import BitcoinPir.Foundations.Lists
import BitcoinPir.Sync.Replay

/-!
# The replay follows the chain

The replay of `delta_gen_0` and the chain itself both go through the spends and the creations of a
range one by one (`Action`). `ReplayInv` relates them: an output of a spendable script hash is
unspent exactly if it was created in the range and is still kept, or is in the snapshot and not
noted as spent. Each action keeps it (`ReplayInv.spend`, `ReplayInv.create`), so that it holds at
the end of the range (`replayBlocks_inv`).
-/

namespace BitcoinPir.Sync

open Foundations

/-- What a transaction does, in the order the replay does it. -/
inductive Action
  | spend (o : OutPoint)
  | create (output : OutPoint × TxOut)

def Transaction.actions (tx : Transaction) : List Action :=
  tx.spends.map .spend ++ tx.created.map .create

/-- The outpoint an action creates. -/
def Action.created : Action → Option OutPoint
  | .spend _ => none
  | .create output => some output.1

/-- The outpoint an action spends. -/
def Action.spent : Action → Option OutPoint
  | .spend o => some o
  | .create _ => none

/-- The delta of a script hash; empty for one without an entry. -/
def deltaOf (deltas : Deltas) (h : ScriptHash) : ScriptDelta :=
  (deltas.lookup h).getD ⟨[], []⟩

theorem deltaOf_of_mem {deltas : Deltas} (hnodup : (deltas.map Prod.fst).Nodup)
    {e : ScriptHash × ScriptDelta} (he : e ∈ deltas) : deltaOf deltas e.1 = e.2 := by
  rw [deltaOf, lookup_eq_some_of_mem hnodup he, Option.getD_some]

theorem deltaOf_of_not_mem {deltas : Deltas} {h : ScriptHash}
    (hh : h ∉ deltas.map Prod.fst) : deltaOf deltas h = ⟨[], []⟩ := by
  have hnone : deltas.lookup h = none := by
    rw [List.lookup_eq_none_iff]
    intro e he
    rw [bne_iff_ne]
    rintro rfl
    exact hh (List.mem_map_of_mem he)
  rw [deltaOf, hnone, Option.getD_none]

theorem lookup_map_entry (deltas : Deltas) (h : ScriptHash)
    (change : ScriptDelta → ScriptDelta) (h' : ScriptHash) :
    (deltas.map fun e => if e.1 = h then (e.1, change e.2) else e).lookup h' =
      if h' = h then (deltas.lookup h').map change else deltas.lookup h' := by
  induction deltas with
  | nil => simp
  | cons e deltas ih =>
    obtain ⟨k, d⟩ := e
    rw [List.map_cons]
    by_cases hhere : h' = k
    · subst hhere
      by_cases heq : h' = h
      · simp only [heq, if_true, List.lookup_cons_self, Option.map_some]
      · simp only [heq, if_false, List.lookup_cons_self]
    · have hne : (h' == k) = false := beq_eq_false_iff_ne.2 hhere
      by_cases heq : k = h
      · rw [if_pos heq, List.lookup_cons, List.lookup_cons, hne]
        exact ih
      · rw [if_neg heq, List.lookup_cons, List.lookup_cons, hne]
        exact ih

theorem deltaOf_entryOrDefault (deltas : Deltas) (h : ScriptHash)
    (change : ScriptDelta → ScriptDelta) (h' : ScriptHash) :
    deltaOf (entryOrDefault deltas h change) h' =
      if h' = h then change (deltaOf deltas h) else deltaOf deltas h' := by
  unfold entryOrDefault
  split_ifs with hmem heq heq
  · subst heq
    rw [deltaOf, lookup_map_entry, if_pos rfl]
    obtain ⟨e, he, rfl⟩ := List.mem_map.1 hmem
    obtain ⟨d, hd⟩ : ∃ d, deltas.lookup e.1 = some d := by
      cases hl : deltas.lookup e.1 with
      | some d => exact ⟨d, rfl⟩
      | none =>
        rw [List.lookup_eq_none_iff] at hl
        have := hl e he
        simp at this
    rw [deltaOf, hd]
    rfl
  · rw [deltaOf, lookup_map_entry, if_neg heq, deltaOf]
  · subst heq
    have hnone := deltaOf_of_not_mem hmem
    rw [hnone, deltaOf, List.lookup_append]
    have hl : deltas.lookup h' = none := by
      rw [List.lookup_eq_none_iff]
      intro e he
      rw [bne_iff_ne]
      rintro rfl
      exact hmem (List.mem_map_of_mem he)
    rw [hl]
    simp
  · rw [deltaOf, List.lookup_append, deltaOf]
    have hl : List.lookup h' [(h, change ⟨[], []⟩)] = none := by
      rw [List.lookup_cons, beq_eq_false_iff_ne.2 heq, List.lookup_nil]
    rw [hl, Option.or_none]

theorem keys_entryOrDefault (deltas : Deltas) (h : ScriptHash)
    (change : ScriptDelta → ScriptDelta) (hnodup : (deltas.map Prod.fst).Nodup) :
    ((entryOrDefault deltas h change).map Prod.fst).Nodup := by
  unfold entryOrDefault
  split_ifs with hmem
  · have hkeys : (deltas.map fun e => if e.1 = h then (e.1, change e.2) else e).map Prod.fst =
        deltas.map Prod.fst := by
      rw [List.map_map]
      apply List.map_congr_left
      intro e _
      rw [Function.comp_apply]
      split_ifs <;> rfl
    rw [hkeys]
    exact hnodup
  · rw [List.map_append, List.map_singleton, ← List.concat_eq_append]
    exact hnodup.concat hmem

section Replay

variable (hash160 : Bytes → ScriptHash) (unspendable : Bytes → Bool)

def Replay.act (utxos : OutPoint → Option ScriptHash) (st : Replay) : Action → Replay
  | .spend o => st.spend utxos o
  | .create output => st.create hash160 output

/-- One action of the chain. -/
def unspentAct (unspent : Outputs) : Action → Outputs
  | .spend o => unspent.filter fun e => e.1 ≠ o
  | .create output => if unspendable output.2.scriptPubkey then unspent else unspent ++ [output]

def actionsOf (blocks : List Block) : List Action := blocks.flatten.flatMap Transaction.actions

theorem replayBlocks_eq (dump : Outputs) (blocks : List Block) :
    replayBlocks hash160 dump blocks =
      (actionsOf blocks).foldl (Replay.act hash160 (utxoMap hash160 dump)) ⟨[], []⟩ := by
  rw [replayBlocks, actionsOf, List.foldl_flatMap, List.foldl_flatten]
  congr 1
  funext st block
  congr 1
  funext st tx
  rw [Transaction.actions, List.foldl_append, List.foldl_map, List.foldl_map, Replay.tx,
    Transaction.spends]
  cases tx.isCoinbase <;> rfl

theorem foldl_spend (unspent : Outputs) (spends : List OutPoint) :
    spends.foldl (fun u o => u.filter fun e => e.1 ≠ o) unspent =
      unspent.filter fun e => e.1 ∉ spends := by
  induction spends generalizing unspent with
  | nil => simp
  | cons o spends ih =>
    rw [List.foldl_cons, ih]
    simp [Bool.and_comm]

theorem foldl_create (unspent created : Outputs) :
    created.foldl (fun u output =>
        if unspendable output.2.scriptPubkey then u else u ++ [output]) unspent =
      unspent ++ created.filter fun e => !unspendable e.2.scriptPubkey := by
  induction created generalizing unspent with
  | nil => simp
  | cons output created ih =>
    rw [List.foldl_cons, ih]
    cases hu : unspendable output.2.scriptPubkey <;> simp [hu]

theorem unspentAfter_eq (unspent : Outputs) (blocks : List Block) :
    unspentAfter unspendable unspent blocks =
      (actionsOf blocks).foldl (unspentAct unspendable) unspent := by
  rw [unspentAfter, actionsOf, List.foldl_flatMap]
  congr 1
  funext u tx
  rw [Transaction.actions, List.foldl_append, List.foldl_map, List.foldl_map]
  change _ = tx.created.foldl _ (tx.spends.foldl (fun u o => u.filter fun e => e.1 ≠ o) u)
  rw [foldl_spend]
  exact (foldl_create unspendable _ _).symm

/-- Outpoint, script hash and amount of an output. -/
def view (e : OutPoint × TxOut) : OutPoint × ScriptHash × UInt64 :=
  (e.1, hash160 e.2.scriptPubkey, e.2.value)

/-- No unspendable script has this hash. -/
def Spendable (h : ScriptHash) : Prop := ∀ script, unspendable script = true → hash160 script ≠ h

/-- What relates the replay to the chain after the outpoints `done` were created and `spends`
outputs were spent. -/
structure ReplayInv (dump : Outputs) (done : List OutPoint) (spends : ℕ)
    (st : Replay) (unspent : Outputs) : Prop where
  created : ∀ e ∈ st.inRangeCreated, e.1 ∈ done
  createdNodup : (st.inRangeCreated.map Prod.fst).Nodup
  createdLen : st.inRangeCreated.length ≤ done.length
  unspentKeys : ∀ e ∈ unspent, e.1 ∈ dump.map Prod.fst ∨ e.1 ∈ done
  unspentNodup : (unspent.map Prod.fst).Nodup
  deltasNodup : (st.deltas.map Prod.fst).Nodup
  /-- An output of a spendable script hash is unspent if it is kept, or in the snapshot and not
  noted as spent. -/
  exact : ∀ h, Spendable hash160 unspendable h → ∀ o v, (o, h, v) ∈ unspent.map (view hash160) ↔
    (o, h, v) ∈ st.inRangeCreated ∨
      (o, h, v) ∈ dump.map (view hash160) ∧ o ∉ (deltaOf st.deltas h).spent
  noNew : ∀ h, (deltaOf st.deltas h).newUtxos = []
  spentLen : ∀ h, (deltaOf st.deltas h).spent.length ≤ spends

variable {hash160 unspendable} {dump : Outputs} {done : List OutPoint} {n : ℕ}
variable {st : Replay} {unspent : Outputs}

variable {l : Outputs} {o : OutPoint} {h : ScriptHash}

theorem mem_map_view {v : UInt64} :
    (o, h, v) ∈ l.map (view hash160) ↔
      ∃ out, (o, out) ∈ l ∧ hash160 out.scriptPubkey = h ∧ out.value = v := by
  constructor
  · intro hmem
    obtain ⟨⟨o', out⟩, he, heq⟩ := List.mem_map.1 hmem
    cases heq
    exact ⟨out, he, rfl, rfl⟩
  · rintro ⟨out, he, rfl, rfl⟩
    exact List.mem_map.2 ⟨(o, out), he, rfl⟩

theorem mem_filter_view {o' : OutPoint} {v : UInt64} :
    (o', h, v) ∈ (l.filter fun e => e.1 ≠ o).map (view hash160) ↔
      (o', h, v) ∈ l.map (view hash160) ∧ o' ≠ o := by
  simp only [mem_map_view, List.mem_filter, decide_eq_true_eq]
  constructor
  · rintro ⟨out, ⟨he, hne⟩, hrest⟩
    exact ⟨⟨out, he, hrest⟩, hne⟩
  · rintro ⟨⟨out, he, hrest⟩, hne⟩
    exact ⟨out, ⟨he, hne⟩, hrest⟩

theorem key_of_mem_view {v : UInt64} (hmem : (o, h, v) ∈ l.map (view hash160)) :
    o ∈ l.map Prod.fst := by
  obtain ⟨out, he, -⟩ := mem_map_view.1 hmem
  exact List.mem_map_of_mem he

/-- With distinct outpoints the map of the snapshot has every output's script hash. -/
theorem utxoMap_of_mem (hdump : (dump.map Prod.fst).Nodup) {v : UInt64}
    (hmem : (o, h, v) ∈ dump.map (view hash160)) : utxoMap hash160 dump o = some h := by
  obtain ⟨out, he, rfl, -⟩ := mem_map_view.1 hmem
  refine lookup_eq_some_of_mem ?_ (List.mem_map.2 ⟨(o, out), List.mem_reverse.2 he, rfl⟩)
  rw [List.map_map, List.map_reverse, List.nodup_reverse]
  exact hdump

/-- The unspent outputs after a spend, apart from what the replay does. -/
theorem ReplayInv.unspent_filter (h : ReplayInv hash160 unspendable dump done n st unspent)
    (o : OutPoint) :
    (∀ e ∈ unspent.filter (fun e => e.1 ≠ o), e.1 ∈ dump.map Prod.fst ∨ e.1 ∈ done) ∧
      ((unspent.filter fun e => e.1 ≠ o).map Prod.fst).Nodup :=
  ⟨fun e he => h.unspentKeys e (List.mem_of_mem_filter he),
    h.unspentNodup.sublist (List.filter_sublist.map _)⟩

/-- **A spend keeps the replay and the chain together.** -/
theorem ReplayInv.spend (h : ReplayInv hash160 unspendable dump done n st unspent)
    (hdump : (dump.map Prod.fst).Nodup) (hdisj : ∀ o ∈ done, o ∉ dump.map Prod.fst) (o : OutPoint) :
    ReplayInv hash160 unspendable dump done (n + 1) (st.spend (utxoMap hash160 dump) o)
      (unspent.filter fun e => e.1 ≠ o) := by
  obtain ⟨hkeys, hnodup⟩ := h.unspent_filter o
  unfold Replay.spend
  split_ifs with hcreated
  · -- The output was created in the range, so that it is not in the snapshot.
    obtain ⟨e₀, he₀, rfl⟩ := List.mem_map.1 hcreated
    have hnot := hdisj _ (h.created e₀ he₀)
    refine ⟨fun e he => h.created e (List.mem_of_mem_filter he),
      h.createdNodup.sublist (List.filter_sublist.map _),
      (List.length_filter_le _ _).trans h.createdLen, hkeys, hnodup, h.deltasNodup, ?_, h.noNew,
      fun h' => (h.spentLen h').trans (Nat.le_succ n)⟩
    intro hash hspendable o' v
    rw [mem_filter_view, h.exact hash hspendable, List.mem_filter, decide_eq_true_eq, or_and_right]
    refine or_congr Iff.rfl ⟨fun hold => hold.1, fun hold => ⟨hold, ?_⟩⟩
    rintro rfl
    exact hnot (key_of_mem_view hold.1)
  · have hne : ∀ hash v, (o, hash, v) ∉ st.inRangeCreated := fun hash v hmem =>
      hcreated (List.mem_map.2 ⟨_, hmem, rfl⟩)
    cases hutxo : utxoMap hash160 dump o with
    | none =>
      refine ⟨h.created, h.createdNodup, h.createdLen, hkeys, hnodup, h.deltasNodup, ?_, h.noNew,
        fun h' => (h.spentLen h').trans (Nat.le_succ n)⟩
      intro hash hspendable o' v
      rw [mem_filter_view, h.exact hash hspendable]
      -- The outpoint is unknown, so that no output has it.
      refine ⟨fun hold => hold.1, fun hold => ⟨hold, ?_⟩⟩
      rintro rfl
      rcases hold with hold | hold
      · exact hne _ _ hold
      · rw [utxoMap_of_mem hdump hold.1] at hutxo
        cases hutxo
    | some hash₀ =>
      have hspent : ∀ hash, (deltaOf (entryOrDefault st.deltas hash₀ fun d =>
          { d with spent := d.spent ++ [o] }) hash).spent =
          (deltaOf st.deltas hash).spent ++ if hash = hash₀ then [o] else [] := by
        intro hash
        rw [deltaOf_entryOrDefault]
        split_ifs with heq
        · rw [heq]
        · rw [List.append_nil]
      refine ⟨h.created, h.createdNodup, h.createdLen, hkeys, hnodup, ?_, ?_, ?_, ?_⟩
      · dsimp only
        exact keys_entryOrDefault _ _ _ h.deltasNodup
      · intro hash hspendable o' v
        rw [mem_filter_view, h.exact hash hspendable, hspent, List.mem_append, not_or]
        constructor
        · rintro ⟨hold | hold, hneq⟩
          · exact .inl hold
          · refine .inr ⟨hold.1, hold.2, ?_⟩
            split_ifs
            · exact fun hmem => hneq (List.mem_singleton.1 hmem)
            · exact List.not_mem_nil
        · rintro (hold | ⟨hold, hnotSpent, hnotNow⟩)
          · refine ⟨.inl hold, ?_⟩
            rintro rfl
            exact hne _ _ hold
          · refine ⟨.inr ⟨hold, hnotSpent⟩, ?_⟩
            rintro rfl
            have heq : hash₀ = hash := by
              rw [utxoMap_of_mem hdump hold] at hutxo
              exact (Option.some_inj.1 hutxo).symm
            rw [if_pos heq.symm] at hnotNow
            exact hnotNow List.mem_cons_self
      · intro hash
        rw [deltaOf_entryOrDefault]
        split_ifs
        · exact h.noNew hash₀
        · exact h.noNew hash
      · intro hash
        rw [hspent, List.length_append]
        have hone : (if hash = hash₀ then [o] else []).length ≤ 1 := by
          split_ifs <;> simp
        exact Nat.add_le_add (h.spentLen hash) hone

/-- **A creation keeps the replay and the chain together.** -/
theorem ReplayInv.create (h : ReplayInv hash160 unspendable dump done n st unspent)
    {output : OutPoint × TxOut} (hnew : output.1 ∉ done) (hdump : output.1 ∉ dump.map Prod.fst) :
    ReplayInv hash160 unspendable dump (done ++ [output.1]) n (st.create hash160 output)
      (unspentAct unspendable unspent (.create output)) := by
  obtain ⟨o, out⟩ := output
  have hfilter : (st.inRangeCreated.filter fun e => e.1 ≠ o) = st.inRangeCreated := by
    rw [List.filter_eq_self]
    intro e he
    rw [decide_eq_true_eq]
    rintro rfl
    exact hnew (h.created e he)
  have hfresh : o ∉ unspent.map Prod.fst := by
    intro hmem
    obtain ⟨e, he, rfl⟩ := List.mem_map.1 hmem
    exact (h.unspentKeys e he).elim hdump hnew
  have hst : (st.create hash160 (o, out)) = { st with inRangeCreated := st.inRangeCreated ++
      [(o, hash160 out.scriptPubkey, out.value)] } := by
    rw [Replay.create, hfilter]
  have hsub : ∀ e ∈ unspentAct unspendable unspent (.create (o, out)),
      e ∈ unspent ∨ e = (o, out) := by
    intro e he
    rw [unspentAct] at he
    split_ifs at he
    · exact .inl he
    · exact (List.mem_append.1 he).imp_right List.mem_singleton.1
  rw [hst]
  refine ⟨?_, ?_, ?_, ?_, ?_, h.deltasNodup, ?_, h.noNew, h.spentLen⟩
  · intro e he
    rcases List.mem_append.1 he with he | he
    · exact List.mem_append_left _ (h.created e he)
    · rw [List.mem_singleton.1 he]
      exact List.mem_append_right _ List.mem_cons_self
  · rw [List.map_append, List.map_singleton, ← List.concat_eq_append]
    refine h.createdNodup.concat fun ha => ?_
    obtain ⟨e, he, rfl⟩ := List.mem_map.1 ha
    exact hnew (h.created e he)
  · rw [List.length_append, List.length_append]
    exact Nat.add_le_add_right h.createdLen 1
  · intro e he
    rcases hsub e he with he | rfl
    · exact (h.unspentKeys e he).imp_right (List.mem_append_left _)
    · exact .inr (List.mem_append_right _ List.mem_cons_self)
  · rw [unspentAct]
    split_ifs
    · exact h.unspentNodup
    · rw [List.map_append, List.map_singleton, ← List.concat_eq_append]
      exact h.unspentNodup.concat hfresh
  · intro hash hspendable o' v
    have hact : (o', hash, v) ∈ (unspentAct unspendable unspent (.create (o, out))).map
        (view hash160) ↔ (o', hash, v) ∈ unspent.map (view hash160) ∨
          (o', hash, v) = (o, hash160 out.scriptPubkey, out.value) := by
      rw [unspentAct]
      split_ifs with hun
      · -- An unspendable output has another script hash.
        refine ⟨.inl, fun hmem => hmem.resolve_right fun heq => ?_⟩
        cases heq
        exact hspendable _ hun rfl
      · rw [List.map_append, List.map_singleton, List.mem_append, List.mem_singleton]
        rfl
    rw [hact, h.exact hash hspendable, List.mem_append, List.mem_singleton]
    tauto

/-- **The replay and the chain stay together over all actions.** -/
theorem ReplayInv.run (acts : List Action) (h : ReplayInv hash160 unspendable dump done n st unspent)
    (hunique : (dump.map Prod.fst ++ (done ++ acts.filterMap Action.created)).Nodup) :
    ReplayInv hash160 unspendable dump (done ++ acts.filterMap Action.created)
      (n + (acts.filterMap Action.spent).length)
      (acts.foldl (Replay.act hash160 (utxoMap hash160 dump)) st)
      (acts.foldl (unspentAct unspendable) unspent) := by
  induction acts generalizing done n st unspent with
  | nil => simpa using h
  | cons act acts ih =>
    obtain ⟨hdump, hrest, hdisj⟩ := List.nodup_append.1 hunique
    cases act with
    | spend o =>
      have hstep := h.spend hdump (fun o' ho' hmem =>
        hdisj o' hmem o' (List.mem_append_left _ ho') rfl) o
      have hlen : n + ((Action.spend o :: acts).filterMap Action.spent).length =
          n + 1 + (acts.filterMap Action.spent).length := by
        change n + ((acts.filterMap Action.spent).length + 1) = _
        omega
      rw [hlen]
      exact ih hstep hunique
    | create output =>
      have hcons : (Action.create output :: acts).filterMap Action.created =
          output.1 :: acts.filterMap Action.created := rfl
      have hmem : output.1 ∈ (Action.create output :: acts).filterMap Action.created := by
        exact List.mem_cons_self
      have hstep := h.create
        (fun hdone => (List.nodup_append.1 hrest).2.2 output.1 hdone output.1 hmem rfl)
        (fun hin => hdisj output.1 hin output.1 (List.mem_append_right _ hmem) rfl)
      have hassoc : done ++ (Action.create output :: acts).filterMap Action.created =
          (done ++ [output.1]) ++ acts.filterMap Action.created := by
        rw [hcons, List.append_assoc, List.singleton_append]
      rw [hassoc] at hunique ⊢
      exact ih hstep hunique

theorem ReplayInv.init (hdump : (dump.map Prod.fst).Nodup) :
    ReplayInv hash160 unspendable dump [] 0 ⟨[], []⟩ dump where
  created _ he := absurd he List.not_mem_nil
  createdNodup := List.nodup_nil
  createdLen := le_rfl
  unspentKeys e he := .inl (List.mem_map_of_mem he)
  unspentNodup := hdump
  deltasNodup := List.nodup_nil
  exact h _ o v := by simp [deltaOf]
  noNew _ := rfl
  spentLen _ := le_rfl

theorem replayBlocks_inv {blocks : List Block}
    (hunique : (dump.map Prod.fst ++ createdOutpoints blocks).Nodup) :
    ReplayInv hash160 unspendable dump (createdOutpoints blocks)
      (blocks.flatten.flatMap Transaction.spends).length (replayBlocks hash160 dump blocks)
      (unspentAfter unspendable dump blocks) := by
  have hcreated : (actionsOf blocks).filterMap Action.created = createdOutpoints blocks := by
    rw [actionsOf, List.filterMap_flatMap]
    congr 1
    funext tx
    rw [Transaction.actions]
    simp [Function.comp_def, Action.created]
  have hspent : (actionsOf blocks).filterMap Action.spent =
      blocks.flatten.flatMap Transaction.spends := by
    rw [actionsOf, List.filterMap_flatMap]
    congr 1
    funext tx
    rw [Transaction.actions]
    simp [Function.comp_def, Action.spent]
  have hinit : ReplayInv hash160 unspendable dump [] 0 ⟨[], []⟩ dump :=
    .init (List.nodup_append.1 hunique).1
  have hrun := hinit.run (actionsOf blocks) (by rwa [List.nil_append, hcreated])
  rw [Nat.zero_add, hcreated, hspent, ← replayBlocks_eq, ← unspentAfter_eq] at hrun
  exact hrun

end Replay

end BitcoinPir.Sync
