import BitcoinPir.Core.Pbc
import BitcoinPir.Bucket.Verify
import BitcoinPir.Sync.Step

/-!
# INDEX rounds of a batch, and what they show

A batch of script hashes is planned into INDEX rounds: a round asks every PBC group for two bins,
and a script hash is asked for in one of its three candidate groups. The two bins of a script
hash become two Merkle items of its group, and the Merkle verifier sends as many padded passes
per sibling level as the fullest group has items.

A server sees the number of rounds and the number of passes. Both are the same for all batches
that fit into one round, and a batch that does not fit shows: `indexTraffic_uniform_iff`.
-/

namespace BitcoinPir.Sync

open Foundations Bucket

/-! ## The plan -/

/-- The number of candidate groups of a script hash. -/
def numHashes : ℕ := 3

/-- The most kicks before a script hash is left for the next round. -/
def indexMaxKicks : ℕ := 500

/-- Where a script hash is placed. -/
structure IndexPlanSlot where
  roundId : ℕ
  pbcGroup : ℕ
  deriving DecidableEq

/-- Script hash and group of each placement of a round. -/
abbrev IndexPbcRound := List (ℕ × ℕ)

/-- The rounds, and where each script hash is placed. -/
abbrev IndexPbcPlan := List IndexPbcRound × List IndexPlanSlot

def planIndexPbcRounds (candidateGroups : List (List ℕ)) (k : ℕ) : IndexPbcPlan :=
  let rounds := pbcPlanRounds candidateGroups numHashes k indexMaxKicks
  let placement := rounds.zipIdx.foldl (fun placement (round, roundId) =>
      round.foldl (fun placement (shIdx, pbcGroup) => placement.set shIdx ⟨roundId, pbcGroup⟩)
        placement)
    (List.replicate candidateGroups.length ⟨0, 0⟩)
  (rounds, placement)

/-- Plan the rounds of a batch; `none` if the nonces of a candidate search run out. -/
def planIndexPbcRoundsForHashes (scriptHashes : List ScriptHash) (k : ℕ) :
    PirResult (Option IndexPbcPlan) := do
  require (scriptHashes ≠ [])
    (.invalidState "INDEX PBC planner requires at least one script hash")
  require (numHashes ≤ k)
    (.invalidState s!"INDEX PBC planner requires k >= {numHashes}, got {k}")
  return (scriptHashes.mapM (deriveGroups3 · k)).map (planIndexPbcRounds · k)

/-- Every script hash of the batch, in turn, finds a place in one round. -/
def FitsIndexRound (scriptHashes : List ScriptHash) (k : ℕ) : Prop :=
  FitsOneRound (scriptHashes.filterMap (deriveGroups3 · k)) numHashes k indexMaxKicks

instance (scriptHashes : List ScriptHash) (k : ℕ) : Decidable (FitsIndexRound scriptHashes k) :=
  inferInstanceAs (Decidable (FitsOneRound _ _ _ _))

/-! ## The INDEX phase -/

/-- What the servers' answers to a batch come to. -/
structure BatchReplies where
  /-- The INDEX bin reconstructed for a round, a group and a cuckoo hash. -/
  indexBin : ℕ → ℕ → ℕ → Bytes
  /-- The matched bin of a query. -/
  matchedIdx : ℕ → Option ℕ
  /-- The CHUNK bins of a query. -/
  chunkBins : ℕ → List BinTrace

section Batch

variable (db : DatabaseInfo) (treeTops : List TreeTop) (scriptHashes : List ScriptHash)
  (plan : IndexPbcPlan) (replies : BatchReplies)

/-- The bins at which each script hash is looked for, in its planned group. -/
def indexLocs (placement : List IndexPlanSlot) : List (List ℕ) :=
  scriptHashes.zipWith (fun scriptHash slot =>
    (List.range indexParams.cuckooNumHashes).map fun h =>
      cuckooHash scriptHash (deriveCuckooKey db.indexMasterSeed slot.pbcGroup h)
        db.indexBins.toNat) placement

/-- The bins inspected, round by round, each with its script hash. -/
def indexProbes (locs : List (List ℕ)) (rounds : List IndexPbcRound) (replies : BatchReplies) :
    List (ℕ × List BinTrace) :=
  rounds.zipIdx.flatMap fun (round, roundId) => round.map fun (shIdx, pbcGroup) =>
    (shIdx, (List.range indexParams.cuckooNumHashes).map fun h =>
      { pbcGroup
        binIndex := UInt32.ofNat ((locs.getD shIdx []).getD h 0)
        binContent := replies.indexBin roundId pbcGroup h })

/-- The INDEX bins inspected for each script hash. -/
def indexBinsPerSh : List (List BinTrace) :=
  (indexProbes (indexLocs db scriptHashes plan.2) plan.1 replies).foldl
    (fun perSh probe => perSh.modify probe.1 (· ++ probe.2))
    (List.replicate scriptHashes.length [])

def batchTraces : List QueryTraces :=
  (indexBinsPerSh db scriptHashes plan replies).zipIdx.map fun (indexBins, qi) =>
    ⟨indexBins, replies.matchedIdx qi, replies.chunkBins qi⟩

/-- The INDEX items of the Merkle verification of a batch. -/
def indexSubItems (traces : List QueryTraces) : List SubItem :=
  (collectMerkleItemsFromTraces traces).map fun (it, _) =>
    ⟨it.indexPbcGroup, it.indexBinIndex, it.indexBinContent⟩

def indexItemGroups : List ℕ :=
  groupsOf (indexSubItems (batchTraces db scriptHashes plan replies))

/-- The INDEX sibling queries of a batch. -/
def indexSiblingPlans : List SiblingLevelPlan :=
  siblingPlans (indexSubItems (batchTraces db scriptHashes plan replies)) db.indexBins.toNat
    db.indexK.toNat treeTops

end Batch

/-! ## Items by group -/

section Items

variable {db : DatabaseInfo} {scriptHashes : List ScriptHash} {plan : IndexPbcPlan}
  {replies : BatchReplies}

theorem groups_itemsFromTrace (trace : QueryTraces) :
    (itemsFromTrace trace).map BucketMerkleItem.indexPbcGroup =
      trace.indexBins.map BinTrace.pbcGroup := by
  rw [itemsFromTrace, List.map_map]
  calc trace.indexBins.zipIdx.map (fun e => e.1.pbcGroup)
      = (trace.indexBins.zipIdx.map Prod.fst).map BinTrace.pbcGroup := by rw [List.map_map]; rfl
    _ = trace.indexBins.map BinTrace.pbcGroup := by rw [List.zipIdx_map_fst]

theorem groupsOf_indexSubItems (traces : List QueryTraces) :
    groupsOf (indexSubItems traces) =
      traces.flatMap fun trace => trace.indexBins.map BinTrace.pbcGroup := by
  calc groupsOf (indexSubItems traces)
      = traces.zipIdx.flatMap fun e => e.1.indexBins.map BinTrace.pbcGroup := by
        rw [groupsOf, indexSubItems, collectMerkleItemsFromTraces, List.map_map, List.map_flatMap]
        refine List.flatMap_congr fun e _ => ?_
        rw [← groups_itemsFromTrace, List.map_map]
        rfl
    _ = (traces.zipIdx.map Prod.fst).flatMap fun trace =>
          trace.indexBins.map BinTrace.pbcGroup := by rw [List.flatMap_map]
    _ = traces.flatMap fun trace => trace.indexBins.map BinTrace.pbcGroup := by
        rw [List.zipIdx_map_fst]

theorem indexItemGroups_eq : indexItemGroups db scriptHashes plan replies =
    (indexBinsPerSh db scriptHashes plan replies).flatten.map BinTrace.pbcGroup := by
  rw [indexItemGroups, groupsOf_indexSubItems, batchTraces, List.flatMap_map, List.map_flatten]
  calc ((indexBinsPerSh db scriptHashes plan replies).zipIdx.flatMap fun e =>
          e.1.map BinTrace.pbcGroup)
      = ((indexBinsPerSh db scriptHashes plan replies).zipIdx.map Prod.fst).flatMap
          (List.map BinTrace.pbcGroup) := by rw [List.flatMap_map]
    _ = ((indexBinsPerSh db scriptHashes plan replies).map (List.map BinTrace.pbcGroup)).flatten := by
        rw [List.zipIdx_map_fst, List.flatMap_def]

theorem groups_indexProbes (locs : List (List ℕ)) (rounds : List IndexPbcRound)
    (replies : BatchReplies) :
    ((indexProbes locs rounds replies).flatMap Prod.snd).map BinTrace.pbcGroup =
      (rounds.flatten.map Prod.snd).flatMap fun g =>
        List.replicate indexParams.cuckooNumHashes g := by
  calc ((indexProbes locs rounds replies).flatMap Prod.snd).map BinTrace.pbcGroup
      = rounds.zipIdx.flatMap fun r => r.1.flatMap fun e =>
          List.replicate indexParams.cuckooNumHashes e.2 := by
        rw [indexProbes, List.flatMap_assoc, List.map_flatMap]
        refine List.flatMap_congr fun r _ => ?_
        rw [List.flatMap_map, List.map_flatMap]
        rfl
    _ = (rounds.zipIdx.map Prod.fst).flatMap fun round => round.flatMap fun e =>
          List.replicate indexParams.cuckooNumHashes e.2 := by rw [List.flatMap_map]
    _ = (rounds.flatten.map Prod.snd).flatMap fun g =>
          List.replicate indexParams.cuckooNumHashes g := by
        rw [List.zipIdx_map_fst, List.flatMap_map, flatMap_flatten]

/-- Every placement of the plan gives two items of its group. -/
theorem perm_indexItemGroups (hplan : ∀ e ∈ plan.1.flatten, e.1 < scriptHashes.length) :
    (indexItemGroups db scriptHashes plan replies).Perm
      ((plan.1.flatten.map Prod.snd).flatMap fun g =>
        List.replicate indexParams.cuckooNumHashes g) := by
  rw [indexItemGroups_eq, indexBinsPerSh, ← groups_indexProbes (indexLocs db scriptHashes plan.2)
    plan.1 replies]
  refine List.Perm.map _ ((flatten_foldl_modify_append _ _ ?_).trans ?_)
  · intro probe hprobe
    obtain ⟨⟨round, roundId⟩, hround, hmem⟩ := List.mem_flatMap.1 hprobe
    obtain ⟨e, he, rfl⟩ := List.mem_map.1 hmem
    rw [List.length_replicate]
    exact hplan e (List.mem_flatten.2 ⟨round, List.fst_mem_of_mem_zipIdx hround, he⟩)
  · rw [List.flatten_replicate_nil, List.nil_append]

theorem count_indexItemGroups (db : DatabaseInfo) (replies : BatchReplies)
    (hplan : ∀ e ∈ plan.1.flatten, e.1 < scriptHashes.length) (g : ℕ) :
    (indexItemGroups db scriptHashes plan replies).count g =
      2 * (plan.1.flatten.map Prod.snd).count g := by
  rw [(perm_indexItemGroups hplan).count_eq, count_flatMap_replicate]
  rfl

end Items

theorem passes_length_of_mem_levelPlans {byGroup : List (ℕ × List ℕ)} {tableK maxItems level : ℕ}
    {counts plannedNodeIdx : List ℕ} {p : SiblingLevelPlan}
    (hp : p ∈ levelPlans byGroup tableK maxItems level counts plannedNodeIdx) :
    p.passes.length = maxItems := by
  induction counts generalizing level plannedNodeIdx with
  | nil => cases hp
  | cons groupsAtLevel counts ih =>
    rcases List.mem_cons.1 hp with rfl | hp
    · simp
    · exact ih hp

/-! ## One round or more -/

section Shape

variable {scriptHashes : List ScriptHash} {k : ℕ} {plan : IndexPbcPlan}

theorem exists_planIndexPbcRoundsForHashes (scriptHashes : List ScriptHash) (k : ℕ)
    (hne : scriptHashes ≠ []) (hk : numHashes ≤ k) :
    ∃ plan, planIndexPbcRoundsForHashes scriptHashes k = .ok (some plan) := by
  obtain ⟨cands, hcands⟩ := exists_mapM_eq_some (f := (deriveGroups3 · k)) (l := scriptHashes)
    fun scriptHash _ => exists_deriveGroups3 scriptHash hk
  refine ⟨planIndexPbcRounds cands k, ?_⟩
  rw [planIndexPbcRoundsForHashes, require_of hne, require_of hk, hcands]
  rfl

/-- The candidates of the script hashes of a planned batch are groups. -/
theorem haveGroups_filterMap (hk : numHashes ≤ k) :
    HaveGroups (scriptHashes.filterMap (deriveGroups3 · k)) k := by
  intro cands hcands
  obtain ⟨scriptHash, -, hderive⟩ := List.mem_filterMap.1 hcands
  obtain ⟨-, hlt, hlen⟩ := deriveGroups3_spec (show 0 < k from hk.trans_lt' (by decide)) hderive
  exact ⟨List.ne_nil_of_length_eq_add_one hlen, hlt⟩

variable (h : planIndexPbcRoundsForHashes scriptHashes k = .ok (some plan)) (db : DatabaseInfo) (replies : BatchReplies)

include h

theorem planIndexPbcRoundsForHashes_eq_ok : scriptHashes ≠ [] ∧ numHashes ≤ k ∧
      scriptHashes.mapM (deriveGroups3 · k) = some (scriptHashes.filterMap (deriveGroups3 · k)) ∧
      plan = planIndexPbcRounds (scriptHashes.filterMap (deriveGroups3 · k)) k := by
  obtain ⟨_, hne, h⟩ := bind_eq_ok.1 h
  obtain ⟨_, hk, h⟩ := bind_eq_ok.1 h
  cases h' : scriptHashes.mapM (deriveGroups3 · k) with
  | none =>
    rw [h'] at h
    cases h
  | some cands =>
    rw [h'] at h
    cases h
    rw [filterMap_eq_of_mapM h']
    exact ⟨require_eq_ok.1 hne, require_eq_ok.1 hk, rfl, rfl⟩

/-- Every batch of script hashes is planned. -/
theorem lt_of_mem_plan : ∀ e ∈ plan.1.flatten, e.1 < scriptHashes.length := by
  obtain ⟨-, hk, hcands, rfl⟩ := planIndexPbcRoundsForHashes_eq_ok h
  intro e he
  have hmem := (perm_pbcPlanRounds (haveGroups_filterMap hk)).subset (List.mem_map_of_mem he)
  rwa [List.mem_range, length_mapM hcands] at hmem

theorem candidates_ne_nil : scriptHashes.filterMap (deriveGroups3 · k) ≠ [] := by
  obtain ⟨hne, -, hcands, -⟩ := planIndexPbcRoundsForHashes_eq_ok h
  rw [← List.length_pos_iff, length_mapM hcands]
  exact List.length_pos_of_ne_nil hne

/-- A batch that fits takes one round, and no group has more than its two items. -/
theorem FitsIndexRound.shape (hfits : FitsIndexRound scriptHashes k) :
    plan.1.length = 1 ∧ (∀ g, (indexItemGroups db scriptHashes plan replies).count g ≤ 2) ∧
      maxItemsPerGroup (indexSubItems (batchTraces db scriptHashes plan replies)) = 2 := by
  have hcount := count_indexItemGroups db replies (lt_of_mem_plan h)
  have hne := candidates_ne_nil h
  obtain ⟨-, hk, -, hplan⟩ := planIndexPbcRoundsForHashes_eq_ok h
  obtain ⟨entries, hrounds, hentries, hnodup⟩ :=
    hfits.pbcPlanRounds_eq_singleton (haveGroups_filterMap hk) hne
  have hplan1 : plan.1 = [entries] := by rw [hplan]; exact hrounds
  rw [hplan1, List.flatten_singleton] at hcount
  have hle : ∀ g, (indexItemGroups db scriptHashes plan replies).count g ≤ 2 := by
    intro g
    have := List.nodup_iff_count_le_one.1 hnodup g
    rw [hcount]
    omega
  obtain ⟨e, he⟩ := List.exists_mem_of_ne_nil entries hentries
  have hone : (entries.map Prod.snd).count e.2 = 1 :=
    List.count_eq_one_of_mem hnodup (List.mem_map_of_mem he)
  have htwo : (indexItemGroups db scriptHashes plan replies).count e.2 = 2 := by
    rw [hcount, hone]
  refine ⟨by rw [hplan1]; rfl, hle, maxItems_eq ?_ htwo hle 1⟩
  exact List.count_pos_iff.1 (htwo ▸ Nat.two_pos)

/-- In a batch that does not fit, some group has the items of two script hashes. -/
theorem exists_four_items (hfits : ¬FitsIndexRound scriptHashes k) :
    ∃ g, 4 ≤ (indexItemGroups db scriptHashes plan replies).count g := by
  have hcount := count_indexItemGroups db replies (lt_of_mem_plan h)
  have hne := candidates_ne_nil h
  obtain ⟨-, hk, -, rfl⟩ := planIndexPbcRoundsForHashes_eq_ok h
  obtain ⟨i, j, g, hij, hi, hj⟩ := exists_shared_group (haveGroups_filterMap hk) hne hfits
  refine ⟨g, ?_⟩
  have htwo := two_le_count_map (f := Prod.snd) (b := g) (fun heq => hij (Prod.ext_iff.1 heq).1)
    hi hj rfl rfl
  rw [hcount]
  exact Nat.mul_le_mul_left 2 htwo

end Shape

/-- The number of INDEX rounds and of passes per sibling level is one and two for any two batches
exactly if both fit into one round. -/
theorem indexTraffic_uniform_iff (db : DatabaseInfo) (treeTops : List TreeTop)
    {hashes hashes' : List ScriptHash} {plan plan' : IndexPbcPlan}
    (h : planIndexPbcRoundsForHashes hashes db.indexK.toNat = .ok (some plan))
    (h' : planIndexPbcRoundsForHashes hashes' db.indexK.toNat = .ok (some plan'))
    (replies replies' : BatchReplies) :
    (plan.1.length = plan'.1.length ∧
      (∀ g, (itemsOfGroup (indexItemGroups db hashes plan replies) g).length ≤ 2) ∧
      (∀ g, (itemsOfGroup (indexItemGroups db hashes' plan' replies') g).length ≤ 2) ∧
      (∀ p ∈ indexSiblingPlans db treeTops hashes plan replies, p.passes.length = 2) ∧
      ∀ p ∈ indexSiblingPlans db treeTops hashes' plan' replies', p.passes.length = 2) ↔
    FitsIndexRound hashes db.indexK.toNat ∧ FitsIndexRound hashes' db.indexK.toNat := by
  simp only [length_itemsOfGroup]
  constructor
  · rintro ⟨-, hle, hle', -, -⟩
    constructor
    · by_contra hfits
      obtain ⟨g, hg⟩ := exists_four_items h db replies hfits
      exact absurd (hle g) (by omega)
    · by_contra hfits
      obtain ⟨g, hg⟩ := exists_four_items h' db replies' hfits
      exact absurd (hle' g) (by omega)
  · rintro ⟨hfits, hfits'⟩
    obtain ⟨hlen, hle, hmax⟩ := hfits.shape h db replies
    obtain ⟨hlen', hle', hmax'⟩ := hfits'.shape h' db replies'
    refine ⟨hlen.trans hlen'.symm, hle, hle', fun p hp => ?_, fun p hp => ?_⟩
    · exact (passes_length_of_mem_levelPlans hp).trans hmax
    · exact (passes_length_of_mem_levelPlans hp).trans hmax'

theorem length_numbered (n : ℕ) :
    (List.replicate 16 (0 : UInt8) ++ leBytes 4 n).length = 20 := by
  rw [List.length_append, List.length_replicate, length_leBytes]

/-- The script hash whose last four bytes are a number. -/
def numberedHash (n : ℕ) : ScriptHash := ⟨List.replicate 16 0 ++ leBytes 4 n, length_numbered n⟩

/-- Four script hashes with the candidate groups 54, 57 and 59. -/
def collidingHashes : List ScriptHash := [1382, 3907, 4447, 7771].map numberedHash

def spreadHashes : List ScriptHash := [0, 1, 2, 3].map numberedHash

/-- A database of 75 INDEX groups of 8 bins. -/
def eightBins : DatabaseInfo where
  dbId := 0
  kind := .full
  name := "main"
  height := 100
  indexBins := 8
  chunkBins := 8
  indexK := 75
  chunkK := 80
  tagSeed := 0
  dpfNIndex := 7
  dpfNChunk := 7
  hasBucketMerkle := true
  indexMasterSeed := 1
  chunkMasterSeed := 2
  anchorKind := 0
  anchorBytes := []

/-- Nothing is found. -/
def emptyReplies : BatchReplies := ⟨fun _ _ _ => [], fun _ => none, fun _ => []⟩

/-- A tree with one sibling level below its cached root. -/
def oneLevel : TreeTop := ⟨1, [[zeroHash]]⟩

def collidingPlan : IndexPbcPlan :=
  ([[(1, 54), (0, 57), (2, 59)], [(3, 57)]], [⟨0, 57⟩, ⟨0, 54⟩, ⟨0, 59⟩, ⟨1, 57⟩])

def spreadPlan : IndexPbcPlan :=
  ([[(0, 0), (2, 55), (3, 56), (1, 64)]], [⟨0, 0⟩, ⟨0, 64⟩, ⟨0, 55⟩, ⟨0, 56⟩])

theorem plan_collidingHashes :
    planIndexPbcRoundsForHashes collidingHashes 75 = .ok (some collidingPlan) := by
  decide +kernel

theorem plan_spreadHashes :
    planIndexPbcRoundsForHashes spreadHashes 75 = .ok (some spreadPlan) := by
  decide +kernel

theorem fits_spreadHashes : FitsIndexRound spreadHashes 75 := by decide +kernel

/-- Four script hashes in either order, both times in one round. -/
theorem indexTraffic_uniform_spreadHashes :
    FitsIndexRound spreadHashes 75 ∧ FitsIndexRound spreadHashes.reverse 75 ∧
    ∃ plan, planIndexPbcRoundsForHashes spreadHashes.reverse 75 = .ok (some plan) ∧
      spreadPlan.1.length = plan.1.length ∧
      (∀ g, (itemsOfGroup (indexItemGroups eightBins spreadHashes spreadPlan emptyReplies)
        g).length ≤ 2) ∧
      (∀ g, (itemsOfGroup (indexItemGroups eightBins spreadHashes.reverse plan emptyReplies)
        g).length ≤ 2) ∧
      (∀ p ∈ indexSiblingPlans eightBins [oneLevel] spreadHashes spreadPlan emptyReplies,
        p.passes.length = 2) ∧
      ∀ p ∈ indexSiblingPlans eightBins [oneLevel] spreadHashes.reverse plan emptyReplies,
        p.passes.length = 2 := by
  have hfits : FitsIndexRound spreadHashes.reverse 75 := by decide +kernel
  obtain ⟨plan, hplan⟩ := exists_planIndexPbcRoundsForHashes spreadHashes.reverse 75 (by decide)
    (by decide)
  exact ⟨fits_spreadHashes, hfits, plan, hplan, (indexTraffic_uniform_iff eightBins [oneLevel]
    plan_spreadHashes hplan emptyReplies emptyReplies).2 ⟨fits_spreadHashes, hfits⟩⟩

/-- Two batches of four script hashes each. One takes two INDEX rounds and four passes per sibling
level, the other one round and two passes. -/
theorem collidingHashes_show :
    collidingHashes.Nodup ∧ spreadHashes.Nodup ∧
      collidingHashes.length = 4 ∧ spreadHashes.length = 4 ∧
      planIndexPbcRoundsForHashes collidingHashes 75 = .ok (some collidingPlan) ∧
      planIndexPbcRoundsForHashes spreadHashes 75 = .ok (some spreadPlan) ∧
      collidingPlan.1.length = 2 ∧ spreadPlan.1.length = 1 ∧
      (itemsOfGroup (indexItemGroups eightBins collidingHashes collidingPlan emptyReplies)
        57).length = 4 ∧
      (indexSiblingPlans eightBins [oneLevel] collidingHashes collidingPlan emptyReplies).map
        (fun p => p.passes.length) = [4] ∧
      (indexSiblingPlans eightBins [oneLevel] spreadHashes spreadPlan emptyReplies).map
        (fun p => p.passes.length) = [2] :=
  ⟨by decide +kernel, by decide +kernel, rfl, rfl, plan_collidingHashes, plan_spreadHashes, rfl, rfl,
    by decide +kernel, by decide +kernel, by decide +kernel⟩

end BitcoinPir.Sync
