import BitcoinPir.Foundations.Search
import BitcoinPir.Sync.Plan

/-!
# Computing a sync plan

From the height of the last sync the planner searches a chain of at most five deltas to the tip of
the catalog. Without one it starts over: the best full snapshot, and a chain of deltas from it if
there is one. The catalog is the server's: deltas may lead backwards or in circles.

**`computeSyncPlan_spec`**: an incremental plan is a shortest chain to the tip and is found whenever
there is one of at most five steps; a fresh plan starts with a highest full snapshot and goes on to
the tip if it can. **`le_targetHeight_iff`**: a fresh plan that cannot go on may end below the
height of the last sync.
-/

namespace BitcoinPir

namespace DatabaseCatalog

variable (catalog : DatabaseCatalog)

def fullSnapshots : List DatabaseInfo :=
  catalog.databases.filter fun db => db.kind = .full

def deltas : List DatabaseInfo :=
  catalog.databases.filter fun db => db.kind ≠ .full

/-- The highest of some databases, the last one if there are several. -/
def maxByHeight : List DatabaseInfo → Option DatabaseInfo :=
  List.foldl (fun best db => match best with
    | none => some db
    | some best => if db.height < best.height then some best else some db) none

def bestFullSnapshot : Option DatabaseInfo :=
  maxByHeight catalog.fullSnapshots

def latestTip : Option UInt32 :=
  (catalog.databases.map (·.height)).max?

end DatabaseCatalog

namespace Sync

open Foundations

def maxDeltaChainLength : ℕ := 5

/-- The deltas that start at a height, in the order of the catalog. -/
def byBase (deltas : List DatabaseInfo) (height : UInt32) : List DatabaseInfo :=
  deltas.filter fun db => db.baseHeight = height

/-- The search visits each height once, so that the number of deltas bounds its steps. -/
def findDeltaChain (deltas : List DatabaseInfo) (start stop : UInt32) :
    Option (List DatabaseInfo) :=
  if stop ≤ start then some []
  else
    Search.search (byBase deltas) (·.height) (fun height => decide (stop ≤ height))
      maxDeltaChainLength (deltas.length + 2) (Search.initial start)

def SyncPlan.empty (currentHeight : UInt32) : SyncPlan := ⟨[], false, currentHeight⟩

section Catalog

variable (catalog : DatabaseCatalog)

/-- The plan that starts from a full snapshot. -/
def freshPlan (latestTip : UInt32) : PirResult SyncPlan :=
  match catalog.bestFullSnapshot with
  | none => .error (.noSyncPath "no full snapshot available")
  | some bestFull =>
    let chain := (findDeltaChain catalog.deltas bestFull.height latestTip).getD []
    let dbs := bestFull :: chain
    let steps := dbs.map SyncStep.fromDbInfo
    .ok ⟨steps, true, (steps.getLast?.map (·.tipHeight)).getD 0⟩

def computeSyncPlan (lastHeight : Option UInt32) : PirResult SyncPlan :=
  match catalog.latestTip with
  | none => .error (.invalidCatalog "empty catalog")
  | some latestTip =>
    let last := lastHeight.getD 0
    if 0 < last ∧ latestTip ≤ last then .ok (.empty last)
    else if 0 < last then
      match findDeltaChain catalog.deltas last latestTip with
      | some chain => .ok ⟨chain.map .fromDbInfo, false, latestTip⟩
      | none => freshPlan catalog latestTip
    else freshPlan catalog latestTip

/-! ## Chains of deltas -/

/-- Deltas of the catalog that lead from one height to another, each based on the tip of the one
before. -/
def DeltaChain : UInt32 → List DatabaseInfo → UInt32 → Prop
  | start, [], stop => start = stop
  | start, db :: dbs, stop =>
    db ∈ catalog.databases ∧ db.kind ≠ .full ∧ db.baseHeight = start ∧
      DeltaChain db.height dbs stop

/-- A chain of at most five deltas, as short as any. -/
structure ShortestChain (start : UInt32) (chain : List DatabaseInfo) (stop : UInt32) : Prop where
  isChain : DeltaChain catalog start chain stop
  length_le : chain.length ≤ maxDeltaChainLength
  minimal : ∀ chain', DeltaChain catalog start chain' stop → chain.length ≤ chain'.length

/-- A chain that the planner accepts. -/
def Chained (start stop : UInt32) : Prop :=
  ∃ chain, DeltaChain catalog start chain stop ∧ chain.length ≤ maxDeltaChainLength

variable {catalog}

theorem ShortestChain.chained {start stop : UInt32}
    {chain : List DatabaseInfo} (h : ShortestChain catalog start chain stop) :
    Chained catalog start stop := ⟨chain, h.isChain, h.length_le⟩

theorem mem_byBase {db : DatabaseInfo} {height : UInt32} :
    db ∈ byBase catalog.deltas height ↔
      db ∈ catalog.databases ∧ db.kind ≠ .full ∧ db.baseHeight = height := by
  simp only [byBase, DatabaseCatalog.deltas, List.mem_filter, decide_eq_true_eq, and_assoc]

variable {chain : List DatabaseInfo} {tip : UInt32}

theorem isPath_byBase {start stop : UInt32} :
    Search.IsPath (byBase catalog.deltas) (·.height) start chain stop ↔
      DeltaChain catalog start chain stop := by
  induction chain generalizing start with
  | nil => rfl
  | cons db dbs ih => simp only [Search.IsPath, DeltaChain, mem_byBase, ih, and_assoc]

/-! ## The tip -/

theorem lawfulOrderSup_height : Std.LawfulOrderSup UInt32 where
  max_le_iff a b c := by
    change (if a ≤ b then b else a) ≤ c ↔ _
    simp only [UInt32.le_iff_toNat_le]
    split_ifs with h <;> omega

theorem maxEqOr_height : Std.MaxEqOr UInt32 where
  max_eq_or a b := by
    change (if a ≤ b then b else a) = a ∨ (if a ≤ b then b else a) = b
    split_ifs <;> simp

instance lawfulOrderMaxUInt32 : Std.LawfulOrderMax UInt32 :=
  { lawfulOrderSup_height, maxEqOr_height with }

theorem height_le_latestTip (htip : catalog.latestTip = some tip) {db : DatabaseInfo}
    (hdb : db ∈ catalog.databases) : db.height ≤ tip :=
  (List.max?_eq_some_iff.1 htip).2 _ (List.mem_map_of_mem hdb)

/-- A chain that reaches the tip ends there. -/
theorem deltaChain_end {start stop : UInt32} (htip : catalog.latestTip = some tip)
    (h : DeltaChain catalog start chain stop) (hne : chain ≠ []) :
    stop ≤ tip := by
  induction chain generalizing start with
  | nil => exact absurd rfl hne
  | cons db dbs ih =>
    obtain ⟨hdb, -, -, hrest⟩ := h
    cases dbs with
    | nil =>
      obtain rfl : db.height = stop := hrest
      exact height_le_latestTip htip hdb
    | cons db' dbs' => exact ih hrest (List.cons_ne_nil _ _)

/-! ## The search -/

theorem findDeltaChain_spec {start : UInt32} (htip : catalog.latestTip = some tip)
    (hstart : start ≤ tip) :
    match findDeltaChain catalog.deltas start tip with
    | some chain => ShortestChain catalog start chain tip
    | none => ¬Chained catalog start tip := by
  rw [findDeltaChain]
  by_cases hle : tip ≤ start
  · rw [if_pos hle]
    exact ⟨UInt32.le_antisymm hstart hle, Nat.zero_le _, fun _ _ => Nat.zero_le _⟩
  · rw [if_neg hle]
    have hne : ∀ {chain stop}, DeltaChain catalog start chain stop → tip ≤ stop → chain ≠ [] := by
      rintro chain stop hchain hstop rfl
      obtain rfl : start = stop := hchain
      exact hle hstop
    have hnodes : ∀ v, ∀ db ∈ byBase catalog.deltas v,
        db.height ∈ (catalog.deltas.map (·.height)).toFinset := by
      intro v db hdb
      exact List.mem_toFinset.2 (List.mem_map_of_mem (List.mem_of_mem_filter hdb))
    have hcard := (catalog.deltas.map (·.height)).toFinset_card_le
    rw [List.length_map] at hcard
    have hfuel : (catalog.deltas.map (·.height)).toFinset.card + 1 < catalog.deltas.length + 2 := by
      omega
    have hspec := Search.search_spec (fun height => decide (tip ≤ height)) maxDeltaChainLength
      hnodes hfuel (decide_eq_false hle)
    split at hspec
    next chain hchain =>
      rw [hchain]
      obtain ⟨stop, hpath, hgoal⟩ := hspec.isPath
      have hpath := isPath_byBase.1 hpath
      have hgoal : tip ≤ stop := by simpa using hgoal
      obtain rfl : stop = tip :=
        UInt32.le_antisymm (deltaChain_end htip hpath (hne hpath hgoal)) hgoal
      exact ⟨hpath, hspec.length_le, fun chain' hchain' =>
        hspec.minimal chain' _ (isPath_byBase.2 hchain') (by simp)⟩
    next hnone =>
      rw [hnone]
      rintro ⟨chain, hchain, hlen⟩
      have := hspec chain tip (isPath_byBase.2 hchain) (by simp)
      omega

/-! ## The best full snapshot -/

/-- Induction on the databases; the best one so far is one of them or the start value. -/
theorem foldl_maxByHeight {dbs : List DatabaseInfo} {acc : Option DatabaseInfo}
    {best : DatabaseInfo}
    (h : dbs.foldl (fun best db => match best with
      | none => some db
      | some best => if db.height < best.height then some best else some db) acc = some best) :
    (best ∈ dbs ∨ acc = some best) ∧ (∀ db ∈ dbs, db.height ≤ best.height) ∧
      ∀ a, acc = some a → a.height ≤ best.height := by
  induction dbs generalizing acc with
  | nil =>
    subst h
    exact ⟨.inr rfl, by simp, fun a ha => by cases ha; exact UInt32.le_refl _⟩
  | cons db dbs ih =>
    obtain ⟨hmem, hall, hacc⟩ := ih h
    cases acc with
    | none =>
      have hdb := hacc db rfl
      refine ⟨.inl ?_, ?_, fun a ha => by cases ha⟩
      · rcases hmem with hmem | heq
        · exact List.mem_cons_of_mem _ hmem
        · cases heq
          exact List.mem_cons_self
      · intro db' hdb'
        rcases List.mem_cons.1 hdb' with rfl | hdb'
        · exact hdb
        · exact hall db' hdb'
    | some a =>
      dsimp only at hacc hmem
      by_cases hlt : db.height < a.height
      · rw [if_pos hlt] at hmem hacc
        have ha := hacc a rfl
        refine ⟨hmem.imp_left (List.mem_cons_of_mem _), ?_, fun a' ha' => by cases ha'; exact ha⟩
        intro db' hdb'
        rcases List.mem_cons.1 hdb' with rfl | hdb'
        · exact UInt32.le_trans (UInt32.le_of_lt hlt) ha
        · exact hall db' hdb'
      · rw [if_neg hlt] at hmem hacc
        have hdb := hacc db rfl
        refine ⟨.inl ?_, ?_, ?_⟩
        · rcases hmem with hmem | heq
          · exact List.mem_cons_of_mem _ hmem
          · cases heq
            exact List.mem_cons_self
        · intro db' hdb'
          rcases List.mem_cons.1 hdb' with rfl | hdb'
          · exact hdb
          · exact hall db' hdb'
        · intro a' ha'
          cases ha'
          exact UInt32.le_trans (UInt32.not_lt.1 hlt) hdb

theorem bestFullSnapshot_spec {full : DatabaseInfo} (h : catalog.bestFullSnapshot = some full) :
    full ∈ catalog.fullSnapshots ∧ ∀ db ∈ catalog.fullSnapshots, db.height ≤ full.height := by
  obtain ⟨hmem, hall, -⟩ := foldl_maxByHeight h
  exact ⟨hmem.resolve_right (by simp), hall⟩

/-! ## Plans -/

theorem getLast?_tipHeight {db : DatabaseInfo} {stop : UInt32}
    (h : DeltaChain catalog db.height chain stop) :
    ((db :: chain).map SyncStep.fromDbInfo).getLast?.map (·.tipHeight) = some stop := by
  induction chain generalizing db with
  | nil => exact congrArg some h
  | cons db' chain ih =>
    exact ih h.2.2.2

/-- A plan for a catalog with tip `tip` and a last sync at `last`, 0 if there was none. -/
structure PlanSpec (catalog : DatabaseCatalog) (tip last : UInt32) (plan : SyncPlan) : Prop where
  empty_iff : plan.steps = [] ↔ 0 < last ∧ tip ≤ last
  target_eq : plan.targetHeight = (plan.steps.getLast?.map (·.tipHeight)).getD last
  fresh_iff : plan.isFreshSync = true ↔ ¬(0 < last ∧ (tip ≤ last ∨ Chained catalog last tip))
  incremental : plan.isFreshSync = false → last < tip →
    ∃ chain, plan.steps = chain.map .fromDbInfo ∧ ShortestChain catalog last chain tip
  fresh : plan.isFreshSync = true → ∃ full chain, catalog.bestFullSnapshot = some full ∧
    full ∈ catalog.fullSnapshots ∧ (∀ db ∈ catalog.fullSnapshots, db.height ≤ full.height) ∧
    plan.steps = (full :: chain).map .fromDbInfo ∧
    (ShortestChain catalog full.height chain tip ∨ ¬Chained catalog full.height tip ∧ chain = [])

theorem planSpec_empty {last : UInt32} (hlast : 0 < last) (hle : tip ≤ last) :
    PlanSpec catalog tip last (.empty last) where
  empty_iff := ⟨fun _ => ⟨hlast, hle⟩, fun _ => rfl⟩
  target_eq := rfl
  fresh_iff := ⟨fun h => (by cases h), fun h => absurd ⟨hlast, .inl hle⟩ h⟩
  incremental _ hlt := absurd hle (UInt32.not_le.2 hlt)
  fresh h := by cases h

theorem planSpec_chain {last : UInt32} (hlast : 0 < last) (hlt : last < tip)
    (hchain : ShortestChain catalog last chain tip) :
    PlanSpec catalog tip last ⟨chain.map .fromDbInfo, false, tip⟩ := by
  have hnle : ¬tip ≤ last := UInt32.not_le.2 hlt
  cases chain with
  | nil =>
    have heq : last = tip := hchain.isChain
    exact absurd (heq ▸ hlt) (UInt32.lt_irrefl _)
  | cons db dbs =>
    refine ⟨⟨fun h => (by cases h), fun h => absurd h.2 hnle⟩, ?_,
      ⟨fun h => (by cases h), fun h => absurd ⟨hlast, .inr hchain.chained⟩ h⟩,
      fun _ _ => ⟨_, rfl, hchain⟩, fun h => (by cases h)⟩
    rw [getLast?_tipHeight hchain.isChain.2.2.2]
    rfl

theorem planSpec_fresh {last : UInt32} {plan : SyncPlan} (htip : catalog.latestTip = some tip)
    (hfresh : ¬(0 < last ∧ (tip ≤ last ∨ Chained catalog last tip)))
    (h : freshPlan catalog tip = .ok plan) : PlanSpec catalog tip last plan := by
  rw [freshPlan] at h
  split at h
  next => cases h
  next full hfull =>
    cases h
    obtain ⟨hmem, hall⟩ := bestFullSnapshot_spec hfull
    have hle : full.height ≤ tip := height_le_latestTip htip (List.mem_of_mem_filter hmem)
    have hspec := findDeltaChain_spec htip hle
    refine ⟨⟨fun h => (by cases h), fun h => absurd ⟨h.1, .inl h.2⟩ hfresh⟩, ?_,
      ⟨fun _ => hfresh, fun _ => rfl⟩, fun h => (by cases h),
      fun _ => ⟨full, _, hfull, hmem, hall, rfl, ?_⟩⟩
    · rfl
    · split at hspec
      next chain hchain =>
        rw [hchain]
        exact .inl hspec
      next hnone =>
        rw [hnone]
        exact .inr ⟨hspec, rfl⟩

theorem planSpec_of_computeSyncPlan {lastHeight : Option UInt32} {plan : SyncPlan}
    (h : computeSyncPlan catalog lastHeight = .ok plan) :
    ∃ tip, catalog.latestTip = some tip ∧ PlanSpec catalog tip (lastHeight.getD 0) plan := by
  rw [computeSyncPlan] at h
  split at h
  next => cases h
  next tip htip =>
    refine ⟨tip, htip, ?_⟩
    by_cases hempty : 0 < lastHeight.getD 0 ∧ tip ≤ lastHeight.getD 0
    · rw [if_pos hempty] at h
      cases h
      exact planSpec_empty hempty.1 hempty.2
    · rw [if_neg hempty] at h
      by_cases hlast : 0 < lastHeight.getD 0
      · rw [if_pos hlast] at h
        have hlt : lastHeight.getD 0 < tip := UInt32.not_le.1 fun hle => hempty ⟨hlast, hle⟩
        have hspec := findDeltaChain_spec htip (UInt32.le_of_lt hlt)
        split at h
        next chain hchain =>
          cases h
          rw [hchain] at hspec
          exact planSpec_chain hlast hlt hspec
        next hnone =>
          rw [hnone] at hspec
          refine planSpec_fresh htip ?_ h
          rintro ⟨-, hle | hchained⟩
          · exact hempty ⟨hlast, hle⟩
          · exact hspec hchained
      · rw [if_neg hlast] at h
        exact planSpec_fresh htip (fun hall => hlast hall.1) h

/-- **Sync plans are exact**: a plan that is returned meets `PlanSpec`, and one is returned whenever
the last sync is at the tip or beyond, or a chain of at most five deltas leads from it there. -/
theorem computeSyncPlan_spec (catalog : DatabaseCatalog) (lastHeight : Option UInt32) :
    (∀ plan, computeSyncPlan catalog lastHeight = .ok plan →
      ∃ tip, catalog.latestTip = some tip ∧ PlanSpec catalog tip (lastHeight.getD 0) plan) ∧
    ∀ tip, catalog.latestTip = some tip → 0 < lastHeight.getD 0 →
      tip ≤ lastHeight.getD 0 ∨ Chained catalog (lastHeight.getD 0) tip →
      ∃ plan, computeSyncPlan catalog lastHeight = .ok plan := by
  refine ⟨fun plan h => planSpec_of_computeSyncPlan h, fun tip htip hlast hreach => ?_⟩
  rw [computeSyncPlan, htip]
  dsimp only
  by_cases hempty : 0 < lastHeight.getD 0 ∧ tip ≤ lastHeight.getD 0
  · rw [if_pos hempty]
    exact ⟨_, rfl⟩
  · rw [if_neg hempty, if_pos hlast]
    have hlt : lastHeight.getD 0 < tip := UInt32.not_le.1 fun hle => hempty ⟨hlast, hle⟩
    have hspec := findDeltaChain_spec htip (UInt32.le_of_lt hlt)
    split at hspec
    next => exact ⟨_, rfl⟩
    next =>
      rcases hreach with hle | hchained
      · exact absurd ⟨hlast, hle⟩ hempty
      · exact absurd hchained hspec

/-- Where a plan leads: it stays, it reaches the tip, or it is the best full snapshot alone. -/
theorem PlanSpec.target_cases {last : UInt32} {plan : SyncPlan}
    (hplan : PlanSpec catalog tip last plan) (hlast : 0 < last) :
    tip ≤ last ∧ plan.targetHeight = last ∨
    last < tip ∧ Chained catalog last tip ∧ plan.targetHeight = tip ∨
    last < tip ∧ ¬Chained catalog last tip ∧ ∃ full, catalog.bestFullSnapshot = some full ∧
      (Chained catalog full.height tip ∧ plan.targetHeight = tip ∨
        ¬Chained catalog full.height tip ∧ plan.isFreshSync = true ∧
          plan.steps = [.fromDbInfo full] ∧ plan.targetHeight = full.height) := by
  by_cases hle : tip ≤ last
  · have hempty := hplan.empty_iff.2 ⟨hlast, hle⟩
    rw [hplan.target_eq, hempty]
    exact .inl ⟨hle, rfl⟩
  have hlt : last < tip := UInt32.not_le.1 hle
  by_cases hchained : Chained catalog last tip
  · have hfresh : plan.isFreshSync = false := by
      rw [← Bool.not_eq_true]
      exact fun hfresh => hplan.fresh_iff.1 hfresh ⟨hlast, .inr hchained⟩
    obtain ⟨chain, hsteps, hchain⟩ := hplan.incremental hfresh hlt
    refine .inr (.inl ⟨hlt, hchained, ?_⟩)
    cases chain with
    | nil =>
      have heq : last = tip := hchain.isChain
      exact absurd (heq ▸ hlt) (UInt32.lt_irrefl _)
    | cons db dbs =>
      rw [hplan.target_eq, hsteps, getLast?_tipHeight hchain.isChain.2.2.2]
      rfl
  · have hfresh : plan.isFreshSync = true := hplan.fresh_iff.2 (by
      rintro ⟨-, hle' | hchained'⟩
      · exact hle hle'
      · exact hchained hchained')
    obtain ⟨full, chain, hfull, -, -, hsteps, hchain⟩ := hplan.fresh hfresh
    refine .inr (.inr ⟨hlt, hchained, full, hfull, ?_⟩)
    rcases hchain with hchain | ⟨hon, rfl⟩
    · rw [hplan.target_eq, hsteps, getLast?_tipHeight hchain.isChain]
      exact .inl ⟨hchain.chained, rfl⟩
    · rw [hplan.target_eq, hsteps]
      exact .inr ⟨hon, hfresh, rfl, rfl⟩

/-- **A plan goes back** below the last sync exactly when neither the last sync nor the best full
snapshot is chained to the tip, and that snapshot is lower; the plan then is that snapshot alone. -/
theorem le_targetHeight_iff (catalog : DatabaseCatalog) (last : UInt32) (plan : SyncPlan)
    (hlast : 0 < last) (h : computeSyncPlan catalog (some last) = .ok plan) :
    (last ≤ plan.targetHeight ↔ ∃ tip, catalog.latestTip = some tip ∧
      (tip ≤ last ∨ Chained catalog last tip ∨ ∃ full, catalog.bestFullSnapshot = some full ∧
        (last ≤ full.height ∨ Chained catalog full.height tip))) ∧
    (plan.targetHeight < last → ∃ full, catalog.bestFullSnapshot = some full ∧
      plan = ⟨[.fromDbInfo full], true, full.height⟩) := by
  obtain ⟨tip, htip, hplan⟩ := planSpec_of_computeSyncPlan h
  rw [Option.getD_some] at hplan
  simp only [htip, Option.some.injEq, exists_eq_left']
  rcases hplan.target_cases hlast with ⟨hle, htarget⟩ | ⟨hlt, hchained, htarget⟩ |
    ⟨hlt, hoff, full, hfull, hcase⟩
  · rw [htarget]
    exact ⟨⟨fun _ => .inl hle, fun _ => UInt32.le_refl _⟩,
      fun hback => absurd hback (UInt32.lt_irrefl _)⟩
  · rw [htarget]
    exact ⟨⟨fun _ => .inr (.inl hchained), fun _ => UInt32.le_of_lt hlt⟩,
      fun hback => absurd hback (UInt32.lt_asymm hlt)⟩
  · simp only [hfull, Option.some.injEq, exists_eq_left']
    rw [or_iff_right (UInt32.not_le.2 hlt), or_iff_right hoff]
    rcases hcase with ⟨hon, htarget⟩ | ⟨hon, hfresh, hsteps, htarget⟩
    · rw [htarget]
      exact ⟨⟨fun _ => .inr hon, fun _ => UInt32.le_of_lt hlt⟩,
        fun hback => absurd hback (UInt32.lt_asymm hlt)⟩
    · refine ⟨?_, fun _ => ?_⟩
      · rw [htarget]
        exact ⟨.inl, fun h => h.resolve_right hon⟩
      · obtain ⟨steps, isFreshSync, targetHeight⟩ := plan
        simp only at hfresh hsteps htarget
        rw [hfresh, hsteps, htarget]

end Catalog

/-! ### A catalog with a gap

A full snapshot at 100 and a delta from 300 to 400. -/

namespace Gap

def full : DatabaseInfo := { Sample.deltaDb with dbId := 0, kind := .full, height := 100 }

def delta : DatabaseInfo := { Sample.deltaDb with dbId := 1, kind := .delta 300, height := 400 }

def catalog : DatabaseCatalog := ⟨[full, delta]⟩

theorem chained : Chained catalog 300 400 := by
  refine ⟨[delta], ⟨by decide, by decide, rfl, rfl⟩, by decide⟩

end Gap

open Gap

theorem computeSyncPlan_spec_gap :
    (∃ plan, computeSyncPlan catalog (some 300) = .ok plan) ∧
      (∃ plan, computeSyncPlan catalog (some 500) = .ok plan) ∧
      PlanSpec catalog 400 300 ⟨[.fromDbInfo delta], false, 400⟩ := by
  have hspec := computeSyncPlan_spec catalog (some 300)
  refine ⟨hspec.2 400 (by decide) (by decide) (.inr chained),
    (computeSyncPlan_spec catalog (some 500)).2 400 (by decide) (by decide) (.inl (by decide)), ?_⟩
  obtain ⟨tip, htip, hplan⟩ := hspec.1 ⟨[.fromDbInfo delta], false, 400⟩ (by decide +kernel)
  obtain rfl : tip = 400 := Option.some_inj.1 (htip.symm.trans (by decide))
  exact hplan

/-- A client at height 200 is sent back to the snapshot at 100. -/
theorem computeSyncPlan_gap_goes_back :
    computeSyncPlan catalog (some 200) = .ok ⟨[.fromDbInfo full], true, 100⟩ ∧
      (100 : UInt32) < 200 := by
  decide +kernel

/-- At height 300 the first half applies, at height 200 the second. -/
theorem le_targetHeight_iff_gap :
    ((300 : UInt32) ≤ 400 ↔ ∃ tip, catalog.latestTip = some tip ∧
      (tip ≤ 300 ∨ Chained catalog 300 tip ∨ ∃ full, catalog.bestFullSnapshot = some full ∧
        (300 ≤ full.height ∨ Chained catalog full.height tip))) ∧
    ∃ best, catalog.bestFullSnapshot = some best ∧
      (⟨[.fromDbInfo full], true, 100⟩ : SyncPlan) = ⟨[.fromDbInfo best], true, best.height⟩ :=
  ⟨(le_targetHeight_iff catalog 300 ⟨[.fromDbInfo delta], false, 400⟩ (by decide)
      (by decide +kernel)).1,
    (le_targetHeight_iff catalog 200 ⟨[.fromDbInfo full], true, 100⟩ (by decide)
      (by decide +kernel)).2 (by decide)⟩

end Sync

end BitcoinPir
