import BitcoinPir.Credit.Dispatch

/-!
# No unpaid work

On a server that makes every backend paid, work on a table is priced as an operation on that table
and charged before it is done (`Paid`), in every run whose frames are `Priced`. The frames that are
not are sibling batches with a round id of 200 or more: the meter knows no operation for them, and
the dispatcher takes every table number but 0 for CHUNK (`sibling_scan_unpaid`).

What the dispatcher works on is what the meter prices, and the gas table has a price for it; there is
a lemma for each kind of request and `handleWork_covers` for all. Admission then charges it.
-/

namespace BitcoinPir.Meter

open Foundations

/-- The work was priced, by the geometry of its own database, as an operation on its backend and
table, and the price and the frame fee were debited before it was done. -/
def Paid (srv : Server) (e : LogEntry) : Prop :=
  ∃ op db work, meteredOpForFrame e.payload = some (op, e.work.db) ∧
    op.backend = e.work.backend ∧ e.work.table ∈ op.tables ∧
    srv.getDb e.work.db = some db ∧
    workGas srv.calibration (srv.geometry e.work.db.toNat db) op = some work ∧
    e.atWork = e.before - (work.toNat + srv.params.baseGasPerFrame.toNat)

/-- The round id of a sibling batch names one of the two tables, and the frame's price can be
charged to a signed balance. -/
def Priced (srv : Server) (_ : State) (f : Frame) : Prop :=
  (∀ q, Request.decode f.payload = .ok (.bucketMerkleSibBatch q) → q.roundId < 200) ∧
    ∀ gas, srv.admissionGas (meteredOpForFrame f.payload) = some gas → (gas.toNat : ℤ) ≤ i64Max

/-! ## The two readings of a level -/

theorem harmonyLevelTable_ref {db : Database} {level : UInt8} {table : SubTable} {ref : Table}
    (h : Server.harmonyLevelTable db level = some (table, ref)) :
    harmonyTable level = some ref ∧
      ∃ which, harmonyLevel level = some which ∧
        harmonySub (cuckooGeometry db) which = some table.geometry := by
  unfold Server.harmonyLevelTable at h
  split_ifs at h with h0 h1 h10 h20
  · cases h
    subst h0
    exact ⟨rfl, _, rfl, rfl⟩
  · cases h
    subst h1
    exact ⟨rfl, _, rfl, rfl⟩
  · have hlevel : harmonyLevel level = some (.index, some (level - 10)) := by
      rw [harmonyLevel, if_neg h0, if_neg h1, if_pos h10]
    obtain ⟨t, ht, heq⟩ := Option.map_eq_some_iff.1 h
    cases heq
    refine ⟨by rw [harmonyTable, hlevel]; rfl, _, hlevel, ?_⟩
    simp [harmonySub, sibling, cuckooGeometry, ht]
  · have hlevel : harmonyLevel level = some (.chunk, some (level - 20)) := by
      rw [harmonyLevel, if_neg h0, if_neg h1, if_neg h10, if_pos h20]
    obtain ⟨t, ht, heq⟩ := Option.map_eq_some_iff.1 h
    cases heq
    refine ⟨by rw [harmonyTable, hlevel]; rfl, _, hlevel, ?_⟩
    simp [harmonySub, sibling, cuckooGeometry, ht]

/-- Below 200 the meter reads the round id as the dispatcher does. -/
theorem dpfSiblingRound_of_lt {roundId : UInt16} (h : roundId < 200) :
    dpfSiblingRound roundId = some (if roundId / 100 = 0 then .index else .chunk,
      (roundId % 100).toUInt8) ∧ (roundId % 100).toUInt8.toNat = (roundId % 100).toNat := by
  have hnat : roundId.toNat < 200 := UInt16.lt_iff_toNat_lt.1 h
  have hdiv : (roundId / 100).toNat = roundId.toNat / 100 := UInt16.toNat_div ..
  have hmod : (roundId % 100).toNat = roundId.toNat % 100 := UInt16.toNat_mod ..
  constructor
  · rw [dpfSiblingRound]
    by_cases h0 : roundId / 100 = 0
    · rw [if_pos h0, if_pos h0]
    · have h1 : roundId / 100 = 1 := by
        apply UInt16.toNat_inj.1
        have hne : (roundId / 100).toNat ≠ 0 := fun hz => h0 (UInt16.toNat_inj.1 hz)
        change roundId.toNat / 100 = 1
        omega
      rw [if_neg h0, if_neg h0, if_pos h1]
  · rw [UInt16.toNat_toUInt8]
    omega

/-! ## What is worked on is what is priced -/

/-- The operation of a frame is one on the table worked on, and the gas table has a price for it. -/
def Covers (srv : Server) (m : Option (MeteredOp × UInt8)) (w : Work) : Prop :=
  ∃ op db, m = some (op, w.db) ∧ op.backend = w.backend ∧ w.table ∈ op.tables ∧
    srv.getDb w.db = some db ∧ (workGas srv.calibration (srv.geometry w.db.toNat db) op).isSome

section Covers

variable {srv : Server} {env : Env} {w : Work}

theorem geometry_cuckoo (hcuckoo : srv.oramOnly = false) (i : ℕ) (db : Database) :
    (srv.geometry i db).cuckoo = some (cuckooGeometry db) := by
  rw [Server.geometry, hcuckoo]
  rfl

theorem mem_scanWork {keys : List (List Bytes)} {work : Work}
    (h : w ∈ Server.scanWork keys work) : w = work := by
  unfold Server.scanWork at h
  split_ifs at h
  · cases h
  · exact List.mem_singleton.1 h

theorem indexBatchWork_covers (hcuckoo : srv.oramOnly = false) {q : BatchQuery}
    (h : w ∈ srv.indexBatchWork q) : Covers srv (Request.meteredOp (.indexBatch q)) w := by
  unfold Server.indexBatchWork at h
  split at h
  · rename_i db hdb
    cases mem_scanWork h
    refine ⟨_, db, rfl, rfl, List.mem_cons_self, hdb, ?_⟩
    rw [workGas, geometry_cuckoo hcuckoo]
    rfl
  · cases h

theorem chunkBatchWork_covers (hcuckoo : srv.oramOnly = false) {q : BatchQuery}
    (h : w ∈ srv.chunkBatchWork q) : Covers srv (Request.meteredOp (.chunkBatch q)) w := by
  unfold Server.chunkBatchWork at h
  split at h
  · rename_i db hdb
    cases mem_scanWork h
    refine ⟨_, db, rfl, rfl, List.mem_cons_self, hdb, ?_⟩
    rw [workGas, geometry_cuckoo hcuckoo]
    rfl
  · cases h

theorem sibBatchWork_covers (hcuckoo : srv.oramOnly = false) {q : BatchQuery}
    (hround : q.roundId < 200) (h : w ∈ srv.sibBatchWork q) :
    Covers srv (Request.meteredOp (.bucketMerkleSibBatch q)) w := by
  obtain ⟨hop, hlevel⟩ := dpfSiblingRound_of_lt hround
  unfold Server.sibBatchWork at h
  split at h
  · rename_i db hdb
    split_ifs at h
    · dsimp only at h
      split at h
      · rename_i sib hsib
        cases mem_scanWork h
        refine ⟨_, db, by rw [Request.meteredOp, hop]; rfl, rfl, ?_, hdb, ?_⟩
        · rw [MeteredOp.tables, hlevel]
          exact List.mem_cons_self
        · have hgeo : (sibling (cuckooGeometry db) (if q.roundId / 100 = 0 then .index else .chunk)
              (q.roundId % 100).toUInt8).isSome := by
            split_ifs at hsib ⊢
            · change ((db.indexSiblings.map SubTable.geometry)[_]?).isSome
              rw [hlevel, List.getElem?_map, hsib]
              rfl
            · change ((db.chunkSiblings.map SubTable.geometry)[_]?).isSome
              rw [hlevel, List.getElem?_map, hsib]
              rfl
          obtain ⟨sub, hsub⟩ := Option.isSome_iff_exists.1 hgeo
          simp [workGas, geometry_cuckoo hcuckoo, hsub]
      · cases h
    · cases h
  · cases h

/-- On a server without table files no hints are computed. -/
theorem computesHints_metadataOnly {params : TableParams} (hsize : 2 ≤ params.binSize) (bins : ℕ)
    (groupId : UInt8) : Server.computesHints (.metadataOnly params bins) groupId = false := by
  by_contra hne
  rw [Bool.not_eq_false] at hne
  obtain ⟨hgroup, hbins⟩ := of_decide_eq_true hne
  obtain ⟨-, hlen⟩ := of_decide_eq_true hgroup
  have hpos : 2 ≤ bins * params.binSize :=
    hsize.trans (Nat.le_mul_of_pos_left _ (Nat.pos_of_ne_zero hbins))
  change 0 + groupId.toNat * (bins * params.binSize) + bins * params.binSize ≤ 1 at hlen
  omega

theorem harmonyLevelTable_oramOnly {i c : ℕ} {level : UInt8} {table : SubTable} {ref : Table}
    (h : Server.harmonyLevelTable (.directOramOnly i c) level = some (table, ref)) (groupId : UInt8) :
    Server.computesHints table groupId = false := by
  unfold Server.harmonyLevelTable at h
  split_ifs at h
  · cases h
    exact computesHints_metadataOnly (by decide) i groupId
  · cases h
    exact computesHints_metadataOnly (by decide) c groupId
  · simp [Database.directOramOnly] at h
  · simp [Database.directOramOnly] at h

theorem harmonyHintsWork_covers {h : HarmonyHintRequest} (hw : w ∈ srv.harmonyHintsWork h) :
    Covers srv (Request.meteredOp (.harmonyHints h)) w := by
  unfold Server.harmonyHintsWork at hw
  split_ifs at hw
  · split at hw
    · rename_i db hdb
      split at hw
      · rename_i table ref htable
        split at hw
        · split_ifs at hw with hany
          · cases List.mem_singleton.1 hw
            have hcuckoo : srv.oramOnly = false := by
              by_contra hne
              rw [Bool.not_eq_false] at hne
              obtain ⟨i, c, rfl⟩ := srv.oramOnly_databases hne db (List.mem_of_getElem? hdb)
              obtain ⟨g, -, hg⟩ := List.any_eq_true.1 hany
              rw [harmonyLevelTable_oramOnly htable] at hg
              cases hg
            obtain ⟨href, which, hwhich, hsub⟩ := harmonyLevelTable_ref htable
            refine ⟨_, db, rfl, rfl, ?_, hdb, ?_⟩
            · rw [MeteredOp.tables, href]
              exact List.mem_cons_self
            · simp [workGas, geometry_cuckoo hcuckoo, hwhich, hsub]
          · cases hw
        · cases hw
      · cases hw
    · cases hw
  · cases hw

theorem harmonyBatchQueryWork_covers (hcuckoo : srv.oramOnly = false) {q : HarmonyBatchQuery}
    (hw : w ∈ srv.harmonyBatchQueryWork q) :
    Covers srv (Request.meteredOp (.harmonyBatchQuery q)) w := by
  unfold Server.harmonyBatchQueryWork at hw
  split at hw
  · rename_i db hdb
    split at hw
    · rename_i table ref htable
      split_ifs at hw
      · cases List.mem_singleton.1 hw
        obtain ⟨href, which, hwhich, hsub⟩ := harmonyLevelTable_ref htable
        refine ⟨_, db, rfl, rfl, ?_, hdb, ?_⟩
        · rw [MeteredOp.tables, href]
          exact List.mem_cons_self
        · simp [workGas, geometry_cuckoo hcuckoo, hwhich, hsub]
      · cases hw
    · cases hw
  · cases hw

theorem tryTake_cuckoo {dbId : UInt8} (h : srv.tryTake env dbId = true) : srv.oramOnly = false := by
  simp only [Server.tryTake, Bool.and_eq_true, Bool.not_eq_true'] at h
  exact h.2

theorem harmonyHintsV2Work_covers {h : HarmonyHintRequestV2} (hw : w ∈ srv.harmonyHintsV2Work env h) :
    Covers srv (Request.meteredOp (.harmonyHintsV2 h)) w := by
  unfold Server.harmonyHintsV2Work at hw
  split_ifs at hw with hserve
  · rw [Bool.and_eq_true] at hserve
    obtain ⟨db, hdb⟩ := Option.isSome_iff_exists.1 hserve.1
    have hcuckoo := tryTake_cuckoo hserve.2
    have hgas : (workGas srv.calibration (srv.geometry h.dbId.toNat db) .harmonyPoolEntry).isSome := by
      simp [workGas, geometry_cuckoo hcuckoo]
    rcases List.mem_cons.1 hw with rfl | hw
    · exact ⟨_, db, rfl, rfl, by simp [MeteredOp.tables], hdb, hgas⟩
    · cases List.mem_singleton.1 hw
      exact ⟨_, db, rfl, rfl, by simp [MeteredOp.tables], hdb, hgas⟩
  · cases hw

theorem servesHalf_cuckoo {h : HarmonyHintRequestV2Half} (hserve : srv.servesHalf env h = true) :
    srv.oramOnly = false := by
  unfold Server.servesHalf at hserve
  split at hserve
  · simp only [Bool.and_eq_true, Bool.not_eq_true'] at hserve
    exact hserve.1.1
  · exact tryTake_cuckoo hserve

theorem harmonyHintsV2HalfWork_covers {h : HarmonyHintRequestV2Half}
    (hw : w ∈ srv.harmonyHintsV2HalfWork env h) :
    Covers srv (Request.meteredOp (.harmonyHintsV2Half h)) w := by
  rw [Server.harmonyHintsV2HalfWork] at hw
  by_cases hserve :
      ((srv.getDb h.dbId).isSome && srv.hintPools h.dbId && srv.servesHalf env h) = true
  · rw [if_pos hserve] at hw
    simp only [Bool.and_eq_true] at hserve
    obtain ⟨db, hdb⟩ := Option.isSome_iff_exists.1 hserve.1.1
    have hcuckoo := servesHalf_cuckoo hserve.2
    cases List.mem_singleton.1 hw
    refine ⟨_, db, rfl, rfl, ?_, hdb, by simp [workGas, geometry_cuckoo hcuckoo]⟩
    split_ifs <;> simp [MeteredOp.tables]
  · rw [if_neg hserve] at hw
    cases hw

theorem oramLookupWork_covers {encrypted : Bool} {q : OramLookupRequest}
    (hw : w ∈ srv.oramLookupWork encrypted q) : Covers srv (Request.meteredOp (.oramLookup q)) w := by
  unfold Server.oramLookupWork at hw
  split_ifs at hw with hserve
  · simp only [Bool.and_eq_true] at hserve
    obtain ⟨db, hdb⟩ := Option.isSome_iff_exists.1 hserve.1.2
    obtain ⟨slots, hslots⟩ := Option.isSome_iff_exists.1 hserve.2
    cases List.mem_singleton.1 hw
    refine ⟨_, db, rfl, rfl, List.mem_cons_self, hdb, ?_⟩
    simp [workGas, Server.geometry, hslots]
  · cases hw

/-- The worker of a database exists only if the database does. -/
theorem getDb_of_onionpirTxFor {dbId : UInt8} {g : OnionGeometry}
    (h : srv.onionpirTxFor dbId = some g) : ∃ db, srv.getDb dbId = some db := by
  rw [Server.onionpirTxFor, Option.join_eq_some_iff] at h
  have hlt : dbId.toNat < srv.databases.length :=
    srv.onion_length ▸ (List.getElem?_eq_some_iff.1 h).1
  exact ⟨_, List.getElem?_eq_getElem hlt⟩

theorem isSome_workGas_onion {op : MeteredOp} (hop : op.backend = .onion) {db : DatabaseGeometry}
    (hdb : db.onion.isSome) : (workGas srv.calibration db op).isSome := by
  cases op <;> cases hop <;> simpa [workGas] using hdb

theorem onionWork_covers {available : UInt8 → Bool} {table : Table} {op : MeteredOp} {body : Bytes}
    (hbackend : op.backend = .onion) (htable : table ∈ op.tables)
    (hw : w ∈ srv.onionWork available table body) : Covers srv (onionOp op body) w := by
  unfold Server.onionWork at hw
  split at hw
  · rename_i q hq
    split_ifs at hw with hserve
    · simp only [Bool.and_eq_true] at hserve
      obtain ⟨g, hg⟩ := Option.isSome_iff_exists.1 hserve.2
      obtain ⟨db, hdb⟩ := getDb_of_onionpirTxFor hg
      cases List.mem_singleton.1 hw
      refine ⟨op, db, by rw [onionOp, hq]; rfl, hbackend, htable, hdb,
        isSome_workGas_onion hbackend ?_⟩
      change (srv.onionpirTxFor q.dbId).isSome = true
      rw [hg]
      rfl
    · cases hw
  · cases hw

/-- Meter and dispatcher decode a request in the same way. -/
theorem request_covers {α : Type} {mk : α → Request} {r : Except String α} {encrypted : Bool}
    {payload : Bytes} (hdecode : Request.decode payload = r.map mk)
    (hcovers : ∀ a, Request.decode payload = .ok (mk a) →
      w ∈ srv.requestWork env encrypted (mk a) → Covers srv (mk a).meteredOp w)
    (hw : w ∈ match Request.decode payload with
      | .ok request => srv.requestWork env encrypted request
      | .error _ => []) :
    Covers srv ((Request.decode payload).toOption.bind Request.meteredOp) w := by
  cases r with
  | error e =>
    rw [hdecode] at hw
    cases hw
  | ok a =>
    have hok : Request.decode payload = .ok (mk a) := hdecode
    rw [hok] at hw ⊢
    exact hcovers a hok hw

/-- A query that passes the gates is not made to a server without table files. -/
theorem cuckoo_of_gate {variant : UInt8} {op : Opcode} (hop : Opcode.ofByte variant = some op)
    (hquery : Server.isQueryBearingVariant op = true) (hne : op ≠ .oramLookup)
    (hgate : srv.gateRefuses variant = false) : srv.oramOnly = false := by
  rw [Server.gateRefuses, hop] at hgate
  simp only [hquery, Bool.or_eq_false_iff, Bool.and_true] at hgate
  simpa [hne] using hgate.2

/-- **What the dispatcher works on is what the meter prices.** -/
theorem handleWork_covers {encrypted : Bool} {payload : Bytes}
    (hgate : srv.gateRefuses (payload.headD 0) = false)
    (hround : ∀ q, Request.decode payload = .ok (.bucketMerkleSibBatch q) → q.roundId < 200)
    (hw : w ∈ srv.handleWork env encrypted payload) : Covers srv (meteredOpForFrame payload) w := by
  cases payload with
  | nil => cases hw
  | cons variant body =>
    rw [Server.handleWork] at hw
    rw [meteredOpForFrame]
    split at hw
    all_goals rename_i hop
    -- An arm without work is the last one.
    all_goals first
      | simp only [hop]
      | cases hw
    · exact request_covers (by rw [Request.decode, hop])
        (fun q _ => indexBatchWork_covers (cuckoo_of_gate hop rfl (by decide) hgate)) hw
    · exact request_covers (by rw [Request.decode, hop])
        (fun q _ => chunkBatchWork_covers (cuckoo_of_gate hop rfl (by decide) hgate)) hw
    · exact request_covers (by rw [Request.decode, hop])
        (fun q hq => sibBatchWork_covers (cuckoo_of_gate hop rfl (by decide) hgate) (hround q hq)) hw
    · exact request_covers (by rw [Request.decode, hop]) (fun h _ => harmonyHintsWork_covers) hw
    · exact request_covers (by rw [Request.decode, hop]) (fun h _ => harmonyHintsV2Work_covers) hw
    · exact request_covers (by rw [Request.decode, hop])
        (fun h _ => harmonyHintsV2HalfWork_covers) hw
    · exact request_covers (by rw [Request.decode, hop])
        (fun q _ => harmonyBatchQueryWork_covers (cuckoo_of_gate hop rfl (by decide) hgate)) hw
    · exact request_covers (by rw [Request.decode, hop]) (fun q _ => oramLookupWork_covers) hw
    · exact onionWork_covers rfl List.mem_cons_self hw
    · exact onionWork_covers rfl List.mem_cons_self hw
    · exact onionWork_covers rfl List.mem_cons_self hw
    · split_ifs at hw
      · exact onionWork_covers rfl List.mem_cons_self hw
      · cases hw

end Covers

/-! ## The gas table has each database under its own id -/

theorem foldl_update {g : ℕ → Database → DatabaseGeometry} (l : List Database) (n : ℕ)
    (out : UInt8 → Option DatabaseGeometry) (hn : n + l.length ≤ 256) (id : UInt8) :
    (l.zipIdx n).foldl
        (fun out (p : Database × ℕ) => Function.update out (UInt8.ofNat p.2) (some (g p.2 p.1))) out id =
      if n ≤ id.toNat then ((l[id.toNat - n]?).map (g id.toNat)).or (out id) else out id := by
  induction l generalizing n out with
  | nil => simp
  | cons db l ih =>
    rw [List.length_cons] at hn
    rw [List.zipIdx_cons, List.foldl_cons, ih (n + 1) _ (by omega)]
    have hof : (UInt8.ofNat n).toNat = n := by
      exact Nat.mod_eq_of_lt (by omega)
    by_cases hid : id.toNat = n
    · have heq : id = UInt8.ofNat n := UInt8.toNat_inj.1 (hid.trans hof.symm)
      rw [if_neg (by omega), if_pos (by omega), hid, Nat.sub_self, List.getElem?_cons_zero, heq,
        Function.update_self]
      rfl
    · have hne : id ≠ UInt8.ofNat n := fun heq => hid (by rw [heq, hof])
      rw [Function.update_of_ne hne]
      by_cases hlt : n + 1 ≤ id.toNat
      · rw [if_pos hlt, if_pos (by omega), show id.toNat - n = id.toNat - (n + 1) + 1 by omega,
          List.getElem?_cons_succ]
      · rw [if_neg hlt, if_neg (by omega)]

theorem databaseGeometries_of_getDb {srv : Server} (hdbs : srv.databases.length ≤ 256) {id : UInt8}
    {db : Database} (hdb : srv.getDb id = some db) :
    srv.databaseGeometries id = some (srv.geometry id.toNat db) := by
  rw [Server.getDb] at hdb
  have h := foldl_update srv.databases 0 (g := srv.geometry) (fun _ => none) (by omega) id
  rw [Nat.sub_zero, hdb] at h
  exact h

/-! ## Every run -/

section Run

variable {srv : Server}

/-- A price that fits the signed balance is charged in full. -/
theorem toI64_frameGas {p : GasParams} {work : UInt64}
    (h : ((p.frameGas work).toNat : ℤ) ≤ i64Max) :
    toI64 (p.frameGas work) = work.toNat + p.baseGasPerFrame.toNat := by
  have hmin : (p.frameGas work).toNat = min (work.toNat + p.baseGasPerFrame.toNat) (2 ^ 64 - 1) := by
    exact Nat.mod_eq_of_lt (by omega)
  rw [toI64, min_eq_left h]
  rw [i64Max] at h
  omega

theorem handleBalance_apiKey {env : Env} {encrypted : Bool} {payload : Bytes} {b : GasBalance}
    (h : (srv.handleBalance env encrypted payload b).apiKey = none) : b.apiKey = none := by
  unfold Server.handleBalance at h
  split_ifs at h
  · split at h
    · unfold Server.presentCredit at h
      split_ifs at h
      · split at h <;> exact h
      · exact h
    · unfold Server.presentApiKey at h
      split at h
      · split at h
        · cases h
        · exact h
      · exact h
    · exact h
  · exact h

theorem settle_apiKey {env : Env} {admission : Admission} {op : Option (MeteredOp × UInt8)}
    {b : GasBalance} : (srv.settle env admission op b).apiKey = b.apiKey := by
  unfold Server.settle
  split_ifs <;> rfl

/-- An API key is never forgotten. -/
theorem step_apiKey {st : State} {f : Frame} (h : (srv.step st f).balance.apiKey = none) :
    st.balance.apiKey = none := by
  have hadmission : (srv.admission st f).2.apiKey = st.balance.apiKey := admitFrame_apiKey ..
  unfold Server.step at h
  split_ifs at h
  · exact h
  · exact hadmission ▸ h
  · rw [Server.dispatch] at h
    rw [settle_apiKey] at h
    exact hadmission ▸ handleBalance_apiKey h

/-- **One frame.** -/
theorem step_paid (hpaid : srv.policy.AllPaid) (hdbs : srv.databases.length ≤ 256) {st : State}
    {f : Frame} (hpriced : Priced srv st f) (hkey : st.balance.apiKey = none)
    (hlog : ∀ e ∈ st.log, Paid srv e) : ∀ e ∈ (srv.step st f).log, Paid srv e := by
  unfold Server.step
  split_ifs with hskip hrefused
  · exact hlog
  · exact hlog
  · intro e he
    rcases List.mem_append.1 he with he | he
    · obtain ⟨w, hw, rfl⟩ := List.mem_map.1 he
      have hgate : srv.gateRefuses (f.payload.headD 0) = false := by
        simp only [Bool.or_eq_true, not_or, Bool.not_eq_true] at hskip
        exact hskip.2
      obtain ⟨op, db, hop, hbackend, htable, hdb, hgas⟩ := handleWork_covers hgate hpriced.1 hw
      obtain ⟨work, hwork⟩ := Option.isSome_iff_exists.1 hgas
      have hcost : srv.admissionGas (meteredOpForFrame f.payload) =
          some (srv.params.frameGas work) := by
        rw [hop, Server.admissionGas]
        simp [databaseGeometries_of_getDb hdbs hdb, hwork]
      refine ⟨op, db, work, hop, hbackend, htable, hdb, hwork, ?_⟩
      rw [← toI64_frameGas (hpriced.2 _ hcost)]
      rw [Server.admission, hcost, hop, Option.map_some, admitFrame_paid hpaid _ _ _ hkey]
        at hrefused ⊢
      rcases chargeFrame_cases st.balance (srv.params.frameGas work) with ⟨msg, h⟩ | h
      · rw [h] at hrefused
        exact absurd rfl hrefused
      · rw [h]
    · exact hlog e he

/-- **No unpaid work.** -/
theorem run_paid (srv : Server) (hpaid : srv.policy.AllPaid) (hdbs : srv.databases.length ≤ 256)
    (frames : List Frame) (hpriced : EachStep srv.step (Priced srv) .init frames)
    (hkey : (runFrom srv.step .init frames).balance.apiKey = none) :
    ∀ e ∈ (runFrom srv.step .init frames).log, Paid srv e := by
  have hinv := EachStep.invariant (I := fun st => st.balance.apiKey = none → ∀ e ∈ st.log, Paid srv e)
    (fun st f hst hf hafter => step_paid hpaid hdbs hf (step_apiKey hafter) (hst (step_apiKey hafter)))
    (fun _ e he => absurd he List.not_mem_nil) hpriced
  exact hinv hkey

end Run

/-! ## A server with one database -/

namespace OneDatabase

def siblingParams : TableParams := { chunkParams with slotsPerBin := 1, slotSize := 256 }

def database : Database where
  index := ⟨indexParams, 1, 0, 75 * 52⟩
  chunk := ⟨chunkParams, 1, 0, 80 * 132⟩
  indexSiblings := []
  chunkSiblings := [⟨siblingParams, 1, 0, 80 * 256⟩]
  hasBucketMerkle := true

def server (baseGasPerFrame : UInt64) : Server where
  databases := [database]
  onion := [none]
  onionMerkle := [false]
  directOram _ := none
  hintPools _ := true
  validPrpBackend _ := true
  credits := true
  apiKeys := none
  policy := ⟨.paid, .paid, .paid, .paid⟩
  calibration := ⟨18.9, 261, 15700, 26000, 21000, 200, 1.016, 0.71, 100, 2, 5⟩
  params := ⟨baseGasPerFrame, 1000⟩
  serveHints := true
  serveQueries := true
  oramOnly := false
  onion_length := rfl
  oramOnly_databases := nofun

theorem allPaid (baseGasPerFrame : UInt64) : (server baseGasPerFrame).policy.AllPaid := by
  intro backend
  cases backend <;> rfl

def env : Env := ⟨.ok (2 ^ 63 - 1), true, none, .error "", 0⟩

/-- A sibling batch of round 200: one group, one key. -/
def siblingBatch : Frame :=
  ⟨[0x33, 200, 0, 1, 1, 34, 0, 7] ++ List.replicate 33 0, false, env⟩

def presentation : Frame := ⟨[0x12, 0, 0, 0, 0, 0], true, env⟩

/-- Half an entry of the hint pool, the INDEX side. -/
def hintHalf : Frame := ⟨0x46 :: List.replicate 16 1 ++ [0], false, env⟩

end OneDatabase

open OneDatabase in
theorem sibling_scan_unpaid :
    (server 20).policy.AllPaid ∧ (server 20).databases.length ≤ 256 ∧
      (runFrom (server 20).step .init [siblingBatch]).balance.apiKey = none ∧
      ∃ e ∈ (runFrom (server 20).step .init [siblingBatch]).log,
        e.work.backend = .dpf ∧ e.work.table = .sibling .chunk 0 ∧ ¬Paid (server 20) e := by
  have hlog : (runFrom (server 20).step .init [siblingBatch]).log =
      [⟨siblingBatch.payload, ⟨.dpf, 0, .sibling .chunk 0⟩, 0, 0⟩] := by rfl
  refine ⟨allPaid 20, by decide, rfl, _, hlog ▸ List.mem_cons_self, rfl, rfl, ?_⟩
  rintro ⟨op, db, work, hmetered, -⟩
  cases hmetered

namespace OneDatabase

/-- Half the price of an entry fits the signed balance whatever the entry costs. -/
theorem frameGas_half_le (gas : UInt64) :
    (((server 0).params.frameGas (gas / 2)).toNat : ℤ) ≤ i64Max := by
  have hhalf : (gas / 2).toNat = gas.toNat / 2 := UInt64.toNat_div ..
  have hlt := gas.toNat_lt
  have hadd : ((server 0).params.frameGas (gas / 2)).toNat =
      min ((gas / 2).toNat + 0) (2 ^ 64 - 1) % 2 ^ 64 := UInt64.toNat_ofNat'
  rw [i64Max]
  omega

theorem hintHalf_gas : ∃ gas : UInt64, (server 0).admissionGas (meteredOpForFrame hintHalf.payload) =
    some ((server 0).params.frameGas (gas / 2)) := by
  refine ⟨toGas (poolEntryMs (server 0).calibration (cuckooGeometry database)), ?_⟩
  rfl

/-- The state after the presentation. -/
def funded : State := ⟨⟨i64Max, 0, none⟩, false, []⟩

theorem step_presentation : (server 0).step .init presentation = funded := by
  have hstep : (server 0).step .init presentation =
      ⟨GasBalance.new.topUp (2 ^ 63 - 1), false, []⟩ := by rfl
  have hgas : (GasBalance.new.topUp (2 ^ 63 - 1)).gas = i64Max := by decide +kernel
  rw [hstep, funded, State.mk.injEq, ← hgas]
  exact ⟨rfl, rfl, rfl⟩

theorem priced : EachStep (server 0).step (Priced (server 0)) .init [presentation, hintHalf] := by
  refine eachStep_cons.2 ⟨⟨fun q hq => (by cases hq), fun gas hgas => (by cases hgas)⟩, ?_⟩
  refine eachStep_cons.2 ⟨⟨fun q hq => (by cases hq), fun gas hgas => ?_⟩, eachStep_nil _⟩
  obtain ⟨g, hg⟩ := hintHalf_gas
  rw [hg] at hgas
  cases hgas
  exact frameGas_half_le g

theorem admission_hintHalf : ∃ b, (server 0).admission funded hintHalf = (.charged, b) :=
  ⟨_, chargeFrame_of_le (min_le_right _ _)⟩

end OneDatabase

open OneDatabase in
theorem run_paid_hint_half :
    (∃ e ∈ (runFrom (server 0).step .init [presentation, hintHalf]).log,
      e.work.table = .main .index) ∧
      ∀ e ∈ (runFrom (server 0).step .init [presentation, hintHalf]).log, Paid (server 0) e := by
  obtain ⟨b, hb⟩ := admission_hintHalf
  have hstep : runFrom (server 0).step .init [presentation, hintHalf] =
      (server 0).dispatch funded hintHalf .charged b := by
    rw [runFrom_cons, runFrom_cons, step_presentation, Server.step, hb]
    rfl
  have hkey : b.apiKey = none := by
    have h := admitFrame_apiKey (server 0).policy hintHalf.env.lane
      ((meteredOpForFrame hintHalf.payload).map Prod.fst)
      ((server 0).admissionGas (meteredOpForFrame hintHalf.payload)) funded.balance
    rw [← Server.admission, hb] at h
    exact h
  constructor
  · rw [hstep]
    exact ⟨_, List.mem_cons_self, rfl⟩
  · refine run_paid (server 0) (allPaid 0) (by decide) _ priced ?_
    rw [hstep]
    exact hkey

end BitcoinPir.Meter
