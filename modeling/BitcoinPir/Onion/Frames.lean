import BitcoinPir.Core.Protocol
import BitcoinPir.Credit.Requests
import BitcoinPir.Foundations.Lists

/-!
# Serving OnionPIR frames

The seven OnionPIR requests, from the bytes of a frame to the responses that are sent. The dispatcher
decodes a frame and picks the worker of its database; the worker answers with one PIR server per
group, which it hands the queries of the frame by their position. `none` is a panic, and a panic of
either side ends the process.

How many queries a frame carries is the client's choice. `handleVariant_answers_iff` says for which
frames that choice is a safe one.
-/

namespace BitcoinPir.Onion.Frames

open Foundations Meter

inductive OnionOp
  | registerKeys
  | indexQuery
  | chunkQuery
  | merkleIndexSibling
  | merkleIndexTreeTop
  | merkleDataSibling
  | merkleDataTreeTop

/-- The first byte of the frame, and of a response that is not an error. -/
def OnionOp.variant : OnionOp → UInt8
  | .registerKeys => 0x50
  | .indexQuery => 0x51
  | .chunkQuery => 0x52
  | .merkleIndexSibling => 0x53
  | .merkleIndexTreeTop => 0x54
  | .merkleDataSibling => 0x55
  | .merkleDataTreeTop => 0x56

/-! ## The library -/

inductive ServerArray
  | index
  | chunk
  | indexSib
  | dataSib

/-- The OnionPIR library over key stores `κ` and prepared queries `ρ`. None of its functions panics;
a query it cannot serve is answered with no bytes, or not prepared. -/
structure Library (κ ρ : Type) where
  setGaloisKeys : κ → ℕ → Bytes → κ
  setGswKey : κ → ℕ → Bytes → κ
  answerQuery : κ → ServerArray → ℕ → ℕ → Bytes → Bytes
  prepareQuery : κ → ℕ → ℕ → Bytes → Option ρ
  sharedFirstDim : κ → List ρ → Bool
  finishQuery : κ → ℕ → ρ → Bytes

/-- The order in which the thread pool takes up the groups of an array. -/
structure Schedule where
  order : ℕ → List ℕ
  perm : ∀ k, (order k).Perm (List.range k)

/-! ## The worker of a database -/

/-- The lengths of the worker's server arrays; a sibling array exists if its file does. -/
structure Worker where
  kIndex : ℕ
  kChunk : ℕ
  indexSib : Option ℕ
  dataSib : Option ℕ

variable {κ ρ : Type} (lib : Library κ ρ) (sched : Schedule)

namespace Worker

section Answer

variable (w : Worker) (keys : κ) (client : ℕ) (queries : List Bytes)

def answerIndex : Option (List Bytes) :=
  ((List.range w.kIndex).mapM fun g => do
    let q0 ← queries[2 * g]?
    let q1 ← queries[2 * g + 1]?
    return [lib.answerQuery keys .index g client q0, lib.answerQuery keys .index g client q1]).map
      List.flatten

/-- Prepares the queries of the groups in this order. The first group that fails ends it, and the
queries of the groups after it are not looked at. -/
def prepareQueries : List ℕ → Option (Option (List (ℕ × ρ)))
  | [] => some (some [])
  | b :: order => do
    let q ← queries[b]?
    match lib.prepareQuery keys b client q with
    | none => return none
    | some p =>
      let rest ← prepareQueries order
      return rest.map ((b, p) :: ·)

def answerChunk : Option (List Bytes) := do
  match ← prepareQueries lib keys client queries (sched.order w.kChunk) with
  | some prepared =>
    -- The prepared queries are collected by group, whatever the order they were made in.
    let prepared := (List.range w.kChunk).filterMap fun b => List.lookup b prepared
    if lib.sharedFirstDim keys prepared then
      return List.zipWith (lib.finishQuery keys) (List.range w.kChunk) prepared
    else return List.replicate w.kChunk []
  | none => return List.replicate w.kChunk []

def answerSiblings (array : ServerArray) (k : ℕ) : Option (List Bytes) :=
  (List.range k).mapM fun b => do
    let q ← queries[b]?
    return lib.answerQuery keys array b client q

/-- The event loop's answer to a batch. -/
def answerBatch (level : ℕ) : Option (List Bytes) :=
  if level = 0 then w.answerIndex lib keys client queries
  else if level = 1 then w.answerChunk lib sched keys client queries
  else if level = 10 then answerSiblings lib keys client queries .indexSib (w.indexSib.getD 0)
  else if level = 11 then answerSiblings lib keys client queries .dataSib (w.dataSib.getD 0)
  else some []

end Answer

/-- The positions that the arrays of a level read: two queries for every INDEX group, and one for
every other group. -/
def needed (w : Worker) (level : ℕ) : ℕ :=
  if level = 0 then 2 * w.kIndex
  else if level = 1 then w.kChunk
  else if level = 10 then w.indexSib.getD 0
  else if level = 11 then w.dataSib.getD 0
  else 0

end Worker

/-! ## The dispatcher -/

/-- What the dispatcher reads of a server. Merkle data is loaded with the worker of its database. -/
structure Server where
  roleName : String
  onionpirTxs : List (Option Worker)
  /-- The tree-top blob of a database with OnionPIR Merkle data. -/
  onionpirMerkle : List (Option Bytes)
  merkle_worker : ∀ (i : ℕ) (tops : Bytes), onionpirMerkle[i]? = some (some tops) →
    ∃ w : Worker, onionpirTxs[i]? = some (some w) ∧ w.indexSib.isSome ∧ w.dataSib.isSome

namespace Server

variable (srv : Server)

def hasAnyOnionpir : Bool := srv.onionpirTxs.any Option.isSome

def hasAnyOnionpirMerkle : Bool := srv.onionpirMerkle.any Option.isSome

def onionpirTxFor (dbId : UInt8) : Option Worker := srv.onionpirTxs[dbId.toNat]?.join

def onionpirMerkleFor (dbId : UInt8) : Option Bytes := srv.onionpirMerkle[dbId.toNat]?.join

theorem isSome_onionpirTxFor {dbId : UInt8} (h : (srv.onionpirMerkleFor dbId).isSome) :
    ∃ w, srv.onionpirTxFor dbId = some w := by
  obtain ⟨tops, htops⟩ := Option.isSome_iff_exists.1 h
  obtain ⟨w, hw, -⟩ := srv.merkle_worker dbId.toNat tops (Option.join_eq_some_iff.1 htops)
  exact ⟨w, Option.join_eq_some_iff.2 hw⟩

end Server

/-- `OnionPirBatchResult::encode`. -/
def encodeBatchResult (variant : UInt8) (roundId : UInt16) (results : List Bytes) : Bytes :=
  encodeResponse (variant :: (leBytes 2 roundId.toNat ++ leBytes 1 results.length ++
    results.flatMap fun r => leBytes 4 r.length ++ r))

/-- The key stores of the workers after a frame, and the responses that were sent. -/
abbrev Served (κ : Type) : Type := (UInt8 → κ) × List Bytes

section Dispatch

variable (srv : Server) (client : ℕ) (stores : UInt8 → κ) (op : OnionOp) (body : Bytes)

def unsupported : Bytes :=
  errorResponse s!"unsupported request 0x{hexByte op.variant} for {srv.roleName} role"

def notAvailable (dbId : UInt8) : Bytes := errorResponse s!"OnionPIR not available for db_id={dbId}"

def merkleNotAvailable (dbId : UInt8) : Bytes :=
  errorResponse s!"OnionPIR Merkle not available for db_id={dbId}"

def handleRegisterKeys : Served κ :=
  match RegisterKeysMsg.decode body with
  | .ok msg =>
    match srv.onionpirTxFor msg.dbId with
    | none => (stores, [notAvailable msg.dbId])
    | some _ =>
      let keys := lib.setGaloisKeys (stores msg.dbId) client msg.galoisKeys
      let keys := lib.setGswKey keys client msg.gswKeys
      (Function.update stores msg.dbId keys, [encodeResponse [OnionOp.variant .registerKeys]])
  | .error error =>
    (stores, [errorResponse s!"OnionPIR key registration decode error: {error}"])

/-- Sends a batch to a worker and its results to the client. -/
def answerFrom (w : Worker) (level : ℕ) (batch : OnionPirBatchQuery) : Option (Served κ) :=
  (w.answerBatch lib sched (stores batch.dbId) client batch.queries level).map fun results =>
    (stores, [encodeBatchResult op.variant batch.roundId results])

def handleQuery (level : ℕ) : Option (Served κ) :=
  match OnionPirBatchQuery.decode body with
  | .ok batch =>
    match srv.onionpirTxFor batch.dbId with
    | none => some (stores, [notAvailable batch.dbId])
    | some w => answerFrom lib sched client stores op w level batch
  -- There is no arm for a frame that does not decode.
  | .error _ => some (stores, [])

def handleSibling (level : ℕ) : Option (Served κ) :=
  match OnionPirBatchQuery.decode body with
  | .ok batch =>
    if (srv.onionpirMerkleFor batch.dbId).isNone then
      some (stores, [merkleNotAvailable batch.dbId])
    else
      match srv.onionpirTxFor batch.dbId with
      | none => some (stores, [])
      | some w => answerFrom lib sched client stores op w level batch
  | .error _ => some (stores, [])

def handleTreeTop : Served κ :=
  let dbId := body.headD 0
  match srv.onionpirMerkleFor dbId with
  | none => (stores, [merkleNotAvailable dbId])
  | some top => (stores, [encodeResponse (op.variant :: top)])

/-- The OnionPIR arms of `handle_variant`. -/
def handleVariant : Option (Served κ) :=
  match op with
  | .registerKeys =>
    if srv.hasAnyOnionpir then some (handleRegisterKeys lib srv client stores body)
    else some (stores, [unsupported srv op])
  | .indexQuery =>
    if srv.hasAnyOnionpir then handleQuery lib sched srv client stores op body 0
    else some (stores, [unsupported srv op])
  | .chunkQuery =>
    if srv.hasAnyOnionpir then handleQuery lib sched srv client stores op body 1
    else some (stores, [unsupported srv op])
  | .merkleIndexTreeTop | .merkleDataTreeTop =>
    if srv.hasAnyOnionpirMerkle then some (handleTreeTop srv stores op body)
    else some (stores, [unsupported srv op])
  | .merkleIndexSibling =>
    if srv.hasAnyOnionpir then handleSibling lib sched srv client stores op body 10
    else some (stores, [unsupported srv op])
  | .merkleDataSibling =>
    if srv.hasAnyOnionpir && srv.hasAnyOnionpirMerkle then
      handleSibling lib sched srv client stores op body 11
    else some (stores, [unsupported srv op])

end Dispatch

/-! ## Frames that are served safely -/

/-- The batch decodes, and its database, if it passes `available`, has a worker whose arrays read no
position past the end of the batch. -/
def QueriesSuffice (srv : Server) (available : UInt8 → Bool) (level : ℕ) (body : Bytes) : Prop :=
  ∃ batch, OnionPirBatchQuery.decode body = .ok batch ∧
    (available batch.dbId = true →
      ∀ w, srv.onionpirTxFor batch.dbId = some w → w.needed level ≤ batch.queries.length)

def Servable (srv : Server) (op : OnionOp) (body : Bytes) : Prop :=
  let merkle dbId := (srv.onionpirMerkleFor dbId).isSome
  match op with
  | .registerKeys | .merkleIndexTreeTop | .merkleDataTreeTop => True
  | .indexQuery => srv.hasAnyOnionpir = true → QueriesSuffice srv (fun _ => true) 0 body
  | .chunkQuery => srv.hasAnyOnionpir = true → QueriesSuffice srv (fun _ => true) 1 body
  | .merkleIndexSibling => srv.hasAnyOnionpir = true → QueriesSuffice srv merkle 10 body
  | .merkleDataSibling =>
    (srv.hasAnyOnionpir && srv.hasAnyOnionpirMerkle) = true → QueriesSuffice srv merkle 11 body

/-- One response, and no panic. -/
def Answers (served : Option (Served κ)) : Prop := ∃ stores response, served = some (stores, [response])

theorem answers_some (stores : UInt8 → κ) (response : Bytes) :
    Answers (some (stores, [response])) := ⟨stores, response, rfl⟩

theorem not_answers_silent (stores : UInt8 → κ) : ¬Answers (some (stores, [])) := by
  rintro ⟨stores', response, h⟩
  cases h

/-! ## The worker -/

section WorkerLemmas

variable {lib} {keys : κ} {client : ℕ} {queries : List Bytes}

/-- A positional read of every element of a range succeeds iff the range ends before the list. -/
theorem isSome_mapM_range_iff {β : Type} {f : ℕ → Option β} {k n : ℕ}
    (hf : ∀ g, (f g).isSome ↔ g < n) : ((List.range k).mapM f).isSome ↔ k ≤ n := by
  constructor
  · intro h
    obtain ⟨l, hl⟩ := Option.isSome_iff_exists.1 h
    cases k with
    | zero => exact Nat.zero_le n
    | succ k =>
      have hlast : (List.range (k + 1))[k]? = some k := by simp
      obtain ⟨b, -, hb⟩ := getElem?_mapM hl hlast
      exact (hf k).1 (hb ▸ rfl)
  · intro h
    obtain ⟨l, hl⟩ := exists_mapM_eq_some (f := f) (l := List.range k) fun g hg =>
      Option.isSome_iff_exists.1 ((hf g).2 ((List.mem_range.1 hg).trans_le h))
    rw [hl]
    rfl

theorem answerIndex_isSome_iff (w : Worker) :
    (w.answerIndex lib keys client queries).isSome ↔ 2 * w.kIndex ≤ queries.length := by
  rw [Worker.answerIndex, Option.isSome_map, isSome_mapM_range_iff (n := queries.length / 2)]
  · omega
  · intro g
    by_cases h : 2 * g + 1 < queries.length
    · simp [List.getElem?_eq_getElem h, List.getElem?_eq_getElem (Nat.lt_of_succ_lt h)]
      omega
    · simp only [List.getElem?_eq_none (not_lt.1 h)]
      cases queries[2 * g]? <;> simp <;> omega

theorem answerSiblings_isSome_iff (array : ServerArray) (k : ℕ) :
    (Worker.answerSiblings lib keys client queries array k).isSome ↔ k ≤ queries.length := by
  refine isSome_mapM_range_iff fun b => ?_
  by_cases h : b < queries.length
  · simp [h]
  · simp [h]

theorem prepareQueries_isSome {order : List ℕ} (h : ∀ b ∈ order, b < queries.length) :
    (Worker.prepareQueries lib keys client queries order).isSome := by
  induction order with
  | nil => rfl
  | cons b order ih =>
    have hrest := Option.isSome_iff_exists.1 (ih fun c hc => h c (List.mem_cons_of_mem _ hc))
    obtain ⟨rest, hrest⟩ := hrest
    rw [Worker.prepareQueries, List.getElem?_eq_getElem (h b List.mem_cons_self)]
    simp only [Option.bind_eq_bind, Option.bind_some]
    split
    · rfl
    · rw [hrest]
      rfl

theorem prepareQueries_head {b : ℕ} {order : List ℕ} (h : queries.length ≤ b) :
    Worker.prepareQueries lib keys client queries (b :: order) = none := by
  rw [Worker.prepareQueries, List.getElem?_eq_none h]
  rfl

theorem answerChunk_isSome (w : Worker) (sched : Schedule) :
    (w.answerChunk lib sched keys client queries).isSome ↔
      (Worker.prepareQueries lib keys client queries (sched.order w.kChunk)).isSome := by
  rw [Worker.answerChunk]
  cases Worker.prepareQueries lib keys client queries (sched.order w.kChunk) with
  | none => exact Iff.rfl
  | some prepared =>
    simp only [Option.bind_eq_bind, Option.bind_some]
    cases prepared with
    | none => exact Iff.rfl
    | some prepared =>
      dsimp only
      split_ifs <;> exact Iff.rfl

/-- The pool may take up group `b` before every other. -/
def Schedule.startingAt (b : ℕ) : Schedule where
  order k := if b ∈ List.range k then b :: (List.range k).erase b else List.range k
  perm k := by
    split_ifs with h
    · exact (List.perm_cons_erase h).symm
    · exact List.Perm.refl _

theorem answerChunk_isSome_iff (w : Worker) :
    (∀ sched, (w.answerChunk lib sched keys client queries).isSome) ↔
      w.kChunk ≤ queries.length := by
  simp only [answerChunk_isSome]
  constructor
  · intro h
    by_contra hlt
    -- A group without a query is the first to be taken up.
    have hmem : queries.length ∈ List.range w.kChunk := List.mem_range.2 (not_le.1 hlt)
    have hfirst := h (.startingAt queries.length)
    rw [Schedule.startingAt] at hfirst
    dsimp only at hfirst
    rw [if_pos hmem, prepareQueries_head le_rfl] at hfirst
    cases hfirst
  · intro h sched
    refine prepareQueries_isSome fun b hb => ?_
    exact (List.mem_range.1 ((sched.perm _).mem_iff.1 hb)).trans_le h

/-- **The worker** panics under no order of the groups iff the batch has a query for every position
that its arrays read. -/
theorem answerBatch_isSome_iff (w : Worker) (level : ℕ) :
    (∀ sched, (w.answerBatch lib sched keys client queries level).isSome) ↔
      w.needed level ≤ queries.length := by
  have : Nonempty Schedule := ⟨.startingAt 0⟩
  unfold Worker.answerBatch Worker.needed
  split_ifs
  · rw [forall_const, answerIndex_isSome_iff]
  · exact answerChunk_isSome_iff w
  · rw [forall_const, answerSiblings_isSome_iff]
  · rw [forall_const, answerSiblings_isSome_iff]
  · simp

end WorkerLemmas

/-! ## The dispatcher -/

section DispatchLemmas

variable {lib} {srv : Server} {client : ℕ} {stores : UInt8 → κ} {op : OnionOp} {body : Bytes}

theorem answers_answerFrom_iff {w : Worker} {level : ℕ} {batch : OnionPirBatchQuery} :
    (∀ sched, Answers (answerFrom lib sched client stores op w level batch)) ↔
      w.needed level ≤ batch.queries.length := by
  have hworker : (∀ sched, (w.answerBatch lib sched (stores batch.dbId) client batch.queries
      level).isSome) ↔ w.needed level ≤ batch.queries.length := answerBatch_isSome_iff w level
  rw [← hworker]
  refine forall_congr' fun sched => ?_
  rw [answerFrom]
  cases w.answerBatch lib sched (stores batch.dbId) client batch.queries level with
  | none => simp [Answers]
  | some results => simp [Answers]

theorem answers_handleQuery_iff {level : ℕ} :
    (∀ sched, Answers (handleQuery lib sched srv client stores op body level)) ↔
      QueriesSuffice srv (fun _ => true) level body := by
  have hsched : Nonempty Schedule := ⟨.startingAt 0⟩
  unfold handleQuery QueriesSuffice
  cases OnionPirBatchQuery.decode body with
  | error e => simp [not_answers_silent]
  | ok batch =>
    cases htx : srv.onionpirTxFor batch.dbId with
    | none => simp [answers_some, htx]
    | some w => simp [answers_answerFrom_iff, htx]

theorem answers_handleSibling_iff {level : ℕ} :
    (∀ sched, Answers (handleSibling lib sched srv client stores op body level)) ↔
      QueriesSuffice srv (fun dbId => (srv.onionpirMerkleFor dbId).isSome) level body := by
  have hsched : Nonempty Schedule := ⟨.startingAt 0⟩
  unfold handleSibling QueriesSuffice
  cases OnionPirBatchQuery.decode body with
  | error e => simp [not_answers_silent]
  | ok batch =>
    cases hmerkle : srv.onionpirMerkleFor batch.dbId with
    | none => simp [answers_some, hmerkle]
    | some tops =>
      obtain ⟨w, hw⟩ := srv.isSome_onionpirTxFor (Option.isSome_of_eq_some hmerkle)
      simp [answers_answerFrom_iff, hmerkle, hw]

theorem answers_handleRegisterKeys :
    Answers (some (handleRegisterKeys lib srv client stores body)) := by
  unfold handleRegisterKeys
  cases RegisterKeysMsg.decode body with
  | error e => exact answers_some _ _
  | ok msg =>
    dsimp only
    cases srv.onionpirTxFor msg.dbId <;> exact answers_some _ _

theorem answers_handleTreeTop : Answers (some (handleTreeTop srv stores op body)) := by
  unfold handleTreeTop
  dsimp only
  cases srv.onionpirMerkleFor (body.headD 0) <;> exact answers_some _ _

theorem answers_guarded_iff {guard : Bool} {arm : Schedule → Option (Served κ)} {response : Bytes}
    {p : Prop} (h : (∀ sched, Answers (arm sched)) ↔ p) :
    (∀ sched, Answers (if guard then arm sched else some (stores, [response]))) ↔
      (guard = true → p) := by
  cases guard with
  | false => simp [answers_some]
  | true => simpa using h

end DispatchLemmas

/-- **Serving OnionPIR frames.** A frame is answered with one response, and without a panic under
any order in which the groups are taken up, iff it is a key registration or a tree-top request, or
its arm is not enabled, or it decodes and carries a query for every position its worker reads. -/
theorem handleVariant_answers_iff (srv : Server) (client : ℕ) (stores : UInt8 → κ) (op : OnionOp)
    (body : Bytes) :
    (∀ sched, Answers (handleVariant lib sched srv client stores op body)) ↔
      Servable srv op body := by
  have htrue : (∀ _ : Schedule, Answers (some (handleRegisterKeys lib srv client stores body))) ↔
      True := iff_true_intro fun _ => answers_handleRegisterKeys
  have htop : (∀ _ : Schedule, Answers (some (handleTreeTop srv stores op body))) ↔ True :=
    iff_true_intro fun _ => answers_handleTreeTop
  cases op with
  | registerKeys => exact (answers_guarded_iff htrue).trans (iff_true_intro fun _ => trivial)
  | indexQuery => exact answers_guarded_iff answers_handleQuery_iff
  | chunkQuery => exact answers_guarded_iff answers_handleQuery_iff
  | merkleIndexSibling => exact answers_guarded_iff answers_handleSibling_iff
  | merkleIndexTreeTop => exact (answers_guarded_iff htop).trans (iff_true_intro fun _ => trivial)
  | merkleDataSibling => exact answers_guarded_iff answers_handleSibling_iff
  | merkleDataTreeTop => exact (answers_guarded_iff htop).trans (iff_true_intro fun _ => trivial)

namespace OneWorker

/-- A database with the production group counts. -/
def server : Server where
  roleName := "primary"
  onionpirTxs := [some ⟨75, 80, some 75, some 80⟩]
  onionpirMerkle := [some []]
  merkle_worker := by
    intro i tops h
    cases i with
    | zero => exact ⟨_, rfl, rfl, rfl⟩
    | succ i => simp at h

/-- A library that prepares nothing and answers nothing. -/
def library : Library Unit Unit where
  setGaloisKeys _ _ _ := ()
  setGswKey _ _ _ := ()
  answerQuery _ _ _ _ _ := []
  prepareQuery _ _ _ _ := none
  sharedFirstDim _ _ := false
  finishQuery _ _ _ := []

end OneWorker

open OneWorker in
/-- An INDEX frame that announces no groups takes the process down, and one without a body is never
answered. -/
theorem emptyBatch_panics :
    handleVariant library (.startingAt 0) server 1 (fun _ => ()) .indexQuery [0, 0, 0] = none ∧
      ∃ stores, handleVariant library (.startingAt 0) server 1 (fun _ => ()) .indexQuery [] =
        some (stores, []) := by
  constructor
  · rfl
  · exact ⟨_, rfl⟩

end BitcoinPir.Onion.Frames
