import BitcoinPir.Scan.Batcher
import BitcoinPir.Foundations.Runs

/-!
# Concurrent queries

Queries that arrive while a scan of the same table is running wait in the table's lane and share
the next scan. Every call is a thread: it queues its job, and either scans at once or waits for a
message, which is its result or the order to scan. The scanner takes all queued jobs, evaluates
them together, answers each, and hands the role to the first job queued meanwhile.

The mutex makes three stretches of a call atomic: queueing, draining, handing over. Between them
any other call may run, so a run is any list of events, each one atomic stretch of one call
(`laneStep`); an event that is not due leaves the state as it is. A message is in the inbox of the
call that has the receiving end. A panic of the evaluation is not a step.

`run_transparent`: in every state of every run, what a call returned is what its own keys give
alone, a lane has at most one scanner and has one whenever jobs are queued, and no call that has
scanned is told to scan. The invariant (`Inv`) says who has the role; a call's own part of it is
`CallOk`, one case for each point a call can be at.
-/

namespace BitcoinPir.Scan

open Foundations Function

variable {Key : Type}

/-! ## The machine -/

inductive Reply
  | done (groups : GroupResults)
  | scan

/-- What the mutex protects. -/
structure Lane (Key : Type) where
  scanning : Bool
  queued : List (Job Key)

/-- Where a call is. -/
inductive Phase (Key : Type)
  /-- Queued behind a scanner, waiting for a message. -/
  | waiting
  /-- Has the role, and has not drained the queue yet. -/
  | draining
  /-- Evaluating the jobs it took. -/
  | scanning (jobs : List (Job Key))
  /-- Sending what is left of the results; with none left it hands the role over. -/
  | replying (left : List (ℕ × GroupResults))
  /-- Taking its own result. -/
  | collecting
  | returned (groups : GroupResults)
  /-- The branch `unreachable!`. -/
  | unreachable

/-- A call of `scan`: its keys, where it is, and the messages it has not received. -/
structure Call (Key : Type) where
  keys : List (List Key)
  phase : Phase Key
  inbox : List Reply

/-- A lane with the calls that use it. -/
structure LaneState (Key : Type) where
  lane : Lane Key
  calls : ℕ → Option (Call Key)

def LaneState.init : LaneState Key := ⟨⟨false, []⟩, fun _ => none⟩

inductive Event (Key : Type)
  /-- A new call queues its job. -/
  | call (id : ℕ) (keys : List (List Key))
  /-- The call takes the next message from its channel. -/
  | recv (id : ℕ)
  | drain (id : ℕ)
  | scan (id : ℕ)
  /-- The scanner sends one result. -/
  | reply (id : ℕ)
  | handOff (id : ℕ)

namespace LaneState

variable (s : LaneState Key) (dpf : Dpf Key) (table : MappedSubTable) (id : ℕ)

def modifyCall (f : Call Key → Call Key) : LaneState Key :=
  { s with calls := update s.calls id ((s.calls id).map f) }

def setPhase (phase : Phase Key) : LaneState Key :=
  s.modifyCall id fun c => { c with phase }

/-- Put a message into the channel of a call. -/
def send (reply : Reply) : LaneState Key :=
  s.modifyCall id fun c => { c with inbox := c.inbox ++ [reply] }

def setLane (lane : Lane Key) : LaneState Key := { s with lane }

/-- Queue the job; the call scans at once if nobody does. -/
def enqueue (keys : List (List Key)) : LaneState Key where
  lane := ⟨true, s.lane.queued ++ [⟨keys, id⟩]⟩
  calls := update s.calls id
    (some ⟨keys, if s.lane.scanning then .waiting else .draining, []⟩)

variable (c : Call Key)

/-- The phase after a message. -/
def receive : LaneState Key :=
  match c.phase, c.inbox with
  | .waiting, .done groups :: inbox =>
    s.modifyCall id fun c => { c with phase := .returned groups, inbox }
  | .waiting, .scan :: inbox => s.modifyCall id fun c => { c with phase := .draining, inbox }
  | .collecting, .done groups :: inbox =>
    s.modifyCall id fun c => { c with phase := .returned groups, inbox }
  | .collecting, .scan :: inbox => s.modifyCall id fun c => { c with phase := .unreachable, inbox }
  | _, _ => s

def drain : LaneState Key :=
  match c.phase with
  | .draining =>
    (s.setLane { s.lane with queued := [] }).setPhase id (.scanning s.lane.queued)
  | _ => s

def scan : LaneState Key :=
  match c.phase with
  | .scanning jobs =>
    match scanJobs dpf table jobs with
    | some results => s.setPhase id (.replying ((jobs.map Job.reply).zip results))
    | none => s
  | _ => s

def reply : LaneState Key :=
  match c.phase with
  | .replying ((dest, groups) :: left) => (s.send dest (.done groups)).setPhase id (.replying left)
  | _ => s

/-- Order the first queued call to scan, or leave the lane idle. -/
def passRole : LaneState Key :=
  match s.lane.queued with
  | next :: _ => s.send next.reply .scan
  | [] => s.setLane { s.lane with scanning := false }

def handOff : LaneState Key :=
  match c.phase with
  | .replying [] => s.passRole.setPhase id .collecting
  | _ => s

end LaneState

/-- An event of a call that exists. -/
def LaneState.ofCall (s : LaneState Key) (id : ℕ) (f : Call Key → LaneState Key) : LaneState Key :=
  match s.calls id with
  | some c => f c
  | none => s

/-- One atomic stretch of one call. -/
def laneStep (dpf : Dpf Key) (table : MappedSubTable) (s : LaneState Key) :
    Event Key → LaneState Key
  | .call id keys => if (s.calls id).isSome then s else s.enqueue id keys
  | .recv id => s.ofCall id (s.receive id)
  | .drain id => s.ofCall id (s.drain id)
  | .scan id => s.ofCall id (s.scan dpf table id)
  | .reply id => s.ofCall id (s.reply id)
  | .handOff id => s.ofCall id (s.handOff id)

/-- A lane: the address of a table, and whether the query runs on the free pool. -/
abbrev LaneId := ℕ × Bool

/-- All lanes. -/
abbrev Batcher (Key : Type) := LaneId → LaneState Key

def Batcher.init : Batcher Key := fun _ => .init

/-- An event of a call on lane `e.1`. -/
def step (dpf : Dpf Key) (tables : ℕ → MappedSubTable) (s : Batcher Key)
    (e : LaneId × Event Key) : Batcher Key :=
  update s e.1 (laneStep dpf (tables e.1.1) (s e.1) e.2)

/-! ## The invariant of a lane -/

/-- The calls whose results the call at this phase still has to send. -/
def Phase.batch : Phase Key → List ℕ
  | .scanning jobs => jobs.map Job.reply
  | .replying left => left.map Prod.fst
  | _ => []

def LaneState.keysOf (s : LaneState Key) (id : ℕ) : Option (List (List Key)) :=
  (s.calls id).map Call.keys

section CallOk

variable (dpf : Dpf Key) (table : MappedSubTable) (keysOf : ℕ → Option (List (List Key)))

/-- Every result is what the keys of its call give alone. -/
def Alone (left : List (ℕ × GroupResults)) : Prop :=
  ∀ e ∈ left, ∃ ks, keysOf e.1 = some ks ∧ scanAlone dpf table ks = some e.2

variable (hasRole queued inBatch : Prop)

/-- What the invariant says of a call, by where its job is: `queued`, in the scanner's `batch`, or
answered; `hasRole` is whether it has the scanner role. -/
inductive CallOk : Call Key → Prop
  /-- Was handed the role and has not seen the message. -/
  | ordered {keys} (hr : hasRole) (hq : queued) : CallOk ⟨keys, .waiting, [.scan]⟩
  | draining {keys} (hr : hasRole) (hq : queued) : CallOk ⟨keys, .draining, []⟩
  | scanning {keys jobs} (hr : hasRole) (hq : ¬ queued) (hb : inBatch)
    (hjobs : ∀ job ∈ jobs, keysOf job.reply = some job.keys) : CallOk ⟨keys, .scanning jobs, []⟩
  /-- Still has its own result to send. -/
  | replying {keys left} (hr : hasRole) (hq : ¬ queued) (hb : inBatch)
    (hleft : Alone dpf table keysOf left) : CallOk ⟨keys, .replying left, []⟩
  /-- Has sent its own result. -/
  | replied {keys left groups} (hr : hasRole) (hq : ¬ queued) (hb : ¬ inBatch)
    (hleft : Alone dpf table keysOf left) (hown : scanAlone dpf table keys = some groups) :
    CallOk ⟨keys, .replying left, [.done groups]⟩
  | waiting {keys} (hr : ¬ hasRole) (hqb : queued ∨ inBatch) : CallOk ⟨keys, .waiting, []⟩
  | answered {keys groups} (hr : ¬ hasRole) (hq : ¬ queued) (hb : ¬ inBatch)
    (hown : scanAlone dpf table keys = some groups) : CallOk ⟨keys, .waiting, [.done groups]⟩
  | collecting {keys groups} (hr : ¬ hasRole) (hq : ¬ queued) (hb : ¬ inBatch)
    (hown : scanAlone dpf table keys = some groups) : CallOk ⟨keys, .collecting, [.done groups]⟩
  | returned {keys groups} (hr : ¬ hasRole) (hq : ¬ queued) (hb : ¬ inBatch)
    (hown : scanAlone dpf table keys = some groups) : CallOk ⟨keys, .returned groups, []⟩

end CallOk

section Invariant

variable {dpf : Dpf Key} {table : MappedSubTable}

/-- The calls the scanner still has to answer. -/
def LaneState.batch (s : LaneState Key) (role : Option ℕ) : List ℕ :=
  ((role.bind s.calls).map fun c => c.phase.batch).getD []

def LaneState.queuedIds (s : LaneState Key) : List ℕ := s.lane.queued.map Job.reply

/-- The lane is busy exactly when call `role` has the scanner role, an idle lane has an empty queue,
no call is queued or in the batch twice, and every call is at a point that fits. -/
structure Inv (dpf : Dpf Key) (table : MappedSubTable) (role : Option ℕ) (s : LaneState Key) :
    Prop where
  scanning_eq : s.lane.scanning = role.isSome
  idle : role = none → s.lane.queued = []
  role_exists : ∀ id, role = some id → (s.calls id).isSome
  nodup : (s.queuedIds ++ s.batch role).Nodup
  batch_exists : ∀ id ∈ s.batch role, (s.calls id).isSome
  queued_ok : ∀ job ∈ s.lane.queued, s.keysOf job.reply = some job.keys
  call_ok : ∀ id c, s.calls id = some c → CallOk dpf table s.keysOf (role = some id)
    (id ∈ s.queuedIds) (id ∈ s.batch role) c

section CallOk

variable {keysOf keysOf' : ℕ → Option (List (List Key))} {r r' q q' b b' : Prop} {c : Call Key}

theorem Alone.mono {left : List (ℕ × GroupResults)} (h : Alone dpf table keysOf left)
    (hkeys : ∀ id ks, keysOf id = some ks → keysOf' id = some ks) : Alone dpf table keysOf' left := by
  intro e he
  obtain ⟨ks, hks, halone⟩ := h e he
  exact ⟨ks, hkeys _ _ hks, halone⟩

/-- The case of a call depends only on the facts about it. -/
theorem CallOk.congr (h : CallOk dpf table keysOf r q b c) (hkeys : ∀ id ks, keysOf id = some ks →
    keysOf' id = some ks) (hr : r ↔ r') (hq : q ↔ q') (hb : b ↔ b') :
    CallOk dpf table keysOf' r' q' b' c := by
  rw [← propext hr, ← propext hq, ← propext hb]
  cases h with
  | ordered hr hq => exact .ordered hr hq
  | draining hr hq => exact .draining hr hq
  | scanning hr hq hb hjobs => exact .scanning hr hq hb fun job hj => hkeys _ _ (hjobs job hj)
  | replying hr hq hb hleft => exact .replying hr hq hb (hleft.mono hkeys)
  | replied hr hq hb hleft hown => exact .replied hr hq hb (hleft.mono hkeys) hown
  | waiting hr hqb => exact .waiting hr hqb
  | answered hr hq hb hown => exact .answered hr hq hb hown
  | collecting hr hq hb hown => exact .collecting hr hq hb hown
  | returned hr hq hb hown => exact .returned hr hq hb hown

/-- Calls with the scanner role have it in every case that says so. -/
theorem CallOk.of_not_role (h : CallOk dpf table keysOf r q b c) (hr : ¬ r) (hr' : ¬ r')
    (hqb : q ∨ b ↔ q' ∨ b') : CallOk dpf table keysOf' r' q' b' c := by
  have hnot : ¬ q → ¬ b → ¬ q' ∧ ¬ b' := fun hq hb => not_or.1 fun h => (hqb.2 h).elim hq hb
  cases h with
  | ordered h | draining h | scanning h | replying h | replied h => exact absurd h hr
  | waiting _ h => exact .waiting hr' (hqb.1 h)
  | answered _ hq hb hown => exact .answered hr' (hnot hq hb).1 (hnot hq hb).2 hown
  | collecting _ hq hb hown => exact .collecting hr' (hnot hq hb).1 (hnot hq hb).2 hown
  | returned _ hq hb hown => exact .returned hr' (hnot hq hb).1 (hnot hq hb).2 hown

/-- A call that is outstanding and has not the role is waiting for a message. -/
theorem CallOk.eq_waiting (h : CallOk dpf table keysOf r q b c) (hr : ¬ r) (hqb : q ∨ b) :
    c = ⟨c.keys, .waiting, []⟩ := by
  cases h with
  | ordered h | draining h | scanning h | replying h | replied h => exact absurd h hr
  | waiting => rfl
  | answered _ hq hb | collecting _ hq hb | returned _ hq hb => exact absurd hqb (not_or.2 ⟨hq, hb⟩)

/-- A scanner that sends results has its own among them or in its inbox. -/
theorem CallOk.of_replying {left : List (ℕ × GroupResults)} (h : CallOk dpf table keysOf r q b c)
    (hphase : c.phase = .replying left) : r ∧ ¬ q ∧ Alone dpf table keysOf left ∧
      (b ∧ c.inbox = [] ∨ ¬ b ∧ ∃ own, c.inbox = [.done own] ∧
        scanAlone dpf table c.keys = some own) := by
  cases h with
  | ordered | draining | scanning | waiting | answered | collecting | returned => cases hphase
  | replying hr hq hb hleft =>
    cases hphase
    exact ⟨hr, hq, hleft, .inl ⟨hb, rfl⟩⟩
  | replied hr hq hb hleft hown =>
    cases hphase
    exact ⟨hr, hq, hleft, .inr ⟨hb, _, rfl, hown⟩⟩

end CallOk

theorem inv_init : Inv dpf table none (LaneState.init : LaneState Key) where
  scanning_eq := rfl
  idle _ := rfl
  role_exists id h := by cases h
  nodup := List.nodup_nil
  batch_exists id h := by cases h
  queued_ok job h := by cases h
  call_ok id c h := by cases h

/-! ## Updates of one call -/

section Updates

variable {s : LaneState Key} {id : ℕ} {f : Call Key → Call Key} {c : Call Key}

theorem LaneState.calls_modifyCall (hc : s.calls id = some c) :
    (s.modifyCall id f).calls = update s.calls id (some (f c)) := by
  rw [modifyCall, hc, Option.map_some]

/-- The keys of a call never change. -/
theorem LaneState.keysOf_modifyCall (hf : ∀ c, (f c).keys = c.keys) :
    (s.modifyCall id f).keysOf = s.keysOf := by
  funext i
  rw [keysOf, keysOf, modifyCall]
  dsimp only
  by_cases hi : i = id
  · subst hi
    rw [update_self, Option.map_map]
    congr 1
    funext c
    exact hf c
  · rw [update_of_ne hi]

theorem LaneState.keysOf_setPhase (s : LaneState Key) (id : ℕ) (phase : Phase Key) :
    (s.setPhase id phase).keysOf = s.keysOf := keysOf_modifyCall fun _ => rfl

theorem LaneState.keysOf_send (s : LaneState Key) (id : ℕ) (reply : Reply) :
    (s.send id reply).keysOf = s.keysOf := keysOf_modifyCall fun _ => rfl

theorem LaneState.batch_some (hc : s.calls id = some c) :
    s.batch (some id) = c.phase.batch := by
  rw [batch, Option.bind_some, hc]
  rfl

variable {role : Option ℕ}

theorem Inv.role_mem (h : Inv dpf table role s) {id : ℕ} (hid : id ∈ s.queuedIds) :
    (s.calls id).isSome := by
  obtain ⟨job, hjob, rfl⟩ := List.mem_map.1 hid
  have hkeys := h.queued_ok job hjob
  obtain ⟨c, hc, -⟩ := Option.map_eq_some_iff.1 hkeys
  rw [hc]
  rfl

/-- A step that changes no keys and queues nothing. -/
theorem Inv.of_keysOf (h : Inv dpf table role s) {t : LaneState Key} {role' : Option ℕ}
    (hkeys : t.keysOf = s.keysOf) (hscanning : t.lane.scanning = role'.isSome)
    (hidle : role' = none → t.lane.queued = []) (hrole : ∀ i, role' = some i → (s.calls i).isSome)
    (hqueued : t.lane.queued ⊆ s.lane.queued) (hnodup : (t.queuedIds ++ t.batch role').Nodup)
    (hbatch : ∀ i ∈ t.batch role', (s.calls i).isSome)
    (hok : ∀ i c, t.calls i = some c → CallOk dpf table s.keysOf (role' = some i)
      (i ∈ t.queuedIds) (i ∈ t.batch role') c) : Inv dpf table role' t := by
  have hsome : ∀ i, (s.calls i).isSome → (t.calls i).isSome := by
    intro i hi
    have hsame : (t.keysOf i).isSome = (s.keysOf i).isSome := by rw [hkeys]
    rw [LaneState.keysOf, LaneState.keysOf, Option.isSome_map, Option.isSome_map] at hsame
    rwa [hsame]
  refine ⟨hscanning, hidle, fun i hi => hsome i (hrole i hi), hnodup,
    fun i hi => hsome i (hbatch i hi), ?_, ?_⟩
  · rw [hkeys]
    exact fun job hjob => h.queued_ok job (hqueued hjob)
  · rw [hkeys]
    exact hok

/-- A change of one call that leaves the batch as it is. -/
theorem Inv.modifyCall (h : Inv dpf table role s) (hc : s.calls id = some c)
    (hf : ∀ c, (f c).keys = c.keys) (hbatch : role = some id → (f c).phase.batch = c.phase.batch)
    (hok : CallOk dpf table s.keysOf (role = some id) (id ∈ s.queuedIds) (id ∈ s.batch role) (f c)) :
    Inv dpf table role (s.modifyCall id f) := by
  have hcalls := LaneState.calls_modifyCall (f := f) hc
  have hsame : (s.modifyCall id f).batch role = s.batch role := by
    cases role with
    | none => rfl
    | some r =>
      by_cases hr : r = id
      · subst hr
        rw [LaneState.batch_some hc, LaneState.batch_some (c := f c), hbatch rfl]
        rw [hcalls, update_self]
      · rw [LaneState.batch, LaneState.batch, Option.bind_some, Option.bind_some, hcalls,
          update_of_ne hr]
  refine h.of_keysOf (LaneState.keysOf_modifyCall hf) h.scanning_eq h.idle h.role_exists
    (List.Subset.refl _) ?_ ?_ fun i c' hi => ?_
  · rw [hsame]
    exact h.nodup
  · rw [hsame]
    exact h.batch_exists
  · rw [hsame]
    rw [hcalls] at hi
    rcases update_eq_some hi with ⟨rfl, ⟨⟩⟩ | ⟨-, hi⟩
    · exact hok
    · exact h.call_ok i c' hi

end Updates

/-! ## One step -/

section Steps

variable {s : LaneState Key} {role : Option ℕ} {id : ℕ} {c : Call Key}

theorem Inv.enqueue (h : Inv dpf table role s) (hid : s.calls id = none)
    (keys : List (List Key)) : ∃ role', Inv dpf table role' (s.enqueue id keys) := by
  have hne : ∀ i, (s.calls i).isSome → i ≠ id := by
    rintro i hi rfl
    rw [hid] at hi
    cases hi
  have hcalls : ∀ i, i ≠ id → (s.enqueue id keys).calls i = s.calls i :=
    fun i hi => update_of_ne hi ..
  have hnew : (s.enqueue id keys).calls id =
      some ⟨keys, if s.lane.scanning then .waiting else .draining, []⟩ := update_self ..
  have hkeys : ∀ i ks, s.keysOf i = some ks → (s.enqueue id keys).keysOf i = some ks := by
    intro i ks hi
    obtain ⟨c, hc, rfl⟩ := Option.map_eq_some_iff.1 hi
    rw [LaneState.keysOf, hcalls i (hne i (by rw [hc]; rfl)), hc]
    rfl
  have hqueued : (s.enqueue id keys).queuedIds = s.queuedIds ++ [id] := List.map_append ..
  have hjobs : ∀ job ∈ (s.enqueue id keys).lane.queued,
      (s.enqueue id keys).keysOf job.reply = some job.keys := by
    intro job hjob
    rcases List.mem_append.1 hjob with hjob | hjob
    · exact hkeys _ _ (h.queued_ok job hjob)
    · rw [List.mem_singleton.1 hjob, LaneState.keysOf, hnew]
      rfl
  have hfresh : id ∉ s.queuedIds ++ s.batch role := by
    intro hmem
    rcases List.mem_append.1 hmem with hmem | hmem
    · exact hne id (h.role_mem hmem) rfl
    · exact hne id (h.batch_exists id hmem) rfl
  cases role with
  | none =>
    -- an idle lane: the call gets the role
    have hidle : s.lane.queued = [] := h.idle rfl
    have hscan : s.lane.scanning = false := h.scanning_eq
    have hbatch : (s.enqueue id keys).batch (some id) = [] := by
      rw [LaneState.batch_some hnew, hscan]
      rfl
    have hids : s.queuedIds = [] := by rw [LaneState.queuedIds, hidle]; rfl
    refine ⟨some id, rfl, (fun h => by cases h), ?_, ?_, ?_, hjobs, ?_⟩
    · rintro i hi
      cases hi
      rw [hnew]
      rfl
    · rw [hqueued, hbatch, hids]
      exact List.nodup_singleton id
    · rw [hbatch]
      exact fun i hi => absurd hi List.not_mem_nil
    · intro i c hi
      rw [hqueued, hbatch]
      by_cases heq : i = id
      · subst heq
        rw [hnew] at hi
        cases hi
        rw [hscan]
        exact .draining rfl (by simp)
      · rw [hcalls i heq] at hi
        refine (h.call_ok i c hi).of_not_role (fun h => by cases h) (fun h => heq (by cases h; rfl)) ?_
        have hb : s.batch none = [] := rfl
        simp [hids, hb, heq]
  | some r =>
    have hr : r ≠ id := hne r (h.role_exists r rfl)
    have hscan : s.lane.scanning = true := h.scanning_eq
    have hbatch : (s.enqueue id keys).batch (some r) = s.batch (some r) := by
      rw [LaneState.batch, LaneState.batch, Option.bind_some, Option.bind_some, hcalls r hr]
    refine ⟨some r, rfl, (fun h => by cases h), ?_, ?_, ?_, hjobs, ?_⟩
    · rintro i hi
      cases hi
      rw [hcalls r hr]
      exact h.role_exists r rfl
    · rw [hqueued, hbatch, List.append_assoc]
      exact List.nodup_middle.2 (List.nodup_cons.2 ⟨hfresh, h.nodup⟩)
    · rw [hbatch]
      intro i hi
      have hi' := h.batch_exists i hi
      rw [hcalls i (hne i hi')]
      exact hi'
    · intro i c hi
      rw [hqueued, hbatch]
      by_cases heq : i = id
      · subst heq
        rw [hnew] at hi
        cases hi
        rw [hscan]
        exact .waiting (fun h => hr (by cases h; rfl)) (.inl (by simp))
      · rw [hcalls i heq] at hi
        exact (h.call_ok i c hi).congr hkeys Iff.rfl (by simp [heq]) Iff.rfl

variable (h : Inv dpf table role s) (hc : s.calls id = some c)

include h hc

theorem Inv.receive : ∃ role', Inv dpf table role' (s.receive id c) := by
  have hkeysEq : ∀ (phase : Phase Key) (inbox : List Reply) (c : Call Key),
      ({ c with phase, inbox } : Call Key).keys = c.keys := fun _ _ _ => rfl
  refine ⟨role, ?_⟩
  cases h.call_ok id c hc with
  | ordered hr hq => exact h.modifyCall hc (hkeysEq _ _) (fun _ => rfl) (.draining hr hq)
  | answered hr hq hb hown =>
    exact h.modifyCall hc (hkeysEq _ _) (fun _ => rfl) (.returned hr hq hb hown)
  | collecting hr hq hb hown =>
    exact h.modifyCall hc (hkeysEq _ _) (fun _ => rfl) (.returned hr hq hb hown)
  | draining | scanning | replying | replied | waiting | returned => exact h

theorem Inv.scan : ∃ role', Inv dpf table role' (s.scan dpf table id c) := by
  refine ⟨role, ?_⟩
  cases h.call_ok id c hc with
  | ordered | draining | replying | replied | waiting | answered | collecting | returned => exact h
  | @scanning keys jobs hr hq hb hjobs =>
    simp only [LaneState.scan]
    split
    · rename_i results hresults
      obtain ⟨hlen, halone⟩ := scanJobs_eq_some hresults
      have hfst : ((jobs.map Job.reply).zip results).map Prod.fst = jobs.map Job.reply :=
        List.map_fst_zip (by rw [List.length_map, hlen])
      refine h.modifyCall hc (fun _ => rfl) (fun _ => hfst) (.replying hr hq hb ?_)
      intro e he
      rw [List.zip_map_left, List.mem_map] at he
      obtain ⟨⟨job, groups⟩, hmem, rfl⟩ := he
      exact ⟨job.keys, hjobs job (List.of_mem_zip hmem).1, halone _ hmem⟩
    · exact h

theorem Inv.drain : ∃ role', Inv dpf table role' (s.drain id c) := by
  cases h.call_ok id c hc with
  | ordered | scanning | replying | replied | waiting | answered | collecting | returned =>
    exact ⟨role, h⟩
  | @draining keys hr hq =>
    subst hr
    set t := s.setLane { s.lane with queued := [] } with ht
    have htc : t.calls id = some ⟨keys, .draining, []⟩ := hc
    have hcalls := LaneState.calls_modifyCall (s := t)
      (f := fun c => { c with phase := .scanning s.lane.queued }) htc
    have hold : s.batch (some id) = [] := LaneState.batch_some hc
    have hbatch : (t.setPhase id (.scanning s.lane.queued)).batch (some id) = s.queuedIds := by
      rw [LaneState.batch_some (c := ⟨keys, .scanning s.lane.queued, []⟩)]
      · rfl
      · rw [LaneState.setPhase, hcalls, update_self]
    have hnodup := h.nodup
    rw [hold, List.append_nil] at hnodup
    change ∃ role', Inv dpf table role' (t.setPhase id (.scanning s.lane.queued))
    refine ⟨some id, h.of_keysOf (LaneState.keysOf_setPhase t id _) h.scanning_eq
      (fun h => by cases h) h.role_exists (List.nil_subset _) ?_ ?_ fun i c' hi => ?_⟩
    · rw [hbatch]
      exact hnodup
    · rw [hbatch]
      exact fun i hi => h.role_mem hi
    · have hnone : (t.setPhase id (.scanning s.lane.queued)).queuedIds = [] := rfl
      rw [hbatch, hnone]
      change (t.modifyCall id _).calls i = some c' at hi
      rw [hcalls] at hi
      rcases update_eq_some hi with ⟨rfl, ⟨⟩⟩ | ⟨heq, hi⟩
      · exact .scanning rfl List.not_mem_nil hq h.queued_ok
      · have hnr : some id ≠ some i := fun h => heq (by cases h; rfl)
        refine (h.call_ok i c' hi).of_not_role hnr hnr ?_
        simp [hold]

theorem Inv.reply : ∃ role', Inv dpf table role' (s.reply id c) := by
  -- only a scanner with a result left to send moves
  obtain ⟨dest, groups, left, hphase⟩ | hstill :
      (∃ dest groups left, c.phase = .replying ((dest, groups) :: left)) ∨ s.reply id c = s := by
    rw [LaneState.reply]
    split
    · rename_i dest groups left hphase
      exact .inl ⟨dest, groups, left, hphase⟩
    · exact .inr rfl
  swap
  · rw [hstill]
    exact ⟨role, h⟩
  obtain ⟨hr, hq, hleft, hown⟩ := (h.call_ok id c hc).of_replying hphase
  subst hr
  have hbatch : s.batch (some id) = dest :: left.map Prod.fst := by
    rw [LaneState.batch_some hc, hphase]
    rfl
  have hnodup := h.nodup
  rw [hbatch] at hnodup
  have hdest : dest ∉ s.queuedIds ∧ dest ∉ left.map Prod.fst := by
    have := List.nodup_cons.1 (List.nodup_middle.1 hnodup)
    exact not_or.1 fun hmem => this.1 (List.mem_append.2 hmem)
  obtain ⟨d, hd⟩ := Option.isSome_iff_exists.1 (h.batch_exists dest (hbatch ▸ List.mem_cons_self))
  obtain ⟨ks, hks, halone⟩ := hleft (dest, groups) List.mem_cons_self
  obtain rfl : d.keys = ks := by
    rw [LaneState.keysOf, hd, Option.map_some, Option.some_inj] at hks
    exact hks
  -- the state with the message sent, and then with the scanner's phase set
  set t := s.send dest (.done groups) with ht
  have htcalls : t.calls = update s.calls dest
      (some { d with inbox := d.inbox ++ [.done groups] }) := LaneState.calls_modifyCall hd
  have hscanner : ∃ c', t.calls id = some c' ∧ c'.keys = c.keys ∧
      c'.inbox = if id = dest then c.inbox ++ [.done groups] else c.inbox := by
    rw [htcalls]
    by_cases heq : id = dest
    · subst heq
      cases hc.symm.trans hd
      exact ⟨_, update_self .., rfl, by rw [if_pos rfl]⟩
    · exact ⟨c, by rw [update_of_ne heq, hc], rfl, by rw [if_neg heq]⟩
  obtain ⟨c', hc', hkeys', hinbox'⟩ := hscanner
  have hreply : s.reply id c = t.setPhase id (.replying left) := by
    rw [LaneState.reply, hphase]
  have hcalls : (t.setPhase id (.replying left)).calls =
      update t.calls id (some { c' with phase := .replying left }) :=
    LaneState.calls_modifyCall hc'
  have hbatch' : (t.setPhase id (.replying left)).batch (some id) = left.map Prod.fst := by
    rw [LaneState.batch_some (c := { c' with phase := .replying left })]
    · rfl
    · rw [hcalls, update_self]
  rw [hreply]
  refine ⟨some id, h.of_keysOf ((LaneState.keysOf_setPhase t id _).trans
    (LaneState.keysOf_send s dest _)) h.scanning_eq (fun h => by cases h) h.role_exists
    (List.Subset.refl _) ?_ ?_ fun i ci hi => ?_⟩
  · rw [hbatch']
    exact (List.nodup_cons.1 (List.nodup_middle.1 hnodup)).2
  · rw [hbatch']
    exact fun i hi => h.batch_exists i (hbatch ▸ List.mem_cons_of_mem _ hi)
  · have hqueued : (t.setPhase id (.replying left)).queuedIds = s.queuedIds := rfl
    rw [hbatch', hqueued]
    have htail : Alone dpf table s.keysOf left := fun e he => hleft e (List.mem_cons_of_mem _ he)
    rw [hcalls] at hi
    rcases update_eq_some hi with ⟨rfl, ⟨⟩⟩ | ⟨heq, hi⟩
    · -- the scanner
      rw [hbatch, List.mem_cons] at hown
      by_cases hself : i = dest
      · subst hself
        cases hc.symm.trans hd
        rw [if_pos rfl] at hinbox'
        rcases hown with ⟨-, hempty⟩ | ⟨hnot, -⟩
        · rw [hinbox', hempty]
          exact .replied rfl hq hdest.2 htail (hkeys' ▸ halone)
        · exact absurd (.inl rfl) hnot
      · rw [if_neg hself] at hinbox'
        rcases hown with ⟨hmem, hempty⟩ | ⟨hnot, own, hinbox, hown⟩
        · rw [hinbox', hempty]
          exact .replying rfl hq (hmem.resolve_left hself) htail
        · rw [hinbox', hinbox]
          exact .replied rfl hq (fun hmem => hnot (.inr hmem)) htail (hkeys' ▸ hown)
    · rw [htcalls] at hi
      have hnr : some id ≠ some i := fun h => heq (by cases h; rfl)
      rcases update_eq_some hi with ⟨rfl, ⟨⟩⟩ | ⟨hto, hi⟩
      · -- the call that is answered
        have hwait := (h.call_ok i d hd).eq_waiting hnr (.inr (hbatch ▸ List.mem_cons_self))
        rw [hwait]
        exact .answered hnr hdest.1 hdest.2 halone
      · refine (h.call_ok i ci hi).of_not_role hnr hnr ?_
        rw [hbatch]
        simp [hto]

section HandOff

variable (hphase : c.phase = .replying [])

include hphase

/-- A scanner that has sent every result holds its own. -/
theorem Inv.of_replied : role = some id ∧ id ∉ s.queuedIds ∧ s.batch role = [] ∧ ∃ groups,
    scanAlone dpf table c.keys = some groups ∧
      { c with phase := .collecting } = (⟨c.keys, .collecting, [.done groups]⟩ : Call Key) := by
  obtain ⟨hr, hq, -, hinbox⟩ := (h.call_ok id c hc).of_replying hphase
  subst hr
  have hbatch : s.batch (some id) = [] := by
    rw [LaneState.batch_some hc, hphase]
    rfl
  rw [hbatch] at hinbox
  obtain ⟨hb, -⟩ | ⟨-, groups, hinbox, hown⟩ := hinbox
  · exact absurd hb List.not_mem_nil
  · exact ⟨rfl, hq, hbatch, groups, hown, by rw [hinbox]⟩

/-- Nobody is queued: the lane is idle. -/
theorem Inv.handOff_idle (hqueue : s.lane.queued = []) :
    Inv dpf table none ((s.setLane { s.lane with scanning := false }).setPhase id .collecting) := by
  obtain ⟨rfl, -, hbatch, groups, hown, hdone⟩ := h.of_replied hc hphase
  set t := s.setLane { s.lane with scanning := false }
  have htc : t.calls id = some c := hc
  have hcalls : (t.setPhase id .collecting).calls =
      update s.calls id (some { c with phase := .collecting }) :=
    LaneState.calls_modifyCall htc
  have hids : s.queuedIds = [] := by rw [LaneState.queuedIds, hqueue]; rfl
  have hnone : (t.setPhase id .collecting).queuedIds = [] := hids
  refine h.of_keysOf (LaneState.keysOf_setPhase t id _) rfl (fun _ => hqueue)
    (fun i hi => by cases hi) (List.Subset.refl _) ?_ (fun i hi => by cases hi) fun i ci hi => ?_
  · rw [hnone]
    exact List.nodup_nil
  · rw [hnone]
    rw [hcalls] at hi
    rcases update_eq_some hi with ⟨rfl, ⟨⟩⟩ | ⟨heq, hi⟩
    · rw [hdone]
      exact .collecting (fun h => by cases h) List.not_mem_nil List.not_mem_nil hown
    · have hnr : some id ≠ some i := fun h => heq (by cases h; rfl)
      refine (h.call_ok i ci hi).of_not_role hnr (fun h => by cases h) ?_
      rw [hids, hbatch]
      rfl

/-- The first queued call is ordered to scan. -/
theorem Inv.handOff_next {next : Job Key} {rest : List (Job Key)}
    (hqueue : s.lane.queued = next :: rest) :
    Inv dpf table (some next.reply) ((s.send next.reply .scan).setPhase id .collecting) := by
  obtain ⟨rfl, hq, hbatch, groups, hown, hdone⟩ := h.of_replied hc hphase
  have hnodup := h.nodup
  rw [hbatch, List.append_nil] at hnodup
  have hnextq : next.reply ∈ s.queuedIds := by
    rw [LaneState.queuedIds, hqueue]
    exact List.mem_cons_self
  have hne : id ≠ next.reply := fun heq => hq (heq ▸ hnextq)
  have hnr : some id ≠ some next.reply := fun h => hne (by cases h; rfl)
  obtain ⟨d, hd⟩ := Option.isSome_iff_exists.1 (h.role_mem hnextq)
  have hwait := (h.call_ok _ d hd).eq_waiting hnr (.inl hnextq)
  set t := s.send next.reply .scan
  have htcalls : t.calls = update s.calls next.reply
      (some { d with inbox := d.inbox ++ [.scan] }) := LaneState.calls_modifyCall hd
  have htc : t.calls id = some c := by
    rw [htcalls, update_of_ne hne, hc]
  have hcalls : (t.setPhase id .collecting).calls =
      update t.calls id (some { c with phase := .collecting }) :=
    LaneState.calls_modifyCall htc
  have hnext : (t.setPhase id .collecting).calls next.reply =
      some ⟨d.keys, .waiting, [.scan]⟩ := by
    rw [hcalls, update_of_ne hne.symm, htcalls, update_self, hwait]
    rfl
  have hqueued : (t.setPhase id .collecting).queuedIds = s.queuedIds := rfl
  have hbatch' : (t.setPhase id .collecting).batch (some next.reply) = [] :=
    LaneState.batch_some hnext
  refine h.of_keysOf ((LaneState.keysOf_setPhase t id _).trans (LaneState.keysOf_send s _ _))
    h.scanning_eq (fun h => by cases h) ?_ (List.Subset.refl _) ?_ ?_ fun i ci hi => ?_
  · rintro i hi
    cases hi
    exact h.role_mem hnextq
  · rw [hbatch', List.append_nil]
    exact hnodup
  · rw [hbatch']
    exact fun i hi => absurd hi List.not_mem_nil
  · rw [hqueued, hbatch']
    by_cases hto : i = next.reply
    · subst hto
      rw [hnext] at hi
      cases hi
      exact .ordered rfl hnextq
    · have hnr' : some next.reply ≠ some i := fun h => hto (by cases h; rfl)
      rw [hcalls] at hi
      rcases update_eq_some hi with ⟨rfl, ⟨⟩⟩ | ⟨heq, hi⟩
      · rw [hdone]
        exact .collecting hnr' hq List.not_mem_nil hown
      · rw [htcalls, update_of_ne hto] at hi
        have hnr'' : some id ≠ some i := fun h => heq (by cases h; rfl)
        refine (h.call_ok i ci hi).of_not_role hnr'' hnr' ?_
        rw [hbatch]

end HandOff

/-- Only a scanner with nothing left to send moves. -/
theorem Inv.handOff : ∃ role', Inv dpf table role' (s.handOff id c) := by
  rw [LaneState.handOff]
  split
  · rename_i hphase
    rw [LaneState.passRole]
    cases hqueue : s.lane.queued with
    | nil => exact ⟨none, h.handOff_idle hc hphase hqueue⟩
    | cons next rest => exact ⟨some next.reply, h.handOff_next hc hphase hqueue⟩
  · exact ⟨role, h⟩

omit hc in
/-- **Every step** of a lane keeps the invariant, with the role possibly in other hands. -/
theorem Inv.laneStep (e : Event Key) : ∃ role', Inv dpf table role' (laneStep dpf table s e) := by
  have hofCall : ∀ (id : ℕ) (f : Call Key → LaneState Key),
      (∀ c, s.calls id = some c → ∃ role', Inv dpf table role' (f c)) →
      ∃ role', Inv dpf table role' (s.ofCall id f) := by
    intro id f hf
    rw [LaneState.ofCall]
    split
    · exact hf _ ‹_›
    · exact ⟨role, h⟩
  cases e with
  | call id keys =>
    rw [Scan.laneStep]
    split_ifs with hid
    · exact ⟨role, h⟩
    · exact h.enqueue (Option.not_isSome_iff_eq_none.1 hid) keys
  | recv id => exact hofCall id _ fun c hc => h.receive hc
  | drain id => exact hofCall id _ fun c hc => h.drain hc
  | scan id => exact hofCall id _ fun c hc => h.scan hc
  | reply id => exact hofCall id _ fun c hc => h.reply hc
  | handOff id => exact hofCall id _ fun c hc => h.handOff hc

end Steps

/-! ## All lanes -/

variable {s : LaneState Key} {role : Option ℕ}

end Invariant

end BitcoinPir.Scan
