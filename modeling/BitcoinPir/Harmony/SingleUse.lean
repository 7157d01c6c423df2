import BitcoinPir.Harmony.Claims

/-!
# Pool hints are single-use

`Answers` says what one event can do to the pending maps and the log. The token of a half request
that is inside `try_take` is not pending, because the request holds the lock of the map (`Locked`);
so a pending token is never allocated a second entry. What was served so far, and what the pending
entries stand for, is the `Ledger`, which every answer keeps because a key newly taken was never
taken before.

* `run_single_use`: in every run every key is taken once at most, every side of an entry is served
  once at most, and the halves served under one live token are of one entry and one database.
-/

namespace BitcoinPir.Harmony

open Foundations Function

/-! ### What the log says -/

/-- The sides of entries that were sent out. -/
def LogEntry.served : LogEntry → List (PrpKey × Side)
  | .full _ k => [(k, .index), (k, .chunk)]
  | .half h => [(h.prpKey, h.side)]
  | _ => []

def served (log : List LogEntry) : List (PrpKey × Side) := log.flatMap LogEntry.served

/-- The halves served under `token` since it was last out of the pending map, newest first. -/
def live (p : ℕ) (t : SessionToken) : List LogEntry → List HalfServed
  | [] => []
  | .half h :: log => if h.server = p ∧ h.token = t then h :: live p t log else live p t log
  | .ended p' t' :: log => if p' = p ∧ t' = t then [] else live p t log
  | .crashed p' :: log => if p' = p then [] else live p t log
  | .full _ _ :: log => live p t log
  | .refused _ _ _ :: log => live p t log

/-- The halves served under one live token are of one entry and one database. -/
def OneEntry (log : List LogEntry) : Prop :=
  ∀ p t, ∀ h ∈ live p t log, ∀ h' ∈ live p t log, h.prpKey = h'.prpKey ∧ h.dbId = h'.dbId

theorem served_cons (e : LogEntry) (log : List LogEntry) :
    served (e :: log) = e.served ++ served log := rfl

/-! ### What an event can do -/

/-- What the pending maps and the log can do in one event. -/
inductive Answers (s s' : State) : Prop
  | quiet (hpending : s'.pending = s.pending)
      (hlog : s'.log = s.log ∨ ∃ p r message, s'.log = .refused p r message :: s.log)
      (htaken : s'.taken = s.taken)
  | full (p : ℕ) (k : PrpKey) (hpending : s'.pending = s.pending)
      (hlog : s'.log = .full p k :: s.log) (htaken : s'.taken = k :: s.taken)
  | firstHalf (p : ℕ) (t : SessionToken) (side : Side) (k : PrpKey) (d : UInt8)
      (hnone : s.pending (p, t) = none)
      (hpending : s'.pending = update s.pending (p, t)
        (some ⟨d, k, update (fun _ => false) side true⟩))
      (hlog : s'.log = .half ⟨p, t, side, k, d⟩ :: s.log) (htaken : s'.taken = k :: s.taken)
  | nextHalf (p : ℕ) (t : SessionToken) (side : Side) (pend : V2HalfPending)
      (hpend : s.pending (p, t) = some pend) (hside : pend.sidesServed side = false)
      (hpending : s'.pending = update s.pending (p, t)
        (some { pend with sidesServed := update pend.sidesServed side true }))
      (hlog : s'.log = .half ⟨p, t, side, pend.entry, pend.dbId⟩ :: s.log)
      (htaken : s'.taken = s.taken)
  | lastHalf (p : ℕ) (t : SessionToken) (side : Side) (pend : V2HalfPending)
      (hpend : s.pending (p, t) = some pend) (hside : pend.sidesServed side = false)
      (hpending : s'.pending = update s.pending (p, t) none)
      (hlog : s'.log = .ended p t :: .half ⟨p, t, side, pend.entry, pend.dbId⟩ :: s.log)
      (htaken : s'.taken = s.taken)
  | ended (p : ℕ) (t : SessionToken) (hpending : s'.pending = update s.pending (p, t) none)
      (hlog : s'.log = .ended p t :: s.log) (htaken : s'.taken = s.taken)
  | crashed (p : ℕ) (hpending : ∀ l, s'.pending l = if l.1 = p then none else s.pending l)
      (hlog : s'.log = .crashed p :: s.log) (htaken : s'.taken = s.taken)

/-! ### The lock of the pending map -/

/-- A half request inside `try_take` holds the lock of the pending map, and its token is not
pending. -/
def Server.Locked (srv : Server) : Prop :=
  ∀ r d t side popped, srv.taking r = some ⟨.v2Half d t side, popped⟩ →
    srv.mapLock = some r ∧ srv.v2HalfPending t = none

/-- No half request is inside `try_take`. -/
def Server.NoHalf (srv : Server) : Prop :=
  ∀ r d t side popped, srv.taking r ≠ some ⟨.v2Half d t side, popped⟩

def Locked (s : State) : Prop := ∀ p, (s.servers p).Locked

namespace Server

variable {srv : Server}

theorem NoHalf.locked (h : srv.NoHalf) : srv.Locked :=
  fun r d t side popped hr => absurd hr (h r d t side popped)

variable {popped : Option PrpKey}

/-- While one half request is inside `try_take`, no other is. -/
theorem Locked.noHalf_without (h : srv.Locked) {r : ℕ} {d : UInt8} {t : SessionToken} {side : Side}
    (hr : srv.taking r = some ⟨.v2Half d t side, popped⟩) {r' : ℕ} (hne : r' ≠ r) (d' : UInt8)
    (t' : SessionToken) (side' : Side) (popped' : Option PrpKey) :
    srv.taking r' ≠ some ⟨.v2Half d' t' side', popped'⟩ := by
  intro hr'
  have := (h r d t side popped hr).1.symm.trans (h r' d' t' side' popped' hr').1
  exact hne (Option.some_inj.1 this).symm

theorem Locked.leave (h : srv.Locked) {r : ℕ} {request : HintRequest}
    (hr : srv.taking r = some ⟨request, popped⟩) :
    Locked { srv with
      taking := update srv.taking r none, mapLock := request.lockAfter srv.mapLock } ∧
    ∀ d t side, request = .v2Half d t side →
      NoHalf { srv with
        taking := update srv.taking r none, mapLock := request.lockAfter srv.mapLock } := by
  cases request with
  | v2 d =>
    refine ⟨?_, fun _ _ _ heq => by cases heq⟩
    intro r' d' t side x hr'
    rcases update_eq_some hr' with ⟨-, ⟨⟩⟩ | ⟨-, hr'⟩
    exact h r' d' t side x hr'
  | v2Half d t side =>
    have hnone : NoHalf { srv with
        taking := update srv.taking r none, mapLock := none } := by
      intro r' d' t' side' x hr'
      rcases update_eq_some hr' with ⟨-, ⟨⟩⟩ | ⟨heq, hr'⟩
      exact h.noHalf_without hr heq d' t' side' x hr'
    exact ⟨hnone.locked, fun _ _ _ _ => hnone⟩

end Server

namespace Locked

variable {s : State} {p : ℕ}

theorem setServer (h : Locked s) {srv : Server} (hsrv : srv.Locked) :
    Locked (s.setServer p srv) := by
  intro p'
  change (update s.servers p srv p').Locked
  rw [update_apply]
  split_ifs
  · exact hsrv
  · exact h p'

theorem setPool (h : Locked s) (d : UInt8) (ps : PoolState) : Locked (s.setPool p d ps) :=
  h.setServer (h p)

theorem setPending (h : Locked s) (hfree : (s.servers p).NoHalf) (t : SessionToken)
    (x : Option V2HalfPending) : Locked (s.setPending p t x) :=
  h.setServer (Server.NoHalf.locked hfree)

end Locked

section Answers

variable {cfg : Config} {s : State} {p r : ℕ} {d : UInt8}

theorem Answers.refl : Answers s s := .quiet rfl (.inl rfl) rfl

end Answers

section Locked

variable {cfg : Config} {s : State} {p r : ℕ} {d : UInt8}

end Locked

/-- What was served, and what the pending entries stand for. -/
structure Ledger (pending : ℕ × SessionToken → Option V2HalfPending) (log : List LogEntry)
    (taken : List PrpKey) : Prop where
  oneEntry : ∀ l, l <:+ log → OneEntry l
  /-- What a pending token has been served is of its entry. -/
  ofPending : ∀ p t pend, pending (p, t) = some pend →
    ∀ h ∈ live p t log, h.prpKey = pend.entry ∧ h.dbId = pend.dbId
  /-- A token that is not pending starts afresh. -/
  ofNone : ∀ p t, pending (p, t) = none → live p t log = []
  once : (served log).Nodup
  sides : ∀ l pend, pending l = some pend →
    ∀ side, (pend.entry, side) ∈ served log → pend.sidesServed side
  apart : ∀ l l' pend pend', pending l = some pend → pending l' = some pend' →
    pend.entry = pend'.entry → l = l'
  pendingTaken : ∀ l pend, pending l = some pend → pend.entry ∈ taken
  servedTaken : ∀ x ∈ served log, x.1 ∈ taken

variable {log : List LogEntry}

theorem oneEntry_suffix_cons {e : LogEntry} (hold : ∀ l, l <:+ log → OneEntry l)
    (hnew : OneEntry (e :: log)) :
    ∀ l, l <:+ e :: log → OneEntry l := by
  intro l hl
  rcases List.suffix_cons_iff.1 hl with rfl | hl
  · exact hnew
  · exact hold l hl

/-- An entry of the log that serves no half adds nothing to a live token. -/
theorem OneEntry.cons_of_subset {e : LogEntry} (h : OneEntry log)
    (hsub : ∀ p t, live p t (e :: log) ⊆ live p t log) : OneEntry (e :: log) :=
  fun p t a ha b hb => h p t a (hsub p t ha) b (hsub p t hb)

/-- A half of the entry its live token stands for. -/
theorem OneEntry.cons_half {h : HalfServed} (hlog : OneEntry log)
    (hsame : ∀ h' ∈ live h.server h.token log, h'.prpKey = h.prpKey ∧ h'.dbId = h.dbId) :
    OneEntry (.half h :: log) := by
  intro p t a ha b hb
  rw [live] at ha hb
  split_ifs at ha hb with htok
  · obtain ⟨rfl, rfl⟩ := htok
    have hof : ∀ x ∈ h :: live h.server h.token log, x.prpKey = h.prpKey ∧ x.dbId = h.dbId := by
      intro x hx
      rcases List.mem_cons.1 hx with rfl | hx
      · exact ⟨rfl, rfl⟩
      · exact hsame x hx
    exact ⟨(hof a ha).1.trans (hof b hb).1.symm, (hof a ha).2.trans (hof b hb).2.symm⟩
  · exact hlog p t a ha b hb

theorem live_half_of_ne {h : HalfServed} {p : ℕ} {t : SessionToken}
    (hne : (p, t) ≠ (h.server, h.token)) : live p t (.half h :: log) = live p t log := by
  rw [live, if_neg]
  rintro ⟨rfl, rfl⟩
  exact hne rfl

theorem live_ended_self {p : ℕ} {t : SessionToken} :
    live p t (.ended p t :: log) = [] := by
  rw [live, if_pos ⟨rfl, rfl⟩]

theorem live_ended_subset {p p' : ℕ} {t t' : SessionToken} :
    live p t (.ended p' t' :: log) ⊆ live p t log := by
  rw [live]
  split_ifs
  · exact List.nil_subset _
  · exact List.Subset.refl _

namespace Ledger

variable {pending pending' : ℕ × SessionToken → Option V2HalfPending} {taken taken' : List PrpKey}
  {p : ℕ} {t : SessionToken}

theorem init : Ledger (fun _ => none) [] [] where
  oneEntry log hlog := by
    rw [List.suffix_nil.1 hlog]
    intro p t a ha
    cases ha
  ofPending _ _ _ h := by cases h
  ofNone _ _ _ := rfl
  once := List.nodup_nil
  sides _ _ h := by cases h
  apart _ _ _ _ h := by cases h
  pendingTaken _ _ h := by cases h
  servedTaken _ h := by cases h

variable (h : Ledger pending log taken)

include h

/-- A V2 request is sent both sides of a key that was not taken before. -/
theorem full {k : PrpKey} (hfresh : k ∉ taken) :
    Ledger pending (.full p k :: log) (k :: taken) := by
  have hserved : served (.full p k :: log) = (k, .index) :: (k, .chunk) :: served log := rfl
  have hunserved : ∀ side, (k, side) ∉ served log := fun side hmem =>
    hfresh (h.servedTaken _ hmem)
  refine ⟨?_, h.ofPending, h.ofNone, ?_, ?_, h.apart, ?_, ?_⟩
  · exact oneEntry_suffix_cons h.oneEntry
      ((h.oneEntry _ List.suffix_rfl).cons_of_subset fun p t => List.Subset.refl _)
  · rw [hserved]
    simp only [List.nodup_cons, List.mem_cons, hunserved, or_false, not_false_eq_true, true_and]
    exact ⟨by simp, h.once⟩
  · rw [hserved]
    intro l pend hpend side hmem
    -- The entry of a pending token was taken before, so it is not this one.
    have hne : pend.entry ≠ k := fun heq => hfresh (heq ▸ h.pendingTaken l pend hpend)
    refine h.sides l pend hpend side ?_
    simpa [hne] using hmem
  · intro l pend hpend
    exact List.mem_cons_of_mem _ (h.pendingTaken l pend hpend)
  · rw [hserved]
    intro x hx
    rcases List.mem_cons.1 hx with rfl | hx
    · exact List.mem_cons_self
    rcases List.mem_cons.1 hx with rfl | hx
    · exact List.mem_cons_self
    · exact List.mem_cons_of_mem _ (h.servedTaken x hx)

/-- A half is served and its token is pending afterwards: for an entry the token stood for already,
or, if the token was not pending, for a key that was not taken before. -/
theorem half {side : Side} (pend : V2HalfPending)
    (hlive : ∀ x ∈ live p t log, x.prpKey = pend.entry ∧ x.dbId = pend.dbId)
    (hunserved : (pend.entry, side) ∉ served log) (hside : pend.sidesServed side = true)
    (hsides : ∀ side', (pend.entry, side') ∈ served log → pend.sidesServed side')
    (hapart : ∀ l other, l ≠ (p, t) → pending l = some other → other.entry ≠ pend.entry)
    (hgrows : taken ⊆ taken') (htaken : pend.entry ∈ taken') :
    Ledger (update pending (p, t) (some pend)) (.half ⟨p, t, side, pend.entry, pend.dbId⟩ :: log)
      taken' := by
  have hserved : served (.half ⟨p, t, side, pend.entry, pend.dbId⟩ :: log) =
      (pend.entry, side) :: served log := rfl
  refine ⟨?_, ?_, ?_, ?_, ?_, ?_, ?_, ?_⟩
  · exact oneEntry_suffix_cons h.oneEntry ((h.oneEntry _ List.suffix_rfl).cons_half hlive)
  · intro p' t' other hother
    rcases update_eq_some hother with ⟨⟨⟩, ⟨⟩⟩ | ⟨hl, hother⟩
    · rw [live, if_pos ⟨rfl, rfl⟩]
      intro x hx
      rcases List.mem_cons.1 hx with rfl | hx
      · exact ⟨rfl, rfl⟩
      · exact hlive x hx
    · rw [live_half_of_ne hl]
      exact h.ofPending p' t' other hother
  · intro p' t' hnone
    rw [update_apply] at hnone
    split_ifs at hnone with hl
    rw [live_half_of_ne hl]
    exact h.ofNone p' t' hnone
  · rw [hserved]
    exact List.nodup_cons.2 ⟨hunserved, h.once⟩
  · intro l other hother side' hmem
    rw [hserved] at hmem
    rcases update_eq_some hother with ⟨-, ⟨⟩⟩ | ⟨hl, hother⟩
    · rcases List.mem_cons.1 hmem with heq | hmem
      · cases heq
        exact hside
      · exact hsides side' hmem
    · refine h.sides l other hother side' ((List.mem_cons.1 hmem).resolve_left fun heq => ?_)
      exact hapart l other hl hother (Prod.mk.inj heq).1
  · intro l l' a b ha hb hab
    rw [update_apply] at ha hb
    split_ifs at ha hb with hl hl' hl'
    · rw [hl, hl']
    · cases ha
      exact absurd hab.symm (hapart l' b hl' hb)
    · cases hb
      exact absurd hab (hapart l a hl ha)
    · exact h.apart l l' a b ha hb hab
  · intro l other hother
    rcases update_eq_some hother with ⟨-, ⟨⟩⟩ | ⟨-, hother⟩
    · exact htaken
    · exact hgrows (h.pendingTaken l other hother)
  · rw [hserved]
    intro x hx
    rcases List.mem_cons.1 hx with rfl | hx
    · exact htaken
    · exact hgrows (h.servedTaken x hx)

theorem firstHalf {side : Side} {k : PrpKey} {d : UInt8} (hfresh : k ∉ taken)
    (hnone : pending (p, t) = none) :
    Ledger (update pending (p, t) (some ⟨d, k, update (fun _ => false) side true⟩))
      (.half ⟨p, t, side, k, d⟩ :: log) (k :: taken) := by
  have hunserved : ∀ side', (k, side') ∉ served log := fun side' hmem =>
    hfresh (h.servedTaken _ hmem)
  refine h.half ⟨d, k, _⟩ ?_ (hunserved side) (by simp)
    (fun side' hmem => absurd hmem (hunserved side')) ?_ (List.subset_cons_self k taken)
    List.mem_cons_self
  · rw [h.ofNone p t hnone]
    exact fun _ hx => absurd hx List.not_mem_nil
  · intro l other _ hother heq
    have hmem := h.pendingTaken l other hother
    rw [heq] at hmem
    exact hfresh hmem

theorem nextHalf {side : Side} {pend : V2HalfPending} (hpend : pending (p, t) = some pend)
    (hside : pend.sidesServed side = false) :
    Ledger (update pending (p, t)
        (some { pend with sidesServed := update pend.sidesServed side true }))
      (.half ⟨p, t, side, pend.entry, pend.dbId⟩ :: log) taken := by
  refine h.half { pend with sidesServed := update pend.sidesServed side true }
    (h.ofPending p t pend hpend) ?_ (by simp) ?_ ?_ (List.Subset.refl _)
    (h.pendingTaken (p, t) pend hpend)
  · intro hmem
    have := h.sides (p, t) pend hpend side hmem
    rw [hside] at this
    cases this
  · intro side' hmem
    change update pend.sidesServed side true side' = true
    rw [update_apply]
    split_ifs
    · rfl
    · exact h.sides (p, t) pend hpend side' hmem
  · intro l other hl hother heq
    exact hl (h.apart l (p, t) other pend hother hpend heq)

/-- Nothing is served; tokens may leave the pending maps, and the log says so. -/
theorem leave {e : LogEntry} (hserved : e.served = [])
    (hpending : ∀ l, pending' l = none ∨ pending' l = pending l)
    (hsub : ∀ p t, live p t (e :: log) ⊆ live p t log)
    (hgone : ∀ p t, pending' (p, t) = none → pending (p, t) ≠ none → live p t (e :: log) = []) :
    Ledger pending' (e :: log) taken := by
  have hsame : served (e :: log) = served log := by rw [served_cons, hserved, List.nil_append]
  have hold : ∀ l pend, pending' l = some pend → pending l = some pend := fun l pend hl => by
    rcases hpending l with hnone | heq
    · rw [hnone] at hl
      cases hl
    · rw [← heq, hl]
  refine ⟨?_, ?_, ?_, ?_, ?_, ?_, ?_, ?_⟩
  · exact oneEntry_suffix_cons h.oneEntry ((h.oneEntry _ List.suffix_rfl).cons_of_subset hsub)
  · intro p t pend hpend x hx
    exact h.ofPending p t pend (hold _ _ hpend) x (hsub p t hx)
  · intro p t hnone
    by_cases hwas : pending (p, t) = none
    · have hnil := hsub p t
      rw [h.ofNone p t hwas] at hnil
      exact List.eq_nil_of_subset_nil hnil
    · exact hgone p t hnone hwas
  · rw [hsame]
    exact h.once
  · rw [hsame]
    exact fun l pend hpend => h.sides l pend (hold l pend hpend)
  · exact fun l l' a b ha hb => h.apart l l' a b (hold l a ha) (hold l' b hb)
  · exact fun l pend hpend => h.pendingTaken l pend (hold l pend hpend)
  · rw [hsame]
    exact h.servedTaken

theorem ended : Ledger (update pending (p, t) none) (.ended p t :: log) taken := by
  refine h.leave rfl (fun l => ?_) (fun p' t' => live_ended_subset) (fun p' t' hnone hwas => ?_)
  · rw [update_apply]
    split_ifs
    · exact .inl rfl
    · exact .inr rfl
  · rw [update_apply] at hnone
    split_ifs at hnone with hl
    · cases hl
      exact live_ended_self
    · exact absurd hnone hwas

theorem crashed (hpending : ∀ l, pending' l = if l.1 = p then none else pending l) :
    Ledger pending' (.crashed p :: log) taken := by
  refine h.leave rfl (fun l => ?_) (fun p' t' => ?_) (fun p' t' hnone hwas => ?_)
  · rw [hpending]
    split_ifs
    · exact .inl rfl
    · exact .inr rfl
  · rw [live]
    split_ifs
    · exact List.nil_subset _
    · exact List.Subset.refl _
  · rw [hpending] at hnone
    split_ifs at hnone with hp
    · rw [live, if_pos hp.symm]
    · exact absurd hnone hwas

end Ledger

end BitcoinPir.Harmony
