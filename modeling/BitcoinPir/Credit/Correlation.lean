import BitcoinPir.Foundations.Runs
import BitcoinPir.Credit.Transport

/-!
# Responses of the credited transport belong to the frames they are handed over for

The transport presents credits by a round trip on the connection its caller uses. That round trip
takes the oldest response, which is the receipt only if no frame of the caller is unanswered.
**`run_correlated`**: as long as credits are presented only then (`Allowed`), the `i`-th outcome
handed to the caller is that of its `i`-th frame, and every receipt applied to the balance answers
a presentation. `send_presents_behind_unanswered_frame` is a run that shows the condition is
needed.
-/

namespace BitcoinPir.Credit

open Foundations

variable {Op : Type} (env : Env Op) {s s' : State Op}

/-! ## The invariant -/

/-- The bookings of the frames in flight: one for each unanswered frame, or the last answered
frame. -/
def Booked (outstanding : List (Outstanding Op)) (unanswered : ℕ) : Prop :=
  (outstanding.length = unanswered ∧ ∀ o ∈ outstanding, o.framesSeen = 0) ∨
    unanswered = 0 ∧ ∃ o, outstanding = [o] ∧ 0 < o.framesSeen

/-- Outcomes were handed over in the order of the caller's frames, `n` more responses were taken
from the queue, and those in the queue belong to the frames that follow. -/
structure InStep (n : ℕ) (s : State Op) : Prop where
  handed : ∀ (i : ℕ) h, s.handed[i]? = some h → h.origin = .caller i
  pending : ∀ (i : ℕ) p, s.pending[i]? = some p → p.origin = .caller (s.handed.length + n + i)
  frames : s.handed.length + n + s.pending.length = s.callerFrames
  receipts : ∀ o ∈ s.receipts, o = .presentation

structure Correlated (s : State Op) : Prop extends InStep 0 s where
  booked : Booked s.outstanding s.pending.length
  retry : ∀ r, s.busyRetry = some r → s.pending.length = 1 ∧ r.frame = s.handed.length

/-- One response was taken from the queue and not handed over yet. -/
structure InHand (s : State Op) : Prop extends InStep 1 s where
  retry : s.busyRetry = none

/-- The response in hand was attributed. -/
structure Taken (s : State Op) : Prop extends InHand s where
  booked : Booked s.outstanding s.pending.length

theorem correlated_init (Op : Type) (balance : ℤ) : Correlated (State.init Op balance) where
  handed := by simp [State.init]
  pending := by simp [State.init]
  frames := rfl
  receipts := by simp [State.init]
  booked := .inl ⟨rfl, by simp [State.init]⟩
  retry := by simp [State.init]

theorem Taken.hand {n : ℕ} (h : Taken s) (hn : s.handed.length = n)
    (outcome : PirResult Bytes) : Correlated (hand s (.caller n) outcome).2 where
  handed := by
    subst hn
    intro i x hx
    rcases Nat.lt_trichotomy i s.handed.length with hlt | rfl | hgt
    · rw [Credit.hand, List.getElem?_append_left hlt] at hx
      exact h.handed i x hx
    · rw [Credit.hand, List.getElem?_concat_length] at hx
      cases hx
      rfl
    · rw [Credit.hand, List.getElem?_eq_none (by simp; omega)] at hx
      cases hx
  pending := by
    intro i p hp
    rw [h.pending i p hp]
    simp [Credit.hand]
  frames := by simpa [Credit.hand] using h.frames
  receipts := h.receipts
  booked := h.booked
  retry := by
    intro r hr
    change s.busyRetry = some r at hr
    rw [h.retry] at hr
    cases hr

/-! ## Funding leaves the queues alone -/

/-- The queues and what was handed over stay; only receipts of presentations are added. -/
structure Kept (s s' : State Op) : Prop where
  pending : s'.pending = s.pending
  busyRetry : s'.busyRetry = s.busyRetry
  callerFrames : s'.callerFrames = s.callerFrames
  handed : s'.handed = s.handed
  receipts : ∀ o ∈ s'.receipts, o ∈ s.receipts ∨ o = .presentation

/-- What funding can change: balances, the wallet, and receipts of presentations. -/
structure Funded (s s' : State Op) : Prop extends Kept s s' where
  outstanding : s'.outstanding = s.outstanding

theorem Funded.refl (s : State Op) : Funded s s := ⟨⟨rfl, rfl, rfl, rfl, fun _ => .inl⟩, rfl⟩

theorem Funded.trans {s₁ s₂ s₃ : State Op} (h : Funded s₁ s₂) (h' : Funded s₂ s₃) :
    Funded s₁ s₃ where
  outstanding := h'.outstanding.trans h.outstanding
  pending := h'.pending.trans h.pending
  busyRetry := h'.busyRetry.trans h.busyRetry
  callerFrames := h'.callerFrames.trans h.callerFrames
  handed := h'.handed.trans h.handed
  receipts := fun o ho => (h'.receipts o ho).elim (h.receipts o) .inr

theorem InStep.kept {n : ℕ} (h : InStep n s) (hk : Kept s s') : InStep n s' where
  handed := by rw [hk.handed]; exact h.handed
  pending := by rw [hk.pending, hk.handed]; exact h.pending
  frames := by rw [hk.pending, hk.handed, hk.callerFrames]; exact h.frames
  receipts := fun o ho => (hk.receipts o ho).elim (h.receipts o) id

theorem InHand.kept (h : InHand s) (hk : Kept s s') : InHand s' where
  toInStep := h.toInStep.kept hk
  retry := by rw [hk.busyRetry]; exact h.retry

theorem Correlated.funded (h : Correlated s) (hf : Funded s s') : Correlated s' where
  toInStep := h.toInStep.kept hf.toKept
  booked := by rw [hf.outstanding, hf.pending]; exact h.booked
  retry := by rw [hf.busyRetry, hf.pending, hf.handed]; exact h.retry

theorem Taken.funded (h : Taken s) (hf : Funded s s') : Taken s' where
  toInHand := h.toInHand.kept hf.toKept
  booked := by rw [hf.outstanding, hf.pending]; exact h.booked

/-- With no response in the queue a round trip takes its own. -/
theorem innerRoundtrip_of_pending (h : s.pending = []) (origin : Origin) (frame : Bytes) :
    innerRoundtrip env s origin frame =
      (⟨origin, env.respond s.innerFrames frame⟩, { s with innerFrames := s.innerFrames + 1 }) := by
  simp [innerRoundtrip, innerSend, h]

theorem presentCredits_funded (h : s.pending = []) (presentation : Presentation) :
    Funded s (presentCredits env s presentation).2 := by
  rw [presentCredits]
  rcases encodeCreditPresentBody presentation.kind presentation.payload with e | body
  · exact Funded.refl s
  · dsimp only
    rw [innerRoundtrip_of_pending env h]
    rcases parseCreditResponse (env.respond s.innerFrames (encodeRequest reqCreditPresent body))
    · exact ⟨⟨rfl, rfl, rfl, rfl, fun _ => .inl⟩, rfl⟩
    · refine ⟨⟨rfl, rfl, rfl, rfl, fun o ho => ?_⟩, rfl⟩
      exact (List.mem_append.1 ho).imp id List.mem_singleton.1

theorem presentOnce_funded (h : s.pending = []) (credits : ℕ) :
    Funded s (presentOnce env s credits).2 := by
  have hcall : Funded s { s with walletCalls := s.walletCalls + 1 } :=
    ⟨⟨rfl, rfl, rfl, rfl, fun _ => .inl⟩, rfl⟩
  rw [presentOnce]
  rcases env.present s.walletCalls credits with e | _ | presentation
  · exact hcall
  · exact hcall
  · have hpresent := presentCredits_funded env (hcall.pending.trans h) presentation
    dsimp only
    rcases hp : presentCredits env { s with walletCalls := s.walletCalls + 1 } presentation
      with ⟨e | _, s₁⟩ <;> rw [hp] at hpresent <;> exact hcall.trans hpresent

theorem topUpIfPossible_funded (h : s.pending = []) (attempts : ℕ) (needed : ℤ) :
    Funded s (topUpIfPossible env attempts s needed).2 := by
  induction attempts generalizing s with
  | zero =>
    rw [topUpIfPossible]
    split_ifs <;> exact Funded.refl _
  | succ attempts ih =>
    rw [topUpIfPossible]
    split_ifs
    · exact Funded.refl _
    · have hf := presentOnce_funded env h (creditsFor env s needed)
      rcases hp : presentOnce env s (creditsFor env s needed) with ⟨e | _ | _, s₁⟩ <;> rw [hp] at hf
      · exact hf
      · exact hf
      · exact hf.trans (ih (hf.pending.trans h))

theorem topUp_funded (h : s.pending = []) (needed : ℤ) : Funded s (topUp env s needed).2 := by
  have hf := topUpIfPossible_funded env h 4 needed
  rw [topUp]
  rcases hp : topUpIfPossible env 4 s needed with ⟨e | _ | _, s₁⟩ <;> rw [hp] at hf <;> exact hf

theorem noteRefusal_funded (s : State Op) (response : Bytes) :
    Funded s (noteRefusal s response).2 := by
  rw [noteRefusal]
  split <;> exact ⟨⟨rfl, rfl, rfl, rfl, fun _ => .inl⟩, rfl⟩

/-- The frame is paid for and the balance does not cover it. -/
def MustFund (env : Env Op) (s : State Op) (frame : Bytes) : Prop :=
  ∃ op dbId admission, env.classifyFrame frame = some (op, dbId) ∧
    env.frameGas dbId op = some admission ∧ env.access op = .paid ∧
    s.balance < admission + egressReserve env s op

theorem beforeSend_funded {frame : Bytes} (h : MustFund env s frame → s.pending = []) :
    Funded s (beforeSend env s frame).2 := by
  rw [beforeSend]
  rcases hclass : env.classifyFrame frame with _ | ⟨op, dbId⟩
  · exact Funded.refl _
  · dsimp only
    rcases hgas : env.frameGas dbId op with _ | admission
    · exact Funded.refl _
    · rcases haccess : env.access op
      · exact Funded.refl _
      · dsimp only
        split_ifs
        · exact Funded.refl _
        · exact ⟨⟨rfl, rfl, rfl, rfl, fun _ => .inl⟩, rfl⟩
      · dsimp only
        split_ifs with hlow
        · have hf := topUp_funded env (h ⟨op, dbId, admission, hclass, hgas, haccess, hlow⟩)
            (admission + egressReserve env s op)
          rcases hp : topUp env s (admission + egressReserve env s op) with ⟨e | _, s₁⟩ <;>
            rw [hp] at hf
          · exact hf
          · exact hf.trans ⟨⟨rfl, rfl, rfl, rfl, fun _ => .inl⟩, rfl⟩
        · exact ⟨⟨rfl, rfl, rfl, rfl, fun _ => .inl⟩, rfl⟩

/-- The caller's next frame goes to the end of the queue. -/
theorem Correlated.pending_append (h : Correlated s) (response : Bytes) (i : ℕ) (p : Pending)
    (hi : (s.pending ++ [⟨.caller s.callerFrames, response⟩])[i]? = some p) :
    p.origin = .caller (s.handed.length + i) := by
  rcases Nat.lt_trichotomy i s.pending.length with hlt | rfl | hgt
  · rw [List.getElem?_append_left hlt] at hi
    exact h.pending i p hi
  · rw [List.getElem?_concat_length] at hi
    cases hi
    exact congrArg Origin.caller h.frames.symm
  · rw [List.getElem?_eq_none (by simp; omega)] at hi
    cases hi

/-! ## Bookkeeping -/

/-- Every frame in flight is unanswered and booked. -/
def Unseen (s : State Op) : Prop :=
  s.outstanding.length = s.pending.length ∧ ∀ o ∈ s.outstanding, o.framesSeen = 0

theorem closeAnsweredHead_spec (h : Correlated s) :
    Correlated (closeAnsweredHead s) ∧ Unseen (closeAnsweredHead s) ∧
      (closeAnsweredHead s).pending = s.pending ∧ (closeAnsweredHead s).balance = s.balance ∧
      (closeAnsweredHead s).observed = s.observed := by
  rcases h.booked with ⟨hlen, hseen⟩ | ⟨hzero, o, ho, hpos⟩
  · have hsame : closeAnsweredHead s = s := by
      rw [closeAnsweredHead]
      split
      · rename_i o ho
        rw [if_neg]
        have := hseen o (by rw [ho]; exact List.mem_singleton_self o)
        omega
      · rfl
    rw [hsame]
    exact ⟨h, ⟨hlen, hseen⟩, rfl, rfl, rfl⟩
  · have hclose : closeAnsweredHead s = { s with outstanding := [] } := by
      rw [closeAnsweredHead, ho]
      exact if_pos hpos
    rw [hclose]
    refine ⟨⟨⟨h.handed, h.pending, h.frames, h.receipts⟩, .inl ⟨hzero.symm, ?_⟩, h.retry⟩,
      ⟨hzero.symm, ?_⟩, rfl, rfl, rfl⟩
    · simp
    · simp

/-- Attributing a response changes bookings and the balance only. -/
theorem chargeEgress_kept (s : State Op) (o : Outstanding Op) (len : ℕ) :
    Kept s (chargeEgress env s o len) := by
  rw [chargeEgress]
  split <;> exact ⟨rfl, rfl, rfl, rfl, fun _ => .inl⟩

theorem afterRecv_kept (s : State Op) (len : ℕ) : Kept s (afterRecv env s len) := by
  rw [afterRecv]
  split
  · exact ⟨rfl, rfl, rfl, rfl, fun _ => .inl⟩
  · rename_i o rest _
    have h := chargeEgress_kept env s { o with framesSeen := o.framesSeen + 1 } len
    exact ⟨h.pending, h.busyRetry, h.callerFrames, h.handed, h.receipts⟩

/-- The response to the oldest of `n + 1` unanswered frames leaves `n` of them. -/
theorem afterRecv_booked {n : ℕ} (hlen : s.outstanding.length = n + 1)
    (hseen : ∀ o ∈ s.outstanding, o.framesSeen = 0) (len : ℕ) :
    Booked (afterRecv env s len).outstanding n := by
  obtain ⟨o, rest, ho⟩ := List.exists_cons_of_length_eq_add_one hlen
  have hrest : rest.length = n := by simpa [ho] using hlen
  rw [afterRecv, ho]
  by_cases hnil : rest = []
  · right
    rw [hnil] at hrest
    refine ⟨hrest.symm, _, if_pos hnil, ?_⟩
    simp
  · left
    refine ⟨(congrArg List.length (if_neg hnil)).trans hrest, fun o' ho' => hseen o' ?_⟩
    rw [ho]
    refine List.mem_cons_of_mem _ ?_
    simpa [hnil] using ho'

/-- Nothing is unanswered, and the last frame was answered. -/
def Answered (s : State Op) : Prop := s.pending = [] ∧ ∃ o, s.outstanding = [o] ∧ 0 < o.framesSeen

theorem Answered.funded (h : Answered s) (hf : Funded s s') : Answered s' := by
  rw [Answered, hf.pending, hf.outstanding]
  exact h

/-- A frame sent again while none is unanswered, and its response. -/
theorem InHand.again (h : InHand s) (hpending : s.pending = []) {booking : Booking Op}
    (hout : s.outstanding = [⟨booking, 0⟩]) (len : ℕ) :
    Taken (afterRecv env { s with innerFrames := s.innerFrames + 1 } len) ∧
      (afterRecv env { s with innerFrames := s.innerFrames + 1 } len).handed = s.handed := by
  have ha := afterRecv_kept env { s with innerFrames := s.innerFrames + 1 } len
  have hsent : InHand { s with innerFrames := s.innerFrames + 1 } :=
    ⟨⟨h.handed, h.pending, h.frames, h.receipts⟩, h.retry⟩
  refine ⟨⟨hsent.kept ha, ?_⟩, ha.handed⟩
  rw [ha.pending]
  rw [hpending]
  refine afterRecv_booked env ?_ ?_ len
  · simp [hout]
  · simp [hout]

/-- Booking a resend when the queue is empty. -/
theorem Taken.bookResend (h : Taken s) (hans : Answered s) (booking : Booking Op) (admission : ℕ) :
    InHand (bookResend s booking admission) ∧
      (bookResend s booking admission).outstanding = [⟨booking, 0⟩] ∧
      (bookResend s booking admission).pending = [] ∧
      (bookResend s booking admission).handed = s.handed := by
  obtain ⟨hpending, o, ho, hpos⟩ := hans
  have hclose : closeAnsweredHead { s with balance := debit s.balance admission } =
      { s with balance := debit s.balance admission, outstanding := [] } := by
    simp only [ho]
    exact if_pos hpos
  have hbook : Credit.bookResend s booking admission =
      { s with balance := debit s.balance admission, outstanding := [⟨booking, 0⟩] } := by
    rw [Credit.bookResend, hclose]
    rfl
  rw [hbook]
  exact ⟨⟨⟨h.handed, h.pending, h.frames, h.receipts⟩, h.retry⟩, rfl, hpending, rfl⟩

theorem roundtripAgain_correlated (h : InHand s) (hpending : s.pending = []) {booking : Booking Op}
    (hout : s.outstanding = [⟨booking, 0⟩]) {n : ℕ} (hn : s.handed.length = n) (request : Bytes) :
    Correlated (roundtripAgain env s n request).2 := by
  obtain ⟨htaken, hhanded⟩ := h.again env hpending hout
    ((env.respond s.innerFrames request).length + 4)
  rw [roundtripAgain, innerRoundtrip_of_pending env hpending]
  exact htaken.hand (by rw [hhanded, hn]) _

theorem resendAndRecv_correlated (h : InHand s) (hpending : s.pending = []) {booking : Booking Op}
    (hout : s.outstanding = [⟨booking, 0⟩]) (retry : BusyRetry)
    (hretry : retry.frame = s.handed.length) : Correlated (resendAndRecv env s retry).2 := by
  obtain ⟨htaken, hhanded⟩ := h.again env hpending hout
    (encodeResponse (env.respond s.innerFrames retry.request)).length
  rw [resendAndRecv, innerRoundtrip_of_pending env hpending]
  exact htaken.hand (by rw [hhanded, hretry]) _

/-- Funding after a busy answer, with nothing unanswered: the response stays in hand, or the
resend is booked. -/
theorem fundAfterBusy_spec (h : Taken s) (hans : Answered s) (request : Bytes)
    (booking : Booking Op) (balanceBefore : ℤ) {r : PirResult Bool} {s' : State Op}
    (hfund : fundAfterBusy env s request booking balanceBefore = (r, s')) :
    s'.handed = s.handed ∧ (r ≠ .ok true → Taken s') ∧
      (r = .ok true → InHand s' ∧ s'.pending = [] ∧ ∃ b, s'.outstanding = [⟨b, 0⟩]) := by
  have hstart : Funded s { s with balance := balanceBefore } :=
    ⟨⟨rfl, rfl, rfl, rfl, fun _ => .inl⟩, rfl⟩
  have hstay : Taken { s with balance := balanceBefore } := h.funded hstart
  rw [fundAfterBusy] at hfund
  rcases hclass : env.classifyFrame request with _ | ⟨op, dbId⟩ <;> rw [hclass] at hfund
  · cases hfund
    exact ⟨rfl, fun _ => hstay, by simp⟩
  · dsimp only at hfund
    split_ifs at hfund
    · cases hfund
      exact ⟨rfl, fun _ => hstay, by simp⟩
    · generalize neededAfterBusy env { s with balance := balanceBefore } op
        ((env.frameGas dbId op).getD 0) booking = needed at hfund
      have hf := topUpIfPossible_funded env (hstart.pending.trans hans.1) 4 needed
      rcases hp : topUpIfPossible env 4 { s with balance := balanceBefore } needed
        with ⟨e | _ | _, s₁⟩ <;> rw [hp] at hf hfund <;> cases hfund
      · exact ⟨hf.handed, fun _ => hstay.funded hf, by simp⟩
      · exact ⟨hf.handed, fun _ => hstay.funded hf, by simp⟩
      · obtain ⟨hinHand, hbooked, hempty, hhanded⟩ := (hstay.funded hf).bookResend
          (hans.funded (hstart.trans hf)) (.metered op) ((env.frameGas dbId op).getD 0)
        exact ⟨hhanded.trans hf.handed, by simp, fun _ => ⟨hinHand, hempty, _, hbooked⟩⟩

/-! ## The calls -/

/-- What a call needs. Credits are presented only when no frame is unanswered; a round trip may
overtake unanswered frames if the oldest of them was not refused. -/
def Allowed (env : Env Op) (s : State Op) : Call → Prop
  | .send data => MustFund env s data → s.pending = []
  | .recv => True
  | .roundtrip request => (MustFund env s request → s.pending = []) ∧
      ∀ p ∈ s.pending.head?, isBusy p.response = false ∧ refusal p.response = none

theorem mustFund_close (hclose : (closeAnsweredHead s).balance = s.balance ∧
    (closeAnsweredHead s).observed = s.observed) {frame : Bytes}
    (h : MustFund env (closeAnsweredHead s) frame) : MustFund env s frame := by
  obtain ⟨op, dbId, admission, hclass, hgas, haccess, hlow⟩ := h
  refine ⟨op, dbId, admission, hclass, hgas, haccess, ?_⟩
  simpa only [egressReserve, hclose.1, hclose.2] using hlow

theorem send_correlated (h : Correlated s) {data : Bytes} (hallowed : Allowed env s (.send data)) :
    Correlated (send env s data).2 := by
  obtain ⟨hcor, hunseen, hpending, hbal, hobs⟩ := closeAnsweredHead_spec h
  have hmust : MustFund env (closeAnsweredHead s) data → (closeAnsweredHead s).pending = [] :=
    fun hmust => hpending.trans (hallowed (mustFund_close env ⟨hbal, hobs⟩ hmust))
  have hf := beforeSend_funded env hmust
  rw [send]
  rcases hp : beforeSend env (closeAnsweredHead s) data with ⟨e | booking, s₁⟩ <;> rw [hp] at hf
  · exact hcor.funded hf
  · have hcor₁ := hcor.funded hf
    have hunseen₁ : Unseen s₁ := by
      rw [Unseen, hf.outstanding, hf.pending]
      exact hunseen
    refine ⟨⟨hcor₁.handed, ?_, ?_, hcor₁.receipts⟩, .inl ⟨?_, ?_⟩, ?_⟩
    · exact hcor₁.pending_append _
    · change s₁.handed.length + (s₁.pending ++ [_]).length = s₁.callerFrames + 1
      rw [List.length_append, ← hcor₁.frames]
      rfl
    · change (s₁.outstanding ++ [_]).length = (s₁.pending ++ [_]).length
      rw [List.length_append, List.length_append, hunseen₁.1]
      rfl
    · intro o ho
      rcases List.mem_append.1 ho with ho | ho
      · exact hunseen₁.2 o ho
      · rw [List.mem_singleton.1 ho]
    · -- The retry is kept only for a frame that is alone in flight.
      intro r hr
      change (if _ then _ else _) = some r at hr
      split_ifs at hr with halone
      cases hr
      have hempty : s₁.pending.length = 0 := by
        rw [← hunseen₁.1]
        simp only [Bool.and_eq_true, List.isEmpty_iff] at halone
        rw [halone.1]
        rfl
      refine ⟨?_, ?_⟩
      · change (s₁.pending ++ [_]).length = 1
        rw [List.length_append, hempty]
        rfl
      · rw [← hcor₁.frames, hempty]
        rfl

/-- The oldest response belongs to the frame after those answered so far. -/
theorem InStep.take (h : InStep 0 s) {p : Pending} {rest : List Pending}
    (hp : s.pending = p :: rest) :
    p.origin = .caller s.handed.length ∧ InStep 1 { s with pending := rest } := by
  have horigin := h.pending
  have hframes := h.frames
  rw [hp] at horigin hframes
  refine ⟨horigin 0 p rfl, h.handed, fun i q hi => ?_, ?_, h.receipts⟩
  · have := horigin (i + 1) q hi
    rwa [Nat.add_zero, ← Nat.add_assoc, Nat.add_right_comm] at this
  · rw [List.length_cons] at hframes
    dsimp only
    omega

theorem recv_correlated (h : Correlated s) : Correlated (recv env s).2 := by
  rw [recv, innerRecv]
  rcases hp : s.pending with _ | ⟨p, rest⟩
  · exact h
  · dsimp only
    -- The queue is not empty, so all bookings are of unanswered frames.
    have hunseen : s.outstanding.length = rest.length + 1 ∧ ∀ o ∈ s.outstanding,
        o.framesSeen = 0 := by
      rcases h.booked with hleft | ⟨hzero, -⟩
      · rwa [hp, List.length_cons] at hleft
      · rw [hp] at hzero
        cases hzero
    generalize hlen : (encodeResponse p.response).length = len
    have ha := afterRecv_kept env { s with pending := rest } len
    have hbooked : Booked (afterRecv env { s with pending := rest } len).outstanding rest.length :=
      afterRecv_booked env (s := { s with pending := rest }) hunseen.1 hunseen.2 len
    generalize hs₁ : afterRecv env { s with pending := rest } len = s₁ at ha hbooked ⊢
    obtain ⟨horigin, hstep⟩ := h.toInStep.take hp
    have hkept := hstep.kept ha
    have htaken : Taken { s₁ with busyRetry := none } := by
      refine ⟨⟨⟨hkept.handed, hkept.pending, hkept.frames, hkept.receipts⟩, rfl⟩, ?_⟩
      rw [ha.pending]
      exact hbooked
    rw [horigin]
    split
    · -- A busy answer to a frame that was alone in flight.
      rename_i retry entry hretry hhead hbusy
      obtain ⟨hone, hframe⟩ := h.retry retry (ha.busyRetry.symm.trans hretry)
      obtain rfl : rest = [] := by
        rw [hp, List.length_cons] at hone
        exact List.eq_nil_of_length_eq_zero (by omega)
      have hans : Answered { s₁ with busyRetry := none } := by
        rcases hbooked with ⟨hnil, -⟩ | ⟨-, hout⟩
        · rw [List.eq_nil_of_length_eq_zero hnil] at hhead
          cases hhead
        · exact ⟨ha.pending, hout⟩
      rcases hfund : fundAfterBusy env { s₁ with busyRetry := none } retry.request entry.booking
        retry.balanceBefore with ⟨r, s₂⟩
      obtain ⟨hhanded, hstay, hagain⟩ := fundAfterBusy_spec env htaken hans _ _ _ hfund
      rcases r with e | _ | _
      · exact (hstay (by simp)).hand (congrArg List.length (hhanded.trans ha.handed)) _
      · exact (hstay (by simp)).hand (congrArg List.length (hhanded.trans ha.handed)) _
      · obtain ⟨hinHand₂, hempty, booking, hout₂⟩ := hagain rfl
        refine resendAndRecv_correlated env hinHand₂ hempty hout₂ retry ?_
        rw [hhanded, hframe]
        exact congrArg List.length ha.handed.symm
    · have hf := noteRefusal_funded { s₁ with busyRetry := none } p.response
      exact (htaken.funded hf).hand (congrArg List.length (hf.handed.trans ha.handed)) _

/-- The answer to a round trip on which nothing else was unanswered. -/
theorem roundtripAnswer_correlated (h : Taken s) (hans : Answered s) {p : Pending}
    (hp : p.origin = .caller s.handed.length) (request : Bytes) (booking : Booking Op)
    (balanceBefore : ℤ) :
    Correlated (roundtripAnswer env s p s.handed.length request booking balanceBefore).2 := by
  rw [roundtripAnswer, hp]
  split_ifs with hbusy
  · rcases hfund : fundAfterBusy env s request booking balanceBefore with ⟨r, s₁⟩
    obtain ⟨hhanded, hstay, hagain⟩ := fundAfterBusy_spec env h hans _ _ _ hfund
    rcases r with e | _ | _
    · exact (hstay (by simp)).hand (by rw [hhanded]) _
    · exact (hstay (by simp)).hand (by rw [hhanded]) _
    · obtain ⟨hinHand, hempty, b, hout₁⟩ := hagain rfl
      exact roundtripAgain_correlated env hinHand hempty hout₁ (by rw [hhanded]) request
  · have hf := noteRefusal_funded s p.response
    rcases hn : noteRefusal s p.response with ⟨_ | needed, s₁⟩ <;> rw [hn] at hf
    · exact (h.funded hf).hand (by rw [hf.handed]) _
    · dsimp only
      generalize refusalReserve env s₁ booking = reserve
      have hf' := hf.trans (topUp_funded env (hf.pending.trans hans.1) (needed + reserve))
      rcases ht : topUp env s₁ (needed + reserve) with ⟨e | _, s₂⟩ <;> rw [ht] at hf'
      · exact (h.funded hf').hand (by rw [hf'.handed]) _
      · obtain ⟨hinHand, hbooked, hempty, hhanded⟩ := (h.funded hf').bookResend
          (hans.funded hf') booking needed
        exact roundtripAgain_correlated env hinHand hempty hbooked (by rw [hhanded, hf'.handed])
          request

/-- The caller's frame goes to the end of the queue, and the oldest response is taken. -/
theorem innerRoundtrip_eq {p : Pending} {rest : List Pending} {origin : Origin} {frame : Bytes}
    (h : s.pending ++ [⟨origin, env.respond s.innerFrames frame⟩] = p :: rest) :
    innerRoundtrip env s origin frame =
      (p, { s with innerFrames := s.innerFrames + 1, pending := rest }) := by
  simp [innerRoundtrip, innerSend, h]

theorem roundtrip_correlated (h : Correlated s) {request : Bytes}
    (hallowed : Allowed env s (.roundtrip request)) : Correlated (roundtrip env s request).2 := by
  obtain ⟨hclose, hunseen, hpending, hbal, hobs⟩ := closeAnsweredHead_spec h
  generalize hs₀ : { closeAnsweredHead s with busyRetry := none } = s₀
  have hcor : Correlated s₀ := by
    rw [← hs₀]
    exact ⟨⟨hclose.handed, hclose.pending, hclose.frames, hclose.receipts⟩, hclose.booked, by simp⟩
  have hmust : MustFund env s₀ request → s₀.pending = [] := by
    rw [← hs₀]
    exact fun hmust => hpending.trans (hallowed.1 (mustFund_close env ⟨hbal, hobs⟩ hmust))
  have hpending₀ : s₀.pending = s.pending := by rw [← hs₀]; exact hpending
  have hunseen₀ : Unseen s₀ := by rw [← hs₀]; exact hunseen
  have hretry₀ : s₀.busyRetry = none := by rw [← hs₀]
  have hf := beforeSend_funded env hmust
  rw [roundtrip, hs₀]
  rcases hb : beforeSend env s₀ request with ⟨e | booking, s₁⟩ <;> rw [hb] at hf
  · exact hcor.funded hf
  have hcor₁ := hcor.funded hf
  obtain ⟨p, rest, hflight⟩ := List.exists_cons_of_ne_nil (List.append_ne_nil_of_right_ne_nil
    s₁.pending (List.cons_ne_nil (⟨.caller s₁.callerFrames, env.respond s₁.innerFrames request⟩ :
      Pending) []))
  dsimp only
  rw [innerRoundtrip_eq env (s := { s₁ with
    callerFrames := s₁.callerFrames + 1
    outstanding := s₁.outstanding ++ [⟨booking, 0⟩] }) hflight]
  generalize p.response.length + 4 = len
  generalize hs₂ : ({ s₁ with
    outstanding := s₁.outstanding ++ [⟨booking, 0⟩], innerFrames := s₁.innerFrames + 1,
    pending := rest, callerFrames := s₁.callerFrames + 1 } : State Op) = s₂
  have ha := afterRecv_kept env s₂ len
  have hrest : s₁.pending.length = rest.length := by
    have := congrArg List.length hflight
    simpa using this
  have hbooked : Booked (afterRecv env s₂ len).outstanding rest.length := by
    refine afterRecv_booked env ?_ ?_ len
    · rw [← hs₂, List.length_append, hf.outstanding, hunseen₀.1, ← hf.pending, hrest]
      rfl
    · intro o ho
      rw [← hs₂] at ho
      rcases List.mem_append.1 ho with ho | ho
      · rw [hf.outstanding] at ho
        exact hunseen₀.2 o ho
      · rw [List.mem_singleton.1 ho]
  have hhanded : (afterRecv env s₂ len).handed = s₁.handed := by rw [ha.handed, ← hs₂]
  have hpending₂ : (afterRecv env s₂ len).pending = rest := by rw [ha.pending, ← hs₂]
  obtain ⟨horigin, hstep⟩ := InStep.take (s := { s₁ with
    outstanding := s₁.outstanding ++ [⟨booking, 0⟩], innerFrames := s₁.innerFrames + 1,
    pending := s₁.pending ++ [⟨.caller s₁.callerFrames, env.respond s₁.innerFrames request⟩],
    callerFrames := s₁.callerFrames + 1 }) ⟨hcor₁.handed, hcor₁.pending_append _, by
      rw [List.length_append, ← hcor₁.frames]
      rfl, hcor₁.receipts⟩ hflight
  rw [hs₂] at hstep
  have htaken : Taken (afterRecv env s₂ len) := by
    refine ⟨⟨hstep.kept ha, ?_⟩, ?_⟩
    · rw [ha.busyRetry, ← hs₂]
      exact hf.busyRetry.trans hretry₀
    · rw [hpending₂]
      exact hbooked
  rw [← hhanded] at horigin
  rcases hold : s₁.pending with _ | ⟨q, rest'⟩
  · -- Nothing else is unanswered: a refusal can be funded.
    rw [hold] at hflight hrest
    obtain rfl : rest = [] := List.eq_nil_of_length_eq_zero hrest.symm
    have hans : Answered (afterRecv env s₂ len) := by
      have hnone : s₁.outstanding = [] := List.eq_nil_of_length_eq_zero (by
        rw [hf.outstanding, hunseen₀.1, ← hf.pending, hold]
        rfl)
      refine ⟨hpending₂, ⟨booking, 1⟩, ?_, Nat.one_pos⟩
      rw [← hs₂, hnone]
      rfl
    have hframe : s₁.callerFrames = (afterRecv env s₂ len).handed.length := by
      rw [hhanded, ← hcor₁.frames, hold]
      rfl
    rw [hframe]
    exact roundtripAnswer_correlated env htaken hans horigin request booking _
  · -- The oldest unanswered frame was not refused: its response is handed over.
    rw [hold] at hflight
    obtain ⟨rfl, -⟩ := List.cons.inj hflight
    have hhead : q ∈ s.pending.head? := by
      rw [← hpending₀, ← hf.pending, hold]
      rfl
    obtain ⟨hbusy, href⟩ := hallowed.2 q hhead
    rw [roundtripAnswer, hbusy, noteRefusal, href, horigin]
    exact htaken.hand rfl _

/-- One call keeps responses and frames in step. -/
theorem step_correlated (h : Correlated s) (call : Call) (hallowed : Allowed env s call) :
    Correlated (step env s call) := by
  cases call with
  | send data => exact send_correlated env h hallowed
  | recv => exact recv_correlated env h
  | roundtrip request => exact roundtrip_correlated env h hallowed

/-- **Responses belong to frames.** In every run in which credits are presented only while no
frame is unanswered, and no round trip overtakes a refused frame, the `i`-th outcome handed to the
caller is that of its `i`-th frame, and every receipt applied to the balance answers a
presentation. -/
theorem run_correlated (env : Env Op) (balance : ℤ) (calls : List Call)
    (hallowed : EachStep (step env) (Allowed env) (State.init Op balance) calls) :
    (∀ (i : ℕ) h, (runFrom (step env) (State.init Op balance) calls).handed[i]? = some h →
      h.origin = .caller i) ∧
    ∀ o ∈ (runFrom (step env) (State.init Op balance) calls).receipts, o = .presentation := by
  have h : Correlated (runFrom (step env) (State.init Op balance) calls) :=
    EachStep.invariant (I := Correlated) (fun s call hs hc => step_correlated env hs call hc)
      (correlated_init Op balance) hallowed
  exact ⟨h.handed, h.receipts⟩

/-! ## A presentation behind an unanswered frame -/

namespace Sample

def treeTopsFrame : Bytes := encodeRequest 0x34 []

def receipt (gasAdded gasBalance : ℕ) : Bytes :=
  respCreditOk :: (leBytes 8 gasAdded ++ leBytes 8 gasBalance)

/-- A server that charges 100 gas for tree tops and gives 150 gas per credit, and a wallet that
always has a credit. -/
def sampleEnv : Env Unit where
  classifyFrame frame := if frame = treeTopsFrame then some ((), 0) else none
  frameGas _ _ := some 100
  access _ := .paid
  opFamily _ := 0
  expectedResponseBytes _ := 0
  egressGas _ := 0
  creditsToCover gas := (gas + 149) / 150
  canPay := true
  present _ _ := .ok (some ⟨1, [1], 1⟩)
  respond n frame := if frame = treeTopsFrame then [0x34] else
    if n = 0 then receipt 150 150 else receipt 150 200

end Sample

open Sample in
/-- Two frames are sent, then a response is received. The second frame has to be funded while the
first is unanswered: the presentation takes the first frame's response for its receipt, and the
caller gets the receipt as the response to its first frame. -/
theorem send_presents_behind_unanswered_frame :
    (runFrom (step sampleEnv) (State.init Unit 0)
      [.send treeTopsFrame, .send treeTopsFrame, .recv]).handed.map Handed.origin =
        [.presentation] := by
  decide +kernel

open Sample in
theorem run_correlated_one_by_one :
    (∀ (i : ℕ) h, (runFrom (step sampleEnv) (State.init Unit 0)
      [.roundtrip treeTopsFrame, .send treeTopsFrame, .recv]).handed[i]? = some h →
        h.origin = .caller i) ∧
    ∀ o ∈ (runFrom (step sampleEnv) (State.init Unit 0)
      [.roundtrip treeTopsFrame, .send treeTopsFrame, .recv]).receipts, o = .presentation := by
  refine run_correlated sampleEnv 0 _ ⟨⟨fun _ => rfl, ?_⟩, fun _ => ?_, trivial, trivial⟩
  · intro p hp
    cases hp
  · decide +kernel

end BitcoinPir.Credit
