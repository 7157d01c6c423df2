import BitcoinPir.Credit.Paid

/-!
# Gas accounting

What one frame does to the balance of its connection: a presentation tops it up, an admitted frame
is charged its work and base fee, and then its response. The amounts are read off the state before
the frame. As long as no counter saturates, the balance is their sum over the whole connection
(`gasAccounting_exact`).
-/

namespace BitcoinPir.Meter

open Foundations

namespace Server

variable (srv : Server) (st : State) (f : Frame)

/-! ## What a frame adds and takes -/

/-- The frame reaches the dispatcher. -/
def dispatched : Bool :=
  !(st.closed || f.payload = [] || srv.gateRefuses (f.payload.headD 0)) &&
    !(srv.admission st f).1.isRefused

/-- The gas that a presentation in the frame buys. -/
def redeemed : Option UInt64 :=
  if f.encrypted then
    match Request.decode f.payload with
    | .ok (.creditPresent ..) => if srv.credits then f.env.redeem.toOption else none
    | _ => none
  else none

def topUpAmount : ℤ := if srv.dispatched st f then ((srv.redeemed f).map (·.toNat)).getD 0 else 0

/-- Work and base fee of a frame that is charged. -/
def frameCharge : ℤ :=
  if srv.dispatched st f && (srv.admission st f).1.isCharged then
    ((srv.admissionGas (meteredOpForFrame f.payload)).map (·.toNat)).getD 0
  else 0

/-- The response of a frame that is charged. -/
def egressCharge : ℤ :=
  if srv.dispatched st f && (srv.admission st f).1.isCharged then
    (srv.params.egressGas f.env.egressBytes).toNat
  else 0

/-- The balance when the response is sent. -/
def gasAtResponse : ℤ := st.balance.gas + srv.topUpAmount st f - srv.frameCharge st f

/-- The amounts fit a signed counter, and so does the balance. -/
structure NoSaturation : Prop where
  topUp : srv.topUpAmount st f ≤ i64Max
  charge : srv.frameCharge st f ≤ i64Max
  egress : srv.egressCharge st f ≤ i64Max
  atResponse : srv.gasAtResponse st f ≤ i64Max
  after : i64Min ≤ srv.gasAtResponse st f - srv.egressCharge st f

end Server

/-! ## Admission -/

theorem toI64_of_le {gas : UInt64} (h : (gas.toNat : ℤ) ≤ i64Max) : toI64 gas = gas.toNat :=
  min_eq_left h

theorem toI64_nonneg (gas : UInt64) : 0 ≤ toI64 gas :=
  le_min (Int.natCast_nonneg _) (by decide)

/-- A charged frame is metered and its cost was covered; any other frame leaves the balance. -/
theorem admitFrame_cases (policy : AccessPolicy) (lane : Except String Unit) (op : Option MeteredOp)
    (cost : Option UInt64) (balance : GasBalance) :
    (∃ gas, cost = some gas ∧ op.isSome ∧ toI64 gas ≤ balance.gas ∧
      admitFrame policy lane op cost balance =
        (.charged, { balance with gas := balance.gas - toI64 gas })) ∨
      ((admitFrame policy lane op cost balance).1.isCharged = false ∧
        (admitFrame policy lane op cost balance).2 = balance) := by
  have hcharge : ∀ gas : UInt64, (toI64 gas ≤ balance.gas ∧ chargeFrame balance gas =
        (.charged, { balance with gas := balance.gas - toI64 gas })) ∨
      ((chargeFrame balance gas).1.isCharged = false ∧ (chargeFrame balance gas).2 = balance) := by
    intro gas
    rw [chargeFrame, GasBalance.charge]
    split_ifs with h
    · exact .inr ⟨rfl, rfl⟩
    · exact .inl ⟨not_lt.1 h, rfl⟩
  cases op with
  | none => exact .inr ⟨rfl, rfl⟩
  | some op =>
    cases cost with
    | none => exact .inr ⟨rfl, rfl⟩
    | some gas =>
      have hlift : ∀ a : Admission × GasBalance, a = chargeFrame balance gas →
          (∃ gas', some gas = some gas' ∧ (some op).isSome ∧ toI64 gas' ≤ balance.gas ∧
            a = (.charged, { balance with gas := balance.gas - toI64 gas' })) ∨
          (a.1.isCharged = false ∧ a.2 = balance) := by
        rintro a rfl
        rcases hcharge gas with ⟨hle, heq⟩ | hrest
        · exact .inl ⟨gas, rfl, rfl, hle, heq⟩
        · exact .inr hrest
      unfold admitFrame
      dsimp only
      by_cases hkey : balance.apiKey.isSome
      · rw [if_pos hkey]
        exact .inr ⟨rfl, rfl⟩
      · rw [if_neg hkey]
        cases policy.forOp op with
        | free => exact .inr ⟨rfl, rfl⟩
        | paid => exact hlift _ rfl
        | bestEffort =>
          split_ifs
          · exact hlift _ rfl
          · cases lane <;> exact .inr ⟨rfl, rfl⟩

theorem isSome_of_admission {op : Option (MeteredOp × UInt8)} (h : (op.map Prod.fst).isSome) :
    op.isSome := by rwa [Option.isSome_map] at h

section Step

variable (srv : Server) (st : State) (f : Frame)

theorem admission_cases :
    (∃ gas, srv.admissionGas (meteredOpForFrame f.payload) = some gas ∧
      (meteredOpForFrame f.payload).isSome ∧ toI64 gas ≤ st.balance.gas ∧
      srv.admission st f =
        (.charged, { st.balance with gas := st.balance.gas - toI64 gas })) ∨
      ((srv.admission st f).1.isCharged = false ∧ (srv.admission st f).2 = st.balance) := by
  rcases admitFrame_cases srv.policy f.env.lane ((meteredOpForFrame f.payload).map Prod.fst)
    (srv.admissionGas (meteredOpForFrame f.payload)) st.balance with ⟨gas, hgas, hop, hle, heq⟩ | h
  · exact .inl ⟨gas, hgas, isSome_of_admission hop, hle, heq⟩
  · exact .inr h

/-- **A refused frame** changes nothing. -/
theorem step_of_refused (h : (srv.admission st f).1.isRefused = true) : srv.step st f = st := by
  rw [Server.step]
  split_ifs
  · rfl
  · rcases admission_cases srv st f with ⟨gas, -, -, -, heq⟩ | ⟨-, heq⟩
    · rw [heq] at h
      cases h
    · rw [heq]

/-- A frame that does not reach the dispatcher changes nothing. -/
theorem step_of_not_dispatched (h : srv.dispatched st f = false) : srv.step st f = st := by
  rw [Server.dispatched, Bool.and_eq_false_iff, Bool.not_eq_false', Bool.not_eq_false'] at h
  rcases h with h | h
  · rw [Server.step, if_pos h]
  · exact step_of_refused srv st f h

theorem step_of_dispatched (h : srv.dispatched st f = true) :
    srv.step st f = srv.dispatch st f (srv.admission st f).1 (srv.admission st f).2 := by
  rw [Server.dispatched, Bool.and_eq_true, Bool.not_eq_true', Bool.not_eq_true'] at h
  rw [Server.step, h.1, h.2]
  rfl

theorem handleBalance_gas (balance : GasBalance) :
    (srv.handleBalance f.env f.encrypted f.payload balance).gas =
      match srv.redeemed f with
      | some gas => min (balance.gas + toI64 gas) i64Max
      | none => balance.gas := by
  rw [Server.handleBalance, Server.redeemed]
  by_cases henc : f.encrypted = true
  · rw [if_pos henc, if_pos henc]
    cases hdecode : Request.decode f.payload with
    | error msg => rfl
    | ok request =>
      cases request with
      | creditPresent =>
        rw [Server.presentCredit]
        split_ifs
        · cases f.env.redeem <;> rfl
        · rfl
      | apiKey =>
        dsimp only
        rw [Server.presentApiKey]
        split
        · split <;> rfl
        · rfl
      | _ => rfl
  · rw [if_neg henc, if_neg henc]

/-- The balance after the admission and the dispatch of a frame, before its response is charged. -/
theorem gas_atResponse (hdisp : srv.dispatched st f = true)
    (htop : srv.topUpAmount st f ≤ i64Max) (hcharge : srv.frameCharge st f ≤ i64Max)
    (hat : srv.gasAtResponse st f ≤ i64Max) :
    (srv.handleBalance f.env f.encrypted f.payload (srv.admission st f).2).gas =
      srv.gasAtResponse st f := by
  have hadmit : (srv.admission st f).2.gas = st.balance.gas - srv.frameCharge st f := by
    rw [Server.frameCharge, hdisp] at hcharge ⊢
    rcases admission_cases srv st f with ⟨gas, hgas, -, -, heq⟩ | ⟨hnot, heq⟩
    · rw [heq, hgas] at hcharge ⊢
      rw [toI64_of_le hcharge]
      rfl
    · rw [heq, hnot]
      simp
  rw [Server.gasAtResponse] at hat ⊢
  rw [handleBalance_gas, hadmit]
  rw [Server.topUpAmount, if_pos hdisp] at htop hat ⊢
  cases hredeemed : srv.redeemed f with
  | none => simp
  | some gas =>
    rw [hredeemed] at htop hat
    simp only [Option.map_some, Option.getD_some] at htop hat ⊢
    rw [toI64_of_le htop, min_eq_left (by linarith)]
    ring

theorem step_gas (h : srv.NoSaturation st f) :
    (srv.step st f).balance.gas =
      st.balance.gas + (srv.topUpAmount st f - srv.frameCharge st f - srv.egressCharge st f) := by
  cases hdisp : srv.dispatched st f with
  | false =>
    rw [step_of_not_dispatched srv st f hdisp]
    simp [Server.topUpAmount, Server.frameCharge, Server.egressCharge, hdisp]
  | true =>
    have hgas := gas_atResponse srv st f hdisp h.topUp h.charge h.atResponse
    have hegress := h.egress
    have hafter := h.after
    rw [step_of_dispatched srv st f hdisp, Server.dispatch]
    rw [Server.settle]
    rw [Server.egressCharge, hdisp, Bool.true_and] at hegress hafter ⊢
    rcases admission_cases srv st f with ⟨gas, -, hop, -, heq⟩ | ⟨hnot, heq⟩
    · have hcharged : (srv.admission st f).1.isCharged = true := by rw [heq]; rfl
      rw [hcharged] at hegress hafter ⊢
      rw [if_pos rfl] at hegress hafter ⊢
      rw [hop, Bool.and_self, if_pos rfl, GasBalance.chargeEgress, hgas, toI64_of_le hegress,
        max_eq_left hafter, Server.gasAtResponse]
      ring
    · rw [hnot, Bool.false_and, if_neg (by decide), if_neg (by decide), hgas, Server.gasAtResponse]
      ring

theorem isCharged_of_frameCharge_pos (h : 0 < srv.frameCharge st f) :
    (srv.admission st f).1.isCharged = true := by
  rw [Server.frameCharge] at h
  split_ifs at h with hcond
  · exact (Bool.and_eq_true _ _ ▸ hcond).2
  · exact absurd h (lt_irrefl _)

/-- A frame is charged only what the balance covers. -/
theorem frameCharge_le (hcharge : srv.frameCharge st f ≤ i64Max)
    (hcharged : (srv.admission st f).1.isCharged = true) :
    srv.frameCharge st f ≤ st.balance.gas := by
  rcases admission_cases srv st f with ⟨gas, hadm, -, hcov, -⟩ | ⟨hnot, -⟩
  · rw [Server.frameCharge] at hcharge ⊢
    split_ifs at hcharge ⊢
    · rw [hadm] at hcharge ⊢
      rwa [toI64_of_le hcharge] at hcov
    · exact (toI64_nonneg gas).trans hcov
  · rw [hnot] at hcharged
    cases hcharged

theorem frameCharge_le_max (hcharge : srv.frameCharge st f ≤ i64Max) :
    srv.frameCharge st f ≤ max 0 st.balance.gas := by
  rcases lt_or_ge 0 (srv.frameCharge st f) with hpos | hzero
  · exact le_max_of_le_right
      (frameCharge_le srv st f hcharge (isCharged_of_frameCharge_pos srv st f hpos))
  · exact le_max_of_le_left hzero

theorem topUpAmount_nonneg : 0 ≤ srv.topUpAmount st f := by
  rw [Server.topUpAmount]
  split_ifs
  · cases srv.redeemed f with
    | none => exact le_rfl
    | some gas => exact Int.natCast_nonneg _
  · exact le_rfl

theorem egressCharge_nonneg : 0 ≤ srv.egressCharge st f := by
  rw [Server.egressCharge]
  split_ifs
  · exact Int.natCast_nonneg _
  · exact le_rfl

/-- The charges of frames never exceed what was paid in, `paid` before the run. -/
theorem runSum_frameCharge_le {paid : ℤ} {frames : List Frame} (hpaid : 0 ≤ paid)
    (hgas : st.balance.gas ≤ paid) (h : EachStep srv.step srv.NoSaturation st frames) :
    runSum srv.step srv.frameCharge st frames ≤
      paid + runSum srv.step srv.topUpAmount st frames := by
  induction frames generalizing st paid with
  | nil => simpa [runSum] using hpaid
  | cons f frames ih =>
    have hstep := step_gas srv st f h.1
    have hcharge := frameCharge_le_max srv st f h.1.charge
    have htop := topUpAmount_nonneg srv st f
    have hegress := egressCharge_nonneg srv st f
    have hcovered : srv.frameCharge st f ≤ paid := hcharge.trans (max_le hpaid hgas)
    have hrest := @ih _ (paid + srv.topUpAmount st f - srv.frameCharge st f) (by linarith)
      (by linarith) h.2
    rw [runSum, runSum]
    linarith

end Step

/-- **Gas accounting is exact.** In every run in which no counter saturates the balance is the sum of
the top-ups minus the charges of the frames and of their responses, and the top-ups cover the charges
of the frames. In every state a frame is charged only if the balance covers it, a refused frame
changes neither the balance nor the work that was done, and only the charge for a response takes the
balance below zero or further below. -/
theorem gasAccounting_exact (srv : Server) :
    (∀ frames, EachStep srv.step srv.NoSaturation .init frames →
      (runFrom srv.step .init frames).balance.gas =
        runSum srv.step srv.topUpAmount .init frames - runSum srv.step srv.frameCharge .init frames -
          runSum srv.step srv.egressCharge .init frames ∧
      runSum srv.step srv.frameCharge .init frames ≤
        runSum srv.step srv.topUpAmount .init frames) ∧
    ∀ st f, srv.NoSaturation st f →
      ((srv.admission st f).1.isCharged = true → srv.frameCharge st f ≤ st.balance.gas) ∧
      ((srv.admission st f).1.isRefused = true → srv.dispatched st f = false ∧
        srv.step st f = st ∧ srv.frameCharge st f = 0 ∧ srv.egressCharge st f = 0) ∧
      min 0 st.balance.gas ≤ srv.gasAtResponse st f ∧
      ((srv.step st f).balance.gas < min 0 st.balance.gas → 0 < srv.egressCharge st f) := by
  refine ⟨fun frames h => ⟨?_, ?_⟩, fun st f h => ⟨frameCharge_le srv st f h.charge, ?_, ?_⟩⟩
  · have hsum := h.value_eq (fun st : State => st.balance.gas)
      (fun st f => srv.topUpAmount st f - srv.frameCharge st f - srv.egressCharge st f)
      (fun st f hst => step_gas srv st f hst)
    rw [hsum, runSum_sub, runSum_sub]
    exact zero_add _
  · have hle := runSum_frameCharge_le srv .init le_rfl le_rfl h
    rwa [zero_add] at hle
  · intro hrefused
    have hdisp : srv.dispatched st f = false := by
      rw [Server.dispatched, hrefused, Bool.not_true, Bool.and_false]
    refine ⟨hdisp, step_of_refused srv st f hrefused, ?_, ?_⟩
    · rw [Server.frameCharge, hdisp, Bool.false_and, if_neg (by decide)]
    · rw [Server.egressCharge, hdisp, Bool.false_and, if_neg (by decide)]
  · have htop := topUpAmount_nonneg srv st f
    have hcharge := frameCharge_le_max srv st f h.charge
    have hat : min 0 st.balance.gas ≤ srv.gasAtResponse st f := by
      rw [Server.gasAtResponse]
      omega
    have hstep := step_gas srv st f h
    omega

namespace OneDatabase

theorem frameCharge_hintHalf_le : (server 0).frameCharge funded hintHalf ≤ i64Max := by
  obtain ⟨gas, hgas⟩ := hintHalf_gas
  rw [Server.frameCharge, hgas]
  split_ifs
  · exact frameGas_half_le gas
  · decide

theorem noSaturation_presentation : (server 0).NoSaturation .init presentation := by
  constructor <;> decide +kernel

theorem noSaturation_hintHalf : (server 0).NoSaturation funded hintHalf := by
  have htop : (server 0).topUpAmount funded hintHalf = 0 := ite_self _
  have hegress : (server 0).egressCharge funded hintHalf = 0 := ite_self _
  have hcharge := frameCharge_hintHalf_le
  have hpos : 0 ≤ (server 0).frameCharge funded hintHalf := by
    rw [Server.frameCharge]
    split_ifs
    · cases (server 0).admissionGas (meteredOpForFrame hintHalf.payload) with
      | none => exact le_rfl
      | some gas => exact Int.natCast_nonneg _
    · exact le_rfl
  have hfunded : funded.balance.gas = i64Max := rfl
  refine ⟨?_, hcharge, ?_, ?_, ?_⟩
  · rw [htop]
    decide
  · rw [hegress]
    decide
  · rw [Server.gasAtResponse]
    linarith
  · rw [Server.gasAtResponse, i64Min]
    linarith [hcharge]

end OneDatabase

open OneDatabase in
/-- A presentation, and one half of a hint pool entry paid with it. -/
theorem gasAccounting_exact_hint_half :
    ((server 0).admission funded hintHalf).1.isCharged = true ∧
    (runFrom (server 0).step .init [presentation, hintHalf]).balance.gas =
      i64Max - (server 0).frameCharge funded hintHalf := by
  have hcharged : ((server 0).admission funded hintHalf).1.isCharged = true := by
    obtain ⟨b, hb⟩ := admission_hintHalf
    rw [hb]
    rfl
  have hrun : EachStep (server 0).step (server 0).NoSaturation .init [presentation, hintHalf] := by
    refine eachStep_cons.2 ⟨noSaturation_presentation, eachStep_cons.2 ⟨?_, eachStep_nil _⟩⟩
    rw [step_presentation]
    exact noSaturation_hintHalf
  refine ⟨hcharged, ?_⟩
  rw [((gasAccounting_exact (server 0)).1 _ hrun).1]
  have htop : (server 0).topUpAmount .init presentation = i64Max := by decide +kernel
  have htop2 : (server 0).topUpAmount funded hintHalf = 0 := ite_self _
  have hfree : (server 0).frameCharge .init presentation = 0 := by decide +kernel
  have hegress : (server 0).egressCharge .init presentation = 0 := by decide +kernel
  have hegress2 : (server 0).egressCharge funded hintHalf = 0 := ite_self _
  simp only [runSum, step_presentation, htop, htop2, hfree, hegress, hegress2]
  ring

end BitcoinPir.Meter
