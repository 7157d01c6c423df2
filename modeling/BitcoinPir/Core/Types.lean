import BitcoinPir.Foundations.Bytes

/-!
# Shared types

The error type of the client library. Every fallible operation of the client returns
`PirResult`; the texts are the ones the source formats.
-/

namespace BitcoinPir

open Foundations

/-- The errors raised by the modelled client code. -/
inductive PirError
  | notConnected
  | protocol (msg : String)
  | serverError (msg : String)
  | unexpectedResponse (expected actual : String)
  | protocolSkew (expected actual : String)
  | databaseNotFound (dbId : ℕ)
  | invalidCatalog (msg : String)
  | noSyncPath (msg : String)
  | queryFailed (msg : String)
  | verificationFailed (msg : String)
  | merkleVerificationFailed (msg : String)
  | invalidState (msg : String)
  | decode (msg : String)
  | backendState (msg : String)
  | mergeError (msg : String)
  deriving DecidableEq, Repr

/-- The result of a PIR operation. -/
abbrev PirResult : Type → Type := Except PirError

def PirError.text : PirError → String
  | .notConnected => "not connected"
  | .protocol msg => s!"protocol error: {msg}"
  | .serverError msg => s!"server error: {msg}"
  | .unexpectedResponse expected actual =>
    s!"unexpected response: expected {expected}, got {actual}"
  | .protocolSkew expected actual => s!"protocol skew: expected {expected}, got {actual}"
  | .databaseNotFound dbId => s!"database not found: db_id={dbId}"
  | .invalidCatalog msg => s!"invalid catalog: {msg}"
  | .noSyncPath msg => s!"no sync path: {msg}"
  | .queryFailed msg => s!"query failed: {msg}"
  | .verificationFailed msg => s!"verification failed: {msg}"
  | .merkleVerificationFailed msg => s!"merkle verification failed: {msg}"
  | .invalidState msg => s!"invalid state: {msg}"
  | .decode msg => s!"decode error: {msg}"
  | .backendState msg => s!"backend state error: {msg}"
  | .mergeError msg => s!"merge error: {msg}"

/-- The two digits of a byte in an error text. -/
def hexByte (b : UInt8) : String :=
  let digits := Nat.toDigits 16 b.toNat
  String.ofList (List.replicate (2 - digits.length) '0' ++ digits)

def hexEncode (bs : Bytes) : String := String.join (bs.map hexByte)

variable {ε α β : Type}

/-- A computation that succeeded went through its first part. -/
theorem bind_eq_ok {x : Except ε α} {f : α → Except ε β} {b : β} :
    x >>= f = .ok b ↔ ∃ a, x = .ok a ∧ f a = .ok b := by
  cases x with
  | error e => simp [bind, Except.bind]
  | ok a => simp [bind, Except.bind]

@[simp] theorem ok_bind (a : α) (f : α → Except ε β) :
    (Except.ok a : Except ε α) >>= f = f a := rfl

theorem return_eq_ok {a b : α} : (pure a : Except ε α) = .ok b ↔ a = b :=
  ⟨Except.ok.inj, congrArg _⟩

/-- A map that can fail succeeds element by element. -/
theorem mapM_eq_ok {f : α → Except ε β} {l : List α} {l' : List β} :
    l.mapM f = .ok l' ↔ List.Forall₂ (fun a b => f a = .ok b) l l' := by
  induction l generalizing l' with
  | nil =>
    cases l' with
    | nil => simp [pure, Except.pure]
    | cons b l' => simp [pure, Except.pure]
  | cons a l ih =>
    rw [List.mapM_cons]
    simp only [bind_eq_ok, pure, Except.pure, Except.ok.injEq]
    constructor
    · rintro ⟨b, hb, bs, hbs, rfl⟩
      exact .cons hb (ih.1 hbs)
    · intro h
      cases h with
      | cons hb hbs => exact ⟨_, hb, _, ih.2 hbs, rfl⟩

theorem exists_mapM_eq_ok {f : α → Except ε β} {l : List α} (h : ∀ a ∈ l, ∃ b, f a = .ok b) :
    ∃ l', l.mapM f = .ok l' := by
  induction l with
  | nil => exact ⟨[], rfl⟩
  | cons a l ih =>
    obtain ⟨b, hb⟩ := h a List.mem_cons_self
    obtain ⟨bs, hbs⟩ := ih fun a' ha' => h a' (List.mem_cons_of_mem a ha')
    exact ⟨b :: bs, mapM_eq_ok.2 (.cons hb (mapM_eq_ok.1 hbs))⟩

theorem mem_of_mapM_eq_ok {f : α → Except ε β} {l : List α} {l' : List β} (h : l.mapM f = .ok l')
    {b : β} : b ∈ l' ↔ ∃ a ∈ l, f a = .ok b := by
  have hall := mapM_eq_ok.1 h
  clear h
  induction hall with
  | nil => simp
  | cons hab _ ih =>
    simp only [List.mem_cons, exists_eq_or_imp, hab, Except.ok.injEq, ih, eq_comm (a := b)]

theorem length_of_mapM_eq_ok {f : α → Except ε β} {l : List α} {l' : List β} (h : l.mapM f = .ok l') :
    l'.length = l.length := (mapM_eq_ok.1 h).length_eq.symm

theorem getElem?_of_mapM_eq_ok {f : α → Except ε β} {l : List α} {l' : List β}
    (h : l.mapM f = .ok l') {i : ℕ} {a : α} (ha : l[i]? = some a) :
    ∃ b, l'[i]? = some b ∧ f a = .ok b := by
  have hall := mapM_eq_ok.1 h
  obtain ⟨hi, rfl⟩ := List.getElem?_eq_some_iff.1 ha
  have hi' : i < l'.length := hall.length_eq ▸ hi
  exact ⟨l'[i], List.getElem?_eq_getElem hi', hall.get hi hi'⟩

/-- What every step of a fold keeps holds of its result. -/
theorem foldlM_invariant {f : β → α → Except ε β} {xs : List α} {I : β → Prop}
    (hstep : ∀ x ∈ xs, ∀ b b', I b → f b x = .ok b' → I b') {b b' : β} (hb : I b)
    (h : xs.foldlM f b = .ok b') : I b' := by
  induction xs generalizing b with
  | nil =>
    cases h
    exact hb
  | cons x xs ih =>
    obtain ⟨next, hnext, h⟩ := bind_eq_ok.1 h
    exact ih (fun y hy => hstep y (List.mem_cons_of_mem _ hy))
      (hstep x List.mem_cons_self b next hb hnext) h

theorem forM_eq_ok {f : α → Except ε Unit} {xs : List α} {u : Unit} :
    xs.forM f = .ok u ↔ ∀ x ∈ xs, f x = .ok () := by
  induction xs with
  | nil => simp [pure, Except.pure]
  | cons x xs ih =>
    change (f x >>= fun _ => xs.forM f) = _ ↔ _
    rw [bind_eq_ok, List.forall_mem_cons, ← ih]
    exact ⟨fun ⟨_, hx, hxs⟩ => ⟨hx, hxs⟩, fun ⟨hx, hxs⟩ => ⟨(), hx, hxs⟩⟩

end BitcoinPir
