import BitcoinPir.Foundations.Bytes

/-!
# Readers of byte strings

A reader consumes a front part of a byte string and returns a value, or fails. Each reader here
comes with the lemma that says exactly when it succeeds: the input is the encoding of the value
followed by what is left (`*_eq_ok`). Together with `Reader.bind_eq_ok` these turn a successful
run of a decoder into the equation between its input and the encoding of its result.

`Reads p bs a` is the other direction, for round trips: `p` reads `bs` as `a` whatever follows.
`Reads.bind` and `reads_many` compose it along a decoder.
-/

namespace Foundations

/-- Succeed only if `c` holds. -/
def require {ε : Type} (c : Prop) [Decidable c] (e : ε) : Except ε Unit :=
  if c then .ok () else .error e

theorem require_eq_ok {ε : Type} {c : Prop} [Decidable c] {e : ε} {u : Unit} :
    require c e = .ok u ↔ c := by
  unfold require
  split_ifs with hc <;> simp [hc]

theorem require_of {ε : Type} {c : Prop} [Decidable c] (hc : c) (e : ε) :
    require c e = .ok () := if_pos hc

/-- A reader with errors in `ε` and results in `α`. -/
abbrev Reader (ε α : Type) := StateT Bytes (Except ε) α

namespace Reader

variable {ε α β : Type} {b r : Bytes}

variable {p : Reader ε α} {f : α → Reader ε β} {a : α} {e : ε} {bs : Bytes}

theorem bind_eq_ok {c : β} :
    (p >>= f) b = .ok (c, r) ↔ ∃ a b', p b = .ok (a, b') ∧ f a b' = .ok (c, r) := by
  change Except.bind (p b) (fun x => f x.1 x.2) = _ ↔ _
  rcases p b with e | ⟨a, b'⟩
  · simp [Except.bind]
  · simp [Except.bind]

theorem bind_ok {b' : Bytes} (h : p b = .ok (a, b')) (f : α → Reader ε β) :
    (p >>= f) b = f a b' := by
  change Except.bind (p b) (fun x => f x.1 x.2) = _
  rw [h]
  rfl

theorem pure_eq_ok {c : α} : (pure a : Reader ε α) b = .ok (c, r) ↔ c = a ∧ r = b := by
  change Except.ok (a, b) = Except.ok (c, r) ↔ _
  simp [eq_comm]

/-- Go on with the value of a computation that reads nothing. -/
def lift (x : Except ε α) : Reader ε α := fun b => x.map fun a => (a, b)

theorem lift_eq_ok {x : Except ε α} : lift x b = .ok (a, r) ↔ x = .ok a ∧ r = b := by
  unfold lift
  cases x with
  | error e => simp [Except.map]
  | ok a' => simp [Except.map, eq_comm]

/-- Go on only if `c` holds. -/
def ensure (c : Prop) [Decidable c] (e : ε) : Reader ε Unit := lift (require c e)

theorem ensure_eq_ok {c : Prop} [Decidable c] {u : Unit} :
    ensure c e b = .ok (u, r) ↔ c ∧ r = b := by
  rw [ensure, lift_eq_ok, require_eq_ok]

theorem ensure_bind {c : Prop} [Decidable c] (hc : c) (e : ε) (f : Unit → Reader ε β) :
    (ensure c e >>= f) b = f () b :=
  bind_ok (ensure_eq_ok.2 ⟨hc, rfl⟩) f

/-! ## Fields -/

/-- The next `n` bytes. -/
def take (n : ℕ) (e : ε) : Reader ε Bytes := fun b =>
  if b.length < n then .error e else .ok (b.take n, b.drop n)

theorem take_eq_ok {n : ℕ} {x : Bytes} :
    take n e b = .ok (x, r) ↔ b = x ++ r ∧ x.length = n := by
  unfold take
  split_ifs with hlen
  · simp only [false_iff, not_and]
    rintro rfl
    rw [List.length_append] at hlen
    omega
  · rw [Except.ok.injEq, Prod.mk.injEq]
    constructor
    · rintro ⟨rfl, rfl⟩
      exact ⟨(List.take_append_drop n b).symm, List.length_take_of_le (by omega)⟩
    · rintro ⟨rfl, rfl⟩
      exact ⟨List.take_left, List.drop_left⟩

/-- An array of `n` bytes. -/
def takeArr (n : ℕ) (e : ε) : Reader ε (Digest n) := fun b =>
  if h : b.length < n then .error e
  else .ok (⟨b.take n, List.length_take_of_le (by omega)⟩, b.drop n)

theorem takeArr_eq_ok {n : ℕ} {x : Digest n} :
    takeArr n e b = .ok (x, r) ↔ b = x.val ++ r := by
  have htake : takeArr n e b = .ok (x, r) ↔ take n e b = .ok (x.val, r) := by
    unfold takeArr take
    split_ifs
    · simp
    · simp [Subtype.ext_iff]
  rw [htake, take_eq_ok, and_iff_left x.property]

def takeU8 (e : ε) : Reader ε UInt8
  | [] => .error e
  | x :: b => .ok (x, b)

theorem takeU8_eq_ok {x : UInt8} : takeU8 e b = .ok (x, r) ↔ b = x :: r := by
  cases b with
  | nil => simp [takeU8]
  | cons y b => simp [takeU8]

/-- A `w`-byte little-endian integer. -/
def takeLe (w : ℕ) (e : ε) : Reader ε ℕ := fun b =>
  (take w e b).map fun x => (leNat x.1, x.2)

theorem takeLe_eq_ok {w n : ℕ} :
    takeLe w e b = .ok (n, r) ↔ b = leBytes w n ++ r ∧ n < 256 ^ w := by
  have hmap : takeLe w e b = .ok (n, r) ↔ ∃ x, take w e b = .ok (x, r) ∧ leNat x = n := by
    unfold takeLe
    rcases take w e b with e | ⟨x, b'⟩
    · simp [Except.map]
    · simp [Except.map, and_comm]
  rw [hmap]
  constructor
  · rintro ⟨x, hx, rfl⟩
    obtain ⟨rfl, rfl⟩ := take_eq_ok.1 hx
    exact ⟨by rw [leBytes_leNat], leNat_lt x⟩
  · rintro ⟨rfl, hn⟩
    exact ⟨leBytes w n, take_eq_ok.2 ⟨rfl, length_leBytes w n⟩, leNat_leBytes_of_lt hn⟩

def takeU16 (e : ε) : Reader ε UInt16 := fun b =>
  (takeLe 2 e b).map fun x => (UInt16.ofNat x.1, x.2)

def takeU32 (e : ε) : Reader ε UInt32 := fun b =>
  (takeLe 4 e b).map fun x => (UInt32.ofNat x.1, x.2)

def takeU64 (e : ε) : Reader ε UInt64 := fun b =>
  (takeLe 8 e b).map fun x => (UInt64.ofNat x.1, x.2)

/-- The integer types differ only in their width: `toNat` is a bijection onto the integers that
fit the field. -/
theorem takeLe_map_eq_ok {w : ℕ} {mk : ℕ → α} {toNat : α → ℕ}
    (hmk : ∀ n, n < 256 ^ w → toNat (mk n) = n) (hlt : ∀ a, toNat a < 256 ^ w)
    (hinv : ∀ a, mk (toNat a) = a) :
    (takeLe w e b).map (fun x => (mk x.1, x.2)) = .ok (a, r) ↔
      b = leBytes w (toNat a) ++ r := by
  constructor
  · intro h
    rcases hp : takeLe w e b with e' | ⟨n, b'⟩
    · simp [hp, Except.map] at h
    · obtain ⟨hb, hn⟩ := takeLe_eq_ok.1 hp
      simp only [hp, Except.map, Except.ok.injEq, Prod.mk.injEq] at h
      rw [hb, ← h.1, ← h.2, hmk n hn]
  · intro h
    have hp : takeLe w e b = .ok (toNat a, r) := takeLe_eq_ok.2 ⟨h, hlt a⟩
    rw [hp]
    simp only [Except.map, hinv]

theorem takeU16_eq_ok {x : UInt16} :
    takeU16 e b = .ok (x, r) ↔ b = leBytes 2 x.toNat ++ r :=
  takeLe_map_eq_ok (fun _ h => UInt16.toNat_ofNat_of_lt' h) (fun x => x.toNat_lt)
    fun _ => UInt16.ofNat_toNat

theorem takeU32_eq_ok {x : UInt32} :
    takeU32 e b = .ok (x, r) ↔ b = leBytes 4 x.toNat ++ r :=
  takeLe_map_eq_ok (fun _ h => UInt32.toNat_ofNat_of_lt' h) (fun x => x.toNat_lt)
    fun _ => UInt32.ofNat_toNat

theorem takeU64_eq_ok {x : UInt64} :
    takeU64 e b = .ok (x, r) ↔ b = leBytes 8 x.toNat ++ r :=
  takeLe_map_eq_ok (fun _ h => UInt64.toNat_ofNat_of_lt' h) (fun x => x.toNat_lt)
    fun _ => UInt64.ofNat_toNat

/-! ## Repetition -/

/-- `n` values in a row. -/
def many (p : Reader ε α) : ℕ → Reader ε (List α)
  | 0 => pure []
  | n + 1 => do
    let a ← p
    let as ← many p n
    return a :: as

/-- `n` values in a row, the reader of each told its position; `i` is that of the first. -/
def manyFrom (p : ℕ → Reader ε α) : ℕ → ℕ → Reader ε (List α)
  | _, 0 => pure []
  | i, n + 1 => do
    let a ← p i
    let as ← manyFrom p (i + 1) n
    return a :: as

/-! ## Encodings -/

/-- `p` reads `bs` as `a`, whatever follows. -/
def Reads (p : Reader ε α) (bs : Bytes) (a : α) : Prop := ∀ rest, p (bs ++ rest) = .ok (a, rest)

theorem Reads.bind_append (hp : Reads p bs a) (cs : Bytes) : (p >>= f) (bs ++ cs) = f a cs :=
  bind_ok (hp cs) f

theorem Reads.bind {cs : Bytes} {c : β} (hp : Reads p bs a) (hf : Reads (f a) cs c) :
    Reads (p >>= f) (bs ++ cs) c := by
  intro rest
  rw [List.append_assoc, hp.bind_append, hf]

theorem Reads.check {c : β} (hp : Reads p [] a) (hf : Reads (f a) bs c) : Reads (p >>= f) bs c :=
  hp.bind hf

theorem reads_pure (a : α) : Reads (pure a : Reader ε α) [] a := fun _ => rfl

/-- A value computed from what was read last. -/
theorem Reads.map (hp : Reads p bs a) (g : α → β) :
    Reads (p >>= fun x => pure (g x)) bs (g a) := by
  intro rest
  rw [hp.bind_append]
  rfl

theorem reads_lift {x : Except ε α} (h : x = .ok a) : Reads (lift x) [] a :=
  fun _ => lift_eq_ok.2 ⟨h, rfl⟩

theorem reads_ensure {c : Prop} [Decidable c] (h : c) (e : ε) : Reads (ensure c e) [] () :=
  fun _ => ensure_eq_ok.2 ⟨h, rfl⟩

theorem reads_take {n : ℕ} (h : bs.length = n) (e : ε) : Reads (take n e) bs bs :=
  fun _ => take_eq_ok.2 ⟨rfl, h⟩

theorem reads_takeArr {n : ℕ} (x : Digest n) (e : ε) : Reads (takeArr n e) x.val x :=
  fun _ => takeArr_eq_ok.2 rfl

theorem reads_takeU8 (x : UInt8) (e : ε) : Reads (takeU8 e) [x] x := fun _ => rfl

theorem reads_takeU16 (x : UInt16) (e : ε) : Reads (takeU16 e) (leBytes 2 x.toNat) x :=
  fun _ => takeU16_eq_ok.2 rfl

theorem reads_takeU32 (x : UInt32) (e : ε) : Reads (takeU32 e) (leBytes 4 x.toNat) x :=
  fun _ => takeU32_eq_ok.2 rfl

theorem reads_takeU64 (x : UInt64) (e : ε) : Reads (takeU64 e) (leBytes 8 x.toNat) x :=
  fun _ => takeU64_eq_ok.2 rfl

theorem reads_countU16 {n : ℕ} (h : n < 2 ^ 16) (e : ε) :
    Reads (takeU16 e) (leBytes 2 n) (UInt16.ofNat n) := by
  have hread := reads_takeU16 (UInt16.ofNat n) e
  rwa [UInt16.toNat_ofNat_of_lt' h] at hread

theorem reads_countU32 {n : ℕ} (h : n < 2 ^ 32) (e : ε) :
    Reads (takeU32 e) (leBytes 4 n) (UInt32.ofNat n) := by
  have hread := reads_takeU32 (UInt32.ofNat n) e
  rwa [UInt32.toNat_ofNat_of_lt' h] at hread

section Counted

variable {n : ℕ} {g : ℕ → Reader ε α}

theorem Reads.afterU16 (hg : Reads (g n) bs a) (h : n < 2 ^ 16) (e : ε) :
    Reads (takeU16 e >>= fun count => g count.toNat) (leBytes 2 n ++ bs) a := by
  refine (reads_countU16 h e).bind ?_
  rwa [UInt16.toNat_ofNat_of_lt' h]

theorem Reads.afterU32 (hg : Reads (g n) bs a) (h : n < 2 ^ 32) (e : ε) :
    Reads (takeU32 e >>= fun count => g count.toNat) (leBytes 4 n ++ bs) a := by
  refine (reads_countU32 h e).bind ?_
  rwa [UInt32.toNat_ofNat_of_lt' h]

end Counted

theorem reads_u16Item {item : Bytes} (h : item.length < 2 ^ 16) (e e' : ε) :
    Reads (takeU16 e >>= fun len => take len.toNat e') (leBytes 2 item.length ++ item) item :=
  Reads.afterU16 (g := fun n => take n e') (reads_take rfl e') h e

theorem reads_u32Item {item : Bytes} (h : item.length < 2 ^ 32) (e e' : ε) :
    Reads (takeU32 e >>= fun len => take len.toNat e') (leBytes 4 item.length ++ item) item :=
  Reads.afterU32 (g := fun n => take n e') (reads_take rfl e') h e

theorem reads_many {enc : α → Bytes} {as : List α} (h : ∀ a ∈ as, Reads p (enc a) a) :
    Reads (many p as.length) (as.flatMap enc) as := by
  induction as with
  | nil => exact reads_pure []
  | cons a as ih =>
    have has := ih fun b hb => h b (List.mem_cons_of_mem _ hb)
    exact (h a List.mem_cons_self).bind (has.map _)

theorem reads_manyFrom {p : ℕ → Reader ε α} {enc : α → Bytes} {as : List α}
    (h : ∀ a ∈ as, ∀ i, Reads (p i) (enc a) a) (i : ℕ) :
    Reads (manyFrom p i as.length) (as.flatMap enc) as := by
  induction as generalizing i with
  | nil => exact reads_pure []
  | cons a as ih =>
    have has := ih (fun b hb => h b (List.mem_cons_of_mem _ hb)) (i + 1)
    exact (h a List.mem_cons_self i).bind (has.map _)

/-- `p` reads past `bs`, whatever follows. -/
def Skips (p : Reader ε α) (bs : Bytes) : Prop := ∃ a, Reads p bs a

theorem Reads.skips (h : Reads p bs a) : Skips p bs := ⟨a, h⟩

theorem skips_many {enc : β → Bytes} {as : List β} (h : ∀ a ∈ as, Skips p (enc a)) :
    Skips (many p as.length) (as.flatMap enc) := by
  induction as with
  | nil => exact (reads_pure []).skips
  | cons a as ih =>
    obtain ⟨x, hx⟩ := h a List.mem_cons_self
    obtain ⟨xs, hxs⟩ := ih fun b hb => h b (List.mem_cons_of_mem _ hb)
    exact ((hx.bind (hxs.map (x :: ·)) : Reads _ _ (x :: xs))).skips

end Reader

end Foundations
