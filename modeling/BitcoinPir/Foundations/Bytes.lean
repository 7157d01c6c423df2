import BitcoinPir.Foundations.Blocks

/-!
# Byte strings

Byte strings are lists of bytes. This module has what every wire format of the development
rests on:

* `leBytes w n`, the `w` little-endian bytes of `n` (a cast to a `w`-byte integer followed by
  its encoding, so bits above `8 * w` are dropped), and `leNat`, the integer they denote;
* `Digest w`, byte strings of length exactly `w`, with `Digest.read` (the next `w` bytes of a
  buffer) and `Digest.concat` (digests written one after another);
* `xorBytes`, which combines the bytes two strings have in common.
-/

namespace Foundations

abbrev Bytes := List UInt8

instance : LawfulBEq Bytes := inferInstance

/-! ## Little-endian integers -/

/-- The `w` little-endian bytes of `n`; higher bits are dropped. -/
def leBytes : ℕ → ℕ → Bytes
  | 0, _ => []
  | w + 1, n => UInt8.ofNat n :: leBytes w (n / 256)

/-- The natural number with the given little-endian bytes. -/
def leNat : Bytes → ℕ
  | [] => 0
  | b :: bs => b.toNat + 256 * leNat bs

@[simp] theorem length_leBytes (w n : ℕ) : (leBytes w n).length = w := by
  induction w generalizing n with
  | zero => rfl
  | succ w ih => rw [leBytes, List.length_cons, ih]

theorem leNat_leBytes (w n : ℕ) : leNat (leBytes w n) = n % 256 ^ w := by
  induction w generalizing n with
  | zero => rw [leBytes, leNat, pow_zero, Nat.mod_one]
  | succ w ih =>
    have hbyte : (UInt8.ofNat n).toNat = n % 256 := UInt8.toNat_ofNat'
    rw [leBytes, leNat, ih, hbyte, pow_succ', Nat.mod_mul]

theorem leNat_leBytes_of_lt {w n : ℕ} (h : n < 256 ^ w) : leNat (leBytes w n) = n := by
  rw [leNat_leBytes, Nat.mod_eq_of_lt h]

theorem leNat_lt (bs : Bytes) : leNat bs < 256 ^ bs.length := by
  induction bs with
  | nil => simp [leNat]
  | cons b bs ih =>
    have hb : b.toNat < 256 := b.toNat_lt
    rw [leNat, List.length_cons]
    omega

theorem leBytes_leNat (bs : Bytes) : leBytes bs.length (leNat bs) = bs := by
  induction bs with
  | nil => rfl
  | cons b bs ih =>
    have hb : b.toNat < 256 := b.toNat_lt
    rw [List.length_cons, leBytes, leNat]
    congr 1
    · apply UInt8.toNat_inj.1
      rw [UInt8.toNat_ofNat']
      omega
    · rw [Nat.add_mul_div_left _ _ (by norm_num), Nat.div_eq_of_lt hb, Nat.zero_add, ih]

/-- Two integers have the same `w` bytes exactly when they agree modulo `256 ^ w`. -/
theorem leBytes_inj {w m n : ℕ} : leBytes w m = leBytes w n ↔ m % 256 ^ w = n % 256 ^ w := by
  constructor
  · intro h
    rw [← leNat_leBytes, ← leNat_leBytes, h]
  · intro h
    have hm := leBytes_leNat (leBytes w m)
    have hn := leBytes_leNat (leBytes w n)
    rw [length_leBytes, leNat_leBytes] at hm hn
    rw [← hm, ← hn, h]

theorem leBytes_inj_of_lt {w m n : ℕ} (hm : m < 256 ^ w) (hn : n < 256 ^ w)
    (h : leBytes w m = leBytes w n) : m = n := by
  have := leBytes_inj.1 h
  rwa [Nat.mod_eq_of_lt hm, Nat.mod_eq_of_lt hn] at this

/-- Bytes written after a fixed-width integer do not hide it. -/
theorem leBytes_append_inj {w m n : ℕ} {a b : Bytes} (h : leBytes w m ++ a = leBytes w n ++ b) :
    m % 256 ^ w = n % 256 ^ w ∧ a = b := by
  obtain ⟨hl, hr⟩ := List.append_inj h (by rw [length_leBytes, length_leBytes])
  exact ⟨leBytes_inj.1 hl, hr⟩

/-! ## Records of one size -/

section Records

variable {α β : Type*} {l : List α} {f : α → List β} {w : ℕ} (hf : ∀ a ∈ l, (f a).length = w)

include hf

theorem uniform_map : Uniform w (l.map f) := by
  simpa [Uniform] using hf

theorem length_flatMap_const : (l.flatMap f).length = l.length * w := by
  rw [List.flatMap_def, (uniform_map hf).length_flatten, List.length_map]

theorem take_flatMap_const (n : ℕ) : (l.flatMap f).take (n * w) = (l.take n).flatMap f := by
  rw [List.flatMap_def, List.flatMap_def, List.map_take, (uniform_map hf).flatten_take]

theorem drop_flatMap_const (n : ℕ) : (l.flatMap f).drop (n * w) = (l.drop n).flatMap f := by
  rw [List.flatMap_def, List.flatMap_def, List.map_drop, (uniform_map hf).flatten_drop]

theorem take_drop_flatMap {i o m : ℕ} (hi : i < l.length) (ho : o + m ≤ w) :
    ((l.flatMap f).drop (i * w + o)).take m = ((f l[i]).drop o).take m := by
  have hlen := hf _ (List.getElem_mem hi)
  rw [← List.drop_drop, drop_flatMap_const hf, List.drop_eq_getElem_cons hi, List.flatMap_cons,
    List.drop_append_of_le_length (by omega),
    List.take_append_of_le_length (by rw [List.length_drop]; omega)]

theorem record_flatMap {i : ℕ} (hi : i < l.length) :
    ((l.flatMap f).drop (i * w)).take w = f l[i] := by
  have := take_drop_flatMap hf hi (o := 0) (m := w) (by omega)
  exact this.trans (List.take_of_length_le (hf _ (List.getElem_mem hi)).le)

end Records

/-- Equally many records, each of which ends where its own elements say. -/
theorem eq_of_flatMap_append {α β : Type*} {enc : α → List β} {xs ys : List α} {a b : List β}
    (henc : ∀ x ∈ xs, ∀ y ∈ ys, ∀ a b, enc x ++ a = enc y ++ b → x = y ∧ a = b)
    (h : xs.length = ys.length ∧ xs.flatMap enc ++ a = ys.flatMap enc ++ b) : xs = ys ∧ a = b := by
  induction xs generalizing ys with
  | nil =>
    obtain rfl := List.length_eq_zero_iff.1 h.1.symm
    exact ⟨rfl, h.2⟩
  | cons x xs ih =>
    obtain _ | ⟨y, ys⟩ := ys
    · simp at h
    · simp only [List.flatMap_cons, List.append_assoc] at h
      obtain ⟨rfl, htail⟩ := henc x List.mem_cons_self y List.mem_cons_self _ _ h.2
      obtain ⟨rfl, hrest⟩ := ih (fun x hx y hy =>
        henc x (List.mem_cons_of_mem _ hx) y (List.mem_cons_of_mem _ hy)) ⟨by simpa using h.1, htail⟩
      exact ⟨rfl, hrest⟩

/-! ## Digests -/

/-- A byte string of length `w`. -/
abbrev Digest (w : ℕ) := { b : Bytes // b.length = w }

namespace Digest

variable {w : ℕ}

theorem length_val (d : Digest w) : d.val.length = w := d.property

/-- The all-zero digest. -/
def zero (w : ℕ) : Digest w := ⟨List.replicate w 0, List.length_replicate⟩

/-- The next `w` bytes of a buffer; zero bytes stand in for what a short buffer lacks. -/
def read (w : ℕ) (b : Bytes) : Digest w :=
  ⟨(b ++ List.replicate w 0).take w, by simp⟩

theorem read_append (d : Digest w) (b : Bytes) : read w (d.val ++ b) = d := by
  apply Subtype.ext
  change (d.val ++ b ++ List.replicate w 0).take w = d.val
  rw [List.append_assoc, List.take_left' d.property]

/-- Digests written one after another. -/
def concat (ds : List (Digest w)) : Bytes := ds.flatMap Subtype.val

@[simp] theorem concat_cons (d : Digest w) (ds : List (Digest w)) :
    concat (d :: ds) = d.val ++ concat ds := rfl

@[simp] theorem length_concat (ds : List (Digest w)) : (concat ds).length = ds.length * w :=
  length_flatMap_const fun d _ => d.property

theorem append_inj {d e : Digest w} {a b : Bytes} (h : d.val ++ a = e.val ++ b) :
    d = e ∧ a = b := by
  obtain ⟨hd, h⟩ := List.append_inj h (d.property.trans e.property.symm)
  exact ⟨Subtype.ext hd, h⟩

/-- The concatenation of a known number of digests determines them. -/
theorem concat_inj {ds es : List (Digest w)} (hlen : ds.length = es.length)
    (h : concat ds = concat es) : ds = es :=
  (eq_of_flatMap_append (a := []) (b := []) (fun _ _ _ _ _ _ => append_inj)
    ⟨hlen, congrArg (· ++ []) h⟩).1

/-- The `c`-th of `w`-byte pieces of a buffer. -/
def piece (w : ℕ) (b : Bytes) (c : ℕ) : Digest w := read w (b.drop (c * w))

theorem piece_concat_append (ds : List (Digest w)) (b : Bytes) {c : ℕ} (hc : c < ds.length) :
    piece w (concat ds ++ b) c = ds[c] := by
  have hle : c * w ≤ (concat ds).length := by
    rw [length_concat]
    exact Nat.mul_le_mul_right w hc.le
  rw [piece, List.drop_append_of_le_length hle, concat, drop_flatMap_const fun d _ => d.property,
    List.drop_eq_getElem_cons hc, List.flatMap_cons, List.append_assoc, read_append]

/-- The first `n` pieces of a buffer. -/
def pieces (w n : ℕ) (b : Bytes) : List (Digest w) := (List.range n).map (piece w b)

@[simp] theorem length_pieces (n : ℕ) (b : Bytes) : (pieces w n b).length = n := by
  simp [pieces]

theorem pieces_concat_append (ds : List (Digest w)) (b : Bytes) :
    pieces w ds.length (concat ds ++ b) = ds := by
  apply List.ext_getElem (by simp)
  intro c _ hc
  simp only [pieces, List.getElem_map, List.getElem_range, piece_concat_append ds b hc]

end Digest

/-! ## Exclusive or -/

/-- `dst` with the bytes of `src` added in, position by position; `dst` keeps its length. -/
def xorBytes : Bytes → Bytes → Bytes
  | d :: ds, s :: ss => (d ^^^ s) :: xorBytes ds ss
  | ds, _ => ds

@[simp] theorem length_xorBytes (ds ss : Bytes) : (xorBytes ds ss).length = ds.length := by
  induction ds generalizing ss with
  | nil => cases ss <;> rfl
  | cons d ds ih => cases ss with
    | nil => rfl
    | cons s ss => rw [xorBytes, List.length_cons, ih, List.length_cons]

section Xor

variable {a b c : Bytes}

theorem xorBytes_comm (h : a.length = b.length) : xorBytes a b = xorBytes b a := by
  induction a generalizing b with
  | nil =>
    cases b with
    | nil => rfl
    | cons => simp at h
  | cons x a ih =>
    cases b with
    | nil => simp at h
    | cons y b => rw [xorBytes, xorBytes, UInt8.xor_comm, ih (Nat.succ_inj.1 h)]

theorem xorBytes_assoc (h : a.length = b.length) (h' : b.length = c.length) :
    xorBytes (xorBytes a b) c = xorBytes a (xorBytes b c) := by
  induction a generalizing b c with
  | nil =>
    cases b with
    | nil => cases c <;> rfl
    | cons => simp at h
  | cons x a ih =>
    cases b with
    | nil => simp at h
    | cons y b =>
      cases c with
      | nil => simp at h'
      | cons z c =>
        simp only [xorBytes, UInt8.xor_assoc, ih (Nat.succ_inj.1 h) (Nat.succ_inj.1 h')]

@[simp] theorem xorBytes_self (a : Bytes) : xorBytes a a = List.replicate a.length 0 := by
  induction a with
  | nil => rfl
  | cons x a ih => rw [xorBytes, ih, UInt8.xor_self, List.length_cons, List.replicate_succ]

theorem zero_xorBytes (a : Bytes) : xorBytes (List.replicate a.length 0) a = a := by
  induction a with
  | nil => rfl
  | cons x a ih =>
    rw [List.length_cons, List.replicate_succ, xorBytes, ih, UInt8.zero_xor]

/-- Adding the same bytes on both sides cancels. -/
theorem xorBytes_xorBytes (h : a.length = c.length) (h' : b.length = c.length) :
    xorBytes (xorBytes a c) (xorBytes b c) = xorBytes a b := by
  have hcb : xorBytes b c = xorBytes c b := xorBytes_comm h'
  have hzero : xorBytes c (xorBytes c b) = b := by
    rw [← xorBytes_assoc rfl h'.symm, xorBytes_self, ← h', zero_xorBytes]
  rw [hcb, xorBytes_assoc h (by rw [length_xorBytes]), hzero]

/-- Bytes added on one side come out. -/
theorem xorBytes_xorBytes_left (h : a.length = c.length) (h' : b.length = c.length) :
    xorBytes (xorBytes a c) b = xorBytes (xorBytes a b) c := by
  rw [xorBytes_assoc h h'.symm, xorBytes_comm h'.symm, xorBytes_assoc (h.trans h'.symm) h']

end Xor

end Foundations
