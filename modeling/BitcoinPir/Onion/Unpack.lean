import BitcoinPir.Foundations.Bytes

/-!
# Coefficient packing

An OnionPIR plaintext is a list of `polyDegree` coefficients that carry `bitsPerCoeff` bits of
payload each. `unpackOnionPlaintext` reads the payload from the layout a decrypted response has:
the number of coefficients, then the coefficients as 64-bit integers. Whoever makes the
plaintext chooses the payload: one byte per coefficient gives any byte string
(`unpackOnionPlaintext_bytes`).

The rolling 128-bit buffer of the source is a natural number here. It never holds more than 72
bits as long as a coefficient carries at most 64, which is the width of the source's mask.
-/

namespace BitcoinPir.Onion

open Foundations

/-- Payload bits per coefficient, if they tile the entry exactly. -/
def bitsPerCoeff (entrySize polyDegree : ℕ) : Option ℕ :=
  if polyDegree = 0 then none
  else if 2 ^ 64 ≤ entrySize * 8 then none
  else if entrySize * 8 % polyDegree ≠ 0 then none
  else some (entrySize * 8 / polyDegree % 2 ^ 32)

/-! ## Unpacking -/

/-- The state of the unpacker: bytes produced, buffered bits, and their number. -/
structure Unpacker where
  out : Bytes
  buffer : ℕ
  offset : ℕ

/-- Move whole bytes from the buffer to the output, up to `entrySize` bytes of output. Each byte
takes eight bits off the buffer, so `fuel` may be the number of buffered bits. -/
def Unpacker.drain (entrySize : ℕ) : ℕ → Unpacker → Unpacker
  | 0, u => u
  | fuel + 1, u =>
    if 8 ≤ u.offset ∧ u.out.length < entrySize then
      drain entrySize fuel ⟨u.out ++ [UInt8.ofNat u.buffer], u.buffer / 256, u.offset - 8⟩
    else u

/-- Take in the payload bits of one coefficient, unless the output is complete. -/
def Unpacker.push (bpc entrySize : ℕ) (u : Unpacker) (coeff : ℕ) : Unpacker :=
  if u.out.length = entrySize then u
  else
    Unpacker.drain entrySize (u.offset + bpc)
      ⟨u.out, u.buffer ||| ((coeff % 2 ^ bpc) <<< u.offset), u.offset + bpc⟩

/-- The payload of a decrypted plaintext. -/
def unpackOnionPlaintext (plaintextBytes : Bytes) (polyDegree entrySize : ℕ) : Option Bytes := do
  let bpc ← bitsPerCoeff entrySize polyDegree
  if plaintextBytes.length < 4 + polyDegree * 8 then none
  else if leNat (plaintextBytes.take 4) ≠ polyDegree then none
  else
    let coeffs := (List.range polyDegree).map fun i =>
      leNat ((plaintextBytes.drop (4 + i * 8)).take 8)
    return (coeffs.foldl (Unpacker.push bpc entrySize) ⟨[], 0, 0⟩).out

/-! ## Plaintexts of one byte per coefficient -/

/-- A plaintext in the layout of a decrypted response. -/
def plaintextOf (coeffs : List ℕ) : Bytes := leBytes 4 coeffs.length ++ coeffs.flatMap (leBytes 8)

theorem coeffs_plaintextOf (coeffs : List ℕ) (h : ∀ c ∈ coeffs, c < 2 ^ 64) :
    ((List.range coeffs.length).map fun i => leNat (((plaintextOf coeffs).drop (4 + i * 8)).take 8)) =
      coeffs := by
  apply List.ext_getElem (by simp)
  intro i _ hi
  have hdrop : (plaintextOf coeffs).drop (4 + i * 8) = (coeffs.flatMap (leBytes 8)).drop (i * 8) := by
    rw [plaintextOf, ← List.drop_drop, List.drop_left' (length_leBytes ..)]
  have hpiece : ((coeffs.flatMap (leBytes 8)).drop (i * 8)).take 8 = leBytes 8 coeffs[i] :=
    record_flatMap (fun _ _ => length_leBytes ..) hi
  have hlt : coeffs[i] < 256 ^ 8 := lt_of_lt_of_le (h _ (List.getElem_mem hi)) (by norm_num)
  simp only [List.getElem_map, List.getElem_range, hdrop, hpiece, leNat_leBytes_of_lt hlt]

theorem unpackOnionPlaintext_plaintextOf (coeffs : List ℕ) {entrySize bpc : ℕ}
    (hbpc : bitsPerCoeff entrySize coeffs.length = some bpc) (hlen : coeffs.length < 2 ^ 32)
    (hcoeffs : ∀ c ∈ coeffs, c < 2 ^ 64) :
    unpackOnionPlaintext (plaintextOf coeffs) coeffs.length entrySize =
      some (coeffs.foldl (Unpacker.push bpc entrySize) ⟨[], 0, 0⟩).out := by
  have hsize : (plaintextOf coeffs).length = 4 + coeffs.length * 8 := by
    rw [plaintextOf, List.length_append, length_leBytes,
      length_flatMap_const (w := 8) fun _ _ => length_leBytes ..]
  have hcount : leNat ((plaintextOf coeffs).take 4) = coeffs.length := by
    rw [plaintextOf, List.take_left' (length_leBytes ..), leNat_leBytes_of_lt (by norm_num; omega)]
  simp only [unpackOnionPlaintext, hbpc, Option.bind_eq_bind, Option.bind_some, hsize, hcount,
    lt_irrefl, if_false, ne_eq, not_true_eq_false, coeffs_plaintextOf coeffs hcoeffs]
  rfl

/-- With eight bits per coefficient every coefficient is one byte of output. -/
theorem foldl_push_bytes {entrySize : ℕ} (bs out : Bytes) (h : out.length + bs.length = entrySize) :
    ((bs.map UInt8.toNat).foldl (Unpacker.push 8 entrySize) ⟨out, 0, 0⟩).out = out ++ bs := by
  induction bs generalizing out with
  | nil => simp
  | cons b bs ih =>
    rw [List.length_cons] at h
    have hpush : Unpacker.push 8 entrySize ⟨out, 0, 0⟩ b.toNat = ⟨out ++ [b], 0, 0⟩ := by
      have hlt : b.toNat < 256 := b.toNat_lt
      rw [Unpacker.push, if_neg (by simp only; omega)]
      rw [Unpacker.drain, if_pos ⟨le_rfl, by simp only; omega⟩, Unpacker.drain]
      simp [Nat.div_eq_of_lt hlt]
    rw [List.map_cons, List.foldl_cons, hpush, ih _ (by simp; omega)]
    simp

/-- **A plaintext of one byte per coefficient unpacks** to those bytes. -/
theorem unpackOnionPlaintext_bytes (row : Bytes) (hpos : 0 < row.length)
    (hlt : row.length < 2 ^ 32) :
    unpackOnionPlaintext (plaintextOf (row.map UInt8.toNat)) row.length row.length = some row := by
  have hbpc : bitsPerCoeff row.length row.length = some 8 := by
    rw [bitsPerCoeff, if_neg (by omega), if_neg (by omega), if_neg (by simp),
      Nat.mul_div_cancel_left _ hpos]
    rfl
  have hcoeffs : ∀ c ∈ row.map UInt8.toNat, c < 2 ^ 64 := by
    intro c hc
    obtain ⟨b, -, rfl⟩ := List.mem_map.1 hc
    exact lt_trans b.toNat_lt (by norm_num)
  rw [← List.length_map UInt8.toNat] at hbpc hlt
  have hread := unpackOnionPlaintext_plaintextOf (row.map UInt8.toNat) hbpc hlt hcoeffs
  rw [List.length_map, foldl_push_bytes row [] (by simp)] at hread
  exact hread

end BitcoinPir.Onion
