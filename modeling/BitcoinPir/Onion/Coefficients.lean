import BitcoinPir.Onion.Unpack

/-!
# Packing bytes into coefficients

`packBytesIntoCoefficients` cuts a byte string into groups of `bitsPerCoeff` bits, lowest bits first,
and `unpackOnionPlaintext` cuts the coefficients into bytes again. Both move bits through a buffer:
what was taken in is the number that the output and the buffer stand for together (`Packed`,
`Unpacked`), the output read as digits to the base `2 ^ b` on one side and as bytes on the other.

The number of bits per coefficient is cut to 32 bits. If that loses nothing, the coefficients
have room for just the entry, and packing is lossless; if it does, the entry does not come back at its
full length (`lossless_iff`).
-/

namespace BitcoinPir.Onion

open Foundations

/-! ## Packing -/

/-- The state of the packer: coefficients written, buffered bits, and their number. -/
structure CoeffPacker where
  out : List ℕ
  buffer : ℕ
  offset : ℕ

/-- Move whole groups from the buffer to the output, up to the given number of coefficients. With
all coefficients written the source returns at once; nothing that follows would change them. -/
def CoeffPacker.drain (bpc : ℕ) : ℕ → CoeffPacker → CoeffPacker
  | 0, p => p
  | left + 1, p =>
    if bpc ≤ p.offset then
      drain bpc left
        ⟨p.out ++ [p.buffer % 2 ^ bpc % 2 ^ 64], p.buffer / 2 ^ bpc, p.offset - bpc⟩
    else p

def CoeffPacker.push (bpc polyDegree : ℕ) (p : CoeffPacker) (b : UInt8) : CoeffPacker :=
  CoeffPacker.drain bpc (polyDegree - p.out.length)
    ⟨p.out, p.buffer ||| (b.toNat <<< p.offset), p.offset + 8⟩

/-- Write the bits that are left, unless there are none. -/
def CoeffPacker.flush (bpc polyDegree : ℕ) (p : CoeffPacker) : List ℕ :=
  if 0 < p.offset ∧ p.out.length < polyDegree then p.out ++ [p.buffer % 2 ^ bpc % 2 ^ 64] else p.out

/-- The coefficients of a byte string; those not written are zero. Without a number of bits per
coefficient the source panics. -/
def packBytesIntoCoefficients (bytes : Bytes) (entrySize polyDegree : ℕ) : Option (List ℕ) := do
  let bpc ← bitsPerCoeff entrySize polyDegree
  let p := (bytes.take entrySize).foldl (CoeffPacker.push bpc polyDegree) ⟨[], 0, 0⟩
  let out := p.flush bpc polyDegree
  return out ++ List.replicate (polyDegree - out.length) 0

/-! ## Digits -/

theorem leNat_concat (bs : Bytes) (b : UInt8) :
    leNat (bs ++ [b]) = leNat bs + 256 ^ bs.length * b.toNat := by
  induction bs with
  | nil => simp [leNat]
  | cons c bs ih =>
    rw [List.cons_append, leNat, leNat, ih, List.length_cons]
    ring

theorem leNat_append_zeros (bs : Bytes) (n : ℕ) : leNat (bs ++ List.replicate n 0) = leNat bs := by
  induction n with
  | zero => simp
  | succ n ih =>
    rw [List.replicate_succ', ← List.append_assoc, leNat_concat, ih]
    simp

theorem ofDigits_append_zeros (base : ℕ) (cs : List ℕ) (n : ℕ) :
    Nat.ofDigits base (cs ++ List.replicate n 0) = Nat.ofDigits base cs := by
  rw [Nat.ofDigits_append, Nat.ofDigits_replicate_zero, Nat.mul_zero, Nat.add_zero]

theorem ofDigits_concat (b : ℕ) (cs : List ℕ) (c : ℕ) :
    Nat.ofDigits (2 ^ b) (cs ++ [c]) = Nat.ofDigits (2 ^ b) cs + 2 ^ (b * cs.length) * c := by
  rw [Nat.ofDigits_append, Nat.ofDigits_singleton, pow_mul]

/-- New bits above the buffered ones are added to them. -/
theorem or_shiftLeft {buffer offset : ℕ} (h : buffer < 2 ^ offset) (x : ℕ) :
    buffer ||| (x <<< offset) = buffer + 2 ^ offset * x := by
  rw [Nat.shiftLeft_eq, Nat.or_comm, Nat.mul_comm, ← Nat.two_pow_add_eq_or_of_lt h, Nat.add_comm]

theorem add_mul_lt {buffer offset x n : ℕ} (h : buffer < 2 ^ offset) (hx : x < 2 ^ n) :
    buffer + 2 ^ offset * x < 2 ^ (offset + n) := by
  have hle : 2 ^ offset * (x + 1) ≤ 2 ^ offset * 2 ^ n := Nat.mul_le_mul_left _ hx
  rw [pow_add]
  rw [Nat.mul_succ] at hle
  omega

/-! ## What the packer keeps -/

section Packer

variable {b : ℕ}

/-- The bytes taken in are the coefficients written and the buffered bits. -/
structure Packed (b : ℕ) (bs : Bytes) (p : CoeffPacker) : Prop where
  value : Nat.ofDigits (2 ^ b) p.out + 2 ^ (b * p.out.length) * p.buffer = leNat bs
  buffer_lt : p.buffer < 2 ^ p.offset
  bits : b * p.out.length + p.offset = 8 * bs.length
  digits : ∀ c ∈ p.out, c < 2 ^ b

theorem Packed.drain (hb : 0 < b) (hb64 : b ≤ 64) {bs : Bytes} {p : CoeffPacker} (h : Packed b bs p)
    {left : ℕ} (hleft : p.offset ≤ b * left) :
    Packed b bs (p.drain b left) ∧ (p.drain b left).offset < b := by
  induction left generalizing p with
  | zero =>
    rw [CoeffPacker.drain]
    exact ⟨h, by omega⟩
  | succ left ih =>
    rw [CoeffPacker.drain]
    split_ifs with hoffset
    · have hgroup : p.buffer % 2 ^ b < 2 ^ b := Nat.mod_lt _ (Nat.two_pow_pos b)
      have hword : p.buffer % 2 ^ b % 2 ^ 64 = p.buffer % 2 ^ b :=
        Nat.mod_eq_of_lt (hgroup.trans_le (Nat.pow_le_pow_right (by decide) hb64))
      rw [hword]
      refine ih ⟨?_, ?_, ?_, ?_⟩ ?_
      · rw [← h.value, ofDigits_concat, List.length_append, List.length_singleton, Nat.mul_succ,
          pow_add, add_assoc, mul_assoc, ← Nat.mul_add, Nat.mod_add_div]
      · rw [Nat.div_lt_iff_lt_mul (Nat.two_pow_pos b), ← pow_add, Nat.sub_add_cancel hoffset]
        exact h.buffer_lt
      · have := h.bits
        rw [List.length_append, List.length_singleton, Nat.mul_succ]
        dsimp only
        omega
      · intro c hc
        rcases List.mem_append.1 hc with hc | hc
        · exact h.digits c hc
        · rw [List.mem_singleton.1 hc]
          exact hgroup
      · rw [Nat.mul_succ] at hleft
        dsimp only
        omega
    · exact ⟨h, Nat.not_le.1 hoffset⟩

theorem Packed.push (hb : 0 < b) (hb64 : b ≤ 64) {bs : Bytes} {p : CoeffPacker} (h : Packed b bs p)
    (x : UInt8) {polyDegree : ℕ} (hroom : 8 * (bs.length + 1) ≤ b * polyDegree) :
    Packed b (bs ++ [x]) (p.push b polyDegree x) ∧ (p.push b polyDegree x).offset < b := by
  have hbits := h.bits
  have htaken : Packed b (bs ++ [x])
      ⟨p.out, p.buffer + 2 ^ p.offset * x.toNat, p.offset + 8⟩ := by
    refine ⟨?_, add_mul_lt h.buffer_lt x.toNat_lt, ?_, h.digits⟩
    · rw [leNat_concat, ← h.value, show (256 : ℕ) = 2 ^ 8 from rfl, ← pow_mul, ← hbits]
      ring
    · rw [List.length_append, List.length_singleton]
      dsimp only
      omega
  rw [CoeffPacker.push, or_shiftLeft h.buffer_lt]
  refine htaken.drain hb hb64 ?_
  rw [Nat.mul_sub]
  dsimp only
  omega

/-- **The packer loses nothing** of an entry that has room. -/
theorem packed_foldl (hb : 0 < b) (hb64 : b ≤ 64) {polyDegree : ℕ} {bs : Bytes}
    (hroom : 8 * bs.length ≤ b * polyDegree) :
    Packed b bs (bs.foldl (CoeffPacker.push b polyDegree) ⟨[], 0, 0⟩) ∧
      (bs.foldl (CoeffPacker.push b polyDegree) ⟨[], 0, 0⟩).offset < b := by
  induction bs using List.reverseRecOn with
  | nil => exact ⟨⟨by simp [leNat], by simp, by simp, by simp⟩, hb⟩
  | append_singleton bs x ih =>
    rw [List.length_append] at hroom
    rw [List.foldl_append]
    exact (ih (by omega)).1.push hb hb64 x hroom

/-- The coefficients have room for the entry if they tile it. -/
theorem packBytesIntoCoefficients_spec (hb : 0 < b) (hb64 : b ≤ 64) {entrySize polyDegree : ℕ}
    (hbpc : bitsPerCoeff entrySize polyDegree = some b) (htile : entrySize * 8 = b * polyDegree)
    {bytes : Bytes} (hlen : bytes.length ≤ entrySize) :
    ∃ coeffs, packBytesIntoCoefficients bytes entrySize polyDegree = some coeffs ∧
      coeffs.length = polyDegree ∧ (∀ c ∈ coeffs, c < 2 ^ b) ∧
      Nat.ofDigits (2 ^ b) coeffs = leNat bytes := by
  obtain ⟨hp, hoffset⟩ := packed_foldl hb hb64 (show 8 * bytes.length ≤ b * polyDegree by omega)
  set p := bytes.foldl (CoeffPacker.push b polyDegree) ⟨[], 0, 0⟩ with hpdef
  have hbits := hp.bits
  have hle : p.out.length ≤ polyDegree := by
    refine Nat.le_of_mul_le_mul_left ?_ hb
    omega
  have hword : p.buffer % 2 ^ b % 2 ^ 64 = p.buffer := by
    have hlt : p.buffer < 2 ^ b := hp.buffer_lt.trans_le (Nat.pow_le_pow_right (by decide) hoffset.le)
    rw [Nat.mod_eq_of_lt hlt,
      Nat.mod_eq_of_lt (hlt.trans_le (Nat.pow_le_pow_right (by decide) hb64))]
  have hflush : (p.flush b polyDegree).length ≤ polyDegree ∧ (∀ c ∈ p.flush b polyDegree, c < 2 ^ b) ∧
      Nat.ofDigits (2 ^ b) (p.flush b polyDegree) = leNat bytes := by
    rw [CoeffPacker.flush]
    split_ifs with hleft
    · rw [hword]
      refine ⟨by rw [List.length_append]; exact hleft.2, ?_, ?_⟩
      · intro c hc
        rcases List.mem_append.1 hc with hc | hc
        · exact hp.digits c hc
        · rw [List.mem_singleton.1 hc]
          exact hp.buffer_lt.trans_le (Nat.pow_le_pow_right (by decide) hoffset.le)
      · rw [ofDigits_concat, hp.value]
    · -- with all coefficients written, their bits are all there are
      have hzero : p.offset = 0 := by
        by_contra hne
        have hfull : polyDegree ≤ p.out.length :=
          Nat.not_lt.1 fun hlt => hleft ⟨Nat.pos_of_ne_zero hne, hlt⟩
        have := Nat.mul_le_mul_left b hfull
        omega
      have hbuffer : p.buffer = 0 := by
        have := hp.buffer_lt
        rw [hzero] at this
        omega
      refine ⟨hle, hp.digits, ?_⟩
      rw [← hp.value, hbuffer, Nat.mul_zero, Nat.add_zero]
  refine ⟨p.flush b polyDegree ++ List.replicate (polyDegree - (p.flush b polyDegree).length) 0, ?_, ?_,
    ?_, ?_⟩
  · simp only [packBytesIntoCoefficients, hbpc, Option.bind_eq_bind, Option.bind_some,
      List.take_of_length_le hlen, ← hpdef]
    rfl
  · rw [List.length_append, List.length_replicate]
    omega
  · intro c hc
    rcases List.mem_append.1 hc with hc | hc
    · exact hflush.2.1 c hc
    · rw [List.eq_of_mem_replicate hc]
      exact Nat.two_pow_pos b
  · rw [ofDigits_append_zeros, hflush.2.2]

end Packer

/-! ## What the unpacker keeps -/

section Unpacker

variable {b entrySize : ℕ}

/-- The coefficients taken in are the bytes written and the buffered bits. -/
structure Unpacked (b : ℕ) (cs : List ℕ) (u : Unpacker) : Prop where
  value : leNat u.out + 256 ^ u.out.length * u.buffer = Nat.ofDigits (2 ^ b) cs
  buffer_lt : u.buffer < 2 ^ u.offset
  bits : 8 * u.out.length + u.offset = b * cs.length

theorem Unpacked.drain {cs : List ℕ} {u : Unpacker} (h : Unpacked b cs u)
    (hroom : b * cs.length ≤ 8 * entrySize) {fuel : ℕ} (hfuel : u.offset ≤ fuel) :
    Unpacked b cs (u.drain entrySize fuel) ∧ (u.drain entrySize fuel).offset < 8 := by
  induction fuel generalizing u with
  | zero =>
    rw [Unpacker.drain]
    exact ⟨h, by omega⟩
  | succ fuel ih =>
    have hbits := h.bits
    rw [Unpacker.drain]
    split_ifs with hoffset
    · refine ih ⟨?_, ?_, ?_⟩ ?_
      · rw [← h.value, leNat_concat, List.length_append, List.length_singleton, pow_succ,
          UInt8.toNat_ofNat', add_assoc, mul_assoc, ← Nat.mul_add]
        congr 2
        exact Nat.mod_add_div _ _
      · rw [Nat.div_lt_iff_lt_mul (by decide), show (256 : ℕ) = 2 ^ 8 from rfl, ← pow_add,
          Nat.sub_add_cancel hoffset.1]
        exact h.buffer_lt
      · rw [List.length_append, List.length_singleton]
        dsimp only
        omega
      · dsimp only
        omega
    · refine ⟨h, ?_⟩
      by_contra hge
      exact hoffset ⟨Nat.not_lt.1 hge, by omega⟩

theorem Unpacked.push (hb : 0 < b) {cs : List ℕ} {u : Unpacker} (h : Unpacked b cs u) {c : ℕ}
    (hc : c < 2 ^ b) (hroom : b * (cs.length + 1) ≤ 8 * entrySize) :
    Unpacked b (cs ++ [c]) (u.push b entrySize c) ∧ (u.push b entrySize c).offset < 8 := by
  have hbits := h.bits
  rw [Nat.mul_succ] at hroom
  rw [Unpacker.push, if_neg (by omega), Nat.mod_eq_of_lt hc, or_shiftLeft h.buffer_lt]
  have htaken : Unpacked b (cs ++ [c])
      ⟨u.out, u.buffer + 2 ^ u.offset * c, u.offset + b⟩ := by
    refine ⟨?_, add_mul_lt h.buffer_lt hc, ?_⟩
    · rw [ofDigits_concat, ← h.value, ← hbits, pow_add, pow_mul]
      ring
    · rw [List.length_append, List.length_singleton, Nat.mul_succ]
      dsimp only
      omega
  refine htaken.drain ?_ le_rfl
  rw [List.length_append]
  exact hroom

theorem unpacked_foldl (entrySize : ℕ) (hb : 0 < b) {cs : List ℕ} (hcs : ∀ c ∈ cs, c < 2 ^ b)
    (hroom : b * cs.length ≤ 8 * entrySize) :
    Unpacked b cs (cs.foldl (Unpacker.push b entrySize) ⟨[], 0, 0⟩) ∧
      (cs.foldl (Unpacker.push b entrySize) ⟨[], 0, 0⟩).offset < 8 := by
  induction cs using List.reverseRecOn with
  | nil => exact ⟨⟨by simp [leNat], by simp, by simp⟩, by simp⟩
  | append_singleton cs c ih =>
    rw [List.length_append, List.length_singleton] at hroom
    rw [List.foldl_append]
    have hprev := ih (fun c' hc' => hcs c' (List.mem_append_left _ hc')) (by
      rw [Nat.mul_succ] at hroom
      omega)
    exact hprev.1.push hb (hcs c (by simp)) hroom

end Unpacker

/-! ## Round trips -/

/-- Whatever is packed comes back, followed by zeros up to the entry size. -/
def Lossless (entrySize polyDegree b : ℕ) : Prop :=
  ∀ bytes : Bytes, bytes.length ≤ entrySize →
    ∃ coeffs, packBytesIntoCoefficients bytes entrySize polyDegree = some coeffs ∧
      coeffs.length = polyDegree ∧ (∀ c ∈ coeffs, c < 2 ^ b) ∧
      unpackOnionPlaintext (plaintextOf coeffs) polyDegree entrySize =
        some (bytes ++ List.replicate (entrySize - bytes.length) 0)

theorem bitsPerCoeff_eq_some {entrySize polyDegree b : ℕ}
    (h : bitsPerCoeff entrySize polyDegree = some b) :
    0 < polyDegree ∧ ∃ bits, entrySize * 8 = bits * polyDegree ∧ b = bits % 2 ^ 32 := by
  rw [bitsPerCoeff] at h
  split_ifs at h with hdegree hword hdvd
  · refine ⟨Nat.pos_of_ne_zero hdegree, entrySize * 8 / polyDegree, ?_, (Option.some_inj.1 h).symm⟩
    rw [not_not] at hdvd
    exact (Nat.div_mul_cancel (Nat.dvd_of_mod_eq_zero hdvd)).symm

theorem lossless_of_tile {entrySize polyDegree b : ℕ} (hdegree : polyDegree < 2 ^ 32) (hb : 0 < b)
    (hb64 : b ≤ 64) (hbpc : bitsPerCoeff entrySize polyDegree = some b)
    (htile : entrySize * 8 = b * polyDegree) : Lossless entrySize polyDegree b := by
  intro bytes hlen
  obtain ⟨coeffs, hpack, rfl, hdigits, hvalue⟩ :=
    packBytesIntoCoefficients_spec hb hb64 hbpc htile hlen
  refine ⟨coeffs, hpack, rfl, hdigits, ?_⟩
  rw [unpackOnionPlaintext_plaintextOf coeffs hbpc hdegree fun c hc =>
    (hdigits c hc).trans_le (Nat.pow_le_pow_right (by decide) hb64)]
  obtain ⟨hu, hoffset⟩ := unpacked_foldl entrySize hb hdigits (by omega)
  set u := coeffs.foldl (Unpacker.push b entrySize) ⟨[], 0, 0⟩
  have hbits := hu.bits
  have hout : u.out.length = entrySize := by omega
  have hbuffer : u.buffer = 0 := by
    have := hu.buffer_lt
    rw [show u.offset = 0 by omega] at this
    omega
  have hentry : (bytes ++ List.replicate (entrySize - bytes.length) 0).length = entrySize := by
    rw [List.length_append, List.length_replicate]
    omega
  have hnum : leNat u.out = leNat (bytes ++ List.replicate (entrySize - bytes.length) 0) := by
    rw [leNat_append_zeros, ← hvalue, ← hu.value, hbuffer, Nat.mul_zero, Nat.add_zero]
  rw [← leBytes_leNat u.out, ← leBytes_leNat (bytes ++ _), hnum, hout, hentry]

/-- **Packing is lossless** exactly if the bits per coefficient were not cut: if they tile the
entry. -/
theorem lossless_iff {entrySize polyDegree b : ℕ} (hdegree : polyDegree < 2 ^ 32)
    (hbpc : bitsPerCoeff entrySize polyDegree = some b) (hb : 1 ≤ b) (hb64 : b ≤ 64) :
    Lossless entrySize polyDegree b ↔ entrySize * 8 / polyDegree < 2 ^ 32 := by
  obtain ⟨hpos, bits, htile, hcut⟩ := bitsPerCoeff_eq_some hbpc
  have hbits : entrySize * 8 / polyDegree = bits := by
    rw [htile, Nat.mul_div_cancel _ hpos]
  rw [hbits]
  constructor
  · intro h
    by_contra hlong
    -- the coefficients have room for fewer bits than the entry has
    have hmore : b * polyDegree + 8 ≤ entrySize * 8 := by
      have hle : (b + 2 ^ 32) * polyDegree ≤ bits * polyDegree := Nat.mul_le_mul_right _ (by omega)
      rw [Nat.add_mul] at hle
      omega
    obtain ⟨coeffs, -, rfl, hdigits, hunpack⟩ := h [] (Nat.zero_le _)
    rw [unpackOnionPlaintext_plaintextOf coeffs hbpc hdegree fun c hc =>
      (hdigits c hc).trans_le (Nat.pow_le_pow_right (by decide) hb64), Option.some_inj] at hunpack
    obtain ⟨hu, -⟩ := unpacked_foldl entrySize hb hdigits (by omega)
    have hshort := hu.bits
    rw [hunpack, List.length_append, List.length_replicate] at hshort
    omega
  · intro hlt
    rw [Nat.mod_eq_of_lt hlt] at hcut
    exact lossless_of_tile hdegree hb hb64 hbpc (hcut ▸ htile)

theorem lossless_iff_thirteen_bits :
    bitsPerCoeff 3328 2048 = some 13 ∧ (Lossless 3328 2048 13 ↔ 3328 * 8 / 2048 < 2 ^ 32) :=
  ⟨by decide, lossless_iff (by decide) (by decide) (by decide) (by decide)⟩

/-- One coefficient for an entry of `2 ^ 29 + 1` bytes is taken to carry eight bits. -/
theorem cut_bits_lose_entry :
    bitsPerCoeff (2 ^ 29 + 1) 1 = some 8 ∧ ¬Lossless (2 ^ 29 + 1) 1 8 := by
  refine ⟨by decide, fun h => ?_⟩
  obtain ⟨coeffs, hpack, -, -, hunpack⟩ := h [] (Nat.zero_le _)
  have hzero : packBytesIntoCoefficients [] (2 ^ 29 + 1) 1 = some [0] := by decide
  have hbyte : unpackOnionPlaintext (plaintextOf [0]) 1 (2 ^ 29 + 1) = some [0] := by decide
  obtain rfl : [0] = coeffs := Option.some_inj.1 (hzero.symm.trans hpack)
  have hlen := congrArg List.length (Option.some_inj.1 (hbyte.symm.trans hunpack))
  rw [List.nil_append, List.length_replicate] at hlen
  exact absurd hlen (by decide)

end BitcoinPir.Onion
