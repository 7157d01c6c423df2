import BitcoinPir.Core.Varint

/-!
# The values of variable-length integers

`tryReadVarintCounted` is the reader as the source has it, with the number of bytes read; it gives up
after ten bytes, since a 64-bit number has no eleventh group of seven bits. `varintValue` is the number
that an encoding stands for, whatever its size. The tenth byte is shifted by 63 bits, so that all
but its lowest bit are lost: `readsExactly_iff` says for which bytes the reader returns the value
that the encoding stands for.
-/

namespace BitcoinPir

open Foundations

/-- Read on after `i` bytes, with the bits `result` below position `shift` known. -/
def readVarintAt (result : UInt64) (shift i : ℕ) : Bytes → Except VarintError (UInt64 × ℕ)
  | [] => .error .truncated
  | byte :: rest =>
    let result := result ||| ((byte &&& 0x7f).toUInt64 <<< UInt64.ofNat shift)
    if byte &&& 0x80 = 0 then .ok (result, i + 1)
    else if 64 ≤ shift + 7 then .error .tooLarge
    else readVarintAt result (shift + 7) (i + 1) rest

/-- Read a number; returns how many bytes it takes. -/
def tryReadVarintCounted (data : Bytes) : Except VarintError (UInt64 × ℕ) := readVarintAt 0 0 0 data

/-- The length of an encoding. -/
def varintLenFrom : ℕ → UInt64 → ℕ → ℕ
  | 0, _, len => len
  | fuel + 1, value, len =>
    if 0x80 ≤ value then varintLenFrom fuel (value >>> 7) (len + 1) else len

/-- Nine shifts leave one bit of a 64-bit number, so that the loop ends before its fuel does. -/
def varintLen (value : UInt64) : ℕ := varintLenFrom 9 value 1

variable {data enc rest : Bytes}

/-- A number takes at least one byte, and no more than there are. -/
theorem bounds_of_readVarintAt {result v : UInt64} {shift i n : ℕ}
    (h : readVarintAt result shift i data = .ok (v, n)) : i < n ∧ n ≤ i + data.length := by
  induction data generalizing result shift i with
  | nil => cases h
  | cons byte data ih =>
    rw [readVarintAt] at h
    rw [List.length_cons]
    split_ifs at h
    · cases h
      omega
    · have := ih h
      omega

theorem readVarintFrom_eq (result : UInt64) (shift i : ℕ) (data : Bytes) :
    readVarintFrom result shift data =
      (readVarintAt result shift i data).map fun r => (r.1, data.drop (r.2 - i)) := by
  induction data generalizing result shift i with
  | nil => rfl
  | cons byte data ih =>
    rw [readVarintFrom, readVarintAt]
    split_ifs
    · simp [Except.map]
    · rfl
    · rw [ih _ _ (i + 1)]
      cases h : readVarintAt (result ||| ((byte &&& 0x7f).toUInt64 <<< UInt64.ofNat shift))
        (shift + 7) (i + 1) data with
      | error e => rfl
      | ok r =>
        have hlt := (bounds_of_readVarintAt h).1
        have hdrop : r.2 - i = r.2 - (i + 1) + 1 := by omega
        simp only [Except.map, hdrop, List.drop_succ_cons]

/-- The two readers agree. -/
theorem tryReadVarint_eq (data : Bytes) :
    tryReadVarint data = (tryReadVarintCounted data).map fun r => (r.1, data.drop r.2) :=
  readVarintFrom_eq 0 0 0 data

/-! ## Encodings -/

/-- Bytes of which the last and no other has its top bit clear. -/
def IsVarint : Bytes → Prop
  | [] => False
  | byte :: rest => if byte.toNat < 128 then rest = [] else IsVarint rest

instance decidableIsVarint : DecidablePred IsVarint
  | [] => inferInstanceAs (Decidable False)
  | byte :: rest =>
    have := decidableIsVarint rest
    inferInstanceAs (Decidable (if byte.toNat < 128 then rest = [] else IsVarint rest))

/-- The number that groups of seven bits stand for, lowest first. -/
def varintValue : Bytes → ℕ
  | [] => 0
  | byte :: rest => byte.toNat % 128 + 128 * varintValue rest

theorem IsVarint.length_pos (h : IsVarint enc) : 0 < enc.length := by
  cases enc with
  | nil => cases h
  | cons byte rest => exact Nat.succ_pos _

theorem isVarint_cons_of_lt {byte : UInt8} (hbyte : byte.toNat < 128) :
    IsVarint (byte :: rest) ↔ rest = [] := by rw [IsVarint, if_pos hbyte]

theorem isVarint_cons_of_le {byte : UInt8} (hbyte : 128 ≤ byte.toNat) :
    IsVarint (byte :: rest) ↔ IsVarint rest := by rw [IsVarint, if_neg (Nat.not_lt.2 hbyte)]

/-- No encoding starts with another. -/
theorem IsVarint.length_eq {enc' rest' : Bytes} (h : IsVarint enc) (h' : IsVarint enc')
    (heq : enc ++ rest = enc' ++ rest') : enc.length = enc'.length := by
  induction enc generalizing enc' with
  | nil => cases h
  | cons byte enc ih =>
    cases enc' with
    | nil => cases h'
    | cons byte' enc' =>
      obtain ⟨rfl, htail⟩ := List.cons.inj heq
      by_cases hbyte : byte.toNat < 128
      · rw [isVarint_cons_of_lt hbyte] at h h'
        rw [h, h']
      · rw [Nat.not_lt] at hbyte
        rw [isVarint_cons_of_le hbyte] at h h'
        rw [List.length_cons, List.length_cons, ih h h' htail]

/-- Bytes start with an encoding, or all of them have their top bits set. -/
theorem exists_isVarint_append (data : Bytes) :
    (∃ enc rest, data = enc ++ rest ∧ IsVarint enc) ∨ ∀ byte ∈ data, 128 ≤ byte.toNat := by
  induction data with
  | nil => exact .inr fun byte hbyte => absurd hbyte List.not_mem_nil
  | cons byte data ih =>
    by_cases hbyte : byte.toNat < 128
    · exact .inl ⟨[byte], data, rfl, (isVarint_cons_of_lt hbyte).2 rfl⟩
    · rw [Nat.not_lt] at hbyte
      rcases ih with ⟨enc, rest, rfl, henc⟩ | hall
      · exact .inl ⟨byte :: enc, rest, rfl, (isVarint_cons_of_le hbyte).2 henc⟩
      · exact .inr (List.forall_mem_cons.2 ⟨hbyte, hall⟩)

/-! ## Reading encodings -/

theorem top_bit (byte : UInt8) : byte &&& 0x80 = 0 ↔ byte.toNat < 128 := by
  have hbits : ∀ y < 256, y &&& 128 = 0 ↔ y < 128 := by decide +kernel
  rw [← hbits byte.toNat byte.toNat_lt, ← UInt8.toNat_inj]
  rfl

/-- A new group of bits above the known ones is added to them, as far as there is room. -/
theorem toNat_addGroup {result : UInt64} {shift : ℕ} (byte : UInt8) (hshift : shift < 64)
    (hresult : result.toNat < 2 ^ shift) :
    (result ||| ((byte &&& 0x7f).toUInt64 <<< UInt64.ofNat shift)).toNat =
      (result.toNat + 2 ^ shift * (byte.toNat % 128)) % 2 ^ 64 := by
  have hgroup : (byte &&& 0x7f).toNat = byte.toNat % 128 := by
    exact Nat.and_two_pow_sub_one_eq_mod byte.toNat 7
  have hmod : (UInt64.ofNat shift).toNat % 64 = shift := by
    rw [UInt64.toNat_ofNat', Nat.mod_eq_of_lt (hshift.trans (by decide)), Nat.mod_eq_of_lt hshift]
  have hlow : result.toNat = result.toNat % 2 ^ 64 := (Nat.mod_eq_of_lt result.toNat_lt).symm
  rw [UInt64.toNat_or, UInt64.toNat_shiftLeft, UInt8.toNat_toUInt64, hgroup, hmod, Nat.shiftLeft_eq]
  nth_rewrite 1 [hlow]
  rw [← Nat.or_mod_two_pow, Nat.or_comm, Nat.mul_comm, ← Nat.two_pow_add_eq_or_of_lt hresult,
    Nat.add_comm]

/-- **An encoding is read** if it takes at most ten bytes, and then modulo `2 ^ 64`. -/
theorem readVarintAt_append (henc : IsVarint enc) (rest : Bytes) (result : UInt64) {i : ℕ}
    (hi : i < 10) (hresult : result.toNat < 2 ^ (7 * i)) :
    readVarintAt result (7 * i) i (enc ++ rest) =
      if i + enc.length ≤ 10 then
        .ok (UInt64.ofNat (result.toNat + 2 ^ (7 * i) * varintValue enc), i + enc.length)
      else .error .tooLarge := by
  induction enc generalizing result i with
  | nil => cases henc
  | cons byte enc ih =>
    have hgroup := toNat_addGroup byte (show 7 * i < 64 by omega) hresult
    rw [List.cons_append, readVarintAt]
    by_cases hbyte : byte.toNat < 128
    · obtain rfl := (isVarint_cons_of_lt hbyte).1 henc
      rw [if_pos ((top_bit byte).2 hbyte), if_pos (by simpa using hi), varintValue, varintValue,
        Nat.mul_zero]
      congr 2
      rw [← UInt64.toNat_inj, hgroup, UInt64.toNat_ofNat', Nat.add_zero]
    · rw [if_neg (mt (top_bit byte).1 hbyte)]
      rw [Nat.not_lt] at hbyte
      have henc' := (isVarint_cons_of_le hbyte).1 henc
      have hpos := henc'.length_pos
      by_cases hlast : i = 9
      · subst hlast
        rw [if_pos (by decide), if_neg (by rw [List.length_cons]; omega)]
      · have hroom : 2 ^ (7 * i) * 128 = 2 ^ (7 * (i + 1)) := by
          rw [show 7 * (i + 1) = 7 * i + 7 by omega, pow_add]
          rfl
        have hle : 2 ^ (7 * (i + 1)) ≤ 2 ^ 64 := Nat.pow_le_pow_right (by decide) (by omega)
        have hsum : result.toNat + 2 ^ (7 * i) * (byte.toNat % 128) < 2 ^ (7 * (i + 1)) := by
          have hgroup_le : 2 ^ (7 * i) * (byte.toNat % 128) ≤ 2 ^ (7 * i) * 127 :=
            Nat.mul_le_mul_left _ (by omega)
          omega
        rw [Nat.mod_eq_of_lt (hsum.trans_le hle)] at hgroup
        rw [if_neg (by omega), show 7 * i + 7 = 7 * (i + 1) by omega,
          ih henc' _ (by omega) (by rwa [hgroup]), hgroup, List.length_cons,
          show i + 1 + enc.length = i + (enc.length + 1) by omega, varintValue]
        have hvalue : result.toNat + 2 ^ (7 * i) * (byte.toNat % 128) +
              2 ^ (7 * (i + 1)) * varintValue enc =
            result.toNat + 2 ^ (7 * i) * (byte.toNat % 128 + 128 * varintValue enc) := by
          ring
        rw [hvalue]

theorem tryReadVarintCounted_append (henc : IsVarint enc) (rest : Bytes) :
    tryReadVarintCounted (enc ++ rest) =
      if enc.length ≤ 10 then .ok (UInt64.ofNat (varintValue enc), enc.length)
      else .error .tooLarge := by
  have h := readVarintAt_append henc rest 0 (i := 0) (by decide) (by decide)
  simpa [tryReadVarintCounted] using h

/-- Without an end there is no number. -/
theorem readVarintAt_of_le (h : ∀ byte ∈ data, 128 ≤ byte.toNat) (result : UInt64) (shift i : ℕ) :
    ∃ e, readVarintAt result shift i data = .error e := by
  induction data generalizing result shift i with
  | nil => exact ⟨.truncated, rfl⟩
  | cons byte data ih =>
    obtain ⟨hbyte, hdata⟩ := List.forall_mem_cons.1 h
    rw [readVarintAt, if_neg (mt (top_bit byte).1 (Nat.not_lt.2 hbyte))]
    split_ifs
    · exact ⟨.tooLarge, rfl⟩
    · exact ih hdata _ _ _

/-! ## Exact readings -/

/-- The first `n` bytes are an encoding. -/
def StartsWithVarint (data : Bytes) (n : ℕ) : Prop := n ≤ data.length ∧ IsVarint (data.take n)

theorem StartsWithVarint.eq_length (henc : IsVarint enc) {n : ℕ}
    (h : StartsWithVarint (enc ++ rest) n) : n = enc.length := by
  have hlen := IsVarint.length_eq h.2 henc (List.take_append_drop n (enc ++ rest))
  rwa [List.length_take_of_le h.1] at hlen

theorem startsWithVarint_append (henc : IsVarint enc) (rest : Bytes) :
    StartsWithVarint (enc ++ rest) enc.length := by
  refine ⟨by simp, ?_⟩
  rwa [List.take_left]

theorem not_startsWithVarint (h : ∀ byte ∈ data, 128 ≤ byte.toNat) (n : ℕ) :
    ¬StartsWithVarint data n := by
  rintro ⟨-, hn⟩
  have hall : ∀ byte ∈ data.take n, 128 ≤ byte.toNat := fun byte hbyte =>
    h byte (List.mem_of_mem_take hbyte)
  generalize data.take n = enc at hn hall
  induction enc with
  | nil => cases hn
  | cons byte enc ih =>
    obtain ⟨hbyte, henc⟩ := List.forall_mem_cons.1 hall
    exact ih ((isVarint_cons_of_le hbyte).1 hn) henc

/-- The reader returns a value and a length exactly if they are those of an encoding at the start of
the data, and rejects an encoding of a value of `2 ^ 64` or more. -/
structure ReadsExactly (data : Bytes) : Prop where
  returns_iff : ∀ (v : UInt64) (n : ℕ), tryReadVarintCounted data = .ok (v, n) ↔
    StartsWithVarint data n ∧ varintValue (data.take n) = v.toNat
  rejects : ∀ n, StartsWithVarint data n → 2 ^ 64 ≤ varintValue (data.take n) →
    ∃ e, tryReadVarintCounted data = .error e

theorem readsExactly_of_le (h : ∀ byte ∈ data, 128 ≤ byte.toNat) :
    ReadsExactly data := by
  obtain ⟨e, he⟩ := readVarintAt_of_le h 0 0 0
  refine ⟨fun v n => ⟨fun hread => ?_, fun hn => absurd hn.1 (not_startsWithVarint h n)⟩,
    fun n hn => absurd hn (not_startsWithVarint h n)⟩
  rw [tryReadVarintCounted, he] at hread
  cases hread

theorem readsExactly_append_iff (henc : IsVarint enc) (rest : Bytes) :
    ReadsExactly (enc ++ rest) ↔ (enc.length ≤ 10 ↔ varintValue enc < 2 ^ 64) := by
  have hread := tryReadVarintCounted_append henc rest
  have htake : (enc ++ rest).take enc.length = enc := List.take_left
  constructor
  · intro h
    constructor
    · intro hlen
      rw [if_pos hlen] at hread
      have hvalue := ((h.returns_iff _ _).1 hread).2
      rw [htake] at hvalue
      rw [hvalue]
      exact UInt64.toNat_lt _
    · intro hvalue
      by_contra hlen
      rw [if_neg hlen] at hread
      have hok := (h.returns_iff (UInt64.ofNat (varintValue enc)) enc.length).2
        ⟨startsWithVarint_append henc rest, by rw [htake, UInt64.toNat_ofNat_of_lt' hvalue]⟩
      rw [hread] at hok
      cases hok
  · intro h
    constructor
    · intro v n
      constructor
      · intro hok
        rw [hread] at hok
        split_ifs at hok with hlen
        cases hok
        refine ⟨startsWithVarint_append henc rest, ?_⟩
        rw [htake, UInt64.toNat_ofNat_of_lt' (h.1 hlen)]
      · rintro ⟨hn, hvalue⟩
        obtain rfl := hn.eq_length henc
        rw [htake] at hvalue
        have hlt : varintValue enc < 2 ^ 64 := hvalue ▸ v.toNat_lt
        rw [hread, if_pos (h.2 hlt), hvalue, UInt64.ofNat_toNat]
    · intro n hn hvalue
      obtain rfl := hn.eq_length henc
      rw [htake] at hvalue
      rw [hread, if_neg (mt h.1 (Nat.not_lt.2 hvalue))]
      exact ⟨_, rfl⟩

/-! ## What the writer writes -/

theorem varintLenFrom_eq (fuel : ℕ) (value : UInt64) (len : ℕ) :
    varintLenFrom fuel value (len + 1) = len + varintLenFrom fuel value 1 := by
  induction fuel generalizing value len with
  | zero => rfl
  | succ fuel ih =>
    rw [varintLenFrom, varintLenFrom]
    split_ifs
    · rw [ih, ih (value >>> 7) 1]
      omega
    · rfl

theorem shiftRight_eq_zero_iff (value : UInt64) : value >>> 7 = 0 ↔ ¬0x80 ≤ value := by
  rw [← UInt64.toNat_inj, toNat_high]
  change value.toNat / 128 = 0 ↔ ¬128 ≤ value.toNat
  omega

theorem length_writeVarintFrom (fuel : ℕ) (value : UInt64) :
    (writeVarintFrom (fuel + 1) value).length = varintLenFrom fuel value 1 := by
  induction fuel generalizing value with
  | zero =>
    rw [writeVarintFrom]
    split_ifs
    · rfl
    · rfl
  | succ fuel ih =>
    rw [writeVarintFrom, varintLenFrom]
    by_cases hlast : value >>> 7 = 0
    · rw [if_pos hlast, if_neg ((shiftRight_eq_zero_iff value).1 hlast)]
      rfl
    · rw [if_neg hlast, if_pos (not_not.1 (mt (shiftRight_eq_zero_iff value).2 hlast)),
        List.length_cons, ih, varintLenFrom_eq fuel (value >>> 7) 1, Nat.add_comm]

/-- The bytes written are an encoding of the number. -/
theorem writeVarintFrom_spec (fuel : ℕ) (value : UInt64) (h : value.toNat < 2 ^ (7 * (fuel + 1))) :
    IsVarint (writeVarintFrom (fuel + 1) value) ∧
      varintValue (writeVarintFrom (fuel + 1) value) = value.toNat ∧
      (writeVarintFrom (fuel + 1) value).length ≤ fuel + 1 := by
  induction fuel generalizing value with
  | zero =>
    have hlast : value >>> 7 = 0 := by
      rw [← UInt64.toNat_inj, toNat_high]
      exact Nat.div_eq_of_lt h
    rw [writeVarintFrom, if_pos hlast, isVarint_cons_of_lt (by rw [toNat_low_byte]; omega)]
    refine ⟨rfl, ?_, le_refl 1⟩
    simp only [varintValue, toNat_low_byte]
    omega
  | succ fuel ih =>
    have hhigh := toNat_high value
    rw [writeVarintFrom]
    split_ifs with hlast
    · rw [hlast] at hhigh
      change 0 = value.toNat / 128 at hhigh
      rw [isVarint_cons_of_lt (by rw [toNat_low_byte]; omega)]
      refine ⟨rfl, ?_, Nat.succ_le_succ (Nat.zero_le _)⟩
      simp only [varintValue, toNat_low_byte]
      omega
    · obtain ⟨henc, hvalue, hlen⟩ := ih (value >>> 7) (by
        rw [hhigh, Nat.div_lt_iff_lt_mul (by decide), show (128 : ℕ) = 2 ^ 7 from rfl, ← pow_add]
        exact h)
      rw [isVarint_cons_of_le (by rw [toNat_top]; omega), varintValue, hvalue, hhigh, toNat_top,
        List.length_cons]
      exact ⟨henc, by omega, by omega⟩

theorem length_writeVarint (value : UInt64) : (writeVarint value).length = varintLen value :=
  length_writeVarintFrom 9 value

/-- The bytes written are read back, and no others. -/
theorem tryReadVarintCounted_write (value : UInt64) (rest : Bytes) :
    tryReadVarintCounted (writeVarint value ++ rest) = .ok (value, varintLen value) := by
  obtain ⟨henc, hvalue, hlen⟩ := writeVarintFrom_spec 9 value (value.toNat_lt.trans (by decide))
  have hread := tryReadVarintCounted_append henc rest
  rwa [if_pos hlen, hvalue, UInt64.ofNat_toNat, length_writeVarintFrom] at hread

/-- **Numbers are read back.** -/
theorem tryReadVarint_write (value : UInt64) (rest : Bytes) :
    tryReadVarint (writeVarint value ++ rest) = .ok (value, rest) := by
  rw [tryReadVarint_eq, tryReadVarintCounted_write]
  simp only [Except.map, ← length_writeVarint, List.drop_left]

/-- **What the reader returns.** It is exact on the bytes that start with an encoding of at most ten
bytes just if its value fits in 64 bits, and on those that start with none; and it reads back what
the writer writes. -/
theorem readsExactly_iff (data : Bytes) (value : UInt64) (rest : Bytes) :
    (ReadsExactly data ↔ ∀ n, StartsWithVarint data n →
      (n ≤ 10 ↔ varintValue (data.take n) < 2 ^ 64)) ∧
    tryReadVarintCounted (writeVarint value ++ rest) = .ok (value, varintLen value) := by
  refine ⟨?_, tryReadVarintCounted_write value rest⟩
  rcases exists_isVarint_append data with ⟨enc, rest, rfl, henc⟩ | hall
  · rw [readsExactly_append_iff henc]
    constructor
    · intro h n hn
      rwa [hn.eq_length henc, List.take_left]
    · intro h
      have henc := h _ (startsWithVarint_append henc rest)
      rwa [List.take_left] at henc
  · exact iff_of_true (readsExactly_of_le hall) fun n hn => absurd hn (not_startsWithVarint hall n)

/-- Ten bytes for `2 ^ 64` are read as zero, and eleven bytes for zero are rejected. -/
theorem tenth_byte_lost :
    (tryReadVarintCounted (List.replicate 9 0x80 ++ [2]) = .ok (0, 10) ∧
      varintValue (List.replicate 9 0x80 ++ [2]) = 2 ^ 64 ∧
      ¬ReadsExactly (List.replicate 9 0x80 ++ [2])) ∧
    tryReadVarintCounted (List.replicate 10 0x80 ++ [0]) = .error .tooLarge ∧
      varintValue (List.replicate 10 0x80 ++ [0]) = 0 ∧
      ¬ReadsExactly (List.replicate 10 0x80 ++ [0]) := by
  refine ⟨⟨by decide, by decide, fun h => ?_⟩, by decide, by decide, fun h => ?_⟩
  · have hfits := (readsExactly_append_iff (show IsVarint (List.replicate 9 0x80 ++ [2]) by decide) []).1
      (by rwa [List.append_nil])
    exact absurd (hfits.1 (by decide)) (by decide)
  · have hfits := (readsExactly_append_iff (show IsVarint (List.replicate 10 0x80 ++ [0]) by decide) []).1
      (by rwa [List.append_nil])
    exact absurd (hfits.2 (by decide)) (by decide)

end BitcoinPir
