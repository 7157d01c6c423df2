import BitcoinPir.Foundations.Bytes

/-!
# Variable-length integers

Unsigned LEB128: seven bits per byte, lowest first, the top bit set on all bytes but the last.
-/

namespace BitcoinPir

open Foundations

inductive VarintError
  | tooLarge
  | truncated
  deriving DecidableEq

/-- The debug form of an error. -/
def VarintError.debug : VarintError → String
  | .tooLarge => "TooLarge"
  | .truncated => "Truncated"

def VarintError.text : VarintError → String
  | .tooLarge => "varint exceeds 64 bits"
  | .truncated => "data ended mid-varint"

/-- Read on with the bits `result` below position `shift` known. -/
def readVarintFrom (result : UInt64) (shift : ℕ) : Bytes → Except VarintError (UInt64 × Bytes)
  | [] => .error .truncated
  | byte :: rest =>
    let result := result ||| ((byte &&& 0x7f).toUInt64 <<< UInt64.ofNat shift)
    if byte &&& 0x80 = 0 then .ok (result, rest)
    else if 64 ≤ shift + 7 then .error .tooLarge
    else readVarintFrom result (shift + 7) rest

/-- Read a number; returns the bytes after it. -/
def tryReadVarint (data : Bytes) : Except VarintError (UInt64 × Bytes) := readVarintFrom 0 0 data

/-- A 64-bit number has at most ten groups of seven bits. -/
def writeVarintFrom : ℕ → UInt64 → Bytes
  | 0, _ => []
  | fuel + 1, value =>
    let byte := (value &&& 0x7f).toUInt8
    let value := value >>> 7
    if value = 0 then [byte] else (byte ||| 0x80) :: writeVarintFrom fuel value

def writeVarint (value : UInt64) : Bytes := writeVarintFrom 10 value

theorem toNat_low_byte (v : UInt64) : (v &&& 0x7f).toUInt8.toNat = v.toNat % 128 := by
  change (v.toNat &&& (2 ^ 7 - 1)) % 256 = v.toNat % 128
  rw [Nat.and_two_pow_sub_one_eq_mod]
  omega

theorem toNat_high (v : UInt64) : (v >>> 7).toNat = v.toNat / 128 := by
  simp [Nat.shiftRight_eq_div_pow]

theorem toNat_top (v : UInt64) : ((v &&& 0x7f).toUInt8 ||| 0x80).toNat = v.toNat % 128 + 128 := by
  have hbits : ∀ y < 128, y ||| 128 = y + 128 := by decide
  rw [UInt8.toNat_or, toNat_low_byte]
  exact hbits _ (Nat.mod_lt _ (by decide))

end BitcoinPir
