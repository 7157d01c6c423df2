import BitcoinPir.Foundations.HashTree
import BitcoinPir.Foundations.Bytes

/-!
# Hashes and tree levels

The hash functions of the core crate. `sha256` is the crate's own SHA-256; everything built on
it takes the hash as a parameter `H`, so that results hold for any function in its place and
`sha256` is one instance.

* `computeBinLeafHash` hashes a bin index followed by the bin's bytes, `computeParentN` hashes
  the concatenation of child hashes.
* `buildLevels` is the loop both database builders use to make a tree bottom-up; it is the tree
  of `Foundations.HashTree` at these hashes (`buildLevels_eq_levels`).
-/

namespace BitcoinPir

open Foundations HashTree

/-- A 32-byte SHA-256 hash. -/
abbrev Hash256 := Digest 32

/-- The hash used for padding. -/
def zeroHash : Hash256 := Digest.zero 32

/-! ## SHA-256 -/

namespace Sha256

def roundConstants : List UInt32 := [
  0x428a2f98, 0x71374491, 0xb5c0fbcf, 0xe9b5dba5, 0x3956c25b, 0x59f111f1, 0x923f82a4,
  0xab1c5ed5, 0xd807aa98, 0x12835b01, 0x243185be, 0x550c7dc3, 0x72be5d74, 0x80deb1fe,
  0x9bdc06a7, 0xc19bf174, 0xe49b69c1, 0xefbe4786, 0x0fc19dc6, 0x240ca1cc, 0x2de92c6f,
  0x4a7484aa, 0x5cb0a9dc, 0x76f988da, 0x983e5152, 0xa831c66d, 0xb00327c8, 0xbf597fc7,
  0xc6e00bf3, 0xd5a79147, 0x06ca6351, 0x14292967, 0x27b70a85, 0x2e1b2138, 0x4d2c6dfc,
  0x53380d13, 0x650a7354, 0x766a0abb, 0x81c2c92e, 0x92722c85, 0xa2bfe8a1, 0xa81a664b,
  0xc24b8b70, 0xc76c51a3, 0xd192e819, 0xd6990624, 0xf40e3585, 0x106aa070, 0x19a4c116,
  0x1e376c08, 0x2748774c, 0x34b0bcb5, 0x391c0cb3, 0x4ed8aa4a, 0x5b9cca4f, 0x682e6ff3,
  0x748f82ee, 0x78a5636f, 0x84c87814, 0x8cc70208, 0x90befffa, 0xa4506ceb, 0xbef9a3f7,
  0xc67178f2]

/-- The eight working words. -/
structure State where
  a : UInt32
  b : UInt32
  c : UInt32
  d : UInt32
  e : UInt32
  f : UInt32
  g : UInt32
  h : UInt32

/-- The initial hash value. -/
def init : State :=
  ⟨0x6a09e667, 0xbb67ae85, 0x3c6ef372, 0xa54ff53a, 0x510e527f, 0x9b05688c, 0x1f83d9ab,
    0x5be0cd19⟩

def rotateRight (x n : UInt32) : UInt32 := (x >>> n) ||| (x <<< (32 - n))

def ofBeBytes (a b c d : UInt8) : UInt32 :=
  (a.toUInt32 <<< 24) ||| (b.toUInt32 <<< 16) ||| (c.toUInt32 <<< 8) ||| d.toUInt32

def toBeBytes (x : UInt32) : Bytes :=
  [(x >>> 24).toUInt8, (x >>> 16).toUInt8, (x >>> 8).toUInt8, x.toUInt8]

/-- The big-endian words of a block. -/
def words : Bytes → List UInt32
  | a :: b :: c :: d :: rest => ofBeBytes a b c d :: words rest
  | _ => []

/-- Extend the message schedule by `n` words; the list holds the latest word first. -/
def schedule : ℕ → List UInt32 → List UInt32
  | 0, w => w
  | n + 1, w =>
    let w15 := w.getD 14 0
    let w2 := w.getD 1 0
    let s0 := rotateRight w15 7 ^^^ rotateRight w15 18 ^^^ (w15 >>> 3)
    let s1 := rotateRight w2 17 ^^^ rotateRight w2 19 ^^^ (w2 >>> 10)
    schedule n ((w.getD 15 0 + s0 + w.getD 6 0 + s1) :: w)

/-- One round with its constant and schedule word. -/
def round (s : State) (kw : UInt32 × UInt32) : State :=
  let s1 := rotateRight s.e 6 ^^^ rotateRight s.e 11 ^^^ rotateRight s.e 25
  let ch := (s.e &&& s.f) ^^^ ((~~~ s.e) &&& s.g)
  let temp1 := s.h + s1 + ch + kw.1 + kw.2
  let s0 := rotateRight s.a 2 ^^^ rotateRight s.a 13 ^^^ rotateRight s.a 22
  let maj := (s.a &&& s.b) ^^^ (s.a &&& s.c) ^^^ (s.b &&& s.c)
  ⟨temp1 + (s0 + maj), s.a, s.b, s.c, s.d + temp1, s.e, s.f, s.g⟩

/-- Process one 64-byte block. -/
def compress (s : State) (block : Bytes) : State :=
  let w := (schedule 48 (words block).reverse).reverse
  let t := (roundConstants.zip w).foldl round s
  ⟨s.a + t.a, s.b + t.b, s.c + t.c, s.d + t.d, s.e + t.e, s.f + t.f, s.g + t.g, s.h + t.h⟩

/-- The message, a one bit, zeros up to 56 bytes modulo 64, and the bit length. -/
def pad (data : Bytes) : Bytes :=
  data ++ 0x80 :: (List.replicate ((119 - data.length % 64) % 64) 0 ++
    (leBytes 8 (data.length * 8)).reverse)

/-- The first `n` blocks of 64 bytes. -/
def blocks : ℕ → Bytes → List Bytes
  | 0, _ => []
  | n + 1, b => b.take 64 :: blocks n (b.drop 64)

def output (s : State) : Bytes :=
  toBeBytes s.a ++ toBeBytes s.b ++ toBeBytes s.c ++ toBeBytes s.d ++ toBeBytes s.e ++
    toBeBytes s.f ++ toBeBytes s.g ++ toBeBytes s.h

end Sha256

/-- SHA-256. -/
def sha256 (data : Bytes) : Hash256 :=
  let padded := Sha256.pad data
  ⟨Sha256.output ((Sha256.blocks (padded.length / 64) padded).foldl Sha256.compress Sha256.init),
    rfl⟩

-- the published test vector for the three bytes `abc`
example : (sha256 [0x61, 0x62, 0x63]).val.take 4 = [0xba, 0x78, 0x16, 0xbf] := by decide +kernel

/-! ## Leaf and node hashes -/

section Hashes

variable (H : Bytes → Hash256)

/-- What a bin's leaf hash is taken of: the bin index as four little-endian bytes, then the
bin. -/
def binLeafPreimage (binIndex : ℕ) (binContent : Bytes) : Bytes := leBytes 4 binIndex ++ binContent

def computeBinLeafHash (binIndex : ℕ) (binContent : Bytes) : Hash256 :=
  H (binLeafPreimage binIndex binContent)

def computeParentN (children : List Hash256) : Hash256 := H (Digest.concat children)

/-! ## Levels -/

/-- The level above `prev`: groups of `arity` hashes, the last one padded with the zero hash. -/
def nextLevel (arity : ℕ) (prev : List Hash256) : List Hash256 :=
  (List.range (prev.length ⌈/⌉ arity)).map fun i =>
    let start := i * arity
    let stop := min (start + arity) prev.length
    let children := (prev.drop start).take (stop - start)
    computeParentN H (children ++ List.replicate (arity - children.length) zeroHash)

/-- The loop of the builders: push levels until one has at most one hash. A level is shorter
than the one below it, so `fuel` may be the number of leaves. -/
def buildLevels (arity : ℕ) : ℕ → List Hash256 → List (List Hash256)
  | 0, level => [level]
  | fuel + 1, level =>
    if level.length ≤ 1 then [level]
    else level :: buildLevels arity fuel (nextLevel H arity level)

theorem slice_append_replicate (arity : ℕ) (prev : List Hash256) {i : ℕ}
    (hi : i * arity < prev.length) :
    (prev.drop (i * arity)).take (min (i * arity + arity) prev.length - i * arity) ++
      List.replicate (arity - ((prev.drop (i * arity)).take
        (min (i * arity + arity) prev.length - i * arity)).length) zeroHash =
      siblings zeroHash arity prev i := by
  have hlen : ((prev.drop (i * arity)).take
      (min (i * arity + arity) prev.length - i * arity)).length =
      min (i * arity + arity) prev.length - i * arity := by
    rw [List.length_take, List.length_drop]
    omega
  apply List.ext_getElem
  · rw [List.length_append, List.length_replicate, length_siblings]
    omega
  intro c h₁ h₂
  rw [length_siblings] at h₂
  simp only [siblings, List.getElem_map, List.getElem_range]
  by_cases hc : i * arity + c < prev.length
  · rw [List.getElem_append_left (by rw [hlen]; omega), List.getElem_take, List.getElem_drop,
      List.getD_eq_getElem _ _ hc]
  · rw [List.getElem_append_right (by rw [hlen]; omega), List.getElem_replicate,
      List.getD_eq_default _ _ (by omega)]

theorem nextLevel_eq_parents {arity : ℕ} (harity : 0 < arity) (prev : List Hash256) :
    nextLevel H arity prev = parents H Digest.concat zeroHash arity prev := by
  rw [parents, levelMessages, List.map_map]
  apply List.map_congr_left
  intro i hi
  rw [List.mem_range, lt_ceilDiv_iff harity] at hi
  simp only [slice_append_replicate arity prev hi, computeParentN, Function.comp_apply]

theorem buildLevels_eq_levels {arity : ℕ} (harity : 0 < arity) (leaves : List Hash256) :
    buildLevels H arity leaves.length leaves =
      levels H Digest.concat zeroHash arity leaves := by
  rw [levels]
  generalize leaves.length = fuel
  induction fuel generalizing leaves with
  | zero => rfl
  | succ fuel ih => rw [buildLevels, levelsAux, nextLevel_eq_parents H harity, ih]

end Hashes

/-- Groups of one size with the same bytes are the same group. -/
theorem concat_inj_of_length (arity : ℕ) (a b : List Hash256) (ha : a.length = arity)
    (hb : b.length = arity) (h : Digest.concat a = Digest.concat b) : a = b :=
  Digest.concat_inj (ha.trans hb.symm) h

end BitcoinPir
