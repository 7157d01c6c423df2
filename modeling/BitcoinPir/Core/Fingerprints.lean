import BitcoinPir.Core.Hash

/-!
# Seeds and script hashes

The three words of a script hash are combined by exclusive or before anything is mixed, and the seed
with them. A tag and a cuckoo bin therefore depend on the combination `foldWords` alone. Two script
hashes with one combination collide whatever the seeds; of two others, the tags differ under every
seed (`separated_iff`). Which pairs have equal tags is thus settled before any block is known.
-/

namespace BitcoinPir

open Foundations

/-- The words of a script hash, combined. -/
def foldWords (scriptHash : ScriptHash) : UInt64 :=
  shA scriptHash ^^^ shB scriptHash ^^^ shC scriptHash

theorem computeTag_eq (tagSeed : UInt64) (scriptHash : ScriptHash) :
    computeTag tagSeed scriptHash = splitmix64 (tagSeed ^^^ foldWords scriptHash) := by
  unfold computeTag foldWords
  dsimp only
  rw [UInt64.xor_comm (shA scriptHash) tagSeed, UInt64.xor_assoc, UInt64.xor_assoc,
    UInt64.xor_assoc]

theorem cuckooHash_eq (scriptHash : ScriptHash) (key : UInt64) (numBins : ℕ) :
    cuckooHash scriptHash key numBins =
      (splitmix64 (key ^^^ foldWords scriptHash)).toNat % numBins := by
  unfold cuckooHash foldWords
  dsimp only
  rw [UInt64.xor_comm (shA scriptHash) key, UInt64.xor_assoc, UInt64.xor_assoc, UInt64.xor_assoc]

theorem computeTag_eq_iff (tagSeed : UInt64) (h₁ h₂ : ScriptHash) :
    computeTag tagSeed h₁ = computeTag tagSeed h₂ ↔ foldWords h₁ = foldWords h₂ := by
  rw [computeTag_eq, computeTag_eq, splitmix64_injective.eq_iff, UInt64.xor_right_inj]

/-- **Which script hashes a seed can separate**: those whose combined words differ. The others have
one tag under every seed, and one bin under every key. -/
theorem separated_iff (h₁ h₂ : ScriptHash) :
    ((∃ tagSeed, computeTag tagSeed h₁ ≠ computeTag tagSeed h₂) ↔ foldWords h₁ ≠ foldWords h₂) ∧
      (foldWords h₁ = foldWords h₂ → ∀ masterSeed group hashFn numBins,
        cuckooHash h₁ (deriveCuckooKey masterSeed group hashFn) numBins =
          cuckooHash h₂ (deriveCuckooKey masterSeed group hashFn) numBins) := by
  constructor
  · constructor
    · rintro ⟨tagSeed, hne⟩
      exact mt (computeTag_eq_iff tagSeed h₁ h₂).2 hne
    · exact fun hne => ⟨0, mt (computeTag_eq_iff 0 h₁ h₂).1 hne⟩
  · intro h masterSeed group hashFn numBins
    rw [cuckooHash_eq, cuckooHash_eq, h]

theorem length_word (w : UInt8) :
    (w :: (List.replicate 7 0 ++ w :: List.replicate 11 0)).length = 20 := rfl

/-- The byte `w` in the first and in the second word: the combined words are zero. -/
def cancelling (w : UInt8) : ScriptHash :=
  ⟨w :: (List.replicate 7 0 ++ w :: List.replicate 11 0), length_word w⟩

/-- Two script hashes that no seed tells apart, neither by tag nor by bin. -/
theorem cancelling_collide :
    cancelling 1 ≠ cancelling 2 ∧
      (∀ tagSeed, computeTag tagSeed (cancelling 1) = computeTag tagSeed (cancelling 2)) ∧
      ∀ masterSeed group hashFn numBins,
        cuckooHash (cancelling 1) (deriveCuckooKey masterSeed group hashFn) numBins =
          cuckooHash (cancelling 2) (deriveCuckooKey masterSeed group hashFn) numBins := by
  have hfold : foldWords (cancelling 1) = foldWords (cancelling 2) := by decide
  refine ⟨by decide, fun tagSeed => (computeTag_eq_iff tagSeed _ _).2 hfold, ?_⟩
  intro masterSeed group hashFn numBins
  rw [cuckooHash_eq, cuckooHash_eq, hfold]

end BitcoinPir
