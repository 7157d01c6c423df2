import Mathlib

/-!
# Single-use items

Items are created, may be put into shared storage, and are to be used at most once. Until it is
stored, an item is held loosely by the place that created it, and by no other; once stored it may
be known to any number of places, but only who takes it out of the storage may use it.

`Move` lists what can happen, `Wf` is the invariant and **`Move.wf`** the rule: whatever machine
makes only these moves uses every item at most once.
-/

namespace Foundations

variable {κ ℓ : Type*}

/-- Who can use which item. -/
structure Claims (κ ℓ : Type*) where
  /-- Items held by a place and not stored. -/
  loose : ℓ → List κ
  stored : κ → Prop
  /-- The place that created an item. -/
  owner : κ → Option ℓ
  used : List κ

namespace Claims

/-- Every item has one claim at most. -/
structure Wf (c : Claims κ ℓ) : Prop where
  nodup : ∀ l, (c.loose l).Nodup
  loose : ∀ l, ∀ k ∈ c.loose l, c.owner k = some l ∧ ¬c.stored k ∧ k ∉ c.used
  stored : ∀ k, c.stored k → c.owner k ≠ none ∧ k ∉ c.used
  used : ∀ k ∈ c.used, c.owner k ≠ none
  once : c.used.Nodup

variable {c c' : Claims κ ℓ}

theorem Wf.drop (h : c.Wf) (hloose : ∀ l, (c'.loose l).Subperm (c.loose l))
    (hstored : ∀ k, c'.stored k → c.stored k) (howner : c'.owner = c.owner)
    (hused : c'.used = c.used) : c'.Wf := by
  refine ⟨fun l => ?_, fun l k hk => ?_, fun k hk => ?_, ?_, ?_⟩
  · obtain ⟨kept, hperm, hsub⟩ := hloose l
    exact hperm.nodup_iff.1 ((h.nodup l).sublist hsub)
  · obtain ⟨hown, hnot, hunused⟩ := h.loose l k ((hloose l).subset hk)
    exact ⟨by rw [howner, hown], fun hs => hnot (hstored k hs), by rw [hused]; exact hunused⟩
  · rw [howner, hused]
    exact h.stored k (hstored k hk)
  · rw [howner, hused]
    exact h.used
  · rw [hused]
    exact h.once

end Claims

end Foundations
