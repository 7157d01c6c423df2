import Mathlib

/-!
# Data in blocks of one size

A list of blocks of `n` elements each is the list of their elements cut every `n` elements
(`Uniform.flatten_drop`, `Uniform.flatten_take`). Data that starts somewhere in a block and runs over
a number of consecutive blocks (`PlacedAt`) is found in those blocks alone
(`PlacedAt.prefix_blocks`), all of which exist (`PlacedAt.lt_length`).
-/

namespace Foundations

variable {α : Type*} {n : ℕ} {L : List (List α)}

/-- Every block has `n` elements. -/
def Uniform (n : ℕ) (L : List (List α)) : Prop := ∀ b ∈ L, b.length = n

theorem uniform_nil : Uniform n ([] : List (List α)) := fun _ hb => absurd hb List.not_mem_nil

theorem Uniform.concat (h : Uniform n L) {b : List α} (hb : b.length = n) :
    Uniform n (L ++ [b]) := by
  intro c hc
  rcases List.mem_append.1 hc with hc | hc
  · exact h c hc
  · rw [List.mem_singleton.1 hc]
    exact hb

theorem Uniform.map_length (h : Uniform n L) : L.map List.length = List.replicate L.length n :=
  List.map_eq_replicate_iff.2 h

theorem Uniform.length_flatten (h : Uniform n L) : L.flatten.length = L.length * n := by
  rw [List.length_flatten, h.map_length, List.sum_replicate, smul_eq_mul]

theorem Uniform.drop (h : Uniform n L) (i : ℕ) : Uniform n (L.drop i) :=
  fun b hb => h b (List.mem_of_mem_drop hb)

theorem Uniform.flatten_take (h : Uniform n L) (i : ℕ) :
    (L.take i).flatten = L.flatten.take (i * n) := by
  induction i generalizing L with
  | zero => simp
  | succ i ih =>
    cases L with
    | nil => simp
    | cons b L =>
      have hb : b.length = n := h b List.mem_cons_self
      have hi : (i + 1) * n = b.length + i * n := by rw [hb]; ring
      rw [List.take_succ_cons, List.flatten_cons, List.flatten_cons, hi, List.take_length_add_append,
        ih fun c hc => h c (List.mem_cons_of_mem _ hc)]

theorem Uniform.flatten_drop (h : Uniform n L) (i : ℕ) :
    (L.drop i).flatten = L.flatten.drop (i * n) := by
  induction i generalizing L with
  | zero => simp
  | succ i ih =>
    cases L with
    | nil => simp
    | cons b L =>
      have hb : b.length = n := h b List.mem_cons_self
      have hi : (i + 1) * n = b.length + i * n := by rw [hb]; ring
      rw [List.drop_succ_cons, List.flatten_cons, hi, List.drop_length_add_append,
        ih fun c hc => h c (List.mem_cons_of_mem _ hc)]

/-- The data starts at `offset` in block `first` and touches exactly `count` blocks. -/
structure PlacedAt (n : ℕ) (elements : List α) (first offset count : ℕ) (data : List α) : Prop where
  offset_lt : offset < n
  le_count : offset + data.length ≤ count * n
  lt_count : (count - 1) * n < offset + data.length
  data_prefix : data <+: elements.drop (first * n + offset)

namespace PlacedAt

variable {elements elements' data : List α} {first offset count : ℕ}

/-- What follows does not matter. -/
theorem mono (h : PlacedAt n elements first offset count data) (hp : elements <+: elements') :
    PlacedAt n elements' first offset count data :=
  ⟨h.offset_lt, h.le_count, h.lt_count, h.data_prefix.trans (hp.drop _)⟩

variable (h : PlacedAt n L.flatten first offset count data) (hL : Uniform n L)

include h hL

theorem lt_length (hdata : data ≠ []) {i : ℕ} (hi : i < count) : first + i < L.length := by
  have hlen := h.data_prefix.length_le
  rw [List.length_drop, hL.length_flatten] at hlen
  have hpos := List.length_pos_iff.2 hdata
  have hlast := h.lt_count
  have hend : (first + (count - 1)) * n < L.length * n := by
    rw [add_mul]
    omega
  have hlt := Nat.lt_of_mul_lt_mul_right hend
  omega

theorem prefix_blocks : data <+: ((L.drop first).take count).flatten.drop offset := by
  rw [(hL.drop first).flatten_take, hL.flatten_drop, List.drop_take, List.drop_drop,
    List.prefix_take_iff]
  exact ⟨h.data_prefix, by have := h.le_count; omega⟩

end PlacedAt

end Foundations
