import Mathlib

/-!
# Numbered streams

A sender numbers what it sends; a receiver has a cursor and takes only the item with the
cursor's number, after which the cursor moves on. `Stream` is the invariant of the two: what was
taken is a subsequence of what was sent (`Stream.sublist`), and a prefix of it as long as the
cursor never moved without an item being taken (`Stream.isPrefix`).
-/

namespace Foundations

variable {α : Type*}

/-- The items sent and taken, each with its number, and the next number on either side. -/
structure Stream (sent got : List (ℕ × α)) (nextSend cursor : ℕ) : Prop where
  sent_sorted : sent.Pairwise fun x y => x.1 < y.1
  sent_lt : ∀ x ∈ sent, x.1 < nextSend
  got_sorted : got.Pairwise fun x y => x.1 < y.1
  got_lt : ∀ x ∈ got, x.1 < cursor
  got_sent : got ⊆ sent

namespace Stream

theorem init : Stream ([] : List (ℕ × α)) [] 0 0 :=
  ⟨.nil, by simp, .nil, by simp, List.Subset.refl _⟩

variable {sent got : List (ℕ × α)} {nextSend cursor : ℕ}

theorem pairwise_concat {l : List (ℕ × α)} {n : ℕ} (h : l.Pairwise fun x y => x.1 < y.1)
    (hlt : ∀ x ∈ l, x.1 < n) (a : α) : (l ++ [(n, a)]).Pairwise fun x y => x.1 < y.1 := by
  rw [List.pairwise_append]
  refine ⟨h, List.pairwise_singleton .., fun x hx y hy => ?_⟩
  rw [List.mem_singleton.1 hy]
  exact hlt x hx

theorem forall_mem_concat_lt {l : List (ℕ × α)} {n : ℕ} (hlt : ∀ x ∈ l, x.1 < n) (a : α) :
    ∀ x ∈ l ++ [(n, a)], x.1 < n + 1 := by
  intro x hx
  rcases List.mem_append.1 hx with hx | hx
  · exact (hlt x hx).trans (Nat.lt_succ_self n)
  · rw [List.mem_singleton.1 hx]
    exact Nat.lt_succ_self n

theorem le_fst_getElem {l : List (ℕ × α)} (h : l.Pairwise fun x y => x.1 < y.1) {i : ℕ}
    (hi : i < l.length) : i ≤ l[i].1 := by
  induction i with
  | zero => exact Nat.zero_le _
  | succ i ih =>
    have hlt := List.pairwise_iff_getElem.1 h i (i + 1) (by omega) hi (Nat.lt_succ_self i)
    have := ih (by omega)
    omega

variable (h : Stream sent got nextSend cursor)

include h

/-- The sender sends an item. -/
theorem send (a : α) : Stream (sent ++ [(nextSend, a)]) got (nextSend + 1) cursor where
  sent_sorted := pairwise_concat h.sent_sorted h.sent_lt a
  sent_lt := forall_mem_concat_lt h.sent_lt a
  got_sorted := h.got_sorted
  got_lt := h.got_lt
  got_sent := List.Subset.trans h.got_sent (List.subset_append_left ..)

/-- The sender uses up a number without sending. -/
theorem lose : Stream sent got (nextSend + 1) cursor where
  sent_sorted := h.sent_sorted
  sent_lt x hx := (h.sent_lt x hx).trans (Nat.lt_succ_self _)
  got_sorted := h.got_sorted
  got_lt := h.got_lt
  got_sent := h.got_sent

/-- The receiver takes the item with the cursor's number. -/
theorem take {a : α} (ha : (cursor, a) ∈ sent) :
    Stream sent (got ++ [(cursor, a)]) nextSend (cursor + 1) where
  sent_sorted := h.sent_sorted
  sent_lt := h.sent_lt
  got_sorted := pairwise_concat h.got_sorted h.got_lt a
  got_lt := forall_mem_concat_lt h.got_lt a
  got_sent := List.append_subset.2 ⟨h.got_sent, by simpa using ha⟩

/-- The receiver's cursor moves on without an item. -/
theorem skip : Stream sent got nextSend (cursor + 1) where
  sent_sorted := h.sent_sorted
  sent_lt := h.sent_lt
  got_sorted := h.got_sorted
  got_lt x hx := (h.got_lt x hx).trans (Nat.lt_succ_self _)
  got_sent := h.got_sent

/-- **What was taken is a subsequence** of what was sent. -/
theorem sublist : got.Sublist sent := by
  have hnodup : got.Nodup := h.got_sorted.imp fun hlt heq => absurd (congrArg Prod.fst heq) hlt.ne
  exact List.sublist_of_subperm_of_pairwise (List.subperm_of_subset hnodup h.got_sent)
    h.got_sorted h.sent_sorted

/-- If as many items were taken as the cursor has moved, the numbers taken leave no gap. -/
theorem fst_getElem_got (hlen : got.length = cursor) {i : ℕ} (hi : i < got.length) :
    got[i].1 = i := by
  -- going down from the last item, whose number is below the cursor
  have hup : ∀ m, (hm : i + m < got.length) → got[i].1 + m ≤ got[i + m].1 := by
    intro m
    induction m with
    | zero => intro hm; exact le_rfl
    | succ m ih =>
      intro hm
      have hlt := List.pairwise_iff_getElem.1 h.got_sorted (i + m) (i + m + 1) (by omega) hm
      have := ih (by omega)
      change got[i].1 + (m + 1) ≤ got[i + m + 1].1
      omega
  have hlast := hup (got.length - 1 - i) (by omega)
  have hbound := h.got_lt _ (List.getElem_mem (by omega : i + (got.length - 1 - i) < got.length))
  have := le_fst_getElem h.got_sorted hi
  omega

/-- **Without a gap, what was taken is a prefix** of what was sent. -/
theorem isPrefix (hlen : got.length = cursor) : got <+: sent := by
  obtain ⟨f, hf⟩ := List.sublist_iff_exists_orderEmbedding_getElem?_eq.1 h.sublist
  rw [List.prefix_iff_getElem?]
  intro i hi
  have hget : sent[f i]? = some got[i] := by rw [← hf i, List.getElem?_eq_getElem hi]
  obtain ⟨hlt, hval⟩ := List.getElem?_eq_some_iff.1 hget
  -- the number of an item bounds its position, from above among the sent ones
  have hle := le_fst_getElem h.sent_sorted hlt
  rw [hval, h.fst_getElem_got hlen hi] at hle
  have hge : i ≤ f i := f.strictMono.le_apply
  rwa [show f i = i by omega] at hget

end Stream

end Foundations
