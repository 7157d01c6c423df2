import Mathlib

/-!
# Updates of a list, tables, and maps that can fail

A run of updates changes each position by the updates addressed to it, in order
(`getElem?_foldl_modify`). If one element alone contributes to a `filterMap` or a `flatMap`, the
result is its contribution (`filterMap_eq_of_unique`, `flatMap_zipIdx_eq_of_unique`); together they
say what a scatter of per-round updates does. Maps that can fail succeed element by element
(`mapM_eq_some`), and related lists are related position by position (`rel_of_getElem?`).
-/

namespace Foundations

variable {α β : Type*}

/-- A position sees exactly the updates addressed to it. -/
theorem getElem?_foldl_modify (us : List (ℕ × (α → α))) (st : List α) (i : ℕ) :
    (us.foldl (fun st u => st.modify u.1 u.2) st)[i]? =
      (st[i]?).map fun a => (us.filter fun u => u.1 = i).foldl (fun a u => u.2 a) a := by
  induction us generalizing st with
  | nil => simp
  | cons u us ih =>
    rw [List.foldl_cons, ih]
    by_cases h : u.1 = i
    · simp [h, Function.comp_def]
    · simp [h]

variable {l : List α} {a : α} {f : α → Option β} {b : β} {l' : List β}

/-- One element of a duplicate-free list contributes, the others do not. -/
theorem filterMap_eq_of_unique (hl : l.Nodup) (ha : a ∈ l) (hf : ∀ b ∈ l, b ≠ a → f b = none) :
    l.filterMap f = (f a).toList := by
  induction l with
  | nil => simp at ha
  | cons b l ih =>
    obtain ⟨hb, hl⟩ := List.nodup_cons.1 hl
    rcases List.mem_cons.1 ha with rfl | ha
    · have hrest : l.filterMap f = [] := by
        apply List.filterMap_eq_nil_iff.2
        intro c hc
        exact hf c (List.mem_cons_of_mem _ hc) fun h => hb (h ▸ hc)
      cases h : f a <;> simp [h, hrest]
    · have hne : b ≠ a := fun h => hb (h ▸ ha)
      rw [List.filterMap_cons, hf b List.mem_cons_self hne]
      exact ih hl ha fun c hc => hf c (List.mem_cons_of_mem _ hc)

/-- One position of a list contributes, the others do not. -/
theorem flatMap_zipIdx_eq_of_unique (l : List α) {n p : ℕ} (hp : p < l.length)
    {f : α × ℕ → List β} (hf : ∀ a q, q ≠ n + p → f (a, q) = []) :
    (l.zipIdx n).flatMap f = f (l[p], n + p) := by
  induction l generalizing n p with
  | nil => simp at hp
  | cons a l ih =>
    rw [List.zipIdx_cons, List.flatMap_cons]
    cases p with
    | zero =>
      have hrest : (l.zipIdx (n + 1)).flatMap f = [] := by
        apply List.flatMap_eq_nil_iff.2
        rintro ⟨b, q⟩ hb
        have := List.mem_zipIdx hb
        exact hf b q (by omega)
      rw [hrest, List.append_nil]
      rfl
    | succ p =>
      rw [hf a n (by omega), List.nil_append, List.getElem_cons_succ,
        ih (by simpa using hp) fun b q hq => hf b q (by omega)]
      rw [Nat.add_right_comm, Nat.add_assoc]

/-- Looking up a key in a table filled key by key. -/
theorem lookup_filterMap_map [DecidableEq α] (l : List α) (f : α → Option β) (a : α) :
    (l.filterMap fun b => (f b).map fun c => (b, c)).lookup a = if a ∈ l then f a else none := by
  induction l with
  | nil => simp
  | cons b l ih =>
    by_cases hab : a = b
    · subst hab
      cases hf : f a with
      | none => simp [hf, ih]
      | some c => simp [hf]
    · cases hf : f b with
      | none => simp [hf, ih, hab]
      | some c => simp [hf, ih, hab, List.lookup_cons, beq_eq_false_iff_ne.2 hab]

/-- In a table without repeated keys every entry is found. -/
theorem lookup_eq_some_of_mem [BEq α] [LawfulBEq α] {l : List (α × β)} (hl : (l.map Prod.fst).Nodup)
    (h : (a, b) ∈ l) : l.lookup a = some b := by
  induction l with
  | nil => cases h
  | cons e l ih =>
    obtain ⟨a', b'⟩ := e
    obtain ⟨ha', hl⟩ := List.nodup_cons.1 hl
    rcases List.mem_cons.1 h with heq | hmem
    · cases heq
      simp
    · have hne : a ≠ a' := by
        rintro rfl
        exact ha' (List.mem_map.2 ⟨_, hmem, rfl⟩)
      rw [List.lookup_cons, beq_eq_false_iff_ne.2 hne]
      exact ih hl hmem

theorem mem_of_lookup_eq_some [BEq α] [LawfulBEq α] {l : List (α × β)} (h : l.lookup a = some b) :
    (a, b) ∈ l := by
  induction l with
  | nil => simp at h
  | cons e l ih =>
    obtain ⟨a', b'⟩ := e
    by_cases hab : a = a'
    · subst hab
      simp only [List.lookup_cons, beq_self_eq_true] at h
      cases h
      exact List.mem_cons_self
    · rw [List.lookup_cons, beq_eq_false_iff_ne.2 hab] at h
      exact List.mem_cons_of_mem _ (ih h)

theorem mapM_eq_some :
    l.mapM f = some l' ↔ List.Forall₂ (fun a b => f a = some b) l l' := by
  induction l generalizing l' with
  | nil =>
    cases l' with
    | nil => simp
    | cons b l' => simp
  | cons a l ih =>
    rw [List.mapM_cons]
    simp only [bind, Option.bind_eq_some_iff, pure, Option.some_inj]
    constructor
    · rintro ⟨b, hb, bs, hbs, rfl⟩
      exact .cons hb (ih.1 hbs)
    · intro h
      cases h with
      | cons hb hbs => exact ⟨_, hb, _, ih.2 hbs, rfl⟩

theorem exists_mapM_eq_some (h : ∀ a ∈ l, ∃ b, f a = some b) :
    ∃ l', l.mapM f = some l' := by
  induction l with
  | nil => exact ⟨[], rfl⟩
  | cons a l ih =>
    obtain ⟨b, hb⟩ := h a List.mem_cons_self
    obtain ⟨bs, hbs⟩ := ih fun c hc => h c (List.mem_cons_of_mem _ hc)
    exact ⟨b :: bs, mapM_eq_some.2 (.cons hb (mapM_eq_some.1 hbs))⟩

theorem mapM_eq_some_map (f' : α → β) (h : ∀ a ∈ l, f a = some (f' a)) :
    l.mapM f = some (l.map f') := by
  rw [mapM_eq_some, List.forall₂_map_right_iff, List.forall₂_same]
  exact h

theorem getElem?_mapM (h : l.mapM f = some l') {i : ℕ} (ha : l[i]? = some a) :
    ∃ b, l'[i]? = some b ∧ f a = some b := by
  have hall := mapM_eq_some.1 h
  obtain ⟨hi, rfl⟩ := List.getElem?_eq_some_iff.1 ha
  have hi' : i < l'.length := hall.length_eq ▸ hi
  exact ⟨l'[i], List.getElem?_eq_getElem hi', hall.get hi hi'⟩

theorem filterMap_eq_of_mapM (h : l.mapM f = some l') : l.filterMap f = l' := by
  induction mapM_eq_some.1 h with
  | nil => rfl
  | cons hb hbs ih => rw [List.filterMap_cons_some hb, ih (mapM_eq_some.2 hbs)]

theorem length_mapM (h : l.mapM f = some l') :
    l'.length = l.length := (mapM_eq_some.1 h).length_eq.symm

/-- If every element contributes one value, positions are kept. -/
theorem getElem?_flatMap_of_length_one {f : α → List β} (h : ∀ a ∈ l, (f a).length = 1) {n : ℕ}
    (hb : (l.flatMap f)[n]? = some b) :
    ∃ a, l[n]? = some a ∧ f a = [b] := by
  induction l generalizing n with
  | nil => simp at hb
  | cons a l ih =>
    obtain ⟨c, hc⟩ := List.length_eq_one_iff.1 (h a List.mem_cons_self)
    rw [List.flatMap_cons, hc] at hb
    cases n with
    | zero => exact ⟨a, rfl, by rw [hc]; simpa using hb⟩
    | succ n => exact ih (fun a ha => h a (List.mem_cons_of_mem _ ha)) (by simpa using hb)

/-- The first value found is `v` if an element yields `v` and no element before it yields anything
else. -/
theorem findSome?_eq_some_of_getElem? {v : β} {s : ℕ} (hget : l[s]? = some a) (ha : f a = some v)
    (hbefore : ∀ r < s, ∀ c, l[r]? = some c → f c = none ∨ f c = some v) :
    l.findSome? f = some v := by
  induction l generalizing s with
  | nil => simp at hget
  | cons c l ih =>
    cases s with
    | zero =>
      obtain rfl : c = a := by simpa using hget
      rw [List.findSome?_cons, ha]
    | succ s =>
      rw [List.findSome?_cons]
      rcases hbefore 0 (by omega) c rfl with hc | hc
      · rw [hc]
        exact ih (by simpa using hget) fun r hr d hd =>
          hbefore (r + 1) (by omega) d (by simpa using hd)
      · rw [hc]

/-- Nothing but `v` is found if no element yields anything else. -/
theorem findSome?_eq_none_or {v : β} (h : ∀ a ∈ l, f a = none ∨ f a = some v) :
    l.findSome? f = none ∨ l.findSome? f = some v := by
  cases hfind : l.findSome? f with
  | none => exact .inl rfl
  | some u =>
    obtain ⟨a, ha, hu⟩ := List.exists_of_findSome?_eq_some hfind
    rcases h a ha with hn | hv
    · rw [hn] at hu
      cases hu
    · exact .inr (hu.symm.trans hv)

theorem findSome?_congr {g : α → Option β} (h : ∀ a ∈ l, f a = g a) :
    l.findSome? f = l.findSome? g := by
  induction l with
  | nil => rfl
  | cons a l ih =>
    rw [List.findSome?_cons, List.findSome?_cons, h a List.mem_cons_self,
      ih fun b hb => h b (List.mem_cons_of_mem _ hb)]

theorem rel_of_getElem? {R : α → β → Prop} (h : List.Forall₂ R l l') {i : ℕ} (ha : l[i]? = some a)
    (hb : l'[i]? = some b) : R a b := by
  obtain ⟨hi, rfl⟩ := List.getElem?_eq_some_iff.1 ha
  obtain ⟨hi', rfl⟩ := List.getElem?_eq_some_iff.1 hb
  exact h.get hi hi'

theorem exists_rel_of_mem {R : α → β → Prop} (h : List.Forall₂ R l l') (hb : b ∈ l') :
    ∃ a ∈ l, R a b := by
  obtain ⟨i, hi, rfl⟩ := List.getElem_of_mem hb
  have hi' : i < l.length := h.length_eq ▸ hi
  exact ⟨l[i], List.getElem_mem hi', h.get hi' hi⟩

/-! ## Pieces of bounded length -/

theorem range_eq_append {a b : ℕ} (h : a ≤ b) :
    List.range b = List.range a ++ List.range' a (b - a) := by
  have happend : List.range' 0 a ++ List.range' (0 + a) (b - a) = List.range' 0 (a + (b - a)) :=
    List.range'_append_1
  rw [Nat.zero_add, Nat.add_sub_cancel' h] at happend
  rw [List.range_eq_range', List.range_eq_range', happend]

/-- Consecutive pieces of `n` elements, the last one possibly shorter. The first argument bounds
their number; the length of the list is enough. -/
def chunks (n : ℕ) : ℕ → List α → List (List α)
  | 0, _ => []
  | fuel + 1, l => if l.isEmpty then [] else l.take n :: chunks n fuel (l.drop n)

theorem flatten_chunks {n : ℕ} (hn : 0 < n) {fuel : ℕ} (h : l.length ≤ fuel) :
    (chunks n fuel l).flatten = l := by
  induction fuel generalizing l with
  | zero =>
    rw [List.length_eq_zero_iff.1 (Nat.le_zero.1 h)]
    rfl
  | succ fuel ih =>
    cases l with
    | nil => rfl
    | cons a l =>
      have hdrop : ((a :: l).drop n).length ≤ fuel := by
        rw [List.length_drop]
        omega
      rw [chunks, List.isEmpty_cons, if_neg Bool.false_ne_true, List.flatten_cons, ih hdrop,
        List.take_append_drop]

/-- What is appended to one of some lists is appended to their concatenation, up to order. -/
theorem flatten_modify_append {l : List (List α)} {i : ℕ} (hi : i < l.length) (xs : List α) :
    (l.modify i (· ++ xs)).flatten.Perm (l.flatten ++ xs) := by
  induction l generalizing i with
  | nil => exact absurd hi (Nat.not_lt_zero i)
  | cons a l ih =>
    cases i with
    | zero =>
      rw [List.modify_zero_cons, List.flatten_cons, List.flatten_cons, List.append_assoc,
        List.append_assoc]
      exact List.perm_append_comm.append_left a
    | succ i =>
      rw [List.modify_succ_cons, List.flatten_cons, List.flatten_cons, List.append_assoc]
      exact (ih (Nat.lt_of_succ_lt_succ hi)).append_left a

/-- A scatter of pieces over lists loses and invents nothing. -/
theorem flatten_foldl_modify_append (us : List (ℕ × List α)) (l : List (List α))
    (h : ∀ u ∈ us, u.1 < l.length) :
    (us.foldl (fun l u => l.modify u.1 (· ++ u.2)) l).flatten.Perm
      (l.flatten ++ us.flatMap Prod.snd) := by
  induction us generalizing l with
  | nil => simp
  | cons u us ih =>
    rw [List.flatMap_cons, ← List.append_assoc]
    refine (ih _ fun v hv => ?_).trans
      ((flatten_modify_append (h u List.mem_cons_self) u.2).append_right _)
    rw [List.length_modify]
    exact h v (List.mem_cons_of_mem u hv)

theorem flatMap_flatten (l : List (List α)) (f : α → List β) :
    l.flatten.flatMap f = l.flatMap fun as => as.flatMap f := by
  rw [List.flatten_eq_flatMap, List.flatMap_assoc]
  rfl

theorem length_flatMap_le {f : α → List β} {w : ℕ} (h : ∀ a ∈ l, (f a).length ≤ w) :
    (l.flatMap f).length ≤ l.length * w := by
  induction l with
  | nil => simp
  | cons a l ih =>
    have ha := h a List.mem_cons_self
    have hl := ih fun b hb => h b (List.mem_cons_of_mem _ hb)
    rw [List.flatMap_cons, List.length_append, List.length_cons, Nat.add_mul]
    omega

theorem count_flatMap_replicate [DecidableEq α] (n : ℕ) (l : List α) (a : α) :
    (l.flatMap fun b => List.replicate n b).count a = n * l.count a := by
  induction l with
  | nil => simp
  | cons b l ih =>
    rw [List.flatMap_cons, List.count_append, ih, List.count_replicate, List.count_cons,
      Nat.mul_add, Nat.add_comm]
    by_cases hab : b = a <;> simp [hab]

/-- Two elements with one image count twice. -/
theorem two_le_count_map [DecidableEq β] {f : α → β} {x y : α} (hne : x ≠ y) (hx : x ∈ l)
    (hy : y ∈ l) (hfx : f x = b) (hfy : f y = b) : 2 ≤ (l.map f).count b := by
  have hsub : [x, y] ⊆ l.filter fun a => f a == b := by
    simp [hx, hy, hfx, hfy]
  have hnodup : [x, y].Nodup := by simpa using hne
  have hle := (hnodup.subperm hsub).length_le
  rwa [List.count, List.countP_map, List.countP_eq_length_filter]

theorem length_le_of_mem_chunks {n fuel : ℕ} {c : List α} (h : c ∈ chunks n fuel l) :
    c.length ≤ n := by
  induction fuel generalizing l with
  | zero => cases h
  | succ fuel ih =>
    rw [chunks] at h
    split_ifs at h
    · cases h
    · rcases List.mem_cons.1 h with rfl | h
      · exact List.length_take_le ..
      · exact ih h

end Foundations
