import Mathlib

/-!
# Tables of slots

A table is a list of slots, each empty or holding an item. Cuckoo insertion of any flavour makes
two moves only: it puts an item into an empty slot, or it puts an item into an occupied slot and
takes out what was there. This module says what each move does

* to the items of the table (`items_set_free`, `items_set_full`),
* to a rule about which item may sit in which slot (`Placed`),
* to the slots that are occupied (`Occupied`).
-/

namespace Foundations

namespace Slots

variable {ι : Type*}

/-- The items of a table, in slot order. -/
def items (t : List (Option ι)) : List ι := t.reduceOption

@[simp] theorem items_cons_none (t : List (Option ι)) : items (none :: t) = items t :=
  List.reduceOption_cons_of_none t

@[simp] theorem items_cons_some (x : ι) (t : List (Option ι)) :
    items (some x :: t) = x :: items t := List.reduceOption_cons_of_some x t

@[simp] theorem items_replicate_none (n : ℕ) :
    items (List.replicate n (none : Option ι)) = [] := List.reduceOption_replicate_none

variable {t : List (Option ι)} {p : ℕ}

theorem mem_items {x : ι} : x ∈ items t ↔ ∃ p : ℕ, t[p]? = some (some x) := by
  rw [items, List.reduceOption_mem_iff, List.mem_iff_getElem?]

/-- Filling an empty slot adds the item. -/
theorem items_set_free (h : t[p]? = some none) (x : ι) :
    (items (t.set p (some x))).Perm (x :: items t) := by
  induction t generalizing p with
  | nil => simp at h
  | cons a t ih =>
    cases p with
    | zero =>
      obtain rfl : a = none := by simpa using h
      simp
    | succ p =>
      have hperm := ih (p := p) (by simpa using h)
      cases a with
      | none => simpa using hperm
      | some y =>
        exact (hperm.cons y).trans (List.Perm.swap x y _)

/-- Overwriting an occupied slot exchanges the item for the one that was there. -/
theorem items_set_full {y : ι} (h : t[p]? = some (some y)) (x : ι) :
    (y :: items (t.set p (some x))).Perm (x :: items t) := by
  induction t generalizing p with
  | nil => simp at h
  | cons a t ih =>
    cases p with
    | zero =>
      obtain rfl : a = some y := by simpa using h
      simpa using List.Perm.swap x y (items t)
    | succ p =>
      have hperm := ih (p := p) (by simpa using h)
      cases a with
      | none => simpa using hperm
      | some z =>
        calc (y :: z :: items (t.set p (some x))).Perm (z :: y :: items (t.set p (some x))) :=
              List.Perm.swap z y _
          _ |>.Perm (z :: x :: items t) := hperm.cons z
          _ |>.Perm (x :: z :: items t) := List.Perm.swap x z _

/-! ## Which item may sit where -/

/-- Every item sits in a slot it is allowed in. -/
def Placed (allowed : ι → ℕ → Prop) (t : List (Option ι)) : Prop :=
  ∀ p x, t[p]? = some (some x) → allowed x p

variable {allowed : ι → ℕ → Prop}

theorem placed_replicate_none (n : ℕ) : Placed allowed (List.replicate n none) := by
  intro p x h
  rw [List.getElem?_replicate] at h
  split_ifs at h with hp
  cases h

theorem Placed.set (h : Placed allowed t) {x : ι} (hx : allowed x p) :
    Placed allowed (t.set p (some x)) := by
  intro q y hq
  by_cases hpq : p = q
  · subst hpq
    have hlt : p < t.length := by
      simpa using (List.getElem?_eq_some_iff.1 hq).1
    rw [List.getElem?_set_self hlt] at hq
    cases hq
    exact hx
  · rw [List.getElem?_set_ne hpq] at hq
    exact h q y hq

theorem length_items_le (t : List (Option ι)) : (items t).length ≤ t.length :=
  List.reduceOption_length_le t

/-! ## Which slots are occupied -/

/-- Slot `p` holds an item. -/
def Occupied (t : List (Option ι)) (p : ℕ) : Prop := ∃ x, t[p]? = some (some x)

theorem occupied_set_self (hp : p < t.length) (x : ι) :
    Occupied (t.set p (some x)) p := ⟨x, by simp [hp]⟩

/-- No move empties a slot. -/
theorem Occupied.set {q : ℕ} (h : Occupied t q) (p : ℕ) (x : ι) :
    Occupied (t.set p (some x)) q := by
  obtain ⟨y, hy⟩ := h
  by_cases hpq : p = q
  · subst hpq
    exact occupied_set_self (List.getElem?_eq_some_iff.1 hy).1 x
  · exact ⟨y, by rw [List.getElem?_set_ne hpq, hy]⟩

/-- A table with as many items as slots has no empty slot. -/
theorem occupied_of_length_le_items (h : t.length ≤ (items t).length) (hp : p < t.length) :
    Occupied t p := by
  have hsome : ∀ x ∈ t, x.isSome := List.reduceOption_length_eq_iff.1 ((length_items_le t).antisymm h)
  obtain ⟨x, hx⟩ := Option.isSome_iff_exists.1 (hsome _ (List.getElem_mem hp))
  exact ⟨x, by rw [List.getElem?_eq_getElem hp, hx]⟩

/-- A move occupies no slot but its own. -/
theorem occupied_set_ne {q : ℕ} (hpq : p ≠ q) (x : ι) :
    Occupied (t.set p (some x)) q ↔ Occupied t q := by
  unfold Occupied
  rw [List.getElem?_set_ne hpq]

end Slots

end Foundations
