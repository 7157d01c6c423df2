import Mathlib

/-!
# A table of the greatest item of each key

Items arrive one by one, each with a key. A table keeps, for each key that was seen, the item that
beats every other item of the key. `Champions` says so; it survives the replacement of an entry by an
item that beats it (`Champions.upsert`) and the arrival of an item that is beaten
(`Champions.keep`), and it determines the table (`Champions.mem_iff`).
-/

namespace Foundations

variable {α β κ : Type} (key : α → κ) (beats : α → α → Prop)

/-- An item that beats every other item of its key. -/
structure Champion (items : List α) (a : α) : Prop where
  mem : a ∈ items
  beats_rest : ∀ b ∈ items, key b = key a → b = a ∨ beats a b

/-- A table with one champion for each key. -/
structure Champions (items table : List α) : Prop where
  champion : ∀ a ∈ table, Champion key beats items a
  nodup : (table.map key).Nodup
  covers : ∀ b ∈ items, ∃ a ∈ table, key a = key b

/-- Put an item in the place of its key, or at the end where the key is new. -/
def upsert [DecidableEq κ] (table : List α) (n : α) : List α :=
  if ∃ a ∈ table, key a = key n then table.map fun a => if key a = key n then n else a
  else table ++ [n]

variable {key beats} {items table : List α} {a b n : α}

theorem Champions.nil : Champions key beats [] [] :=
  ⟨by simp, by simp, by simp⟩

theorem Champion.congr {items' : List α} (h : Champion key beats items a)
    (hmem : ∀ x, x ∈ items ↔ x ∈ items') : Champion key beats items' a :=
  ⟨(hmem a).1 h.mem, fun b hb => h.beats_rest b ((hmem b).2 hb)⟩

theorem Champion.append_beaten (h : Champion key beats items a) (hn : key n = key a → beats a n) :
    Champion key beats (items ++ [n]) a := by
  refine ⟨List.mem_append_left _ h.mem, fun b hb hkey => ?_⟩
  rcases List.mem_append.1 hb with hb | hb
  · exact h.beats_rest b hb hkey
  · cases List.mem_singleton.1 hb
    exact Or.inr (hn hkey)

theorem Champion.unique (hasymm : ∀ x y, beats x y → ¬ beats y x)
    (ha : Champion key beats items a) (hb : Champion key beats items b) (hkey : key a = key b) :
    a = b := by
  rcases hb.beats_rest a ha.mem hkey with h | h
  · exact h
  · rcases ha.beats_rest b hb.mem hkey.symm with h' | h'
    · exact h'.symm
    · exact absurd h' (hasymm b a h)

/-- A replacement does not show in a column on which the two items agree. -/
theorem map_upsert_of_mem [DecidableEq κ] (g : α → β)
    (hg : ∀ a ∈ table, key a = key n → g a = g n) (hmem : ∃ a ∈ table, key a = key n) :
    (upsert key table n).map g = table.map g := by
  rw [upsert, if_pos hmem, List.map_map]
  refine List.map_congr_left fun a ha => ?_
  simp only [Function.comp_apply]
  split_ifs with heq
  · exact (hg a ha heq).symm
  · rfl

theorem upsert_of_not_mem [DecidableEq κ] (hmem : ¬ ∃ a ∈ table, key a = key n) :
    upsert key table n = table ++ [n] := if_neg hmem

theorem upsert_map [DecidableEq κ] {key' : β → κ} (f : α → β) (hkey : ∀ a, key' (f a) = key a) :
    upsert key' (table.map f) (f n) = (upsert key table n).map f := by
  by_cases hmem : ∃ a ∈ table, key a = key n
  · have hmem' : ∃ b ∈ table.map f, key' b = key' (f n) := by
      obtain ⟨a, ha, heq⟩ := hmem
      exact ⟨f a, List.mem_map_of_mem ha, by rw [hkey, hkey, heq]⟩
    rw [upsert, if_pos hmem', upsert, if_pos hmem, List.map_map, List.map_map]
    refine List.map_congr_left fun a _ => ?_
    simp only [Function.comp_apply, hkey, apply_ite f]
  · have hmem' : ¬ ∃ b ∈ table.map f, key' b = key' (f n) := by
      rintro ⟨b, hb, heq⟩
      obtain ⟨a, ha, rfl⟩ := List.mem_map.1 hb
      rw [hkey, hkey] at heq
      exact hmem ⟨a, ha, heq⟩
    rw [upsert_of_not_mem hmem', upsert_of_not_mem hmem, List.map_append, List.map_singleton]

theorem mem_upsert [DecidableEq κ] : a ∈ upsert key table n ↔ a = n ∨ a ∈ table ∧ key a ≠ key n := by
  unfold upsert
  split_ifs with hmem
  · simp only [List.mem_map]
    constructor
    · rintro ⟨b, hb, rfl⟩
      split_ifs with heq
      · exact Or.inl rfl
      · exact Or.inr ⟨hb, heq⟩
    · rintro (rfl | ⟨ha, hne⟩)
      · obtain ⟨b, hb, heq⟩ := hmem
        exact ⟨b, hb, if_pos heq⟩
      · exact ⟨a, ha, if_neg hne⟩
  · rw [List.mem_append, List.mem_singleton]
    constructor
    · rintro (ha | ha)
      · exact Or.inr ⟨ha, fun heq => hmem ⟨a, ha, heq⟩⟩
      · exact Or.inl ha
    · rintro (ha | ⟨ha, -⟩)
      · exact Or.inr ha
      · exact Or.inl ha

section Champions

variable (h : Champions key beats items table) {items' table' : List α}

include h

theorem Champions.mem_iff (hasymm : ∀ x y, beats x y → ¬ beats y x) :
    a ∈ table ↔ Champion key beats items a := by
  constructor
  · exact h.champion a
  · intro ha
    obtain ⟨b, hb, hkey⟩ := h.covers a ha.mem
    exact Champion.unique hasymm (h.champion b hb) ha hkey ▸ hb

theorem Champions.congr (hmem : ∀ x, x ∈ items ↔ x ∈ items') :
    Champions key beats items' table :=
  ⟨fun a ha => (h.champion a ha).congr hmem, h.nodup, fun b hb => h.covers b ((hmem b).2 hb)⟩

theorem Champions.eq_of_key (ha : a ∈ table) (hb : b ∈ table) (hkey : key a = key b) : a = b :=
  List.inj_on_of_nodup_map h.nodup ha hb hkey

/-- The table does not change when the item that arrives is beaten. -/
theorem Champions.keep (ha : a ∈ table) (hkey : key a = key n) (hbeats : beats a n) :
    Champions key beats (items ++ [n]) table := by
  refine ⟨fun b hb => (h.champion b hb).append_beaten fun hn => ?_, h.nodup, fun b hb => ?_⟩
  · rwa [h.eq_of_key hb ha (hn.symm.trans hkey.symm)]
  · rcases List.mem_append.1 hb with hb | hb
    · exact h.covers b hb
    · cases List.mem_singleton.1 hb
      exact ⟨a, ha, hkey⟩

/-- An item that beats the champion of its key takes the place. -/
theorem Champions.upsert [DecidableEq κ] (htrans : ∀ x y z, beats x y → beats y z → beats x z)
    (hwins : ∀ a ∈ table, key a = key n → beats n a) :
    Champions key beats (items ++ [n]) (upsert key table n) := by
  refine ⟨fun a ha => ?_, ?_, fun b hb => ?_⟩
  · rcases mem_upsert.1 ha with rfl | ⟨ha, hne⟩
    · refine ⟨List.mem_append_right _ (List.mem_singleton_self _), fun b hb hkey => ?_⟩
      rcases List.mem_append.1 hb with hb | hb
      · obtain ⟨c, hc, hcb⟩ := h.covers b hb
        have hac := hwins c hc (hcb.trans hkey)
        rcases (h.champion c hc).beats_rest b hb hcb.symm with rfl | hbc
        · exact Or.inr hac
        · exact Or.inr (htrans _ _ _ hac hbc)
      · exact Or.inl (List.mem_singleton.1 hb)
    · exact (h.champion a ha).append_beaten fun hn => absurd hn.symm hne
  · by_cases hmem : ∃ a ∈ table, key a = key n
    · rw [map_upsert_of_mem key (fun _ _ heq => heq) hmem]
      exact h.nodup
    · rw [upsert_of_not_mem hmem, List.map_append, List.nodup_append]
      refine ⟨h.nodup, by simp, fun k hk k' hk' heq => ?_⟩
      obtain ⟨a, ha, rfl⟩ := List.mem_map.1 hk
      rw [List.map_singleton, List.mem_singleton] at hk'
      exact hmem ⟨a, ha, heq.trans hk'⟩
  · rcases List.mem_append.1 hb with hb | hb
    · obtain ⟨a, ha, hkey⟩ := h.covers b hb
      by_cases hn : key a = key n
      · exact ⟨n, mem_upsert.2 (Or.inl rfl), hn.symm.trans hkey⟩
      · exact ⟨a, mem_upsert.2 (Or.inr ⟨ha, hn⟩), hkey⟩
    · cases List.mem_singleton.1 hb
      exact ⟨n, mem_upsert.2 (Or.inl rfl), rfl⟩

theorem Champions.map {key' : β → κ} {beats' : β → β → Prop} (f : α → β)
    (hkey : ∀ a, key' (f a) = key a) (hbeats : ∀ a b, beats a b → beats' (f a) (f b)) :
    Champions key' beats' (items.map f) (table.map f) := by
  refine ⟨fun x hx => ?_, ?_, fun x hx => ?_⟩
  · obtain ⟨a, ha, rfl⟩ := List.mem_map.1 hx
    refine ⟨List.mem_map_of_mem (h.champion a ha).mem, fun y hy hxy => ?_⟩
    obtain ⟨b, hb, rfl⟩ := List.mem_map.1 hy
    rw [hkey, hkey] at hxy
    rcases (h.champion a ha).beats_rest b hb hxy with rfl | hab
    · exact Or.inl rfl
    · exact Or.inr (hbeats a b hab)
  · rw [List.map_map, show key' ∘ f = key from funext hkey]
    exact h.nodup
  · obtain ⟨b, hb, rfl⟩ := List.mem_map.1 hx
    obtain ⟨a, ha, hab⟩ := h.covers b hb
    exact ⟨f a, List.mem_map_of_mem ha, by rw [hkey, hkey, hab]⟩

/-- A table of part of the items is not longer than one of all. -/
theorem Champions.length_le (h' : Champions key beats items' table') (hsub : items ⊆ items') :
    table.length ≤ table'.length := by
  have hkeys : table.map key ⊆ table'.map key := by
    intro k hk
    obtain ⟨a, ha, rfl⟩ := List.mem_map.1 hk
    obtain ⟨b, hb, hkey⟩ := h'.covers a (hsub (h.champion a ha).mem)
    exact List.mem_map.2 ⟨b, hb, hkey⟩
  have hle := (List.subperm_of_subset h.nodup hkeys).length_le
  rwa [List.length_map, List.length_map] at hle

/-- Tables of the same items have the same entries. -/
theorem Champions.perm (hasymm : ∀ x y, beats x y → ¬ beats y x)
    (h' : Champions key beats items' table') (hmem : ∀ x, x ∈ items ↔ x ∈ items') :
    table.Perm table' := by
  rw [List.perm_ext_iff_of_nodup h.nodup.of_map h'.nodup.of_map]
  intro a
  rw [h.mem_iff hasymm, h'.mem_iff hasymm]
  exact ⟨fun ha => ha.congr hmem, fun ha => ha.congr fun x => (hmem x).symm⟩

/-! ## Lookup by key -/

end Champions

theorem find?_key_eq_some [DecidableEq κ] {l : List α} (hnodup : (l.map key).Nodup) (ha : a ∈ l) :
    (l.find? fun x => key x = key a) = some a := by
  obtain ⟨found, hfound⟩ : ∃ found, (l.find? fun x => key x = key a) = some found := by
    rw [← Option.isSome_iff_exists, List.find?_isSome]
    exact ⟨a, ha, decide_eq_true rfl⟩
  have hkey : key found = key a := by simpa using List.find?_some hfound
  rw [hfound, List.inj_on_of_nodup_map hnodup (List.mem_of_find?_eq_some hfound) ha hkey]

theorem find?_key_eq_none [DecidableEq κ] {l : List α} {k : κ} :
    (l.find? fun x => key x = k) = none ↔ ¬ ∃ a ∈ l, key a = k := by
  simp [List.find?_eq_none]

/-! ## Sizes -/

/-- A list whose elements fall in given classes is not longer than the bounds of the classes
together. -/
theorem length_le_sum_of_countP_le [DecidableEq β] (f : α → β) (bound : β → ℕ) (classes : List β)
    (l : List α) (hmem : ∀ a ∈ l, f a ∈ classes)
    (hbound : ∀ c ∈ classes, l.countP (fun a => f a = c) ≤ bound c) :
    l.length ≤ (classes.map bound).sum := by
  -- Induction on the classes: the elements of the first one are taken out.
  induction classes generalizing l with
  | nil =>
    have hnil : l = [] := List.eq_nil_iff_forall_not_mem.2 fun a ha => by simpa using hmem a ha
    simp [hnil]
  | cons c classes ih =>
    have hrest : (l.filter fun a => ¬ f a = c).length ≤ (classes.map bound).sum := by
      refine ih _ (fun a ha => ?_) fun c' hc' => ?_
      · rw [List.mem_filter, decide_eq_true_iff] at ha
        exact (List.mem_cons.1 (hmem a ha.1)).resolve_left ha.2
      · exact (List.filter_sublist.countP_le).trans (hbound c' (List.mem_cons_of_mem c hc'))
    have hfirst := hbound c List.mem_cons_self
    have hsplit := List.length_eq_countP_add_countP (fun a => decide (f a = c)) (l := l)
    rw [← List.countP_eq_length_filter] at hrest
    simp only [decide_not, Bool.not_eq_true, decide_eq_false_iff_not] at hsplit hrest
    rw [List.map_cons, List.sum_cons]
    omega

theorem exists_perm_map {f : α → β} {l : List α} {l' : List β} (h : l'.Perm (l.map f)) :
    ∃ m : List α, m.Perm l ∧ l' = m.map f := by
  have hall : List.Forall₂ (fun b a => b = f a) (l.map f) l := by
    rw [List.forall₂_map_left_iff]
    exact List.forall₂_same.2 fun _ _ => rfl
  obtain ⟨m, hm, hperm⟩ := List.perm_comp_forall₂ h hall
  refine ⟨m, hperm, ?_⟩
  have heq : List.Forall₂ Eq l' (m.map f) := List.forall₂_map_right_iff.2 hm
  exact List.forall₂_eq_eq_eq ▸ heq

end Foundations
