import Mathlib

/-!
# Hash trees of any arity

A hash `H : β → α` sends messages to digests, and `enc` writes a list of digests as a message.
A level of the tree is a list of digests; the next level hashes its groups of `k`, the last
group filled up with the padding digest `z` (`parents`), and `levels` repeats this until one
digest is left.

An opening starts from a digest `h` at position `i` of the lowest level and climbs: at each
step the digest is put among the siblings the prover supplies, at position `i % k`, and the
group is hashed (`climb`). Nothing ties the number of steps to the depth of the tree, so the
two results are stated for climbs of any length:

* `climb_honest`: siblings read off the tree's own levels lead to the tree's own digests;
* `opening_cases`: a climb from the digest of `m` to the root either shows a collision or a
  preimage of the padding among the messages hashed on the way, or `m` is the leaf message at
  the opened position, or the climb has another length than the tree and takes an inner message
  for a leaf message or the other way round.

Collisions are always collisions within a given list of messages (`Collides`): every hash
function has some collision, so a bare existence statement would say nothing.
-/

namespace Foundations.HashTree

variable {α β : Type*}

/-- Two distinct messages of the list have the same digest. -/
def Collides (H : β → α) (S : List β) : Prop := ∃ x ∈ S, ∃ y ∈ S, x ≠ y ∧ H x = H y

/-- Some message of the list hashes to `z`. -/
def Hits (H : β → α) (z : α) (S : List β) : Prop := ∃ x ∈ S, H x = z

instance [DecidableEq α] [DecidableEq β] (H : β → α) (S : List β) : Decidable (Collides H S) :=
  inferInstanceAs (Decidable (∃ x ∈ S, ∃ y ∈ S, x ≠ y ∧ H x = H y))

instance [DecidableEq α] (H : β → α) (z : α) (S : List β) : Decidable (Hits H z S) :=
  inferInstanceAs (Decidable (∃ x ∈ S, H x = z))

theorem Collides.mono {H : β → α} {S T : List β} (h : Collides H S) (hST : S ⊆ T) :
    Collides H T := by
  obtain ⟨x, hx, y, hy, hne, he⟩ := h
  exact ⟨x, hST hx, y, hST hy, hne, he⟩

theorem Hits.mono {H : β → α} {z : α} {S T : List β} (h : Hits H z S) (hST : S ⊆ T) :
    Hits H z T := by
  obtain ⟨x, hx, he⟩ := h
  exact ⟨x, hST hx, he⟩

/-- Messages with equal digests are equal, unless the list collides. -/
theorem eq_or_collides {H : β → α} {S : List β} {x y : β} (hx : x ∈ S) (hy : y ∈ S)
    (he : H x = H y) : x = y ∨ Collides H S := by
  by_cases h : x = y
  · exact .inl h
  · exact .inr ⟨x, hx, y, hy, h, he⟩

variable (H : β → α) (enc : List α → β) (z : α) (k : ℕ)

/-! ## The tree -/

/-- The `r`-th group of `k` digests of a level, filled up with `z`. -/
def siblings (xs : List α) (r : ℕ) : List α := (List.range k).map fun c => xs.getD (r * k + c) z

/-- The messages hashed to make the next level. -/
def levelMessages (xs : List α) : List β :=
  (List.range (xs.length ⌈/⌉ k)).map fun r => enc (siblings z k xs r)

/-- The next level. -/
def parents (xs : List α) : List α := (levelMessages enc z k xs).map H

/-- The levels of the tree over `xs`, lowest first; `fuel` bounds their number. -/
def levelsAux : ℕ → List α → List (List α)
  | 0, xs => [xs]
  | fuel + 1, xs => if xs.length ≤ 1 then [xs] else xs :: levelsAux fuel (parents H enc z k xs)

/-- The levels of the tree over `xs`, lowest first. A level is shorter than the one below it, so
there are at most `xs.length` levels above the first. -/
def levels (xs : List α) : List (List α) := levelsAux H enc z k xs.length xs

/-- The messages hashed to make every level above the lowest. -/
def nodeMessages (xs : List α) : List β :=
  (levels H enc z k xs).dropLast.flatMap (levelMessages enc z k)

/-- The number of levels above the lowest. -/
def depth (xs : List α) : ℕ := (levels H enc z k xs).length - 1

@[simp] theorem length_siblings (xs : List α) (r : ℕ) : (siblings z k xs r).length = k := by
  simp [siblings]

@[simp] theorem length_levelMessages (xs : List α) :
    (levelMessages enc z k xs).length = xs.length ⌈/⌉ k := by
  simp [levelMessages]

@[simp] theorem length_parents (xs : List α) :
    (parents H enc z k xs).length = xs.length ⌈/⌉ k := by
  simp [parents]

/-- The first digest of the top level. -/
def root (xs : List α) : Option α := (levels H enc z k xs).getLast?.bind List.head?

/-- The messages hashed to build the tree over the leaf messages `ms`. -/
def treeMessages (ms : List β) : List β := ms ++ nodeMessages H enc z k (ms.map H)

variable {k}

variable {n i : ℕ} {xs : List α}

theorem lt_ceilDiv_iff (hk : 0 < k) {r : ℕ} : r < n ⌈/⌉ k ↔ r * k < n := by
  rw [← not_le, ceilDiv_le_iff_le_mul hk, not_le, Nat.mul_comm]

theorem ceilDiv_lt_self (hk : 2 ≤ k) (hn : 2 ≤ n) : n ⌈/⌉ k < n := by
  have : n ⌈/⌉ k ≤ n - 1 := by
    rw [ceilDiv_le_iff_le_mul (by omega)]
    have := Nat.mul_le_mul_right (n - 1) hk
    omega
  omega

theorem getElem?_parents (hk : 0 < k) {r : ℕ} (hr : r * k < xs.length) :
    (parents H enc z k xs)[r]? = some (H (enc (siblings z k xs r))) := by
  simp [parents, levelMessages, (lt_ceilDiv_iff hk).2 hr]

theorem levelsAux_congr (hk : 2 ≤ k) : ∀ (f g : ℕ) (xs : List α), xs.length ≤ f →
    xs.length ≤ g → levelsAux H enc z k f xs = levelsAux H enc z k g xs
  | 0, 0, _, _, _ => rfl
  | 0, g + 1, xs, hf, _ => by
    rw [levelsAux, levelsAux, if_pos (by omega)]
  | f + 1, 0, xs, _, hg => by
    rw [levelsAux, levelsAux, if_pos (by omega)]
  | f + 1, g + 1, xs, hf, hg => by
    rw [levelsAux, levelsAux]
    split_ifs with h
    · rfl
    · have hlt := ceilDiv_lt_self hk (n := xs.length) (by omega)
      rw [levelsAux_congr hk f g _ (by rw [length_parents]; omega)
        (by rw [length_parents]; omega)]

theorem levels_of_le_one (h : xs.length ≤ 1) : levels H enc z k xs = [xs] := by
  rw [levels]
  cases hn : xs.length with
  | zero => rfl
  | succ n => rw [levelsAux, if_pos h]

theorem levels_of_one_lt (hk : 2 ≤ k) (h : 1 < xs.length) :
    levels H enc z k xs = xs :: levels H enc z k (parents H enc z k xs) := by
  obtain ⟨n, hn⟩ : ∃ n, xs.length = n + 1 := ⟨xs.length - 1, by omega⟩
  have hlt := ceilDiv_lt_self hk (n := xs.length) (by omega)
  rw [levels, hn, levelsAux, if_neg (by omega), levels,
    levelsAux_congr H enc z hk n _ _ (by rw [length_parents]; omega) le_rfl]

theorem levels_ne_nil (hk : 2 ≤ k) (xs : List α) : levels H enc z k xs ≠ [] := by
  by_cases h : xs.length ≤ 1
  · simp [levels_of_le_one H enc z h]
  · simp [levels_of_one_lt H enc z hk (not_le.1 h)]

theorem depth_of_le_one (h : xs.length ≤ 1) : depth H enc z k xs = 0 := by
  rw [depth, levels_of_le_one H enc z h, List.length_singleton]

theorem depth_of_one_lt (hk : 2 ≤ k) (h : 1 < xs.length) :
    depth H enc z k xs = depth H enc z k (parents H enc z k xs) + 1 := by
  have hpos := List.length_pos_of_ne_nil (levels_ne_nil H enc z hk (parents H enc z k xs))
  rw [depth, levels_of_one_lt H enc z hk h, List.length_cons, depth]
  omega

theorem length_levels (hk : 2 ≤ k) (xs : List α) :
    (levels H enc z k xs).length = depth H enc z k xs + 1 := by
  have hpos := List.length_pos_of_ne_nil (levels_ne_nil H enc z hk xs)
  rw [depth]
  omega

/-- Level `t` is the lowest level with `parents` applied `t` times. -/
theorem getElem?_levels (hk : 2 ≤ k) (xs : List α) {t : ℕ} (ht : t ≤ depth H enc z k xs) :
    (levels H enc z k xs)[t]? = some ((parents H enc z k)^[t] xs) := by
  induction t generalizing xs with
  | zero =>
    by_cases h : xs.length ≤ 1
    · simp [levels_of_le_one H enc z h]
    · simp [levels_of_one_lt H enc z hk (not_le.1 h)]
  | succ t ih =>
    by_cases h : xs.length ≤ 1
    · rw [depth_of_le_one H enc z h] at ht
      omega
    · rw [depth_of_one_lt H enc z hk (not_le.1 h)] at ht
      rw [levels_of_one_lt H enc z hk (not_le.1 h), List.getElem?_cons_succ, ih _ (by omega),
        Function.iterate_succ_apply]

/-- The top level of a non-empty tree is one digest. -/
theorem length_top (hk : 2 ≤ k) (hne : xs ≠ []) :
    ((parents H enc z k)^[depth H enc z k xs] xs).length = 1 := by
  induction hn : xs.length using Nat.strongRecOn generalizing xs with
  | ind n ih =>
    have hpos := List.length_pos_of_ne_nil hne
    by_cases h : xs.length ≤ 1
    · rw [depth_of_le_one H enc z h, Function.iterate_zero_apply]
      omega
    · have hlen := length_parents H enc z k xs
      have hlt := ceilDiv_lt_self hk (n := xs.length) (by omega)
      have hpar : 0 < xs.length ⌈/⌉ k := (lt_ceilDiv_iff (by omega)).2 (by omega)
      rw [depth_of_one_lt H enc z hk (not_le.1 h)]
      exact ih _ (by omega) (List.ne_nil_of_length_pos (by omega)) hlen

/-- The number of digests of level `t` above `n` digests. -/
def width (k n t : ℕ) : ℕ := (· ⌈/⌉ k)^[t] n

theorem width_succ (k n t : ℕ) : width k n (t + 1) = width k n t ⌈/⌉ k :=
  Function.iterate_succ_apply' ..

theorem width_ceilDiv (k n t : ℕ) : width k (n ⌈/⌉ k) t = width k n (t + 1) :=
  (Function.iterate_succ_apply ..).symm

theorem length_level (t : ℕ) (xs : List α) :
    ((parents H enc z k)^[t] xs).length = width k xs.length t := by
  induction t generalizing xs with
  | zero => rfl
  | succ t ih =>
    rw [Function.iterate_succ_apply, ih, length_parents, width_ceilDiv]

theorem ceilDiv_le_self (hk : 0 < k) (n : ℕ) : n ⌈/⌉ k ≤ n := by
  rw [ceilDiv_le_iff_le_mul hk]
  exact Nat.le_mul_of_pos_left n hk

/-- Position `i` of the lowest level is below position `i / k ^ t` of level `t`. -/
theorem div_pow_lt_width (hk : 0 < k) (h : i < n) (t : ℕ) : i / k ^ t < width k n t := by
  induction t with
  | zero => simpa [width] using h
  | succ t ih =>
    rw [width_succ, lt_ceilDiv_iff hk, pow_succ, ← Nat.div_div_eq_div_mul]
    exact lt_of_le_of_lt (Nat.div_mul_le_self _ _) ih

theorem width_le (hk : 0 < k) (n t : ℕ) : width k n t ≤ n := by
  induction t with
  | zero => exact le_rfl
  | succ t ih =>
    rw [width_succ]
    exact (ceilDiv_le_self hk _).trans ih

/-- Levels do not grow. -/
theorem length_iterate_parents_le (hk : 0 < k) (t : ℕ) (xs : List α) :
    ((parents H enc z k)^[t] xs).length ≤ xs.length := by
  rw [length_level]
  exact width_le hk _ t

/-- Above a level of one digest there are only levels of one digest. -/
theorem length_iterate_parents_of_one (hk : 0 < k) (h : xs.length = 1) (t : ℕ) :
    ((parents H enc z k)^[t] xs).length = 1 := by
  induction t with
  | zero => exact h
  | succ t ih =>
    rw [Function.iterate_succ_apply', length_parents, ih]
    apply le_antisymm (ceilDiv_le_self hk 1)
    exact (lt_ceilDiv_iff hk).2 (by omega)

/-- A level of several digests is below the top. -/
theorem lt_depth_of_one_lt (hk : 2 ≤ k) {t : ℕ} (h : 1 < ((parents H enc z k)^[t] xs).length) :
    t < depth H enc z k xs := by
  by_contra hle
  have hne : xs ≠ [] := by
    rintro rfl
    have := length_iterate_parents_le H enc z (show 0 < k by omega) t []
    simp only [List.length_nil] at this
    omega
  have htop := length_iterate_parents_of_one H enc z (show 0 < k by omega)
    (length_top H enc z hk hne) (t - depth H enc z k xs)
  rw [← Function.iterate_add_apply, Nat.sub_add_cancel (by omega)] at htop
  omega

/-- A tree over at most `2 ^ m` digests has depth at most `m`. -/
theorem depth_le (hk : 2 ≤ k) {m : ℕ} (h : xs.length ≤ 2 ^ m) :
    depth H enc z k xs ≤ m := by
  induction m generalizing xs with
  | zero => rw [depth_of_le_one H enc z h]
  | succ m ih =>
    by_cases hle : xs.length ≤ 1
    · rw [depth_of_le_one H enc z hle]
      omega
    · have hhalf : (parents H enc z k xs).length ≤ 2 ^ m := by
        rw [length_parents, ceilDiv_le_iff_le_mul (by omega)]
        calc xs.length ≤ 2 * 2 ^ m := by rwa [← pow_succ']
          _ ≤ k * 2 ^ m := Nat.mul_le_mul_right _ hk
      rw [depth_of_one_lt H enc z hk (not_le.1 hle)]
      exact Nat.succ_le_succ (ih hhalf)

/-! ### The shape of the tree

How many levels there are depends on the number of leaves only. -/

/-- The number of levels above `n` digests; `fuel` bounds it. -/
def heightAux (k : ℕ) : ℕ → ℕ → ℕ
  | 0, _ => 0
  | fuel + 1, n => if n ≤ 1 then 0 else heightAux k fuel (n ⌈/⌉ k) + 1

/-- The number of levels above `n` digests. -/
def height (k n : ℕ) : ℕ := heightAux k n n

theorem length_levelsAux (fuel : ℕ) (xs : List α) :
    (levelsAux H enc z k fuel xs).length = heightAux k fuel xs.length + 1 := by
  induction fuel generalizing xs with
  | zero => rfl
  | succ fuel ih =>
    rw [levelsAux, heightAux]
    split_ifs with h
    · rfl
    · rw [List.length_cons, ih, length_parents]

theorem depth_eq_height (xs : List α) : depth H enc z k xs = height k xs.length := by
  rw [depth, levels, length_levelsAux, height, Nat.add_sub_cancel]

/-- At most `2 ^ m` digests have at most `m` levels above them. -/
theorem height_le (hk : 2 ≤ k) {m : ℕ} (h : n ≤ 2 ^ m) : height k n ≤ m := by
  have hlen : (List.replicate n ()).length ≤ 2 ^ m := by simpa using h
  have := depth_le (fun _ : Unit => ()) (fun _ => ()) () hk hlen
  rwa [depth_eq_height, List.length_replicate] at this

theorem width_width (k n a b : ℕ) : width k (width k n a) b = width k n (b + a) :=
  (Function.iterate_add_apply ..).symm

theorem width_height (hk : 2 ≤ k) (hn : 0 < n) : width k n (height k n) = 1 := by
  have hne : List.replicate n () ≠ [] := List.ne_nil_of_length_pos (by simpa using hn)
  have htop := length_top (fun _ : Unit => ()) (fun _ => ()) () hk hne
  rwa [length_level, depth_eq_height, List.length_replicate] at htop

/-- Positions of the lowest level have at most `height` digits. -/
theorem lt_pow_height (hk : 2 ≤ k) (hi : i < n) : i < k ^ height k n := by
  have := div_pow_lt_width (show 0 < k by omega) hi (height k n)
  rw [width_height hk (by omega)] at this
  exact Nat.lt_of_div_lt_div (by rwa [Nat.div_self (Nat.pow_pos (by omega))])

theorem root_eq (hk : 2 ≤ k) (hne : xs ≠ []) : root H enc z k xs =
    some (((parents H enc z k)^[depth H enc z k xs] xs).getD 0 z) := by
  have htop := getElem?_levels H enc z hk xs le_rfl
  obtain ⟨x, hx⟩ := List.length_eq_one_iff.1 (length_top H enc z hk hne)
  rw [root, List.getLast?_eq_getElem?, ← depth, htop, hx]
  rfl

theorem iterate_parents_succ (t : ℕ) (xs : List α) :
    (parents H enc z k)^[t + 1] xs = parents H enc z k ((parents H enc z k)^[t] xs) :=
  Function.iterate_succ_apply' ..

/-- A group hashed for level `t + 1` is among the tree's inner messages. -/
theorem mem_nodeMessages (hk : 2 ≤ k) (xs : List α) {t r : ℕ} (ht : t < depth H enc z k xs)
    (hr : r * k < ((parents H enc z k)^[t] xs).length) :
    enc (siblings z k ((parents H enc z k)^[t] xs) r) ∈ nodeMessages H enc z k xs := by
  have hlevel : (parents H enc z k)^[t] xs ∈ (levels H enc z k xs).dropLast := by
    rw [List.mem_iff_getElem?]
    refine ⟨t, ?_⟩
    rw [List.getElem?_dropLast, length_levels H enc z hk, if_pos (by omega),
      getElem?_levels H enc z hk xs (by omega)]
  refine List.mem_flatMap.2 ⟨_, hlevel, ?_⟩
  exact List.mem_map.2 ⟨r, List.mem_range.2 ((lt_ceilDiv_iff (by omega)).2 hr), rfl⟩

/-! ## Climbing -/

variable (k)

/-- The group of `h` at position `i`: siblings are looked up by their position in the level. -/
def group (s : ℕ → α) (h : α) (i : ℕ) : List α :=
  (List.range k).map fun c => if c = i % k then h else s (i / k * k + c)

/-- Climb one level per sibling source, from digest `h` at position `i`. -/
def climb : List (ℕ → α) → α → ℕ → α × ℕ
  | [], h, i => (h, i)
  | s :: ss, h, i => climb ss (H (enc (group k s h i))) (i / k)

/-- The messages hashed by a climb, lowest first. -/
def climbMessages : List (ℕ → α) → α → ℕ → List β
  | [], _, _ => []
  | s :: ss, h, i => enc (group k s h i) :: climbMessages ss (H (enc (group k s h i))) (i / k)

variable {k}

@[simp] theorem length_group (s : ℕ → α) (h : α) (i : ℕ) : (group k s h i).length = k := by
  simp [group]

theorem climb_append (ss ts : List (ℕ → α)) (h : α) (i : ℕ) :
    climb H enc k (ss ++ ts) h i =
      climb H enc k ts (climb H enc k ss h i).1 (climb H enc k ss h i).2 := by
  induction ss generalizing h i with
  | nil => rfl
  | cons s ss ih => exact ih ..

theorem climbMessages_append (ss ts : List (ℕ → α)) (h : α) (i : ℕ) :
    climbMessages H enc k (ss ++ ts) h i = climbMessages H enc k ss h i ++
      climbMessages H enc k ts (climb H enc k ss h i).1 (climb H enc k ss h i).2 := by
  induction ss generalizing h i with
  | nil => rfl
  | cons s ss ih =>
    rw [List.cons_append, climbMessages, ih, climbMessages, List.cons_append, climb]

theorem climb_snd (ss : List (ℕ → α)) (h : α) (i : ℕ) :
    (climb H enc k ss h i).2 = i / k ^ ss.length := by
  induction ss generalizing h i with
  | nil => simp [climb]
  | cons s ss ih => rw [climb, ih, Nat.div_div_eq_div_mul, List.length_cons, pow_succ']

/-- A climb of at least one step ends in the digest of one of its messages. -/
theorem exists_message_of_climb {ss : List (ℕ → α)} (hss : ss ≠ []) (h : α) (i : ℕ) :
    ∃ x ∈ climbMessages H enc k ss h i, (climb H enc k ss h i).1 = H x := by
  induction ss generalizing h i with
  | nil => exact absurd rfl hss
  | cons s ss ih =>
    obtain _ | ⟨s', ss⟩ := ss
    · exact ⟨_, List.mem_singleton_self _, rfl⟩
    · obtain ⟨x, hx, he⟩ := ih (List.cons_ne_nil s' ss) (H (enc (group k s h i))) (i / k)
      exact ⟨x, List.mem_cons_of_mem _ hx, he⟩

/-- Group `r` of a level given by its digests. -/
def row (k : ℕ) (dig : ℕ → α) (r : ℕ) : List α := (List.range k).map fun c => dig (r * k + c)

@[simp] theorem length_row (dig : ℕ → α) (r : ℕ) : (row k dig r).length = k := by simp [row]

theorem getElem_row (dig : ℕ → α) (r : ℕ) {c : ℕ} (hc : c < (row k dig r).length) :
    (row k dig r)[c] = dig (r * k + c) := by simp [row]

theorem group_eq_row {dig : ℕ → α} {s : ℕ → α} {p : ℕ}
    (hs : ∀ c < k, s (i / k * k + c) = dig (p / k * k + c)) (hdigit : i % k = p % k) :
    group k s (dig p) i = row k dig (p / k) := by
  apply List.map_congr_left
  intro c hc
  split_ifs with h
  · rw [h, hdigit, Nat.mul_comm, Nat.div_add_mod]
  · exact hs c (List.mem_range.1 hc)

theorem div_mod_pow_eq {p : ℕ} (h : i % k ^ (n + 1) = p % k ^ (n + 1)) :
    i % k = p % k ∧ i / k % k ^ n = p / k % k ^ n := by
  constructor
  · rw [← Nat.mod_mod_of_dvd i (Dvd.intro_left _ (pow_succ k n).symm), h, Nat.mod_mod_of_dvd]
    exact Dvd.intro_left _ (pow_succ k n).symm
  · rw [← Nat.mod_mul_right_div_self, ← Nat.mod_mul_right_div_self, ← pow_succ', h]

/-- **A climb along given levels.** Let `dig t` be the digests of level `t`, each hashed from its
group of the level below. A climb from position `i` that finds the siblings of position `p`,
where `i` and `p` have the same last digits, follows the levels above `p`. -/
theorem climb_along (dig : ℕ → ℕ → α) : ∀ (ss : List (ℕ → α)) (t : ℕ) {i p : ℕ},
    (∀ j (hj : j < ss.length), ∀ c < k,
      ss[j] (i / k ^ j / k * k + c) = dig (t + j) (p / k ^ j / k * k + c)) →
    i % k ^ ss.length = p % k ^ ss.length →
    (∀ j < ss.length, H (enc (row k (dig (t + j)) (p / k ^ (j + 1)))) =
      dig (t + j + 1) (p / k ^ (j + 1))) →
    (climb H enc k ss (dig t p) i).1 = dig (t + ss.length) (p / k ^ ss.length) ∧
      climbMessages H enc k ss (dig t p) i =
        (List.range ss.length).map fun j => enc (row k (dig (t + j)) (p / k ^ (j + 1)))
  | [], t, i, p, _, _, _ => by simp [climb, climbMessages]
  | s :: ss, t, i, p, hs, hdigits, hdig => by
    rw [List.length_cons] at hdigits
    obtain ⟨hdigit, hdigits⟩ := div_mod_pow_eq hdigits
    have hgroup : group k s (dig t p) i = row k (dig t) (p / k) := by
      apply group_eq_row _ hdigit
      intro c hc
      have := hs 0 (by simp) c hc
      rwa [pow_zero, Nat.div_one, Nat.div_one] at this
    have hstep : H (enc (row k (dig t) (p / k))) = dig (t + 1) (p / k) := by
      have := hdig 0 (by simp)
      rwa [zero_add, pow_one] at this
    obtain ⟨hclimb, hmsgs⟩ := climb_along dig ss (t + 1) (i := i / k) (p := p / k)
      (fun j hj c hc => by
        have := hs (j + 1) (by simpa using hj) c hc
        rw [pow_succ', ← Nat.div_div_eq_div_mul, ← Nat.div_div_eq_div_mul, ← Nat.add_assoc,
          Nat.add_right_comm] at this
        exact this)
      hdigits (fun j hj => by
        have := hdig (j + 1) (by simpa using hj)
        rw [pow_succ', ← Nat.div_div_eq_div_mul, ← Nat.add_assoc, Nat.add_right_comm t] at this
        exact this)
    rw [climb, climbMessages, hgroup, hstep, hclimb, hmsgs, List.length_cons, List.range_succ_eq_map]
    constructor
    · rw [pow_succ', ← Nat.div_div_eq_div_mul, Nat.add_assoc, Nat.add_comm 1]
    · rw [List.map_cons, List.map_map, pow_one]
      congr 1
      apply List.map_congr_left
      intro j _
      rw [Function.comp_apply, pow_succ' k (j + 1), ← Nat.div_div_eq_div_mul, Nat.add_assoc,
        Nat.add_comm 1]

theorem row_getD_eq_siblings (xs : List α) (r : ℕ) : row k (xs.getD · z) r = siblings z k xs r := rfl

/-- **A climb along the tree's own levels.** Where every sibling looked up is the tree's, the
climb from digest `i` of the lowest level ends in digest `i / k ^ t` of level `t`. -/
theorem climb_honest (hk : 0 < k) (ss : List (ℕ → α)) (xs : List α) (hi : i < xs.length)
    (hs : ∀ t (ht : t < ss.length), ∀ c < k,
      ss[t] (i / k ^ t / k * k + c) = ((parents H enc z k)^[t] xs).getD (i / k ^ t / k * k + c) z) :
    i / k ^ ss.length < ((parents H enc z k)^[ss.length] xs).length ∧
      (climb H enc k ss (xs.getD i z) i).1 =
        ((parents H enc z k)^[ss.length] xs).getD (i / k ^ ss.length) z := by
  refine ⟨by rw [length_level]; exact div_pow_lt_width hk hi _, ?_⟩
  have hclimb := (climb_along H enc (k := k)
    (fun t q => ((parents H enc z k)^[t] xs).getD q z) ss 0 (i := i) (p := i)
    (fun t ht c hc => by rw [Nat.zero_add]; exact hs t ht c hc) rfl
    (fun t _ => by
      have hlt : i / k ^ (t + 1) * k < ((parents H enc z k)^[t] xs).length := by
        rw [← lt_ceilDiv_iff hk, length_level, ← width_succ]
        exact div_pow_lt_width hk hi (t + 1)
      simp only [Nat.zero_add, row_getD_eq_siblings]
      rw [iterate_parents_succ, List.getD_eq_getElem?_getD, getElem?_parents H enc z hk hlt,
        Option.getD_some])).1
  rw [Nat.zero_add] at hclimb
  exact hclimb

theorem siblings_map_range {w : ℕ} {dig : ℕ → α} (hpad : ∀ q, w ≤ q → dig q = z) (r : ℕ) :
    siblings z k ((List.range w).map dig) r = row k dig r := by
  apply List.map_congr_left
  intro c _
  by_cases hlt : r * k + c < w
  · rw [List.getD_eq_getElem _ _ (by simpa using hlt), List.getElem_map, List.getElem_range]
  · rw [List.getD_eq_default _ _ (by simpa using hlt), hpad _ (not_lt.1 hlt)]

theorem parents_map_range (hk : 0 < k) {w : ℕ} {dig dig' : ℕ → α} (hpad : ∀ q, w ≤ q → dig q = z)
    (hdig : ∀ r, r * k < w → H (enc (row k dig r)) = dig' r) :
    parents H enc z k ((List.range w).map dig) = (List.range (w ⌈/⌉ k)).map dig' := by
  rw [parents, levelMessages, List.map_map, List.length_map, List.length_range]
  apply List.map_congr_left
  intro r hr
  rw [Function.comp_apply, siblings_map_range z hpad,
    hdig r ((lt_ceilDiv_iff hk).1 (List.mem_range.1 hr))]

/-- **A tree given by functions**: where each level pads with `z` and hashes to the next, level
`s` of the tree is the `s`-th function. -/
theorem iterate_parents_map_range (hk : 0 < k) {s : ℕ} (dig : ℕ → ℕ → α)
    (hpad : ∀ t < s, ∀ q, width k n t ≤ q → dig t q = z)
    (hdig : ∀ t < s, ∀ r, r * k < width k n t → H (enc (row k (dig t) r)) = dig (t + 1) r) :
    (parents H enc z k)^[s] ((List.range n).map (dig 0)) =
      (List.range (width k n s)).map (dig s) := by
  induction s with
  | zero => rfl
  | succ s ih =>
    rw [iterate_parents_succ, ih (fun t ht => hpad t (by omega)) (fun t ht => hdig t (by omega)),
      parents_map_range H enc z hk (hpad s (by omega)) (hdig s (by omega)), width_succ]

/-- Every inner message is a group of some level. -/
theorem exists_of_mem_nodeMessages (hk : 2 ≤ k) {x : β} (h : x ∈ nodeMessages H enc z k xs) :
    ∃ t r, t < depth H enc z k xs ∧ r * k < ((parents H enc z k)^[t] xs).length ∧
      x = enc (siblings z k ((parents H enc z k)^[t] xs) r) := by
  obtain ⟨level, hlevel, hx⟩ := List.mem_flatMap.1 h
  obtain ⟨t, ht⟩ := List.mem_iff_getElem?.1 hlevel
  rw [List.getElem?_dropLast] at ht
  split_ifs at ht with hlt
  rw [getElem?_levels H enc z hk xs hlt.le, Option.some_inj] at ht
  subst ht
  obtain ⟨r, hr, rfl⟩ := List.mem_map.1 hx
  exact ⟨t, r, hlt, (lt_ceilDiv_iff (by omega)).1 (List.mem_range.1 hr), rfl⟩

/-! ## Descending in lock-step -/

/-- Digit `i % k` below the digits of `i / k`. -/
theorem position_succ (r i n : ℕ) :
    (r * k ^ n + i / k % k ^ n) * k + i % k = r * k ^ (n + 1) + i % k ^ (n + 1) := by
  rw [pow_succ', Nat.mod_mul, Nat.add_mul, Nat.mul_comm (i / k % k ^ n) k, Nat.mul_assoc,
    Nat.mul_comm (k ^ n) k]
  omega

/-- A group that is the tree's own group holds the tree's own digest. -/
theorem eq_of_group_eq_siblings (hk : 0 < k) {s : ℕ → α} {h : α} {r : ℕ}
    (he : group k s h i = siblings z k xs r) : h = xs.getD (r * k + i % k) z := by
  have hi : i % k < k := Nat.mod_lt _ hk
  have := congrArg (fun l => l[i % k]?) he
  simpa [group, siblings, hi] using this

/-- **Descent.** Let a climb end in digest `r` of level `D` of the tree over `xs`. Then its
starting digest is the tree's digest as many levels below, at the position spelled by `r` and
the digits of `i`; or the climb collides with the tree, or it starts from or passes through the
padding digest. -/
theorem descend (hk : 2 ≤ k)
    (henc : ∀ a b : List α, a.length = k → b.length = k → enc a = enc b → a = b)
    (xs : List α) {D r : ℕ} (hD : D ≤ depth H enc z k xs) :
    ∀ (ss : List (ℕ → α)) (h : α) (i : ℕ), ss.length ≤ D →
      r < ((parents H enc z k)^[D] xs).length →
      (climb H enc k ss h i).1 = ((parents H enc z k)^[D] xs).getD r z →
      Collides H (climbMessages H enc k ss h i ++ nodeMessages H enc z k xs) ∨
        Hits H z (climbMessages H enc k ss h i) ∨ h = z ∨
        (r * k ^ ss.length + i % k ^ ss.length < ((parents H enc z k)^[D - ss.length] xs).length ∧
          h = ((parents H enc z k)^[D - ss.length] xs).getD
            (r * k ^ ss.length + i % k ^ ss.length) z)
  | [], h, i, _, hr, he => by
    refine .inr (.inr (.inr ?_))
    simpa [Nat.mod_one, climb] using And.intro hr he
  | s :: ss, h, i, hlen, hr, he => by
    rw [List.length_cons] at hlen ⊢
    rw [climbMessages]
    obtain hcol | hhit | hz | ⟨hp, hh⟩ :=
      descend hk henc xs hD ss _ (i / k) (by omega) hr he
    · refine .inl (hcol.mono ?_)
      exact List.append_subset.2 ⟨fun x hx => by simp [hx], fun x hx => by simp [hx]⟩
    · exact .inr (.inl (hhit.mono fun x hx => List.mem_cons_of_mem _ hx))
    · exact .inr (.inl ⟨_, List.mem_cons_self, hz⟩)
    -- the running digest is the tree's one step up, so the two groups hash alike
    set p := r * k ^ ss.length + i / k % k ^ ss.length with hpdef
    set L := (parents H enc z k)^[D - (ss.length + 1)] xs with hL
    have hup : (parents H enc z k)^[D - ss.length] xs = parents H enc z k L := by
      rw [← iterate_parents_succ, show D - (ss.length + 1) + 1 = D - ss.length by omega]
    rw [hup, length_parents, lt_ceilDiv_iff (by omega)] at hp
    rw [hup, List.getD_eq_getElem?_getD, getElem?_parents H enc z (by omega) hp,
      Option.getD_some] at hh
    have hmem : enc (siblings z k L p) ∈ nodeMessages H enc z k xs :=
      mem_nodeMessages H enc z hk xs (by omega) hp
    obtain heq | hcol := eq_or_collides (S := (enc (group k s h i) :: climbMessages H enc k ss
      (H (enc (group k s h i))) (i / k)) ++ nodeMessages H enc z k xs) (by simp)
      (List.mem_append_right _ hmem) hh
    · have hsib := henc _ _ (length_group s h i) (length_siblings z k L p) heq
      have hval := eq_of_group_eq_siblings z (by omega) hsib
      rw [position_succ] at hval
      by_cases hin : r * k ^ (ss.length + 1) + i % k ^ (ss.length + 1) < L.length
      · exact .inr (.inr (.inr ⟨hin, hval⟩))
      · -- the position is filled with padding
        rw [List.getD_eq_default _ _ (not_lt.1 hin)] at hval
        exact .inr (.inr (.inl hval))
    · exact .inl hcol

variable (k)

/-- The messages hashed when the message `m` is opened at position `i`. -/
def openingMessages (ss : List (ℕ → α)) (m : β) (i : ℕ) : List β :=
  m :: climbMessages H enc k ss (H m) i

/-- The hash function fails on the opening of `m` at position `i` of the tree over `ms`: two of the
messages collide, or one of the opening hashes to the padding. -/
def Fails (ss : List (ℕ → α)) (m : β) (i : ℕ) (ms : List β) : Prop :=
  Collides H (openingMessages H enc k ss m i ++ treeMessages H enc z k ms) ∨
    Hits H z (openingMessages H enc k ss m i)

variable {k}

/-- Where an opening of `d` steps from position `i` meets a tree of height `D`: its position in
level `D - d`, or among the leaves if it is longer than the tree. -/
def landing (k D d i : ℕ) : ℕ := i / k ^ (d - D) % k ^ min d D

section Opening

variable (hk : 2 ≤ k) (henc : ∀ a b : List α, a.length = k → b.length = k → enc a = enc b → a = b)
  {ms : List β} {m : β} {i : ℕ} {ss : List (ℕ → α)} (hne : ms ≠ [])
  (hroot : root H enc z k (ms.map H) = some (climb H enc k ss (H m) i).1)

include hk henc hne hroot

/-- An opening no longer than the tree is deep: the opened message hashes to the tree's digest
at the level the climb started from. -/
theorem opening_le_depth (hlen : ss.length ≤ depth H enc z k (ms.map H)) :
    Fails H enc z k ss m i ms ∨
      (i % k ^ ss.length <
          ((parents H enc z k)^[depth H enc z k (ms.map H) - ss.length] (ms.map H)).length ∧
        H m = ((parents H enc z k)^[depth H enc z k (ms.map H) - ss.length] (ms.map H)).getD
          (i % k ^ ss.length) z) := by
  have hne' : ms.map H ≠ [] := by simpa using hne
  rw [root_eq H enc z hk hne', Option.some_inj] at hroot
  have htop := length_top H enc z hk hne'
  obtain hcol | hhit | hz | hpos := descend H enc z hk henc (ms.map H) le_rfl ss (H m) i hlen
    (r := 0) (by omega) hroot.symm
  · refine .inl (.inl (hcol.mono ?_))
    apply List.append_subset.2
    exact ⟨fun x hx => by simp [openingMessages, hx], fun x hx => by simp [treeMessages, hx]⟩
  · exact .inl (.inr (hhit.mono fun x hx => List.mem_cons_of_mem _ hx))
  · exact .inl (.inr ⟨m, List.mem_cons_self, hz⟩)
  · exact .inr (by simpa only [Nat.zero_mul, Nat.zero_add] using hpos)

/-- An opening longer than the tree is deep: one of its groups is hashed where the tree has the
leaf at the position spelled by the upper digits of `i`. -/
theorem opening_gt_depth (hlen : depth H enc z k (ms.map H) < ss.length) :
    Fails H enc z k ss m i ms ∨
      ∃ x ∈ climbMessages H enc k ss (H m) i,
        ms[i / k ^ (ss.length - depth H enc z k (ms.map H)) %
          k ^ depth H enc z k (ms.map H)]? = some x := by
  have hne' : ms.map H ≠ [] := by simpa using hne
  set D := depth H enc z k (ms.map H) with hD
  -- the part of the climb above the tree's leaves, and what comes before it
  set lower := ss.take (ss.length - D) with hlower
  set upper := ss.drop (ss.length - D) with hupper
  have hsplit : ss = lower ++ upper := (List.take_append_drop _ _).symm
  have hup : upper.length = D := by rw [List.length_drop]; omega
  have hlowlen : lower.length = ss.length - D := by rw [List.length_take]; omega
  have hlow : lower ≠ [] := List.ne_nil_of_length_pos (by omega)
  obtain ⟨x, hx, hxe⟩ := exists_message_of_climb H enc hlow (H m) i
  have hmsgs : climbMessages H enc k ss (H m) i = climbMessages H enc k lower (H m) i ++
      climbMessages H enc k upper (climb H enc k lower (H m) i).1
        (climb H enc k lower (H m) i).2 := by
    rw [hsplit, climbMessages_append]
  have hxs : x ∈ climbMessages H enc k ss (H m) i := by
    rw [hmsgs]
    exact List.mem_append_left _ hx
  rw [root_eq H enc z hk hne', Option.some_inj, hsplit, climb_append] at hroot
  have htop := length_top H enc z hk hne'
  obtain hcol | hhit | hz | ⟨hp, hh⟩ := descend H enc z hk henc (ms.map H) le_rfl upper _ _
    hup.le (r := 0) (by omega) hroot.symm
  · refine .inl (.inl (hcol.mono ?_))
    apply List.append_subset.2
    exact ⟨fun y hy => by simp [openingMessages, hmsgs, hy],
      fun y hy => by simp [treeMessages, hy]⟩
  · exact .inl (.inr (hhit.mono fun y hy => by simp [openingMessages, hmsgs, hy]))
  · exact .inl (.inr ⟨x, by simp [openingMessages, hxs], hxe.symm.trans hz⟩)
  · rw [hup, Nat.sub_self, Function.iterate_zero_apply, List.length_map, Nat.zero_mul,
      Nat.zero_add, climb_snd, hlowlen] at hp
    rw [hup, Nat.sub_self, Function.iterate_zero_apply, Nat.zero_mul, Nat.zero_add, climb_snd,
      hlowlen, List.getD_eq_getElem _ _ (by rwa [List.length_map]), List.getElem_map, hxe] at hh
    obtain heq | hcol := eq_or_collides (S := openingMessages H enc k ss m i ++
      treeMessages H enc z k ms) (by simp [openingMessages, hxs])
      (by simp [treeMessages]) hh
    · exact .inr ⟨x, hxs, by rw [List.getElem?_eq_getElem hp, heq]⟩
    · exact .inl (.inl hcol)

/-- An opening as long as the tree is deep opens the leaf message at its position. -/
theorem opening_eq_depth (hlen : ss.length = depth H enc z k (ms.map H)) :
    Fails H enc z k ss m i ms ∨ ms[i % k ^ ss.length]? = some m := by
  obtain hfails | ⟨hp, hh⟩ := opening_le_depth H enc z hk henc hne hroot hlen.le
  · exact .inl hfails
  · rw [hlen, Nat.sub_self, Function.iterate_zero_apply, ← hlen, List.length_map] at hp
    rw [hlen, Nat.sub_self, Function.iterate_zero_apply, ← hlen,
      List.getD_eq_getElem _ _ (by rwa [List.length_map]), List.getElem_map] at hh
    obtain hm | hcol := eq_or_collides (S := openingMessages H enc k ss m i ++
      treeMessages H enc z k ms) (by simp [openingMessages]) (by simp [treeMessages]) hh
    · exact .inr (by rw [List.getElem?_eq_getElem hp, ← hm])
    · exact .inl (.inl hcol)

/-- **What an accepted opening shows.** A climb from the digest of `m` at position `i` to the
root of the tree over the messages `ms` opens the message at that position, or has another
length than the tree and confuses inner messages with leaf messages, or exhibits a collision or
a preimage of the padding. -/
theorem opening_cases :
    Fails H enc z k ss m i ms ∨
      (ss.length = depth H enc z k (ms.map H) ∧ ms[i % k ^ ss.length]? = some m) ∨
      (ss.length < depth H enc z k (ms.map H) ∧ m ∈ nodeMessages H enc z k (ms.map H)) ∨
      (depth H enc z k (ms.map H) < ss.length ∧
        ∃ x ∈ climbMessages H enc k ss (H m) i, x ∈ ms) := by
  obtain hgt | hle := lt_or_ge (depth H enc z k (ms.map H)) ss.length
  · obtain hfails | ⟨x, hx, hxs⟩ := opening_gt_depth H enc z hk henc hne hroot hgt
    · exact .inl hfails
    · exact .inr (.inr (.inr ⟨hgt, x, hx, List.mem_of_getElem? hxs⟩))
  obtain heq | hlt := hle.eq_or_lt
  · obtain hfails | hm := opening_eq_depth H enc z hk henc hne hroot heq
    · exact .inl hfails
    · exact .inr (.inl ⟨heq, hm⟩)
  obtain hfails | ⟨hp, hh⟩ := opening_le_depth H enc z hk henc hne hroot hle
  · exact .inl hfails
  · -- the climb starts at an inner level
    set t := depth H enc z k (ms.map H) - ss.length - 1 with ht
    have hup : (parents H enc z k)^[depth H enc z k (ms.map H) - ss.length] (ms.map H) =
        parents H enc z k ((parents H enc z k)^[t] (ms.map H)) := by
      rw [← iterate_parents_succ, Nat.sub_add_cancel (by omega)]
    rw [hup, length_parents, lt_ceilDiv_iff (by omega)] at hp
    rw [hup, List.getD_eq_getElem?_getD, getElem?_parents H enc z (by omega) hp,
      Option.getD_some] at hh
    have hmem := mem_nodeMessages H enc z hk (ms.map H) (t := t) (by omega) hp
    obtain hm | hcol := eq_or_collides (S := openingMessages H enc k ss m i ++
      treeMessages H enc z k ms) (by simp [openingMessages])
      (by rw [treeMessages]; simp [hmem]) hh
    · exact .inr (.inr (.inl ⟨hlt, hm ▸ hmem⟩))
    · exact .inl (.inl hcol)

/-- **Where an accepted opening meets the tree**: at a node the tree has, or the opening
exhibits a collision or a preimage of the padding. -/
theorem opening_lands :
    Fails H enc z k ss m i ms ∨
      landing k (height k ms.length) ss.length i <
        width k ms.length (height k ms.length - ss.length) := by
  have hD : depth H enc z k (ms.map H) = height k ms.length := by
    rw [depth_eq_height, List.length_map]
  obtain hgt | hle := lt_or_ge (depth H enc z k (ms.map H)) ss.length
  · obtain hfails | ⟨x, -, hx⟩ := opening_gt_depth H enc z hk henc hne hroot hgt
    · exact .inl hfails
    · rw [hD] at hx hgt
      rw [landing, min_eq_right hgt.le, Nat.sub_eq_zero_of_le hgt.le]
      exact .inr (List.getElem?_eq_some_iff.1 hx).1
  · obtain hfails | ⟨hp, -⟩ := opening_le_depth H enc z hk henc hne hroot hle
    · exact .inl hfails
    · rw [length_level, List.length_map, hD] at hp
      rw [hD] at hle
      rw [landing, min_eq_left hle, Nat.sub_eq_zero_of_le hle, pow_zero, Nat.div_one]
      exact .inr hp

end Opening

end Foundations.HashTree
