import Mathlib

/-!
# Breadth-first search

A search for a shortest path from a vertex to a goal, over a graph given by its out-edges. Paths
are lists of edges. The search keeps a queue of vertices, each with the path it was reached by, and
a list of visited vertices; a vertex is visited when it is put into the queue, not when it is taken
out. Paths of `maxLen` edges are not extended.

**`search_spec`**: the search finds a shortest path to a goal if one of at most `maxLen` edges
exists, and nothing otherwise.
-/

namespace Foundations

namespace Search

variable {V E : Type*}

/-- The queue, each vertex with the path it was reached by, and the visited vertices. -/
structure State (V E : Type*) where
  queue : List (V × List E)
  visited : List V

section Defs

variable [DecidableEq V] (out : V → List E) (dst : E → V) (goal : V → Bool) (maxLen : ℕ)

/-- Follow the out-edges of a vertex that `path` leads to. The path to a goal ends the search. -/
def scanEdges (path : List E) : List E → State V E → Except (List E) (State V E)
  | [], s => .ok s
  | e :: es, s =>
    if dst e ∈ s.visited then scanEdges path es s
    else if goal (dst e) then .error (path ++ [e])
    else scanEdges path es ⟨s.queue ++ [(dst e, path ++ [e])], dst e :: s.visited⟩

def search : ℕ → State V E → Option (List E)
  | 0, _ => none
  | fuel + 1, s =>
    match s.queue with
    | [] => none
    | (v, path) :: queue =>
      if maxLen ≤ path.length then search fuel ⟨queue, s.visited⟩
      else
        match scanEdges dst goal path (out v) ⟨queue, s.visited⟩ with
        | .error found => some found
        | .ok s => search fuel s

end Defs

def initial (start : V) : State V E := ⟨[(start, [])], [start]⟩

/-- `path` leads from one vertex to another. -/
def IsPath (out : V → List E) (dst : E → V) : V → List E → V → Prop
  | v, [], w => v = w
  | v, e :: es, w => e ∈ out v ∧ IsPath out dst (dst e) es w

variable {out : V → List E} {dst : E → V} {goal : V → Bool} {maxLen : ℕ}

theorem isPath_append {v w : V} {p q : List E} :
    IsPath out dst v (p ++ q) w ↔ ∃ u, IsPath out dst v p u ∧ IsPath out dst u q w := by
  induction p generalizing v with
  | nil => exact ⟨fun h => ⟨v, rfl, h⟩, fun ⟨u, hu, h⟩ => hu ▸ h⟩
  | cons e es ih =>
    simp only [List.cons_append, IsPath, ih]
    exact ⟨fun ⟨he, u, hu, hq⟩ => ⟨u, ⟨he, hu⟩, hq⟩, fun ⟨u, ⟨he, hu⟩, hq⟩ => ⟨he, u, hu, hq⟩⟩

theorem isPath_concat {v w : V} {p : List E} {e : E} :
    IsPath out dst v (p ++ [e]) w ↔ ∃ u, IsPath out dst v p u ∧ e ∈ out u ∧ dst e = w :=
  isPath_append

/-! ## Following the edges of one vertex -/

/-- What following edges does that meets no goal: the new vertices are put into the queue, and all
ends of the edges are visited. -/
structure Scanned (dst : E → V) (goal : V → Bool) (path es : List E) (s s' : State V E)
    (new : List (V × List E)) : Prop where
  queue_eq : s'.queue = s.queue ++ new
  visited_iff : ∀ v, v ∈ s'.visited ↔ v ∈ s.visited ∨ ∃ p, (v, p) ∈ new
  covers : ∀ e ∈ es, dst e ∈ s'.visited
  new_spec : ∀ a ∈ new, a.1 ∉ s.visited ∧ goal a.1 = false ∧
    ∃ e ∈ es, a = (dst e, path ++ [e])

section Scan

variable [DecidableEq V]

theorem scanEdges_ok {path es : List E} {s s' : State V E}
    (h : scanEdges dst goal path es s = .ok s') : ∃ new, Scanned dst goal path es s s' new := by
  induction es generalizing s with
  | nil =>
    cases h
    exact ⟨[], by simp, by simp, by simp, by simp⟩
  | cons e es ih =>
    rw [scanEdges] at h
    split_ifs at h with hvisited hgoal
    · obtain ⟨new, hnew⟩ := ih h
      refine ⟨new, hnew.queue_eq, hnew.visited_iff, ?_, ?_⟩
      · rintro e' he'
        rcases List.mem_cons.1 he' with rfl | he'
        · exact (hnew.visited_iff _).2 (.inl hvisited)
        · exact hnew.covers e' he'
      · intro a ha
        obtain ⟨hfresh, hnogoal, e', he', heq⟩ := hnew.new_spec a ha
        exact ⟨hfresh, hnogoal, e', List.mem_cons_of_mem _ he', heq⟩
    · obtain ⟨new, hnew⟩ := ih h
      refine ⟨(dst e, path ++ [e]) :: new, ?_, ?_, ?_, ?_⟩
      · rw [hnew.queue_eq, List.append_assoc, List.singleton_append]
      · intro v
        rw [hnew.visited_iff]
        simp only [List.mem_cons, Prod.mk.injEq]
        constructor
        · rintro ((rfl | hv) | ⟨p, hp⟩)
          · exact .inr ⟨_, .inl ⟨rfl, rfl⟩⟩
          · exact .inl hv
          · exact .inr ⟨p, .inr hp⟩
        · rintro (hv | ⟨p, ⟨rfl, -⟩ | hp⟩)
          · exact .inl (.inr hv)
          · exact .inl (.inl rfl)
          · exact .inr ⟨p, hp⟩
      · rintro e' he'
        rcases List.mem_cons.1 he' with rfl | he'
        · exact (hnew.visited_iff _).2 (.inl List.mem_cons_self)
        · exact hnew.covers e' he'
      · intro a ha
        rcases List.mem_cons.1 ha with rfl | ha
        · exact ⟨hvisited, by simpa using hgoal, e, List.mem_cons_self, rfl⟩
        · obtain ⟨hfresh, hnogoal, e', he', heq⟩ := hnew.new_spec a ha
          exact ⟨fun hv => hfresh (List.mem_cons_of_mem _ hv), hnogoal, e',
            List.mem_cons_of_mem _ he', heq⟩

theorem scanEdges_error {path es found : List E} {s : State V E}
    (h : scanEdges dst goal path es s = .error found) :
    ∃ e ∈ es, found = path ++ [e] ∧ goal (dst e) = true := by
  induction es generalizing s with
  | nil => cases h
  | cons e es ih =>
    rw [scanEdges] at h
    split_ifs at h with hvisited hgoal
    · obtain ⟨e', he', hfound⟩ := ih h
      exact ⟨e', List.mem_cons_of_mem _ he', hfound⟩
    · cases h
      exact ⟨e, List.mem_cons_self, rfl, hgoal⟩
    · obtain ⟨e', he', hfound⟩ := ih h
      exact ⟨e', List.mem_cons_of_mem _ he', hfound⟩

/-! ## Termination

Every vertex is put into the queue at most once. -/

/-- The vertices still to be taken from the queue, if all the unvisited ones are put into it. -/
def pending (nodes : Finset V) (s : State V E) : ℕ :=
  s.queue.length + (nodes \ s.visited.toFinset).card

theorem pending_scanEdges {nodes : Finset V} {path es : List E} {s s' : State V E}
    (hnodes : ∀ e ∈ es, dst e ∈ nodes) (h : scanEdges dst goal path es s = .ok s') :
    pending nodes s' = pending nodes s := by
  induction es generalizing s with
  | nil =>
    cases h
    rfl
  | cons e es ih =>
    have hrest : ∀ e' ∈ es, dst e' ∈ nodes := fun e' he' => hnodes e' (List.mem_cons_of_mem _ he')
    rw [scanEdges] at h
    split_ifs at h with hvisited hgoal
    · exact ih hrest h
    · rw [ih hrest h, pending, pending, List.length_append, List.length_singleton,
        List.toFinset_cons, Finset.sdiff_insert]
      have hmem : dst e ∈ nodes \ s.visited.toFinset :=
        Finset.mem_sdiff.2 ⟨hnodes e List.mem_cons_self, by simpa using hvisited⟩
      have hcard := Finset.card_erase_add_one hmem
      omega

end Scan

/-! ## The invariant -/

/-- The search from `start`: the queue is sorted by length, within two consecutive lengths, holds
shortest paths, and every visited vertex is in the queue, or all its out-edges were followed, or it
is too far away. -/
structure Inv (out : V → List E) (dst : E → V) (goal : V → Bool) (maxLen : ℕ) (start : V)
    (s : State V E) : Prop where
  isPath : ∀ a ∈ s.queue, IsPath out dst start a.2 a.1
  shortest : ∀ a ∈ s.queue, ∀ q, IsPath out dst start q a.1 → a.2.length ≤ q.length
  sorted : s.queue.Pairwise fun a b => a.2.length ≤ b.2.length
  narrow : ∀ a ∈ s.queue, ∀ b ∈ s.queue, b.2.length ≤ a.2.length + 1
  start_visited : start ∈ s.visited
  not_goal : ∀ v ∈ s.visited, goal v = false
  closed : ∀ v ∈ s.visited, (∃ p, (v, p) ∈ s.queue) ∨ (∀ e ∈ out v, dst e ∈ s.visited) ∨
    ∀ q, IsPath out dst start q v → maxLen ≤ q.length

variable {start : V} {s : State V E}

theorem inv_initial (hstart : goal start = false) :
    Inv out dst goal maxLen start (initial start) where
  isPath := by simp [initial, IsPath]
  shortest := by simp [initial]
  sorted := by simp [initial]
  narrow := by simp [initial]
  start_visited := List.mem_cons_self
  not_goal := by simpa [initial] using hstart
  closed v hv := by
    obtain rfl := List.mem_singleton.1 hv
    exact .inl ⟨[], List.mem_cons_self⟩

/-- A path to a goal that is not too long and no longer than any other one. -/
structure Shortest (out : V → List E) (dst : E → V) (goal : V → Bool) (maxLen : ℕ) (start : V)
    (p : List E) : Prop where
  isPath : ∃ w, IsPath out dst start p w ∧ goal w = true
  length_le : p.length ≤ maxLen
  minimal : ∀ q w, IsPath out dst start q w → goal w = true → p.length ≤ q.length

section Head

variable (h : Inv out dst goal maxLen start s)

include h

/-- A path that is not too long leads to a visited vertex or passes through the queue before its
end. Induction on the path from its end. -/
theorem Inv.visited_or_queued {q : List E} {w : V} (hq : IsPath out dst start q w)
    (hlen : q.length ≤ maxLen) :
    w ∈ s.visited ∨ ∃ a ∈ s.queue, a.2.length < q.length := by
  induction q using List.reverseRecOn generalizing w with
  | nil =>
    obtain rfl : start = w := hq
    exact .inl h.start_visited
  | append_singleton q e ih =>
    obtain ⟨u, hu, he, rfl⟩ := isPath_concat.1 hq
    rw [List.length_append, List.length_singleton] at hlen ⊢
    rcases ih hu (by omega) with hvisited | ⟨a, ha, hlt⟩
    · rcases h.closed u hvisited with ⟨p, hp⟩ | hclosed | hfar
      · have hle := h.shortest _ hp q hu
        exact .inr ⟨_, hp, Nat.lt_succ_of_le hle⟩
      · exact .inl (hclosed e he)
      · have := hfar q hu
        omega
    · exact .inr ⟨a, ha, by omega⟩

variable {queue : List (V × List E)} {v : V} {p : List E} (hqueue : s.queue = (v, p) :: queue)

include hqueue

/-- Nothing is closer than the head of the queue and not visited. -/
theorem Inv.visited_of_le {q : List E} {w : V} (hq : IsPath out dst start q w)
    (hle : q.length ≤ p.length) (hlen : q.length ≤ maxLen) : w ∈ s.visited := by
  rcases h.visited_or_queued hq hlen with hvisited | ⟨a, ha, hlt⟩
  · exact hvisited
  · have hsorted := h.sorted
    rw [hqueue] at ha hsorted
    have hhead : p.length ≤ a.2.length := by
      rcases List.mem_cons.1 ha with rfl | ha
      · exact le_rfl
      · exact List.rel_of_pairwise_cons hsorted ha
    omega

/-- A vertex that is too far away is dropped. -/
theorem Inv.drop (hp : maxLen ≤ p.length) :
    Inv out dst goal maxLen start ⟨queue, s.visited⟩ := by
  have hsub : ∀ a ∈ queue, a ∈ s.queue := fun a ha => hqueue ▸ List.mem_cons_of_mem _ ha
  have hhead : (v, p) ∈ s.queue := hqueue ▸ List.mem_cons_self
  refine ⟨fun a ha => h.isPath a (hsub a ha), fun a ha => h.shortest a (hsub a ha), ?_,
    fun a ha b hb => h.narrow a (hsub a ha) b (hsub b hb), h.start_visited, h.not_goal, ?_⟩
  · exact (hqueue ▸ h.sorted).of_cons
  · intro u hu
    rcases h.closed u hu with ⟨p', hp'⟩ | hrest
    · rw [hqueue, List.mem_cons] at hp'
      rcases hp' with heq | hp'
      · cases heq
        exact .inr (.inr fun q hq => hp.trans (h.shortest _ hhead q hq))
      · exact .inl ⟨p', hp'⟩
    · exact .inr hrest

/-- The edges of the head of the queue are followed. -/
theorem Inv.expand {new : List (V × List E)} {s' : State V E} (hp : p.length < maxLen)
    (hscan : Scanned dst goal p (out v) ⟨queue, s.visited⟩ s' new) :
    Inv out dst goal maxLen start s' := by
  have hsub : ∀ a ∈ queue, a ∈ s.queue := fun a ha => hqueue ▸ List.mem_cons_of_mem _ ha
  have hhead : (v, p) ∈ s.queue := hqueue ▸ List.mem_cons_self
  have hsorted : ((v, p) :: queue).Pairwise fun a b => a.2.length ≤ b.2.length :=
    hqueue ▸ h.sorted
  have hnewLen : ∀ a ∈ new, a.2.length = p.length + 1 := by
    intro a ha
    obtain ⟨-, -, e, -, rfl⟩ := hscan.new_spec a ha
    simp
  have hold : ∀ a ∈ queue, p.length ≤ a.2.length ∧ a.2.length ≤ p.length + 1 := fun a ha =>
    ⟨List.rel_of_pairwise_cons hsorted ha, h.narrow _ hhead a (hsub a ha)⟩
  have hmem : ∀ a, a ∈ s'.queue ↔ a ∈ queue ∨ a ∈ new := fun a => by
    rw [hscan.queue_eq, List.mem_append]
  have hwidth : ∀ a ∈ s'.queue, p.length ≤ a.2.length ∧ a.2.length ≤ p.length + 1 := by
    intro a ha
    rcases (hmem a).1 ha with ha | ha
    · exact hold a ha
    · have := hnewLen a ha
      omega
  have hvisited : ∀ u ∈ s.visited, u ∈ s'.visited := fun u hu => (hscan.visited_iff u).2 (.inl hu)
  refine ⟨?_, ?_, ?_, ?_, hvisited _ h.start_visited, ?_, ?_⟩
  · intro a ha
    rcases (hmem a).1 ha with ha | ha
    · exact h.isPath a (hsub a ha)
    · obtain ⟨-, -, e, he, rfl⟩ := hscan.new_spec a ha
      exact isPath_concat.2 ⟨v, h.isPath _ hhead, he, rfl⟩
  · intro a ha q hq
    rcases (hmem a).1 ha with ha | ha
    · exact h.shortest a (hsub a ha) q hq
    · -- a shorter path would have led to a visited vertex
      obtain ⟨hfresh, -, -⟩ := hscan.new_spec a ha
      rw [hnewLen a ha]
      by_contra! hlt
      exact hfresh (h.visited_of_le hqueue hq (by omega) (by omega))
  · rw [hscan.queue_eq, List.pairwise_append]
    refine ⟨hsorted.of_cons, ?_, ?_⟩
    · refine List.pairwise_of_forall_mem_list fun a ha b hb => ?_
      rw [hnewLen a ha, hnewLen b hb]
    · intro a ha b hb
      rw [hnewLen b hb]
      exact (hold a ha).2
  · intro a ha b hb
    have h₁ := hwidth a ha
    have h₂ := hwidth b hb
    omega
  · intro u hu
    rcases (hscan.visited_iff u).1 hu with hu | ⟨p', hp'⟩
    · exact h.not_goal u hu
    · exact (hscan.new_spec _ hp').2.1
  · intro u hu
    rcases (hscan.visited_iff u).1 hu with hu | ⟨p', hp'⟩
    · rcases h.closed u hu with ⟨p', hp'⟩ | hclosed | hfar
      · rw [hqueue, List.mem_cons] at hp'
        rcases hp' with heq | hp'
        · cases heq
          exact .inr (.inl hscan.covers)
        · exact .inl ⟨p', (hmem _).2 (.inl hp')⟩
      · exact .inr (.inl fun e he => hvisited _ (hclosed e he))
      · exact .inr (.inr hfar)
    · exact .inl ⟨p', (hmem _).2 (.inr hp')⟩

theorem Inv.shortest_of_found (hp : p.length < maxLen) {e : E} (he : e ∈ out v)
    (hgoal : goal (dst e) = true) : Shortest out dst goal maxLen start (p ++ [e]) where
  isPath := ⟨dst e, isPath_concat.2 ⟨v, h.isPath _ (hqueue ▸ List.mem_cons_self), he, rfl⟩, hgoal⟩
  length_le := by simpa using hp
  minimal q w hq hw := by
    rw [List.length_append, List.length_singleton]
    by_contra! hlt
    have hvisited := h.visited_of_le hqueue hq (by omega) (by omega)
    rw [h.not_goal w hvisited] at hw
    cases hw

end Head

variable [DecidableEq V]

/-- Induction on the fuel, which covers what is pending. -/
theorem Inv.search {nodes : Finset V} (hnodes : ∀ v, ∀ e ∈ out v, dst e ∈ nodes) {fuel : ℕ}
    (h : Inv out dst goal maxLen start s) (hfuel : pending nodes s < fuel) :
    match search out dst goal maxLen fuel s with
    | some p => Shortest out dst goal maxLen start p
    | none => ∀ q w, IsPath out dst start q w → goal w = true → maxLen < q.length := by
  induction fuel generalizing s with
  | zero => omega
  | succ fuel ih =>
    rw [Search.search]
    cases hqueue : s.queue with
    | nil =>
      intro q w hq hw
      by_contra! hle
      rcases h.visited_or_queued hq hle with hvisited | ⟨a, ha, -⟩
      · rw [h.not_goal w hvisited] at hw
        cases hw
      · rw [hqueue] at ha
        cases ha
    | cons a queue =>
      obtain ⟨v, p⟩ := a
      have hpop : pending nodes ⟨queue, s.visited⟩ < fuel := by
        rw [pending, hqueue, List.length_cons] at hfuel
        change queue.length + (nodes \ s.visited.toFinset).card < fuel
        omega
      dsimp only
      by_cases hp : maxLen ≤ p.length
      · rw [if_pos hp]
        exact ih (h.drop hqueue hp) hpop
      · rw [if_neg hp]
        cases hscan : scanEdges dst goal p (out v) ⟨queue, s.visited⟩ with
        | error found =>
          obtain ⟨e, he, rfl, hgoal⟩ := scanEdges_error hscan
          exact h.shortest_of_found hqueue (not_le.1 hp) he hgoal
        | ok s' =>
          obtain ⟨new, hnew⟩ := scanEdges_ok hscan
          refine ih (h.expand hqueue (not_le.1 hp) hnew) ?_
          rwa [pending_scanEdges (hnodes v) hscan]

/-- **The search is exact**: it finds a shortest path to a goal, or there is none of at most
`maxLen` edges. -/
theorem search_spec (goal : V → Bool) (maxLen : ℕ) {nodes : Finset V}
    (hnodes : ∀ v, ∀ e ∈ out v, dst e ∈ nodes) {fuel : ℕ} (hfuel : nodes.card + 1 < fuel)
    (hstart : goal start = false) :
    match search out dst goal maxLen fuel (initial start) with
    | some p => Shortest out dst goal maxLen start p
    | none => ∀ q w, IsPath out dst start q w → goal w = true → maxLen < q.length := by
  refine (inv_initial hstart).search hnodes ?_
  have hle : (nodes \ ([start] : List V).toFinset).card ≤ nodes.card :=
    Finset.card_le_card Finset.sdiff_subset
  change 1 + (nodes \ ([start] : List V).toFinset).card < fuel
  omega

end Search

end Foundations
