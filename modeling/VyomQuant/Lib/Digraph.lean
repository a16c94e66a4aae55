/-
  VyomQuant.Lib.Digraph

  Finite directed graphs given by the list of their arcs, and the iterative search that
  finds what a set of roots reaches.

  The search keeps a stack and the nodes already entered.  A node is entered once, so it
  takes at most one step for each root and each arc: with that much fuel it finds exactly
  what the roots reach (`mem_reachableFrom`).
-/

import Mathlib.Data.List.Basic
import Mathlib.Data.List.Chain
import Mathlib.Data.List.Nodup
import Mathlib.Logic.Relation

/-! ## Keeping the first of equal items -/

theorem List.nodup_eraseDups {α : Type*} [DecidableEq α] (l : List α) : l.eraseDups.Nodup := by
  induction h_length : l.length using Nat.strongRecOn generalizing l with
  | ind n ih =>
    cases l with
    | nil => simp
    | cons a rest =>
      have h_shorter := List.length_filter_le (fun b => !b == a) rest
      rw [List.length_cons] at h_length
      rw [List.eraseDups_cons]
      refine List.nodup_cons.mpr ⟨?_, ih _ (by omega) _ rfl⟩
      simp [List.mem_eraseDups]

namespace Digraph

variable {ν : Type*}

/-! ## Arcs -/

/-- There is an arc from `v` to `w`. -/
def Arc (arcs : List (ν × ν)) (v w : ν) : Prop := (v, w) ∈ arcs

/-- `w` is `v` or downstream of it. -/
def Reaches (arcs : List (ν × ν)) : ν → ν → Prop := Relation.ReflTransGen (Arc arcs)

def Acyclic (arcs : List (ν × ν)) : Prop := ∀ v, ¬ Relation.TransGen (Arc arcs) v v

/-- Nodes each with an arc to the next one, the first of them again at the end. -/
def ClosedWalk (arcs : List (ν × ν)) (nodes : List ν) : Prop :=
  nodes.IsChain (Arc arcs) ∧ ∃ v rest, nodes = v :: (rest ++ [v])

variable {arcs arcs' : List (ν × ν)} {v w : ν}

/-- A path from `v` on, and an arc back to `v` from its tip. -/
theorem ClosedWalk.of_path {tip : ν} {nodes : List ν} (h_chain : nodes.IsChain (Arc arcs))
    (h_head : nodes.head? = some v) (h_tip : nodes.getLast? = some tip) (h_arc : Arc arcs tip v) :
    ClosedWalk arcs (nodes ++ [v]) := by
  obtain ⟨rest, rfl⟩ := List.head?_eq_some_iff.mp h_head
  refine ⟨h_chain.append (List.IsChain.singleton v) ?_, v, rest, rfl⟩
  intro x h_x y h_y
  obtain rfl := Option.some.inj (h_tip.symm.trans h_x)
  obtain rfl := Option.some.inj h_y
  exact h_arc

theorem ClosedWalk.not_acyclic {nodes : List ν} (h : ClosedWalk arcs nodes) : ¬ Acyclic arcs := by
  obtain ⟨h_chain, v, rest, rfl⟩ := h
  intro h_acyclic
  have h_pairs := List.isChain_iff_pairwise.mp
    (h_chain.imp fun _ _ h => Relation.TransGen.single h)
  exact h_acyclic v (List.rel_of_pairwise_cons h_pairs (List.mem_append_right _ List.mem_cons_self))

theorem acyclic_of_rank {rank : ν → ℕ} (h : ∀ u v, Arc arcs u v → rank u < rank v) :
    Acyclic arcs := by
  intro v h_cycle
  have h_lt : ∀ w, Relation.TransGen (Arc arcs) v w → rank v < rank w := by
    intro w h_w
    induction h_w with
    | single h_arc => exact h _ _ h_arc
    | tail _ h_arc ih => exact Nat.lt_trans ih (h _ _ h_arc)
  exact Nat.lt_irrefl _ (h_lt v h_cycle)

theorem transGen_insert {s t : ν} (h_arcs : ∀ a ∈ arcs', a ∈ arcs ∨ a = (s, t))
    (h : Relation.TransGen (Arc arcs') v w) :
    Relation.TransGen (Arc arcs) v w ∨ Reaches arcs' v s ∧ Reaches arcs' t w := by
  induction h with
  | single h_arc =>
    rcases h_arcs _ h_arc with h | h
    · exact .inl (.single h)
    · cases h
      exact .inr ⟨.refl, .refl⟩
  | tail h_way h_arc ih =>
    rcases h_arcs _ h_arc with h | h
    · rcases ih with h_old | ⟨h_s, h_t⟩
      · exact .inl (h_old.tail h)
      · exact .inr ⟨h_s, h_t.tail h_arc⟩
    · cases h
      exact .inr ⟨h_way.to_reflTransGen, .refl⟩

theorem Acyclic.insert {s t : ν} (h : Acyclic arcs) (h_arcs : ∀ a ∈ arcs', a ∈ arcs ∨ a = (s, t))
    (h_apart : ¬ Reaches arcs' t s) : Acyclic arcs' := by
  intro v h_cycle
  rcases transGen_insert h_arcs h_cycle with h_old | ⟨h_s, h_t⟩
  · exact h v h_old
  · exact h_apart (h_t.trans h_s)

/-- The arcs the other way round. -/
def converse (arcs : List (ν × ν)) : List (ν × ν) := arcs.map Prod.swap

theorem arc_converse : Arc (converse arcs) v w ↔ Arc arcs w v := by
  unfold Arc converse
  rw [List.mem_map]
  constructor
  · rintro ⟨⟨a, b⟩, h_mem, h_eq⟩
    cases h_eq
    exact h_mem
  · intro h_mem
    exact ⟨(w, v), h_mem, rfl⟩

theorem reaches_converse : Reaches (converse arcs) v w ↔ Reaches arcs w v := by
  unfold Reaches
  rw [← Relation.reflTransGen_swap (r := Arc arcs)]
  have h_rel : Arc (converse arcs) = Function.swap (Arc arcs) := by
    funext a b
    exact propext arc_converse
  rw [h_rel]

theorem Acyclic.converse (h : Acyclic arcs) : Acyclic (converse arcs) := by
  have h_rel : Arc (Digraph.converse arcs) = Function.swap (Arc arcs) := by
    funext a b
    exact propext arc_converse
  intro v h_cycle
  rw [h_rel, Relation.transGen_swap] at h_cycle
  exact h v h_cycle

theorem Reaches.congr (h : ∀ a, a ∈ arcs ↔ a ∈ arcs') : Reaches arcs = Reaches arcs' := by
  have h_rel : Arc arcs = Arc arcs' := by
    funext v w
    exact propext (h (v, w))
  unfold Reaches
  rw [h_rel]

theorem Acyclic.congr (h : ∀ a, a ∈ arcs ↔ a ∈ arcs') : Acyclic arcs ↔ Acyclic arcs' := by
  have h_rel : Arc arcs = Arc arcs' := by
    funext v w
    exact propext (h (v, w))
  unfold Acyclic
  rw [h_rel]

variable [DecidableEq ν]

/-- The targets of the arcs out of `v`, in their order. -/
def successors (arcs : List (ν × ν)) (v : ν) : List ν :=
  arcs.filterMap fun arc => if arc.1 = v then some arc.2 else none

@[simp] theorem mem_successors : w ∈ successors arcs v ↔ Arc arcs v w := by
  unfold successors Arc
  rw [List.mem_filterMap]
  constructor
  · rintro ⟨⟨a, b⟩, h_mem, h_eq⟩
    split at h_eq
    · rename_i h_a
      cases h_a
      cases h_eq
      exact h_mem
    · cases h_eq
  · intro h_mem
    exact ⟨(v, w), h_mem, if_pos rfl⟩

theorem length_successors (arcs : List (ν × ν)) (v : ν) :
    (successors arcs v).length = (arcs.filter fun arc => arc.1 = v).length := by
  unfold successors
  induction arcs with
  | nil => rfl
  | cons arc rest ih =>
    by_cases h : arc.1 = v
    · simp [h, ih]
    · simp [h, ih]

variable {seen : List ν}

/-- The arcs out of what is not yet in `seen` include those out of a further node. -/
theorem length_filter_enter (h : v ∉ seen) (arcs : List (ν × ν)) :
    (arcs.filter fun arc => arc.1 ∉ v :: seen).length + (successors arcs v).length
      = (arcs.filter fun arc => arc.1 ∉ seen).length := by
  rw [length_successors]
  induction arcs with
  | nil => rfl
  | cons arc rest ih =>
    by_cases h_v : arc.1 = v
    · have h_seen : arc.1 ∉ seen := h_v ▸ h
      rw [List.filter_cons_of_neg (by simp [h_v]), List.filter_cons_of_pos (by simpa using h_v),
        List.filter_cons_of_pos (by simpa using h_seen)]
      simp only [List.length_cons]
      omega
    · by_cases h_seen : arc.1 ∈ seen
      · rw [List.filter_cons_of_neg (by simp [h_seen]), List.filter_cons_of_neg (by simpa using h_v),
          List.filter_cons_of_neg (by simpa using h_seen)]
        exact ih
      · rw [List.filter_cons_of_pos (by simp [h_v, h_seen]),
          List.filter_cons_of_neg (by simpa using h_v),
          List.filter_cons_of_pos (by simpa using h_seen)]
        simp only [List.length_cons]
        omega

/-! ## The search -/

/-- Take the top of the stack; where it is new, enter it and push its successors that are
    new, the last of them on top. -/
def search (arcs : List (ν × ν)) : ℕ → List ν → List ν → List ν
  | 0, _, seen => seen
  | _ + 1, [], seen => seen
  | fuel + 1, current :: stack, seen =>
    if current ∈ seen then search arcs fuel stack seen
    else
      let targets := (successors arcs current).filter fun target => target ∉ current :: seen
      search arcs fuel (targets.reverse ++ stack) (current :: seen)

def reachableFrom (arcs : List (ν × ν)) (roots : List ν) : List ν :=
  search arcs (roots.length + arcs.length) roots.reverse []

/-- What the search returns holds the stack and what was seen, and every successor of what
    it holds. -/
theorem search_complete {fuel : ℕ} {stack : List ν}
    (h_fuel : stack.length + (arcs.filter fun arc => arc.1 ∉ seen).length ≤ fuel)
    (h_closed : ∀ v ∈ seen, ∀ w, Arc arcs v w → w ∈ seen ∨ w ∈ stack) :
    (∀ v ∈ seen, v ∈ search arcs fuel stack seen) ∧
    (∀ v ∈ stack, v ∈ search arcs fuel stack seen) ∧
    ∀ v ∈ search arcs fuel stack seen, ∀ w, Arc arcs v w → w ∈ search arcs fuel stack seen := by
  induction fuel generalizing stack seen with
  | zero =>
    have h_nil : stack = [] := List.eq_nil_of_length_eq_zero (by omega)
    subst h_nil
    rw [search]
    exact ⟨fun _ h => h, nofun, fun v h w h_arc => (h_closed v h w h_arc).resolve_right nofun⟩
  | succ fuel ih =>
    cases stack with
    | nil =>
      rw [search]
      exact ⟨fun _ h => h, nofun, fun v h w h_arc => (h_closed v h w h_arc).resolve_right nofun⟩
    | cons current stack =>
      rw [List.length_cons] at h_fuel
      rw [search]
      by_cases h_seen : current ∈ seen
      · rw [if_pos h_seen]
        have h_closed' : ∀ v ∈ seen, ∀ w, Arc arcs v w → w ∈ seen ∨ w ∈ stack := by
          intro v h_v w h_arc
          rcases h_closed v h_v w h_arc with h | h
          · exact .inl h
          · rcases List.mem_cons.mp h with rfl | h
            · exact .inl h_seen
            · exact .inr h
        obtain ⟨h_kept, h_stack, h_next⟩ := ih (by omega) h_closed'
        refine ⟨h_kept, ?_, h_next⟩
        intro v h_v
        rcases List.mem_cons.mp h_v with rfl | h_v
        · exact h_kept _ h_seen
        · exact h_stack v h_v
      · rw [if_neg h_seen]
        -- Every successor of the node entered is on the new stack, or was seen before.
        have h_targets : ∀ w, Arc arcs current w → w ∈ current :: seen ∨
            w ∈ ((successors arcs current).filter fun t => t ∉ current :: seen).reverse ++ stack := by
          intro w h_arc
          by_cases h_w : w ∈ current :: seen
          · exact .inl h_w
          · refine .inr (List.mem_append_left _ (List.mem_reverse.mpr ?_))
            exact List.mem_filter.mpr ⟨mem_successors.mpr h_arc, by simpa using h_w⟩
        have h_enter := length_filter_enter h_seen arcs
        have h_le := List.length_filter_le (fun t => decide (t ∉ current :: seen))
          (successors arcs current)
        have h_closed' : ∀ v ∈ current :: seen, ∀ w, Arc arcs v w → w ∈ current :: seen ∨
            w ∈ ((successors arcs current).filter fun t => t ∉ current :: seen).reverse ++ stack := by
          intro v h_v w h_arc
          rcases List.mem_cons.mp h_v with rfl | h_v
          · exact h_targets w h_arc
          · rcases h_closed v h_v w h_arc with h | h
            · exact .inl (List.mem_cons_of_mem _ h)
            · rcases List.mem_cons.mp h with rfl | h
              · exact .inl List.mem_cons_self
              · exact .inr (List.mem_append_right _ h)
        obtain ⟨h_kept, h_stack, h_next⟩ :=
          ih (by rw [List.length_append, List.length_reverse]; omega) h_closed'
        refine ⟨fun v h_v => h_kept v (List.mem_cons_of_mem _ h_v), ?_, h_next⟩
        intro v h_v
        rcases List.mem_cons.mp h_v with rfl | h_v
        · exact h_kept _ List.mem_cons_self
        · exact h_stack v (List.mem_append_right _ h_v)

theorem search_sound {fuel : ℕ} {stack : List ν} (h : w ∈ search arcs fuel stack seen) :
    w ∈ seen ∨ ∃ v ∈ stack, Reaches arcs v w := by
  induction fuel generalizing stack seen with
  | zero => exact .inl h
  | succ fuel ih =>
    cases stack with
    | nil => exact .inl h
    | cons current stack =>
      rw [search] at h
      split at h
      · rcases ih h with h | ⟨v, h_v, h_reaches⟩
        · exact .inl h
        · exact .inr ⟨v, List.mem_cons_of_mem _ h_v, h_reaches⟩
      · rcases ih h with h | ⟨v, h_v, h_reaches⟩
        · rcases List.mem_cons.mp h with rfl | h
          · exact .inr ⟨w, List.mem_cons_self, .refl⟩
          · exact .inl h
        · rcases List.mem_append.mp h_v with h_v | h_v
          · have h_arc := mem_successors.mp (List.mem_of_mem_filter (List.mem_reverse.mp h_v))
            exact .inr ⟨current, List.mem_cons_self, .head h_arc h_reaches⟩
          · exact .inr ⟨v, List.mem_cons_of_mem _ h_v, h_reaches⟩

theorem mem_reachableFrom {roots : List ν} :
    w ∈ reachableFrom arcs roots ↔ ∃ v ∈ roots, Reaches arcs v w := by
  constructor
  · intro h
    rcases search_sound h with h | ⟨v, h_v, h_reaches⟩
    · cases h
    · exact ⟨v, List.mem_reverse.mp h_v, h_reaches⟩
  · rintro ⟨v, h_v, h_reaches⟩
    have h_fuel : roots.reverse.length + (arcs.filter fun arc => arc.1 ∉ ([] : List ν)).length
        ≤ roots.length + arcs.length := by
      have h_le := List.length_filter_le (fun arc => decide (arc.1 ∉ ([] : List ν))) arcs
      rw [List.length_reverse]
      omega
    obtain ⟨-, h_stack, h_next⟩ := search_complete h_fuel nofun
    induction h_reaches with
    | refl => exact h_stack v (List.mem_reverse.mpr h_v)
    | tail _ h_arc ih => exact h_next _ ih _ h_arc

end Digraph
