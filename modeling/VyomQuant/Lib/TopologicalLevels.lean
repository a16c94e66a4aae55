/-
  VyomQuant.Lib.TopologicalLevels

  Kahn's algorithm by levels: count the arcs into each node, emit at once every node that
  has none left, in order, and take its arcs away.

  The levels depend on the sets of the nodes and of the arcs only (`Levelled.unique`).  On
  an acyclic graph they hold every node once, each after all that it depends on
  (`topologicalOrder_of_acyclic`).
-/

import Mathlib.Data.List.Sort
import Mathlib.Data.Set.Finite.Lattice
import Mathlib.Logic.Function.Basic
import Mathlib.Order.WellFoundedSet
import VyomQuant.Lib.Digraph

namespace Digraph

variable {ν : Type*} [DecidableEq ν]

/-! ## Counting down -/

/-- The arcs left into each node, and the nodes that have none left since the level began. -/
structure Countdown (ν : Type*) where
  inDegree : ν → ℕ
  nextReady : List ν

/-- Take away one arc into `target`. -/
def Countdown.release (s : Countdown ν) (target : ν) : Countdown ν :=
  let inDegree := Function.update s.inDegree target (s.inDegree target - 1)
  { inDegree := inDegree
    nextReady := if inDegree target = 0 then s.nextReady.insert target else s.nextReady }

/-- Take away the arcs out of `node`. -/
def Countdown.emit (arcs : List (ν × ν)) (s : Countdown ν) (node : ν) : Countdown ν :=
  (successors arcs node).foldl Countdown.release s

/-- Taking away as many arcs as `targets` names. -/
theorem foldl_release {targets : List ν} {s : Countdown ν}
    (h_enough : ∀ v, targets.count v ≤ s.inDegree v) (h_nodup : s.nextReady.Nodup) :
    let s' := targets.foldl Countdown.release s
    (∀ v, s'.inDegree v = s.inDegree v - targets.count v) ∧
    (∀ v, v ∈ s'.nextReady ↔
      v ∈ s.nextReady ∨ (0 < targets.count v ∧ s.inDegree v = targets.count v)) ∧
    s'.nextReady.Nodup := by
  induction targets generalizing s with
  | nil => simp [h_nodup]
  | cons target rest ih =>
    have h_target := h_enough target
    rw [List.count_cons_self] at h_target
    have h_degree : ∀ v, (s.release target).inDegree v
        = if v = target then s.inDegree target - 1 else s.inDegree v := by
      intro v
      by_cases h_v : v = target
      · rw [if_pos h_v, h_v]
        exact Function.update_self ..
      · rw [if_neg h_v]
        exact Function.update_of_ne h_v ..
    have h_ready : ∀ v, v ∈ (s.release target).nextReady ↔
        v ∈ s.nextReady ∨ (v = target ∧ s.inDegree target = 1) := by
      intro v
      have h_zero : Function.update s.inDegree target (s.inDegree target - 1) target = 0
          ↔ s.inDegree target = 1 := by
        rw [Function.update_self]
        omega
      simp only [Countdown.release, h_zero]
      split
      · rename_i h_one
        rw [List.mem_insert_iff]
        tauto
      · rename_i h_one
        tauto
    have h_nodup' : (s.release target).nextReady.Nodup := by
      unfold Countdown.release
      dsimp only
      split
      · exact h_nodup.insert
      · exact h_nodup
    have h_enough' : ∀ v, rest.count v ≤ (s.release target).inDegree v := by
      intro v
      have h_v := h_enough v
      rw [List.count_cons] at h_v
      rw [h_degree]
      by_cases h_eq : v = target
      · subst h_eq
        rw [if_pos rfl]
        omega
      · rw [if_neg h_eq]
        omega
    obtain ⟨h_left, h_next, h_nodup''⟩ := ih h_enough' h_nodup'
    refine ⟨fun v => ?_, fun v => ?_, h_nodup''⟩
    · rw [List.foldl_cons, h_left, h_degree]
      by_cases h_eq : v = target
      · subst h_eq
        rw [if_pos rfl, List.count_cons_self]
        omega
      · rw [if_neg h_eq, List.count_cons_of_ne (Ne.symm h_eq)]
    · rw [List.foldl_cons, h_next, h_ready, h_degree]
      by_cases h_eq : v = target
      · subst h_eq
        rw [if_pos rfl, List.count_cons_self]
        have h_rest := h_enough' v
        rw [h_degree, if_pos rfl] at h_rest
        constructor
        · rintro ((h | ⟨-, h⟩) | ⟨h_pos, h⟩)
          · exact .inl h
          · exact .inr ⟨by omega, by omega⟩
          · exact .inr ⟨by omega, by omega⟩
        · rintro (h | ⟨-, h⟩)
          · exact .inl (.inl h)
          · by_cases h_one : s.inDegree v = 1
            · exact .inl (.inr ⟨rfl, h_one⟩)
            · exact .inr ⟨by omega, by omega⟩
      · rw [if_neg h_eq, List.count_cons_of_ne (Ne.symm h_eq)]
        tauto

theorem count_successors (arcs : List (ν × ν)) (u v : ν) :
    (successors arcs u).count v = arcs.countP fun arc => arc.1 = u ∧ arc.2 = v := by
  unfold successors
  induction arcs with
  | nil => rfl
  | cons arc rest ih =>
    by_cases h_u : arc.1 = u
    · by_cases h_v : arc.2 = v
      · simp [h_u, h_v, ih]
      · simp [h_u, h_v, ih, List.count_cons_of_ne h_v]
    · simp [h_u, ih]

theorem countP_arcs_or {p q : ν → Prop} [DecidablePred p] [DecidablePred q]
    (h_disjoint : ∀ u, p u → ¬ q u) (arcs : List (ν × ν)) (v : ν) :
    arcs.countP (fun arc => (p arc.1 ∨ q arc.1) ∧ arc.2 = v)
      = arcs.countP (fun arc => p arc.1 ∧ arc.2 = v) +
        arcs.countP (fun arc => q arc.1 ∧ arc.2 = v) := by
  induction arcs with
  | nil => rfl
  | cons arc rest ih =>
    have h_arc := h_disjoint arc.1
    simp only [List.countP_cons, ih]
    by_cases h_p : p arc.1 <;> by_cases h_q : q arc.1 <;> by_cases h_v : arc.2 = v <;>
      simp_all <;> omega

theorem count_flatMap_successors (arcs : List (ν × ν)) {level : List ν} (h : level.Nodup) (v : ν) :
    (level.flatMap (successors arcs)).count v
      = arcs.countP fun arc => arc.1 ∈ level ∧ arc.2 = v := by
  induction level with
  | nil => simp
  | cons u rest ih =>
    obtain ⟨h_u, h_rest⟩ := List.nodup_cons.mp h
    have h_split := countP_arcs_or (p := (· = u)) (q := (· ∈ rest))
      (fun w h_w => h_w ▸ h_u) arcs v
    rw [List.flatMap_cons, List.count_append, ih h_rest, count_successors]
    simp only [List.mem_cons]
    exact h_split.symm

variable {arcs : List (ν × ν)} {emitted nodes : List ν}

theorem countP_eq_zero_iff {v : ν} :
    (arcs.countP fun arc => arc.1 ∉ emitted ∧ arc.2 = v) = 0 ↔ ∀ u, Arc arcs u v → u ∈ emitted := by
  rw [List.countP_eq_zero]
  constructor
  · intro h u h_arc
    have h_u := h (u, v) h_arc
    simpa using h_u
  · rintro h ⟨u, w⟩ h_arc
    simp only [decide_eq_true_eq, not_and]
    rintro h_u rfl
    exact h_u (h u h_arc)

theorem countP_pos_iff {level : List ν} {v : ν} :
    0 < (arcs.countP fun arc => arc.1 ∈ level ∧ arc.2 = v) ↔ ∃ u ∈ level, Arc arcs u v := by
  rw [List.countP_pos_iff]
  constructor
  · rintro ⟨⟨u, w⟩, h_arc, h⟩
    obtain ⟨h_u, rfl⟩ := of_decide_eq_true h
    exact ⟨u, h_u, h_arc⟩
  · rintro ⟨u, h_u, h_arc⟩
    exact ⟨(u, v), h_arc, decide_eq_true ⟨h_u, rfl⟩⟩

/-! ## The algorithm -/

variable [LinearOrder ν]

def sorted (l : List ν) : List ν := l.insertionSort (· ≤ ·)

/-- Emit what is ready, and go on with what that made ready. -/
def levelsFrom (arcs : List (ν × ν)) : ℕ → List ν → (ν → ℕ) → List (List ν)
  | 0, _, _ => []
  | _ + 1, [], _ => []
  | fuel + 1, node :: rest, inDegree =>
    let s := (node :: rest).foldl (Countdown.emit arcs) ⟨inDegree, []⟩
    (node :: rest) :: levelsFrom arcs fuel (sorted s.nextReady) s.inDegree

/-- The arcs into `v`. -/
def inDegree (arcs : List (ν × ν)) (v : ν) : ℕ := arcs.countP fun arc => arc.2 = v

/-- The order and its levels, or nothing where some node is never ready. -/
def topologicalOrder (nodes : List ν) (arcs : List (ν × ν)) : Option (List ν × List (List ν)) :=
  let ids := nodes.eraseDups
  let ready := sorted (ids.filter fun v => inDegree arcs v = 0)
  let levels := levelsFrom arcs ids.length ready (inDegree arcs)
  let order := levels.flatten
  if order.length ≠ ids.length then none else some (order, levels)

/-! ## Levels by what they hold -/

/-- Not emitted yet, while all that it depends on has been. -/
def Frontier (nodes : List ν) (arcs : List (ν × ν)) (emitted : List ν) (v : ν) : Prop :=
  v ∈ nodes ∧ v ∉ emitted ∧ ∀ u, Arc arcs u v → u ∈ emitted

/-- Each level holds the frontier of what came before, in order; after the last there is
    none. -/
def Levelled (nodes : List ν) (arcs : List (ν × ν)) : List ν → List (List ν) → Prop
  | emitted, [] => ∀ v, ¬ Frontier nodes arcs emitted v
  | emitted, level :: rest =>
    level ≠ [] ∧ level.Nodup ∧ level.Pairwise (· ≤ ·) ∧
    (∀ v, v ∈ level ↔ Frontier nodes arcs emitted v) ∧ Levelled nodes arcs (emitted ++ level) rest

omit [DecidableEq ν] in
theorem sorted_congr {l l' : List ν} (h : l.Pairwise (· ≤ ·)) (h' : l'.Pairwise (· ≤ ·))
    (h_nodup : l.Nodup) (h_nodup' : l'.Nodup) (h_mem : ∀ v, v ∈ l ↔ v ∈ l') : l = l' :=
  List.Perm.eq_of_pairwise (fun _ _ _ _ => le_antisymm) h h'
    ((List.perm_ext_iff_of_nodup h_nodup h_nodup').mpr h_mem)

variable {levels : List (List ν)}

omit [DecidableEq ν] in
/-- The levels are determined by the sets of the nodes and of the arcs. -/
theorem Levelled.unique {nodes' : List ν} {arcs' : List (ν × ν)}
    (h_nodes : ∀ v, v ∈ nodes ↔ v ∈ nodes') (h_arcs : ∀ a, a ∈ arcs ↔ a ∈ arcs') {emitted' : List ν}
    (h_emitted : ∀ v, v ∈ emitted ↔ v ∈ emitted') {levels' : List (List ν)}
    (h : Levelled nodes arcs emitted levels) (h' : Levelled nodes' arcs' emitted' levels') :
    levels = levels' := by
  have h_frontier : ∀ {emitted emitted' : List ν}, (∀ v, v ∈ emitted ↔ v ∈ emitted') →
      ∀ v, Frontier nodes arcs emitted v ↔ Frontier nodes' arcs' emitted' v := by
    intro emitted emitted' h_emitted v
    have h_depends : ∀ u, (Arc arcs u v → u ∈ emitted) ↔ (Arc arcs' u v → u ∈ emitted') :=
      fun u => imp_congr (h_arcs (u, v)) (h_emitted u)
    rw [Frontier, Frontier, h_nodes, h_emitted, forall_congr' h_depends]
  induction levels generalizing emitted emitted' levels' with
  | nil =>
    cases levels' with
    | nil => rfl
    | cons level' rest' =>
      obtain ⟨h_nonempty, -, -, h_level', -⟩ := h'
      obtain ⟨v, h_v⟩ := List.exists_mem_of_ne_nil _ h_nonempty
      exact absurd ((h_frontier h_emitted v).mpr ((h_level' v).mp h_v)) (h v)
  | cons level rest ih =>
    obtain ⟨h_nonempty, h_nodup, h_sorted, h_level, h_rest⟩ := h
    cases levels' with
    | nil =>
      obtain ⟨v, h_v⟩ := List.exists_mem_of_ne_nil _ h_nonempty
      exact absurd ((h_frontier h_emitted v).mp ((h_level v).mp h_v)) (h' v)
    | cons level' rest' =>
      obtain ⟨-, h_nodup', h_sorted', h_level', h_rest'⟩ := h'
      have h_mem : ∀ v, v ∈ level ↔ v ∈ level' := by
        intro v
        rw [h_level, h_level', h_frontier h_emitted]
      have h_eq : level = level' := sorted_congr h_sorted h_sorted' h_nodup h_nodup' h_mem
      have h_rest_eq : rest = rest' := by
        have h_emitted' : ∀ v, v ∈ emitted ++ level ↔ v ∈ emitted' ++ level' := by
          intro v
          rw [List.mem_append, List.mem_append, h_emitted, h_mem]
        exact ih h_emitted' h_rest h_rest'
      rw [h_eq, h_rest_eq]

/-! ## The algorithm finds the levels -/

/-- What holds before each level: what is ready is the frontier, what was emitted depends on
    nothing else, and the count is of the arcs from what was not. -/
structure Counted (nodes : List ν) (arcs : List (ν × ν)) (emitted ready : List ν)
    (left : ν → ℕ) : Prop where
  nodup : ready.Nodup
  ordered : ready.Pairwise (· ≤ ·)
  frontier : ∀ v, v ∈ ready ↔ Frontier nodes arcs emitted v
  closed : ∀ v ∈ emitted, ∀ u, Arc arcs u v → u ∈ emitted
  left_eq : ∀ v, left v = arcs.countP fun arc => arc.1 ∉ emitted ∧ arc.2 = v

theorem Counted.emit (h_nodes : ∀ arc ∈ arcs, arc.2 ∈ nodes) {ready : List ν} {left : ν → ℕ}
    (h : Counted nodes arcs emitted ready left) :
    let s := ready.foldl (Countdown.emit arcs) ⟨left, []⟩
    Counted nodes arcs (emitted ++ ready) (sorted s.nextReady) s.inDegree := by
  have h_apart : ∀ u ∈ ready, u ∉ emitted := fun u h_u => ((h.frontier u).mp h_u).2.1
  -- The arcs counted come from this level or from what is emitted later.
  have h_split : ∀ v, left v = (ready.flatMap (successors arcs)).count v +
      arcs.countP fun arc => arc.1 ∉ emitted ++ ready ∧ arc.2 = v := by
    intro v
    rw [h.left_eq, count_flatMap_successors arcs h.nodup, ← countP_arcs_or
      (p := (· ∈ ready)) (q := (· ∉ emitted ++ ready)) (fun u h_u h_not => h_not (by simp [h_u]))]
    congr 1
    funext arc
    have h_arc := h_apart arc.1
    by_cases h_ready : arc.1 ∈ ready
    · simp [h_ready, h_arc h_ready]
    · simp [h_ready]
  have h_fold : ready.foldl (Countdown.emit arcs) ⟨left, []⟩
      = (ready.flatMap (successors arcs)).foldl Countdown.release ⟨left, []⟩ := by
    rw [List.foldl_flatMap]
    rfl
  have h_enough : ∀ v, (ready.flatMap (successors arcs)).count v
      ≤ (⟨left, []⟩ : Countdown ν).inDegree v := by
    intro v
    dsimp only
    rw [h_split]
    omega
  obtain ⟨h_left, h_next, h_nodup⟩ := foldl_release h_enough List.nodup_nil
  rw [h_fold]
  refine ⟨?_, List.pairwise_insertionSort .., fun v => ?_, fun v h_v u h_arc => ?_, fun v => ?_⟩
  · exact ((List.perm_insertionSort _ _).nodup_iff).mpr h_nodup
  · have h_split_v := h_split v
    rw [sorted, List.mem_insertionSort, h_next]
    simp only [List.not_mem_nil, false_or]
    constructor
    · rintro ⟨h_pos, h_eq⟩
      rw [count_flatMap_successors arcs h.nodup, countP_pos_iff] at h_pos
      obtain ⟨u, h_u, h_arc⟩ := h_pos
      have h_new : v ∉ emitted := fun h_v => h_apart u h_u (h.closed v h_v u h_arc)
      have h_later : v ∉ ready := by
        intro h_v
        exact h_apart u h_u (((h.frontier v).mp h_v).2.2 u h_arc)
      refine ⟨h_nodes _ h_arc, by simp [h_new, h_later], ?_⟩
      exact countP_eq_zero_iff.mp (by omega)
    · rintro ⟨h_v, h_new, h_depends⟩
      rw [List.mem_append, not_or] at h_new
      have h_zero := countP_eq_zero_iff.mpr h_depends
      refine ⟨Nat.pos_of_ne_zero fun h_none => h_new.2 ((h.frontier v).mpr ⟨h_v, h_new.1, ?_⟩),
        by omega⟩
      refine countP_eq_zero_iff.mp ?_
      rw [← h.left_eq]
      omega
  · rw [List.mem_append] at h_v ⊢
    rcases h_v with h_v | h_v
    · exact .inl (h.closed v h_v u h_arc)
    · exact .inl (((h.frontier v).mp h_v).2.2 u h_arc)
  · have h_split_v := h_split v
    rw [h_left]
    dsimp only
    omega

theorem levelsFrom_levelled (h_nodes : ∀ arc ∈ arcs, arc.2 ∈ nodes) {fuel : ℕ} {ready : List ν}
    {left : ν → ℕ} (h : Counted nodes arcs emitted ready left)
    (h_fuel : (nodes.eraseDups.filter fun v => v ∉ emitted).length ≤ fuel) :
    Levelled nodes arcs emitted (levelsFrom arcs fuel ready left) := by
  induction fuel generalizing emitted ready left with
  | zero =>
    intro v h_v
    have h_mem : v ∈ nodes.eraseDups.filter fun v => v ∉ emitted :=
      List.mem_filter.mpr ⟨List.mem_eraseDups.mpr h_v.1, by simpa using h_v.2.1⟩
    have h_pos := List.length_pos_of_mem h_mem
    omega
  | succ fuel ih =>
    cases ready with
    | nil => exact fun v h_v => absurd ((h.frontier v).mpr h_v) List.not_mem_nil
    | cons node rest =>
      refine ⟨List.cons_ne_nil _ _, h.nodup, h.ordered, h.frontier, ih (h.emit h_nodes) ?_⟩
      -- The level takes at least one node out of those not emitted.
      have h_node := (h.frontier node).mp List.mem_cons_self
      have h_sub : (nodes.eraseDups.filter fun v => v ∉ emitted ++ node :: rest).Sublist
          (nodes.eraseDups.filter fun v => v ∉ emitted) := by
        refine List.monotone_filter_right _ fun v h_v => ?_
        simp only [List.mem_append, not_or, decide_eq_true_eq] at h_v ⊢
        exact h_v.1
      have h_lt : (nodes.eraseDups.filter fun v => v ∉ emitted ++ node :: rest).length
          < (nodes.eraseDups.filter fun v => v ∉ emitted).length := by
        refine lt_of_le_of_ne h_sub.length_le fun h_eq => ?_
        have h_mem : node ∈ nodes.eraseDups.filter fun v => v ∉ emitted :=
          List.mem_filter.mpr ⟨List.mem_eraseDups.mpr h_node.1, by simpa using h_node.2.1⟩
        rw [← h_sub.eq_of_length h_eq, List.mem_filter] at h_mem
        simp at h_mem
      omega

theorem counted_initial (nodes : List ν) (arcs : List (ν × ν)) :
    Counted nodes arcs [] (sorted (nodes.eraseDups.filter fun v => inDegree arcs v = 0))
      (inDegree arcs) := by
  have h_count : ∀ v, inDegree arcs v = arcs.countP fun arc => arc.1 ∉ ([] : List ν) ∧ arc.2 = v := by
    intro v
    simp [inDegree]
  refine ⟨?_, List.pairwise_insertionSort .., fun v => ?_, nofun, h_count⟩
  · exact ((List.perm_insertionSort _ _).nodup_iff).mpr ((List.nodup_eraseDups _).filter _)
  · rw [sorted, List.mem_insertionSort, List.mem_filter, List.mem_eraseDups, decide_eq_true_eq,
      h_count, countP_eq_zero_iff]
    exact ⟨fun h => ⟨h.1, List.not_mem_nil, h.2⟩, fun h => ⟨h.1, h.2.2⟩⟩

theorem levelled_initial (h_nodes : ∀ arc ∈ arcs, arc.2 ∈ nodes) :
    Levelled nodes arcs [] (levelsFrom arcs nodes.eraseDups.length
      (sorted (nodes.eraseDups.filter fun v => inDegree arcs v = 0)) (inDegree arcs)) :=
  levelsFrom_levelled h_nodes (counted_initial nodes arcs) (List.length_filter_le _ _)

/-! ## What levels are -/

omit [DecidableEq ν] in
theorem Levelled.nodup_flatten (h : Levelled nodes arcs emitted levels) :
    levels.flatten.Nodup ∧ ∀ v ∈ levels.flatten, v ∈ nodes ∧ v ∉ emitted := by
  induction levels generalizing emitted with
  | nil => exact ⟨List.nodup_nil, nofun⟩
  | cons level rest ih =>
    obtain ⟨-, h_nodup, -, h_level, h_rest⟩ := h
    obtain ⟨h_nodup', h_later⟩ := ih h_rest
    rw [List.flatten_cons]
    refine ⟨List.nodup_append.mpr ⟨h_nodup, h_nodup', ?_⟩, fun v h_v => ?_⟩
    · rintro v h_v _ h_v' rfl
      exact (h_later v h_v').2 (List.mem_append_right _ h_v)
    · rcases List.mem_append.mp h_v with h_v | h_v
      · exact ⟨((h_level v).mp h_v).1, ((h_level v).mp h_v).2.1⟩
      · exact ⟨(h_later v h_v).1, fun h_emitted => (h_later v h_v).2 (List.mem_append_left _ h_emitted)⟩

theorem Levelled.complete (h_nodes : ∀ arc ∈ arcs, arc.1 ∈ nodes) (h_acyclic : Acyclic arcs)
    (h : Levelled nodes arcs emitted levels) : ∀ v ∈ nodes, v ∈ emitted ∨ v ∈ levels.flatten := by
  induction levels generalizing emitted with
  | nil =>
    intro v h_v
    by_contra h_left
    -- Of the nodes left, one that depends on none of the others is on the frontier.
    let remaining : Set ν := {w | w ∈ nodes ∧ w ∉ emitted}
    have h_finite : remaining.Finite :=
      (List.finite_toSet nodes).subset fun w h_w => h_w.1
    have : IsStrictOrder ν (Relation.TransGen (Arc arcs)) :=
      { irrefl := h_acyclic
        trans := fun _ _ _ => Relation.TransGen.trans }
    have h_wf := h_finite.wellFoundedOn (r := Relation.TransGen (Arc arcs))
    have h_nonempty : v ∈ remaining := ⟨h_v, fun h_e => h_left (.inl h_e)⟩
    obtain ⟨least, h_least, h_minimal⟩ := h_wf.has_min {w : remaining | True} ⟨⟨v, h_nonempty⟩, trivial⟩
    refine h least.1 ⟨least.2.1, least.2.2, fun u h_arc => ?_⟩
    by_contra h_u
    exact h_minimal ⟨u, h_nodes _ h_arc, h_u⟩ trivial (.single h_arc)
  | cons level rest ih =>
    obtain ⟨-, -, -, -, h_rest⟩ := h
    intro v h_v
    rw [List.flatten_cons, List.mem_append]
    rcases ih h_rest v h_v with h | h
    · rcases List.mem_append.mp h with h | h
      · exact .inl h
      · exact .inr (.inl h)
    · exact .inr (.inr h)

theorem Levelled.findIdx_lt (h : Levelled nodes arcs emitted levels) {v w : ν}
    (h_w : w ∈ levels.flatten) (h_arc : Arc arcs v w) :
    v ∈ emitted ∨ levels.findIdx (v ∈ ·) < levels.findIdx (w ∈ ·) := by
  induction levels generalizing emitted with
  | nil => cases h_w
  | cons level rest ih =>
    obtain ⟨-, -, -, h_level, h_rest⟩ := h
    by_cases h_here : w ∈ level
    · exact .inl (((h_level w).mp h_here).2.2 v h_arc)
    · have h_later : w ∈ rest.flatten := by
        rw [List.flatten_cons, List.mem_append] at h_w
        exact h_w.resolve_left h_here
      by_cases h_v : v ∈ level
      · refine .inr ?_
        simp [List.findIdx_cons, h_v, h_here]
      · rcases ih h_rest h_later with h | h
        · exact .inl ((List.mem_append.mp h).resolve_right h_v)
        · refine .inr ?_
          simp only [List.findIdx_cons, h_v, h_here, decide_false, cond_false]
          omega

theorem Levelled.idxOf_lt (h : Levelled nodes arcs emitted levels) {v w : ν}
    (h_w : w ∈ levels.flatten) (h_arc : Arc arcs v w) :
    v ∈ emitted ∨ levels.flatten.idxOf v < levels.flatten.idxOf w := by
  induction levels generalizing emitted with
  | nil => cases h_w
  | cons level rest ih =>
    obtain ⟨-, -, -, h_level, h_rest⟩ := h
    rw [List.flatten_cons] at h_w ⊢
    by_cases h_here : w ∈ level
    · exact .inl (((h_level w).mp h_here).2.2 v h_arc)
    · rw [List.idxOf_append_of_notMem h_here]
      by_cases h_v : v ∈ level
      · rw [List.idxOf_append_of_mem h_v]
        have h_lt := List.idxOf_lt_length_of_mem h_v
        exact .inr (by omega)
      · rw [List.idxOf_append_of_notMem h_v]
        rcases ih h_rest ((List.mem_append.mp h_w).resolve_left h_here) with h | h
        · exact .inl ((List.mem_append.mp h).resolve_right h_v)
        · exact .inr (by omega)

/-! ## Topological orders -/

/-- Every node once, and every arc forward. -/
structure TopologicalOrder (nodes : List ν) (arcs : List (ν × ν)) (order : List ν) : Prop where
  nodup : order.Nodup
  mem_iff : ∀ v, v ∈ order ↔ v ∈ nodes
  forward : ∀ v w, Arc arcs v w → order.idxOf v < order.idxOf w

/-- Every node in one level, and every arc from one level to a later one. -/
structure Levelling (nodes : List ν) (arcs : List (ν × ν)) (levels : List (List ν)) : Prop where
  nodup : levels.flatten.Nodup
  mem_iff : ∀ v, v ∈ levels.flatten ↔ v ∈ nodes
  forward : ∀ v w, Arc arcs v w → levels.findIdx (v ∈ ·) < levels.findIdx (w ∈ ·)

theorem topologicalOrder_of_acyclic (h_nodes : ∀ arc ∈ arcs, arc.1 ∈ nodes ∧ arc.2 ∈ nodes)
    (h_acyclic : Acyclic arcs) :
    ∃ levels, topologicalOrder nodes arcs = some (levels.flatten, levels) ∧
      Levelled nodes arcs [] levels ∧ TopologicalOrder nodes arcs levels.flatten ∧
      Levelling nodes arcs levels := by
  have h_levelled := levelled_initial (fun arc h_arc => (h_nodes arc h_arc).2)
  refine ⟨_, ?_, h_levelled, ?_⟩
  all_goals
    obtain ⟨h_nodup, h_flatten⟩ := h_levelled.nodup_flatten
    have h_complete := h_levelled.complete (fun arc h_arc => (h_nodes arc h_arc).1) h_acyclic
    have h_mem : ∀ v, v ∈ (levelsFrom arcs nodes.eraseDups.length
        (sorted (nodes.eraseDups.filter fun v => inDegree arcs v = 0)) (inDegree arcs)).flatten
        ↔ v ∈ nodes :=
      fun v => ⟨fun h_v => (h_flatten v h_v).1, fun h_v => (h_complete v h_v).resolve_left nofun⟩
  · have h_perm := (List.perm_ext_iff_of_nodup h_nodup (List.nodup_eraseDups nodes)).mpr fun v =>
      (h_mem v).trans List.mem_eraseDups.symm
    unfold topologicalOrder
    dsimp only
    rw [if_neg (not_not.mpr h_perm.length_eq)]
  · refine ⟨⟨h_nodup, h_mem, fun v w h_arc => ?_⟩, ⟨h_nodup, h_mem, fun v w h_arc => ?_⟩⟩
    · exact (h_levelled.idxOf_lt ((h_mem w).mpr (h_nodes _ h_arc).2) h_arc).resolve_left nofun
    · exact (h_levelled.findIdx_lt ((h_mem w).mpr (h_nodes _ h_arc).2) h_arc).resolve_left nofun

theorem acyclic_of_topologicalOrder (h_nodes : ∀ arc ∈ arcs, arc.1 ∈ nodes ∧ arc.2 ∈ nodes)
    {result : List ν × List (List ν)} (h : topologicalOrder nodes arcs = some result) :
    Acyclic arcs := by
  have h_levelled := levelled_initial (fun arc h_arc => (h_nodes arc h_arc).2)
  unfold topologicalOrder at h
  dsimp only at h
  generalize levelsFrom arcs nodes.eraseDups.length
      (sorted (nodes.eraseDups.filter fun v => inDegree arcs v = 0)) (inDegree arcs) = levels
    at h h_levelled
  obtain ⟨h_nodup, h_mem⟩ := h_levelled.nodup_flatten
  split at h
  · cases h
  · rename_i h_length
    -- As many nodes as there are, each once: all of them.
    have h_sub : levels.flatten ⊆ nodes.eraseDups :=
      fun v h_v => List.mem_eraseDups.mpr (h_mem v h_v).1
    have h_perm : levels.flatten.Perm nodes.eraseDups :=
      (List.subperm_of_subset h_nodup h_sub).perm_of_length_le (not_not.mp h_length).ge
    refine @acyclic_of_rank _ _ (fun v => levels.flatten.idxOf v) fun u v h_arc => ?_
    have h_v : v ∈ levels.flatten :=
      h_perm.mem_iff.mpr (List.mem_eraseDups.mpr (h_nodes _ h_arc).2)
    exact (h_levelled.idxOf_lt h_v h_arc).resolve_left List.not_mem_nil

end Digraph
