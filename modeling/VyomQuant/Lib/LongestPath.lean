/-
  VyomQuant.Lib.LongestPath

  Paths of a directed graph by their last node, and the values that compose along them:
  a node's own weight after the most that one before it has.

  A value that composes is the greatest weight of a path that ends in the node
  (`Composes.greatest`).  With the weight 1 it counts the nodes of the longest path, so the
  levels of Kahn's algorithm are the lengths of longest paths (`Levelled.longest`), and
  they are found again from the order alone (`levelsFromOrder_flatten`).
-/

import Mathlib.Algebra.BigOperators.Group.List.Basic
import Mathlib.Algebra.Order.Ring.Nat
import VyomQuant.Lib.KeyedList
import VyomQuant.Lib.TopologicalLevels

namespace Digraph

variable {ν : Type*}

/-! ## Paths by their last node -/

/-- A path of arcs that ends in the node. -/
inductive PathTo (arcs : List (ν × ν)) : List ν → ν → Prop where
  | single (v : ν) : PathTo arcs [v] v
  | snoc {p : List ν} {u v : ν} : PathTo arcs p u → Arc arcs u v → PathTo arcs (p ++ [v]) v

variable {arcs : List (ν × ν)} {v : ν}

section Composition

variable {α : Type*} [AddCommMonoid α]

/-- `total` is a node's own weight, after the most that a node before it has. -/
structure Composes [PartialOrder α] (arcs : List (ν × ν)) (weight total : ν → α) : Prop where
  own_le : ∀ v, weight v ≤ total v
  step_le : ∀ u v, Arc arcs u v → total u + weight v ≤ total v
  attained : ∀ v, total v = weight v ∨ ∃ u, Arc arcs u v ∧ total v = total u + weight v

variable {weight total : ν → α}

theorem Composes.sum_le [PartialOrder α] [IsOrderedAddMonoid α] (h : Composes arcs weight total)
    {p : List ν} (h_path : PathTo arcs p v) : (p.map weight).sum ≤ total v := by
  induction h_path with
  | single v => simpa using h.own_le v
  | @snoc p u v _ h_arc ih =>
    calc ((p ++ [v]).map weight).sum
        = (p.map weight).sum + weight v := by simp
      _ ≤ total u + weight v := add_le_add_left ih _
      _ ≤ total v := h.step_le u v h_arc

theorem Composes.exists_path [PartialOrder α] (h : Composes arcs weight total) {rank : ν → ℕ}
    (h_rank : ∀ u v, Arc arcs u v → rank u < rank v) (v : ν) :
    ∃ p, PathTo arcs p v ∧ (p.map weight).sum = total v := by
  induction h_eq : rank v using Nat.strong_induction_on generalizing v with
  | _ n ih =>
    rcases h.attained v with h_own | ⟨u, h_arc, h_total⟩
    · exact ⟨[v], .single v, by simpa using h_own.symm⟩
    · have h_lt : rank u < n := h_eq ▸ h_rank u v h_arc
      obtain ⟨p, h_path, h_sum⟩ := ih (rank u) h_lt u rfl
      refine ⟨p ++ [v], h_path.snoc h_arc, ?_⟩
      rw [List.map_append, List.sum_append, h_sum, h_total]
      simp

/-- The greatest weight of a path that ends in the node. -/
structure Greatest [PartialOrder α] (arcs : List (ν × ν)) (weight : ν → α) (v : ν) (a : α) :
    Prop where
  le : ∀ p, PathTo arcs p v → (p.map weight).sum ≤ a
  attained : ∃ p, PathTo arcs p v ∧ (p.map weight).sum = a

theorem Composes.greatest [PartialOrder α] [IsOrderedAddMonoid α] (h : Composes arcs weight total)
    {rank : ν → ℕ} (h_rank : ∀ u v, Arc arcs u v → rank u < rank v) (v : ν) :
    Greatest arcs weight v (total v) where
  le _ h_path := h.sum_le h_path
  attained := h.exists_path h_rank v

end Composition

/-- What is added to a node's own weight is the most before it, and nothing where that is less. -/
theorem Composes.of_isGreatest {α : Type*} [AddCommGroup α] [PartialOrder α] [IsOrderedAddMonoid α]
    {weight total : ν → α}
    (h : ∀ v, IsGreatest (insert 0 (total '' {u | Arc arcs u v})) (total v - weight v)) :
    Composes arcs weight total where
  own_le v := sub_nonneg.mp ((h v).2 (Set.mem_insert ..))
  step_le u v h_arc :=
    le_sub_iff_add_le.mp ((h v).2 (Set.mem_insert_of_mem _ (Set.mem_image_of_mem total h_arc)))
  attained v := by
    rcases (h v).1 with h_zero | ⟨u, h_arc, h_eq⟩
    · exact .inl (sub_eq_zero.mp h_zero)
    · exact .inr ⟨u, h_arc, (sub_eq_iff_eq_add.mp h_eq.symm)⟩

/-- What a node depends on comes before it in an order. -/
theorem TopologicalOrder.mem_of_arc [DecidableEq ν] {nodes order done rest : List ν} {u : ν}
    (h : TopologicalOrder nodes arcs order) (h_split : order = done ++ v :: rest)
    (h_arc : Arc arcs u v) : u ∈ done := by
  have h_lt := h.forward u v h_arc
  have h_nodup := h.nodup
  rw [h_split] at h_lt h_nodup
  have h_new : v ∉ done := fun h_mem =>
    (List.nodup_append.mp h_nodup).2.2 v h_mem v List.mem_cons_self rfl
  by_contra h_not
  rw [List.idxOf_append_of_notMem h_not, List.idxOf_append_of_notMem h_new, List.idxOf_cons_self] at h_lt
  omega

/-! ## Levels -/

variable [DecidableEq ν] [LinearOrder ν]

variable {nodes emitted : List ν}

/-- A node of the level after `level` depends on one of `level`. -/
theorem Levelled.exists_waiting {level : List ν} {rest : List (List ν)}
    (h : Levelled nodes arcs (emitted ++ level) rest) (h_v : v ∈ rest.flatten)
    (h_zero : rest.findIdx (v ∈ ·) = 0) (h_first : v ∉ level)
    (h_level : ∀ w, w ∈ level ↔ Frontier nodes arcs emitted w) : ∃ u, Arc arcs u v ∧ u ∈ level := by
  cases rest with
  | nil => cases h_v
  | cons next rest =>
    obtain ⟨-, -, -, h_next, -⟩ := h
    have h_mem : v ∈ next := by
      by_contra h_not
      simp [List.findIdx_cons, h_not] at h_zero
    obtain ⟨h_node, h_new, h_depends⟩ := (h_next v).mp h_mem
    rw [List.mem_append, not_or] at h_new
    have h_blocked : ¬ ∀ u, Arc arcs u v → u ∈ emitted :=
      fun h_all => h_first ((h_level v).mpr ⟨h_node, h_new.1, h_all⟩)
    simp only [not_forall] at h_blocked
    obtain ⟨u, h_arc, h_u⟩ := h_blocked
    exact ⟨u, h_arc, (List.mem_append.mp (h_depends u h_arc)).resolve_left h_u⟩

variable {levels : List (List ν)}

theorem Levelled.exists_before (h : Levelled nodes arcs emitted levels) (h_v : v ∈ levels.flatten) :
    levels.findIdx (v ∈ ·) = 0 ∨
      ∃ u ∈ levels.flatten, Arc arcs u v ∧
        levels.findIdx (v ∈ ·) = levels.findIdx (u ∈ ·) + 1 := by
  induction levels generalizing emitted with
  | nil => cases h_v
  | cons level rest ih =>
    have h_here := h.nodup_flatten
    obtain ⟨-, -, -, h_level, h_rest⟩ := h
    by_cases h_first : v ∈ level
    · exact .inl (by simp [List.findIdx_cons, h_first])
    · have h_later : v ∈ rest.flatten := by
        rw [List.flatten_cons, List.mem_append] at h_v
        exact h_v.resolve_left h_first
      have h_index : (level :: rest).findIdx (v ∈ ·) = rest.findIdx (v ∈ ·) + 1 := by
        simp [List.findIdx_cons, h_first]
      refine .inr ?_
      rcases ih h_rest h_later with h_zero | ⟨u, h_u, h_arc, h_next⟩
      · -- Ready for the next level and not for this one: it waited for a node of this one.
        obtain ⟨u, h_arc, h_u⟩ := h_rest.exists_waiting h_later h_zero h_first h_level
        refine ⟨u, List.mem_flatten.mpr ⟨level, List.mem_cons_self, h_u⟩, h_arc, ?_⟩
        rw [h_index, h_zero]
        simp [List.findIdx_cons, h_u]
      · have h_not : u ∉ level := by
          intro h_mem
          have h_emitted := (h_rest.nodup_flatten.2 u h_u).2
          exact h_emitted (List.mem_append_right _ h_mem)
        refine ⟨u, List.mem_flatten.mpr ?_, h_arc, ?_⟩
        · obtain ⟨l, h_l, h_ul⟩ := List.mem_flatten.mp h_u
          exact ⟨l, List.mem_cons_of_mem _ h_l, h_ul⟩
        · rw [h_index, h_next]
          simp [List.findIdx_cons, h_not]

/-- The nodes on the longest path to a node, read off the levels. -/
def depthIn (levels : List (List ν)) (v : ν) : ℕ :=
  if v ∈ levels.flatten then levels.findIdx (v ∈ ·) + 1 else 1

theorem Levelled.composes (h_nodes : ∀ arc ∈ arcs, arc.1 ∈ nodes ∧ arc.2 ∈ nodes)
    (h : Levelled nodes arcs [] levels) (h_levels : Levelling nodes arcs levels) :
    Composes arcs (fun _ => 1) (depthIn levels) := by
  have h_depth : ∀ v ∈ nodes, depthIn levels v = levels.findIdx (v ∈ ·) + 1 :=
    fun v h_v => if_pos ((h_levels.mem_iff v).mpr h_v)
  refine ⟨fun v => ?_, fun u v h_arc => ?_, fun v => ?_⟩
  · unfold depthIn
    split <;> omega
  · obtain ⟨h_u, h_v⟩ := h_nodes _ h_arc
    have h_lt := h_levels.forward u v h_arc
    rw [h_depth u h_u, h_depth v h_v]
    omega
  · by_cases h_v : v ∈ nodes
    · rw [h_depth v h_v]
      rcases h.exists_before ((h_levels.mem_iff v).mpr h_v) with h_zero | ⟨u, h_u, h_arc, h_next⟩
      · exact .inl (by rw [h_zero])
      · exact .inr ⟨u, h_arc, by rw [h_depth u ((h_levels.mem_iff u).mp h_u), h_next]⟩
    · exact .inl (if_neg fun h_mem => h_v ((h_levels.mem_iff v).mp h_mem))

omit [LinearOrder ν] in
theorem Levelling.depthIn_lt (h_nodes : ∀ arc ∈ arcs, arc.1 ∈ nodes ∧ arc.2 ∈ nodes)
    (h : Levelling nodes arcs levels) (u v : ν) (h_arc : Arc arcs u v) :
    depthIn levels u < depthIn levels v := by
  obtain ⟨h_u, h_v⟩ := h_nodes _ h_arc
  have h_lt := h.forward u v h_arc
  unfold depthIn
  rw [if_pos ((h.mem_iff u).mpr h_u), if_pos ((h.mem_iff v).mpr h_v)]
  omega

theorem Levelled.longest (h_nodes : ∀ arc ∈ arcs, arc.1 ∈ nodes ∧ arc.2 ∈ nodes)
    (h : Levelled nodes arcs [] levels) (h_levels : Levelling nodes arcs levels) (h_v : v ∈ nodes) :
    (∀ p, PathTo arcs p v → p.length ≤ levels.findIdx (v ∈ ·) + 1) ∧
      ∃ p, PathTo arcs p v ∧ p.length = levels.findIdx (v ∈ ·) + 1 := by
  have h_greatest := (h.composes h_nodes h_levels).greatest (h_levels.depthIn_lt h_nodes) v
  have h_depth : depthIn levels v = levels.findIdx (v ∈ ·) + 1 :=
    if_pos ((h_levels.mem_iff v).mpr h_v)
  rw [h_depth] at h_greatest
  have h_sum : ∀ p : List ν, (p.map fun _ => 1).sum = p.length := fun p => by simp
  refine ⟨fun p h_p => h_sum p ▸ h_greatest.le p h_p, ?_⟩
  obtain ⟨p, h_p, h_eq⟩ := h_greatest.attained
  exact ⟨p, h_p, h_sum p ▸ h_eq⟩

/-! ## Levels from an order -/

/-- Walk an order; a node comes one level after the latest of those before it that it
    depends on. -/
def depthsAlong (before : ν → List ν) : List ν → List (ν × ℕ) → List (ν × ℕ)
  | [], depth => depth
  | v :: rest, depth =>
    let upstream := (before v).filterMap fun u => List.lookup u depth
    let level := (upstream.max?.map (· + 1)).getD 0
    depthsAlong before rest (KeyedList.putItem Prod.fst (v, level) depth)

/-- The nodes of an order by their depth, each level sorted. -/
def levelsFromOrder (before : ν → List ν) (order : List ν) : List (List ν) :=
  let depth := depthsAlong before order []
  let buckets := (depth.map Prod.snd).eraseDups.insertionSort (· ≤ ·)
  buckets.map fun level => sorted ((depth.filter fun entry => entry.2 = level).map Prod.fst)

theorem level_of_upstream {upstream : List ℕ} {level : ℕ} (h_lt : ∀ n ∈ upstream, n < level)
    (h_attained : level = 0 ∨ ∃ n ∈ upstream, level = n + 1) :
    (upstream.max?.map (· + 1)).getD 0 = level := by
  rcases h_attained with rfl | ⟨n, h_n, rfl⟩
  · have h_nil : upstream = [] :=
      List.eq_nil_iff_forall_not_mem.mpr fun n h_n => Nat.not_lt_zero n (h_lt n h_n)
    rw [h_nil]
    rfl
  · have h_max : upstream.max? = some n :=
      List.max?_eq_some_iff.mpr ⟨h_n, fun m h_m => Nat.le_of_lt_succ (h_lt m h_m)⟩
    rw [h_max]
    rfl

omit [LinearOrder ν] in
/-- Along an order that arcs lead forward in, the depths are the levels. -/
theorem depthsAlong_eq {before : ν → List ν} {level : ν → ℕ} {order done rest : List ν}
    (h_order : order = done ++ rest) (h_nodup : order.Nodup)
    (h_before : ∀ v ∈ order, ∀ u ∈ order, u ∈ before v ↔ Arc arcs u v)
    (h_forward : ∀ v ∈ order, ∀ u, Arc arcs u v → u ∈ order ∧ order.idxOf u < order.idxOf v)
    (h_lt : ∀ u v, Arc arcs u v → level u < level v)
    (h_attained : ∀ v ∈ order, level v = 0 ∨ ∃ u, Arc arcs u v ∧ level v = level u + 1) :
    depthsAlong before rest (done.map fun v => (v, level v))
      = order.map fun v => (v, level v) := by
  induction rest generalizing done with
  | nil => rw [depthsAlong, h_order, List.append_nil]
  | cons v rest ih =>
    have h_v : v ∈ order := h_order ▸ List.mem_append_right _ List.mem_cons_self
    have h_new : v ∉ done := by
      intro h_mem
      rw [h_order, List.nodup_append] at h_nodup
      exact h_nodup.2.2 v h_mem v List.mem_cons_self rfl
    -- What the node depends on has been walked over, and is all that is counted.
    have h_walked : ∀ u, Arc arcs u v → u ∈ done := by
      intro u h_arc
      obtain ⟨-, h_idx⟩ := h_forward v h_v u h_arc
      by_contra h_not
      rw [h_order, List.idxOf_append_of_notMem h_not, List.idxOf_append_of_notMem h_new,
        List.idxOf_cons_self] at h_idx
      omega
    have h_mem : ∀ n, n ∈ (before v).filterMap
        (fun u => List.lookup u (done.map fun v => (v, level v))) ↔
        ∃ u, Arc arcs u v ∧ level u = n := by
      intro n
      simp only [List.mem_filterMap, List.lookup_map_pair, Option.ite_none_right_eq_some,
        Option.some.injEq]
      have h_done : ∀ u ∈ done, u ∈ before v ↔ Arc arcs u v := fun u h_u =>
        h_before v h_v u (h_order ▸ List.mem_append_left _ h_u)
      constructor
      · rintro ⟨u, h_u, h_u', rfl⟩
        exact ⟨u, (h_done u h_u').mp h_u, rfl⟩
      · rintro ⟨u, h_arc, rfl⟩
        exact ⟨u, (h_done u (h_walked u h_arc)).mpr h_arc, h_walked u h_arc, rfl⟩
    have h_level : (((before v).filterMap
        (fun u => List.lookup u (done.map fun v => (v, level v)))).max?.map (· + 1)).getD 0
          = level v := by
      apply level_of_upstream
      · intro n h_n
        obtain ⟨u, h_arc, rfl⟩ := (h_mem n).mp h_n
        exact h_lt u v h_arc
      · refine (h_attained v h_v).imp_right ?_
        rintro ⟨u, h_arc, h_next⟩
        exact ⟨level u, (h_mem _).mpr ⟨u, h_arc, rfl⟩, h_next⟩
    have h_fresh : ∀ entry ∈ done.map (fun v => (v, level v)), entry.1 ≠ v := by
      intro entry h_entry h_eq
      obtain ⟨u, h_u, rfl⟩ := List.mem_map.mp h_entry
      exact h_new (h_eq ▸ h_u)
    have h_put : KeyedList.putItem Prod.fst (v, level v) (done.map fun v => (v, level v))
        = (done ++ [v]).map fun v => (v, level v) := by
      rw [KeyedList.putItem_of_fresh h_fresh, List.map_append]
      rfl
    rw [depthsAlong]
    simp only [h_level, h_put]
    exact ih (by rw [h_order, List.append_assoc]; rfl)

omit [DecidableEq ν] in
theorem Levelled.of_mem (h : Levelled nodes arcs emitted levels) {level : List ν}
    (h_level : level ∈ levels) : level ≠ [] ∧ level.Nodup ∧ level.Pairwise (· ≤ ·) := by
  induction levels generalizing emitted with
  | nil => cases h_level
  | cons first rest ih =>
    obtain ⟨h_ne, h_nodup, h_sorted, -, h_rest⟩ := h
    rcases List.mem_cons.mp h_level with rfl | h_level
    · exact ⟨h_ne, h_nodup, h_sorted⟩
    · exact ih h_rest h_level

omit [LinearOrder ν] in
theorem findIdx_eq_iff (h_nodup : levels.flatten.Nodup) {i : ℕ} (h_i : i < levels.length) :
    levels.findIdx (v ∈ ·) = i ↔ v ∈ levels[i] := by
  constructor
  · rintro rfl
    exact of_decide_eq_true (List.findIdx_getElem (w := h_i))
  · intro h_v
    rw [List.findIdx_eq h_i]
    refine ⟨decide_eq_true h_v, fun j h_j => decide_eq_false fun h_v' => ?_⟩
    have h_pairs := (List.nodup_flatten.mp h_nodup).2
    have h_disjoint := List.pairwise_iff_getElem.mp h_pairs j i (by omega) h_i h_j
    exact h_disjoint h_v' h_v

theorem levelsFromOrder_flatten {before : ν → List ν}
    (h_nodes : ∀ arc ∈ arcs, arc.1 ∈ nodes ∧ arc.2 ∈ nodes) (h : Levelled nodes arcs [] levels)
    (h_levels : Levelling nodes arcs levels) (h_order : TopologicalOrder nodes arcs levels.flatten)
    (h_before : ∀ v ∈ nodes, ∀ u ∈ nodes, u ∈ before v ↔ Arc arcs u v) :
    levelsFromOrder before levels.flatten = levels := by
  have h_depths : depthsAlong before levels.flatten []
      = levels.flatten.map fun v => (v, levels.findIdx (v ∈ ·)) := by
    refine @depthsAlong_eq _ arcs _ _ _ _ [] _ rfl h_order.nodup ?_ ?_ h_levels.forward ?_
    · intro v h_v u h_u
      exact h_before v ((h_order.mem_iff v).mp h_v) u ((h_order.mem_iff u).mp h_u)
    · intro v _ u h_arc
      exact ⟨(h_order.mem_iff u).mpr (h_nodes _ h_arc).1, h_order.forward u v h_arc⟩
    · intro v h_v
      refine (h.exists_before h_v).imp_right ?_
      rintro ⟨u, -, h_arc, h_next⟩
      exact ⟨u, h_arc, h_next⟩
  have h_flatten : ∀ {i : ℕ} (h_i : i < levels.length) {v : ν}, v ∈ levels[i] →
      v ∈ levels.flatten :=
    fun h_i _ h_v => List.mem_flatten.mpr ⟨_, List.getElem_mem h_i, h_v⟩
  -- The depths that occur are the places of the levels.
  have h_buckets : ((levels.flatten.map fun v => levels.findIdx (v ∈ ·)).eraseDups).insertionSort
      (· ≤ ·) = List.range levels.length := by
    refine sorted_congr (List.pairwise_insertionSort ..) (List.pairwise_le_range ..)
      (((List.perm_insertionSort _ _).nodup_iff).mpr (List.nodup_eraseDups _))
      List.nodup_range fun i => ?_
    rw [List.mem_insertionSort, List.mem_eraseDups, List.mem_map, List.mem_range]
    constructor
    · rintro ⟨v, h_v, rfl⟩
      obtain ⟨l, h_l, h_vl⟩ := List.mem_flatten.mp h_v
      exact List.findIdx_lt_length_of_exists ⟨l, h_l, decide_eq_true h_vl⟩
    · intro h_i
      obtain ⟨v, h_v⟩ := List.exists_mem_of_ne_nil _ (h.of_mem (List.getElem_mem h_i)).1
      exact ⟨v, h_flatten h_i h_v, (findIdx_eq_iff h_order.nodup h_i).mpr h_v⟩
  have h_bucket : ∀ i (h_i : i < levels.length),
      sorted (((levels.flatten.map fun v => (v, levels.findIdx (v ∈ ·))).filter
        fun entry => entry.2 = i).map Prod.fst) = levels[i] := by
    intro i h_i
    obtain ⟨-, h_nodup, h_sorted⟩ := h.of_mem (List.getElem_mem h_i)
    have h_map : ((levels.flatten.map fun v => (v, levels.findIdx (v ∈ ·))).filter
        fun entry => entry.2 = i).map Prod.fst
          = levels.flatten.filter fun v => levels.findIdx (v ∈ ·) = i := by
      rw [List.filter_map, List.map_map]
      exact List.map_id _
    rw [h_map]
    refine sorted_congr (List.pairwise_insertionSort ..) h_sorted
      (((List.perm_insertionSort _ _).nodup_iff).mpr (h_order.nodup.filter _)) h_nodup fun v => ?_
    rw [sorted, List.mem_insertionSort, List.mem_filter, decide_eq_true_eq,
      findIdx_eq_iff h_order.nodup h_i]
    exact ⟨fun h => h.2, fun h_v => ⟨h_flatten h_i h_v, h_v⟩⟩
  have h_places : (levels.flatten.map fun v => (v, levels.findIdx (v ∈ ·))).map Prod.snd
      = levels.flatten.map fun v => levels.findIdx (v ∈ ·) := List.map_map
  unfold levelsFromOrder
  simp only [h_depths, h_places, h_buckets]
  refine List.ext_getElem (by simp) fun i h_i h_i' => ?_
  rw [List.getElem_map, List.getElem_range]
  exact h_bucket i h_i'

end Digraph
