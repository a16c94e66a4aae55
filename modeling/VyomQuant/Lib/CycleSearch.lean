/-
  VyomQuant.Lib.CycleSearch

  Depth-first search for a cycle, with an explicit stack of frames: a node, and its
  successors still to visit.  The nodes of the stack are grey, and make a path from the root
  of the walk; a node is black once its last successor has been visited.

  A grey successor closes a cycle.  What is black is on no cycle, and has only black
  successors: the walk finds a cycle exactly when there is one (`findCycle_eq_nil_iff`).
-/

import Mathlib.Algebra.Ring.Nat
import Mathlib.Data.List.Chain
import Mathlib.Logic.Function.Basic
import VyomQuant.Lib.Digraph

namespace Digraph

variable {ν : Type*}

inductive Colour where
  | white | grey | black
deriving DecidableEq

/-- A node and its successors still to visit. -/
abbrev Frame (ν : Type*) := ν × List ν

/-- The nodes on the stack, from the root of the walk to its tip. -/
def path (stack : List (Frame ν)) : List ν := (stack.map Prod.fst).reverse

/-- Walk from the frames of the stack, the top one first, until it is empty or a cycle is
    found. -/
def walk [DecidableEq ν] (arcs : List (ν × ν)) :
    ℕ → (ν → Colour) → List (Frame ν) → Except (List ν) (ν → Colour)
  | 0, state, _ => .ok state
  | _ + 1, state, [] => .ok state
  | fuel + 1, state, (current, []) :: stack =>
    walk arcs fuel (Function.update state current .black) stack
  | fuel + 1, state, (current, next :: rest) :: stack =>
    match state next with
    | .grey =>
      let onPath := path ((current, rest) :: stack)
      .error (onPath.drop (onPath.idxOf next) ++ [next])
    | .white =>
      walk arcs fuel (Function.update state next .grey)
        ((next, successors arcs next) :: (current, rest) :: stack)
    | .black => walk arcs fuel state ((current, rest) :: stack)

/-- Walk from each root that no earlier walk has visited. -/
def visitRoots [DecidableEq ν] (arcs : List (ν × ν)) (fuel : ℕ) :
    List ν → (ν → Colour) → Except (List ν) (ν → Colour)
  | [], state => .ok state
  | root :: rest, state =>
    if state root ≠ .white then visitRoots arcs fuel rest state
    else
      match walk arcs fuel (Function.update state root .grey) [(root, successors arcs root)] with
      | .error cycle => .error cycle
      | .ok state => visitRoots arcs fuel rest state

/-- A cycle, its first node repeated at the end, or nothing where there is none. -/
def findCycle [DecidableEq ν] (nodes : List ν) (arcs : List (ν × ν)) : List ν :=
  match visitRoots arcs (nodes.length + arcs.length) nodes fun _ => .white with
  | .error cycle => cycle
  | .ok _ => []

/-! ## The invariant of a walk -/

/-- The successors of each frame are black, still to visit, or the node of the frame above. -/
def Covered (arcs : List (ν × ν)) (state : ν → Colour) : Option ν → List (Frame ν) → Prop
  | _, [] => True
  | above, frame :: stack =>
    (∀ w ∈ frame.2, Arc arcs frame.1 w) ∧
    (∀ w, Arc arcs frame.1 w → w ∈ frame.2 ∨ state w = .black ∨ above = some w) ∧
    Covered arcs state (some frame.1) stack

/-- What is black is finished: its successors are black, and it is on no cycle. -/
def Finished (arcs : List (ν × ν)) (state : ν → Colour) : Prop :=
  ∀ v, state v = .black →
    (∀ w, Arc arcs v w → state w = .black) ∧ ¬ Relation.TransGen (Arc arcs) v v

structure Walking (arcs : List (ν × ν)) (state : ν → Colour) (stack : List (Frame ν)) : Prop where
  grey : ∀ v, state v = .grey ↔ v ∈ stack.map Prod.fst
  nodup : (stack.map Prod.fst).Nodup
  chain : stack.IsChain fun above below => Arc arcs below.1 above.1
  covered : Covered arcs state none stack
  finished : Finished arcs state

variable {arcs : List (ν × ν)} {state : ν → Colour} {stack : List (Frame ν)}

theorem Covered.mono {state' : ν → Colour} {above : Option ν}
    (h_black : ∀ v, state v = .black → state' v = .black) (h : Covered arcs state above stack) :
    Covered arcs state' above stack := by
  induction stack generalizing above with
  | nil => trivial
  | cons frame stack ih =>
    obtain ⟨h_arcs, h_next, h_rest⟩ := h
    refine ⟨h_arcs, fun w h_arc => ?_, ih h_rest⟩
    rcases h_next w h_arc with h | h | h
    · exact .inl h
    · exact .inr (.inl (h_black w h))
    · exact .inr (.inr h)

theorem Covered.of_black {v : ν} (h_black : state v = .black)
    (h : Covered arcs state (some v) stack) : Covered arcs state none stack := by
  cases stack with
  | nil => trivial
  | cons frame stack =>
    obtain ⟨h_arcs, h_next, h_rest⟩ := h
    refine ⟨h_arcs, fun w h_arc => ?_, h_rest⟩
    rcases h_next w h_arc with h | h | h
    · exact .inl h
    · exact .inr (.inl h)
    · cases h
      exact .inr (.inl h_black)

theorem Finished.reaches (h : Finished arcs state) {v w : ν} (h_v : state v = .black)
    (h_reaches : Reaches arcs v w) : state w = .black := by
  induction h_reaches with
  | refl => exact h_v
  | tail _ h_arc ih => exact (h _ ih).1 _ h_arc

theorem path_isChain (h : stack.IsChain fun above below => Arc arcs below.1 above.1) :
    (path stack).IsChain (Arc arcs) := by
  unfold path
  rw [List.isChain_reverse, List.isChain_map]
  exact h

/-! ## One step -/

variable {current next : ν} {rest nodes : List ν}

theorem Walking.skip (h : Walking arcs state ((current, next :: rest) :: stack))
    (h_black : state next = .black) : Walking arcs state ((current, rest) :: stack) := by
  obtain ⟨h_grey, h_nodup, h_chain, ⟨h_arcs, h_next, h_covered⟩, h_finished⟩ := h
  refine ⟨h_grey, h_nodup, ?_, ⟨fun w h_w => h_arcs w (List.mem_cons_of_mem _ h_w), fun w h_arc => ?_,
    h_covered⟩, h_finished⟩
  · cases stack with
    | nil => exact List.IsChain.singleton _
    | cons below stack =>
      obtain ⟨h_arc, h_below⟩ := List.isChain_cons_cons.mp h_chain
      exact List.isChain_cons_cons.mpr ⟨h_arc, h_below⟩
  · rcases h_next w h_arc with h | h | h
    · rcases List.mem_cons.mp h with rfl | h
      · exact .inr (.inl h_black)
      · exact .inl h
    · exact .inr (.inl h)
    · cases h

variable [DecidableEq ν]

theorem Walking.closed (h : Walking arcs state ((current, next :: rest) :: stack))
    (h_grey : state next = .grey) :
    ClosedWalk arcs ((path ((current, rest) :: stack)).drop
      ((path ((current, rest) :: stack)).idxOf next) ++ [next]) := by
  have h_same : path ((current, rest) :: stack) = path ((current, next :: rest) :: stack) := rfl
  have h_mem : next ∈ path ((current, rest) :: stack) :=
    List.mem_reverse.mpr ((h.grey next).mp h_grey)
  have h_lt := List.idxOf_lt_length_of_mem h_mem
  refine @ClosedWalk.of_path _ _ next current _ ?_ ?_ ?_
    (h.covered.1 next List.mem_cons_self)
  · rw [h_same]
    exact (path_isChain h.chain).drop _
  · rw [List.head?_drop, List.getElem?_eq_getElem h_lt, List.getElem_idxOf h_lt]
  · have h_last : (path ((current, rest) :: stack)).getLast? = some current := by
      unfold path
      rw [List.getLast?_reverse]
      rfl
    rw [List.getLast?_drop, if_neg (by omega), h_last]

theorem Walking.pop (h : Walking arcs state ((current, []) :: stack)) :
    Walking arcs (Function.update state current .black) stack := by
  obtain ⟨h_grey, h_nodup, h_chain, ⟨-, h_next, h_covered⟩, h_finished⟩ := h
  rw [List.map_cons, List.nodup_cons] at h_nodup
  have h_current : state current = .grey := (h_grey current).mpr List.mem_cons_self
  have h_black : ∀ v, state v = .black → Function.update state current .black v = .black := by
    intro v h_v
    by_cases h_eq : v = current
    · rw [h_eq, Function.update_self]
    · rw [Function.update_of_ne h_eq, h_v]
  have h_successors : ∀ w, Arc arcs current w → state w = .black := by
    intro w h_arc
    rcases h_next w h_arc with h | h | h
    · cases h
    · exact h
    · cases h
  refine ⟨fun v => ?_, h_nodup.2, h_chain.tail,
    (h_covered.mono h_black).of_black (Function.update_self ..), fun v h_v => ?_⟩
  · by_cases h_eq : v = current
    · rw [h_eq, Function.update_self]
      exact ⟨nofun, fun h_mem => absurd h_mem h_nodup.1⟩
    · rw [Function.update_of_ne h_eq, h_grey, List.map_cons, List.mem_cons]
      exact ⟨fun h => h.resolve_left h_eq, .inr⟩
  · by_cases h_eq : v = current
    · rw [h_eq]
      refine ⟨fun w h_arc => h_black w (h_successors w h_arc), fun h_cycle => ?_⟩
      -- A cycle through the tip would have led back to it through what is black.
      obtain ⟨w, h_arc, h_reaches⟩ := Relation.TransGen.head'_iff.mp h_cycle
      have h_again := h_finished.reaches (h_successors w h_arc) h_reaches
      rw [h_current] at h_again
      cases h_again
    · rw [Function.update_of_ne h_eq] at h_v
      obtain ⟨h_arcs, h_cycle⟩ := h_finished v h_v
      exact ⟨fun w h_arc => h_black w (h_arcs w h_arc), h_cycle⟩

theorem Walking.push (h : Walking arcs state ((current, next :: rest) :: stack))
    (h_white : state next = .white) :
    Walking arcs (Function.update state next .grey)
      ((next, successors arcs next) :: (current, rest) :: stack) := by
  obtain ⟨h_grey, h_nodup, h_chain, ⟨h_arcs, h_next, h_covered⟩, h_finished⟩ := h
  have h_new : next ∉ current :: stack.map Prod.fst := by
    intro h_mem
    rw [(h_grey next).mpr h_mem] at h_white
    cases h_white
  have h_black : ∀ v, Function.update state next .grey v = .black ↔ state v = .black := by
    intro v
    by_cases h_eq : v = next
    · rw [h_eq, Function.update_self, h_white]
      exact ⟨nofun, nofun⟩
    · rw [Function.update_of_ne h_eq]
  refine ⟨fun v => ?_, List.nodup_cons.mpr ⟨h_new, h_nodup⟩, ?_, ?_, fun v h_v => ?_⟩
  · by_cases h_eq : v = next
    · rw [h_eq, Function.update_self]
      exact ⟨fun _ => List.mem_cons_self, fun _ => rfl⟩
    · rw [Function.update_of_ne h_eq, h_grey, List.map_cons, List.map_cons, List.map_cons,
        List.mem_cons (b := next)]
      exact ⟨.inr, fun h => h.resolve_left h_eq⟩
  · refine List.isChain_cons_cons.mpr ⟨h_arcs next List.mem_cons_self, ?_⟩
    cases stack with
    | nil => exact List.IsChain.singleton _
    | cons below stack =>
      obtain ⟨h_arc, h_below⟩ := List.isChain_cons_cons.mp h_chain
      exact List.isChain_cons_cons.mpr ⟨h_arc, h_below⟩
  · refine ⟨fun w h_w => mem_successors.mp h_w, fun w h_arc => .inl (mem_successors.mpr h_arc),
      fun w h_w => h_arcs w (List.mem_cons_of_mem _ h_w), fun w h_arc => ?_,
      h_covered.mono fun v => (h_black v).mpr⟩
    rcases h_next w h_arc with h | h | h
    · rcases List.mem_cons.mp h with rfl | h
      · exact .inr (.inr rfl)
      · exact .inl h
    · exact .inr (.inl ((h_black w).mpr h))
    · cases h
  · obtain ⟨h_successors, h_cycle⟩ := h_finished v ((h_black v).mp h_v)
    exact ⟨fun w h_arc => (h_black w).mpr (h_successors w h_arc), h_cycle⟩

/-! ## The steps a walk takes -/

/-- What is left to do: the successors on the stack, the frames, and what is still white. -/
def work (nodes : List ν) (arcs : List (ν × ν)) (state : ν → Colour) (stack : List (Frame ν)) : ℕ :=
  (stack.map fun frame => frame.2.length + 1).sum +
    (nodes.filter fun v => state v = .white).length +
    (arcs.filter fun arc => state arc.1 = .white).length

theorem length_filter_white {α : Type*} (key : α → ν) (state : ν → Colour)
    (h_white : state next = .white) (l : List α) :
    (l.filter fun a => Function.update state next .grey (key a) = .white).length +
      (l.filter fun a => key a = next).length = (l.filter fun a => state (key a) = .white).length := by
  induction l with
  | nil => rfl
  | cons a rest ih =>
    by_cases h_eq : key a = next
    · simp only [List.filter_cons, h_eq, Function.update_self, h_white, List.length_cons,
        decide_true, reduceCtorEq, decide_false, if_true, Bool.false_eq_true, if_false]
      omega
    · simp only [List.filter_cons, Function.update_of_ne h_eq, h_eq, decide_false,
        Bool.false_eq_true, if_false]
      by_cases h_a : state (key a) = .white
      · simp only [h_a, decide_true, if_true, List.length_cons]
        omega
      · simp only [h_a, decide_false, Bool.false_eq_true, if_false]
        exact ih

theorem work_push (h_node : next ∈ nodes) (h_white : state next = .white) (stack : List (Frame ν)) :
    work nodes arcs (Function.update state next .grey) ((next, successors arcs next) :: stack)
      ≤ work nodes arcs state stack := by
  have h_nodes := length_filter_white id state h_white nodes
  have h_arcs := length_filter_white Prod.fst state h_white arcs
  have h_one : 0 < (nodes.filter fun v => id v = next).length :=
    List.length_pos_of_mem (List.mem_filter.mpr ⟨h_node, by simp⟩)
  have h_successors := length_successors arcs next
  simp only [id_eq] at h_nodes h_one
  simp only [work, List.map_cons, List.sum_cons]
  omega

theorem work_pop (h_grey : state current = .grey) (stack : List (Frame ν)) :
    work nodes arcs (Function.update state current .black) stack = work nodes arcs state stack := by
  have h_white : ∀ v, Function.update state current .black v = .white ↔ state v = .white := by
    intro v
    by_cases h_eq : v = current
    · rw [h_eq, Function.update_self, h_grey]
      exact ⟨nofun, nofun⟩
    · rw [Function.update_of_ne h_eq]
  simp only [work, h_white]

/-! ## A whole walk -/

/-- A walk that returns has blackened what was on its stack; one that stops has found a
    cycle. -/
theorem walk_spec (h_nodes : ∀ arc ∈ arcs, arc.2 ∈ nodes) {fuel : ℕ} (h : Walking arcs state stack)
    (h_fuel : work nodes arcs state stack ≤ fuel) :
    match walk arcs fuel state stack with
    | .error cycle => ClosedWalk arcs cycle
    | .ok state' => Walking arcs state' [] ∧ (∀ v, state v = .black → state' v = .black) ∧
        ∀ v ∈ stack.map Prod.fst, state' v = .black := by
  induction fuel generalizing state stack with
  | zero =>
    cases stack with
    | nil => exact ⟨h, fun _ h_v => h_v, nofun⟩
    | cons frame stack =>
      simp only [work, List.map_cons, List.sum_cons] at h_fuel
      omega
  | succ fuel ih =>
    cases stack with
    | nil => exact ⟨h, fun _ h_v => h_v, nofun⟩
    | cons frame stack =>
      obtain ⟨current, remaining⟩ := frame
      cases remaining with
      | nil =>
        have h_current : state current = .grey := (h.grey current).mpr List.mem_cons_self
        have h_le : work nodes arcs (Function.update state current .black) stack ≤ fuel := by
          rw [work_pop h_current]
          simp only [work, List.map_cons, List.sum_cons, List.length_nil] at h_fuel ⊢
          omega
        have h_rest := ih h.pop h_le
        rw [walk]
        revert h_rest
        cases walk arcs fuel (Function.update state current .black) stack with
        | error cycle => exact id
        | ok state' =>
          rintro ⟨h_walking, h_black, h_stack⟩
          have h_tip : state' current = .black := h_black current (Function.update_self ..)
          refine ⟨h_walking, fun v h_v => h_black v ?_, fun v h_v => ?_⟩
          · by_cases h_eq : v = current
            · rw [h_eq, Function.update_self]
            · rw [Function.update_of_ne h_eq, h_v]
          · rcases List.mem_cons.mp h_v with rfl | h_v
            · exact h_tip
            · exact h_stack v h_v
      | cons next rest =>
        have h_smaller : work nodes arcs state ((current, rest) :: stack) ≤ fuel := by
          simp only [work, List.map_cons, List.sum_cons, List.length_cons] at h_fuel ⊢
          omega
        rw [walk]
        cases h_colour : state next with
        | grey => exact h.closed h_colour
        | white =>
          have h_node : next ∈ nodes := h_nodes _ (h.covered.1 next List.mem_cons_self)
          have h_le := Nat.le_trans (work_push h_node h_colour ((current, rest) :: stack)) h_smaller
          have h_rest := ih (h.push h_colour) h_le
          revert h_rest
          dsimp only
          cases walk arcs fuel (Function.update state next .grey)
              ((next, successors arcs next) :: (current, rest) :: stack) with
          | error cycle => exact id
          | ok state' =>
            rintro ⟨h_walking, h_black, h_stack⟩
            refine ⟨h_walking, fun v h_v => h_black v ?_,
              fun v h_v => h_stack v (List.mem_cons_of_mem _ h_v)⟩
            have h_eq : v ≠ next := by
              rintro rfl
              rw [h_colour] at h_v
              cases h_v
            rw [Function.update_of_ne h_eq, h_v]
        | black => exact ih (h.skip h_colour) h_smaller

theorem Walking.start (h : Walking arcs state []) {root : ν} (h_white : state root = .white) :
    Walking arcs (Function.update state root .grey) [(root, successors arcs root)] := by
  have h_black : ∀ v, Function.update state root .grey v = .black ↔ state v = .black := by
    intro v
    by_cases h_eq : v = root
    · rw [h_eq, Function.update_self, h_white]
      exact ⟨nofun, nofun⟩
    · rw [Function.update_of_ne h_eq]
  refine ⟨fun v => ?_, List.nodup_singleton _, List.IsChain.singleton _,
    ⟨fun w h_w => mem_successors.mp h_w, fun w h_arc => .inl (mem_successors.mpr h_arc), trivial⟩,
    fun v h_v => ?_⟩
  · by_cases h_eq : v = root
    · rw [h_eq, Function.update_self]
      exact ⟨fun _ => List.mem_cons_self, fun _ => rfl⟩
    · rw [Function.update_of_ne h_eq, h.grey, List.map_singleton, List.mem_singleton]
      exact ⟨nofun, fun h_root => absurd h_root h_eq⟩
  · obtain ⟨h_successors, h_cycle⟩ := h.finished v ((h_black v).mp h_v)
    exact ⟨fun w h_arc => (h_black w).mpr (h_successors w h_arc), h_cycle⟩

theorem visitRoots_spec {roots : List ν} (h_nodes : ∀ arc ∈ arcs, arc.2 ∈ nodes)
    (h_roots : ∀ root ∈ roots, root ∈ nodes) (h : Walking arcs state []) :
    match visitRoots arcs (nodes.length + arcs.length) roots state with
    | .error cycle => ClosedWalk arcs cycle
    | .ok state' => Walking arcs state' [] ∧ (∀ v, state v = .black → state' v = .black) ∧
        ∀ v ∈ roots, state' v = .black := by
  induction roots generalizing state with
  | nil => exact ⟨h, fun _ h_v => h_v, nofun⟩
  | cons root rest ih =>
    rw [List.forall_mem_cons] at h_roots
    rw [visitRoots]
    cases h_colour : state root with
    | grey =>
      have h_mem := (h.grey root).mp h_colour
      cases h_mem
    | black =>
      rw [if_pos nofun]
      have h_rest := ih h_roots.2 h
      revert h_rest
      cases visitRoots arcs (nodes.length + arcs.length) rest state with
      | error cycle => exact id
      | ok state' =>
        rintro ⟨h_walking, h_black, h_visited⟩
        exact ⟨h_walking, h_black, List.forall_mem_cons.mpr ⟨h_black root h_colour, h_visited⟩⟩
    | white =>
      rw [if_neg (by simp)]
      -- All of it is white or visited: the walk has as much fuel as there are nodes and arcs.
      have h_fuel : work nodes arcs (Function.update state root .grey)
          [(root, successors arcs root)] ≤ nodes.length + arcs.length := by
        refine Nat.le_trans (work_push h_roots.1 h_colour []) ?_
        have h_filter_nodes := List.length_filter_le (fun v => decide (state v = .white)) nodes
        have h_filter_arcs := List.length_filter_le (fun arc => decide (state arc.1 = .white)) arcs
        simp only [work, List.map_nil, List.sum_nil]
        omega
      have h_walk := walk_spec h_nodes (h.start h_colour) h_fuel
      revert h_walk
      cases walk arcs (nodes.length + arcs.length) (Function.update state root .grey)
          [(root, successors arcs root)] with
      | error cycle => exact id
      | ok state₁ =>
        rintro ⟨h_walking, h_black₁, h_root⟩
        have h_rest := ih h_roots.2 h_walking
        revert h_rest
        dsimp only
        cases visitRoots arcs (nodes.length + arcs.length) rest state₁ with
        | error cycle => exact id
        | ok state' =>
          rintro ⟨h_walking', h_black, h_visited⟩
          refine ⟨h_walking', fun v h_v => h_black v (h_black₁ v ?_),
            List.forall_mem_cons.mpr ⟨h_black root (h_root root List.mem_cons_self), h_visited⟩⟩
          have h_eq : v ≠ root := by
            rintro rfl
            rw [h_colour] at h_v
            cases h_v
          rw [Function.update_of_ne h_eq, h_v]

theorem findCycle_spec (h_nodes : ∀ arc ∈ arcs, arc.1 ∈ nodes ∧ arc.2 ∈ nodes) :
    ClosedWalk arcs (findCycle nodes arcs) ∨ findCycle nodes arcs = [] ∧ Acyclic arcs := by
  have h_start : Walking arcs (fun _ => Colour.white) [] :=
    ⟨fun _ => ⟨nofun, nofun⟩, List.nodup_nil, List.IsChain.nil, trivial, nofun⟩
  have h := visitRoots_spec (fun arc h_arc => (h_nodes arc h_arc).2) (fun _ h_root => h_root) h_start
  unfold findCycle
  revert h
  cases visitRoots arcs (nodes.length + arcs.length) nodes fun _ => Colour.white with
  | error cycle => exact .inl
  | ok state' =>
    rintro ⟨h_walking, -, h_visited⟩
    refine .inr ⟨rfl, fun v h_cycle => ?_⟩
    obtain ⟨w, h_arc, -⟩ := Relation.TransGen.head'_iff.mp h_cycle
    exact (h_walking.finished v (h_visited v (h_nodes _ h_arc).1)).2 h_cycle

theorem findCycle_eq_nil_iff (h_nodes : ∀ arc ∈ arcs, arc.1 ∈ nodes ∧ arc.2 ∈ nodes) :
    findCycle nodes arcs = [] ↔ Acyclic arcs := by
  rcases findCycle_spec h_nodes with h | ⟨h_nil, h_acyclic⟩
  · refine ⟨fun h_nil => ?_, fun h_acyclic => absurd h_acyclic h.not_acyclic⟩
    rw [h_nil] at h
    obtain ⟨-, v, rest, h_nil⟩ := h
    cases h_nil
  · exact ⟨fun _ => h_acyclic, fun _ => h_nil⟩

end Digraph
