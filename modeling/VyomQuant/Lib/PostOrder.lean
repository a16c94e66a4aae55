/-
  VyomQuant.Lib.PostOrder

  A memoised walk over a graph given by what each node depends on, with an explicit stack:
  a node is entered, its dependencies are visited, and then its value is computed from
  theirs.

  The entered nodes of the stack make the path from the root of the walk to its tip, each
  a dependency of the one before.  A node of the path that is met again closes a cycle;
  a walk that returns has the value of every node, computed after its dependencies
  (`postOrder_spec`).
-/

import Mathlib.Algebra.BigOperators.Group.List.Basic
import Mathlib.Algebra.GroupWithZero.Nat
import Mathlib.Data.List.Chain
import VyomQuant.Lib.Digraph

namespace Digraph

variable {ν β ε : Type*}

/-- Why a walk stops: it met its own path again, or a value could not be computed. -/
inductive WalkFailure (ν ε : Type*) where
  | cycle (nodes : List ν)
  | failed (node : ν) (error : ε)
deriving DecidableEq

/-- A node on the stack, and whether it has been entered. -/
abbrev Visit (ν : Type*) := ν × Bool

section Definitions

variable [DecidableEq ν]

def valuesBefore (before : ν → List ν) (memo : List (ν × β)) (v : ν) : List β :=
  (before v).filterMap fun u => List.lookup u memo

/-- The dependencies still to visit, the last of them on top. -/
def pending (nodes : List ν) (before : ν → List ν) (memo : List (ν × β)) (v : ν) :
    List (Visit ν) :=
  (((before v).filter fun u => List.lookup u memo = none ∧ u ∈ nodes).reverse).map (·, false)

/-- Take the top of the stack, until it is empty or the walk fails. -/
def visit (nodes : List ν) (before : ν → List ν) (value : ν → List β → Except ε β) :
    ℕ → List (Visit ν) → List ν → List (ν × β) →
      Except (WalkFailure ν ε) (List ν × List (ν × β))
  | 0, _, path, memo => .ok (path, memo)
  | _ + 1, [], path, memo => .ok (path, memo)
  | fuel + 1, (v, true) :: stack, path, memo =>
    if List.lookup v memo ≠ none then visit nodes before value fuel stack (path.erase v) memo
    else
      match value v (valuesBefore before memo v) with
      | .error error => .error (.failed v error)
      | .ok b => visit nodes before value fuel stack (path.erase v) (memo ++ [(v, b)])
  | fuel + 1, (v, false) :: stack, path, memo =>
    if List.lookup v memo ≠ none then visit nodes before value fuel stack path memo
    else if v ∈ path then .error (.cycle (path.drop (path.idxOf v) ++ [v]))
    else
      visit nodes before value fuel (pending nodes before memo v ++ (v, true) :: stack)
        (path ++ [v]) memo

/-- The steps that entering these nodes takes. -/
def entering (before : ν → List ν) (nodes : List ν) : ℕ :=
  (nodes.map fun v => (before v).length + 1).sum

/-- Walk from each root that has no value yet. -/
def visitFrom (nodes : List ν) (before : ν → List ν) (value : ν → List β → Except ε β) :
    List ν → List ν → List (ν × β) → Except (WalkFailure ν ε) (List (ν × β))
  | [], _, memo => .ok memo
  | root :: rest, path, memo =>
    if List.lookup root memo ≠ none then visitFrom nodes before value rest path memo
    else
      match visit nodes before value (entering before nodes + 1) [(root, false)] path memo with
      | .error failure => .error failure
      | .ok (path, memo) => visitFrom nodes before value rest path memo

/-- The value of every node, each after those it depends on; the dependencies that are no
    nodes are left out. -/
def postOrder (nodes roots : List ν) (before : ν → List ν) (value : ν → List β → Except ε β) :
    Except (WalkFailure ν ε) (List (ν × β)) :=
  visitFrom nodes before value roots [] []

end Definitions

/-! ## The invariant of a walk -/

/-- The nearest entered node from the top of the stack. -/
def tip : List (Visit ν) → Option ν
  | [] => none
  | (v, true) :: _ => some v
  | (_, false) :: stack => tip stack

/-- The entered nodes of the stack, from the top. -/
def entered : List (Visit ν) → List ν
  | [] => []
  | (v, true) :: stack => v :: entered stack
  | (_, false) :: stack => entered stack

/-- What stands on the stack is a dependency of the nearest entered node below it. -/
def Called (before : ν → List ν) : List (Visit ν) → Prop
  | [] => True
  | entry :: stack => (∀ v, tip stack = some v → entry.1 ∈ before v) ∧ Called before stack

/-- The dependencies of an entered node have their values, or stand above it. -/
def Awaited [DecidableEq ν] (nodes : List ν) (before : ν → List ν) (memo : List (ν × β)) :
    List ν → List (Visit ν) → Prop
  | _, [] => True
  | above, entry :: stack =>
    (entry.2 = true → ∀ u ∈ before entry.1, u ∈ nodes → List.lookup u memo ≠ none ∨ u ∈ above) ∧
    Awaited nodes before memo (entry.1 :: above) stack

/-- Every value was computed from those of the dependencies, which were there before. -/
structure Memoised [DecidableEq ν] (nodes : List ν) (before : ν → List ν)
    (value : ν → List β → Except ε β) (memo : List (ν × β)) : Prop where
  nodup : (memo.map Prod.fst).Nodup
  known : ∀ v ∈ memo.map Prod.fst, v ∈ nodes
  earlier : ∀ v ∈ memo.map Prod.fst, ∀ u ∈ before v, u ∈ nodes →
    u ∈ memo.map Prod.fst ∧ (memo.map Prod.fst).idxOf u < (memo.map Prod.fst).idxOf v
  computed : ∀ v b, List.lookup v memo = some b → value v (valuesBefore before memo v) = .ok b

structure Visiting [DecidableEq ν] (nodes : List ν) (before : ν → List ν)
    (value : ν → List β → Except ε β) (stack : List (Visit ν)) (path : List ν)
    (memo : List (ν × β)) : Prop where
  path_eq : path = (entered stack).reverse
  nodup : path.Nodup
  fresh : ∀ v ∈ path, List.lookup v memo = none
  known : ∀ entry ∈ stack, entry.1 ∈ nodes
  called : Called before stack
  awaited : Awaited nodes before memo [] stack
  memoised : Memoised nodes before value memo

/-! ## One step -/

section Steps

variable [DecidableEq ν] {nodes : List ν} {before : ν → List ν} {value : ν → List β → Except ε β}
  {stack : List (Visit ν)} {path : List ν} {memo : List (ν × β)} {v : ν}

theorem lookup_ne_none_iff : List.lookup v memo ≠ none ↔ v ∈ memo.map Prod.fst := by
  rw [Option.ne_none_iff_isSome, List.lookup_isSome_iff, List.mem_map]
  simp only [beq_iff_eq]
  exact ⟨fun ⟨a, h, h_eq⟩ => ⟨a, h, h_eq.symm⟩, fun ⟨a, h, h_eq⟩ => ⟨a, h, h_eq.symm⟩⟩

theorem Awaited.mono {memo' : List (ν × β)} {above above' : List ν}
    (h : Awaited nodes before memo above stack)
    (h_memo : ∀ u, List.lookup u memo ≠ none → List.lookup u memo' ≠ none)
    (h_above : ∀ u ∈ above, List.lookup u memo' ≠ none ∨ u ∈ above') :
    Awaited nodes before memo' above' stack := by
  induction stack generalizing above above' with
  | nil => trivial
  | cons entry stack ih =>
    obtain ⟨h_entry, h_rest⟩ := h
    refine ⟨fun h_entered u h_u h_node => ?_, ih h_rest fun u h_u => ?_⟩
    · rcases h_entry h_entered u h_u h_node with h | h
      · exact .inl (h_memo u h)
      · exact h_above u h
    · rcases List.mem_cons.mp h_u with rfl | h_u
      · exact .inr List.mem_cons_self
      · exact (h_above u h_u).imp_right (List.mem_cons_of_mem _)

omit [DecidableEq ν] in
theorem entered_pending {us : List ν} : entered (us.map (·, false) ++ stack) = entered stack := by
  induction us with
  | nil => rfl
  | cons u us ih => exact ih

omit [DecidableEq ν] in
theorem tip_pending {us : List ν} : tip (us.map (·, false) ++ stack) = tip stack := by
  induction us with
  | nil => rfl
  | cons u us ih => exact ih

theorem Visiting.skip (h : Visiting nodes before value ((v, false) :: stack) path memo)
    (h_memo : List.lookup v memo ≠ none) : Visiting nodes before value stack path memo where
  path_eq := h.path_eq
  nodup := h.nodup
  fresh := h.fresh
  known entry h_entry := h.known entry (List.mem_cons_of_mem _ h_entry)
  called := h.called.2
  awaited := h.awaited.2.mono (fun _ => id) fun u h_u => by
    rw [List.mem_singleton.mp h_u]
    exact .inl h_memo
  memoised := h.memoised

omit [DecidableEq ν] in
theorem called_pending {us : List ν} (h : Called before stack) (h_tip : tip stack = some v)
    (h_us : ∀ u ∈ us, u ∈ before v) : Called before (us.map (·, false) ++ stack) := by
  induction us with
  | nil => exact h
  | cons u us ih =>
    rw [List.forall_mem_cons] at h_us
    refine ⟨fun w h_w => ?_, ih h_us.2⟩
    have h_tip' : tip (us.map (·, false) ++ stack) = some w := h_w
    rw [tip_pending, h_tip] at h_tip'
    cases h_tip'
    exact h_us.1

theorem awaited_pending {us above : List ν}
    (h : Awaited nodes before memo (us.reverse ++ above) stack) :
    Awaited nodes before memo above (us.map (·, false) ++ stack) := by
  induction us generalizing above with
  | nil => exact h
  | cons u us ih =>
    refine ⟨nofun, ih ?_⟩
    rw [List.reverse_cons, List.append_assoc] at h
    exact h

/-- A node that is new is entered, and its dependencies are to visit. -/
theorem Visiting.enter (h : Visiting nodes before value ((v, false) :: stack) path memo)
    (h_memo : List.lookup v memo = none) (h_path : v ∉ path) :
    Visiting nodes before value (pending nodes before memo v ++ (v, true) :: stack) (path ++ [v])
      memo := by
  have h_node : v ∈ nodes := h.known _ List.mem_cons_self
  have h_pending : ∀ u, u ∈ ((before v).filter fun u => List.lookup u memo = none ∧ u ∈ nodes).reverse
      ↔ u ∈ before v ∧ List.lookup u memo = none ∧ u ∈ nodes := by
    intro u
    rw [List.mem_reverse, List.mem_filter, decide_eq_true_eq]
  refine ⟨?_, ?_, fun w h_w => ?_, fun entry h_entry => ?_, ?_, ?_, h.memoised⟩
  · rw [pending, entered_pending, h.path_eq]
    exact List.reverse_cons.symm
  · exact List.nodup_append.mpr ⟨h.nodup, List.nodup_singleton v, fun a h_a b h_b h_eq =>
      h_path (List.mem_singleton.mp h_b ▸ h_eq ▸ h_a)⟩
  · rcases List.mem_append.mp h_w with h_w | h_w
    · exact h.fresh w h_w
    · rw [List.mem_singleton.mp h_w]
      exact h_memo
  · rcases List.mem_append.mp h_entry with h_entry | h_entry
    · obtain ⟨u, h_u, rfl⟩ := List.mem_map.mp h_entry
      exact ((h_pending u).mp h_u).2.2
    · rcases List.mem_cons.mp h_entry with rfl | h_entry
      · exact h_node
      · exact h.known entry (List.mem_cons_of_mem _ h_entry)
  · have h_called : Called before ((v, true) :: stack) := h.called
    exact called_pending h_called rfl fun u h_u => ((h_pending u).mp h_u).1
  · refine awaited_pending ⟨fun _ u h_u h_known => ?_, h.awaited.2.mono (fun _ => id) fun u h_u => ?_⟩
    · by_cases h_none : List.lookup u memo = none
      · refine .inr (List.mem_append_left _ (List.mem_reverse.mpr ?_))
        exact (h_pending u).mpr ⟨h_u, h_none, h_known⟩
      · exact .inl h_none
    · rw [List.mem_singleton.mp h_u]
      exact .inr List.mem_cons_self

theorem Memoised.put (h : Memoised nodes before value memo) (h_node : v ∈ nodes)
    (h_memo : List.lookup v memo = none)
    (h_before : ∀ u ∈ before v, u ∈ nodes → List.lookup u memo ≠ none) {b : β}
    (h_value : value v (valuesBefore before memo v) = .ok b) :
    Memoised nodes before value (memo ++ [(v, b)]) := by
  have h_new : v ∉ memo.map Prod.fst := fun h_mem => lookup_ne_none_iff.mpr h_mem h_memo
  have h_keys : (memo ++ [(v, b)]).map Prod.fst = memo.map Prod.fst ++ [v] := by simp
  -- A dependency of what is there is not the new node.
  have h_same : ∀ w, (∀ u ∈ before w, u ∈ nodes → List.lookup u memo ≠ none) →
      valuesBefore before (memo ++ [(v, b)]) w = valuesBefore before memo w := by
    intro w h_w
    unfold valuesBefore
    refine List.filterMap_congr fun u h_u => ?_
    rw [List.lookup_append]
    by_cases h_uv : u = v
    · subst h_uv
      exact absurd h_memo (h_w u h_u h_node)
    · have h_ne : (u == v) = false := beq_eq_false_iff_ne.mpr h_uv
      simp [List.lookup_cons, h_ne]
  have h_all : ∀ w ∈ memo.map Prod.fst, ∀ u ∈ before w, u ∈ nodes → List.lookup u memo ≠ none :=
    fun w h_w u h_u h_known => lookup_ne_none_iff.mpr (h.earlier w h_w u h_u h_known).1
  refine ⟨?_, fun w h_w => ?_, fun w h_w u h_u h_known => ?_, fun w c h_c => ?_⟩
  · rw [h_keys]
    exact List.nodup_append.mpr ⟨h.nodup, List.nodup_singleton v, fun a h_a b h_b h_eq =>
      h_new (List.mem_singleton.mp h_b ▸ h_eq ▸ h_a)⟩
  · rw [h_keys] at h_w
    rcases List.mem_append.mp h_w with h_w | h_w
    · exact h.known w h_w
    · rw [List.mem_singleton.mp h_w]
      exact h_node
  · rw [h_keys] at h_w ⊢
    rcases List.mem_append.mp h_w with h_w | h_w
    · obtain ⟨h_mem, h_lt⟩ := h.earlier w h_w u h_u h_known
      rw [List.idxOf_append_of_mem h_mem, List.idxOf_append_of_mem h_w]
      exact ⟨List.mem_append_left _ h_mem, h_lt⟩
    · rw [List.mem_singleton.mp h_w] at h_u ⊢
      have h_mem := lookup_ne_none_iff.mp (h_before u h_u h_known)
      rw [List.idxOf_append_of_mem h_mem, List.idxOf_append_of_notMem h_new]
      have h_lt := List.idxOf_lt_length_of_mem h_mem
      exact ⟨List.mem_append_left _ h_mem, by omega⟩
  · by_cases h_w : w ∈ memo.map Prod.fst
    · rw [h_same w (h_all w h_w)]
      have h_old : List.lookup w memo = some c := by
        obtain ⟨d, h_d⟩ := Option.ne_none_iff_exists'.mp (lookup_ne_none_iff.mpr h_w)
        rw [List.lookup_append, h_d] at h_c
        rw [h_d]
        exact h_c
      exact h.computed w c h_old
    · have h_none : List.lookup w memo = none := by
        by_contra h_some
        exact h_w (lookup_ne_none_iff.mp h_some)
      rw [List.lookup_append, h_none] at h_c
      have h_eq : w = v := by
        by_contra h_ne
        have h_beq : (w == v) = false := beq_eq_false_iff_ne.mpr h_ne
        simp [List.lookup_cons, h_beq] at h_c
      subst h_eq
      rw [h_same w h_before, h_value]
      simpa using h_c

/-- A node whose dependencies have their values is left with its own. -/
theorem Visiting.leave (h : Visiting nodes before value ((v, true) :: stack) path memo) {b : β}
    (h_value : value v (valuesBefore before memo v) = .ok b) :
    Visiting nodes before value stack (path.erase v) (memo ++ [(v, b)]) := by
  have h_path : path = (entered stack).reverse ++ [v] := by
    rw [h.path_eq]
    exact List.reverse_cons
  have h_nodup := h.nodup
  rw [h_path, List.nodup_append] at h_nodup
  have h_not : v ∉ (entered stack).reverse :=
    fun h_mem => h_nodup.2.2 v h_mem v (List.mem_singleton.mpr rfl) rfl
  have h_erase : path.erase v = (entered stack).reverse := by
    rw [h_path, List.erase_append_right _ h_not]
    simp
  have h_memo : List.lookup v memo = none :=
    h.fresh v (h_path ▸ List.mem_append_right _ (List.mem_singleton.mpr rfl))
  have h_before : ∀ u ∈ before v, u ∈ nodes → List.lookup u memo ≠ none := fun u h_u h_known =>
    (h.awaited.1 rfl u h_u h_known).resolve_right List.not_mem_nil
  have h_kept : ∀ u, List.lookup u memo ≠ none → List.lookup u (memo ++ [(v, b)]) ≠ none := by
    intro u h_u
    rw [lookup_ne_none_iff] at h_u ⊢
    rw [List.map_append]
    exact List.mem_append_left _ h_u
  rw [h_erase]
  refine ⟨rfl, h_nodup.1, fun w h_w => ?_, fun entry h_entry => ?_, h.called.2, ?_,
    h.memoised.put (h.known _ List.mem_cons_self) h_memo h_before h_value⟩
  · have h_ne : (w == v) = false := beq_eq_false_iff_ne.mpr fun h_eq => h_not (h_eq ▸ h_w)
    have h_fresh := h.fresh w (h_path ▸ List.mem_append_left _ h_w)
    rw [List.lookup_append, h_fresh]
    simp [List.lookup_cons, h_ne]
  · exact h.known entry (List.mem_cons_of_mem _ h_entry)
  · refine h.awaited.2.mono h_kept fun u h_u => .inl ?_
    rw [List.mem_singleton.mp h_u, lookup_ne_none_iff, List.map_append]
    exact List.mem_append_right _ List.mem_cons_self

omit [DecidableEq ν] in
theorem tip_eq_head : tip stack = (entered stack).head? := by
  induction stack with
  | nil => rfl
  | cons entry stack ih =>
    obtain ⟨v, expanded⟩ := entry
    cases expanded with
    | true => rfl
    | false => exact ih

/-- The arcs that `before` describes, between nodes. -/
def DependsOn (nodes : List ν) (before : ν → List ν) (arcs : List (ν × ν)) : Prop :=
  ∀ u v, Arc arcs u v ↔ u ∈ before v ∧ u ∈ nodes ∧ v ∈ nodes

omit [DecidableEq ν] in
theorem Called.isChain {arcs : List (ν × ν)} (h_arcs : DependsOn nodes before arcs)
    (h : Called before stack) (h_known : ∀ entry ∈ stack, entry.1 ∈ nodes) :
    (entered stack).IsChain (Arc arcs) ∧ ∀ w ∈ entered stack, w ∈ nodes := by
  induction stack with
  | nil => exact ⟨List.IsChain.nil, nofun⟩
  | cons entry stack ih =>
    rw [List.forall_mem_cons] at h_known
    obtain ⟨h_chain, h_nodes⟩ := ih h.2 h_known.2
    obtain ⟨v, expanded⟩ := entry
    cases expanded with
    | false => exact ⟨h_chain, h_nodes⟩
    | true =>
      refine ⟨List.isChain_cons.mpr ⟨fun w h_w => ?_, h_chain⟩,
        List.forall_mem_cons.mpr ⟨h_known.1, h_nodes⟩⟩
      have h_tip : tip stack = some w := tip_eq_head.trans h_w
      exact (h_arcs v w).mpr ⟨h.1 w h_tip, h_known.1, h_nodes w (List.mem_of_mem_head? h_w)⟩

theorem Visiting.closed {arcs : List (ν × ν)} (h_arcs : DependsOn nodes before arcs)
    (h : Visiting nodes before value ((v, false) :: stack) path memo) (h_v : v ∈ path) :
    ClosedWalk (converse arcs) (path.drop (path.idxOf v) ++ [v]) := by
  have h_path : path = (entered stack).reverse := h.path_eq
  obtain ⟨h_chain, h_nodes⟩ := h.called.2.isChain h_arcs fun entry h_entry =>
    h.known entry (List.mem_cons_of_mem _ h_entry)
  have h_lt := List.idxOf_lt_length_of_mem h_v
  have h_last : ∃ w, path.getLast? = some w := by
    cases h_eq : path.getLast? with
    | none =>
      rw [List.getLast?_eq_none_iff.mp h_eq] at h_v
      cases h_v
    | some w => exact ⟨w, rfl⟩
  obtain ⟨w, h_w⟩ := h_last
  have h_tip : tip stack = some w := by
    rw [tip_eq_head, ← h_w, h_path, List.getLast?_reverse]
  have h_w_node : w ∈ nodes :=
    h_nodes w (List.mem_reverse.mp (h_path ▸ List.mem_of_getLast? h_w))
  refine @ClosedWalk.of_path _ _ v w _ ?_ ?_ ?_ ?_
  · refine List.IsChain.drop ?_ _
    rw [h_path, List.isChain_reverse]
    exact h_chain.imp fun _ _ h_arc => arc_converse.mpr h_arc
  · rw [List.head?_drop, List.getElem?_eq_getElem h_lt, List.getElem_idxOf h_lt]
  · rw [List.getLast?_drop, if_neg (by omega), h_w]
  · exact arc_converse.mpr ((h_arcs v w).mpr
      ⟨h.called.1 w h_tip, h.known _ List.mem_cons_self, h_w_node⟩)

end Steps

/-! ## The steps a walk takes -/

section Walks

variable [DecidableEq ν] {nodes : List ν} {before : ν → List ν} {value : ν → List β → Except ε β}
  {arcs : List (ν × ν)}

/-- What is neither on the path nor has a value. -/
def untouched (nodes path : List ν) (memo : List (ν × β)) : List ν :=
  nodes.filter fun v => v ∉ path ∧ List.lookup v memo = none

omit [DecidableEq ν] in
theorem entering_filter_le {p q : ν → Bool} (h : ∀ v, q v = true → p v = true) :
    entering before (nodes.filter q) ≤ entering before (nodes.filter p) := by
  induction nodes with
  | nil => exact Nat.le_refl _
  | cons v rest ih =>
    unfold entering at ih ⊢
    by_cases h_q : q v = true
    · rw [List.filter_cons_of_pos h_q, List.filter_cons_of_pos (h v h_q), List.map_cons,
        List.map_cons, List.sum_cons, List.sum_cons]
      omega
    · rw [List.filter_cons_of_neg h_q]
      by_cases h_p : p v = true
      · rw [List.filter_cons_of_pos h_p, List.map_cons, List.sum_cons]
        omega
      · rw [List.filter_cons_of_neg h_p]
        exact ih

omit [DecidableEq ν] in
theorem entering_filter_lt {p q : ν → Bool} (h : ∀ v, q v = true → p v = true) {v : ν}
    (h_v : v ∈ nodes) (h_p : p v = true) (h_q : q v = false) :
    entering before (nodes.filter q) + ((before v).length + 1)
      ≤ entering before (nodes.filter p) := by
  induction nodes with
  | nil => cases h_v
  | cons w rest ih =>
    rcases List.mem_cons.mp h_v with rfl | h_v
    · have h_le : entering before (rest.filter q) ≤ entering before (rest.filter p) :=
        entering_filter_le h
      rw [List.filter_cons_of_neg (by rw [h_q]; exact Bool.false_ne_true),
        List.filter_cons_of_pos h_p]
      unfold entering at h_le ⊢
      rw [List.map_cons, List.sum_cons]
      omega
    · have h_rest := ih h_v
      unfold entering at h_rest ⊢
      by_cases h_w : q w = true
      · rw [List.filter_cons_of_pos h_w, List.filter_cons_of_pos (h w h_w), List.map_cons,
          List.map_cons, List.sum_cons, List.sum_cons]
        omega
      · rw [List.filter_cons_of_neg h_w]
        by_cases h_w' : p w = true
        · rw [List.filter_cons_of_pos h_w', List.map_cons, List.sum_cons]
          omega
        · rw [List.filter_cons_of_neg h_w']
          exact h_rest

theorem entering_untouched {path : List ν} {memo : List (ν × β)} {v : ν} (h_node : v ∈ nodes)
    (h_path : v ∉ path) (h_memo : List.lookup v memo = none) :
    entering before (untouched nodes (path ++ [v]) memo) + ((before v).length + 1)
      ≤ entering before (untouched nodes path memo) := by
  refine entering_filter_lt (fun w h_w => ?_) h_node (decide_eq_true ⟨h_path, h_memo⟩) ?_
  · rw [decide_eq_true_eq] at h_w ⊢
    exact ⟨fun h_mem => h_w.1 (List.mem_append_left _ h_mem), h_w.2⟩
  · exact decide_eq_false fun h => h.1 (List.mem_append_right _ (List.mem_singleton.mpr rfl))

theorem length_pending_le (memo : List (ν × β)) (v : ν) :
    (pending nodes before memo v).length ≤ (before v).length := by
  rw [pending, List.length_map, List.length_reverse]
  exact List.length_filter_le ..

theorem Visiting.untouched_leave {stack : List (Visit ν)} {path : List ν} {memo : List (ν × β)}
    {v : ν} (h : Visiting nodes before value ((v, true) :: stack) path memo) (b : β) :
    untouched nodes (path.erase v) (memo ++ [(v, b)]) = untouched nodes path memo := by
  have h_v : v ∈ path := by
    rw [h.path_eq]
    exact List.mem_reverse.mpr List.mem_cons_self
  refine List.filter_congr fun w _ => decide_eq_decide.mpr ?_
  by_cases h_w : w = v
  · subst h_w
    simp [h_v, List.lookup_append]
  · have h_ne : (w == v) = false := beq_eq_false_iff_ne.mpr h_w
    rw [List.mem_erase_of_ne h_w, List.lookup_append]
    simp [List.lookup_cons, h_ne]

def Ended (nodes : List ν) (before : ν → List ν) (value : ν → List β → Except ε β)
    (arcs : List (ν × ν)) (stack : List (Visit ν)) (memo : List (ν × β)) :
    Except (WalkFailure ν ε) (List ν × List (ν × β)) → Prop
  | .error (.cycle cycle) => ClosedWalk (converse arcs) cycle
  | .error (.failed v error) => v ∈ nodes ∧ ∃ values, value v values = .error error
  | .ok (path, memo') => path = [] ∧ Memoised nodes before value memo' ∧
      (∀ v, List.lookup v memo ≠ none → List.lookup v memo' ≠ none) ∧
      ∀ entry ∈ stack, List.lookup entry.1 memo' ≠ none

theorem Ended.of_later {stack stack' : List (Visit ν)} {memo memo' : List (ν × β)}
    {r : Except (WalkFailure ν ε) (List ν × List (ν × β))}
    (h : Ended nodes before value arcs stack' memo' r)
    (h_memo : ∀ v, List.lookup v memo ≠ none → List.lookup v memo' ≠ none)
    (h_stack : ∀ entry ∈ stack, List.lookup entry.1 memo' ≠ none ∨
      ∃ entry' ∈ stack', entry'.1 = entry.1) :
    Ended nodes before value arcs stack memo r := by
  cases r with
  | error failure =>
    cases failure with
    | cycle cycle => exact h
    | failed v error => exact h
  | ok result =>
    obtain ⟨h_path, h_memoised, h_kept, h_done⟩ := h
    refine ⟨h_path, h_memoised, fun v h_v => h_kept v (h_memo v h_v), fun entry h_entry => ?_⟩
    rcases h_stack entry h_entry with h | ⟨entry', h_entry', h_eq⟩
    · exact h_kept _ h
    · rw [← h_eq]
      exact h_done entry' h_entry'

theorem visit_ended (h_arcs : DependsOn nodes before arcs) {fuel : ℕ} {stack : List (Visit ν)}
    {path : List ν} {memo : List (ν × β)} (h : Visiting nodes before value stack path memo)
    (h_fuel : stack.length + entering before (untouched nodes path memo) ≤ fuel) :
    Ended nodes before value arcs stack memo (visit nodes before value fuel stack path memo) := by
  induction fuel generalizing stack path memo with
  | zero =>
    have h_nil : stack = [] := List.eq_nil_of_length_eq_zero (by omega)
    subst h_nil
    exact ⟨h.path_eq, h.memoised, fun _ => id, nofun⟩
  | succ fuel ih =>
    cases stack with
    | nil => exact ⟨h.path_eq, h.memoised, fun _ => id, nofun⟩
    | cons entry stack =>
      obtain ⟨v, expanded⟩ := entry
      have h_node : v ∈ nodes := h.known _ List.mem_cons_self
      rw [List.length_cons] at h_fuel
      cases expanded with
      | true =>
        have h_path : v ∈ path := by
          rw [h.path_eq]
          exact List.mem_reverse.mpr List.mem_cons_self
        rw [visit, if_neg (not_not.mpr (h.fresh v h_path))]
        cases h_value : value v (valuesBefore before memo v) with
        | error error => exact ⟨h_node, _, h_value⟩
        | ok b =>
          have h_ended := ih (h.leave h_value) (by rw [h.untouched_leave b]; omega)
          have h_kept : ∀ u, List.lookup u memo ≠ none →
              List.lookup u (memo ++ [(v, b)]) ≠ none := by
            intro u h_u
            rw [lookup_ne_none_iff] at h_u ⊢
            rw [List.map_append]
            exact List.mem_append_left _ h_u
          refine h_ended.of_later h_kept fun entry h_entry => ?_
          rcases List.mem_cons.mp h_entry with rfl | h_entry
          · refine .inl (lookup_ne_none_iff.mpr ?_)
            rw [List.map_append]
            exact List.mem_append_right _ List.mem_cons_self
          · exact .inr ⟨entry, h_entry, rfl⟩
      | false =>
        rw [visit]
        by_cases h_memo : List.lookup v memo = none
        · rw [if_neg (not_not.mpr h_memo)]
          by_cases h_path : v ∈ path
          · rw [if_pos h_path]
            exact h.closed h_arcs h_path
          · rw [if_neg h_path]
            have h_enter : entering before (untouched nodes (path ++ [v]) memo) +
                ((before v).length + 1) ≤ entering before (untouched nodes path memo) :=
              entering_untouched h_node h_path h_memo
            have h_pending : (pending nodes before memo v).length ≤ (before v).length :=
              length_pending_le memo v
            have h_ended := ih (h.enter h_memo h_path)
              (by rw [List.length_append, List.length_cons]; omega)
            refine h_ended.of_later (fun _ => id) fun entry h_entry => .inr ?_
            rcases List.mem_cons.mp h_entry with rfl | h_entry
            · exact ⟨(v, true), List.mem_append_right _ List.mem_cons_self, rfl⟩
            · exact ⟨entry, List.mem_append_right _ (List.mem_cons_of_mem _ h_entry), rfl⟩
        · rw [if_pos h_memo]
          have h_ended := ih (h.skip h_memo) (by omega)
          refine h_ended.of_later (fun _ => id) fun entry h_entry => ?_
          rcases List.mem_cons.mp h_entry with rfl | h_entry
          · exact .inl h_memo
          · exact .inr ⟨entry, h_entry, rfl⟩

/-! ## All the walks -/

def PostOrdered (nodes roots : List ν) (before : ν → List ν) (value : ν → List β → Except ε β)
    (arcs : List (ν × ν)) : Except (WalkFailure ν ε) (List (ν × β)) → Prop
  | .error (.cycle cycle) => ClosedWalk (converse arcs) cycle
  | .error (.failed v error) => v ∈ nodes ∧ ∃ values, value v values = .error error
  | .ok memo => Memoised nodes before value memo ∧ ∀ v ∈ roots, List.lookup v memo ≠ none

theorem visitFrom_spec (h_arcs : DependsOn nodes before arcs) {roots : List ν}
    (h_roots : ∀ v ∈ roots, v ∈ nodes) {memo : List (ν × β)}
    (h : Memoised nodes before value memo) {done : List ν}
    (h_done : ∀ v ∈ done, List.lookup v memo ≠ none) :
    PostOrdered nodes (done ++ roots) before value arcs
      (visitFrom nodes before value roots [] memo) := by
  induction roots generalizing memo done with
  | nil =>
    rw [List.append_nil]
    exact ⟨h, h_done⟩
  | cons root rest ih =>
    rw [List.forall_mem_cons] at h_roots
    have h_split : done ++ root :: rest = (done ++ [root]) ++ rest := by simp
    rw [visitFrom, h_split]
    by_cases h_memo : List.lookup root memo = none
    · rw [if_neg (not_not.mpr h_memo)]
      have h_start : Visiting nodes before value [(root, false)] [] memo :=
        { path_eq := rfl
          nodup := List.nodup_nil
          fresh := nofun
          known := fun entry h_entry => by
            rw [List.mem_singleton.mp h_entry]
            exact h_roots.1
          called := ⟨nofun, trivial⟩
          awaited := ⟨nofun, trivial⟩
          memoised := h }
      have h_all : entering before (untouched nodes [] memo) ≤ entering before nodes := by
        have h_le : entering before (untouched nodes [] memo)
            ≤ entering before (nodes.filter fun _ => true) := entering_filter_le fun _ _ => rfl
        rw [List.filter_true] at h_le
        exact h_le
      have h_fuel : [(root, false)].length + entering before (untouched nodes [] memo)
          ≤ entering before nodes + 1 := by
        rw [List.length_singleton]
        omega
      have h_ended := visit_ended h_arcs h_start h_fuel
      revert h_ended
      cases visit nodes before value (entering before nodes + 1) [(root, false)] [] memo with
      | error failure =>
        intro h_ended
        cases failure with
        | cycle cycle => exact h_ended
        | failed v error => exact h_ended
      | ok result =>
        rintro ⟨h_path, h_memoised, h_kept, h_visited⟩
        obtain ⟨path, memo'⟩ := result
        obtain rfl : path = [] := h_path
        refine ih h_roots.2 h_memoised fun v h_v => ?_
        rcases List.mem_append.mp h_v with h_v | h_v
        · exact h_kept v (h_done v h_v)
        · rw [List.mem_singleton.mp h_v]
          exact h_visited (root, false) List.mem_cons_self
    · rw [if_pos h_memo]
      refine ih h_roots.2 h fun v h_v => ?_
      rcases List.mem_append.mp h_v with h_v | h_v
      · exact h_done v h_v
      · rw [List.mem_singleton.mp h_v]
        exact h_memo

/-- The walks find a closed walk of dependencies, or a value that cannot be computed, or
    give every root and all that it depends on a value. -/
theorem postOrder_spec (h_arcs : DependsOn nodes before arcs) {roots : List ν}
    (h_roots : ∀ v ∈ roots, v ∈ nodes) :
    PostOrdered nodes roots before value arcs (postOrder nodes roots before value) := by
  have h_empty : Memoised nodes before value ([] : List (ν × β)) :=
    ⟨List.nodup_nil, nofun, nofun, nofun⟩
  have h_none : ∀ v ∈ ([] : List ν), List.lookup v ([] : List (ν × β)) ≠ none := nofun
  exact visitFrom_spec h_arcs h_roots h_empty h_none

theorem Memoised.rank_lt {memo : List (ν × β)} (h_arcs : DependsOn nodes before arcs)
    (h : Memoised nodes before value memo) (h_all : ∀ v ∈ nodes, List.lookup v memo ≠ none)
    (u v : ν) (h_arc : Arc arcs u v) :
    (memo.map Prod.fst).idxOf u < (memo.map Prod.fst).idxOf v := by
  obtain ⟨h_before, h_u, h_v⟩ := (h_arcs u v).mp h_arc
  exact (h.earlier v (lookup_ne_none_iff.mp (h_all v h_v)) u h_before h_u).2

end Walks

end Digraph
