/-
  VyomQuant.Lib.FirstFit

  Requests for slots, served in order.  A request that names a slot gets it; one that names
  none gets the first slot that is shared or not yet taken.  Some names are reserved: every
  name that a request gives is one.

  First fit looks backward only, so it may hand out a slot that a later request names.  It
  does so exactly where `Room` fails: some reserved slot is still to be named, none before it
  is shared, and the requests without a name have used up the unreserved slots before it
  (`servesReserved_iff`, for a whole history `clean_iff`).
-/

import Mathlib.Data.List.Induction
import Mathlib.Data.List.Nodup
import Mathlib.Data.List.Perm.Subperm
import Mathlib.Order.Basic

/-- Slots with a name each, some of them shared. -/
structure FirstFit (σ α : Type*) where
  slots : List σ
  name : σ → α
  shared : σ → Bool

namespace FirstFit

variable {σ α : Type*} [DecidableEq α] (b : FirstFit σ α) (reserved : List α)

/-! ## Serving -/

def firstFree (taken : List α) : Option σ :=
  b.slots.find? fun slot => b.shared slot || decide (b.name slot ∉ taken)

/-- Where a request ends, if there is a slot for it. -/
def placed (taken : List α) : Option α → Option α
  | some wanted => some wanted
  | none => (b.firstFree taken).map b.name

def taken (requests : List (Option α)) : List α :=
  requests.foldl (fun taken request => taken ++ (b.placed taken request).toList) []

@[simp] theorem taken_nil : b.taken [] = [] := rfl

theorem taken_append (requests : List (Option α)) (request : Option α) :
    b.taken (requests ++ [request])
      = b.taken requests ++ (b.placed (b.taken requests) request).toList := by
  rw [taken, List.foldl_append]
  rfl

@[simp] theorem taken_append_some (requests : List (Option α)) (wanted : α) :
    b.taken (requests ++ [some wanted]) = b.taken requests ++ [wanted] :=
  b.taken_append requests (some wanted)

/-! ## What is reserved -/

def Reserved (slot : σ) : Prop := b.shared slot = false ∧ b.name slot ∈ reserved

/-- The next request without a name is served a reserved slot. -/
def ServesReserved (requests : List (Option α)) : Prop :=
  ∃ slot, b.firstFree (b.taken requests) = some slot ∧ b.Reserved reserved slot

/-- No request without a name was served a reserved slot. -/
def Clean (requests : List (Option α)) : Prop :=
  ∀ before after, requests = before ++ none :: after → ¬ b.ServesReserved reserved before

/-- The slots that a request without a name may have. -/
def unreserved (slots : List σ) : List σ := slots.filter fun slot => b.name slot ∉ reserved

/-- Every reserved slot is named already, or the requests without a name, the next one
    included, find enough slots before it. -/
def Room (requests : List (Option α)) : Prop :=
  ∀ before slot after, b.slots = before ++ slot :: after → b.Reserved reserved slot →
    some (b.name slot) ∈ requests ∨ (∃ other ∈ before, b.shared other = true) ∨
      requests.count none < (b.unreserved reserved before).length

variable {b} {reserved}

variable {requests : List (Option α)}

theorem Clean.of_append {request : Option α} (h : b.Clean reserved (requests ++ [request])) :
    b.Clean reserved requests := by
  intro before after h_eq
  refine h before (after ++ [request]) ?_
  rw [h_eq, List.append_assoc, List.cons_append]

theorem mem_unreserved {slots : List σ} {slot : σ} :
    slot ∈ b.unreserved reserved slots ↔ slot ∈ slots ∧ b.name slot ∉ reserved := by
  simp [unreserved]

theorem Clean.mem_taken (h_nodup : (b.slots.map b.name).Nodup) (h : b.Clean reserved requests)
    {slot : σ} (h_slot : slot ∈ b.slots) (h_reserved : b.Reserved reserved slot) :
    b.name slot ∈ b.taken requests ↔ some (b.name slot) ∈ requests := by
  induction requests using List.reverseRecOn with
  | nil => simp
  | append_singleton requests request ih =>
    have h_before := ih h.of_append
    cases request with
    | some wanted => simp [h_before, eq_comm]
    | none =>
      rw [taken_append, placed]
      cases h_free : b.firstFree (b.taken requests) with
      | none => simpa using h_before
      | some free =>
        have h_ne : b.name slot ≠ b.name free := by
          intro h_eq
          have h_mem : free ∈ b.slots := List.mem_of_find?_eq_some h_free
          have h_same : slot = free := List.inj_on_of_nodup_map h_nodup h_slot h_mem h_eq
          exact h requests [] rfl ⟨free, h_free, h_same ▸ h_reserved⟩
        simp [h_before, h_ne]

def NamesReserved (reserved : List α) (requests : List (Option α)) : Prop :=
  ∀ wanted, some wanted ∈ requests → wanted ∈ reserved

omit [DecidableEq α] in
theorem NamesReserved.of_append {request : Option α}
    (h : NamesReserved reserved (requests ++ [request])) : NamesReserved reserved requests :=
  fun wanted h_mem => h wanted (List.mem_append_left _ h_mem)

def others (reserved taken : List α) : List α := taken.filter fun x => x ∉ reserved

theorem length_others_le (h : NamesReserved reserved requests) :
    (others reserved (b.taken requests)).length ≤ requests.count none := by
  induction requests using List.reverseRecOn with
  | nil => simp [others]
  | append_singleton requests request ih =>
    have h_before := ih h.of_append
    cases request with
    | some wanted =>
      have h_wanted : wanted ∈ reserved := h wanted (by simp)
      simpa [others, h_wanted] using h_before
    | none =>
      rw [taken_append, others, List.filter_append, List.length_append, List.count_append]
      have h_one : ((b.placed (b.taken requests) none).toList.filter
          fun x => x ∉ reserved).length ≤ 1 := by
        refine Nat.le_trans (List.length_filter_le _ _) ?_
        cases b.placed (b.taken requests) none <;> simp
      have h_count : [(none : Option α)].count none = 1 := by simp
      unfold others at h_before
      omega

variable {before after : List σ}

/-- What the requests without a name took, while an unreserved slot of a first part without
    shared slots is still free: one slot of that part each. -/
theorem Clean.others_taken (h_slots : b.slots = before ++ after)
    (h_single : ∀ slot ∈ before, b.shared slot = false) {free : σ}
    (h_free : free ∈ b.unreserved reserved before) (h_names : NamesReserved reserved requests)
    (h : b.Clean reserved requests) (h_left : b.name free ∉ b.taken requests) :
    (others reserved (b.taken requests)).Nodup ∧
      (∀ x ∈ others reserved (b.taken requests), x ∈ (b.unreserved reserved before).map b.name) ∧
      (others reserved (b.taken requests)).length = requests.count none := by
  induction requests using List.reverseRecOn with
  | nil => simp [others]
  | append_singleton requests request ih =>
    have h_left' : b.name free ∉ b.taken requests := by
      intro h_mem
      rw [taken_append] at h_left
      exact h_left (List.mem_append_left _ h_mem)
    obtain ⟨h_distinct, h_mem, h_length⟩ := ih h_names.of_append h.of_append h_left'
    cases request with
    | some wanted =>
      have h_wanted : wanted ∈ reserved := h_names wanted (by simp)
      have h_same : others reserved (b.taken (requests ++ [some wanted]))
          = others reserved (b.taken requests) := by simp [others, h_wanted]
      rw [h_same]
      exact ⟨h_distinct, h_mem, by simpa using h_length⟩
    | none =>
      -- the free slot is one that the search over the first part stops at
      have h_found : ((before.find? fun slot =>
          b.shared slot || decide (b.name slot ∉ b.taken requests))).isSome := by
        refine List.find?_isSome.mpr ⟨free, (mem_unreserved.mp h_free).1, ?_⟩
        simp [h_left']
      obtain ⟨slot, h_slot⟩ := Option.isSome_iff_exists.mp h_found
      have h_first : b.firstFree (b.taken requests) = some slot := by
        rw [firstFree, h_slots, List.find?_append, h_slot]
        rfl
      have h_before : slot ∈ before := List.mem_of_find?_eq_some h_slot
      have h_test := List.find?_some h_slot
      rw [h_single slot h_before, Bool.false_or, decide_eq_true_eq] at h_test
      have h_other : b.name slot ∉ reserved := fun h_res =>
        h requests [] rfl ⟨slot, h_first, h_single slot h_before, h_res⟩
      have h_next : others reserved (b.taken (requests ++ [none]))
          = others reserved (b.taken requests) ++ [b.name slot] := by
        rw [taken_append, placed, h_first]
        simp [others, h_other]
      rw [h_next]
      refine ⟨?_, ?_, ?_⟩
      · refine List.nodup_append.mpr ⟨h_distinct, List.nodup_singleton _, ?_⟩
        intro x h_x y h_y h_eq
        rw [List.mem_singleton.mp h_y] at h_eq
        rw [h_eq] at h_x
        exact h_test (List.mem_of_mem_filter h_x)
      · intro x h_x
        rcases List.mem_append.mp h_x with h_x | h_x
        · exact h_mem x h_x
        · rw [List.mem_singleton.mp h_x]
          exact List.mem_map_of_mem (mem_unreserved.mpr ⟨h_before, h_other⟩)
      · rw [List.length_append, h_length, List.count_append]
        simp

theorem exists_free (h_nodup : (b.slots.map b.name).Nodup) (h_slots : b.slots = before ++ after)
    (h_names : NamesReserved reserved requests)
    (h_lt : requests.count none < (b.unreserved reserved before).length) :
    ∃ free ∈ b.unreserved reserved before, b.name free ∉ b.taken requests := by
  by_contra h_none
  push Not at h_none
  have h_distinct : ((b.unreserved reserved before).map b.name).Nodup := by
    rw [h_slots, List.map_append] at h_nodup
    exact (h_nodup.of_append_left).sublist (List.filter_sublist.map _)
  have h_subset : (b.unreserved reserved before).map b.name ⊆ others reserved (b.taken requests) := by
    intro x h_x
    obtain ⟨slot, h_slot, rfl⟩ := List.mem_map.mp h_x
    refine List.mem_filter.mpr ⟨h_none slot h_slot, ?_⟩
    simpa using (mem_unreserved.mp h_slot).2
  have h_le := (List.subperm_of_subset h_distinct h_subset).length_le
  rw [List.length_map] at h_le
  have h_most := length_others_le (b := b) h_names
  omega

/-- As many requests without a name as there are unreserved slots in a first part without
    shared slots take all of them. -/
theorem Clean.all_taken (h_slots : b.slots = before ++ after)
    (h_single : ∀ slot ∈ before, b.shared slot = false) (h_names : NamesReserved reserved requests)
    (h : b.Clean reserved requests)
    (h_le : (b.unreserved reserved before).length ≤ requests.count none) :
    ∀ slot ∈ b.unreserved reserved before, b.name slot ∈ b.taken requests := by
  intro slot h_slot
  by_contra h_left
  obtain ⟨h_distinct, h_mem, h_length⟩ :=
    h.others_taken h_slots h_single h_slot h_names h_left
  have h_new : b.name slot ∉ others reserved (b.taken requests) := fun h_in =>
    h_left (List.mem_of_mem_filter h_in)
  have h_subset : b.name slot :: others reserved (b.taken requests)
      ⊆ (b.unreserved reserved before).map b.name :=
    List.cons_subset.mpr ⟨List.mem_map_of_mem h_slot, h_mem⟩
  have h_more := (List.subperm_of_subset (List.nodup_cons.mpr ⟨h_new, h_distinct⟩)
    h_subset).length_le
  rw [List.length_cons, List.length_map] at h_more
  omega

/-! ## When first fit serves a reserved slot -/

/-- After a clean history the next request without a name is served a reserved slot exactly
    where there is no room. -/
theorem servesReserved_iff (h_nodup : (b.slots.map b.name).Nodup)
    (h_names : NamesReserved reserved requests) (h : b.Clean reserved requests) :
    b.ServesReserved reserved requests ↔ ¬ b.Room reserved requests := by
  constructor
  · rintro ⟨slot, h_free, h_reserved⟩ h_room
    obtain ⟨h_test, before, after, h_slots, h_before⟩ := List.find?_eq_some_iff_append.mp h_free
    rw [h_reserved.1, Bool.false_or, decide_eq_true_eq] at h_test
    have h_slot : slot ∈ b.slots := by simp [h_slots]
    rcases h_room before slot after h_slots h_reserved with h_named | h_shared | h_lt
    · exact h_test ((h.mem_taken h_nodup h_slot h_reserved).mpr h_named)
    · obtain ⟨other, h_other, h_shared⟩ := h_shared
      simpa [h_shared] using h_before other h_other
    · obtain ⟨free, h_mem, h_left⟩ := exists_free h_nodup h_slots h_names h_lt
      simpa [h_left] using h_before free (mem_unreserved.mp h_mem).1
  · intro h_room
    unfold Room at h_room
    push Not at h_room
    obtain ⟨before, slot, after, h_slots, h_reserved, h_unnamed, h_single, h_le⟩ := h_room
    have h_single' : ∀ other ∈ before, b.shared other = false := fun other h_other => by
      simpa using h_single other h_other
    have h_all := h.all_taken h_slots h_single' h_names (by omega)
    have h_slot : slot ∈ b.slots := by simp [h_slots]
    have h_left : b.name slot ∉ b.taken requests := fun h_mem =>
      h_unnamed ((h.mem_taken h_nodup h_slot h_reserved).mp h_mem)
    -- the search stops at this slot or at a reserved one before it
    have h_split : b.slots = (before ++ [slot]) ++ after := by simp [h_slots]
    have h_found : (((before ++ [slot]).find? fun slot =>
        b.shared slot || decide (b.name slot ∉ b.taken requests))).isSome :=
      List.find?_isSome.mpr ⟨slot, by simp, by simp [h_left]⟩
    obtain ⟨first, h_first⟩ := Option.isSome_iff_exists.mp h_found
    refine ⟨first, ?_, ?_⟩
    · rw [firstFree, h_split, List.find?_append, h_first]
      rfl
    · have h_test := List.find?_some h_first
      rcases List.mem_append.mp (List.mem_of_find?_eq_some h_first) with h_in | h_in
      · rw [h_single' first h_in, Bool.false_or, decide_eq_true_eq] at h_test
        refine ⟨h_single' first h_in, ?_⟩
        by_contra h_other
        exact h_test (h_all first (mem_unreserved.mpr ⟨h_in, h_other⟩))
      · rw [List.mem_singleton.mp h_in]
        exact h_reserved

theorem clean_iff (h_nodup : (b.slots.map b.name).Nodup)
    (h_names : NamesReserved reserved requests) :
    b.Clean reserved requests ↔
      ∀ before after, requests = before ++ none :: after → b.Room reserved before := by
  constructor
  · intro h before after h_eq
    have h_before : b.Clean reserved before := by
      intro first rest h_first
      refine h first (rest ++ none :: after) ?_
      rw [h_eq, h_first, List.append_assoc, List.cons_append]
    have h_names' : NamesReserved reserved before := fun wanted h_mem =>
      h_names wanted (h_eq ▸ List.mem_append_left _ h_mem)
    exact not_not.mp fun h_room =>
      h before after h_eq ((servesReserved_iff h_nodup h_names' h_before).mpr h_room)
  · intro h before
    -- by induction on the length of what came before
    induction h_len : before.length using Nat.strongRecOn generalizing before with
    | _ n ih =>
      intro after h_eq h_serves
      have h_before : b.Clean reserved before := by
        intro first rest h_first
        refine ih first.length ?_ first rfl (rest ++ none :: after) ?_
        · rw [← h_len, h_first, List.length_append, List.length_cons]
          omega
        · rw [h_eq, h_first, List.append_assoc, List.cons_append]
      have h_names' : NamesReserved reserved before := fun wanted h_mem =>
        h_names wanted (h_eq ▸ List.mem_append_left _ h_mem)
      exact (servesReserved_iff h_nodup h_names' h_before).mp h_serves (h before after h_eq)

end FirstFit
