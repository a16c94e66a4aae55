/-
  VyomQuant.Lib.Fallible

  Inversion rules for programs in `Except`: what is known when a sequence of
  fallible steps returned.  A program is taken apart with `Except.bind_eq_ok`
  and `refuseIf_eq_ok`, never by unfolding the bind.
-/

import Mathlib.Data.List.Forall2

theorem exists_of_mem_forall₂ {α β : Type*} {r : α → β → Prop} {l : List α} {l' : List β}
    (h : List.Forall₂ r l l') {a : α} (h_a : a ∈ l) : ∃ b ∈ l', r a b := by
  induction h with
  | nil => cases h_a
  | @cons b c _ _ h_bc _ ih =>
    rcases List.mem_cons.mp h_a with rfl | h_a
    · exact ⟨c, List.mem_cons_self, h_bc⟩
    · obtain ⟨d, h_d, h_ad⟩ := ih h_a
      exact ⟨d, List.mem_cons_of_mem _ h_d, h_ad⟩

namespace Except

universe u v

variable {ε : Type u} {α β : Type v}

variable {x : Except ε α} {b : β}

theorem bind_eq_ok {f : α → Except ε β} : (x >>= f) = .ok b ↔ ∃ a, x = .ok a ∧ f a = .ok b := by
  cases x with
  | error e => simp [bind, Except.bind]
  | ok a => simp [bind, Except.bind]

theorem pure_eq_ok {a b : α} : (pure a : Except ε α) = .ok b ↔ a = b := by
  simp [pure, Except.pure]

theorem bind_pure_eq_ok {f : α → β} :
    (x >>= fun a => pure (f a)) = .ok b ↔ ∃ a, x = .ok a ∧ f a = b := by
  simp only [bind_eq_ok, pure_eq_ok]

variable {c : Prop} {e e' : ε}

theorem ite_eq_ok [Decidable c] {a b : α} :
    (if c then .ok a else .error e : Except ε α) = .ok b ↔ c ∧ a = b := by
  split <;> simp [*]

theorem map_eq_ok {f : α → β} : f <$> x = .ok b ↔ ∃ a, x = .ok a ∧ f a = b := by
  cases x with
  | error e => simp [Functor.map, Except.map]
  | ok a => simp [Functor.map, Except.map]

/-- `refuseIf c e` is a guard: it raises `e` when `c` holds. -/
def refuseIf (c : Prop) [Decidable c] (e : ε) : Except ε Unit :=
  if c then .error e else .ok ()

theorem refuseIf_eq_ok [Decidable c] {u : Unit} : refuseIf c e = .ok u ↔ ¬ c := by
  unfold refuseIf
  split
  · simp_all
  · simp_all

theorem refuseIf_eq_error [Decidable c] : refuseIf c e = .error e' ↔ c ∧ e = e' := by
  unfold refuseIf
  split
  · simp_all
  · simp_all

/-- An optional value, with the error to raise when it is absent. -/
def ofOption (e : ε) : Option α → Except ε α
  | some a => .ok a
  | none => .error e

theorem ofOption_eq_ok {o : Option α} {a : α} : ofOption e o = .ok a ↔ o = some a := by
  cases o with
  | none => simp [ofOption]
  | some b => simp [ofOption]

theorem foldlM_invariant {P : β → Prop} {f : β → α → Except ε β} {l : List α}
    (h_step : ∀ a ∈ l, ∀ b b', P b → f b a = .ok b' → P b') {b' : β} (h_b : P b)
    (h : l.foldlM f b = .ok b') : P b' := by
  induction l generalizing b with
  | nil =>
    rw [List.foldlM_nil, pure_eq_ok] at h
    exact h ▸ h_b
  | cons a rest ih =>
    rw [List.foldlM_cons] at h
    obtain ⟨next, h_next, h_rest⟩ := bind_eq_ok.mp h
    have h_P := h_step a List.mem_cons_self b next h_b h_next
    exact ih (fun a' h_a' => h_step a' (List.mem_cons_of_mem _ h_a')) h_P h_rest

theorem forM_eq_ok {α : Type} {f : α → Except ε Unit} {l : List α} {u : Unit} :
    l.forM f = .ok u ↔ ∀ a ∈ l, f a = .ok () := by
  induction l with
  | nil => exact iff_of_true rfl (List.forall_mem_nil _)
  | cons a rest ih =>
    show (f a >>= fun _ => rest.forM f) = .ok u ↔ _
    rw [bind_eq_ok, List.forall_mem_cons, ← ih]
    constructor
    · rintro ⟨_, h_head, h_rest⟩
      exact ⟨h_head, h_rest⟩
    · rintro ⟨h_head, h_rest⟩
      exact ⟨(), h_head, h_rest⟩

/-! ## Errors a step does not raise -/

/-- The computation does not fail with `e`. -/
def Avoids (e : ε) (x : Except ε α) : Prop := x ≠ .error e

theorem Avoids.ok (a : α) : Avoids e (.ok a) := nofun

theorem Avoids.pure (a : α) : Avoids e (Pure.pure a : Except ε α) := nofun

theorem Avoids.error (h : e' ≠ e) : Avoids e (.error e' : Except ε α) :=
  fun h_eq => h (error.inj h_eq)

theorem Avoids.refuseIf [Decidable c] (h : e' ≠ e) : Avoids e (refuseIf c e') :=
  fun h_eq => h (refuseIf_eq_error.mp h_eq).2

theorem Avoids.ofOption (h : e' ≠ e) (o : Option α) : Avoids e (ofOption e' o) := by
  cases o with
  | none => exact Avoids.error h
  | some a => exact Avoids.ok a

theorem Avoids.bind {f : α → Except ε β} (h : Avoids e x) (h_f : ∀ a, x = .ok a → Avoids e (f a)) :
    Avoids e (x >>= f) := by
  cases x with
  | error e' => exact Avoids.error fun h_eq => h (by rw [h_eq])
  | ok a => exact h_f a rfl

theorem Avoids.foldlM {f : β → α → Except ε β} (h : ∀ b a, Avoids e (f b a)) (l : List α) (b : β) :
    Avoids e (l.foldlM f b) := by
  induction l generalizing b with
  | nil => exact Avoids.pure b
  | cons a rest ih =>
    rw [List.foldlM_cons]
    exact Avoids.bind (h b a) fun b' _ => ih b'

theorem bind_eq_error_of_avoids {f : α → Except ε β} (h : Avoids e x) :
    (x >>= f) = .error e ↔ ∃ a, x = .ok a ∧ f a = .error e := by
  cases x with
  | error e' =>
    have h_ne : e' ≠ e := fun h_eq => h (by rw [h_eq])
    simp [Bind.bind, Except.bind, h_ne]
  | ok a => simp [Bind.bind, Except.bind]

/-- A guard is what fails with `e` when nothing after it does. -/
theorem refuseIf_bind_eq_error {γ : Type} [Decidable c] {f : Unit → Except ε γ}
    (h : Avoids e (f ())) : (refuseIf c e >>= f) = .error e ↔ c := by
  by_cases h_c : c
  · simp [Except.refuseIf, Bind.bind, Except.bind, h_c]
  · have h_f : f () ≠ .error e := h
    simp [Except.refuseIf, Bind.bind, Except.bind, h_c, h_f]

theorem forall₂_of_mapM_eq_ok {f : α → Except ε β} :
    ∀ {l : List α} {l' : List β}, l.mapM f = .ok l' →
      List.Forall₂ (fun a b => f a = .ok b) l l'
  | [], l', h => by
      rw [List.mapM_nil, pure_eq_ok] at h
      subst h
      exact .nil
  | a :: rest, l', h => by
      rw [List.mapM_cons] at h
      obtain ⟨b, h_b, h⟩ := bind_eq_ok.mp h
      obtain ⟨rest', h_rest, h⟩ := bind_eq_ok.mp h
      rw [pure_eq_ok] at h
      subst h
      exact .cons h_b (forall₂_of_mapM_eq_ok h_rest)

theorem exists_mapM_eq_ok {f : α → Except ε β} {l : List α} (h : ∀ a ∈ l, ∃ b, f a = .ok b) :
    ∃ l', l.mapM f = .ok l' := by
  induction l with
  | nil => exact ⟨[], rfl⟩
  | cons a rest ih =>
    obtain ⟨b, h_b⟩ := h a List.mem_cons_self
    obtain ⟨rest', h_rest⟩ := ih fun a' h_a' => h a' (List.mem_cons_of_mem _ h_a')
    exact ⟨b :: rest', by rw [List.mapM_cons, h_b, h_rest]; rfl⟩

theorem exists_of_mem_mapM {f : α → Except ε β} {l : List α} {l' : List β} (h : l.mapM f = .ok l')
    (h_b : b ∈ l') : ∃ a ∈ l, f a = .ok b :=
  exists_of_mem_forall₂ (forall₂_of_mapM_eq_ok h).flip h_b

theorem exists_mem_mapM {f : α → Except ε β} {l : List α} {l' : List β} (h : l.mapM f = .ok l')
    {a : α} (h_a : a ∈ l) : ∃ b ∈ l', f a = .ok b := by
  have h_pairs := forall₂_of_mapM_eq_ok h
  clear h
  induction h_pairs with
  | nil => cases h_a
  | cons h_head _ ih =>
    rcases List.mem_cons.mp h_a with rfl | h_a
    · exact ⟨_, List.mem_cons_self, h_head⟩
    · obtain ⟨b, h_b, h_ok⟩ := ih h_a
      exact ⟨b, List.mem_cons_of_mem _ h_b, h_ok⟩

/-- A traversal returns where each of its steps has a step of one that returned to go by, and
    finds nothing else if its steps do not. -/
theorem mapM_flatten_subset {α' γ : Type v} {f : α → Except ε (List γ)}
    {f' : α' → Except ε (List γ)} {l : List α} {l' : List α'} {found : List (List γ)}
    (h : l.mapM f = .ok found)
    (h_each : ∀ a' ∈ l', ∃ a ∈ l, ∀ b, f a = .ok b → ∃ b', f' a' = .ok b' ∧ b' ⊆ b) :
    ∃ found', l'.mapM f' = .ok found' ∧ found'.flatten ⊆ found.flatten := by
  have h_step : ∀ a' ∈ l', ∃ b', f' a' = .ok b' ∧ b' ⊆ found.flatten := by
    intro a' h_a'
    obtain ⟨a, h_a, h_next⟩ := h_each a' h_a'
    obtain ⟨b, h_b, h_ok⟩ := exists_mem_mapM h h_a
    obtain ⟨b', h_ok', h_subset⟩ := h_next b h_ok
    exact ⟨b', h_ok', fun c h_c => List.mem_flatten.mpr ⟨b, h_b, h_subset h_c⟩⟩
  obtain ⟨found', h_found'⟩ := exists_mapM_eq_ok fun a' h_a' =>
    (h_step a' h_a').imp fun _ h_b' => h_b'.1
  refine ⟨found', h_found', fun c h_c => ?_⟩
  obtain ⟨b', h_b', h_c⟩ := List.mem_flatten.mp h_c
  obtain ⟨a', h_a', h_ok⟩ := exists_of_mem_mapM h_found' h_b'
  obtain ⟨b'', h_ok'', h_subset⟩ := h_step a' h_a'
  have h_same : b' = b'' := Except.ok.inj (h_ok.symm.trans h_ok'')
  exact h_subset (h_same ▸ h_c)

end Except
