/-
  VyomQuant.Lib.Related

  Two fallible computations end alike when both return, with related results, or both fail,
  with related errors.  Binding keeps it (`Related.bind`), and a traversal ends alike in any
  order of the list when the errors of its steps are related to one another
  (`Related.mapM_perm`).
-/

import Mathlib.Data.List.Perm.Basic
import VyomQuant.Lib.Fallible

namespace Except

universe u v

variable {ε : Type u} {α β γ δ : Type v}

/-- Both return, or both fail. -/
inductive Related (R : ε → ε → Prop) (S : α → β → Prop) : Except ε α → Except ε β → Prop where
  | ok {a : α} {b : β} (h : S a b) : Related R S (.ok a) (.ok b)
  | error {e e' : ε} (h : R e e') : Related R S (.error e) (.error e')

variable {R : ε → ε → Prop} {S : α → β → Prop} {T : γ → δ → Prop}

theorem Related.bind {x : Except ε α} {y : Except ε β} {f : α → Except ε γ} {g : β → Except ε δ}
    (h : Related R S x y) (h_step : ∀ a b, x = .ok a → y = .ok b → S a b → Related R T (f a) (g b)) :
    Related R T (x >>= f) (y >>= g) := by
  cases h with
  | ok h_ab => exact h_step _ _ rfl rfl h_ab
  | error h_ee' => exact .error h_ee'

theorem Related.refl (h_R : ∀ e, R e e) {S : α → α → Prop} (h_S : ∀ a, S a a) (x : Except ε α) :
    Related R S x x := by
  cases x with
  | error e => exact .error (h_R e)
  | ok a => exact .ok (h_S a)

/-- Related by equality of what `f` keeps of an error, two outcomes are one after `mapError f`. -/
theorem Related.mapError_eq {ε' : Type u} {f : ε → ε'} {x y : Except ε α}
    (h : Related (fun e e' => f e = f e') (· = ·) x y) : x.mapError f = y.mapError f := by
  cases h with
  | ok h_ab => rw [h_ab]
  | error h_ee' => exact congrArg Except.error h_ee'

theorem exists_of_mapM_eq_error {f : α → Except ε β} {l : List α} {e : ε} (h : l.mapM f = .error e) :
    ∃ a ∈ l, f a = .error e := by
  induction l with
  | nil => cases h
  | cons a rest ih =>
    rw [List.mapM_cons] at h
    cases h_a : f a with
    | error e' =>
      rw [h_a] at h
      cases h
      exact ⟨a, List.mem_cons_self, h_a⟩
    | ok b =>
      rw [h_a] at h
      cases h_rest : rest.mapM f with
      | error e' =>
        rw [h_rest] at h
        cases h
        obtain ⟨a', h_a', h_found⟩ := ih h_rest
        exact ⟨a', List.mem_cons_of_mem _ h_a', h_found⟩
      | ok rest' =>
        rw [h_rest] at h
        cases h

theorem mapM_perm_eq_ok {f : α → Except ε β} {l l' : List α} {found : List β}
    (h : l.mapM f = .ok found) (h_perm : l.Perm l') :
    ∃ found', l'.mapM f = .ok found' ∧ found.Perm found' := by
  obtain ⟨found', h_found'⟩ := exists_mapM_eq_ok (f := f) (l := l') fun a h_a =>
    (exists_mem_mapM h (h_perm.mem_iff.mpr h_a)).imp fun _ h_b => h_b.2
  refine ⟨found', h_found', ?_⟩
  have h_unique : Relator.RightUnique fun a b => f a = .ok b :=
    fun a b b' h_b h_b' => Except.ok.inj (h_b.symm.trans h_b')
  exact List.rel_perm_imp h_unique (forall₂_of_mapM_eq_ok h) (forall₂_of_mapM_eq_ok h_found') h_perm

theorem mapM_eq_ok_map {f : α → Except ε β} {g : α → Except ε γ} {p : β → γ} {l : List α}
    {found : List β} (h : l.mapM f = .ok found)
    (h_step : ∀ a b, f a = .ok b → g a = .ok (p b)) : l.mapM g = .ok (found.map p) := by
  have h_pairs := forall₂_of_mapM_eq_ok h
  clear h
  induction h_pairs with
  | nil => rfl
  | cons h_head _ ih =>
    rw [List.mapM_cons, h_step _ _ h_head, ih]
    rfl

theorem Related.mapM_perm {f : α → Except ε β} {l l' : List α}
    (h_errors : ∀ a ∈ l, ∀ a' ∈ l, ∀ e e', f a = .error e → f a' = .error e' → R e e')
    (h : l.Perm l') : Related R List.Perm (l.mapM f) (l'.mapM f) := by
  cases h_l : l.mapM f with
  | error e =>
    obtain ⟨a, h_a, h_found⟩ := exists_of_mapM_eq_error h_l
    cases h_l' : l'.mapM f with
    | error e' =>
      obtain ⟨a', h_a', h_found'⟩ := exists_of_mapM_eq_error h_l'
      exact .error (h_errors a h_a a' (h.mem_iff.mpr h_a') e e' h_found h_found')
    | ok found =>
      obtain ⟨b, _, h_b⟩ := exists_mem_mapM h_l' (h.mem_iff.mp h_a)
      rw [h_found] at h_b
      cases h_b
  | ok found =>
    obtain ⟨found', h_found', h_perm⟩ := mapM_perm_eq_ok h_l h
    rw [h_found']
    exact .ok h_perm

end Except

namespace List.Perm

variable {α β : Type}

/-- So does a traversal in `Option`. -/
theorem mapM_eq_some {f : α → Option β} {l l' : List α} (h : l.Perm l') {found : List β}
    (h_found : l.mapM f = some found) : ∃ found', l'.mapM f = some found' ∧ found.Perm found' := by
  induction h generalizing found with
  | nil => exact ⟨found, h_found, Perm.refl _⟩
  | cons a _ ih =>
    rw [List.mapM_cons] at h_found
    obtain ⟨b, h_b, h_found⟩ := Option.bind_eq_some_iff.mp h_found
    obtain ⟨rest, h_rest, h_found⟩ := Option.bind_eq_some_iff.mp h_found
    obtain ⟨rest', h_rest', h_perm⟩ := ih h_rest
    cases h_found
    exact ⟨b :: rest', by rw [List.mapM_cons, h_b, h_rest']; rfl, h_perm.cons b⟩
  | swap a a' rest =>
    rw [List.mapM_cons, List.mapM_cons] at h_found
    obtain ⟨b, h_b, h_found⟩ := Option.bind_eq_some_iff.mp h_found
    obtain ⟨found', h_found', h_found⟩ := Option.bind_eq_some_iff.mp h_found
    obtain ⟨b', h_b', h_found'⟩ := Option.bind_eq_some_iff.mp h_found'
    obtain ⟨rest', h_rest', h_found'⟩ := Option.bind_eq_some_iff.mp h_found'
    cases h_found'
    cases h_found
    exact ⟨b' :: b :: rest', by rw [List.mapM_cons, List.mapM_cons, h_b, h_b', h_rest']; rfl,
      Perm.swap b' b rest'⟩
  | trans _ _ ih ih' =>
    obtain ⟨found', h_found', h_perm⟩ := ih h_found
    obtain ⟨found'', h_found'', h_perm'⟩ := ih' h_found'
    exact ⟨found'', h_found'', h_perm.trans h_perm'⟩

end List.Perm
