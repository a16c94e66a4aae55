/-
  VyomQuant.Lib.Codec

  What is written and read again.  A value is read back on a condition where its encoding is
  decoded to the value itself, exactly on the condition, and to nothing else.
-/

import VyomQuant.Lib.Fallible

namespace Codec

open Except (bind_eq_ok pure_eq_ok)

variable {α β ε : Type} {encode : α → β} {decode : β → Except ε α} {P : α → Prop}

def ReadsBack (encode : α → β) (decode : β → Except ε α) (a : α) (P : Prop) : Prop :=
  ∀ b, decode (encode a) = .ok b ↔ b = a ∧ P

theorem ReadsBack.list {l : List α} (h : ∀ a ∈ l, ReadsBack encode decode a (P a)) :
    ReadsBack (List.map encode) (List.mapM decode) l (∀ a ∈ l, P a) := by
  induction l with
  | nil =>
    intro l'
    rw [List.map_nil, List.mapM_nil, pure_eq_ok]
    simp [eq_comm]
  | cons a rest ih =>
    obtain ⟨h_head, h_rest⟩ := List.forall_mem_cons.mp h
    intro l'
    simp only [List.map_cons, List.mapM_cons, bind_eq_ok, pure_eq_ok, h_head _, ih h_rest _,
      List.forall_mem_cons]
    constructor
    · rintro ⟨b, ⟨rfl, h_a⟩, rest', ⟨rfl, h_rest⟩, rfl⟩
      exact ⟨rfl, h_a, h_rest⟩
    · rintro ⟨rfl, h_a, h_rest⟩
      exact ⟨a, ⟨rfl, h_a⟩, rest, ⟨rfl, h_rest⟩, rfl⟩

end Codec
