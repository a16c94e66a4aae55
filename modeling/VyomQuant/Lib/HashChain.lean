/-
  VyomQuant.Lib.HashChain

  Chains of rows in which each row carries the hash of the row before it and the digest
  of itself.

  A chain is anchored by its length and the hash of its last row: two chains that agree on
  both are the same chain, where a digest determines the row it is of
  (`LinkedFrom.eq_of_lastHash`).
-/

import Mathlib.Data.List.Basic
import Mathlib.Data.List.Induction

namespace HashChain

variable {ρ δ : Type*} (prev hash : ρ → Option δ) (digest : ρ → δ)

/-- Every row holds the hash of the row before it, and its own digest. -/
def LinkedFrom : Option δ → List ρ → Prop
  | _, [] => True
  | before, row :: rest =>
    prev row = before ∧ hash row = some (digest row) ∧ LinkedFrom (hash row) rest

/-- The hash of the last row, and `before` where there is none. -/
def lastHash (before : Option δ) (rows : List ρ) : Option δ :=
  rows.foldl (fun _ row => hash row) before

variable {prev hash digest} {before : Option δ} {rows rows' : List ρ} {row : ρ}

@[simp] theorem lastHash_nil : lastHash hash before ([] : List ρ) = before := rfl

@[simp] theorem lastHash_cons :
    lastHash hash before (row :: rows) = lastHash hash (hash row) rows := rfl

@[simp] theorem lastHash_snoc : lastHash hash before (rows ++ [row]) = hash row := by
  rw [lastHash, List.foldl_append]
  rfl

theorem lastHash_eq_getLast? (rows : List ρ) :
    lastHash hash none rows = rows.getLast?.bind hash := by
  rcases List.eq_nil_or_concat' rows with rfl | ⟨init, row, rfl⟩
  · rfl
  · rw [lastHash_snoc, List.getLast?_concat]
    rfl

theorem linkedFrom_append :
    LinkedFrom prev hash digest before (rows ++ rows') ↔
      LinkedFrom prev hash digest before rows
        ∧ LinkedFrom prev hash digest (lastHash hash before rows) rows' := by
  induction rows generalizing before with
  | nil => simp [LinkedFrom]
  | cons row rest ih => simp only [List.cons_append, LinkedFrom, lastHash_cons, ih, and_assoc]

theorem linkedFrom_snoc :
    LinkedFrom prev hash digest before (rows ++ [row]) ↔
      LinkedFrom prev hash digest before rows ∧ prev row = lastHash hash before rows
        ∧ hash row = some (digest row) := by
  rw [linkedFrom_append]
  simp [LinkedFrom]

namespace LinkedFrom

theorem prev_eq (h : LinkedFrom prev hash digest none rows) (h_mem : row ∈ rows) :
    prev row = none ∨ ∃ row' ∈ rows, prev row = some (digest row') := by
  obtain ⟨front, back, rfl⟩ := List.append_of_mem h_mem
  obtain ⟨h_front, h_row, _, _⟩ := linkedFrom_append.mp h
  rw [h_row]
  rcases List.eq_nil_or_concat' front with rfl | ⟨init, row', rfl⟩
  · exact .inl rfl
  · have h_hash := (linkedFrom_snoc.mp h_front).2.2
    exact .inr ⟨row', by simp, by rw [lastHash_snoc, h_hash]⟩

theorem isSome_lastHash (h : LinkedFrom prev hash digest none rows) :
    (lastHash hash none rows).isSome = !rows.isEmpty := by
  rcases List.eq_nil_or_concat' rows with rfl | ⟨init, row, rfl⟩
  · rfl
  · rw [lastHash_snoc, (linkedFrom_snoc.mp h).2.2]
    simp

theorem eq_of_lastHash
    (h_determines : ∀ row ∈ rows, ∀ row' ∈ rows', hash row = some (digest row) →
      hash row' = some (digest row') → (prev row).isSome = (prev row').isSome →
      digest row = digest row' → row = row')
    (h : LinkedFrom prev hash digest none rows) (h' : LinkedFrom prev hash digest none rows')
    (h_length : rows.length = rows'.length)
    (h_last : lastHash hash none rows = lastHash hash none rows') : rows = rows' := by
  induction rows using List.reverseRecOn generalizing rows' with
  | nil => exact (List.length_eq_zero_iff.mp h_length.symm).symm
  | append_singleton rows row ih =>
    rcases List.eq_nil_or_concat' rows' with rfl | ⟨init', row', rfl⟩
    · simp at h_length
    · have h_count : rows.length = init'.length := by simpa using h_length
      obtain ⟨h_init, h_prev, h_hash⟩ := linkedFrom_snoc.mp h
      obtain ⟨h_init', h_prev', h_hash'⟩ := linkedFrom_snoc.mp h'
      rw [lastHash_snoc, lastHash_snoc, h_hash, h_hash', Option.some.injEq] at h_last
      -- The rows stand at one place, so both are first rows or neither is.
      have h_place : (prev row).isSome = (prev row').isSome := by
        rw [h_prev, h_prev', h_init.isSome_lastHash, h_init'.isSome_lastHash]
        cases rows <;> cases init' <;> first | rfl | cases h_count
      have h_row : row = row' :=
        h_determines row (by simp) row' (by simp) h_hash h_hash' h_place h_last
      subst h_row
      have h_rows : rows = init' :=
        ih (fun r h_r r' h_r' => h_determines r (List.mem_append_left _ h_r) r'
            (List.mem_append_left _ h_r'))
          h_init h_init' h_count (by rw [← h_prev, h_prev'])
      rw [h_rows]

end LinkedFrom

end HashChain
