/-
  VyomQuant.StrategyDag.FeatureMatrix

  `feature_matrix`: blocks of feature columns over timestamps, their join and their
  wire form.

  The join looks every row up by its timestamp, so each column keeps its values and
  a row of the join is warmup exactly when it is before the first trustworthy row of
  some input (`Joins`).  A name that an earlier input uses gets a suffix, and the index
  has the dtype of the first input; nothing else depends on the order of the inputs
  (`SameColumns`).
-/

import Mathlib
import VyomQuant.Lib.Ascending

namespace VyomQuant.StrategyDag.Features

open Ascending

/-! ## The contract -/

/-- The subclasses of `FeatureMatrixError`. -/
inductive FeatureError where
  | shape
  | index
  | column
  | alignment

/-- The unit of a `datetime64`. -/
inductive TimeUnit where
  | day
  | hour
  | minute
  | second
  | millisecond
  | microsecond
  | nanosecond

inductive IndexDtype where
  | integer
  | datetime64 (unit : TimeUnit)

/-- An index, by its dtype and its `_int_view`. -/
structure Index where
  dtype : IndexDtype
  stamps : List ℤ

/-- `np.all(np.diff(..) > 0)`, the differences being those of 64 bits. -/
def Increasing (stamps : List ℤ) : Prop := stamps.IsChain fun a b => 0 < (b - a).bmod (2 ^ 64)

instance (stamps : List ℤ) : Decidable (Increasing stamps) :=
  inferInstanceAs (Decidable (List.IsChain _ _))

/-- `FeatureMatrix`; the values by row. -/
structure FeatureMatrix (α : Type) where
  dtype : IndexDtype
  stamps : List ℤ
  columns : List String
  rows : List (List α)
  columnWarmup : List (String × ℕ)
  provenance : List (String × String)
  increasing : Increasing stamps
  height : rows.length = stamps.length
  width : ∀ row ∈ rows, row.length = columns.length
  unique : columns.Nodup
  annotated : columnWarmup.map Prod.fst = columns
  bounded : ∀ entry ∈ columnWarmup, entry.2 ≤ rows.length
  known : ∀ entry ∈ provenance, entry.1 ∈ columns

variable {α : Type}

namespace FeatureMatrix

def nRows (m : FeatureMatrix α) : ℕ := m.rows.length

/-- `warmup_offset`: the worst warmup of a column. -/
def warmupOffset (m : FeatureMatrix α) : ℕ := (m.columnWarmup.map Prod.snd).foldr max 0

end FeatureMatrix

/-- What an index is built from; an array of objects holds no timestamps. -/
inductive IndexInput where
  | timestamps (index : Index)
  | objects (size : ℕ)

/-- `_as_index`. -/
def asIndex : IndexInput → Except FeatureError Index
  | .timestamps index => .ok index
  | .objects 0 => .ok ⟨.integer, []⟩
  | .objects (_ + 1) => .error .index

/-- The warmup of a column: the given one or the floor, within the rows. -/
def resolvedWarmup (nRows : ℕ) (warmupOffset : ℤ) (columnWarmup : List (String × ℤ))
    (name : String) : ℕ :=
  min ((columnWarmup.lookup name).getD warmupOffset).toNat nRows

/-- The constructor, with `__post_init__`. -/
def make (index : IndexInput) (columns : List String) (rows : List (List α)) (warmupOffset : ℤ)
    (columnWarmup : List (String × ℤ)) (provenance : List (String × String)) :
    Except FeatureError (FeatureMatrix α) :=
  match asIndex index with
  | .error e => .error e
  | .ok index =>
    if h_shape : rows.length = index.stamps.length ∧ ∀ row ∈ rows, row.length = columns.length then
      if h_unique : columns.Nodup then
        if h_increasing : Increasing index.stamps then
          if h_known : (∀ entry ∈ columnWarmup, entry.1 ∈ columns) ∧
              ∀ entry ∈ provenance, entry.1 ∈ columns then
            .ok {
              dtype := index.dtype
              stamps := index.stamps
              columns
              rows
              columnWarmup := columns.map fun name =>
                (name, resolvedWarmup rows.length warmupOffset columnWarmup name)
              provenance
              increasing := h_increasing
              height := h_shape.1
              width := h_shape.2
              unique := h_unique
              annotated := by rw [List.map_map]; exact List.map_id _
              bounded := by
                intro entry h_entry
                obtain ⟨name, -, rfl⟩ := List.mem_map.mp h_entry
                exact Nat.min_le_right _ _
              known := h_known.2 }
          else .error .column
        else .error .index
      else .error .column
    else .error .shape

/-! ## The wire form -/

/-- What `index.tolist()` gives: numbers, or the objects of `datetime` by their view. -/
inductive WireIndex where
  | numbers (stamps : List ℤ)
  | datetimes (stamps : List ℤ)

structure Wire (α : Type) where
  index : WireIndex
  columns : List String
  values : List (List α)
  warmupOffset : ℤ
  columnWarmup : List (String × ℤ)
  provenance : List (String × String)

/-- `tolist`: nanoseconds do not fit in a `datetime`, and are given as numbers. -/
def Index.tolist (index : Index) : WireIndex :=
  match index.dtype with
  | .integer => .numbers index.stamps
  | .datetime64 .nanosecond => .numbers index.stamps
  | .datetime64 _ => .datetimes index.stamps

/-- `np.asarray` of a list. -/
def WireIndex.asarray : WireIndex → IndexInput
  | .numbers stamps => .timestamps ⟨.integer, stamps⟩
  | .datetimes stamps => .objects stamps.length

def FeatureMatrix.toDict (m : FeatureMatrix α) : Wire α where
  index := Index.tolist ⟨m.dtype, m.stamps⟩
  columns := m.columns
  values := m.rows
  warmupOffset := m.warmupOffset
  columnWarmup := m.columnWarmup.map fun entry => (entry.1, (entry.2 : ℤ))
  provenance := m.provenance

/-- `from_dict`; no rows are a block of none. -/
def fromDict (data : Wire α) : Except FeatureError (FeatureMatrix α) :=
  make data.index.asarray data.columns data.values data.warmupOffset data.columnWarmup
    data.provenance

/-! ## The join -/

/-- `_positions_of`. -/
def positionsOf (haystack needles : List ℤ) : Except FeatureError (List ℕ) :=
  needles.mapM fun t =>
    if haystack[search haystack t]? = some t then .ok (search haystack t)
    else .error .alignment

/-- `_translate_warmup`. -/
def translateWarmup (m : FeatureMatrix α) (column : String) (target : List ℤ) : ℕ :=
  let sourceWarmup := (m.columnWarmup.lookup column).getD m.warmupOffset
  match m.stamps[sourceWarmup]? with
  | none => target.length
  | some firstReal => search target firstReal

/-- `_merged_index`: the surviving timestamps, read back out of the first index. -/
def mergedIndex (first : FeatureMatrix α) (others : List (FeatureMatrix α)) :
    Except FeatureError Index :=
  let surviving := interAll first.stamps (others.map FeatureMatrix.stamps)
  if surviving = [] then .error .alignment
  else
    match surviving.mapM fun t => first.stamps[search first.stamps t]? with
    | none => .error .index
    | some stamps => .ok ⟨first.dtype, stamps⟩

def suffixed (name : String) (suffix : ℕ) : String := name ++ "_" ++ toString suffix

/-- The first suffix from `suffix` on that is free, among `attempts`. -/
def freeSuffix (name : String) (taken : List String) : ℕ → ℕ → ℕ
  | 0, suffix => suffix
  | attempts + 1, suffix =>
    if suffixed name suffix ∈ taken then freeSuffix name taken attempts (suffix + 1) else suffix

/-- `_unique_name`; as many suffixes as there are names, and one, cannot all be taken. -/
def uniqueName (name : String) (taken : List String) : String :=
  if name ∈ taken then suffixed name (freeSuffix name taken taken.length 2) else name

/-- A column of the join under way: its name there, its values, its warmup and its source. -/
structure Joined (α : Type) where
  name : String
  series : List α
  warmup : ℕ
  provenance : Option String

/-- The round of the inner loop for one column. -/
def joinColumn (m : FeatureMatrix α) (merged : List ℤ) (positions : List ℕ)
    (acc : List (Joined α)) (column : String × ℕ) : List (Joined α) :=
  acc ++ [{
    name := uniqueName column.1 (acc.map Joined.name)
    series := positions.filterMap fun r => (m.rows[r]?).bind fun row => row[column.2]?
    warmup := translateWarmup m column.1 merged
    provenance := (m.provenance.lookup column.1).filter fun source => source ≠ "" }]

/-- The round of the outer loop for one matrix. -/
def joinMatrix (merged : List ℤ) (acc : List (Joined α)) (m : FeatureMatrix α) :
    Except FeatureError (List (Joined α)) :=
  match positionsOf m.stamps merged with
  | .error e => .error e
  | .ok positions => .ok (m.columns.zipIdx.foldl (joinColumn m merged positions) acc)

/-- `np.column_stack`, of no series too. -/
def columnStack (size : ℕ) (series : List (List α)) : List (List α) :=
  series.foldr (fun column rows => List.zipWith (fun x row => x :: row) column rows)
    (List.replicate size [])

/-- `concat_matrices`. -/
def concatMatrices : List (FeatureMatrix α) → Except FeatureError (FeatureMatrix α)
  | first :: second :: others =>
    match mergedIndex first (second :: others) with
    | .error e => .error e
    | .ok merged =>
      match (first :: second :: others).foldlM (joinMatrix merged.stamps) [] with
      | .error e => .error e
      | .ok joined =>
        make (.timestamps merged) (joined.map Joined.name)
          (columnStack merged.stamps.length (joined.map Joined.series)) 0
          (joined.map fun column => (column.name, (column.warmup : ℤ)))
          (joined.filterMap fun column => column.provenance.map fun source => (column.name, source))
  | _ => .error .alignment

/-! ## Names -/

variable {name : String} {i size : ℕ}

theorem suffixed_injective {j : ℕ} (h : suffixed name i = suffixed name j) : i = j := by
  unfold suffixed at h
  have h_digits : toString i = toString j := by
    apply String.toList_inj.mp
    have h_list := congrArg String.toList h
    rw [String.toList_append, String.toList_append (t := toString j)] at h_list
    exact List.append_cancel_left h_list
  exact Nat.repr_injective h_digits

theorem freeSuffix_spec (name : String) (taken : List String) (attempts suffix : ℕ) :
    suffixed name (freeSuffix name taken attempts suffix) ∉ taken ∨
      ∀ i < attempts, suffixed name (suffix + i) ∈ taken := by
  induction attempts generalizing suffix with
  | zero => exact Or.inr (by simp)
  | succ attempts ih =>
    rw [freeSuffix]
    by_cases h : suffixed name suffix ∈ taken
    · rw [if_pos h]
      rcases ih (suffix + 1) with h_free | h_taken
      · exact Or.inl h_free
      · refine Or.inr fun i h_i => ?_
        cases i with
        | zero => exact h
        | succ i =>
          have h_next := h_taken i (by omega)
          rwa [show suffix + 1 + i = suffix + (i + 1) by omega] at h_next
    · rw [if_neg h]
      exact Or.inl h

theorem uniqueName_of_notMem {taken : List String} (h : name ∉ taken) :
    uniqueName name taken = name := if_neg h

theorem freeSuffix_of_all_taken {taken : List String} {attempts suffix : ℕ}
    (h : ∀ i < attempts, suffixed name (suffix + i) ∈ taken) :
    freeSuffix name taken attempts suffix = suffix + attempts := by
  induction attempts generalizing suffix with
  | zero => rfl
  | succ attempts ih =>
    have h_here : suffixed name suffix ∈ taken := h 0 (by omega)
    rw [freeSuffix, if_pos h_here, ih]
    · omega
    · intro i h_i
      have h_next := h (i + 1) (by omega)
      rwa [show suffix + (i + 1) = suffix + 1 + i by omega] at h_next

/-- A name that was taken gets a free suffix: one more suffixes than there are names cannot
    all be taken. -/
theorem uniqueName_notMem (name : String) (taken : List String) : uniqueName name taken ∉ taken := by
  unfold uniqueName
  split
  · rename_i h_name
    rcases freeSuffix_spec name taken taken.length 2 with h_free | h_taken
    · exact h_free
    · rw [freeSuffix_of_all_taken h_taken]
      intro h_last
      -- the name itself is none of the suffixed ones, so they would be too many
      have h_nodup : ((List.range (taken.length + 1)).map fun i => suffixed name (2 + i)).Nodup := by
        refine List.Nodup.map (fun i j h_eq => ?_) List.nodup_range
        have h_suffix := suffixed_injective h_eq
        omega
      have h_subset : ((List.range (taken.length + 1)).map fun i => suffixed name (2 + i)) ⊆ taken := by
        intro text h_text
        obtain ⟨i, h_i, rfl⟩ := List.mem_map.mp h_text
        rw [List.mem_range] at h_i
        rcases Nat.lt_or_eq_of_le (Nat.lt_succ_iff.mp h_i) with h_lt | rfl
        · exact h_taken i h_lt
        · exact h_last
      have h_length := (List.subperm_of_subset h_nodup h_subset).length_le
      rw [List.length_map, List.length_range] at h_length
      omega
  · assumption

/-! ## Stacked columns -/

variable {series : List (List α)}

theorem length_columnStack (h : ∀ column ∈ series, column.length = size) :
    (columnStack size series).length = size := by
  induction series with
  | nil => simp [columnStack]
  | cons column series ih =>
    rw [List.forall_mem_cons] at h
    show (List.zipWith _ column (columnStack size series)).length = size
    rw [List.length_zipWith, h.1, ih h.2, Nat.min_self]

theorem getElem?_columnStack (h : ∀ column ∈ series, column.length = size) (i k : ℕ) :
    ((columnStack size series)[i]?).bind (fun row => row[k]?)
      = (series[k]?).bind fun column => column[i]? := by
  induction series generalizing k with
  | nil =>
    have h_empty : ∀ row ∈ (List.replicate size ([] : List α))[i]?, row[k]? = none := by
      intro row h_row
      rw [List.eq_of_mem_replicate (List.mem_of_getElem? h_row)]
      exact List.getElem?_nil
    rw [List.getElem?_nil]
    exact Option.bind_eq_none_iff.mpr h_empty
  | cons column series ih =>
    rw [List.forall_mem_cons] at h
    have h_rows := length_columnStack h.2
    show ((List.zipWith (fun x row => x :: row) column (columnStack size series))[i]?).bind _ = _
    rw [List.getElem?_zipWith]
    by_cases h_i : i < size
    · rw [List.getElem?_eq_getElem (by rw [h.1]; exact h_i),
        List.getElem?_eq_getElem (by rw [h_rows]; exact h_i)]
      cases k with
      | zero => simp [h.1, h_i]
      | succ k =>
        have h_next := ih h.2 k
        rw [List.getElem?_eq_getElem (by rw [h_rows]; exact h_i)] at h_next
        simpa using h_next
    · have h_column : column[i]? = none := List.getElem?_eq_none (by omega)
      rw [h_column]
      cases k with
      | zero => simp [h_column]
      | succ k =>
        rw [List.getElem?_cons_succ, ← ih h.2 k, List.getElem?_eq_none (by omega)]
        rfl

theorem width_columnStack : ∀ row ∈ columnStack size series, row.length = series.length := by
  induction series with
  | nil =>
    intro row h_row
    rw [List.eq_of_mem_replicate h_row]
    rfl
  | cons column series ih =>
    intro row h_row
    obtain ⟨i, h_i⟩ := List.mem_iff_getElem?.mp h_row
    change (List.zipWith (fun x row => x :: row) column (columnStack size series))[i]? = _ at h_i
    rw [List.getElem?_zipWith] at h_i
    cases h_x : column[i]? with
    | none => simp [h_x] at h_i
    | some x =>
      cases h_rest : (columnStack size series)[i]? with
      | none => simp [h_x, h_rest] at h_i
      | some rest =>
        simp only [h_x, h_rest, Option.some.injEq] at h_i
        rw [← h_i, List.length_cons, List.length_cons, ih rest (List.mem_of_getElem? h_rest)]

/-! ## Ascending timestamps -/

/-- No two timestamps in a row are so far apart that their difference overflows. -/
def Spaced (stamps : List ℤ) : Prop :=
  stamps.IsChain fun a b => -(2 ^ 63) ≤ b - a ∧ b - a < 2 ^ 63

instance (stamps : List ℤ) : Decidable (Spaced stamps) :=
  inferInstanceAs (Decidable (List.IsChain _ _))

theorem bmod_of_spaced {d : ℤ} (h : -(2 ^ 63) ≤ d ∧ d < 2 ^ 63) : d.bmod (2 ^ 64) = d := by
  apply Int.bmod_eq_of_le
  · omega
  · omega

theorem ascending_of_spaced {stamps : List ℤ} (h : Increasing stamps) (h_spaced : Spaced stamps) :
    stamps.Pairwise (· < ·) := by
  apply List.isChain_iff_pairwise.mp
  induction stamps with
  | nil => exact .nil
  | cons a stamps ih =>
    cases stamps with
    | nil => exact .singleton a
    | cons b stamps =>
      rw [Increasing, List.isChain_cons_cons] at h
      rw [Spaced, List.isChain_cons_cons] at h_spaced
      rw [List.isChain_cons_cons]
      have h_diff := h.1
      rw [bmod_of_spaced h_spaced.1] at h_diff
      exact ⟨by omega, ih h.2 h_spaced.2⟩

/-! ## Looking up by timestamp -/

namespace FeatureMatrix

def row (m : FeatureMatrix α) (t : ℤ) : Option (List α) := (m.stamps.zip m.rows).lookup t

/-- The value of a column at a timestamp. -/
def cell (m : FeatureMatrix α) (t : ℤ) (c : ℕ) : Option α := (m.row t).bind fun row => row[c]?

end FeatureMatrix

variable {t : ℤ}

theorem lookup_zip {keys : List ℤ} {rows : List (List α)} (h_nodup : keys.Nodup)
    (h : keys[i]? = some t) : (keys.zip rows).lookup t = rows[i]? := by
  induction keys generalizing rows i with
  | nil => simp at h
  | cons key keys ih =>
    rw [List.nodup_cons] at h_nodup
    cases rows with
    | nil => simp
    | cons row rows =>
      cases i with
      | zero =>
        rw [List.getElem?_cons_zero, Option.some.injEq] at h
        subst h
        simp
      | succ i =>
        rw [List.getElem?_cons_succ] at h
        have h_ne : (t == key) = false := by
          rw [beq_eq_false_iff_ne]
          rintro rfl
          exact h_nodup.1 (List.mem_of_getElem? h)
        rw [List.zip_cons_cons, List.lookup_cons, h_ne, List.getElem?_cons_succ]
        exact ih h_nodup.2 h

variable {m R : FeatureMatrix α}

theorem row_of_getElem? (h : m.stamps.Pairwise (· < ·)) (h_i : m.stamps[i]? = some t) :
    m.row t = m.rows[i]? :=
  lookup_zip (h.imp fun h_lt => h_lt.ne) h_i

theorem isSome_cell (h : m.stamps.Pairwise (· < ·)) (h_t : t ∈ m.stamps) {c : ℕ}
    (h_c : c < m.columns.length) : (m.cell t c).isSome := by
  obtain ⟨i, h_i⟩ := List.mem_iff_getElem?.mp h_t
  obtain ⟨h_lt, -⟩ := List.getElem?_eq_some_iff.mp h_i
  have h_lt' : i < m.rows.length := by rw [m.height]; exact h_lt
  have h_row : m.rows[i]? = some m.rows[i] := List.getElem?_eq_getElem h_lt'
  have h_width := m.width _ (List.mem_of_getElem? h_row)
  rw [FeatureMatrix.cell, row_of_getElem? h h_i, h_row, Option.bind_some,
    List.getElem?_eq_getElem (by rw [h_width]; exact h_c)]
  rfl

theorem positionsOf_of_subset {haystack needles : List ℤ} (h : haystack.Pairwise (· < ·))
    (h_subset : ∀ t ∈ needles, t ∈ haystack) :
    positionsOf haystack needles = .ok (needles.map (search haystack)) := by
  unfold positionsOf
  induction needles with
  | nil => rfl
  | cons t needles ih =>
    rw [List.forall_mem_cons] at h_subset
    rw [List.mapM_cons, if_pos (getElem?_search h h_subset.1), ih h_subset.2]
    rfl

variable {merged : List ℤ}

theorem filterMap_positions (h : m.stamps.Pairwise (· < ·)) (h_subset : ∀ t ∈ merged, t ∈ m.stamps)
    (c : ℕ) :
    (merged.map (search m.stamps)).filterMap (fun r => (m.rows[r]?).bind fun row => row[c]?)
      = merged.filterMap fun t => m.cell t c := by
  rw [List.filterMap_map]
  apply List.filterMap_congr
  intro t h_t
  show (m.rows[search m.stamps t]?).bind _ = (m.row t).bind _
  rw [row_of_getElem? h (getElem?_search h (h_subset t h_t))]

/-! ## The columns of the join -/

/-- What a column brings to the join, its name apart. -/
abbrev Brought (α : Type) := List α × ℕ × Option String

def Joined.brought (column : Joined α) : Brought α :=
  (column.series, column.warmup, column.provenance)

/-- What the columns of a matrix bring to a join on timestamps. -/
def brings (merged : List ℤ) (m : FeatureMatrix α) : List (String × Brought α) :=
  m.columns.zipIdx.map fun column =>
    (column.1, merged.filterMap (fun t => m.cell t column.2), translateWarmup m column.1 merged,
      (m.provenance.lookup column.1).filter fun source => source ≠ "")

/-- The columns joined so far: under names of their own, those that the matrices bring. -/
structure Joining (brought : List (String × Brought α)) (joined : List (Joined α)) : Prop where
  unique : (joined.map Joined.name).Nodup
  contents : joined.map Joined.brought = brought.map Prod.snd
  named : (brought.map Prod.fst).Nodup → joined.map Joined.name = brought.map Prod.fst

variable {brought : List (String × Brought α)} {joined : List (Joined α)}

theorem Joining.named_contents (h : Joining brought joined)
    (h_names : (brought.map Prod.fst).Nodup) :
    joined.map (fun column => (column.name, column.brought)) = brought := by
  have h_zip : (joined.map Joined.name).zip (joined.map Joined.brought)
      = (brought.map Prod.fst).zip (brought.map Prod.snd) := by
    rw [h.named h_names, h.contents]
  rw [List.zip_map', List.zip_map'] at h_zip
  simpa using h_zip

theorem Joining.joinColumn (h : Joining brought joined) (h_m : m.stamps.Pairwise (· < ·))
    (h_subset : ∀ t ∈ merged, t ∈ m.stamps) (column : String × ℕ) :
    Joining (brought ++ [(column.1, merged.filterMap (fun t => m.cell t column.2),
        translateWarmup m column.1 merged,
        (m.provenance.lookup column.1).filter fun source => source ≠ "")])
      (Features.joinColumn m merged (merged.map (search m.stamps)) joined column) := by
  unfold Features.joinColumn
  rw [filterMap_positions h_m h_subset]
  constructor
  · rw [List.map_append, List.nodup_append]
    refine ⟨h.unique, by simp, ?_⟩
    intro a h_a b h_b h_eq
    rw [List.map_singleton, List.mem_singleton] at h_b
    rw [h_eq, h_b] at h_a
    exact uniqueName_notMem _ _ h_a
  · rw [List.map_append, List.map_append, h.contents]
    rfl
  · intro h_nodup
    rw [List.map_append, List.nodup_append] at h_nodup
    have h_names := h.named h_nodup.1
    have h_new : column.1 ∉ brought.map Prod.fst := fun h_old =>
      h_nodup.2.2 _ h_old _ (by simp) rfl
    rw [List.map_append, List.map_append, h_names]
    show brought.map Prod.fst ++ [uniqueName column.1 (brought.map Prod.fst)] = _
    rw [uniqueName_of_notMem h_new]
    rfl

theorem Joining.joinColumns (h : Joining brought joined) (h_m : m.stamps.Pairwise (· < ·))
    (h_subset : ∀ t ∈ merged, t ∈ m.stamps) (columns : List (String × ℕ)) :
    Joining (brought ++ columns.map fun column =>
        (column.1, merged.filterMap (fun t => m.cell t column.2), translateWarmup m column.1 merged,
          (m.provenance.lookup column.1).filter fun source => source ≠ ""))
      (columns.foldl (Features.joinColumn m merged (merged.map (search m.stamps))) joined) := by
  induction columns generalizing brought joined with
  | nil =>
    rw [List.map_nil, List.append_nil]
    exact h
  | cons column columns ih =>
    have h_next := ih (h.joinColumn h_m h_subset column)
    rw [List.append_assoc] at h_next
    exact h_next

theorem exists_joining (h : Joining brought joined) {ms : List (FeatureMatrix α)}
    (h_ms : ∀ m ∈ ms, m.stamps.Pairwise (· < ·)) (h_subset : ∀ m ∈ ms, ∀ t ∈ merged, t ∈ m.stamps) :
    ∃ joined', ms.foldlM (joinMatrix merged) joined = .ok joined' ∧
      Joining (brought ++ ms.flatMap (brings merged)) joined' := by
  induction ms generalizing brought joined with
  | nil => exact ⟨joined, rfl, by simpa using h⟩
  | cons m ms ih =>
    rw [List.forall_mem_cons] at h_ms h_subset
    obtain ⟨joined', h_fold, h_joining⟩ :=
      ih (h.joinColumns h_ms.1 h_subset.1 m.columns.zipIdx) h_ms.2 h_subset.2
    refine ⟨joined', ?_, ?_⟩
    · rw [List.foldlM_cons, joinMatrix, positionsOf_of_subset h_ms.1 h_subset.1]
      exact h_fold
    · rw [List.append_assoc] at h_joining
      exact h_joining

/-! ## The result -/

/-- The columns of a matrix: their names, values, warmups and sources. -/
def FeatureMatrix.block (m : FeatureMatrix α) : List (String × Brought α) :=
  m.columns.zipIdx.map fun column =>
    (column.1, m.rows.filterMap (fun row => row[column.2]?),
      (m.columnWarmup.lookup column.1).getD m.warmupOffset, m.provenance.lookup column.1)

theorem lookup_filterMap_of_nodup {β γ : Type} {l : List β} {name : β → String} {f : β → Option γ}
    (h : (l.map name).Nodup) {b : β} (h_b : b ∈ l) :
    (l.filterMap fun x => (f x).map fun y => (name x, y)).lookup (name b) = f b := by
  induction l with
  | nil => cases h_b
  | cons x l ih =>
    rw [List.map_cons, List.nodup_cons] at h
    rcases List.mem_cons.mp h_b with rfl | h_b
    · cases h_f : f b with
      | none =>
        rw [List.filterMap_cons_none (by rw [h_f]; rfl)]
        refine List.lookup_eq_none_iff.mpr fun entry h_entry => ?_
        obtain ⟨other, h_other, h_some⟩ := List.mem_filterMap.mp h_entry
        obtain ⟨y, -, rfl⟩ := Option.map_eq_some_iff.mp h_some
        exact bne_iff_ne.mpr fun h_eq => h.1 (h_eq ▸ List.mem_map_of_mem h_other)
      | some y => rw [List.filterMap_cons_some (by rw [h_f]; rfl), List.lookup_cons_self]
    · have h_ne : (name b == name x) = false := by
        rw [beq_eq_false_iff_ne]
        intro h_eq
        exact h.1 (h_eq ▸ List.mem_map_of_mem h_b)
      cases h_f : f x with
      | none => rw [List.filterMap_cons_none (by rw [h_f]; rfl), ih h.2 h_b]
      | some y =>
        rw [List.filterMap_cons_some (by rw [h_f]; rfl), List.lookup_cons, h_ne]
        exact ih h.2 h_b

theorem lookup_map_of_nodup {β γ : Type} {l : List β} {name : β → String} (f : β → γ)
    (h : (l.map name).Nodup) {b : β} (h_b : b ∈ l) :
    (l.map fun x => (name x, f x)).lookup (name b) = some (f b) := by
  rw [← List.filterMap_eq_map]
  exact lookup_filterMap_of_nodup (f := fun x => some (f x)) h h_b

theorem filterMap_columnStack (h : ∀ column ∈ series, column.length = size) {k : ℕ}
    {column : List α} (h_k : series[k]? = some column) :
    (columnStack size series).filterMap (fun row => row[k]?) = column := by
  have h_cells : (columnStack size series).map (fun row => row[k]?) = column.map some := by
    apply List.ext_getElem?
    intro i
    have h_cell := getElem?_columnStack h i k
    rw [h_k, Option.bind_some] at h_cell
    rw [List.getElem?_map, List.getElem?_map, ← h_cell]
    by_cases h_i : i < size
    · have h_row : i < (columnStack size series).length := by rw [length_columnStack h]; exact h_i
      have h_column : i < column.length := by
        rw [h column (List.mem_of_getElem? h_k)]
        exact h_i
      rw [List.getElem?_eq_getElem h_row, Option.bind_some] at h_cell ⊢
      rw [List.getElem?_eq_getElem h_column] at h_cell
      simp [h_cell]
    · rw [List.getElem?_eq_none (by rw [length_columnStack h]; omega)]
      rfl
  calc (columnStack size series).filterMap (fun row => row[k]?)
      = ((columnStack size series).map fun row => row[k]?).filterMap id := by
        rw [List.filterMap_map]
        rfl
    _ = (column.map some).filterMap id := by rw [h_cells]
    _ = column := by simp

theorem exists_make {merged : Index} (h : Joining brought joined)
    (h_length : ∀ column ∈ joined, column.series.length = merged.stamps.length)
    (h_warmup : ∀ column ∈ joined, column.warmup ≤ merged.stamps.length)
    (h_increasing : Increasing merged.stamps) :
    ∃ m : FeatureMatrix α,
      make (.timestamps merged) (joined.map Joined.name)
          (columnStack merged.stamps.length (joined.map Joined.series)) 0
          (joined.map fun column => (column.name, (column.warmup : ℤ)))
          (joined.filterMap fun column => column.provenance.map fun source => (column.name, source))
        = .ok m ∧
      m.dtype = merged.dtype ∧ m.stamps = merged.stamps ∧ m.columns = joined.map Joined.name ∧
      m.rows = columnStack merged.stamps.length (joined.map Joined.series) ∧
      m.columnWarmup = joined.map (fun column => (column.name, column.warmup)) ∧
      m.provenance = joined.filterMap fun column =>
        column.provenance.map fun source => (column.name, source) := by
  have h_series : ∀ column ∈ joined.map Joined.series, column.length = merged.stamps.length := by
    simpa using h_length
  have h_rows := length_columnStack h_series
  have h_shape : (columnStack merged.stamps.length (joined.map Joined.series)).length
        = merged.stamps.length ∧
      ∀ row ∈ columnStack merged.stamps.length (joined.map Joined.series),
        row.length = (joined.map Joined.name).length := by
    refine ⟨h_rows, fun row h_row => ?_⟩
    rw [width_columnStack row h_row, List.length_map, List.length_map]
  have h_known : (∀ entry ∈ joined.map fun column => (column.name, (column.warmup : ℤ)),
        entry.1 ∈ joined.map Joined.name) ∧
      ∀ entry ∈ joined.filterMap fun column =>
          column.provenance.map fun source => (column.name, source),
        entry.1 ∈ joined.map Joined.name := by
    constructor
    · intro entry h_entry
      obtain ⟨column, h_column, rfl⟩ := List.mem_map.mp h_entry
      exact List.mem_map_of_mem h_column
    · intro entry h_entry
      obtain ⟨column, h_column, h_some⟩ := List.mem_filterMap.mp h_entry
      obtain ⟨source, -, rfl⟩ := Option.map_eq_some_iff.mp h_some
      exact List.mem_map_of_mem h_column
  unfold make
  simp only [asIndex]
  rw [dif_pos h_shape, dif_pos h.unique, dif_pos h_increasing, dif_pos h_known]
  refine ⟨_, rfl, rfl, rfl, rfl, rfl, ?_, rfl⟩
  show (joined.map Joined.name).map (fun name => (name, resolvedWarmup _ 0 _ name)) = _
  rw [List.map_map]
  refine List.map_congr_left fun column h_column => ?_
  have h_lookup := lookup_map_of_nodup (fun column : Joined α => (column.warmup : ℤ)) h.unique
    h_column
  show (column.name, resolvedWarmup _ 0 _ column.name) = _
  rw [resolvedWarmup, h_lookup, h_rows, Option.getD_some, Int.toNat_natCast,
    Nat.min_eq_left (h_warmup column h_column)]

theorem block_eq (h : Joining brought joined)
    (h_length : ∀ column ∈ joined, column.series.length = merged.length)
    (h_columns : m.columns = joined.map Joined.name)
    (h_rows : m.rows = columnStack merged.length (joined.map Joined.series))
    (h_warmup : m.columnWarmup = joined.map fun column => (column.name, column.warmup))
    (h_provenance : m.provenance = joined.filterMap fun column => column.provenance.map fun source => (column.name, source)) :
    m.block = joined.map fun column => (column.name, column.brought) := by
  have h_series : ∀ column ∈ joined.map Joined.series, column.length = merged.length := by
    simpa using h_length
  apply List.ext_getElem?
  intro k
  rw [FeatureMatrix.block, List.getElem?_map, List.getElem?_map, h_columns, List.getElem?_zipIdx,
    List.getElem?_map]
  cases h_k : joined[k]? with
  | none => rfl
  | some column =>
    have h_column : column ∈ joined := List.mem_of_getElem? h_k
    have h_values : m.rows.filterMap (fun row => row[k]?) = column.series := by
      rw [h_rows]
      exact filterMap_columnStack h_series (by rw [List.getElem?_map, h_k]; rfl)
    have h_lookup : m.columnWarmup.lookup column.name = some column.warmup := by
      rw [h_warmup]
      exact lookup_map_of_nodup Joined.warmup h.unique h_column
    have h_source : m.provenance.lookup column.name = column.provenance := by
      rw [h_provenance]
      exact lookup_filterMap_of_nodup h.unique h_column
    simp only [Option.map_some, Nat.zero_add, h_values, h_lookup, h_source]
    rfl

/-! ## The join of matrices -/

/-- The timestamps that matrices have in common. -/
def common : List (FeatureMatrix α) → List ℤ
  | [] => []
  | first :: others => interAll first.stamps (others.map FeatureMatrix.stamps)

/-- Every column of every matrix, by its name and its number there. -/
def sources (ms : List (FeatureMatrix α)) : List (FeatureMatrix α × String × ℕ) :=
  ms.flatMap fun m => m.columns.zipIdx.map fun column => (m, column)

def bringing (merged : List ℤ) (source : FeatureMatrix α × String × ℕ) : String × Brought α :=
  (source.2.1, merged.filterMap (fun t => source.1.cell t source.2.2),
    translateWarmup source.1 source.2.1 merged,
    (source.1.provenance.lookup source.2.1).filter fun origin => origin ≠ "")

theorem flatMap_brings (merged : List ℤ) (ms : List (FeatureMatrix α)) :
    ms.flatMap (brings merged) = (sources ms).map (bringing merged) := by
  rw [sources, List.map_flatMap]
  apply List.flatMap_congr
  intro m _
  rw [List.map_map]
  rfl

section Common

variable {ms : List (FeatureMatrix α)}

theorem mem_common (h : ms ≠ []) : t ∈ common ms ↔ ∀ m ∈ ms, t ∈ m.stamps := by
  cases ms with
  | nil => exact absurd rfl h
  | cons first others =>
    rw [common, mem_interAll, List.forall_mem_cons]
    simp

theorem common_pairwise (h : ∀ m ∈ ms, m.stamps.Pairwise (· < ·)) :
    (common ms).Pairwise (· < ·) := by
  cases ms with
  | nil => exact .nil
  | cons first others => exact interAll_pairwise _ (h first (by simp))

theorem mapM_eq_some {β : Type} {f : β → Option β} {l : List β} (h : ∀ b ∈ l, f b = some b) :
    l.mapM f = some l := by
  induction l with
  | nil => rfl
  | cons b l ih =>
    rw [List.forall_mem_cons] at h
    rw [List.mapM_cons, h.1, ih h.2]
    rfl

theorem mergedIndex_eq {first : FeatureMatrix α} {others : List (FeatureMatrix α)}
    (h : first.stamps.Pairwise (· < ·)) :
    mergedIndex first others =
      if common (first :: others) = [] then .error .alignment
      else .ok ⟨first.dtype, common (first :: others)⟩ := by
  have h_back : ∀ t ∈ common (first :: others), first.stamps[search first.stamps t]? = some t := by
    intro t h_t
    exact getElem?_search h ((mem_common (by simp)).mp h_t first (by simp))
  unfold mergedIndex
  show (if common (first :: others) = [] then _ else
    match (common (first :: others)).mapM (fun t => first.stamps[search first.stamps t]?) with
    | none => _
    | some stamps => _) = _
  rw [mapM_eq_some h_back]

theorem length_filterMap_of_isSome {β γ : Type} {f : β → Option γ} {l : List β}
    (h : ∀ b ∈ l, (f b).isSome) : (l.filterMap f).length = l.length := by
  induction l with
  | nil => rfl
  | cons b l ih =>
    rw [List.forall_mem_cons] at h
    obtain ⟨c, h_c⟩ := Option.isSome_iff_exists.mp h.1
    rw [List.filterMap_cons_some h_c, List.length_cons, List.length_cons, ih h.2]

theorem getElem?_filterMap_of_isSome {β γ : Type} {f : β → Option γ} {l : List β}
    (h : ∀ b ∈ l, (f b).isSome) (i : ℕ) : (l.filterMap f)[i]? = (l[i]?).bind f := by
  induction l generalizing i with
  | nil => rfl
  | cons b l ih =>
    rw [List.forall_mem_cons] at h
    obtain ⟨c, h_c⟩ := Option.isSome_iff_exists.mp h.1
    rw [List.filterMap_cons_some h_c]
    cases i with
    | zero => simp [h_c]
    | succ i => simpa using ih h.2 i

theorem isSome_cell_of_mem_sources (h_ms : ∀ m ∈ ms, m.stamps.Pairwise (· < ·))
    {source : FeatureMatrix α × String × ℕ} (h_source : source ∈ sources ms) (h_t : t ∈ common ms) :
    (source.1.cell t source.2.2).isSome := by
  obtain ⟨m, h_m, h_column⟩ := List.mem_flatMap.mp h_source
  obtain ⟨column, h_zip, rfl⟩ := List.mem_map.mp h_column
  have h_mem := (mem_common (List.ne_nil_of_mem h_m)).mp h_t m h_m
  exact isSome_cell (h_ms m h_m) h_mem (List.snd_lt_of_mem_zipIdx h_zip)

theorem translateWarmup_le (m : FeatureMatrix α) (column : String) (target : List ℤ) :
    translateWarmup m column target ≤ target.length := by
  simp only [translateWarmup]
  split
  · exact le_rfl
  · exact search_le_length _ _

/-- The join goes through where there is a common timestamp, unless its own timestamps are too
    far apart. -/
theorem exists_concat (h_ms : ∀ m ∈ ms, m.stamps.Pairwise (· < ·)) (h_two : 2 ≤ ms.length)
    (h_common : common ms ≠ []) (h_increasing : Increasing (common ms)) :
    ∃ (R : FeatureMatrix α) (joined : List (Joined α)), concatMatrices ms = .ok R ∧
      Joining ((sources ms).map (bringing (common ms))) joined ∧
      (∀ column ∈ joined, column.series.length = (common ms).length) ∧
      (∃ m ∈ ms, R.dtype = m.dtype) ∧ R.stamps = common ms ∧
      R.columns = joined.map Joined.name ∧
      R.columnWarmup = joined.map (fun column => (column.name, column.warmup)) ∧
      R.rows = columnStack (common ms).length (joined.map Joined.series) ∧
      R.block = joined.map fun column => (column.name, column.brought) := by
  cases ms with
  | nil => simp at h_two
  | cons first others =>
    cases others with
    | nil => simp at h_two
    | cons second others =>
      have h_mem : ∀ m ∈ first :: second :: others, ∀ t ∈ common (first :: second :: others),
          t ∈ m.stamps := fun m h_m t h_t => (mem_common (by simp)).mp h_t m h_m
      have h_empty : Joining ([] : List (String × Brought α)) [] := ⟨.nil, rfl, fun _ => rfl⟩
      obtain ⟨joined, h_fold, h_joining⟩ := exists_joining h_empty h_ms h_mem
      rw [List.nil_append, flatMap_brings] at h_joining
      have h_brought : ∀ column ∈ joined, ∃ source ∈ sources (first :: second :: others),
          column.brought = (bringing (common (first :: second :: others)) source).2 := by
        intro column h_column
        have h_contents := List.mem_map_of_mem (f := Joined.brought) h_column
        rw [h_joining.contents, List.map_map] at h_contents
        obtain ⟨source, h_source, h_eq⟩ := List.mem_map.mp h_contents
        exact ⟨source, h_source, h_eq.symm⟩
      have h_length : ∀ column ∈ joined, column.series.length
          = (common (first :: second :: others)).length := by
        intro column h_column
        obtain ⟨source, h_source, h_eq⟩ := h_brought column h_column
        have h_series : column.series = _ := congrArg Prod.fst h_eq
        rw [h_series]
        exact length_filterMap_of_isSome fun t h_t => isSome_cell_of_mem_sources h_ms h_source h_t
      have h_warmup : ∀ column ∈ joined, column.warmup
          ≤ (common (first :: second :: others)).length := by
        intro column h_column
        obtain ⟨source, -, h_eq⟩ := h_brought column h_column
        have h_translated : column.warmup = _ := congrArg (fun b => b.2.1) h_eq
        rw [h_translated]
        exact translateWarmup_le _ _ _
      obtain ⟨R, h_make, h_dtype, h_stamps, h_columns, h_rows, h_warmups, h_provenance⟩ :=
        @exists_make α _ joined ⟨first.dtype, common (first :: second :: others)⟩ h_joining
          h_length h_warmup h_increasing
      refine ⟨R, joined, ?_, h_joining, h_length, ⟨first, by simp, h_dtype⟩, h_stamps, h_columns,
        h_warmups, h_rows, block_eq h_joining h_length h_columns h_rows h_warmups h_provenance⟩
      rw [concatMatrices, mergedIndex_eq (h_ms first (by simp)), if_neg h_common]
      simp only [h_fold]
      exact h_make

theorem increasing_of_make {index : Index} {columns : List String} {rows : List (List α)}
    {warmupOffset : ℤ} {columnWarmup : List (String × ℤ)} {provenance : List (String × String)}
    (h : make (.timestamps index) columns rows warmupOffset columnWarmup provenance = .ok m) :
    Increasing index.stamps := by
  simp only [make, asIndex] at h
  split at h
  · split at h
    · split at h
      · assumption
      · cases h
    · cases h
  · cases h

theorem of_concat_eq_ok (h_ms : ∀ m ∈ ms, m.stamps.Pairwise (· < ·))
    (h : concatMatrices ms = .ok R) : 2 ≤ ms.length ∧ common ms ≠ [] ∧ Increasing (common ms) := by
  cases ms with
  | nil => cases h
  | cons first others =>
    cases others with
    | nil => cases h
    | cons second others =>
      rw [concatMatrices, mergedIndex_eq (h_ms first (by simp))] at h
      by_cases h_common : common (first :: second :: others) = []
      · rw [if_pos h_common] at h
        cases h
      · rw [if_neg h_common] at h
        refine ⟨by simp, h_common, ?_⟩
        simp only at h
        split at h
        · cases h
        · exact increasing_of_make h

/-! ## Warmup -/

theorem lt_foldr_max {l : List ℕ} : i < l.foldr max 0 ↔ ∃ w ∈ l, i < w := by
  induction l with
  | nil => simp
  | cons w l ih => simp [ih]

/-- A row is before the first trustworthy one of a matrix. -/
def FeatureMatrix.Untrusted (m : FeatureMatrix α) (t : ℤ) : Prop :=
  ∀ trusted, m.stamps[m.warmupOffset]? = some trusted → t < trusted

theorem before_iff {stamps : List ℤ} (h : stamps.Pairwise (· < ·)) {j w : ℕ}
    (h_j : stamps[j]? = some t) : (∀ trusted, stamps[w]? = some trusted → t < trusted) ↔ j < w := by
  obtain ⟨h_lt, h_get⟩ := List.getElem?_eq_some_iff.mp h_j
  by_cases h_w : w < stamps.length
  · have h_mono := List.pairwise_iff_getElem.mp h
    constructor
    · intro h_before
      by_contra h_le
      have h_t := h_before stamps[w] (List.getElem?_eq_getElem h_w)
      rcases Nat.lt_or_eq_of_le (not_lt.mp h_le) with h_gt | rfl
      · have h_back := h_mono w j h_w h_lt h_gt
        omega
      · omega
    · intro h_jw trusted h_trusted
      rw [List.getElem?_eq_getElem h_w, Option.some.injEq] at h_trusted
      rw [← h_trusted, ← h_get]
      exact h_mono j w h_lt h_w h_jw
  · have h_none : stamps[w]? = none := List.getElem?_eq_none (by omega)
    rw [h_none]
    simp only [reduceCtorEq, false_implies, implies_true, true_iff]
    omega

theorem lt_translateWarmup_iff {column : String} (h : merged.Pairwise (· < ·))
    (h_i : merged[i]? = some t) :
    i < translateWarmup m column merged ↔ ∀ trusted,
      m.stamps[(m.columnWarmup.lookup column).getD m.warmupOffset]? = some trusted →
        t < trusted := by
  obtain ⟨h_lt, -⟩ := List.getElem?_eq_some_iff.mp h_i
  simp only [translateWarmup]
  cases m.stamps[(m.columnWarmup.lookup column).getD m.warmupOffset]? with
  | none => simp [h_lt]
  | some trusted => simp [lt_search_iff h h_i]

theorem lookup_columnWarmup {entry : String × ℕ} (h : entry ∈ m.columnWarmup) :
    m.columnWarmup.lookup entry.1 = some entry.2 := by
  have h_nodup : (m.columnWarmup.map Prod.fst).Nodup := by
    rw [m.annotated]
    exact m.unique
  have h_lookup := lookup_map_of_nodup Prod.snd h_nodup h
  rwa [List.map_id'] at h_lookup

theorem untrusted_iff (h : m.stamps.Pairwise (· < ·)) (h_t : t ∈ m.stamps) :
    m.Untrusted t ↔ ∃ column ∈ m.columns, ∀ trusted,
      m.stamps[(m.columnWarmup.lookup column).getD m.warmupOffset]? = some trusted →
        t < trusted := by
  obtain ⟨j, h_j⟩ := List.mem_iff_getElem?.mp h_t
  rw [FeatureMatrix.Untrusted, before_iff h h_j]
  simp only [before_iff h h_j]
  constructor
  · intro h_lt
    obtain ⟨w, h_w, h_lt⟩ := lt_foldr_max.mp h_lt
    obtain ⟨entry, h_entry, rfl⟩ := List.mem_map.mp h_w
    refine ⟨entry.1, ?_, ?_⟩
    · rw [← m.annotated]
      exact List.mem_map_of_mem h_entry
    · rw [lookup_columnWarmup h_entry]
      exact h_lt
  · rintro ⟨column, h_column, h_lt⟩
    rw [← m.annotated] at h_column
    obtain ⟨entry, h_entry, rfl⟩ := List.mem_map.mp h_column
    rw [lookup_columnWarmup h_entry] at h_lt
    exact lt_foldr_max.mpr ⟨entry.2, List.mem_map_of_mem h_entry, h_lt⟩

/-! ## The laws -/

/-- A join keeps the timestamps that all matrices have, every column with its values, and the
    warmup of every matrix. -/
structure Joins (ms : List (FeatureMatrix α)) (R : FeatureMatrix α) : Prop where
  ascending : R.stamps.Pairwise (· < ·)
  rows : ∀ t, t ∈ R.stamps ↔ ∀ m ∈ ms, t ∈ m.stamps
  unique : R.columns.Nodup
  once : R.columns.length = (sources ms).length
  values : ∀ k source, (sources ms)[k]? = some source → ∀ t ∈ R.stamps,
    (source.1.cell t source.2.2).isSome ∧ R.cell t k = source.1.cell t source.2.2
  warmup : ∀ i t, R.stamps[i]? = some t → (i < R.warmupOffset ↔ ∃ m ∈ ms, m.Untrusted t)

/-- Two joins agree up to the order of their columns, up to the suffixes of names that several
    inputs use, and up to the dtype where inputs have several. -/
structure SameColumns (ms : List (FeatureMatrix α)) (R R' : FeatureMatrix α) : Prop where
  dtype : (∀ m ∈ ms, ∀ m' ∈ ms, m.dtype = m'.dtype) → R'.dtype = R.dtype
  stamps : R'.stamps = R.stamps
  warmup : R'.warmupOffset = R.warmupOffset
  columns : (R'.block.map Prod.snd).Perm (R.block.map Prod.snd)
  named : (ms.flatMap FeatureMatrix.columns).Nodup → R'.block.Perm R.block

theorem map_fst_sources (ms : List (FeatureMatrix α)) (merged : List ℤ) :
    ((sources ms).map (bringing merged)).map Prod.fst = ms.flatMap FeatureMatrix.columns := by
  rw [List.map_map, sources, List.map_flatMap]
  apply List.flatMap_congr
  intro m _
  rw [List.map_map]
  exact List.zipIdx_map_fst 0 m.columns

theorem joins_of_ok (h_ms : ∀ m ∈ ms, m.stamps.Pairwise (· < ·)) (h : concatMatrices ms = .ok R) :
    Joins ms R := by
  obtain ⟨h_two, h_common, h_increasing⟩ := of_concat_eq_ok h_ms h
  have h_ne : ms ≠ [] := by
    rintro rfl
    simp at h_two
  obtain ⟨R', joined, h_ok, h_joining, h_lengths, -, h_stamps, h_columns, h_warmups, h_rows, -⟩ :=
    exists_concat h_ms h_two h_common h_increasing
  rw [h] at h_ok
  cases h_ok
  have h_ascending := common_pairwise h_ms
  have h_length : joined.length = (sources ms).length := by
    have h_contents := congrArg List.length h_joining.contents
    simpa using h_contents
  have h_at : ∀ k : ℕ, (joined[k]?).map Joined.brought
      = ((sources ms)[k]?).map fun source => (bringing (common ms) source).2 := by
    intro k
    have h_contents := congrArg (fun l : List (Brought α) => l[k]?) h_joining.contents
    simpa [List.getElem?_map, Function.comp_def] using h_contents
  constructor
  · rw [h_stamps]
    exact h_ascending
  · rw [h_stamps]
    exact fun t => mem_common h_ne
  · rw [h_columns]
    exact h_joining.unique
  · rw [h_columns, List.length_map, h_length]
  · intro k source h_k t h_t
    have h_cell : ∀ t ∈ common ms, (source.1.cell t source.2.2).isSome := fun t h_t =>
      isSome_cell_of_mem_sources h_ms (List.mem_of_getElem? h_k) h_t
    have h_series : ∀ column ∈ joined.map Joined.series, column.length = (common ms).length := by
      simpa using h_lengths
    obtain ⟨i, h_i⟩ := List.mem_iff_getElem?.mp h_t
    have h_joined := h_at k
    rw [h_k, Option.map_some] at h_joined
    obtain ⟨column, h_column, h_brought⟩ := Option.map_eq_some_iff.mp h_joined
    have h_values : column.series = _ := congrArg Prod.fst h_brought
    rw [h_stamps] at h_t h_i
    refine ⟨h_cell t h_t, ?_⟩
    calc R.cell t k = (R.rows[i]?).bind fun row => row[k]? := by
          rw [FeatureMatrix.cell, row_of_getElem? (by rw [h_stamps]; exact h_ascending)
            (by rw [h_stamps]; exact h_i)]
      _ = column.series[i]? := by
          rw [h_rows, getElem?_columnStack h_series, List.getElem?_map, h_column]
          rfl
      _ = source.1.cell t source.2.2 := by
          rw [h_values]
          show ((common ms).filterMap fun t => source.1.cell t source.2.2)[i]? = _
          rw [getElem?_filterMap_of_isSome h_cell, h_i, Option.bind_some]
  · intro i t h_i
    have h_t : t ∈ common ms := h_stamps ▸ List.mem_of_getElem? h_i
    rw [h_stamps] at h_i
    have h_late : ∀ source : FeatureMatrix α × String × ℕ,
        i < (bringing (common ms) source).2.2.1 ↔ _ :=
      fun source => lt_translateWarmup_iff (m := source.1) h_ascending h_i
    rw [FeatureMatrix.warmupOffset, lt_foldr_max, h_warmups]
    constructor
    · rintro ⟨w, h_w, h_lt⟩
      rw [List.map_map] at h_w
      obtain ⟨column, h_column, rfl⟩ := List.mem_map.mp h_w
      have h_brought := List.mem_map_of_mem (f := Joined.brought) h_column
      rw [h_joining.contents, List.map_map] at h_brought
      obtain ⟨source, h_source, h_eq⟩ := List.mem_map.mp h_brought
      obtain ⟨m, h_m, h_numbered⟩ := List.mem_flatMap.mp h_source
      obtain ⟨numbered, h_zip, rfl⟩ := List.mem_map.mp h_numbered
      have h_warmup : (bringing (common ms) (m, numbered)).2.2.1 = column.warmup :=
        congrArg (fun b => b.2.1) h_eq
      refine ⟨m, h_m, (untrusted_iff (h_ms m h_m) ((mem_common h_ne).mp h_t m h_m)).mpr
        ⟨numbered.1, List.fst_mem_of_mem_zipIdx h_zip, ?_⟩⟩
      exact (h_late (m, numbered)).mp (by rw [h_warmup]; exact h_lt)
    · rintro ⟨m, h_m, h_untrusted⟩
      obtain ⟨name, h_name, h_before⟩ :=
        (untrusted_iff (h_ms m h_m) ((mem_common h_ne).mp h_t m h_m)).mp h_untrusted
      obtain ⟨c, h_c⟩ := List.mem_iff_getElem?.mp h_name
      have h_zip : (name, c) ∈ m.columns.zipIdx := by
        rw [List.mem_zipIdx_iff_getElem?]
        exact h_c
      have h_source : (m, name, c) ∈ sources ms :=
        List.mem_flatMap.mpr ⟨m, h_m, List.mem_map_of_mem h_zip⟩
      have h_brought : (bringing (common ms) (m, name, c)).2 ∈ joined.map Joined.brought := by
        rw [h_joining.contents, List.map_map]
        exact List.mem_map_of_mem h_source
      obtain ⟨column, h_column, h_eq⟩ := List.mem_map.mp h_brought
      have h_warmup : column.warmup = (bringing (common ms) (m, name, c)).2.2.1 :=
        congrArg (fun b => b.2.1) h_eq
      refine ⟨column.warmup, ?_, ?_⟩
      · rw [List.map_map]
        exact List.mem_map_of_mem h_column
      · rw [h_warmup]
        exact (h_late (m, name, c)).mpr h_before

/-! ## The order of the matrices -/

variable {ms' : List (FeatureMatrix α)}

theorem sources_perm (h : ms.Perm ms') : (sources ms).Perm (sources ms') := h.flatMap_right _

theorem common_perm (h_ms : ∀ m ∈ ms, m.stamps.Pairwise (· < ·)) (h : ms.Perm ms') :
    common ms' = common ms := by
  cases ms with
  | nil =>
    rw [List.nil_perm] at h
    rw [h]
  | cons first others =>
    have h_ne : ms' ≠ [] := by
      rintro rfl
      exact absurd h.length_eq (by simp)
    have h_ms' : ∀ m ∈ ms', m.stamps.Pairwise (· < ·) := fun m h_m => h_ms m (h.mem_iff.mpr h_m)
    refine eq_of_mem_iff (common_pairwise h_ms') (common_pairwise h_ms) fun t => ?_
    rw [mem_common h_ne, mem_common (by simp)]
    exact ⟨fun h_all m h_m => h_all m (h.mem_iff.mp h_m),
      fun h_all m h_m => h_all m (h.mem_iff.mpr h_m)⟩

theorem foldr_max_perm {l l' : List ℕ} (h : l.Perm l') : l.foldr max 0 = l'.foldr max 0 :=
  h.foldr_eq 0

theorem warmupOffset_eq
    (h : R.columnWarmup = joined.map fun column => (column.name, column.warmup)) :
    R.warmupOffset = ((joined.map Joined.brought).map fun b => b.2.1).foldr max 0 := by
  rw [FeatureMatrix.warmupOffset, h, List.map_map, List.map_map]
  rfl

/-- The order of the matrices decides the order of the columns only. -/
theorem exists_sameColumns (h_ms : ∀ m ∈ ms, m.stamps.Pairwise (· < ·)) (h_perm : ms.Perm ms')
    (h : concatMatrices ms = .ok R) : ∃ R', concatMatrices ms' = .ok R' ∧ SameColumns ms R R' := by
  obtain ⟨h_two, h_common, h_increasing⟩ := of_concat_eq_ok h_ms h
  have h_ms' : ∀ m ∈ ms', m.stamps.Pairwise (· < ·) :=
    fun m h_m => h_ms m (h_perm.mem_iff.mpr h_m)
  have h_same := common_perm h_ms h_perm
  obtain ⟨S, joined, h_ok, h_joining, -, ⟨m, h_m, h_dtype⟩, h_stamps, -, h_warmups, -, h_block⟩ :=
    exists_concat h_ms h_two h_common h_increasing
  rw [h] at h_ok
  cases h_ok
  obtain ⟨R', joined', h_ok', h_joining', -, ⟨m', h_m', h_dtype'⟩, h_stamps', -, h_warmups', -,
      h_block'⟩ :=
    exists_concat h_ms' (by rw [← h_perm.length_eq]; exact h_two) (by rw [h_same]; exact h_common)
      (by rw [h_same]; exact h_increasing)
  rw [h_same] at h_joining' h_stamps'
  have h_bringing : ((sources ms').map (bringing (common ms))).Perm
      ((sources ms).map (bringing (common ms))) := (sources_perm h_perm).symm.map _
  have h_contents : (joined'.map Joined.brought).Perm (joined.map Joined.brought) := by
    rw [h_joining.contents, h_joining'.contents]
    exact h_bringing.map _
  refine ⟨R', h_ok', ?_, ?_, ?_, ?_, ?_⟩
  · intro h_dtypes
    rw [h_dtype, h_dtype']
    exact h_dtypes m' (h_perm.mem_iff.mpr h_m') m h_m
  · rw [h_stamps, h_stamps']
  · rw [warmupOffset_eq h_warmups, warmupOffset_eq h_warmups']
    exact foldr_max_perm (h_contents.map _)
  · rw [h_block, h_block', List.map_map, List.map_map]
    exact h_contents
  · intro h_names
    rw [← map_fst_sources ms (common ms)] at h_names
    have h_names' := (h_bringing.map Prod.fst).nodup_iff.mpr h_names
    rw [h_block, h_block', h_joining.named_contents h_names, h_joining'.named_contents h_names']
    exact h_bringing

end Common

/-! ## The round trip -/

theorem resolvedWarmup_toDict {entry : String × ℕ} (h : entry ∈ m.columnWarmup) :
    resolvedWarmup m.rows.length m.warmupOffset m.toDict.columnWarmup entry.1 = entry.2 := by
  have h_nodup : (m.columnWarmup.map Prod.fst).Nodup := by
    rw [m.annotated]
    exact m.unique
  have h_lookup := lookup_map_of_nodup (fun entry : String × ℕ => (entry.2 : ℤ)) h_nodup h
  show min ((List.lookup entry.1 (m.columnWarmup.map fun e => (e.1, (e.2 : ℤ)))).getD _).toNat _ = _
  rw [h_lookup, Option.getD_some, Int.toNat_natCast, Nat.min_eq_left (m.bounded entry h)]

theorem fromDict_toDict (h : m.dtype = .integer) : fromDict m.toDict = .ok m := by
  have h_index : m.toDict.index.asarray = .timestamps ⟨.integer, m.stamps⟩ := by
    show (Index.tolist ⟨m.dtype, m.stamps⟩).asarray = _
    rw [h]
    rfl
  have h_shape : m.toDict.values.length = m.stamps.length ∧
      ∀ row ∈ m.toDict.values, row.length = m.toDict.columns.length := ⟨m.height, m.width⟩
  have h_unique : m.toDict.columns.Nodup := m.unique
  have h_known : (∀ entry ∈ m.toDict.columnWarmup, entry.1 ∈ m.toDict.columns) ∧
      ∀ entry ∈ m.toDict.provenance, entry.1 ∈ m.toDict.columns := by
    refine ⟨fun entry h_entry => ?_, m.known⟩
    obtain ⟨source, h_source, rfl⟩ := List.mem_map.mp h_entry
    show source.1 ∈ m.columns
    rw [← m.annotated]
    exact List.mem_map_of_mem h_source
  have h_warmup : m.columns.map (fun name =>
        (name, resolvedWarmup m.rows.length m.warmupOffset m.toDict.columnWarmup name))
      = m.columnWarmup := by
    conv_lhs => rw [← m.annotated]
    rw [List.map_map]
    conv_rhs => rw [← List.map_id m.columnWarmup]
    refine List.map_congr_left fun entry h_entry => ?_
    exact Prod.ext rfl (resolvedWarmup_toDict h_entry)
  unfold fromDict make
  rw [h_index]
  simp only [asIndex]
  rw [dif_pos h_shape, dif_pos h_unique, dif_pos m.increasing, dif_pos h_known]
  cases m
  simp only at h
  subst h
  simp only [Except.ok.injEq, FeatureMatrix.mk.injEq, true_and]
  exact ⟨rfl, rfl, h_warmup, rfl⟩

/-! ## Joins without distortion -/

theorem joinedByTimestamp :
    (∀ (ms : List (FeatureMatrix α)) (R : FeatureMatrix α), (∀ m ∈ ms, Spaced m.stamps) →
      concatMatrices ms = .ok R →
        Joins ms R ∧
          ∀ ms', ms.Perm ms' → ∃ R', concatMatrices ms' = .ok R' ∧ SameColumns ms R R') ∧
    ∀ m : FeatureMatrix α, m.dtype = .integer → fromDict m.toDict = .ok m := by
  constructor
  · intro ms R h_spaced h_ok
    have h_ascending : ∀ m ∈ ms, m.stamps.Pairwise (· < ·) :=
      fun m h_m => ascending_of_spaced m.increasing (h_spaced m h_m)
    exact ⟨joins_of_ok h_ascending h_ok,
      fun ms' h_perm => exists_sameColumns h_ascending h_perm h_ok⟩
  · intro m h_dtype
    exact fromDict_toDict h_dtype

def single (dtype : IndexDtype) (value : α) : FeatureMatrix α where
  dtype
  stamps := [5]
  columns := ["close"]
  rows := [[value]]
  columnWarmup := [("close", 0)]
  provenance := []
  increasing := List.isChain_singleton _
  height := rfl
  width := by simp
  unique := by simp
  annotated := rfl
  bounded := by simp
  known := by simp

theorem joinedByTimestamp_single :
    (∃ R, concatMatrices [single .integer (1 : ℤ), single .integer 2] = .ok R ∧
      Joins [single .integer 1, single .integer 2] R) ∧
    fromDict (single .integer (1 : ℤ)).toDict = .ok (single .integer 1) := by
  have h_laws := @joinedByTimestamp ℤ
  refine ⟨⟨_, rfl, (h_laws.1 _ _ ?_ rfl).1⟩, h_laws.2 _ rfl⟩
  simp [Spaced, single]

/-- Timestamps from one end of the 64 bits to the other. -/
def wrapped : FeatureMatrix ℤ where
  dtype := .integer
  stamps := [5, 2 ^ 63 - 1, -2 ^ 63]
  columns := ["fast", "slow"]
  rows := [[1, 2], [3, 4], [5, 6]]
  columnWarmup := [("fast", 1), ("slow", 2)]
  provenance := []
  increasing := by decide
  height := rfl
  width := by simp
  unique := by simp
  annotated := rfl
  bounded := by simp
  known := by simp

/-- A name that two inputs use goes to the first; a difference that overflows passes for an
    ascent; and the index of `datetime64` comes back as numbers, or not at all. -/
theorem joinedByTimestamp_divergence :
    (∃ ms ms' : List (FeatureMatrix ℤ), ∃ R R', (∀ m ∈ ms, Spaced m.stamps) ∧ ms.Perm ms' ∧
      concatMatrices ms = .ok R ∧ concatMatrices ms' = .ok R' ∧ ¬ R'.block.Perm R.block) ∧
    (∃ (ms : List (FeatureMatrix ℤ)) (R : FeatureMatrix ℤ),
      concatMatrices ms = .ok R ∧ ¬ Joins ms R) ∧
    fromDict (single (.datetime64 .nanosecond) (1 : ℤ)).toDict = .ok (single .integer 1) ∧
    fromDict (single (.datetime64 .second) (1 : ℤ)).toDict = .error .index := by
  refine ⟨⟨[single .integer 1, single .integer 2], [single .integer 2, single .integer 1], _, _,
    by simp [Spaced, single], List.Perm.swap _ _ _, rfl, rfl, ?_⟩,
    ⟨[wrapped, single .integer 7], _, rfl, ?_⟩, rfl, rfl⟩
  · decide +kernel
  · intro h
    have h_warmup := (h.warmup 0 5 (by decide +kernel)).mp (by decide +kernel)
    obtain ⟨m, h_m, h_untrusted⟩ := h_warmup
    rcases List.mem_pair.mp h_m with rfl | rfl
    · exact absurd (h_untrusted (-2 ^ 63) (by decide +kernel)) (by norm_num)
    · exact absurd (h_untrusted 5 (by decide +kernel)) (lt_irrefl 5)

end VyomQuant.StrategyDag.Features
