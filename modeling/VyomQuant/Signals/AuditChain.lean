/-
  VyomQuant.Signals.AuditChain

  The hash chain of `signal_audit_log` (061_aud01_signal_audit_hash_chain.sql): the insert
  trigger `signal_audit_log_chain`, `verify_signal_audit_chain` and
  `signal_audit_chain_head`.

  A table verifies without a break exactly when its rows, in order of `seq`, are a chain
  (`verify_eq_nil_iff`).  So a table is determined by its head, where digests do not
  collide, and what the trigger appends under its lock stays a chain: whatever the
  transactions that insert do, the row that has read an older head is refused by the
  constraint on `seq`.
-/

import VyomQuant.Lib.AppendLog
import VyomQuant.Lib.HashChain
import VyomQuant.Signals.AuditRow

namespace VyomQuant.Signals

open HashChain (LinkedFrom lastHash)

/-! ## The table -/

/-- The contents of the table, under `uq_signal_audit_log_seq`. -/
structure AuditTable where
  rows : List AuditRow
  seq_nodup : (rows.map (·.seq)).Nodup

/-- `ORDER BY s.seq`. -/
def ordered (rows : List AuditRow) : List AuditRow :=
  rows.mergeSort fun a b => decide (a.seq ≤ b.seq)

/-- `ORDER BY s.seq DESC LIMIT 1`. -/
def latest (rows : List AuditRow) : Option AuditRow := (ordered rows).getLast?

theorem ordered_perm (rows : List AuditRow) : (ordered rows).Perm rows := List.mergeSort_perm ..

variable {rows : List AuditRow}

theorem ordered_eq (h : rows.Pairwise fun a b => a.seq < b.seq) : ordered rows = rows :=
  List.mergeSort_of_pairwise (h.imp fun h_lt => by simpa using le_of_lt h_lt)

/-! ## Verification -/

/-- One row of what `verify_signal_audit_chain` returns. -/
structure ChainBreak where
  seq : ℤ
  auditId : String
  problem : String
  expectedHash : String
  storedHash : Option String

/-- A row with `row_number()` and `lag(row_hash)` in order of `seq`. -/
structure Numbered where
  rn : ℕ
  expectedPrev : Option String
  row : AuditRow

def numberedFrom (rn : ℕ) (expectedPrev : Option String) : List AuditRow → List Numbered
  | [] => []
  | row :: rest => ⟨rn, expectedPrev, row⟩ :: numberedFrom (rn + 1) row.rowHash rest

/-- `<>`, which is not true of a `NULL`. -/
def sqlNe : Option String → Option String → Prop
  | some a, some b => a ≠ b
  | _, _ => False

instance (a b : Option String) : Decidable (sqlNe a b) := by
  unfold sqlNe
  split <;> infer_instance

namespace Numbered

/-- The condition of the `WHERE`. -/
def Broken (o : Numbered) : Prop :=
  (o.rn = 1 ∧ o.row.prevHash ≠ none)
    ∨ (1 < o.rn ∧ o.row.prevHash = none)
    ∨ (1 < o.rn ∧ o.row.prevHash ≠ o.expectedPrev)
    ∨ o.row.rowHash ≠ some o.row.digest

instance (o : Numbered) : Decidable o.Broken := by
  unfold Broken
  infer_instance

def problem (o : Numbered) : String :=
  if o.rn = 1 ∧ o.row.prevHash ≠ none then
    "first row carries a prev_hash, so rows before it were removed"
  else if 1 < o.rn ∧ o.row.prevHash = none then
    "a second genesis row: the chain was restarted mid-history"
  else if 1 < o.rn ∧ sqlNe o.row.prevHash o.expectedPrev then
    "prev_hash does not match the preceding row: a row was removed, altered or reordered here"
  else
    "row_hash does not match its own contents: this row was altered"

def toBreak (o : Numbered) : ChainBreak where
  seq := o.row.seq
  auditId := o.row.auditId
  problem := o.problem
  expectedHash := o.row.digest
  storedHash := o.row.rowHash

end Numbered

def verifySignalAuditChain (rows : List AuditRow) : List ChainBreak :=
  ((numberedFrom 1 none (ordered rows)).filter fun o => decide o.Broken).map Numbered.toBreak

/-- `signal_audit_chain_head`: the row count, the highest `seq` and the head hash. -/
def signalAuditChainHead (rows : List AuditRow) : ℕ × Option ℤ × Option String :=
  (rows.length, (rows.map (·.seq)).max?, (latest rows).bind (·.rowHash))

/-! ## The chain -/

/-- Each row carries the hash of the row before it, and its own digest. -/
abbrev Linked : List AuditRow → Prop :=
  LinkedFrom AuditRow.prevHash AuditRow.rowHash AuditRow.digest none

theorem unbroken_iff_linkedFrom {rn : ℕ} {before : String} (h_rn : 1 < rn) :
    (∀ o ∈ numberedFrom rn (some before) rows, ¬ o.Broken) ↔
      LinkedFrom AuditRow.prevHash AuditRow.rowHash AuditRow.digest (some before) rows := by
  induction rows generalizing rn before with
  | nil => simp [numberedFrom, LinkedFrom]
  | cons row rest ih =>
    rw [numberedFrom, List.forall_mem_cons, LinkedFrom]
    have h_row : ¬ Numbered.Broken ⟨rn, some before, row⟩ ↔
        row.prevHash = some before ∧ row.rowHash = some row.digest := by
      unfold Numbered.Broken
      cases h_prev : row.prevHash <;> simp [h_rn]
      omega
    rw [h_row, and_assoc]
    refine and_congr_right fun _ => and_congr_right fun h_hash => ?_
    rw [h_hash]
    exact ih (by omega)

theorem unbroken_iff_linked : (∀ o ∈ numberedFrom 1 none rows, ¬ o.Broken) ↔ Linked rows := by
  cases rows with
  | nil => simp [numberedFrom, LinkedFrom]
  | cons row rest =>
    rw [numberedFrom, List.forall_mem_cons, Linked, LinkedFrom]
    have h_row : ¬ Numbered.Broken ⟨1, none, row⟩ ↔
        row.prevHash = none ∧ row.rowHash = some row.digest := by
      unfold Numbered.Broken
      simp
    rw [h_row, and_assoc]
    refine and_congr_right fun _ => and_congr_right fun h_hash => ?_
    rw [h_hash]
    exact unbroken_iff_linkedFrom (by decide)

theorem verify_eq_nil_iff (rows : List AuditRow) :
    verifySignalAuditChain rows = [] ↔ Linked (ordered rows) := by
  rw [verifySignalAuditChain, List.map_eq_nil_iff, List.filter_eq_nil_iff, ← unbroken_iff_linked]
  simp only [decide_eq_true_eq]

theorem carriesDigest_of_linked (h : Linked rows) {row : AuditRow} (h_mem : row ∈ rows) :
    row.CarriesDigest := by
  rcases h.prev_eq h_mem with h_none | ⟨row', _, h_some⟩
  · exact .inl h_none
  · exact .inr ⟨row'.message, h_some⟩

/-! ## Tampering -/

/-- No two of the digested messages of the tables collide. -/
def CollisionFree (T T' : AuditTable) : Prop :=
  ∀ row ∈ T.rows, ∀ row' ∈ T'.rows,
    Sha256.sha256 row.message = Sha256.sha256 row'.message → row.message = row'.message

theorem perm_of_head_eq {T T' : AuditTable} (h_free : CollisionFree T T')
    (h : verifySignalAuditChain T.rows = []) (h' : verifySignalAuditChain T'.rows = [])
    (h_head : signalAuditChainHead T.rows = signalAuditChainHead T'.rows) :
    T.rows.Perm T'.rows := by
  have h_linked := (verify_eq_nil_iff _).mp h
  have h_linked' := (verify_eq_nil_iff _).mp h'
  have h_perm := ordered_perm T.rows
  have h_perm' := ordered_perm T'.rows
  have h_length : (ordered T.rows).length = (ordered T'.rows).length := by
    rw [h_perm.length_eq, h_perm'.length_eq]
    exact congrArg Prod.fst h_head
  have h_last : lastHash AuditRow.rowHash none (ordered T.rows)
      = lastHash AuditRow.rowHash none (ordered T'.rows) := by
    rw [HashChain.lastHash_eq_getLast?, HashChain.lastHash_eq_getLast?]
    exact congrArg (fun head => head.2.2) h_head
  have h_ordered : ordered T.rows = ordered T'.rows := by
    refine LinkedFrom.eq_of_lastHash ?_ h_linked h_linked' h_length h_last
    intro row h_row row' h_row' h_hash h_hash' h_place h_digest
    have h_message := h_free row (h_perm.mem_iff.mp h_row) row' (h_perm'.mem_iff.mp h_row')
      (hexDigest_inj h_digest)
    obtain ⟨h_prev, h_seq, h_entry⟩ := AuditRow.message_inj (carriesDigest_of_linked h_linked h_row)
      (carriesDigest_of_linked h_linked' h_row') h_place h_message
    have h_rowHash : row.rowHash = row'.rowHash := by rw [h_hash, h_hash', h_digest]
    cases row
    cases row'
    simp only at h_prev h_seq h_entry h_rowHash
    subst h_prev h_seq h_entry h_rowHash
    rfl
  exact h_perm.symm.trans (h_ordered ▸ h_perm')

/-! ## The trigger -/

/-- `signal_audit_log_chain`: the row that is inserted, from the rows that its head read sees. -/
def signalAuditLogChain (visible : List AuditRow) (new : AuditEntry) : AuditRow :=
  let seq := ((latest visible).map (·.seq)).getD 0 + 1
  let prevHash := (latest visible).bind (·.rowHash)
  { new with
    seq
    prevHash
    rowHash := some (signalAuditRowDigest prevHash seq new) }

/-- What the table demands of a new row: the range of `bigint`, the primary key and the unique
    constraints, of which that on `prev_hash` counts `NULL` as a value. -/
structure Accepts (rows : List AuditRow) (row : AuditRow) : Prop where
  seq_range : row.seq < 2 ^ 63
  auditId : row.auditId ∉ rows.map (·.auditId)
  seq : row.seq ∉ rows.map (·.seq)
  rowHash : row.rowHash ∉ rows.map (·.rowHash)
  prevHash : row.prevHash ∉ rows.map (·.prevHash)

/-- The states of every interleaving of sessions that insert through the trigger. -/
abbrev Reachable {S : Type} [DecidableEq S] : AppendLog.State S AuditRow AuditEntry → Prop :=
  AppendLog.Reachable signalAuditLogChain Accepts

/-- Rows that stand in the order of their positions `1 .. n`, and are a chain. -/
structure Chained (rows : List AuditRow) : Prop where
  seq : rows.map (·.seq) = (List.range rows.length).map fun i : ℕ => (i : ℤ) + 1
  linked : Linked rows

theorem Chained.pairwise (h : Chained rows) : rows.Pairwise fun a b => a.seq < b.seq := by
  have h_seq : (rows.map (·.seq)).Pairwise (· < ·) := by
    rw [h.seq, List.pairwise_map]
    exact List.pairwise_lt_range.imp fun h_lt => by omega
  exact List.pairwise_map.mp h_seq

theorem Chained.ordered_eq (h : Chained rows) : ordered rows = rows :=
  Signals.ordered_eq h.pairwise

theorem Chained.mem_seq (h : Chained rows) {n : ℕ} (h_lt : n < rows.length) :
    (n : ℤ) + 1 ∈ rows.map (·.seq) := by
  rw [h.seq]
  exact List.mem_map.mpr ⟨n, List.mem_range.mpr h_lt, rfl⟩

theorem Chained.getLast? (h : Chained rows) : (rows.getLast?.map (·.seq)).getD 0 = rows.length := by
  rw [← List.getLast?_map, h.seq, List.getLast?_map]
  cases rows with
  | nil => rfl
  | cons row rest => simp [List.getLast?_range]

theorem Chained.take (h : Chained rows) (n : ℕ) : Chained (rows.take n) where
  seq := by rw [List.map_take, h.seq, ← List.map_take, List.take_range, List.length_take]
  linked := by
    have h_linked := h.linked
    rw [← List.take_append_drop n rows] at h_linked
    exact (HashChain.linkedFrom_append.mp h_linked).1

theorem latest_eq_getLast? {own : List AuditRow} (h : Chained (rows ++ own)) (snapshot : ℕ) :
    latest (rows.take snapshot ++ own) = (rows.take snapshot ++ own).getLast? := by
  have h_sub : (rows.take snapshot ++ own).Sublist (rows ++ own) :=
    (List.take_sublist ..).append_right _
  rw [latest, ordered_eq (h.pairwise.sublist h_sub)]

theorem Chained.snoc {visible : List AuditRow} {new : AuditEntry} (h : Chained rows)
    (h_latest : latest visible = rows.getLast?) :
    Chained (rows ++ [signalAuditLogChain visible new]) := by
  refine ⟨?_, HashChain.linkedFrom_snoc.mpr ⟨h.linked, ?_, rfl⟩⟩
  · have h_seq : (signalAuditLogChain visible new).seq = rows.length + 1 := by
      show ((latest visible).map (·.seq)).getD 0 + 1 = _
      rw [h_latest, h.getLast?]
    rw [List.map_append, h.seq, List.length_append, List.length_singleton, List.range_succ,
      List.map_append, List.map_singleton, List.map_singleton, h_seq]
  · show (latest visible).bind (·.rowHash) = _
    rw [h_latest, HashChain.lastHash_eq_getLast?]

theorem Chained.insert {own : List AuditRow} {snapshot : ℕ} {new : AuditEntry}
    (h : Chained (rows ++ own))
    (h_accepts : Accepts (rows ++ own) (signalAuditLogChain (rows.take snapshot ++ own) new)) :
    Chained (rows ++ own ++ [signalAuditLogChain (rows.take snapshot ++ own) new]) := by
  refine h.snoc ?_
  rw [latest_eq_getLast? h]
  rcases List.eq_nil_or_concat' own with rfl | ⟨init, row, rfl⟩
  · -- Nothing of its own: an older snapshot gives a position that is taken.
    simp only [List.append_nil] at h h_accepts ⊢
    by_cases h_short : snapshot < rows.length
    · refine absurd (h.mem_seq h_short) ?_
      have h_seq : (signalAuditLogChain (rows.take snapshot) new).seq = snapshot + 1 := by
        show ((latest (rows.take snapshot)).map (·.seq)).getD 0 + 1 = _
        have h_length : (rows.take snapshot).length = snapshot :=
          List.length_take_of_le (le_of_lt h_short)
        rw [latest, (h.take snapshot).ordered_eq, (h.take snapshot).getLast?, h_length]
      rw [← h_seq]
      exact h_accepts.seq
    · rw [List.take_of_length_le (by omega)]
  · rw [← List.append_assoc, ← List.append_assoc, List.getLast?_concat, List.getLast?_concat]

/-- Every table that the trigger can have built is a chain with positions `1 .. n`. -/
theorem Reachable.chained {S : Type} [DecidableEq S]
    {t : AppendLog.State S AuditRow AuditEntry} (h : Reachable t) : Chained t.committed :=
  AppendLog.Reachable.invariant ⟨rfl, trivial⟩ (fun _ _ _ _ h_rows => h_rows.insert) h

/-- Two tables that verify without a break and have one head have the same rows, and every
    interleaving of insertions leaves a table that verifies, with positions `1 .. n`. -/
theorem signal_audit_chain_tamper_evident :
    (∀ T T' : AuditTable, CollisionFree T T' → verifySignalAuditChain T.rows = [] →
      verifySignalAuditChain T'.rows = [] →
      signalAuditChainHead T.rows = signalAuditChainHead T'.rows → T.rows.Perm T'.rows) ∧
    (∀ (S : Type) [DecidableEq S] (t : AppendLog.State S AuditRow AuditEntry), Reachable t →
      verifySignalAuditChain t.committed = [] ∧
        (ordered t.committed).map (·.seq)
          = (List.range t.committed.length).map fun i : ℕ => (i : ℤ) + 1) := by
  refine ⟨fun T T' => perm_of_head_eq, fun S _ t h_reachable => ?_⟩
  have h_chained := h_reachable.chained
  rw [verify_eq_nil_iff, h_chained.ordered_eq]
  exact ⟨h_chained.linked, h_chained.seq⟩

/-! ### One insertion -/

theorem march_bounds : 1 ≤ 3 ∧ 3 ≤ 12 := by decide

/-- A risk decision of 1 March 2025. -/
def sampleEntry : AuditEntry where
  auditId := "0c9f3a52-7d1e-4b7e-9a55-3f1f6f0f2a01"
  signalId := "5a1f9f6e-2f1b-4f7c-8f0f-6f1d2c3b4a02"
  eventType := .riskDecision
  userId := none
  strategyId := some "ema|cross"
  recordedAt := {
    year := 2025
    month := 3
    day := 1
    clock := 34200000000
    year_bounds := by decide
    month_bounds := march_bounds
    day_bounds := by decide
    clock_lt := by decide }
  payload := .obj [("approved", .bool true)]

def sampleRow : AuditRow := signalAuditLogChain [] sampleEntry

def sampleTable : AuditTable where
  rows := [sampleRow]
  seq_nodup := by simp

theorem reachable_sample : ∃ t : AppendLog.State Unit AuditRow AuditEntry,
    Reachable t ∧ t.committed = [sampleRow] := by
  have h_initial : Reachable (AppendLog.initial : AppendLog.State Unit AuditRow AuditEntry) :=
    .initial
  have h_seq : sampleRow.seq = 1 := by
    have h_latest : latest [] = none := by simp [latest, ordered]
    simp [sampleRow, signalAuditLogChain, h_latest]
  have h_locked := h_initial.step (.lock AppendLog.initial () sampleEntry rfl (.inl rfl))
  have h_seen := h_locked.step (.read _ () sampleEntry 0 rfl)
  have h_inserted := h_seen.step (.insert _ () sampleEntry [] rfl {
    seq_range := lt_of_eq_of_lt h_seq (by decide)
    auditId := List.not_mem_nil
    seq := List.not_mem_nil
    rowHash := List.not_mem_nil
    prevHash := List.not_mem_nil })
  exact ⟨_, h_inserted.step (.commit _ () rfl), rfl⟩

theorem signal_audit_chain_tamper_evident_sample :
    verifySignalAuditChain sampleTable.rows = [] ∧ sampleTable.rows.Perm sampleTable.rows := by
  obtain ⟨t, h_reachable, h_committed⟩ := reachable_sample
  have h_verify : verifySignalAuditChain sampleTable.rows = [] := by
    have h_run := (signal_audit_chain_tamper_evident.2 Unit t h_reachable).1
    rwa [h_committed] at h_run
  refine ⟨h_verify, signal_audit_chain_tamper_evident.1 sampleTable sampleTable ?_ h_verify
    h_verify rfl⟩
  intro row h_row row' h_row' _
  rw [List.mem_singleton.mp h_row, List.mem_singleton.mp h_row']

end VyomQuant.Signals
