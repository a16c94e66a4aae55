/-
  VyomQuant.Signals.AuditRow

  The rows of `signal_audit_log` and the digest of one row,
  `signal_audit_row_digest` (061_aud01_signal_audit_hash_chain.sql).

  The digest is over the previous hash, followed by a `jsonb` rendering of the position and
  the contents.  A previous hash holds no brace and the rendering begins with one, and the
  rendering determines every field, so the digested text determines the row
  (`AuditRow.message_inj`).

  A uuid is its canonical text.
-/

import Mathlib
import VyomQuant.Lib.Json
import VyomQuant.Lib.Sha256
import VyomQuant.Marketplace.Period

namespace VyomQuant.Signals

open VyomQuant.Marketplace

/-! ## Rows -/

/-- The event types that the CHECK of 046 admits. -/
inductive SignalEvent where
  | created
  | riskDecision
  | order
  | execution

namespace SignalEvent

def text : SignalEvent → String
  | created => "created"
  | riskDecision => "risk_decision"
  | order => "order"
  | execution => "execution"

theorem text_injective : Function.Injective text := by
  intro a b h
  cases a <;> cases b <;> first | rfl | exact absurd h (by decide)

end SignalEvent

/-- The columns that an insertion supplies. -/
structure AuditEntry where
  auditId : String
  signalId : String
  eventType : SignalEvent
  userId : Option String
  strategyId : Option String
  recordedAt : Instant
  payload : Json

structure AuditRow extends AuditEntry where
  seq : ℤ
  prevHash : Option String
  rowHash : Option String

/-! ## Timestamps -/

def digitChar (n : ℕ) : Char := Char.ofNat (48 + n)

theorem digitChar_inj : ∀ m < 10, ∀ n < 10, digitChar m = digitChar n → m = n := by decide

/-- The last `width` decimal digits of a number. -/
def pad : ℕ → ℕ → List Char
  | 0, _ => []
  | width + 1, n => pad width (n / 10) ++ [digitChar (n % 10)]

@[simp] theorem length_pad (width n : ℕ) : (pad width n).length = width := by
  induction width generalizing n with
  | zero => rfl
  | succ width ih => rw [pad, List.length_append, ih, List.length_singleton]

theorem pad_inj {width m n : ℕ} (h_m : m < 10 ^ width) (h_n : n < 10 ^ width)
    (h : pad width m = pad width n) : m = n := by
  induction width generalizing m n with
  | zero =>
    rw [pow_zero] at h_m h_n
    omega
  | succ width ih =>
    rw [pow_succ] at h_m h_n
    obtain ⟨h_high, h_low⟩ := List.append_inj' h rfl
    have h_div : m / 10 = n / 10 := ih (by omega) (by omega) h_high
    have h_mod : m % 10 = n % 10 :=
      digitChar_inj _ (by omega) _ (by omega) (List.singleton_inj.mp h_low)
    omega

theorem pad_append_inj {width m n : ℕ} {r r' : List Char} (h_m : m < 10 ^ width)
    (h_n : n < 10 ^ width) (h : pad width m ++ r = pad width n ++ r') : m = n ∧ r = r' := by
  obtain ⟨h_pad, h_rest⟩ := List.append_inj h (by simp)
  exact ⟨pad_inj h_m h_n h_pad, h_rest⟩

/-- `to_char(recorded_at AT TIME ZONE 'UTC', 'YYYY-MM-DD"T"HH24:MI:SS.US"Z"')`. -/
def recordedAtText (t : Instant) : List Char :=
  pad 4 t.year ++ '-' :: (pad 2 t.month ++ '-' :: (pad 2 t.day ++ 'T' ::
    (pad 2 (t.clock / 3600000000) ++ ':' :: (pad 2 (t.clock / 60000000 % 60) ++ ':' ::
      (pad 2 (t.clock / 1000000 % 60) ++ '.' :: (pad 6 (t.clock % 1000000) ++ ['Z']))))))

theorem recordedAtText_injective : Function.Injective recordedAtText := by
  intro s t h
  have h_bounds (u : Instant) : u.year < 10 ^ 4 ∧ u.month < 10 ^ 2 ∧ u.day < 10 ^ 2
      ∧ u.clock / 3600000000 < 10 ^ 2 := by
    have h_year := u.year_bounds
    have h_month := u.month_bounds
    have h_day := u.day_le
    have h_clock := u.clock_lt
    unfold MAXYEAR at h_year
    unfold MICROSECONDS_PER_DAY at h_clock
    omega
  obtain ⟨h_sy, h_sm, h_sd, h_sh⟩ := h_bounds s
  obtain ⟨h_ty, h_tm, h_td, h_th⟩ := h_bounds t
  obtain ⟨h_year, h⟩ := pad_append_inj h_sy h_ty h
  obtain ⟨h_month, h⟩ := pad_append_inj h_sm h_tm (List.cons.inj h).2
  obtain ⟨h_day, h⟩ := pad_append_inj h_sd h_td (List.cons.inj h).2
  obtain ⟨h_hour, h⟩ := pad_append_inj h_sh h_th (List.cons.inj h).2
  obtain ⟨h_minute, h⟩ := pad_append_inj (by omega) (by omega) (List.cons.inj h).2
  obtain ⟨h_second, h⟩ := pad_append_inj (by omega) (by omega) (List.cons.inj h).2
  obtain ⟨h_micro, _⟩ := pad_append_inj (by omega) (by omega) (List.cons.inj h).2
  have h_clock : s.clock = t.clock := by omega
  cases s
  cases t
  simp only at h_year h_month h_day h_clock
  subst h_year h_month h_day h_clock
  rfl

/-! ## The rendering -/

theorem numeralChar_of_mem_repr {n : ℤ} {c : Char} (h : c ∈ n.repr.toList) :
    numeralChar c = true := by
  have h_digit {k : ℕ} (h_mem : c ∈ k.repr.toList) : numeralChar c = true := by
    rw [Nat.toList_repr] at h_mem
    simp [numeralChar, Nat.isDigit_of_mem_toDigits (by decide) (by decide) h_mem]
  rw [Int.repr_eq_if] at h
  split at h
  · exact h_digit h
  · rw [String.toList_append] at h
    rcases List.mem_append.mp h with h_sign | h_mem
    · rw [List.mem_singleton.mp (show c ∈ ['-'] from h_sign)]
      rfl
    · exact h_digit h_mem

/-- The text of a `bigint`. -/
def bigintNumeral (n : ℤ) : Numeral where
  chars := n.repr.toList
  ne_nil h := by
    rw [String.toList_eq_nil_iff, Int.repr_eq_if] at h
    split at h
    · exact Nat.repr_ne_empty h
    · exact Nat.repr_ne_empty (String.append_eq_empty_iff.mp h).2
  numeral _ h := numeralChar_of_mem_repr h

theorem bigintNumeral_injective : Function.Injective bigintNumeral := by
  intro m n h
  exact Int.repr_injective (String.toList_inj.mp (congrArg Numeral.chars h))

/-- A text or uuid column, SQL `NULL` as `null`. -/
def nullable : Option String → Json
  | none => .null
  | some s => .str s

theorem nullable_injective : Function.Injective nullable := by
  intro a b h
  cases a <;> cases b <;> cases h <;> rfl

/-- `jsonb_build_object(...)`, the keys in the order that `jsonb` keeps them in: by length,
    then by their bytes. -/
def auditObject (seq : ℤ) (entry : AuditEntry) : Json :=
  .obj [
    ("seq", .num (bigintNumeral seq)),
    ("payload", entry.payload),
    ("user_id", nullable entry.userId),
    ("audit_id", .str entry.auditId),
    ("signal_id", .str entry.signalId),
    ("event_type", .str entry.eventType.text),
    ("recorded_at", .str (String.ofList (recordedAtText entry.recordedAt))),
    ("strategy_id", nullable entry.strategyId)]

theorem auditObject_inj {seq seq' : ℤ} {entry entry' : AuditEntry}
    (h : auditObject seq entry = auditObject seq' entry') : seq = seq' ∧ entry = entry' := by
  simp only [auditObject, Json.obj.injEq, List.cons.injEq, Prod.mk.injEq, Json.num.injEq,
    Json.str.injEq, true_and, and_true] at h
  obtain ⟨h_seq, h_payload, h_user, h_audit, h_signal, h_event, h_recorded, h_strategy⟩ := h
  replace h_user := nullable_injective h_user
  replace h_event := SignalEvent.text_injective h_event
  replace h_recorded := recordedAtText_injective (String.ofList_injective h_recorded)
  replace h_strategy := nullable_injective h_strategy
  refine ⟨bigintNumeral_injective h_seq, ?_⟩
  cases entry
  cases entry'
  simp only at h_payload h_user h_audit h_signal h_event h_recorded h_strategy
  subst h_payload h_user h_audit h_signal h_event h_recorded h_strategy
  rfl

/-! ## The digest -/

/-- What is digested: `coalesce(p_prev_hash, '') || jsonb_build_object(...)::text`. -/
def auditText (prevHash : Option String) (seq : ℤ) (entry : AuditEntry) : String :=
  prevHash.getD "" ++ String.ofList (auditObject seq entry).text

/-- `convert_to(text, 'UTF8')`. -/
def utf8 (text : String) : List UInt8 := text.toByteArray.data.toList

theorem utf8_injective : Function.Injective utf8 := by
  intro s t h
  have h_data : s.toByteArray.data = t.toByteArray.data := Array.toList_inj.mp h
  have h_bytes : s.toByteArray = t.toByteArray := ByteArray.ext h_data
  exact String.toByteArray_inj.mp h_bytes

/-- `encode(sha256(bytes), 'hex')`. -/
def hexDigest (message : List UInt8) : String := String.ofList (Sha256.hex (Sha256.sha256 message))

theorem hexDigest_inj {m n : List UInt8} (h : hexDigest m = hexDigest n) :
    Sha256.sha256 m = Sha256.sha256 n :=
  Sha256.hex_inj (fun _ => Sha256.mem_sha256) (fun _ => Sha256.mem_sha256)
    (String.ofList_injective h)

theorem brace_notMem_hexDigest (m : List UInt8) : '\x7b' ∉ (hexDigest m).toList := by
  rw [hexDigest, String.toList_ofList]
  exact fun h_mem => Sha256.mem_hex (fun _ => Sha256.mem_sha256) h_mem rfl

def signalAuditRowDigest (prevHash : Option String) (seq : ℤ) (entry : AuditEntry) : String :=
  hexDigest (utf8 (auditText prevHash seq entry))

namespace AuditRow

/-- The bytes that the digest of a row is over. -/
def message (row : AuditRow) : List UInt8 :=
  utf8 (auditText row.prevHash row.seq row.toAuditEntry)

def digest (row : AuditRow) : String :=
  signalAuditRowDigest row.prevHash row.seq row.toAuditEntry

/-- The row carries nothing or a digest as its previous hash. -/
def CarriesDigest (row : AuditRow) : Prop :=
  row.prevHash = none ∨ ∃ m, row.prevHash = some (hexDigest m)

theorem CarriesDigest.brace_notMem {row : AuditRow} (h : row.CarriesDigest) :
    '\x7b' ∉ (row.prevHash.getD "").toList := by
  rcases h with h_none | ⟨m, h_some⟩
  · rw [h_none]
    exact List.not_mem_nil
  · rw [h_some]
    exact brace_notMem_hexDigest m

theorem message_inj {row row' : AuditRow} (h_carries : row.CarriesDigest)
    (h_carries' : row'.CarriesDigest) (h_place : row.prevHash.isSome = row'.prevHash.isSome)
    (h : row.message = row'.message) :
    row.prevHash = row'.prevHash ∧ row.seq = row'.seq ∧ row.toAuditEntry = row'.toAuditEntry := by
  have h_text := congrArg String.toList (utf8_injective h)
  simp only [auditText, String.toList_append, String.toList_ofList] at h_text
  have h_brace : ∃ rest rest', (auditObject row.seq row.toAuditEntry).text = '\x7b' :: rest
      ∧ (auditObject row'.seq row'.toAuditEntry).text = '\x7b' :: rest' :=
    ⟨_, _, by rw [auditObject, Json.text], by rw [auditObject, Json.text]⟩
  obtain ⟨rest, rest', h_rest, h_rest'⟩ := h_brace
  have h_split : (row.prevHash.getD "").toList = (row'.prevHash.getD "").toList
      ∧ rest = rest' := by
    rw [h_rest, h_rest'] at h_text
    exact Splitting.append_cons_inj h_carries.brace_notMem h_carries'.brace_notMem h_text
  have h_object : (auditObject row.seq row.toAuditEntry).text
      = (auditObject row'.seq row'.toAuditEntry).text := by
    rw [h_rest, h_rest', h_split.2]
  obtain ⟨h_seq, h_entry⟩ := auditObject_inj (Json.text_injective h_object)
  have h_prev : row.prevHash = row'.prevHash := by
    have h_getD := String.toList_inj.mp h_split.1
    cases h_row : row.prevHash <;> cases h_row' : row'.prevHash <;>
      simp_all
  exact ⟨h_prev, h_seq, h_entry⟩

end AuditRow

end VyomQuant.Signals
