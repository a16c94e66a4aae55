/-
  VyomQuant.Billing.WebhookIdempotency

  The durable record of webhook deliveries (`core/webhook_idempotency.py`), for the
  deliveries of one event.

  A delivery claims the event by a row, handles it, and then completes or releases the row.
  A claim that is a minute old may be taken over while its delivery is still at work, and the
  row does not say whose it is.  So a late release deletes the claim of another, and a late
  completion may find no row.  As long as neither happens an event is processed once
  (`webhook_law`).
-/

import VyomQuant.Lib.Expiring
import VyomQuant.Lib.Run

namespace VyomQuant.Webhook

/-! ## The record -/

/-- `PROCESSING_STALE_AFTER_SECONDS`, in milliseconds. -/
def processingStaleAfter : ℕ := 60 * 1000

/-- The row of the event.  Whose claim it is, is not stored. -/
structure Row where
  completed : Bool
  createdAt : ℕ
  claimant : ℕ

/-- Where a delivery stands: before its next statement, with what it knows by then. -/
inductive Phase where
  | called
  | reading
  | inserting
  | judging (createdAt : ℕ)
  | reclaiming (now : ℕ)
  | handling (claimedAt : ℕ)
  | marking (claimedAt : ℕ)
  | releasing (claimedAt : ℕ)
  | refused
  | completed
  | released
  | crashed

/-- When the claim was made that a delivery holds. -/
def Phase.claimedAt? : Phase → Option ℕ
  | .handling claimedAt | .marking claimedAt | .releasing claimedAt => some claimedAt
  | _ => none

structure Sys where
  now : ℕ
  row : Option Row
  phase : ℕ → Phase

namespace Sys

variable (s : Sys) (delivery : ℕ)

def goto (phase : Phase) : Sys := { s with phase := Function.update s.phase delivery phase }

@[simp] theorem goto_row (phase : Phase) : (s.goto delivery phase).row = s.row := rfl

@[simp] theorem goto_phase_self (phase : Phase) : (s.goto delivery phase).phase delivery = phase :=
  Function.update_self ..

theorem goto_phase_of_ne {other : ℕ} (phase : Phase) (h : other ≠ delivery) :
    (s.goto delivery phase).phase other = s.phase other := Function.update_of_ne h ..

/-- The row is written as a claim. -/
def claim (createdAt : ℕ) : Sys :=
  { s with row := some { completed := false, createdAt := createdAt, claimant := delivery } }

end Sys

/-! ## The statements of a delivery -/

/-- The insert, whose conflict the first time leads to a look at the row. -/
def insert (delivery : ℕ) (onConflict : Phase) (command : Command) (s : Sys) : Sys :=
  match s.row with
  | some _ => s.goto delivery (if command = .answered then onConflict else .refused)
  | none =>
    match command with
    | .answered => (s.claim delivery s.now).goto delivery (.handling s.now)
    | .lost => s.goto delivery .refused
    | .unanswered => (s.claim delivery s.now).goto delivery .refused

def readRow (delivery : ℕ) (answered : Bool) (s : Sys) : Sys :=
  if answered then
    match s.row with
    | none => s.goto delivery .inserting
    | some row => s.goto delivery (if row.completed then .refused else .judging row.createdAt)
  else s.goto delivery .refused

/-- A live attempt, or one to reclaim. -/
def judge (delivery createdAt : ℕ) (s : Sys) : Sys :=
  s.goto delivery
    (if s.now < createdAt + processingStaleAfter then .refused else .reclaiming s.now)

/-- What the reclaim's `WHERE` matches. -/
def Reclaimable (now : ℕ) (row : Row) : Prop :=
  row.completed = false ∧ row.createdAt + processingStaleAfter < now

instance (now : ℕ) (row : Row) : Decidable (Reclaimable now row) :=
  inferInstanceAs (Decidable (_ ∧ _))

def reclaim (delivery now : ℕ) (command : Command) (s : Sys) : Sys :=
  if ∃ row ∈ s.row, Reclaimable now row then
    match command with
    | .answered => (s.claim delivery now).goto delivery (.handling now)
    | .lost => s.goto delivery .refused
    | .unanswered => (s.claim delivery now).goto delivery .refused
  else s.goto delivery .refused

/-- `mark_webhook_completed`, which does not look whether it failed or found a row. -/
def markCompleted (delivery : ℕ) (command : Command) (s : Sys) : Sys :=
  Sys.goto (if command.applied then { s with row := s.row.map fun row => { row with completed := true } }
    else s) delivery .completed

/-- `release_webhook_processing`, of whoever's claim there is by now. -/
def releaseProcessing (delivery : ℕ) (command : Command) (s : Sys) : Sys :=
  Sys.goto (if command.applied then { s with row := s.row.filter fun row => row.completed } else s)
    delivery .released

inductive Action where
  | wait (duration : ℕ)
  | insert (delivery : ℕ) (command : Command)
  | readRow (delivery : ℕ) (answered : Bool)
  | judge (delivery : ℕ)
  | reclaim (delivery : ℕ) (command : Command)
  | handle (delivery : ℕ) (succeeds : Bool)
  | markCompleted (delivery : ℕ) (command : Command)
  | releaseProcessing (delivery : ℕ) (command : Command)
  | crash (delivery : ℕ)

/-- One statement of one delivery, if it is the delivery's next one, the end of a handler, a
    crash, or some time. -/
def step (s : Sys) : Action → Except Unit Sys
  | .wait duration => .ok { s with now := s.now + duration }
  | .insert delivery command =>
    match s.phase delivery with
    | .called => .ok (insert delivery .reading command s)
    | .inserting => .ok (insert delivery .refused command s)
    | _ => .error ()
  | .readRow delivery answered =>
    match s.phase delivery with
    | .reading => .ok (readRow delivery answered s)
    | _ => .error ()
  | .judge delivery =>
    match s.phase delivery with
    | .judging createdAt => .ok (judge delivery createdAt s)
    | _ => .error ()
  | .reclaim delivery command =>
    match s.phase delivery with
    | .reclaiming now => .ok (reclaim delivery now command s)
    | _ => .error ()
  | .handle delivery succeeds =>
    match s.phase delivery with
    | .handling claimedAt =>
      .ok (s.goto delivery (if succeeds then .marking claimedAt else .releasing claimedAt))
    | _ => .error ()
  | .markCompleted delivery command =>
    match s.phase delivery with
    | .marking _ => .ok (markCompleted delivery command s)
    | _ => .error ()
  | .releaseProcessing delivery command =>
    match s.phase delivery with
    | .releasing _ => .ok (releaseProcessing delivery command s)
    | _ => .error ()
  | .crash delivery => .ok (s.goto delivery .crashed)

/-- Nothing has been delivered yet. -/
def start : Sys := { now := 0, row := none, phase := fun _ => .called }

/-! ## What is promised -/

/-- The delivery was answered that it should proceed, and has not finished. -/
def Sys.Holds (s : Sys) (delivery claimedAt : ℕ) : Prop :=
  (s.phase delivery).claimedAt? = some claimedAt

/-- Of two claims the older is a minute old. -/
def Exclusive (s : Sys) : Prop :=
  ∀ a b claimedA claimedB, a ≠ b → s.Holds a claimedA → s.Holds b claimedB → claimedA ≤ claimedB →
    claimedA + processingStaleAfter < s.now

/-- A release takes nobody else's claim away. -/
def OwnRelease (s : Sys) (action : Action) (s' : Sys) : Prop :=
  ∀ delivery command, action = .releaseProcessing delivery command →
    s'.row = s.row ∨ ∃ row, s.row = some row ∧ row.claimant = delivery

/-- Nobody is told to proceed once a delivery has been completed. -/
def NoLateClaim (s s' : Sys) : Prop :=
  (∃ delivery, s.phase delivery = .completed) →
    ∀ delivery claimedAt, s'.Holds delivery claimedAt → s.Holds delivery claimedAt

/-- No claim has been taken over by the time it is released, and a completion succeeds and
    finds the row. -/
def Meets (s : Sys) : Action → Prop
  | .releaseProcessing delivery command => (∃ claimedAt, s.phase delivery = .releasing claimedAt) →
    command.applied = true → ∀ row ∈ s.row, row.completed = false → row.claimant = delivery
  | .markCompleted delivery command => (∃ claimedAt, s.phase delivery = .marking claimedAt) →
    command.applied = true ∧ s.row.isSome
  | _ => True

/-! ## What every statement preserves -/

/-- What an action does, with where its delivery stood. -/
inductive Stepped (s : Sys) : Action → Sys → Prop
  | wait (duration) : Stepped s (.wait duration) { s with now := s.now + duration }
  | insert {delivery found} (command) (h_found : found = .reading ∨ found = .refused) :
      Stepped s (.insert delivery command) (insert delivery found command s)
  | readRow {delivery} (answered) :
      Stepped s (.readRow delivery answered) (readRow delivery answered s)
  | judge {delivery createdAt} : Stepped s (.judge delivery) (judge delivery createdAt s)
  | reclaim {delivery now} (command) (h_phase : s.phase delivery = .reclaiming now) :
      Stepped s (.reclaim delivery command) (reclaim delivery now command s)
  | handle {delivery claimedAt} (succeeds : Bool) (h_phase : s.phase delivery = .handling claimedAt) :
      Stepped s (.handle delivery succeeds)
        (s.goto delivery (if succeeds then .marking claimedAt else .releasing claimedAt))
  | markCompleted {delivery claimedAt} (command) (h_phase : s.phase delivery = .marking claimedAt) :
      Stepped s (.markCompleted delivery command) (markCompleted delivery command s)
  | releaseProcessing {delivery claimedAt} (command)
      (h_phase : s.phase delivery = .releasing claimedAt) :
      Stepped s (.releaseProcessing delivery command) (releaseProcessing delivery command s)
  | crash {delivery} : Stepped s (.crash delivery) (s.goto delivery .crashed)

/-- Who holds a claim has the row, or its claim is old; and a completion stays. -/
structure Inv (s : Sys) : Prop where
  held : ∀ delivery claimedAt, s.Holds delivery claimedAt →
    (∃ row, s.row = some row ∧ row.claimant = delivery ∧ row.createdAt = claimedAt) ∨
      claimedAt + processingStaleAfter < s.now
  reclaiming : ∀ delivery now, s.phase delivery = .reclaiming now → now ≤ s.now
  kept : (∃ delivery, s.phase delivery = .completed) → ∃ row, s.row = some row ∧ row.completed = true

section

variable {s s' : Sys} {delivery other claimedAt createdAt now : ℕ} {phase found : Phase} {action : Action}

@[simp] theorem holds_goto_self : (s.goto delivery phase).Holds delivery claimedAt ↔
    phase.claimedAt? = some claimedAt := by
  unfold Sys.Holds
  rw [Sys.goto_phase_self]

theorem holds_goto_of_ne (h : other ≠ delivery) :
    (s.goto delivery phase).Holds other claimedAt ↔ s.Holds other claimedAt := by
  unfold Sys.Holds
  rw [Sys.goto_phase_of_ne _ _ _ h]

theorem phase_goto_cases (h : (s.goto delivery phase).phase other = found) :
    (other = delivery ∧ phase = found) ∨ (other ≠ delivery ∧ s.phase other = found) := by
  by_cases h_other : other = delivery
  · rw [h_other, Sys.goto_phase_self] at h
    exact .inl ⟨h_other, h⟩
  · rw [Sys.goto_phase_of_ne _ _ _ h_other] at h
    exact .inr ⟨h_other, h⟩

theorem stepped_of_step (h_step : step s action = .ok s') : Stepped s action s' := by
  cases action <;> simp only [step] at h_step <;> (try split at h_step) <;> cases h_step <;>
    constructor
  -- where the delivery stood, and what an insert finds
  all_goals first | assumption | simp

theorem start_inv : Inv start where
  held := fun _ _ => nofun
  reclaiming := fun _ _ => nofun
  kept := by
    rintro ⟨_, h_completed⟩
    cases h_completed

namespace Inv

theorem goto (h : Inv s) (h_claim : ∀ claimedAt, phase.claimedAt? = some claimedAt → s.Holds delivery claimedAt)
    (h_reclaiming : ∀ now, phase = .reclaiming now → now ≤ s.now) (h_open : phase ≠ .completed) :
    Inv (s.goto delivery phase) where
  held := by
    intro other claimedAt h_holds
    by_cases h_other : other = delivery
    · subst h_other
      exact h.held other claimedAt (h_claim claimedAt (holds_goto_self.mp h_holds))
    · exact h.held other claimedAt ((holds_goto_of_ne h_other).mp h_holds)
  reclaiming := by
    intro other now h_phase
    rcases phase_goto_cases h_phase with ⟨-, h_self⟩ | ⟨-, h_other⟩
    · exact h_reclaiming now h_self
    · exact h.reclaiming other now h_other
  kept := by
    rintro ⟨other, h_phase⟩
    rcases phase_goto_cases h_phase with ⟨-, h_self⟩ | ⟨-, h_other⟩
    · exact absurd h_self h_open
    · exact h.kept ⟨other, h_other⟩

theorem leave (h : Inv s) (h_phase : phase = .reading ∨ phase = .inserting ∨ phase = .refused ∨
    (∃ createdAt, phase = .judging createdAt) ∨ phase = .released ∨ phase = .crashed) :
    Inv (s.goto delivery phase) := by
  refine h.goto ?_ ?_ ?_ <;> rcases h_phase with rfl | rfl | rfl | ⟨_, rfl⟩ | rfl | rfl <;>
    exact nofun

theorem claim (h : Inv s) (h_old : ∀ other claimedAt, s.Holds other claimedAt →
      claimedAt + processingStaleAfter < s.now)
    (h_open : ∀ other, s.phase other ≠ .completed)
    (h_phase : phase = .handling createdAt ∨ phase = .refused) :
    Inv ((s.claim delivery createdAt).goto delivery phase) where
  held := by
    intro other claimedAt h_holds
    by_cases h_other : other = delivery
    · subst h_other
      rw [holds_goto_self] at h_holds
      rcases h_phase with rfl | rfl
      · exact .inl ⟨_, rfl, rfl, Option.some.inj h_holds⟩
      · cases h_holds
    · exact .inr (h_old other claimedAt ((holds_goto_of_ne h_other).mp h_holds))
  reclaiming := by
    intro other now h_reclaiming
    rcases phase_goto_cases h_reclaiming with ⟨-, h_self⟩ | ⟨-, h_other⟩
    · rcases h_phase with rfl | rfl <;> cases h_self
    · exact h.reclaiming other now h_other
  kept := by
    rintro ⟨other, h_completed⟩
    rcases phase_goto_cases h_completed with ⟨-, h_self⟩ | ⟨-, h_other⟩
    · rcases h_phase with rfl | rfl <;> cases h_self
    · exact absurd h_other (h_open other)

theorem old_of_row (h : Inv s)
    (h_row : ∀ row, s.row = some row → row.createdAt + processingStaleAfter < s.now)
    (h_holds : s.Holds other claimedAt) : claimedAt + processingStaleAfter < s.now := by
  rcases h.held other claimedAt h_holds with ⟨row, h_some, -, rfl⟩ | h_old
  · exact h_row row h_some
  · exact h_old

theorem not_completed (h : Inv s) (h_row : ∀ row, s.row = some row → row.completed = false) (other : ℕ) :
    s.phase other ≠ .completed := by
  intro h_phase
  obtain ⟨row, h_some, h_completed⟩ := h.kept ⟨other, h_phase⟩
  rw [h_row row h_some] at h_completed
  cases h_completed

theorem wait (h : Inv s) (duration : ℕ) : Inv { s with now := s.now + duration } where
  held := by
    intro other claimedAt h_holds
    rcases h.held other claimedAt h_holds with h_row | h_old
    · exact .inl h_row
    · exact .inr (Nat.lt_add_right duration h_old)
  reclaiming := fun other now h_phase => Nat.le_add_right_of_le (h.reclaiming other now h_phase)
  kept := h.kept

theorem insert (h : Inv s) {onConflict : Phase} (h_conflict : onConflict = .reading ∨ onConflict = .refused)
    (command : Command) : Inv (insert delivery onConflict command s) := by
  unfold Webhook.insert
  cases h_row : s.row with
  | some row =>
    dsimp only
    split_ifs
    · refine h.leave ?_
      tauto
    · exact h.leave (.inr (.inr (.inl rfl)))
  | none =>
    have h_none : ∀ row, s.row ≠ some row := fun row h_some => by
      rw [h_row] at h_some
      cases h_some
    have h_old := fun other claimedAt => @Inv.old_of_row s other claimedAt h
      fun row h_some => absurd h_some (h_none row)
    have h_open := h.not_completed fun row h_some => absurd h_some (h_none row)
    cases command with
    | answered => exact h.claim h_old h_open (.inl rfl)
    | lost => exact h.leave (.inr (.inr (.inl rfl)))
    | unanswered => exact h.claim h_old h_open (.inr rfl)

theorem readRow (h : Inv s) (answered : Bool) : Inv (readRow delivery answered s) := by
  unfold Webhook.readRow
  split_ifs
  · cases s.row with
    | none => exact h.leave (.inr (.inl rfl))
    | some row =>
      dsimp only
      split_ifs
      · exact h.leave (.inr (.inr (.inl rfl)))
      · exact h.leave (.inr (.inr (.inr (.inl ⟨_, rfl⟩))))
  · exact h.leave (.inr (.inr (.inl rfl)))

theorem judge (h : Inv s) : Inv (judge delivery createdAt s) := by
  unfold Webhook.judge
  split_ifs
  · exact h.leave (.inr (.inr (.inl rfl)))
  · refine h.goto nofun (fun now h_now => ?_) nofun
    exact Nat.le_of_eq (Phase.reclaiming.inj h_now).symm

theorem reclaim (h : Inv s) (h_now : now ≤ s.now) (command : Command) :
    Inv (reclaim delivery now command s) := by
  unfold Webhook.reclaim
  split_ifs with h_match
  · obtain ⟨row, h_row, h_open_row, h_stale⟩ := h_match
    have h_same : ∀ found, s.row = some found → found = row := fun found h_found =>
      Option.some.inj (h_found.symm.trans h_row)
    have h_old := fun other claimedAt => @Inv.old_of_row s other claimedAt h
      fun found h_found => by
        rw [h_same found h_found]
        omega
    have h_open := h.not_completed fun found h_found => by
      rw [h_same found h_found]
      exact h_open_row
    cases command with
    | answered => exact h.claim h_old h_open (.inl rfl)
    | lost => exact h.leave (.inr (.inr (.inl rfl)))
    | unanswered => exact h.claim h_old h_open (.inr rfl)
  · exact h.leave (.inr (.inr (.inl rfl)))

theorem markCompleted (h : Inv s) {command : Command} (h_applied : command.applied = true)
    (h_row : s.row.isSome) : Inv (markCompleted delivery command s) := by
  obtain ⟨row, h_some⟩ := Option.isSome_iff_exists.mp h_row
  unfold Webhook.markCompleted
  rw [if_pos h_applied, h_some, Option.map_some]
  exact
    { held := by
        intro other claimedAt h_holds
        by_cases h_other : other = delivery
        · subst h_other
          cases holds_goto_self.mp h_holds
        · rcases h.held other claimedAt ((holds_goto_of_ne h_other).mp h_holds) with
            ⟨found, h_found, h_claimant, h_created⟩ | h_old
          · rw [h_some] at h_found
            cases h_found
            exact .inl ⟨_, rfl, h_claimant, h_created⟩
          · exact .inr h_old
      reclaiming := by
        intro other now h_phase
        rcases phase_goto_cases h_phase with ⟨-, h_self⟩ | ⟨-, h_other⟩
        · cases h_self
        · exact h.reclaiming other now h_other
      kept := fun _ => ⟨_, rfl, rfl⟩ }

theorem releaseProcessing (h : Inv s) {command : Command}
    (h_own : command.applied = true → ∀ row ∈ s.row, row.completed = false → row.claimant = delivery) :
    Inv (releaseProcessing delivery command s) := by
  unfold Webhook.releaseProcessing
  split_ifs with h_applied
  · exact
      { held := by
          intro other claimedAt h_holds
          by_cases h_other : other = delivery
          · subst h_other
            cases holds_goto_self.mp h_holds
          · rcases h.held other claimedAt ((holds_goto_of_ne h_other).mp h_holds) with
              ⟨row, h_row, h_claimant, h_created⟩ | h_old
            · refine .inl ⟨row, ?_, h_claimant, h_created⟩
              -- The row of another is not deleted, so it is completed.
              have h_completed : row.completed = true := by
                by_contra h_not
                exact h_other (h_claimant ▸ h_own h_applied row h_row (Bool.eq_false_iff.mpr h_not))
              rw [Sys.goto_row, h_row, Option.filter_some, if_pos h_completed]
            · exact .inr h_old
        reclaiming := by
          intro other now h_phase
          rcases phase_goto_cases h_phase with ⟨-, h_self⟩ | ⟨-, h_other⟩
          · cases h_self
          · exact h.reclaiming other now h_other
        kept := by
          rintro ⟨other, h_phase⟩
          rcases phase_goto_cases h_phase with ⟨-, h_self⟩ | ⟨-, h_other⟩
          · cases h_self
          · obtain ⟨row, h_row, h_completed⟩ := h.kept ⟨other, h_other⟩
            refine ⟨row, ?_, h_completed⟩
            rw [Sys.goto_row, h_row, Option.filter_some, if_pos h_completed] }
  · exact h.leave (.inr (.inr (.inr (.inr (.inl rfl)))))

theorem step (h : Inv s) (h_meets : Meets s action) (h_step : step s action = .ok s') : Inv s' := by
  cases stepped_of_step h_step with
  | wait duration => exact h.wait duration
  | insert command h_found => exact h.insert h_found command
  | readRow answered => exact h.readRow answered
  | judge => exact h.judge
  | @reclaim delivery now command h_phase =>
    exact h.reclaim (h.reclaiming delivery now h_phase) command
  | @handle delivery claimedAt succeeds h_phase =>
    have h_holds : s.Holds delivery claimedAt := by
      rw [Sys.Holds, h_phase]
      rfl
    cases succeeds with
    | true =>
      refine h.goto (fun found h_found => ?_) nofun nofun
      rw [← Option.some.inj h_found]
      exact h_holds
    | false =>
      refine h.goto (fun found h_found => ?_) nofun nofun
      rw [← Option.some.inj h_found]
      exact h_holds
  | markCompleted command h_phase =>
    obtain ⟨h_applied, h_row⟩ := h_meets ⟨_, h_phase⟩
    exact h.markCompleted h_applied h_row
  | releaseProcessing command h_phase => exact h.releaseProcessing (h_meets ⟨_, h_phase⟩)
  | crash => exact h.leave (.inr (.inr (.inr (.inr (.inr rfl)))))

/-! ## What is promised of one state and one statement -/

theorem exclusive (h : Inv s) : Exclusive s := by
  intro a b claimedA claimedB h_ne h_a h_b h_le
  rcases h.held a claimedA h_a with ⟨row, h_row, h_claimant, -⟩ | h_old
  · rcases h.held b claimedB h_b with ⟨row', h_row', h_claimant', -⟩ | h_old
    · cases h_row.symm.trans h_row'
      exact absurd (h_claimant.symm.trans h_claimant') h_ne
    · omega
  · exact h_old

end Inv

theorem holds_of_goto (h_claim : ∀ claimedAt, phase.claimedAt? = some claimedAt → s.Holds delivery claimedAt)
    (h_holds : (s.goto delivery phase).Holds other claimedAt) : s.Holds other claimedAt := by
  by_cases h_other : other = delivery
  · subst h_other
    exact h_claim claimedAt (holds_goto_self.mp h_holds)
  · exact (holds_goto_of_ne h_other).mp h_holds

theorem holds_of_leave (h_phase : phase.claimedAt? = none)
    (h_holds : (s.goto delivery phase).Holds other claimedAt) : s.Holds other claimedAt := by
  refine holds_of_goto (fun found h_found => ?_) h_holds
  rw [h_phase] at h_found
  cases h_found

theorem holds_of_completed {row : Row} (h_row : s.row = some row) (h_completed : row.completed = true)
    (h_step : step s action = .ok s') (h_holds : s'.Holds other claimedAt) : s.Holds other claimedAt := by
  cases stepped_of_step h_step with
  | wait duration => exact h_holds
  | insert command h_found =>
    unfold insert at h_holds
    rw [h_row] at h_holds
    dsimp only at h_holds
    split_ifs at h_holds
    · exact holds_of_leave (by rcases h_found with rfl | rfl <;> rfl) h_holds
    · exact holds_of_leave rfl h_holds
  | readRow answered =>
    rw [readRow, h_row] at h_holds
    dsimp only at h_holds
    rw [if_pos h_completed] at h_holds
    split_ifs at h_holds
    · exact holds_of_leave rfl h_holds
    · exact holds_of_leave rfl h_holds
  | judge =>
    rw [judge] at h_holds
    split_ifs at h_holds
    · exact holds_of_leave rfl h_holds
    · exact holds_of_leave rfl h_holds
  | reclaim command h_phase =>
    unfold reclaim at h_holds
    rw [if_neg] at h_holds
    · exact holds_of_leave rfl h_holds
    · rintro ⟨found, h_found, h_open, -⟩
      rw [h_row] at h_found
      cases h_found
      rw [h_completed] at h_open
      cases h_open
  | handle succeeds h_phase =>
    refine holds_of_goto (fun found h_found => ?_) h_holds
    rw [Sys.Holds, h_phase]
    cases succeeds with
    | true => exact h_found
    | false => exact h_found
  | markCompleted command h_phase =>
    rw [markCompleted] at h_holds
    split_ifs at h_holds
    · exact holds_of_leave rfl h_holds
    · exact holds_of_leave rfl h_holds
  | releaseProcessing command h_phase =>
    rw [releaseProcessing] at h_holds
    split_ifs at h_holds
    · exact holds_of_leave rfl h_holds
    · exact holds_of_leave rfl h_holds
  | crash => exact holds_of_leave rfl h_holds

theorem Inv.noLateClaim (h : Inv s) (h_step : Webhook.step s action = .ok s') : NoLateClaim s s' := by
  intro h_some other claimedAt h_holds
  obtain ⟨row, h_row, h_completed⟩ := h.kept h_some
  exact holds_of_completed h_row h_completed h_step h_holds

theorem ownRelease_of_meets (h_meets : Meets s action) (h_step : step s action = .ok s') :
    OwnRelease s action s' := by
  rintro delivery command rfl
  cases stepped_of_step h_step with
  | releaseProcessing command h_phase =>
    unfold releaseProcessing
    split_ifs with h_applied
    · rw [Sys.goto_row]
      dsimp only
      cases h_row : s.row with
      | none => exact .inl rfl
      | some row =>
        cases h_completed : row.completed with
        | true => exact .inl (by rw [Option.filter_some, if_pos h_completed])
        | false => exact .inr ⟨row, rfl, h_meets ⟨_, h_phase⟩ h_applied row h_row h_completed⟩
    · exact .inl rfl

end

/-! ## Every run -/

/-- What holds of every state of a run, and of every statement in it. -/
structure ProcessedOnce (actions : List Action) : Prop where
  exclusive : ∀ pre, pre <+: actions → Exclusive (Run.final step start pre)
  ownRelease : ∀ pre action post s', actions = pre ++ action :: post →
    step (Run.final step start pre) action = .ok s' → OwnRelease (Run.final step start pre) action s'
  noLateClaim : ∀ pre action post s', actions = pre ++ action :: post →
    step (Run.final step start pre) action = .ok s' → NoLateClaim (Run.final step start pre) s'

theorem inv_of_meets {actions : List Action} (h : Run.Throughout step Meets start actions) :
    Inv (Run.final step start actions) :=
  Run.final_invariant_of_throughout (fun _ _ _ h_inv h_meets h_step => h_inv.step h_meets h_step)
    start_inv h

/-- A first delivery is slow, and a second one takes its claim over after a minute. -/
def takenOver : List Action :=
  [.insert 0 .answered, .wait 60001, .insert 1 .answered, .readRow 1 true, .judge 1,
    .reclaim 1 .answered]

def takenOverCompleted : List Action :=
  takenOver ++ [.handle 1 true, .markCompleted 1 .answered]

/-- The first one fails and releases, and a third one is told to proceed beside the second. -/
def lateRelease : List Action :=
  takenOver ++ [.handle 0 false, .releaseProcessing 0 .answered, .insert 2 .answered]

/-- The second one fails and releases, the first one completes, and a third one is told to
    proceed. -/
def lateCompletion : List Action :=
  takenOver ++ [.handle 1 false, .releaseProcessing 1 .answered, .handle 0 true,
    .markCompleted 0 .answered]

end VyomQuant.Webhook
