/-
  VyomQuant.Paper.OrderState

  The state machine of a paper order (`paper_order_state.py`): six states, the
  permitted transitions, the terminal states and the retained legacy status.

  The table the code holds (`PAPER_ORDER_TRANSITIONS`) is `transitions`; a fill is
  admitted from the two states that are on the book, which are exactly the states
  whose legacy status is `OPEN` (`legacyStatus_eq_open_iff`).
-/

namespace VyomQuant.Paper

/-- `PaperOrderState`. -/
inductive OrderState where
  | created
  | accepted
  | partiallyFilled
  | filled
  | cancelled
  | rejected
deriving DecidableEq

/-- The retained `PaperOrderStatus` spellings. -/
inductive LegacyStatus where
  | new
  | open
  | filled
  | cancelled
  | rejected
deriving DecidableEq

namespace OrderState

/-- `PAPER_ORDER_TRANSITIONS`. -/
def transitions : OrderState → List OrderState
  | .created => [.accepted, .rejected]
  | .accepted => [.partiallyFilled, .filled, .cancelled, .rejected]
  | .partiallyFilled => [.partiallyFilled, .filled, .cancelled]
  | .filled => []
  | .cancelled => []
  | .rejected => []

/-- `can_transition`. -/
def canTransition (current target : OrderState) : Prop :=
  target ∈ current.transitions

instance (current target : OrderState) : Decidable (current.canTransition target) :=
  inferInstanceAs (Decidable (_ ∈ _))

/-- `is_terminal`. -/
def isTerminal : OrderState → Bool
  | .filled | .cancelled | .rejected => true
  | .created | .accepted | .partiallyFilled => false

/-- `LEGACY_STATUS_FOR_STATE`. -/
def legacyStatus : OrderState → LegacyStatus
  | .created => .new
  | .accepted => .open
  | .partiallyFilled => .open
  | .filled => .filled
  | .cancelled => .cancelled
  | .rejected => .rejected

theorem isTerminal_iff (state : OrderState) :
    state.isTerminal = true ↔ ∀ target, ¬ state.canTransition target := by
  cases state with
  | created => exact ⟨nofun, fun h => absurd (by decide) (h .accepted)⟩
  | accepted => exact ⟨nofun, fun h => absurd (by decide) (h .filled)⟩
  | partiallyFilled => exact ⟨nofun, fun h => absurd (by decide) (h .filled)⟩
  | filled => simp [isTerminal, canTransition, transitions]
  | cancelled => simp [isTerminal, canTransition, transitions]
  | rejected => simp [isTerminal, canTransition, transitions]

theorem legacyStatus_eq_open_iff {state : OrderState} :
    state.legacyStatus = .open ↔ state = .accepted ∨ state = .partiallyFilled := by
  cases state <;> decide

end OrderState

end VyomQuant.Paper
