/-
  VyomQuant.Marketplace.PayoutSweep

  `CreatorPayoutScheduler._run_sweep`: the sweep row is inserted, the owners with a
  settlement are listed, `create_creator_payout` is called for each of the first
  `max_owners_per_sweep` of them, and the row is marked finished.

  A failed listing counts as an empty one and a failed call is passed over, so the mark says
  that the loop was left and not that every owner was reached.  `Unhindered` is what has to
  be known besides the mark.
-/

import VyomQuant.Lib.Conversation
import VyomQuant.Marketplace.CreatorPayouts

namespace VyomQuant.Marketplace.CreatorPayouts

open Program

/-! ## The statements of a sweep -/

/-- One row of `marketplace_creator_payout_sweeps`. -/
structure SweepRow where
  id : String
  finishedAt : Option Instant
  ownersProcessed : ℕ
  payoutsCreated : ℕ

structure SweepStore where
  payouts : PayoutStore
  sweeps : KeyedList SweepRow.id

inductive SweepOp where
  | insertSweep (id : String)
  | listOwnerIds
  | createCreatorPayout (args : CreatePayoutArgs)
  | finishSweep (id : String) (finishedAt : Instant) (ownersProcessed payoutsCreated : ℕ)

/-- `insertSweep` answers the id of the row it returns, if it returns one. -/
def SweepRes : SweepOp → Type
  | .insertSweep _ => Option String
  | .listOwnerIds => List String
  | .createCreatorPayout _ => List PayoutRow
  | .finishSweep .. => Unit

/-- The `owner_id` column of the ledger. -/
def ownerColumn (s : SweepStore) : List String :=
  s.payouts.settlements.items.map fun row => row.ownerId

/-- `order` is the order in which the database returns the rows of a listing. -/
def handleSweep (order : List String → List String) : Handler SweepRes PayoutError SweepStore
  | .insertSweep id, s =>
    if ∃ stored ∈ s.sweeps.items, stored.id = id then (.error .uniqueViolation, s)
    else (.ok (some id), { s with sweeps := s.sweeps.put ⟨id, none, 0, 0⟩ })
  | .listOwnerIds, s => (.ok (order (ownerColumn s)), s)
  | .createCreatorPayout args, s =>
    match createCreatorPayout s.payouts args with
    | .ok (rows, payouts) => (.ok rows, { s with payouts })
    | .error e => (.error e, s)
  | .finishSweep id finishedAt ownersProcessed payoutsCreated, s =>
    match s.sweeps.get? id with
    | some row => (.ok (), { s with
        sweeps := s.sweeps.put
          { row with finishedAt := some finishedAt, ownersProcessed, payoutsCreated } })
    | none => (.ok (), s)

/-! ## The sweep -/

/-- What one sweep is run with: its limit, the clock, and the ids that are generated. -/
structure SweepCall where
  maxOwners : ℕ
  sweepId : String
  periodStart : Instant
  periodEnd : Instant
  finishedAt : Instant
  payoutId : String → Currency → String

abbrev Sweeping (α : Type) := Program SweepRes PayoutError α

/-- `_distinct_owner_ids`: `seen` with the owners it does not have yet, in turn. -/
def collectOwners (seen : List String) : List String → List String
  | [] => seen
  | ownerId :: rest =>
    if ownerId ≠ "" ∧ ownerId ∉ seen then collectOwners (seen ++ [ownerId]) rest
    else collectOwners seen rest

def distinctOwnerIds (rows : List String) : List String := collectOwners [] rows

/-- The arguments of the call made for an owner. -/
def payoutArgs (call : SweepCall) (ownerId : String) : CreatePayoutArgs where
  ownerId := some ownerId
  periodStart := some call.periodStart
  periodEnd := some call.periodEnd
  newId := call.payoutId ownerId

/-- The owners processed and the payouts created so far, after one more owner. -/
def payOwner (sweep : SweepCall) (counts : ℕ × ℕ) (ownerId : String) : Sweeping (ℕ × ℕ) :=
  call (.createCreatorPayout (payoutArgs sweep ownerId)) fun
    | .ok rows => ret (counts.1 + 1, counts.2 + rows.length)
    | .error _ => ret (counts.1 + 1, counts.2)

/-- The owners to be paid; none when they could not be listed. -/
def listedOwners : Sweeping (List String) :=
  call .listOwnerIds fun
    | .ok rows => ret (distinctOwnerIds rows)
    | .error _ => ret []

def finishSweep (sweep : SweepCall) (sweepId : Option String) (counts : ℕ × ℕ) : Sweeping Unit :=
  match sweepId with
  | none => ret ()
  | some id => call (.finishSweep id sweep.finishedAt counts.1 counts.2) fun _ => ret ()

/-- `_run_sweep`. -/
def runSweep (sweep : SweepCall) : Sweeping Unit :=
  call (.insertSweep sweep.sweepId) fun
    | .error _ => ret ()
    | .ok sweepId =>
      listedOwners.bind fun ownerIds =>
        ((ownerIds.take sweep.maxOwners).foldlM (payOwner sweep) (0, 0)).bind
          (finishSweep sweep sweepId)

/-! ## What a sweep reports and what it did -/

abbrev SweepTrace := List (Exchange SweepRes PayoutError)

/-- An owner with at least one settlement.  The column is a UUID and never blank. -/
def IsOwner (s : SweepStore) (ownerId : String) : Prop :=
  ownerId ≠ "" ∧ ownerId ∈ ownerColumn s

/-- The call made for an owner, whatever came of it. -/
def Attempted (sweep : SweepCall) (trace : SweepTrace) (ownerId : String) : Prop :=
  ∃ exchange ∈ trace, exchange.op = .createCreatorPayout (payoutArgs sweep ownerId)

/-- The call made for an owner was answered. -/
def Paid (sweep : SweepCall) (trace : SweepTrace) (ownerId : String) : Prop :=
  ∃ rows, ⟨.createCreatorPayout (payoutArgs sweep ownerId), .ok rows⟩ ∈ trace

/-- A sweep whose own row is marked finished. -/
structure CompletedSweep where
  order : List String → List String
  order_perm : ∀ rows, (order rows).Perm rows
  sweep : SweepCall
  start : SweepStore
  final : SweepStore
  trace : SweepTrace
  result : Option (Except PayoutError Unit)
  conducts : Conducts (handleSweep order) (runSweep sweep) start trace result final
  finished : ∃ row ∈ final.sweeps.items, row.finishedAt ≠ none ∧
    ∀ stored ∈ start.sweeps.items, stored.id ≠ row.id

/-! ## The owners of a listing -/

variable {rows : List String} {ownerId : String}

theorem mem_collectOwners {seen : List String} :
    ownerId ∈ collectOwners seen rows ↔ ownerId ∈ seen ∨ (ownerId ≠ "" ∧ ownerId ∈ rows) := by
  induction rows generalizing seen with
  | nil => simp [collectOwners]
  | cons first rest ih =>
    rw [collectOwners]
    split
    · rename_i h_new
      rw [ih, List.mem_append, List.mem_singleton, List.mem_cons]
      constructor
      · rintro ((h | rfl) | ⟨h_id, h⟩)
        · exact Or.inl h
        · exact Or.inr ⟨h_new.1, Or.inl rfl⟩
        · exact Or.inr ⟨h_id, Or.inr h⟩
      · rintro (h | ⟨h_id, rfl | h⟩)
        · exact Or.inl (Or.inl h)
        · exact Or.inl (Or.inr rfl)
        · exact Or.inr ⟨h_id, h⟩
    · rename_i h_old
      rw [ih, List.mem_cons]
      constructor
      · rintro (h | ⟨h_id, h⟩)
        · exact Or.inl h
        · exact Or.inr ⟨h_id, Or.inr h⟩
      · rintro (h | ⟨h_id, rfl | h⟩)
        · exact Or.inl h
        · refine Or.inl ?_
          by_contra h_unseen
          exact h_old ⟨h_id, h_unseen⟩
        · exact Or.inr ⟨h_id, h⟩

theorem nodup_collectOwners {seen : List String} (h : seen.Nodup) :
    (collectOwners seen rows).Nodup := by
  induction rows generalizing seen with
  | nil => exact h
  | cons first rest ih =>
    rw [collectOwners]
    split
    · rename_i h_new
      apply ih
      rw [List.nodup_append]
      refine ⟨h, List.nodup_singleton _, ?_⟩
      rintro ownerId h_mem _ h_eq rfl
      rw [List.mem_singleton] at h_eq
      exact h_new.2 (h_eq ▸ h_mem)
    · exact ih h

@[simp] theorem mem_distinctOwnerIds :
    ownerId ∈ distinctOwnerIds rows ↔ ownerId ≠ "" ∧ ownerId ∈ rows := by
  simp [distinctOwnerIds, mem_collectOwners]

theorem nodup_distinctOwnerIds (rows : List String) : (distinctOwnerIds rows).Nodup :=
  nodup_collectOwners List.nodup_nil

theorem length_distinctOwnerIds_perm {rows' : List String} (h : rows'.Perm rows) :
    (distinctOwnerIds rows').length = (distinctOwnerIds rows).length := by
  apply List.Perm.length_eq
  rw [List.perm_ext_iff_of_nodup (nodup_distinctOwnerIds _) (nodup_distinctOwnerIds _)]
  intro ownerId
  rw [mem_distinctOwnerIds, mem_distinctOwnerIds, h.mem_iff]

/-! ## The conversation of a completed sweep -/

variable {order : List String → List String}

@[simp] theorem ownerColumn_insertSweep (s : SweepStore) (id : String) :
    ownerColumn (handleSweep order (.insertSweep id) s).2 = ownerColumn s := by
  dsimp only [handleSweep]
  split <;> rfl

/-- The rows a sweep finds marked are rows it did not insert. -/
def OthersFinished (start s : SweepStore) : Prop :=
  ∀ row ∈ s.sweeps.items, row.finishedAt ≠ none → ∃ stored ∈ start.sweeps.items, stored.id = row.id

theorem OthersFinished.handleSweep {start s : SweepStore} (h : OthersFinished start s)
    {op : SweepOp} (h_op : ∀ id finishedAt processed created,
      op ≠ .finishSweep id finishedAt processed created) :
    OthersFinished start (CreatorPayouts.handleSweep order op s).2 := by
  cases op with
  | insertSweep id =>
    dsimp only [CreatorPayouts.handleSweep]
    split
    · exact h
    · intro row h_row h_finished
      rcases KeyedList.mem_put h_row with rfl | ⟨h_old, _⟩
      · exact absurd rfl h_finished
      · exact h row h_old h_finished
  | listOwnerIds => exact h
  | createCreatorPayout args =>
    dsimp only [CreatorPayouts.handleSweep]
    split
    · exact h
    · exact h
  | finishSweep id finishedAt processed created => exact absurd rfl (h_op _ _ _ _)

theorem CompletedSweep.finish_mem (c : CompletedSweep) :
    ∃ exchange ∈ c.trace, ∃ id finishedAt processed created,
      exchange.op = .finishSweep id finishedAt processed created := by
  by_contra h_none
  have h_init : OthersFinished c.start c.start := fun row h_row _ => ⟨row, h_row, rfl⟩
  have h_final : OthersFinished c.start c.final := by
    refine c.conducts.invariant (fun exchange h_mem s h => h.handleSweep ?_) h_init
    intro id finishedAt processed created h_op
    exact h_none ⟨exchange, h_mem, id, finishedAt, processed, created, h_op⟩
  obtain ⟨row, h_row, h_finished, h_own⟩ := c.finished
  obtain ⟨stored, h_stored, h_id⟩ := h_final row h_row h_finished
  exact h_own stored h_stored h_id

theorem payOwners_conducts {sweep : SweepCall} {owners : List String} {counts : ℕ × ℕ}
    {next : ℕ × ℕ → Sweeping Unit} {s t : SweepStore} {trace : SweepTrace}
    {r : Option (Except PayoutError Unit)}
    (h : Conducts (handleSweep order) ((owners.foldlM (payOwner sweep) counts).bind next) s
      trace r t) :
    (∃ calls rest counts' s₁, trace = calls ++ rest ∧
      (calls.map fun exchange => exchange.op)
        = owners.map (fun ownerId => .createCreatorPayout (payoutArgs sweep ownerId)) ∧
      Conducts (handleSweep order) (next counts') s₁ rest r t) ∨
    ∀ exchange ∈ trace, ∃ ownerId, exchange.op = .createCreatorPayout (payoutArgs sweep ownerId) := by
  induction owners generalizing counts s trace with
  | nil => exact Or.inl ⟨[], trace, counts, s, rfl, rfl, h⟩
  | cons ownerId rest ih =>
    rw [List.foldlM_cons, bind_eq_bind, Program.bind_assoc, payOwner, call_bind] at h
    rcases h.call_cases with ⟨rfl, _, _⟩ | ⟨answer, trace', s₁, rfl, _, _, h_next⟩
    · exact Or.inr (fun exchange h_mem => absurd h_mem List.not_mem_nil)
    have h_rest : ∃ counts', Conducts (handleSweep order)
        ((rest.foldlM (payOwner sweep) counts').bind next) s₁ trace' r t := by
      cases answer with
      | ok rows => exact ⟨_, h_next⟩
      | error e => exact ⟨_, h_next⟩
    obtain ⟨counts', h_rest⟩ := h_rest
    rcases ih h_rest with ⟨calls, last, counts'', s₂, rfl, h_calls, h_last⟩ | h_died
    · refine Or.inl ⟨_ :: calls, last, counts'', s₂, rfl, ?_, h_last⟩
      rw [List.map_cons, List.map_cons, h_calls]
    · refine Or.inr fun exchange h_mem => ?_
      rcases List.mem_cons.mp h_mem with rfl | h_mem
      · exact ⟨ownerId, rfl⟩
      · exact h_died exchange h_mem

/-- The owners a sweep goes on with. -/
def ownersOf : Except PayoutError (List String) → List String
  | .ok rows => distinctOwnerIds rows
  | .error _ => []

/-- What a completed sweep said: the insert, the listing, one call for each of the first
    owners, and the mark. -/
structure SweepShape (c : CompletedSweep) where
  sweepId : Option String
  listing : Except PayoutError (List String)
  calls : SweepTrace
  last : SweepTrace
  trace_eq : c.trace = ⟨.insertSweep c.sweep.sweepId, .ok sweepId⟩ ::
    ⟨.listOwnerIds, listing⟩ :: (calls ++ last)
  listing_eq : ∀ rows, listing = .ok rows → rows = c.order (ownerColumn c.start)
  calls_eq : (calls.map fun exchange => exchange.op)
    = ((ownersOf listing).take c.sweep.maxOwners).map
        fun ownerId => .createCreatorPayout (payoutArgs c.sweep ownerId)
  last_eq : ∀ exchange ∈ last, ∃ id finishedAt processed created,
    exchange.op = .finishSweep id finishedAt processed created

theorem CompletedSweep.shape (c : CompletedSweep) : Nonempty (SweepShape c) := by
  obtain ⟨marked, h_marked, id, finishedAt, processed, created, h_op⟩ := c.finish_mem
  rcases c.conducts.call_cases with ⟨h_trace, _, _⟩ | ⟨answer, trace₁, s₁, h_trace, h_s₁, _, h₁⟩
  · rw [h_trace] at h_marked
    cases h_marked
  have h_mem₁ : marked ∈ trace₁ := by
    rw [h_trace] at h_marked
    rcases List.mem_cons.mp h_marked with rfl | h_mem
    · cases h_op
    · exact h_mem
  cases answer with
  | error e =>
    rw [h₁.ret_cases.1] at h_mem₁
    cases h_mem₁
  | ok sweepId =>
    have h_owners : ownerColumn s₁ = ownerColumn c.start := by
      rcases h_s₁ with rfl | rfl
      · rfl
      · exact ownerColumn_insertSweep _ _
    dsimp only [listedOwners] at h₁
    rw [call_bind] at h₁
    rcases h₁.call_cases with ⟨h_nil, _, _⟩ | ⟨listing, trace₂, s₂, h_trace₁, _, h_answer, h₂⟩
    · rw [h_nil] at h_mem₁
      cases h_mem₁
    have h_mem₂ : marked ∈ trace₂ := by
      rw [h_trace₁] at h_mem₁
      rcases List.mem_cons.mp h_mem₁ with rfl | h_mem
      · cases h_op
      · exact h_mem
    have h₂ : Conducts (handleSweep c.order)
        ((((ownersOf listing).take c.sweep.maxOwners).foldlM (payOwner c.sweep) (0, 0)).bind
          (finishSweep c.sweep sweepId)) s₂ trace₂ c.result c.final := by
      cases listing with
      | ok rows => exact h₂
      | error e => exact h₂
    rcases payOwners_conducts h₂ with ⟨calls, last, counts, s₃, h_trace₂, h_calls, h_last⟩ | h_died
    · refine ⟨⟨sweepId, listing, calls, last, ?_, ?_, h_calls, ?_⟩⟩
      · rw [h_trace, h_trace₁, h_trace₂]
      · intro rows h_rows
        have h_eq := Except.ok.inj (h_answer rows h_rows)
        rw [← h_eq, h_owners]
      · intro exchange h_mem
        unfold finishSweep at h_last
        cases sweepId with
        | none =>
          rw [h_last.ret_cases.1] at h_mem
          cases h_mem
        | some id =>
          rcases h_last.call_cases with ⟨h_nil, _, _⟩ | ⟨_, rest, _, h_cons, _, _, h_end⟩
          · rw [h_nil] at h_mem
            cases h_mem
          · rw [h_cons, h_end.ret_cases.1, List.mem_singleton] at h_mem
            exact ⟨_, _, _, _, by rw [h_mem]⟩
    · obtain ⟨ownerId, h_create⟩ := h_died marked h_mem₂
      rw [h_op] at h_create
      cases h_create

/-! ## Which owners a completed sweep reached -/

theorem payoutArgs_inj {sweep : SweepCall} {ownerId' : String}
    (h : payoutArgs sweep ownerId = payoutArgs sweep ownerId') : ownerId = ownerId' :=
  Option.some.inj (congrArg CreatePayoutArgs.ownerId h)

namespace SweepShape

variable {c : CompletedSweep} (shape : SweepShape c)

include shape

variable {exchange : Exchange SweepRes PayoutError}

theorem mem_calls {args : CreatePayoutArgs} (h_mem : exchange ∈ c.trace)
    (h_op : exchange.op = .createCreatorPayout args) : exchange ∈ shape.calls := by
  rw [shape.trace_eq] at h_mem
  rcases List.mem_cons.mp h_mem with rfl | h_mem
  · cases h_op
  rcases List.mem_cons.mp h_mem with rfl | h_mem
  · cases h_op
  rcases List.mem_append.mp h_mem with h_call | h_last
  · exact h_call
  · obtain ⟨_, _, _, _, h_finish⟩ := shape.last_eq exchange h_last
    rw [h_op] at h_finish
    cases h_finish

theorem calls_subset (h : exchange ∈ shape.calls) : exchange ∈ c.trace := by
  rw [shape.trace_eq]
  exact List.mem_cons_of_mem _ (List.mem_cons_of_mem _ (List.mem_append_left _ h))

theorem listing_mem : ⟨.listOwnerIds, shape.listing⟩ ∈ c.trace := by
  rw [shape.trace_eq]
  exact List.mem_cons_of_mem _ List.mem_cons_self

theorem attempted_iff :
    Attempted c.sweep c.trace ownerId
      ↔ ownerId ∈ (ownersOf shape.listing).take c.sweep.maxOwners := by
  constructor
  · rintro ⟨exchange, h_mem, h_op⟩
    have h_call := List.mem_map_of_mem (f := fun exchange => exchange.op)
      (shape.mem_calls h_mem h_op)
    rw [shape.calls_eq, List.mem_map] at h_call
    obtain ⟨ownerId', h_owner, h_eq⟩ := h_call
    rw [h_op, SweepOp.createCreatorPayout.injEq] at h_eq
    exact payoutArgs_inj h_eq ▸ h_owner
  · intro h_owner
    have h_call : SweepOp.createCreatorPayout (payoutArgs c.sweep ownerId)
        ∈ shape.calls.map fun exchange => exchange.op := by
      rw [shape.calls_eq]
      exact List.mem_map_of_mem h_owner
    obtain ⟨exchange, h_mem, h_op⟩ := List.mem_map.mp h_call
    exact ⟨exchange, shape.calls_subset h_mem, h_op⟩

theorem answered_of_paid (h_mem : exchange ∈ c.trace)
    (h_op : exchange.op = .createCreatorPayout (payoutArgs c.sweep ownerId))
    (h_paid : Paid c.sweep c.trace ownerId) : ∃ rows, exchange.answer = .ok rows := by
  have h_nodup : (shape.calls.map fun exchange => exchange.op).Nodup := by
    rw [shape.calls_eq]
    apply List.Nodup.map
    · intro owner owner' h_eq
      exact payoutArgs_inj (SweepOp.createCreatorPayout.inj h_eq)
    · have h_owners : (ownersOf shape.listing).Nodup := by
        cases shape.listing with
        | ok rows => exact nodup_distinctOwnerIds rows
        | error e => exact List.nodup_nil
      exact h_owners.sublist (List.take_sublist _ _)
  obtain ⟨rows, h_ok⟩ := h_paid
  have h_eq := List.inj_on_of_nodup_map h_nodup (shape.mem_calls h_mem h_op)
    (shape.mem_calls h_ok rfl) h_op
  rw [h_eq]
  exact ⟨rows, rfl⟩

theorem listing_order (h : shape.listing = .ok rows) : rows.Perm (ownerColumn c.start) := by
  rw [shape.listing_eq rows h]
  exact c.order_perm _

end SweepShape

theorem paid_of_attempted {c : CompletedSweep} (h : Attempted c.sweep c.trace ownerId)
    (h_answered : ∀ exchange ∈ c.trace, ∀ args, exchange.op = .createCreatorPayout args → ∃ rows, exchange.answer = .ok rows) :
    Paid c.sweep c.trace ownerId := by
  obtain ⟨⟨op, answer⟩, h_mem, h_op⟩ := h
  have h_op : op = .createCreatorPayout (payoutArgs c.sweep ownerId) := h_op
  subst h_op
  obtain ⟨rows, h_ok⟩ := h_answered _ h_mem _ rfl
  have h_ok : answer = .ok rows := h_ok
  exact ⟨rows, h_ok ▸ h_mem⟩

/-! ## Completeness -/

/-- Nothing stood between the sweep and its owners: the listing and every call were
    answered, and there are no more owners than one sweep takes. -/
def Unhindered (c : CompletedSweep) : Prop :=
  (distinctOwnerIds (ownerColumn c.start)).length ≤ c.sweep.maxOwners ∧
    (∀ exchange ∈ c.trace, exchange.op = .listOwnerIds → ∃ rows, exchange.answer = .ok rows) ∧
    ∀ exchange ∈ c.trace, ∀ args, exchange.op = .createCreatorPayout args →
      ∃ rows, exchange.answer = .ok rows

/-- The owner is among the first that the sweep's listing returned. -/
def InReach (c : CompletedSweep) (ownerId : String) : Prop :=
  ∃ rows, ⟨.listOwnerIds, .ok rows⟩ ∈ c.trace ∧
    ownerId ∈ (distinctOwnerIds rows).take c.sweep.maxOwners

theorem CompletedSweep.paid_iff (c : CompletedSweep) :
    (∀ ownerId, IsOwner c.start ownerId → Paid c.sweep c.trace ownerId)
      ↔ (∀ ownerId, ¬ IsOwner c.start ownerId) ∨ Unhindered c := by
  obtain ⟨shape⟩ := c.shape
  constructor
  · intro h_paid
    by_cases h_some : ∃ ownerId, IsOwner c.start ownerId
    · obtain ⟨ownerId, h_owner⟩ := h_some
      have h_reached : ∀ ownerId, IsOwner c.start ownerId →
          ownerId ∈ (ownersOf shape.listing).take c.sweep.maxOwners := by
        intro ownerId h_owner
        obtain ⟨rows, h_mem⟩ := h_paid ownerId h_owner
        exact shape.attempted_iff.mp ⟨_, h_mem, rfl⟩
      -- The listing was answered, or nobody would have been called.
      obtain ⟨rows, h_rows⟩ : ∃ rows, shape.listing = .ok rows := by
        cases h_listing : shape.listing with
        | ok rows => exact ⟨rows, rfl⟩
        | error e =>
          have h_nobody := h_reached ownerId h_owner
          rw [h_listing] at h_nobody
          simp [ownersOf] at h_nobody
      refine Or.inr ⟨?_, ?_, ?_⟩
      · have h_subset : distinctOwnerIds (ownerColumn c.start)
            ⊆ (ownersOf shape.listing).take c.sweep.maxOwners := fun ownerId h_mem =>
          h_reached ownerId (mem_distinctOwnerIds.mp h_mem)
        have h_le := (List.subperm_of_subset (nodup_distinctOwnerIds _) h_subset).length_le
        rw [List.length_take] at h_le
        omega
      · intro exchange h_mem h_op
        rw [shape.trace_eq] at h_mem
        rcases List.mem_cons.mp h_mem with rfl | h_mem
        · cases h_op
        rcases List.mem_cons.mp h_mem with rfl | h_mem
        · exact ⟨rows, h_rows⟩
        rcases List.mem_append.mp h_mem with h_call | h_last
        · have h_create := List.mem_map_of_mem (f := fun exchange => exchange.op) h_call
          rw [shape.calls_eq, List.mem_map] at h_create
          obtain ⟨_, _, h_eq⟩ := h_create
          rw [h_op] at h_eq
          cases h_eq
        · obtain ⟨_, _, _, _, h_finish⟩ := shape.last_eq exchange h_last
          rw [h_op] at h_finish
          cases h_finish
      · intro exchange h_mem args h_op
        have h_call := List.mem_map_of_mem (f := fun exchange => exchange.op)
          (shape.mem_calls h_mem h_op)
        rw [shape.calls_eq, List.mem_map] at h_call
        obtain ⟨ownerId', h_taken, h_eq⟩ := h_call
        have h_listed : ownerId' ∈ distinctOwnerIds rows := by
          rw [h_rows] at h_taken
          exact List.mem_of_mem_take h_taken
        rw [mem_distinctOwnerIds, (shape.listing_order h_rows).mem_iff] at h_listed
        exact shape.answered_of_paid h_mem h_eq.symm (h_paid ownerId' h_listed)
    · exact Or.inl fun ownerId h_owner => h_some ⟨ownerId, h_owner⟩
  · rintro (h_nobody | ⟨h_few, h_listing, h_answered⟩) ownerId h_owner
    · exact absurd h_owner (h_nobody ownerId)
    · have h_listed : ∃ rows : List String, shape.listing = .ok rows :=
        h_listing _ shape.listing_mem rfl
      obtain ⟨rows, h_rows⟩ := h_listed
      apply paid_of_attempted _ h_answered
      rw [shape.attempted_iff, h_rows]
      have h_order := shape.listing_order h_rows
      have h_all : (distinctOwnerIds rows).length ≤ c.sweep.maxOwners := by
        rwa [length_distinctOwnerIds_perm h_order]
      show ownerId ∈ (distinctOwnerIds rows).take c.sweep.maxOwners
      rw [List.take_of_length_le h_all, mem_distinctOwnerIds]
      exact ⟨h_owner.1, h_order.mem_iff.mpr h_owner.2⟩

theorem CompletedSweep.attempted_iff (c : CompletedSweep) (ownerId : String) :
    Attempted c.sweep c.trace ownerId ↔ InReach c ownerId := by
  obtain ⟨shape⟩ := c.shape
  rw [shape.attempted_iff]
  constructor
  · intro h_taken
    cases h_listing : shape.listing with
    | ok rows =>
      rw [h_listing] at h_taken
      exact ⟨rows, h_listing ▸ shape.listing_mem, h_taken⟩
    | error e =>
      rw [h_listing] at h_taken
      simp [ownersOf] at h_taken
  · rintro ⟨rows, h_mem, h_taken⟩
    have h_listing : shape.listing = .ok rows := by
      rw [shape.trace_eq] at h_mem
      rcases List.mem_cons.mp h_mem with h_eq | h_mem
      · cases h_eq
      rcases List.mem_cons.mp h_mem with h_eq | h_mem
      · injection h_eq with _ h_answer
        exact h_answer.symm
      rcases List.mem_append.mp h_mem with h_call | h_last
      · have h_create := List.mem_map_of_mem (f := fun exchange => exchange.op) h_call
        rw [shape.calls_eq, List.mem_map] at h_create
        obtain ⟨_, _, h_eq⟩ := h_create
        cases h_eq
      · obtain ⟨_, _, _, _, h_finish⟩ := shape.last_eq _ h_last
        cases h_finish
    rw [h_listing]
    exact h_taken

/-- A completed sweep paid every owner exactly when nothing stood in its way, and a sequence of
    completed sweeps attempts exactly the owners that are in reach of one of them. -/
theorem payout_sweeps_complete_iff (sweeps : ℕ → CompletedSweep) :
    ((∀ n ownerId, IsOwner (sweeps n).start ownerId →
        Paid (sweeps n).sweep (sweeps n).trace ownerId)
      ↔ ∀ n, (∀ ownerId, ¬ IsOwner (sweeps n).start ownerId) ∨ Unhindered (sweeps n)) ∧
    ((∀ ownerId, (∀ n, IsOwner (sweeps n).start ownerId) →
        ∃ n, Attempted (sweeps n).sweep (sweeps n).trace ownerId)
      ↔ ∀ ownerId, (∀ n, IsOwner (sweeps n).start ownerId) → ∃ n, InReach (sweeps n) ownerId) := by
  constructor
  · exact forall_congr' fun n => (sweeps n).paid_iff
  · simp only [CompletedSweep.attempted_iff]

/-! ## A listing that fails -/

def weeklySweep : SweepCall where
  maxOwners := 5000
  sweepId := "sweep"
  periodStart := payday
  periodEnd := payday
  finishedAt := payday
  payoutId := fun _ _ => "payout"

def onePayment : SweepStore where
  payouts := Run.final payoutStep .empty [.insertSettlement sharedPayment]
  sweeps := .empty

/-- The sweep whose second statement, the listing, fails. -/
def unlistedSweep : SweepTrace × Except PayoutError Unit × SweepStore :=
  (runSweep weeklySweep).transcript (handleSweep fun rows => rows)
    (fun n => if n = 1 then some .connectionLost else none) 0 onePayment

/-- The row is marked finished and the only owner was not even called. -/
theorem unlisted_sweep_finishes :
    ¬ ∀ c : CompletedSweep, ∀ ownerId, IsOwner c.start ownerId →
      Paid c.sweep c.trace ownerId := by
  intro h
  have h_conducts : Conducts (handleSweep fun rows => rows) (runSweep weeklySweep) onePayment
      unlistedSweep.1 (some unlistedSweep.2.1) unlistedSweep.2.2 := conducts_transcript _ _ _ _
  have h_owner : IsOwner onePayment "owner" := ⟨by decide, by decide +kernel⟩
  obtain ⟨rows, h_mem⟩ := h {
    order := fun rows => rows
    order_perm := fun _ => List.Perm.refl _
    sweep := weeklySweep
    start := onePayment
    final := unlistedSweep.2.2
    trace := unlistedSweep.1
    result := some unlistedSweep.2.1
    conducts := h_conducts
    finished := by decide +kernel } "owner" h_owner
  have h_ops : (unlistedSweep.1.map fun exchange => exchange.op)
      = [.insertSweep "sweep", .listOwnerIds, .finishSweep "sweep" payday 0 0] := rfl
  have h_op : .createCreatorPayout (payoutArgs weeklySweep "owner")
      ∈ unlistedSweep.1.map fun exchange => exchange.op := List.mem_map_of_mem h_mem
  rw [h_ops] at h_op
  simp at h_op

end VyomQuant.Marketplace.CreatorPayouts
