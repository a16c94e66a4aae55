/-
  VyomQuant.Execution.IdempotencyKeys

  The keys of the idempotency layer (`core/distributed_idempotency.py`), which say whose
  result a call is answered with.

  A key is the tenant, the venue if there is one, and the client order id, joined by colons.
  It says what stands between the colons and not where one part ends and the next begins, so
  two requests share a key exactly when they have the same fields
  (`generateKey_eq_iff`).  The commands of any number of pods, in any order, answer a request
  from what was stored under its key: with its own result, as long as no two requests of the
  run have the same fields (`answers_own_request`).
-/

import VyomQuant.Lib.Splitting
import VyomQuant.StrategyDag.Schema

namespace VyomQuant.IdempotencyKeys

open StrategyDag (strip)

/-! ## Keys -/

/-- What a call names. -/
structure Request where
  tenantId : String
  exchangeId : Option String
  clientOrderId : String
deriving DecidableEq

/-- `KEY_PREFIX`. -/
def keyPrefix : String := "idempotency"

/-- `_generate_key`: an empty venue is none. -/
def generateKey (r : Request) : String :=
  match r.exchangeId with
  | some exchangeId =>
    if exchangeId ≠ "" then
      keyPrefix ++ ":" ++ r.tenantId ++ ":" ++ exchangeId ++ ":" ++ r.clientOrderId
    else keyPrefix ++ ":" ++ r.tenantId ++ ":" ++ r.clientOrderId
  | none => keyPrefix ++ ":" ++ r.tenantId ++ ":" ++ r.clientOrderId

/-- `SIGNAL_KEY_PREFIX`. -/
def signalKeyPrefix : String := "signal:"

/-- `idempotency_key_for`: `none` is the ValueError of a blank id. -/
def idempotencyKeyFor (signalId : String) : Option String :=
  if strip signalId = "" then none else some (signalKeyPrefix ++ signalId)

/-! ## The store -/

variable {R : Type}

/-- What `store_result` writes. -/
structure Payload (R : Type) where
  result : R
  tenantId : String
  clientOrderId : String
  exchangeId : Option String

def Payload.request (p : Payload R) : Request :=
  { tenantId := p.tenantId, exchangeId := p.exchangeId, clientOrderId := p.clientOrderId }

inductive Stored (R : Type) where
  | processing (owner : ℕ)
  | completed (payload : Payload R)

/-- A request, and the payload it was answered with. -/
structure Answer (R : Type) where
  request : Request
  payload : Payload R

/-- What Redis holds, and the answers so far. -/
structure State (R : Type) where
  entries : String → Option (Stored R)
  answers : List (Answer R)

def State.set (s : State R) (key : String) (stored : Option (Stored R)) : State R :=
  { s with entries := Function.update s.entries key stored }

@[simp] theorem State.set_entries_self (s : State R) (key : String) (stored : Option (Stored R)) :
    (s.set key stored).entries key = stored := Function.update_self ..

theorem State.set_entries_of_ne (s : State R) {key key' : String} (stored : Option (Stored R))
    (h : key' ≠ key) : (s.set key stored).entries key' = s.entries key' := Function.update_of_ne h ..

def State.answer (s : State R) (request : Request) (payload : Payload R) : State R :=
  { s with answers := ⟨request, payload⟩ :: s.answers }

/-- The validation of a cached payload in `check_idempotency`. -/
def passesValidation (request : Request) (payload : Payload R) : Bool :=
  (payload.tenantId = "" || payload.tenantId = request.tenantId) &&
    (payload.clientOrderId = "" || payload.clientOrderId = request.clientOrderId)

/-! ## Commands -/

/-- What a call, or time, does to the store. -/
inductive Command (R : Type) where
  | checkIdempotency (request : Request)
  | atomicCheckAndSet (request : Request) (owner : ℕ)
  | startProcessing (request : Request) (owner : ℕ)
  | releaseProcessingLock (request : Request) (owner : ℕ)
  | storeResult (request : Request) (result : R)
  | expire (key : String)

def checkIdempotency (request : Request) (s : State R) : State R :=
  if request.clientOrderId = "" then s
  else
    match s.entries (generateKey request) with
    | some (.completed payload) =>
      if passesValidation request payload then s.answer request payload else s
    | _ => s

/-- `_atomic_check_and_set`: what is cached is returned as it is. -/
def atomicCheckAndSet (request : Request) (owner : ℕ) (s : State R) : State R :=
  match s.entries (generateKey request) with
  | some (.completed payload) => s.answer request payload
  | some (.processing _) => s
  | none => s.set (generateKey request) (some (.processing owner))

/-- `start_processing`, with `NX`. -/
def startProcessing (request : Request) (owner : ℕ) (s : State R) : State R :=
  match s.entries (generateKey request) with
  | some _ => s
  | none => s.set (generateKey request) (some (.processing owner))

/-- `release_processing_lock`, by its owner. -/
def releaseProcessingLock (request : Request) (owner : ℕ) (s : State R) : State R :=
  match s.entries (generateKey request) with
  | some (.processing holder) => if holder = owner then s.set (generateKey request) none else s
  | _ => s

/-- `store_result`: the payload names the request that it is of. -/
def storeResult (request : Request) (result : R) (s : State R) : State R :=
  s.set (generateKey request) (some (.completed
    { result := result, tenantId := request.tenantId, clientOrderId := request.clientOrderId
      exchangeId := request.exchangeId }))

def step (s : State R) : Command R → State R
  | .checkIdempotency request => checkIdempotency request s
  | .atomicCheckAndSet request owner => atomicCheckAndSet request owner s
  | .startProcessing request owner => startProcessing request owner s
  | .releaseProcessingLock request owner => releaseProcessingLock request owner s
  | .storeResult request result => storeResult request result s
  | .expire key => s.set key none

/-- A store with nothing in it. -/
def start : State R := { entries := fun _ => none, answers := [] }

def run (commands : List (Command R)) : State R := commands.foldl step start

def Command.request? : Command R → Option Request
  | .checkIdempotency request => some request
  | .atomicCheckAndSet request _ => some request
  | .startProcessing request _ => some request
  | .releaseProcessingLock request _ => some request
  | .storeResult request _ => some request
  | .expire _ => none

/-! ## What a key says -/

/-- What stands between the colons of a request. -/
def Request.fields (r : Request) : List (List Char) :=
  Splitting.fields ':' r.tenantId.toList ++
    (match r.exchangeId with
      | some exchangeId => if exchangeId ≠ "" then Splitting.fields ':' exchangeId.toList else []
      | none => []) ++
    Splitting.fields ':' r.clientOrderId.toList

theorem fields_generateKey (r : Request) :
    Splitting.fields ':' (generateKey r).toList = keyPrefix.toList :: r.fields := by
  have h_prefix : Splitting.fields ':' keyPrefix.toList = [keyPrefix.toList] := by decide
  have h_colon : ":".toList = [':'] := rfl
  have h_short : Splitting.fields ':' (keyPrefix ++ ":" ++ r.tenantId ++ ":" ++ r.clientOrderId).toList
      = keyPrefix.toList :: (Splitting.fields ':' r.tenantId.toList
        ++ Splitting.fields ':' r.clientOrderId.toList) := by
    simp only [String.toList_append, h_colon, List.append_assoc, List.cons_append,
      List.nil_append, Splitting.fields_append_cons, h_prefix]
  unfold generateKey Request.fields
  cases r.exchangeId with
  | none => simpa using h_short
  | some exchangeId =>
    by_cases h : exchangeId = ""
    · simpa [h] using h_short
    · simp only [ne_eq, h, not_false_eq_true, if_true, String.toList_append, h_colon,
        List.append_assoc, List.cons_append, List.nil_append, Splitting.fields_append_cons, h_prefix]

theorem generateKey_eq_iff {r r' : Request} : generateKey r = generateKey r' ↔ r.fields = r'.fields := by
  rw [← String.toList_inj, ← (Splitting.fields_injective ':').eq_iff, fields_generateKey,
    fields_generateKey, List.cons_inj_right]

def Apart (r r' : Request) : Prop := r.fields = r'.fields → r = r'

instance (r r' : Request) : Decidable (Apart r r') :=
  inferInstanceAs (Decidable (r.fields = r'.fields → r = r'))

theorem generateKey_injective_iff (r r' : Request) :
    (generateKey r = generateKey r' ↔ r = r') ↔ Apart r r' := by
  rw [generateKey_eq_iff]
  constructor
  · intro h h_fields
    exact h.mp h_fields
  · intro h
    exact ⟨h, fun h_eq => by rw [h_eq]⟩

theorem idempotencyKeyFor_injective {signalId signalId' key : String}
    (h : idempotencyKeyFor signalId = some key) (h' : idempotencyKeyFor signalId' = some key) :
    signalId = signalId' := by
  unfold idempotencyKeyFor at h h'
  split at h
  · cases h
  · split at h'
    · cases h'
    · have h_eq := congrArg String.toList (Option.some.inj (h.trans h'.symm))
      rw [String.toList_append, String.toList_append, List.append_cancel_left_eq] at h_eq
      exact String.toList_inj.mp h_eq

/-! ## What every command preserves -/

/-- What is stored and what is answered belongs to its key, and to a request of `asked`. -/
structure Inv (asked : List Request) (s : State R) : Prop where
  stored : ∀ key payload, s.entries key = some (.completed payload) →
    generateKey payload.request = key ∧ payload.request ∈ asked
  answered : ∀ answer ∈ s.answers, generateKey answer.payload.request = generateKey answer.request ∧
    answer.payload.request ∈ asked ∧ answer.request ∈ asked

namespace Inv

variable {asked : List Request} {s : State R} {request : Request}

theorem set (h : Inv asked s) {key : String} {stored : Option (Stored R)}
    (h_stored : ∀ payload, stored = some (.completed payload) →
      generateKey payload.request = key ∧ payload.request ∈ asked) : Inv asked (s.set key stored) where
  stored := by
    intro key' payload h_entry
    by_cases h_key : key' = key
    · subst h_key
      rw [State.set_entries_self] at h_entry
      exact h_stored payload h_entry
    · rw [State.set_entries_of_ne _ _ h_key] at h_entry
      exact h.stored key' payload h_entry
  answered := h.answered

theorem answer (h : Inv asked s) (h_asked : request ∈ asked) {payload : Payload R}
    (h_entry : s.entries (generateKey request) = some (.completed payload)) :
    Inv asked (s.answer request payload) where
  stored := h.stored
  answered := by
    intro found h_found
    rcases List.mem_cons.mp h_found with rfl | h_past
    · obtain ⟨h_key, h_mem⟩ := h.stored _ _ h_entry
      exact ⟨h_key, h_mem, h_asked⟩
    · exact h.answered found h_past

theorem step (h : Inv asked s) {command : Command R} (h_asked : ∀ r ∈ command.request?, r ∈ asked) :
    Inv asked (step s command) := by
  cases command with
  | checkIdempotency request =>
    show Inv asked (checkIdempotency request s)
    unfold checkIdempotency
    split
    · exact h
    · split
      · rename_i payload h_entry
        split
        · exact h.answer (h_asked request rfl) h_entry
        · exact h
      · exact h
  | atomicCheckAndSet request owner =>
    show Inv asked (atomicCheckAndSet request owner s)
    unfold atomicCheckAndSet
    split
    · rename_i payload h_entry
      exact h.answer (h_asked request rfl) h_entry
    · exact h
    · exact h.set nofun
  | startProcessing request owner =>
    show Inv asked (startProcessing request owner s)
    unfold startProcessing
    split
    · exact h
    · exact h.set nofun
  | releaseProcessingLock request owner =>
    show Inv asked (releaseProcessingLock request owner s)
    unfold releaseProcessingLock
    split
    · split
      · exact h.set nofun
      · exact h
    · exact h
  | storeResult request result =>
    refine h.set fun payload h_payload => ?_
    cases h_payload
    exact ⟨rfl, h_asked request rfl⟩
  | expire key => exact h.set nofun

end Inv

theorem inv_start (asked : List Request) : Inv asked (start : State R) :=
  ⟨nofun, nofun⟩

theorem inv_run {asked : List Request} {commands : List (Command R)}
    (h_asked : ∀ command ∈ commands, ∀ r ∈ command.request?, r ∈ asked) : Inv asked (run commands) := by
  have h_from : ∀ (commands : List (Command R)) (s : State R),
      (∀ command ∈ commands, ∀ r ∈ command.request?, r ∈ asked) → Inv asked s →
        Inv asked (commands.foldl step s) := by
    intro commands
    induction commands with
    | nil => exact fun s _ h => h
    | cons command rest ih =>
      intro s h_all h
      rw [List.forall_mem_cons] at h_all
      exact ih _ h_all.2 (h.step h_all.1)
  exact h_from commands start h_asked (inv_start asked)

/-! ## Whose result a call is answered with -/

def requests (commands : List (Command R)) : List Request := commands.filterMap Command.request?

theorem answers_own_request {commands : List (Command R)}
    (h_apart : ∀ r ∈ requests commands, ∀ r' ∈ requests commands, Apart r r')
    {answer : Answer R} (h_answer : answer ∈ (run commands).answers) :
    answer.payload.request = answer.request := by
  have h_asked : ∀ command ∈ commands, ∀ r ∈ command.request?, r ∈ requests commands :=
    fun command h_command r h_r => List.mem_filterMap.mpr ⟨command, h_command, h_r⟩
  obtain ⟨h_key, h_stored, h_request⟩ := (inv_run h_asked).answered answer h_answer
  exact h_apart _ h_stored _ h_request (generateKey_eq_iff.mp h_key)

/-- Two requests have a key each exactly when their fields tell them apart; signals always
    do; and where the requests of a run are apart, every answer is the request's own. -/
theorem keys_separate_requests :
    (∀ r r' : Request, (generateKey r = generateKey r' ↔ r = r') ↔ Apart r r') ∧
    (∀ signalId signalId' key, idempotencyKeyFor signalId = some key →
      idempotencyKeyFor signalId' = some key → signalId = signalId') ∧
    (∀ commands : List (Command R),
      (∀ r ∈ requests commands, ∀ r' ∈ requests commands, Apart r r') →
        ∀ answer ∈ (run commands).answers, answer.payload.request = answer.request) :=
  ⟨generateKey_injective_iff, fun _ _ _ => idempotencyKeyFor_injective,
    fun _ h_apart _ => answers_own_request h_apart⟩

/-- An order of a signal without a venue, and an order of the venue `signal`. -/
def signalOrder : Request := { tenantId := "t1", exchangeId := none, clientOrderId := "signal:42" }

def venueOrder : Request := { tenantId := "t1", exchangeId := some "signal", clientOrderId := "42" }

/-- The tenant `t1:binance`, and the tenant `t1` at the venue `binance`. -/
def colonTenant : Request := { tenantId := "t1:binance", exchangeId := none, clientOrderId := "o1" }

def plainTenant : Request := { tenantId := "t1", exchangeId := some "binance", clientOrderId := "o1" }

theorem keys_separate_requests_sample :
    (run [.storeResult signalOrder 7, .atomicCheckAndSet signalOrder 1,
      .atomicCheckAndSet plainTenant 2]).answers.map (fun answer => answer.payload.request)
        = [signalOrder] ∧
    ∀ answer ∈ (run [.storeResult signalOrder 7, .atomicCheckAndSet signalOrder 1,
      .atomicCheckAndSet plainTenant 2]).answers, answer.payload.request = answer.request := by
  refine ⟨by decide, @keys_separate_requests ℕ |>.2.2 _ ?_⟩
  decide

theorem keys_separate_requests_divergence :
    generateKey colonTenant = generateKey plainTenant ∧ colonTenant ≠ plainTenant ∧
    generateKey signalOrder = generateKey venueOrder ∧ signalOrder ≠ venueOrder ∧
    ∃ answer ∈ (run [.storeResult colonTenant 7, .atomicCheckAndSet plainTenant 1]).answers,
      answer.payload.request = colonTenant ∧ answer.request = plainTenant :=
  ⟨by decide, by decide, by decide, by decide, ⟨plainTenant, ⟨7, "t1:binance", "o1", none⟩⟩,
    List.mem_singleton.mpr (by rfl), rfl, rfl⟩

end VyomQuant.IdempotencyKeys
