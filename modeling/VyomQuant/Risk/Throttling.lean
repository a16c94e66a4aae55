/-
  VyomQuant.Risk.Throttling

  The pre-trade throttle over whole sequences of requests, the clock never going back.

  What the throttle keeps is read only through the cutoff, so its verdict is a function of
  the requests that passed (`Records.throttleRefusal_eq`).  From there on the limits are
  facts about that history (`throttle_law`).
-/

import VyomQuant.Risk.Monotonicity

namespace VyomQuant.Risk

open SlidingWindow (Tracks Admitted)

variable {α : Type} [Figure α] {m : Manager α} {s : Throttle} {passed : List (Call α)} {clock : ℚ}
  {call : Call α}

/-! ## Runs -/

def throttleAfter (m : Manager α) (s : Throttle) (calls : List (Call α)) : Throttle :=
  calls.foldl (fun s call => (validateTradeRequest m s call).1) s

def verdicts (m : Manager α) : Throttle → List (Call α) → List (Option RiskVerdict)
  | _, [] => []
  | s, call :: rest =>
    (validateTradeRequest m s call).2 :: verdicts m (validateTradeRequest m s call).1 rest

def passedCalls (m : Manager α) : Throttle → List (Call α) → List (Call α)
  | _, [] => []
  | s, call :: rest =>
    (if (validateTradeRequest m s call).2 = some .PASS then [call] else []) ++
      passedCalls m (validateTradeRequest m s call).1 rest

/-! ## What the throttle records -/

def timesOf (calls : List (Call α)) : List ℚ := calls.map Call.now

def ofUser (user : String) (calls : List (Call α)) : List (Call α) :=
  calls.filter fun call => call.request.userId = user

def ofSignature (signature : String) (calls : List (Call α)) : List (Call α) :=
  calls.filter fun call => call.request.signature = signature

omit [Figure α] in
theorem timesOf_concat (calls : List (Call α)) (call : Call α) :
    timesOf (calls ++ [call]) = timesOf calls ++ [call.now] := List.map_append

omit [Figure α] in
theorem ofUser_concat_self (calls : List (Call α)) (call : Call α) :
    ofUser call.request.userId (calls ++ [call]) = ofUser call.request.userId calls ++ [call] := by
  rw [ofUser, List.filter_append, List.filter_cons_of_pos (by simp), List.filter_nil, ofUser]

omit [Figure α] in
theorem ofUser_concat_of_ne {user : String} (calls : List (Call α))
    (h : call.request.userId ≠ user) : ofUser user (calls ++ [call]) = ofUser user calls := by
  rw [ofUser, List.filter_append, List.filter_cons_of_neg (by simpa using h), List.filter_nil,
    List.append_nil, ofUser]

/-- The throttle, as far as it is read from the clock on, is the history of passes. -/
structure Records (s : Throttle) (passed : List (Call α)) (clock : ℚ) : Prop where
  sorted : (timesOf passed).Pairwise (· ≤ ·)
  past : ∀ t ∈ timesOf passed, t ≤ clock
  global : Tracks (clock - 1) s.globalTimestamps (timesOf passed)
  user : ∀ user, Tracks (clock - 1) (s.userTimestamps user) (timesOf (ofUser user passed))
  last : ∀ signature, s.lastTradeSig signature = (timesOf (ofSignature signature passed)).getLast?

omit [Figure α] in
theorem Records.start : Records (α := α) Throttle.start [] clock where
  sorted := .nil
  past := List.forall_mem_nil _
  global := Tracks.nil
  user := fun _ => Tracks.nil
  last := fun _ => rfl

namespace Records

variable (h : Records s passed clock)
include h

omit [Figure α] in
theorem advance {now : ℚ} (h_now : clock ≤ now) : Records s passed now where
  sorted := h.sorted
  past := fun t h_t => (h.past t h_t).trans h_now
  global := h.global.mono (sub_le_sub_right h_now 1)
  user := fun user => (h.user user).mono (sub_le_sub_right h_now 1)
  last := h.last

omit [Figure α] in
theorem evictBefore (user : String) : Records (s.evictBefore user (clock - 1)) passed clock where
  sorted := h.sorted
  past := h.past
  global := h.global.evict le_rfl
  user := by
    intro other
    by_cases h_user : other = user
    · subst h_user
      rw [Throttle.evictBefore]
      dsimp only
      rw [Function.update_self]
      exact (h.user other).evict le_rfl
    · rw [Throttle.evictBefore]
      dsimp only
      rw [Function.update_of_ne h_user]
      exact h.user other
  last := h.last

omit [Figure α] in
theorem record (h_now : call.now = clock) :
    Records (s.record call.request call.now) (passed ++ [call]) clock where
  sorted := by
    rw [timesOf_concat, List.pairwise_append]
    refine ⟨h.sorted, List.pairwise_singleton _ _, fun t h_t u h_u => ?_⟩
    rw [List.mem_singleton.mp h_u, h_now]
    exact h.past t h_t
  past := by
    rw [timesOf_concat, List.forall_mem_append]
    exact ⟨h.past, by simp [h_now]⟩
  global := by
    rw [timesOf_concat]
    exact h.global.append fun t h_t => h_now ▸ h.past t h_t
  user := by
    intro other
    rw [Throttle.record]
    dsimp only
    by_cases h_user : call.request.userId = other
    · subst h_user
      rw [Function.update_self, ofUser_concat_self, timesOf_concat]
      refine (h.user call.request.userId).append fun t h_t => h_now ▸ h.past t ?_
      exact (List.filter_sublist.map Call.now).subset h_t
    · rw [Function.update_of_ne (Ne.symm h_user), ofUser_concat_of_ne passed h_user]
      exact h.user other
  last := by
    intro signature
    rw [Throttle.record]
    dsimp only
    rw [ofSignature, List.filter_append]
    by_cases h_signature : call.request.signature = signature
    · subst h_signature
      rw [Function.update_self, List.filter_cons_of_pos (by simp), List.filter_nil, timesOf,
        List.map_append, List.map_singleton, List.getLast?_concat]
    · rw [Function.update_of_ne (Ne.symm h_signature),
        List.filter_cons_of_neg (by simpa using h_signature), List.filter_nil, List.append_nil]
      exact h.last signature

end Records

/-! ## The throttle as a function of the history -/

def inSecondBefore (now : ℚ) (calls : List (Call α)) : List (Call α) :=
  calls.filter fun call => now - 1 ≤ call.now

/-- What the first two gates say of a history. -/
def historyRefusal (t : RiskThresholds α) (passed : List (Call α)) (call : Call α) :
    Option RiskVerdict :=
  if call.now - ((timesOf (ofSignature call.request.signature passed)).getLast?).getD 0
      < t.duplicateOrderCooldown then some .REJECT_DUPLICATE_SPAM
  else if t.maxGlobalOrdersPerSecond ≤ (inSecondBefore call.now passed).length then
    some .REJECT_GLOBAL_RATE_LIMIT
  else if t.maxUserOrdersPerSecond ≤
      (inSecondBefore call.now (ofUser call.request.userId passed)).length then
    some .REJECT_USER_RATE_LIMIT
  else none

omit [Figure α] in
theorem length_filter_timesOf (now : ℚ) (calls : List (Call α)) :
    ((timesOf calls).filter fun t => now - 1 ≤ t).length = (inSecondBefore now calls).length := by
  rw [timesOf, List.filter_map, List.length_map]
  rfl

omit [Figure α] in
theorem Records.throttleRefusal_eq (h : Records s passed clock) (h_now : clock ≤ call.now) :
    throttleRefusal m s call = historyRefusal m.thresholds passed call := by
  have h_cutoff : clock - 1 ≤ call.now - 1 := sub_le_sub_right h_now 1
  have h_global := congrArg List.length (h.global.evict_eq h_cutoff)
  have h_user := congrArg List.length ((h.user call.request.userId).evict_eq h_cutoff)
  rw [length_filter_timesOf] at h_global h_user
  unfold throttleRefusal historyRefusal Throttle.isDuplicate Throttle.rateRefusal Throttle.evictBefore
  simp only [h.last, Function.update_self, h_global, h_user, decide_eq_true_eq]

def historyVerdict (m : Manager α) (passed : List (Call α)) (call : Call α) : Option RiskVerdict :=
  (m.effectiveLimits call.settings).map fun limits =>
    ((historyRefusal m.thresholds passed call).or (laterRefusal m limits call.request)).getD .PASS

theorem Records.verdict_eq (h : Records s passed clock) (h_now : clock ≤ call.now) :
    (validateTradeRequest m s call).2 = historyVerdict m passed call := by
  rw [validateTradeRequest_verdict, h.throttleRefusal_eq h_now]
  rfl

def passedAfter (m : Manager α) (passed : List (Call α)) (call : Call α) : List (Call α) :=
  passed ++ if historyVerdict m passed call = some .PASS then [call] else []

theorem Records.validate (h : Records s passed clock) (h_now : clock ≤ call.now) :
    Records (validateTradeRequest m s call).1 (passedAfter m passed call) call.now := by
  have h_advanced := h.advance h_now
  rw [validateTradeRequest_throttle, h.verdict_eq h_now, passedAfter]
  split_ifs
  · exact (h_advanced.evictBefore _).record rfl
  · rw [List.append_nil]
    exact h_advanced
  · rw [List.append_nil]
    exact h_advanced.evictBefore _

/-! ## The limits hold of every history -/

structure WithinLimits (t : RiskThresholds α) (passed : List (Call α)) : Prop where
  global : Admitted 1 t.maxGlobalOrdersPerSecond.toNat (timesOf passed)
  user : ∀ user, Admitted 1 t.maxUserOrdersPerSecond.toNat (timesOf (ofUser user passed))
  cooldown : passed.Pairwise fun a b =>
    a.request.signature = b.request.signature → t.duplicateOrderCooldown ≤ b.now - a.now

variable {t : RiskThresholds α}

omit [Figure α] in
theorem WithinLimits.nil : WithinLimits t [] := ⟨.nil, fun _ => .nil, .nil⟩

omit [Figure α] in
theorem historyRefusal_eq_none :
    historyRefusal t passed call = none ↔
      t.duplicateOrderCooldown
          ≤ call.now - ((timesOf (ofSignature call.request.signature passed)).getLast?).getD 0 ∧
        (inSecondBefore call.now passed).length < t.maxGlobalOrdersPerSecond ∧
        (inSecondBefore call.now (ofUser call.request.userId passed)).length
          < t.maxUserOrdersPerSecond := by
  unfold historyRefusal
  split_ifs with h_duplicate h_global h_user
  · exact iff_of_false nofun fun h => absurd h.1 (not_le.mpr h_duplicate)
  · exact iff_of_false nofun fun h => absurd h.2.1 (not_lt.mpr h_global)
  · exact iff_of_false nofun fun h => absurd h.2.2 (not_lt.mpr h_user)
  · exact iff_of_true rfl ⟨not_lt.mp h_duplicate, not_le.mp h_global, not_le.mp h_user⟩

omit [Figure α] in
theorem WithinLimits.append (h : WithinLimits t passed)
    (h_sorted : (timesOf passed).Pairwise (· ≤ ·))
    (h_refusal : historyRefusal t passed call = none) : WithinLimits t (passed ++ [call]) := by
  obtain ⟨h_cooldown, h_global, h_user⟩ := historyRefusal_eq_none.mp h_refusal
  refine ⟨?_, fun user => ?_, ?_⟩
  · rw [timesOf_concat]
    refine h.global.append ?_
    rw [length_filter_timesOf]
    omega
  · by_cases h_of : call.request.userId = user
    · subst h_of
      rw [ofUser_concat_self, timesOf_concat]
      refine (h.user call.request.userId).append ?_
      rw [length_filter_timesOf]
      omega
    · rw [ofUser_concat_of_ne passed h_of]
      exact h.user user
  · rw [List.pairwise_append]
    refine ⟨h.cooldown, List.pairwise_singleton _ _, fun earlier h_earlier later h_later h_same => ?_⟩
    rw [List.mem_singleton.mp h_later] at h_same ⊢
    -- The last of the same signature is no earlier than this one.
    have h_mem : earlier.now ∈ timesOf (ofSignature call.request.signature passed) :=
      List.mem_map_of_mem (List.mem_filter.mpr ⟨h_earlier, decide_eq_true h_same⟩)
    have h_sub : (timesOf (ofSignature call.request.signature passed)).Pairwise (· ≤ ·) :=
      h_sorted.sublist (List.filter_sublist.map Call.now)
    obtain ⟨last, h_last, h_le⟩ := SlidingWindow.le_getLast? h_sub h_mem
    rw [h_last, Option.getD_some] at h_cooldown
    exact h_cooldown.trans (sub_le_sub_left h_le _)

theorem historyVerdict_pass (h : historyVerdict m passed call = some .PASS) :
    historyRefusal m.thresholds passed call = none := by
  obtain ⟨limits, _, h_pass⟩ := Option.map_eq_some_iff.mp h
  cases h_refusal : historyRefusal m.thresholds passed call with
  | none => rfl
  | some verdict =>
    rw [h_refusal] at h_pass
    rw [show verdict = .PASS from h_pass] at h_refusal
    unfold historyRefusal at h_refusal
    split_ifs at h_refusal <;> cases h_refusal

theorem WithinLimits.passedAfter (h : WithinLimits m.thresholds passed)
    (h_sorted : (timesOf passed).Pairwise (· ≤ ·)) :
    WithinLimits m.thresholds (passedAfter m passed call) := by
  unfold Risk.passedAfter
  split_ifs with h_pass
  · exact h.append h_sorted (historyVerdict_pass h_pass)
  · rw [List.append_nil]
    exact h

theorem historyVerdict_refusal {verdict : RiskVerdict}
    (h : historyVerdict m passed call = some verdict) (h_throttle : verdict ∈ throttleVerdicts) :
    historyRefusal m.thresholds passed call = some verdict := by
  obtain ⟨limits, _, h_verdict⟩ := Option.map_eq_some_iff.mp h
  cases h_refusal : historyRefusal m.thresholds passed call with
  | some refusal =>
    rw [h_refusal] at h_verdict
    rw [show refusal = verdict from h_verdict]
  | none =>
    rw [h_refusal, Option.none_or] at h_verdict
    cases h_later : laterRefusal m limits call.request with
    | some later =>
      rw [h_later] at h_verdict
      rw [← show later = verdict from h_verdict] at h_throttle
      exact absurd h_throttle (laterRefusal_verdict h_later).2
    | none =>
      rw [h_later] at h_verdict
      rw [← show RiskVerdict.PASS = verdict from h_verdict] at h_throttle
      exact absurd h_throttle (by decide)

/-! ## What a run keeps -/

/-- The clock does not go back. -/
def InOrder (calls : List (Call α)) : Prop := calls.Pairwise fun a b => a.now ≤ b.now

section

variable {calls : List (Call α)}

theorem Records.run (h : Records s passed clock) (h_limits : WithinLimits m.thresholds passed)
    (h_from : ∀ call ∈ calls, clock ≤ call.now) (h_order : InOrder calls) :
    ∃ until_, Records (throttleAfter m s calls) (passed ++ passedCalls m s calls) until_ ∧
      WithinLimits m.thresholds (passed ++ passedCalls m s calls) ∧
      ∀ now, clock ≤ now → (∀ call ∈ calls, call.now ≤ now) → until_ ≤ now := by
  induction calls generalizing s passed clock with
  | nil =>
    rw [passedCalls, List.append_nil]
    exact ⟨clock, h, h_limits, fun _ h_now _ => h_now⟩
  | cons call rest ih =>
    have h_now := h_from call List.mem_cons_self
    obtain ⟨h_rest, h_rest_order⟩ := List.pairwise_cons.mp h_order
    obtain ⟨until_, h_records, h_within, h_until⟩ :=
      ih (h.validate h_now) (h_limits.passedAfter h.sorted) h_rest h_rest_order
    have h_passed : passed ++ passedCalls m s (call :: rest) =
        passedAfter m passed call ++ passedCalls m (validateTradeRequest m s call).1 rest := by
      rw [passedCalls, passedAfter, h.verdict_eq h_now, List.append_assoc]
    rw [h_passed]
    refine ⟨until_, h_records, h_within, fun now _ h_all => ?_⟩
    obtain ⟨h_call, h_others⟩ := List.forall_mem_cons.mp h_all
    exact h_until now h_call h_others

theorem run_start (h_order : InOrder calls) :
    WithinLimits m.thresholds (passedCalls m .start calls) ∧
      ∀ now, (∀ call ∈ calls, call.now ≤ now) →
        Records (throttleAfter m .start calls) (passedCalls m .start calls) now := by
  cases calls with
  | nil => exact ⟨.nil, fun _ _ => Records.start⟩
  | cons call rest =>
    have h_from : ∀ other ∈ call :: rest, call.now ≤ other.now :=
      List.forall_mem_cons.mpr ⟨le_rfl, (List.pairwise_cons.mp h_order).1⟩
    obtain ⟨until_, h_records, h_within, h_until⟩ := Records.start.run (m := m) .nil h_from h_order
    rw [List.nil_append] at h_records h_within
    refine ⟨h_within, fun now h_all => h_records.advance ?_⟩
    exact h_until now (h_all call List.mem_cons_self) h_all

theorem Records.verdicts_eq {s' : Throttle} (h : Records s passed clock)
    (h' : Records s' passed clock) (h_from : ∀ call ∈ calls, clock ≤ call.now)
    (h_order : InOrder calls) : verdicts m s calls = verdicts m s' calls := by
  induction calls generalizing s s' passed clock with
  | nil => rfl
  | cons call rest ih =>
    have h_now := h_from call List.mem_cons_self
    obtain ⟨h_rest, h_rest_order⟩ := List.pairwise_cons.mp h_order
    rw [verdicts, verdicts, h.verdict_eq h_now, h'.verdict_eq h_now,
      ih (h.validate h_now) (h'.validate h_now) h_rest h_rest_order]

/-! ## The throttle is exact -/

def duringSecond (start : ℚ) (calls : List (Call α)) : List (Call α) :=
  calls.filter fun call => start ≤ call.now ∧ call.now ≤ start + 1

/-- What the throttle promises of some calls in order. -/
structure ThrottleLaw (m : Manager α) (calls : List (Call α)) : Prop where
  global : ∀ start, (duringSecond start (passedCalls m .start calls)).length
    ≤ m.thresholds.maxGlobalOrdersPerSecond.toNat
  user : ∀ user start, (duringSecond start (ofUser user (passedCalls m .start calls))).length
    ≤ m.thresholds.maxUserOrdersPerSecond.toNat
  cooldown : (passedCalls m .start calls).Pairwise fun a b =>
    a.request.userId = b.request.userId → a.request.symbol = b.request.symbol →
      a.request.side = b.request.side → m.thresholds.duplicateOrderCooldown ≤ b.now - a.now
  /-- What is refused makes no difference to what is judged later. -/
  refused : ∀ before call after, calls = before ++ call :: after →
    (validateTradeRequest m (throttleAfter m .start before) call).2 ≠ some .PASS →
      verdicts m (throttleAfter m .start (before ++ [call])) after =
        verdicts m (throttleAfter m .start before) after
  globalRefusal : ∀ before call after, calls = before ++ call :: after →
    (validateTradeRequest m (throttleAfter m .start before) call).2
        = some .REJECT_GLOBAL_RATE_LIMIT →
      m.thresholds.maxGlobalOrdersPerSecond
        ≤ (inSecondBefore call.now (passedCalls m .start before)).length
  userRefusal : ∀ before call after, calls = before ++ call :: after →
    (validateTradeRequest m (throttleAfter m .start before) call).2
        = some .REJECT_USER_RATE_LIMIT →
      m.thresholds.maxUserOrdersPerSecond ≤
        (inSecondBefore call.now (ofUser call.request.userId (passedCalls m .start before))).length

omit [Figure α] in
theorem length_duringSecond (start : ℚ) (calls : List (Call α)) :
    (duringSecond start calls).length =
      ((timesOf calls).filter fun t => start ≤ t ∧ t ≤ start + 1).length := by
  rw [timesOf, List.filter_map, List.length_map]
  rfl

omit [Figure α] in
theorem historyRefusal_global (h : historyRefusal t passed call = some .REJECT_GLOBAL_RATE_LIMIT) :
    t.maxGlobalOrdersPerSecond ≤ (inSecondBefore call.now passed).length := by
  unfold historyRefusal at h
  split_ifs at h with _ h_global
  · cases h
  · exact h_global
  · cases h

omit [Figure α] in
theorem historyRefusal_user (h : historyRefusal t passed call = some .REJECT_USER_RATE_LIMIT) :
    t.maxUserOrdersPerSecond ≤
      (inSecondBefore call.now (ofUser call.request.userId passed)).length := by
  unfold historyRefusal at h
  split_ifs at h with _ _ h_user
  · cases h
  · cases h
  · exact h_user

theorem records_before {before after : List (Call α)}
    (h_order : InOrder (before ++ call :: after)) :
    Records (throttleAfter m .start before) (passedCalls m .start before) call.now := by
  obtain ⟨h_before, _, h_le⟩ := List.pairwise_append.mp h_order
  exact (run_start h_before).2 call.now fun earlier h_earlier =>
    h_le earlier h_earlier call List.mem_cons_self

theorem throttle_law (h_order : InOrder calls) : ThrottleLaw m calls where
  global := by
    intro start
    rw [length_duringSecond]
    exact (run_start h_order).1.global.length_window_le start
  user := by
    intro user start
    rw [length_duringSecond]
    exact ((run_start h_order).1.user user).length_window_le start
  cooldown := by
    refine (run_start h_order).1.cooldown.imp fun {a b} h_spaced h_user h_symbol h_side => ?_
    refine h_spaced ?_
    rw [TradeRequest.signature, TradeRequest.signature, h_user, h_symbol, h_side]
  refused := by
    intro before call after h_calls h_refused
    subst h_calls
    have h_records := records_before (m := m) h_order
    obtain ⟨h_later, h_after⟩ := List.pairwise_cons.mp (List.pairwise_append.mp h_order).2.1
    have h_validated : Records _ (passedAfter m _ call) call.now := h_records.validate le_rfl
    rw [h_records.verdict_eq le_rfl] at h_refused
    rw [passedAfter, if_neg h_refused, List.append_nil] at h_validated
    rw [throttleAfter, List.foldl_append]
    exact h_validated.verdicts_eq h_records h_later h_after
  globalRefusal := by
    intro before call after h_calls h_verdict
    subst h_calls
    rw [(records_before h_order).verdict_eq le_rfl] at h_verdict
    exact historyRefusal_global (historyVerdict_refusal h_verdict (by decide))
  userRefusal := by
    intro before call after h_calls h_verdict
    subst h_calls
    rw [(records_before h_order).verdict_eq le_rfl] at h_verdict
    exact historyRefusal_user (historyVerdict_refusal h_verdict (by decide))

end

/-! ### Three small orders -/

/-- The same order, now, a second later and two seconds later. -/
def smallOrders : List (Call ℚ) :=
  [1700000000, 1700000001, 1700000002].map fun now =>
    { request := smallOrder 1, settings := none, now := now }

theorem smallOrders_throttled :
    verdicts fiveOpen .start smallOrders
        = [some .PASS, some .REJECT_DUPLICATE_SPAM, some .PASS] ∧
      ThrottleLaw fiveOpen smallOrders := by
  have h_order : InOrder smallOrders := by
    unfold InOrder
    decide +kernel
  exact ⟨by decide +kernel, throttle_law h_order⟩

end VyomQuant.Risk
