/-
  VyomQuant.Marketplace.EntitlementResolver

  `entitlement_resolver.resolve`: the one admission decision for deployments and paper
  sessions, as a program of two reads over the listing, its submissions, its versions and
  the subscriptions of `Store`.

  The decision looks at the caller's first subscription row only, and at its status before
  its period.  `paidPeriod_iff` says exactly when that agrees with the paid period.
-/

import VyomQuant.Lib.Faults
import VyomQuant.Marketplace.Requests

namespace VyomQuant.Marketplace.Resolver

open Program

/-! ## Rows -/

/-- `marketplace_submissions.submission_state`. -/
inductive SubmissionState where
  | draft
  | submitted
  | underReview
  | approved
  | published
  | rejected
  | suspended
  | unpublished

/-- What `library_strategies` holds of a listing. -/
structure ListingRow where
  id : String
  authorId : Option String
  sourceStrategyId : Option String

structure SubmissionRow where
  listingId : String
  submissionState : SubmissionState

structure VersionRow where
  id : String
  strategyId : String
  version : String
  isDraft : Bool

/-- `twoForeignKeys`: whether the subscriptions reference the listings twice, which makes an
    unhinted embed ambiguous. -/
structure ResolverStore where
  market : MarketStore
  listings : KeyedList ListingRow.id
  submissions : List SubmissionRow
  versions : List VersionRow
  twoForeignKeys : Bool

/-! ## The reads -/

/-- The row of the admission read: the listing with its two embedded collections. -/
structure AdmissionRow where
  listing : ListingRow
  submissionStates : List SubmissionState
  subscriptions : List SubscriptionRow

inductive ResolverOp where
  /-- `_ENTITLEMENT_SELECT`, or `_ENTITLEMENT_SELECT_HINTED`. -/
  | readAdmission (hinted : Bool) (listingId : String)
  | readVersions (strategyId : String)

def ResolverRes : ResolverOp → Type
  | .readAdmission .. => Option AdmissionRow
  | .readVersions _ => List VersionRow

inductive ResolverError where
  /-- `PGRST200` or `PGRST201`: the embed names no relationship, or several. -/
  | unresolvableEmbed
  /-- Any other failure of a read. -/
  | connectionLost
  | entitlementReadFailed
deriving DecidableEq

def embedded (s : ResolverStore) (listingId : String) : List SubscriptionRow :=
  s.market.subscriptions.items.filter fun row => row.libraryId = listingId

def submissionStates (s : ResolverStore) (listingId : String) : List SubmissionState :=
  (s.submissions.filter fun row => row.listingId = listingId).map (·.submissionState)

/-- The order in which the database returns the embedded rows. -/
structure RowOrder where
  order : List SubscriptionRow → List SubscriptionRow
  perm : ∀ rows, (order rows).Perm rows

def admissionRow (rowOrder : RowOrder) (s : ResolverStore) (listingId : String) :
    Option AdmissionRow :=
  (s.listings.get? listingId).map fun listing =>
    { listing
      submissionStates := submissionStates s listingId
      subscriptions := rowOrder.order (embedded s listingId) }

def handleResolver (rowOrder : RowOrder) : Handler ResolverRes ResolverError ResolverStore
  | .readAdmission hinted listingId, s =>
    if s.twoForeignKeys ∧ ¬ hinted then (.error .unresolvableEmbed, s)
    else (.ok (admissionRow rowOrder s listingId), s)
  | .readVersions strategyId, s =>
    (.ok (s.versions.filter fun row => row.strategyId = strategyId), s)

/-! ## The decision -/

inductive EntitlementReason where
  | owned
  | subscribed
  | notSubscribed
  | expired
  | listingUnavailable
  | subscriptionSuspended
deriving DecidableEq

/-- `ENTITLING_REASONS`. -/
def EntitlementReason.entitles : EntitlementReason → Bool
  | .owned => true
  | .subscribed => true
  | _ => false

/-- One admission decision.  `entitling` cannot disagree with the reason. -/
structure Entitlement where
  reason : EntitlementReason
  entitling : Bool := reason.entitles
  listingId : String
  sourceStrategyId : Option String := none
  versionId : Option String := none
  subscriptionId : Option String := none
  periodExpiry : Option Instant := none
  agrees : entitling = reason.entitles := by rfl
deriving DecidableEq

/-- `WIRE_CODE_FOR_REASON`. -/
def EntitlementReason.wireCode : EntitlementReason → Option String
  | .owned => none
  | .subscribed => none
  | .notSubscribed => some "MARKETPLACE_NOT_SUBSCRIBED"
  | .expired => some "MARKETPLACE_SUBSCRIPTION_EXPIRED"
  | .listingUnavailable => some "MARKETPLACE_STRATEGY_UNAVAILABLE"
  | .subscriptionSuspended => some "MARKETPLACE_OPERATION_NOT_PERMITTED"

theorem EntitlementReason.wireCode_eq_none_iff (reason : EntitlementReason) :
    reason.wireCode = none ↔ reason.entitles = true := by
  cases reason <;> simp [wireCode, entitles]

abbrev Resolving (α : Type) := Program ResolverRes ResolverError α

/-- `_read_admission_row`: only an embed that cannot be resolved is asked for again. -/
def readAdmissionRow (listingId : String) : Resolving (Option AdmissionRow) :=
  call (.readAdmission false listingId) fun
    | .ok row => ret row
    | .error .unresolvableEmbed =>
      call (.readAdmission true listingId) fun
        | .ok row => ret row
        | .error _ => raise .entitlementReadFailed
    | .error _ => raise .entitlementReadFailed

/-- The key of `_version_sort_key`: versions that read as integers above all others. -/
def versionKey (row : VersionRow) : ℤ ⊕ String :=
  match row.version.toInt? with
  | some n => .inl n
  | none => .inr row.version

def versionLt : ℤ ⊕ String → ℤ ⊕ String → Bool
  | .inr a, .inr b => a < b
  | .inr _, .inl _ => true
  | .inl a, .inl b => a < b
  | .inl _, .inr _ => false

/-- `max(saved, key=_version_sort_key)`: the first of the largest. -/
def latestVersion (best : VersionRow) : List VersionRow → VersionRow
  | [] => best
  | row :: rest =>
    latestVersion (if versionLt (versionKey best) (versionKey row) then row else best) rest

/-- The current version among the rows of a strategy. -/
def currentVersion (rows : List VersionRow) : Option String :=
  match rows.filter fun row => ¬ row.isDraft with
  | [] => none
  | first :: rest => some (latestVersion first rest).id

/-- `_resolve_current_version`. -/
def resolveCurrentVersion (sourceStrategyId : Option String) : Resolving (Option String) :=
  match sourceStrategyId with
  | none => ret none
  | some strategyId =>
    if strategyId = "" then ret none
    else call (.readVersions strategyId) fun
      | .ok rows => ret (currentVersion rows)
      | .error _ => raise .entitlementReadFailed

/-- `_caller_subscription`: the caller's first row. -/
def callerSubscription (row : AdmissionRow) (callerId : String) : Option SubscriptionRow :=
  row.subscriptions.find? fun subscription => subscription.userId = callerId

/-- `_ENTITLING_SUBMISSION_STATES`. -/
def entitlingSubmission : SubmissionState → Bool
  | .published => true
  | .suspended => true
  | .unpublished => true
  | _ => false

/-- `_listing_submission_state`: an entitling state if there is one. -/
def listingSubmissionState (row : AdmissionRow) : Option SubmissionState :=
  match row.submissionStates.find? entitlingSubmission with
  | some state => some state
  | none => row.submissionStates.head?

/-- The end of both entitling paths: the strategy must have a version. -/
def entitleWithVersion (granted : Option String → Entitlement) (unavailable : Entitlement)
    (sourceStrategyId : Option String) : Resolving Entitlement :=
  (resolveCurrentVersion sourceStrategyId).bind fun
    | none => ret unavailable
    | some versionId => ret (granted (some versionId))

/-- `resolve`. -/
def resolve (callerId listingId : String) (now : Instant) : Resolving Entitlement :=
  (readAdmissionRow listingId).bind fun
    | none => ret { reason := .listingUnavailable, listingId }
    | some row =>
      let sourceStrategyId := row.listing.sourceStrategyId
      if row.listing.authorId = some callerId then
        entitleWithVersion (fun versionId => { reason := .owned, listingId, sourceStrategyId, versionId })
          { reason := .listingUnavailable, listingId, sourceStrategyId } sourceStrategyId
      else match callerSubscription row callerId with
        | none => ret { reason := .notSubscribed, listingId }
        | some subscription =>
          let subscriptionId := some subscription.id
          let periodExpiry := subscription.periodExpiry
          if subscription.status = .suspended then
            ret { reason := .subscriptionSuspended, listingId, subscriptionId, periodExpiry }
          else if subscription.status ≠ .active then
            ret { reason := .expired, listingId, subscriptionId, periodExpiry }
          else if ∀ expiry ∈ periodExpiry, expiry ≤ now then
            ret { reason := .expired, listingId, subscriptionId, periodExpiry }
          else if ¬ ∃ state ∈ listingSubmissionState row, entitlingSubmission state = true then
            ret { reason := .listingUnavailable, listingId, sourceStrategyId, subscriptionId,
                  periodExpiry }
          else
            entitleWithVersion
              (fun versionId =>
                { reason := .subscribed, listingId, sourceStrategyId, versionId, subscriptionId,
                  periodExpiry })
              { reason := .listingUnavailable, listingId, sourceStrategyId, subscriptionId,
                periodExpiry } sourceStrategyId

/-! ## What a decision that is returned says -/

def HasVersion (s : ResolverStore) (sourceStrategyId : Option String) : Prop :=
  ∃ strategyId ∈ sourceStrategyId, strategyId ≠ "" ∧
    ∃ row ∈ s.versions, row.strategyId = strategyId ∧ row.isDraft = false

def Owns (s : ResolverStore) (callerId listingId : String) : Prop :=
  ∃ listing ∈ s.listings.get? listingId, listing.authorId = some callerId

/-- The listing is there and its strategy has a saved version. -/
def Live (s : ResolverStore) (listingId : String) : Prop :=
  ∃ listing ∈ s.listings.get? listingId, HasVersion s listing.sourceStrategyId

/-- The listing has a submission in one of the three entitling states. -/
def Listed (s : ResolverStore) (listingId : String) : Prop :=
  ∃ state ∈ submissionStates s listingId, entitlingSubmission state = true

/-- The first row of the caller that the read returns is active, its period covering `now`. -/
def FirstCovers (rowOrder : RowOrder) (s : ResolverStore) (callerId listingId : String)
    (now : Instant) : Prop :=
  ∃ row ∈ (rowOrder.order (embedded s listingId)).find? fun row => row.userId = callerId,
    row.status = .active ∧ ∃ expiry ∈ row.periodExpiry, now < expiry

section Decision

variable {rowOrder : RowOrder} {s : ResolverStore} {faults : ResolverError → Prop}

def ReadFailed (e : ResolverError) (_ : ResolverStore) : Prop := e = .entitlementReadFailed

theorem readAdmissionRow_ensures (listingId : String) :
    (readAdmissionRow listingId).Ensures (handleResolver rowOrder) faults
      (fun row s' => row = admissionRow rowOrder s listingId ∧ s' = s) ReadFailed s := by
  have h_hinted : handleResolver rowOrder (.readAdmission true listingId) s
      = (.ok (admissionRow rowOrder s listingId), s) := by simp [handleResolver]
  have h_retry : (call (.readAdmission true listingId) fun
      | .ok row => ret row
      | .error _ => raise .entitlementReadFailed : Resolving (Option AdmissionRow)).Ensures
        (handleResolver rowOrder) faults
        (fun row s' => row = admissionRow rowOrder s listingId ∧ s' = s) ReadFailed s := by
    refine ⟨?_, fun e _ => rfl⟩
    rw [h_hinted]
    exact ⟨rfl, rfl⟩
  refine ⟨?_, fun e _ => ?_⟩
  · by_cases h_two : s.twoForeignKeys = true
    · have h_first : handleResolver rowOrder (.readAdmission false listingId) s
          = (.error .unresolvableEmbed, s) := by simp [handleResolver, h_two]
      rw [h_first]
      exact h_retry
    · have h_first : handleResolver rowOrder (.readAdmission false listingId) s
          = (.ok (admissionRow rowOrder s listingId), s) := by simp [handleResolver, h_two]
      rw [h_first]
      exact ⟨rfl, rfl⟩
  · cases e with
    | unresolvableEmbed => exact h_retry
    | connectionLost => exact rfl
    | entitlementReadFailed => exact rfl

theorem currentVersion_isSome_iff (rows : List VersionRow) :
    (currentVersion rows).isSome = true ↔ ∃ row ∈ rows, row.isDraft = false := by
  unfold currentVersion
  split
  · rename_i h_none
    simpa [List.filter_eq_nil_iff] using h_none
  · rename_i first rest h_some
    have h_first : first ∈ rows.filter fun row => ¬ row.isDraft := h_some ▸ List.mem_cons_self
    obtain ⟨h_mem, h_saved⟩ := List.mem_filter.mp h_first
    exact iff_of_true rfl ⟨first, h_mem, by simpa using h_saved⟩

theorem resolveCurrentVersion_ensures (sourceStrategyId : Option String) :
    (resolveCurrentVersion sourceStrategyId).Ensures (handleResolver rowOrder) faults
      (fun version s' => (version.isSome = true ↔ HasVersion s sourceStrategyId) ∧ s' = s)
      ReadFailed s := by
  cases sourceStrategyId with
  | none => exact ⟨iff_of_false nofun nofun, rfl⟩
  | some strategyId =>
    unfold resolveCurrentVersion
    dsimp only
    split
    · rename_i h_blank
      refine ⟨iff_of_false nofun ?_, rfl⟩
      rintro ⟨_, h_some, h_ne, _⟩
      cases h_some
      exact h_ne h_blank
    · rename_i h_ne
      refine ⟨⟨?_, rfl⟩, fun e _ => rfl⟩
      show (currentVersion (s.versions.filter fun row => row.strategyId = strategyId)).isSome = true
        ↔ HasVersion s (some strategyId)
      rw [currentVersion_isSome_iff]
      constructor
      · rintro ⟨row, h_row, h_saved⟩
        obtain ⟨h_mem, h_strategy⟩ := List.mem_filter.mp h_row
        exact ⟨strategyId, rfl, h_ne, row, h_mem, by simpa using h_strategy, h_saved⟩
      · rintro ⟨_, h_some, _, row, h_mem, h_strategy, h_saved⟩
        cases h_some
        exact ⟨row, List.mem_filter.mpr ⟨h_mem, by simpa using h_strategy⟩, h_saved⟩

theorem entitleWithVersion_ensures {granted : Option String → Entitlement}
    {unavailable : Entitlement} {sourceStrategyId : Option String}
    (h_granted : ∀ versionId, (granted versionId).entitling = true)
    (h_unavailable : unavailable.entitling = false) :
    (entitleWithVersion granted unavailable sourceStrategyId).Ensures (handleResolver rowOrder) faults
      (fun entitlement s' => (entitlement.entitling = true ↔ HasVersion s sourceStrategyId) ∧ s' = s)
      ReadFailed s := by
  refine Ensures.bind ((resolveCurrentVersion_ensures sourceStrategyId).mono ?_ fun _ _ h => h)
  rintro version s' ⟨h_version, rfl⟩
  cases version with
  | none =>
    refine ⟨?_, rfl⟩
    rw [← h_version, h_unavailable]
    simp
  | some versionId =>
    refine ⟨?_, rfl⟩
    rw [← h_version, h_granted]
    simp

theorem listingSubmissionState_entitles_iff (row : AdmissionRow) :
    (∃ state ∈ listingSubmissionState row, entitlingSubmission state = true)
      ↔ ∃ state ∈ row.submissionStates, entitlingSubmission state = true := by
  unfold listingSubmissionState
  split
  · rename_i state h_find
    have h_entitles : entitlingSubmission state = true := List.find?_some h_find
    exact iff_of_true ⟨state, rfl, h_entitles⟩ ⟨state, List.mem_of_find?_eq_some h_find, h_entitles⟩
  · rename_i h_none
    rw [List.find?_eq_none] at h_none
    apply iff_of_false
    · rintro ⟨state, h_head, h_entitles⟩
      exact h_none state (List.mem_of_head? h_head) h_entitles
    · rintro ⟨state, h_mem, h_entitles⟩
      exact h_none state h_mem h_entitles

/-- A decision entitles a live listing's author, and whoever's first row is active and covers
    the instant when the listing is listed. -/
theorem resolve_ensures (callerId listingId : String) (now : Instant) :
    (resolve callerId listingId now).Ensures (handleResolver rowOrder) faults
      (fun entitlement s' => (entitlement.entitling = true ↔ Live s listingId ∧
        (Owns s callerId listingId ∨
          (Listed s listingId ∧ FirstCovers rowOrder s callerId listingId now))) ∧ s' = s)
      ReadFailed s := by
  refine Ensures.bind ((readAdmissionRow_ensures listingId).mono ?_ fun _ _ h => h)
  rintro row s' ⟨rfl, rfl⟩
  cases h_listing : s'.listings.get? listingId with
  | none =>
    have h_row : admissionRow rowOrder s' listingId = none := by simp [admissionRow, h_listing]
    rw [h_row]
    refine ⟨iff_of_false Bool.false_ne_true ?_, rfl⟩
    rintro ⟨⟨listing, h_mem, _⟩, _⟩
    rw [h_listing] at h_mem
    cases h_mem
  | some listing =>
    have h_row : admissionRow rowOrder s' listingId = some {
        listing
        submissionStates := submissionStates s' listingId
        subscriptions := rowOrder.order (embedded s' listingId) } := by
      simp [admissionRow, h_listing]
    have h_live : Live s' listingId ↔ HasVersion s' listing.sourceStrategyId := by
      simp [Live, h_listing]
    have h_owns : Owns s' callerId listingId ↔ listing.authorId = some callerId := by
      simp [Owns, h_listing]
    rw [h_row, h_live, h_owns]
    dsimp only
    split
    · rename_i h_author
      simp only [h_author, true_or, and_true]
      exact entitleWithVersion_ensures (fun _ => rfl) rfl
    rename_i h_author
    simp only [h_author, false_or]
    -- Every refusal contradicts the first row or the listing; the rest is the version.
    split
    · rename_i h_none
      refine ⟨iff_of_false Bool.false_ne_true ?_, rfl⟩
      rintro ⟨_, _, row, h_first, _⟩
      cases h_none.symm.trans h_first
    rename_i subscription h_first
    have h_covers : FirstCovers rowOrder s' callerId listingId now ↔
        subscription.status = .active ∧ ∃ expiry ∈ subscription.periodExpiry, now < expiry := by
      constructor
      · rintro ⟨row, h_row_first, h_row_covers⟩
        rw [Option.some.inj (h_first.symm.trans h_row_first)]
        exact h_row_covers
      · exact fun h => ⟨subscription, h_first, h⟩
    rw [h_covers]
    split
    · rename_i h_suspended
      refine ⟨iff_of_false Bool.false_ne_true ?_, rfl⟩
      rintro ⟨_, _, h_active, _⟩
      rw [h_active] at h_suspended
      cases h_suspended
    split
    · rename_i h_lapsed
      exact ⟨iff_of_false Bool.false_ne_true fun h => h_lapsed h.2.2.1, rfl⟩
    rename_i h_active
    split
    · rename_i h_past
      refine ⟨iff_of_false Bool.false_ne_true ?_, rfl⟩
      rintro ⟨_, _, _, expiry, h_expiry, h_lt⟩
      exact absurd (h_past expiry h_expiry) (not_le.mpr h_lt)
    rename_i h_paid
    split
    · rename_i h_unlisted
      rw [listingSubmissionState_entitles_iff] at h_unlisted
      exact ⟨iff_of_false Bool.false_ne_true fun h => h_unlisted h.2.1, rfl⟩
    · rename_i h_listed
      rw [listingSubmissionState_entitles_iff, not_not] at h_listed
      have h_listed : Listed s' listingId := h_listed
      have h_paid : ∃ expiry ∈ subscription.periodExpiry, now < expiry := by
        simpa using h_paid
      simp only [h_listed, not_not.mp h_active, h_paid, and_true]
      exact entitleWithVersion_ensures (fun _ => rfl) rfl

end Decision

/-! ## The paid period -/

/-- A paid period that covers `now`, of a subscription neither suspended nor refunded. -/
def Covers (now : Instant) (row : SubscriptionRow) : Prop :=
  (∃ expiry ∈ row.periodExpiry, now < expiry) ∧ row.status ≠ .suspended ∧ row.status ≠ .refunded

instance (now : Instant) (row : SubscriptionRow) : Decidable (Covers now row) :=
  inferInstanceAs (Decidable (_ ∧ _))

/-- Some subscription of the caller to the listing is paid for at `now`. -/
def PaidPeriod (s : ResolverStore) (callerId listingId : String) (now : Instant) : Prop :=
  ∃ row ∈ embedded s listingId, row.userId = callerId ∧ Covers now row

instance (s : ResolverStore) (callerId listingId : String) (now : Instant) :
    Decidable (PaidPeriod s callerId listingId now) :=
  inferInstanceAs (Decidable (∃ row ∈ _, _))

/-- When the decision agrees with the paid period: for the author, when the listing is live
    exactly if paid for; for anyone else, when nothing is paid for, or the listing is listed
    and live and the first row is the paid one and is `active`. -/
def FollowsPeriod (rowOrder : RowOrder) (s : ResolverStore) (callerId listingId : String)
    (now : Instant) : Prop :=
  (Owns s callerId listingId ∧ (Live s listingId ↔ PaidPeriod s callerId listingId now)) ∨
  (¬ Owns s callerId listingId ∧ (PaidPeriod s callerId listingId now →
    Listed s listingId ∧ Live s listingId ∧ FirstCovers rowOrder s callerId listingId now))

theorem FirstCovers.paidPeriod {rowOrder : RowOrder} {s : ResolverStore}
    {callerId listingId : String} {now : Instant}
    (h : FirstCovers rowOrder s callerId listingId now) : PaidPeriod s callerId listingId now := by
  obtain ⟨row, h_first, h_active, h_expiry⟩ := h
  have h_own : row.userId = callerId := by simpa using List.find?_some h_first
  have h_mem := (rowOrder.perm _).mem_iff.mp (List.mem_of_find?_eq_some h_first)
  refine ⟨row, h_mem, h_own, h_expiry, ?_, ?_⟩
  · simp [h_active]
  · simp [h_active]

/-- A request, and which of its statements fail. -/
abbrev RequestStep := Request × (ℕ → Option MarketError)

def marketAfter (market : MarketStore) : List RequestStep → MarketStore
  | [] => market
  | (request, oracle) :: rest =>
    marketAfter (request.program.runWith handle oracle 0 market).2.2 rest

def afterHistory (s : ResolverStore) (history : List RequestStep) : ResolverStore :=
  { s with market := marketAfter s.market history }

/-- After any history, with the rows in any order and whatever reads fail, a decision that is
    returned entitles exactly by the paid period if and only if `FollowsPeriod`. -/
theorem entitlement_follows_period_iff (s : ResolverStore)
    (history : List RequestStep) (rowOrder : RowOrder) (callerId listingId : String)
    (now : Instant) (oracle : ℕ → Option ResolverError) (n : ℕ) :
    let reached := afterHistory s history
    let outcome := (resolve callerId listingId now).runWith (handleResolver rowOrder) oracle n reached
    Ends
      (fun entitlement s' => s' = reached ∧
        ((entitlement.entitling = true ↔ PaidPeriod reached callerId listingId now)
          ↔ FollowsPeriod rowOrder reached callerId listingId now))
      ReadFailed outcome.1 outcome.2.2 := by
  intro reached outcome
  have h_resolve : (resolve callerId listingId now).Ensures (handleResolver rowOrder)
      (fun _ => True) (fun entitlement s' => s' = reached ∧
        ((entitlement.entitling = true ↔ PaidPeriod reached callerId listingId now)
          ↔ FollowsPeriod rowOrder reached callerId listingId now)) ReadFailed reached := by
    refine (resolve_ensures callerId listingId now).mono ?_ fun _ _ h => h
    rintro entitlement s' ⟨h_entitling, h_same⟩
    refine ⟨h_same, ?_⟩
    have h_first : FirstCovers rowOrder reached callerId listingId now →
        PaidPeriod reached callerId listingId now := FirstCovers.paidPeriod
    rw [h_entitling, FollowsPeriod]
    tauto
  exact h_resolve.runWith (fun _ _ _ => trivial) n

/-! ## A cancellation inside the period -/

/-- The listing of the sample subscription, published and with one saved version. -/
def publishedListing (row : SubscriptionRow) : ResolverStore where
  market := unsettled row
  listings := ⟨[⟨"listing", some "owner", some "strategy"⟩], List.nodup_singleton _⟩
  submissions := [⟨"listing", .published⟩]
  versions := [⟨"version", "strategy", "v1.0", false⟩]
  twoForeignKeys := true

def asStored : RowOrder := ⟨fun rows => rows, fun _ => List.Perm.refl _⟩

/-- Paid on January 5 until February 5, and cancelled on January 10. -/
def paidAndCancelled : List RequestStep :=
  [(.settle (paymentFor "payment" january5), fun _ => none),
    (.cancel "subscription" "purchaser" january10, fun _ => none)]

theorem cancelled_in_period_is_refused :
    ¬ ∀ history now entitlement,
      ((resolve "purchaser" "listing" now).run (handleResolver asStored)
        (afterHistory (publishedListing checkedOut) history)).1 = .ok entitlement →
      (entitlement.entitling = true ↔
        PaidPeriod (afterHistory (publishedListing checkedOut) history) "purchaser" "listing" now) := by
  intro h
  have h_now := h paidAndCancelled (onDay 1 15 (by decide) (by decide)) {
    reason := .expired
    listingId := "listing"
    subscriptionId := some "subscription"
    periodExpiry := some (onDay 2 5 (by decide) (by decide)) } (by decide +kernel)
  revert h_now
  decide +kernel

end VyomQuant.Marketplace.Resolver
