import AlphaPing.Library.Runs
import AlphaPing.Library.Tables
import Mathlib.Data.Prod.Lex
import Mathlib.Data.String.Basic

/-!
# The outbox of notifications

`deliverNotificationOutbox` claims due deliveries, hands them to their providers and records the
results. A claim is an `UPDATE` that draws a token and sets a deadline; the result is recorded by
an `UPDATE` that asks for the token. Between the two a worker can stop, or another worker can take
the delivery over once the deadline has passed.

A run of the worker is a list of candidates and the tasks of its current batch. Every step of a
task ends where the code awaits: after the claim, after the read of the claimed row, after the
provider, after the last update. The clock is the real one; a reading of it can be old when a
statement that was given it is executed. Tokens are UUIDs, and one that was drawn is not drawn
again.

What the claimed row is joined with (the channel and the rule), and what the provider answers, are
arguments of the steps. The claims, the tokens and what was handed to a provider are remembered
beside the tables.
-/

namespace AlphaPing.Notifications.Outbox

open Library.Tables Library.Runs

def deliveryLimit : ℕ := 50

def concurrency : ℕ := 5

def claimMs : ℤ := 30000

def maxAttempts : ℕ := 6

inductive DeliveryState where
  | pending
  | delivering
  | sent
  | dead
  deriving DecidableEq

/-- A row of `notification_deliveries`, without its source and its payload. -/
structure Delivery where
  id : String
  state : DeliveryState
  attemptCount : ℕ
  nextAttemptAt : ℤ
  claimToken : Option String
  claimUntil : Option ℤ
  lastError : Option String
  responseStatus : Option ℕ
  createdAt : ℤ
  updatedAt : ℤ
  sentAt : Option ℤ

structure DeliveryResult where
  ok : Bool
  retryable : Bool
  status : Option ℕ
  error : Option String
  deriving DecidableEq

/-! ## Statements -/

def retryDelayMs (attempt : ℕ) : ℕ := min (60 * 60000) (60000 * 2 ^ (attempt - 1))

/-- The delivery is due, or its claim has expired. -/
def due (now : ℤ) (row : Delivery) : Bool :=
  row.state == .pending && decide (row.nextAttemptAt ≤ now) ||
    row.state == .delivering && row.claimUntil.any fun until_ ↦ decide (until_ ≤ now)

/-- The candidates of `deliverNotificationOutbox`. -/
def candidates (deliveries : List Delivery) (now : ℤ) : List String :=
  (selectOrdered (fun row ↦ toLex (row.nextAttemptAt, toLex (row.createdAt, row.id)))
    deliveryLimit (deliveries.filter (due now))).map Delivery.id

/-- The `SET` of the claim. -/
def claimed (token : String) (now : ℤ) (row : Delivery) : Delivery :=
  let exhausted := decide (maxAttempts ≤ row.attemptCount)
  { row with
    state := if exhausted then .dead else .delivering
    claimToken := if exhausted then none else some token
    claimUntil := if exhausted then none else some (now + claimMs)
    lastError := if exhausted then some "notification_attempts_exhausted" else row.lastError
    attemptCount := min (row.attemptCount + 1) maxAttempts
    updatedAt := now }

/-- The `WHERE` of the claim. -/
def claimable (id : String) (now : ℤ) (row : Delivery) : Bool := row.id == id && due now row

/-- The `UPDATE` of `claimDelivery`. -/
def claimUpdate (deliveries : List Delivery) (id token : String) (now : ℤ) : List Delivery :=
  updateWhere (claimable id now) (claimed token now) deliveries

/-- The `SELECT` of `claimDelivery`. -/
def claimedRow (deliveries : List Delivery) (id token : String) : Option Delivery :=
  deliveries.find? fun row ↦ row.id == id && row.claimToken == some token

/-- The state that `finishDelivery` records. -/
def finishedState (attemptCount : ℕ) (result : DeliveryResult) : DeliveryState :=
  if result.ok then .sent
  else if !result.retryable || decide (maxAttempts ≤ attemptCount) then .dead
  else .pending

/-- The `SET` of `finishDelivery`. -/
def finished (attemptCount : ℕ) (result : DeliveryResult) (now : ℤ) (row : Delivery) : Delivery :=
  { row with
    state := finishedState attemptCount result
    nextAttemptAt :=
      if finishedState attemptCount result = .pending then now + retryDelayMs attemptCount else 0
    claimToken := none
    claimUntil := none
    lastError := result.error.map fun error ↦ (error.take 160).toString
    responseStatus := result.status
    updatedAt := now
    sentAt := if result.ok then some now else none }

/-- The `WHERE` of `finishDelivery`. -/
def finishable (id token : String) (row : Delivery) : Bool :=
  row.id == id && row.state == .delivering && row.claimToken == some token

/-- The `UPDATE` of `finishDelivery`. -/
def finishUpdate (deliveries : List Delivery) (id token : String) (attemptCount : ℕ)
    (result : DeliveryResult) (now : ℤ) : List Delivery :=
  updateWhere (finishable id token) (finished attemptCount result now) deliveries

/-! ## Tasks -/

/-- Where `deliverOne` is waiting. -/
inductive Phase where
  | claiming (now : ℤ)
  | reading (token : String)
  | sending (token : String) (attemptCount : ℕ)
  | finishing (token : String) (attemptCount : ℕ) (result : DeliveryResult) (now : ℤ)
  | ended
  deriving DecidableEq

/-- A call of `deliverOne`, by one run. -/
structure Task where
  run : ℕ
  id : String
  phase : Phase

/-- A claim that was granted to a task. -/
structure Claim where
  task : ℕ
  id : String
  token : String
  claimUntil : ℤ
  attempt : ℕ

structure Notifier where
  deliveries : List Delivery
  clock : ℤ
  /-- The candidates that each run has still to start. -/
  waiting : List (List String)
  tasks : List Task
  drawn : List String
  claims : List Claim
  /-- The tokens whose holder has recorded a result. -/
  recorded : List String
  /-- The token and the delivery of every call of a provider. -/
  handed : List (String × String)

/-- What the claimed row is joined with. -/
inductive Availability where
  | channelUnavailable
  | ruleUnavailable
  | available
  deriving DecidableEq

/-- How far the call of the provider gets. -/
inductive ProviderCall where
  /-- The configuration cannot be unwrapped. -/
  | notCalled
  | failed
  | answered (result : DeliveryResult)
  deriving DecidableEq

/-- What a step of a task depends on besides the tables. -/
structure Environment where
  token : String
  availability : Availability
  provider : ProviderCall

inductive Action where
  | tick (milliseconds : ℕ)
  /-- The discovery inserts a delivery. -/
  | enqueue (id : String)
  /-- A run reads its candidates. -/
  | begin
  /-- A run starts its next tasks, when those before have ended. -/
  | batch (run : ℕ)
  | advance (task : ℕ) (environment : Environment)
  /-- A statement of a task fails, and its run with it; the other tasks go on. -/
  | fail (task : ℕ)
  /-- A run is lost with its tasks. -/
  | crash (run : ℕ)

def unavailableResult (error : String) (retryable : Bool) : DeliveryResult where
  ok := false
  retryable := retryable
  status := none
  error := some error

/-- A delivery as the discovery inserts it. -/
def newDelivery (id : String) (now : ℤ) : Delivery where
  id := id
  state := .pending
  attemptCount := 0
  nextAttemptAt := now
  claimToken := none
  claimUntil := none
  lastError := none
  responseStatus := none
  createdAt := now
  updatedAt := now
  sentAt := none

def Notifier.setPhase (notifier : Notifier) (index : ℕ) (task : Task) (phase : Phase) : Notifier :=
  { notifier with tasks := notifier.tasks.set index { task with phase } }

/-- The claims after the claim of a task: it is granted when the row that it changes has attempts
left. -/
def grant (notifier : Notifier) (index : ℕ) (task : Task) (token : String) (now : ℤ) : List Claim :=
  notifier.claims ++
    ((notifier.deliveries.find? (claimable task.id now)).filter fun row ↦
      decide (row.attemptCount < maxAttempts)).toList.map fun row ↦
        { task := index
          id := task.id
          token := token
          claimUntil := now + claimMs
          attempt := row.attemptCount + 1 }

/-- The `UPDATE` of the claim. -/
def advanceClaiming (notifier : Notifier) (index : ℕ) (task : Task) (now : ℤ) (token : String) :
    Notifier :=
  if notifier.drawn.contains token then notifier
  else
    { notifier with
      deliveries := claimUpdate notifier.deliveries task.id token now
      drawn := token :: notifier.drawn
      claims := grant notifier index task token now }.setPhase index task
        (if notifier.deliveries.countP (claimable task.id now) = 1 then .reading token else .ended)

/-- The read of the claimed row, and what comes before the provider is called. -/
def advanceReading (notifier : Notifier) (index : ℕ) (task : Task) (token : String)
    (availability : Availability) : Notifier :=
  match claimedRow notifier.deliveries task.id token with
  | none => notifier.setPhase index task .ended
  | some row =>
    match availability with
    | .channelUnavailable => notifier.setPhase index task (.finishing token row.attemptCount
        (unavailableResult "notification_channel_unavailable" false) notifier.clock)
    | .ruleUnavailable => notifier.setPhase index task (.finishing token row.attemptCount
        (unavailableResult "notification_rule_unavailable" false) notifier.clock)
    | .available => notifier.setPhase index task (.sending token row.attemptCount)

/-- What `deliverOne` makes of the call of the provider. -/
def ProviderCall.result : ProviderCall → DeliveryResult
  | notCalled | failed => unavailableResult "notification_config_unavailable" true
  | answered result => result

def advanceSending (notifier : Notifier) (index : ℕ) (task : Task) (token : String)
    (attemptCount : ℕ) (provider : ProviderCall) : Notifier :=
  { notifier with
    handed := if provider = ProviderCall.notCalled then notifier.handed
      else (token, task.id) :: notifier.handed }.setPhase index task
    (.finishing token attemptCount provider.result notifier.clock)

/-- The `UPDATE` of `finishDelivery`. -/
def advanceFinishing (notifier : Notifier) (index : ℕ) (task : Task) (token : String)
    (attemptCount : ℕ) (result : DeliveryResult) (now : ℤ) : Notifier :=
  { notifier with
    deliveries := finishUpdate notifier.deliveries task.id token attemptCount result now
    recorded := token :: notifier.recorded }.setPhase index task .ended

def advance (notifier : Notifier) (index : ℕ) (task : Task) (environment : Environment) : Notifier :=
  match task.phase with
  | .claiming now => advanceClaiming notifier index task now environment.token
  | .reading token => advanceReading notifier index task token environment.availability
  | .sending token attemptCount =>
    advanceSending notifier index task token attemptCount environment.provider
  | .finishing token attemptCount result now =>
    advanceFinishing notifier index task token attemptCount result now
  | .ended => notifier

def step (notifier : Notifier) : Action → Notifier
  | .tick milliseconds => { notifier with clock := notifier.clock + milliseconds }
  | .enqueue id =>
    if notifier.deliveries.any fun row ↦ row.id == id then notifier
    else { notifier with deliveries := notifier.deliveries ++ [newDelivery id notifier.clock] }
  | .begin =>
    { notifier with waiting := notifier.waiting ++ [candidates notifier.deliveries notifier.clock] }
  | .batch run =>
    if notifier.tasks.any fun task ↦ task.run == run && task.phase != .ended then notifier
    else
      let ids := notifier.waiting.getD run []
      { notifier with
        waiting := notifier.waiting.set run (ids.drop concurrency)
        tasks := notifier.tasks ++ (ids.take concurrency).map fun id ↦
          ⟨run, id, .claiming notifier.clock⟩ }
  | .advance index environment =>
    match notifier.tasks[index]? with
    | none => notifier
    | some task => advance notifier index task environment
  | .fail index =>
    match notifier.tasks[index]? with
    | none => notifier
    | some task =>
      { notifier with waiting := notifier.waiting.set task.run [] }.setPhase index task .ended
  | .crash run =>
    { notifier with
      waiting := notifier.waiting.set run []
      tasks := notifier.tasks.map fun task ↦
        if task.run = run then { task with phase := .ended } else task }

/-- A notifier without deliveries. -/
def empty (clock : ℤ) : Notifier where
  deliveries := []
  clock := clock
  waiting := []
  tasks := []
  drawn := []
  claims := []
  recorded := []
  handed := []

/-! ## The ledger of claims -/

/-- The claims of one delivery, in the order in which they were granted. -/
def claimsOf (claims : List Claim) (id : String) : List Claim :=
  claims.filter fun claim ↦ claim.id == id

/-- What the rows and the claims say of each other. -/
structure LedgerSound (notifier : Notifier) : Prop where
  unique : UniqueKey Delivery.id notifier.deliveries
  attempts_le : ∀ row ∈ notifier.deliveries, row.attemptCount ≤ maxAttempts
  attempts : ∀ row ∈ notifier.deliveries,
    (claimsOf notifier.claims row.id).map Claim.attempt = List.range' 1 row.attemptCount
  claimed_row : ∀ claim ∈ notifier.claims, ∃ row ∈ notifier.deliveries, row.id = claim.id
  drawn : ∀ claim ∈ notifier.claims, claim.token ∈ notifier.drawn
  tokens : (notifier.claims.map Claim.token).Nodup
  held : ∀ row ∈ notifier.deliveries, ∀ token, row.claimToken = some token →
    ∃ claim ∈ notifier.claims, claim.token = token ∧ claim.id = row.id ∧
      row.claimUntil = some claim.claimUntil ∧ row.state = .delivering ∧
      claim.attempt = row.attemptCount
  live : ∀ claim ∈ notifier.claims, claim.token ∉ notifier.recorded →
    notifier.clock < claim.claimUntil →
    ∃ row ∈ notifier.deliveries, row.id = claim.id ∧ row.claimToken = some claim.token

theorem ledgerSound_empty (clock : ℤ) : LedgerSound (empty clock) where
  unique := uniqueKey_nil
  attempts_le _ h := absurd h List.not_mem_nil
  attempts _ h := absurd h List.not_mem_nil
  claimed_row _ h := absurd h List.not_mem_nil
  drawn _ h := absurd h List.not_mem_nil
  tokens := List.nodup_nil
  held _ h := absurd h List.not_mem_nil
  live _ h := absurd h List.not_mem_nil

variable {notifier : Notifier} {row : Delivery} {now : ℤ} {token : String} {index : ℕ} {task : Task}

theorem LedgerSound.claim_eq (h : LedgerSound notifier) {first second : Claim}
    (hfirst : first ∈ notifier.claims) (hsecond : second ∈ notifier.claims)
    (htoken : first.token = second.token) : first = second :=
  List.inj_on_of_nodup_map h.tokens hfirst hsecond htoken

theorem LedgerSound.attempt_mem (h : LedgerSound notifier) (hrow : row ∈ notifier.deliveries)
    {claim : Claim} (hclaim : claim ∈ notifier.claims) (hid : claim.id = row.id) :
    1 ≤ claim.attempt ∧ claim.attempt ≤ row.attemptCount := by
  have hmem : claim.attempt ∈ (claimsOf notifier.claims row.id).map Claim.attempt :=
    List.mem_map_of_mem (List.mem_filter.mpr ⟨hclaim, by simp [hid]⟩)
  rw [h.attempts row hrow, List.mem_range'_1] at hmem
  omega

theorem LedgerSound.length_claimsOf_le (h : LedgerSound notifier) (id : String) :
    (claimsOf notifier.claims id).length ≤ maxAttempts := by
  rcases List.eq_nil_or_concat (claimsOf notifier.claims id) with hnil | ⟨before, claim, hconcat⟩
  · simp [hnil]
  · have hmem : claim ∈ claimsOf notifier.claims id := by simp [hconcat]
    obtain ⟨hclaim, hid⟩ := List.mem_filter.mp hmem
    obtain ⟨row, hrow, hrowid⟩ := h.claimed_row claim hclaim
    have hlength := congrArg List.length (h.attempts row hrow)
    rw [List.length_map, List.length_range', hrowid, beq_iff_eq.mp hid] at hlength
    exact hlength.trans_le (h.attempts_le row hrow)

theorem LedgerSound.attempts_sorted (h : LedgerSound notifier) (id : String) :
    ((claimsOf notifier.claims id).map Claim.attempt).Pairwise (· < ·) := by
  rcases List.eq_nil_or_concat (claimsOf notifier.claims id) with hnil | ⟨before, claim, hconcat⟩
  · simp [hnil]
  · have hmem : claim ∈ claimsOf notifier.claims id := by simp [hconcat]
    obtain ⟨hclaim, hid⟩ := List.mem_filter.mp hmem
    obtain ⟨row, hrow, hrowid⟩ := h.claimed_row claim hclaim
    have hattempts := h.attempts row hrow
    rw [hrowid, beq_iff_eq.mp hid] at hattempts
    rw [hattempts]
    exact List.pairwise_lt_range'

theorem LedgerSound.live_unique (h : LedgerSound notifier) {first second : Claim}
    (hfirst : first ∈ notifier.claims) (hsecond : second ∈ notifier.claims)
    (hid : first.id = second.id) (hlive : first.token ∉ notifier.recorded)
    (hlive' : second.token ∉ notifier.recorded) (hclock : notifier.clock < first.claimUntil)
    (hclock' : notifier.clock < second.claimUntil) : first = second := by
  obtain ⟨row, hrow, hrowid, htoken⟩ := h.live first hfirst hlive hclock
  obtain ⟨row', hrow', hrowid', htoken'⟩ := h.live second hsecond hlive' hclock'
  obtain rfl := h.unique.eq_of_mem hrow hrow' (by rw [hrowid, hrowid', hid])
  exact h.claim_eq hfirst hsecond (Option.some.inj (htoken.symm.trans htoken'))

theorem LedgerSound.withTasks (h : LedgerSound notifier) (waiting : List (List String))
    (tasks : List Task) (handed : List (String × String)) :
    LedgerSound { notifier with waiting, tasks, handed } :=
  ⟨h.unique, h.attempts_le, h.attempts, h.claimed_row, h.drawn, h.tokens, h.held, h.live⟩

theorem LedgerSound.setPhase (h : LedgerSound notifier) (index : ℕ) (task : Task) (phase : Phase) :
    LedgerSound (notifier.setPhase index task phase) :=
  h.withTasks _ _ _

/-! ## Steps of the ledger -/

theorem ledgerSound_tick (h : LedgerSound notifier) (milliseconds : ℕ) :
    LedgerSound { notifier with clock := notifier.clock + milliseconds } where
  __ := h
  live claim hclaim hrecorded hclock := by
    have hclock : notifier.clock + milliseconds < claim.claimUntil := hclock
    exact h.live claim hclaim hrecorded (by omega)

theorem ledgerSound_enqueue (h : LedgerSound notifier) {id : String}
    (hnew : ∀ row ∈ notifier.deliveries, row.id ≠ id) (now : ℤ) :
    LedgerSound { notifier with deliveries := notifier.deliveries ++ [newDelivery id now] } where
  unique := uniqueKey_append_singleton h.unique hnew
  attempts_le := List.forall_mem_append.mpr ⟨h.attempts_le, by simp [newDelivery]⟩
  attempts := by
    refine List.forall_mem_append.mpr ⟨h.attempts, fun row hrow ↦ ?_⟩
    rw [List.mem_singleton.mp hrow]
    have hnone : claimsOf notifier.claims id = [] := by
      refine List.filter_eq_nil_iff.mpr fun claim hclaim hid ↦ ?_
      obtain ⟨row, hrow, hrowid⟩ := h.claimed_row claim hclaim
      exact hnew row hrow (hrowid.trans (by simpa using hid))
    simp [newDelivery, hnone]
  claimed_row claim hclaim := by
    obtain ⟨row, hrow, hid⟩ := h.claimed_row claim hclaim
    exact ⟨row, List.mem_append_left _ hrow, hid⟩
  drawn := h.drawn
  tokens := h.tokens
  held := List.forall_mem_append.mpr ⟨h.held, by simp [newDelivery]⟩
  live claim hclaim hrecorded hclock := by
    obtain ⟨row, hrow, hrow'⟩ := h.live claim hclaim hrecorded hclock
    exact ⟨row, List.mem_append_left _ hrow, hrow'⟩

theorem LedgerSound.not_claimable (h : LedgerSound notifier) (hrow : row ∈ notifier.deliveries)
    {claim : Claim} (hclaim : claim ∈ notifier.claims) (htoken : row.claimToken = some claim.token)
    (hclock : notifier.clock < claim.claimUntil) (hnow : now ≤ notifier.clock) (id : String) :
    claimable id now row = false := by
  obtain ⟨holder, hholder, hsame, -, huntil, hstate, -⟩ := h.held row hrow _ htoken
  obtain rfl := h.claim_eq hholder hclaim hsame
  have hlater : ¬ holder.claimUntil ≤ now := by omega
  simp [claimable, due, hstate, huntil, hlater]

@[simp] theorem claimed_id (token : String) (now : ℤ) (row : Delivery) :
    (claimed token now row).id = row.id := rfl

@[simp] theorem finished_id (attemptCount : ℕ) (result : DeliveryResult) (now : ℤ)
    (row : Delivery) : (finished attemptCount result now row).id = row.id := rfl

theorem ledgerSound_exhaust (h : LedgerSound notifier) {id token : String}
    (hnow : now ≤ notifier.clock)
    (hexhausted : ∀ row ∈ notifier.deliveries, claimable id now row = true →
      maxAttempts ≤ row.attemptCount) :
    LedgerSound { notifier with
      deliveries := claimUpdate notifier.deliveries id token now
      drawn := token :: notifier.drawn } where
  unique := h.unique.updateWhere fun _ ↦ rfl
  attempts_le row hrow := by
    obtain ⟨old, hold, ⟨-, rfl⟩ | ⟨-, rfl⟩⟩ := mem_updateWhere.mp hrow
    · exact min_le_right _ _
    · exact h.attempts_le row hold
  attempts row hrow := by
    obtain ⟨old, hold, ⟨hclaimable, rfl⟩ | ⟨-, rfl⟩⟩ := mem_updateWhere.mp hrow
    · have hcount : old.attemptCount = maxAttempts :=
        le_antisymm (h.attempts_le old hold) (hexhausted old hold hclaimable)
      have hsame : (claimed token now old).attemptCount = old.attemptCount := by
        simp [claimed, hcount]
      rw [hsame]
      exact h.attempts old hold
    · exact h.attempts row hold
  claimed_row claim hclaim := by
    obtain ⟨row, hrow, hid⟩ := h.claimed_row claim hclaim
    refine ⟨_, mem_updateWhere_of_mem hrow, ?_⟩
    split <;> exact hid
  drawn claim hclaim := List.mem_cons_of_mem _ (h.drawn claim hclaim)
  tokens := h.tokens
  held row hrow held hheld := by
    obtain ⟨old, hold, ⟨hclaimable, rfl⟩ | ⟨-, rfl⟩⟩ := mem_updateWhere.mp hrow
    · simp [claimed, hexhausted old hold hclaimable] at hheld
    · exact h.held row hold held hheld
  live claim hclaim hrecorded hclock := by
    obtain ⟨row, hrow, hid, htoken⟩ := h.live claim hclaim hrecorded hclock
    exact ⟨row, mem_updateWhere_of_not hrow
      (h.not_claimable hrow hclaim htoken hclock hnow id), hid, htoken⟩

theorem ledgerSound_grant (h : LedgerSound notifier) (hnow : now ≤ notifier.clock)
    (hfresh : token ∉ notifier.drawn) (hrow : row ∈ notifier.deliveries) (hdue : due now row = true)
    (hleft : row.attemptCount < maxAttempts) (task : ℕ) :
    LedgerSound { notifier with
      deliveries := claimUpdate notifier.deliveries row.id token now
      drawn := token :: notifier.drawn
      claims := notifier.claims ++ [⟨task, row.id, token, now + claimMs, row.attemptCount + 1⟩] } := by
  have honly : ∀ old ∈ notifier.deliveries, claimable row.id now old = true → old = row :=
    fun old hold hclaimable ↦ h.unique.eq_of_mem hold hrow (by
      simp only [claimable, Bool.and_eq_true, beq_iff_eq] at hclaimable
      exact hclaimable.1)
  have hclaimable : claimable row.id now row = true := by simp [claimable, hdue]
  have hother : ∀ old ∈ notifier.deliveries, claimable row.id now old = false →
      old.id ≠ row.id := by
    rintro old hold hnot hid
    rw [h.unique.eq_of_mem hold hrow hid, hclaimable] at hnot
    cases hnot
  have hexhausted : decide (maxAttempts ≤ row.attemptCount) = false := by simpa using hleft
  have hmem : claimed token now row ∈ claimUpdate notifier.deliveries row.id token now :=
    mem_updateWhere.mpr ⟨row, hrow, .inl ⟨hclaimable, rfl⟩⟩
  constructor
  · exact h.unique.updateWhere fun _ ↦ rfl
  · intro next hnext
    obtain ⟨old, hold, ⟨-, rfl⟩ | ⟨-, rfl⟩⟩ := mem_updateWhere.mp hnext
    · exact min_le_right _ _
    · exact h.attempts_le next hold
  · intro next hnext
    obtain ⟨old, hold, ⟨hchanged, rfl⟩ | ⟨hnot, rfl⟩⟩ := mem_updateWhere.mp hnext
    · obtain rfl := honly old hold hchanged
      have hcount : (claimed token now old).attemptCount = old.attemptCount + 1 :=
        min_eq_left hleft
      rw [hcount, List.range'_1_concat, ← h.attempts old hold]
      simp [claimsOf, List.filter_append, add_comm]
    · have hne := hother next hold hnot
      rw [← h.attempts next hold]
      simp [claimsOf, List.filter_append, hne.symm]
  · intro claim hclaim
    rcases List.mem_append.mp hclaim with hold | hnew
    · obtain ⟨old, hold, hid⟩ := h.claimed_row claim hold
      refine ⟨_, mem_updateWhere_of_mem hold, ?_⟩
      split <;> exact hid
    · rw [List.mem_singleton.mp hnew]
      exact ⟨_, hmem, rfl⟩
  · intro claim hclaim
    rcases List.mem_append.mp hclaim with hold | hnew
    · exact List.mem_cons_of_mem _ (h.drawn claim hold)
    · rw [List.mem_singleton.mp hnew]
      exact List.mem_cons_self
  · rw [List.map_append]
    refine List.Nodup.append h.tokens (List.nodup_singleton _) fun value hold hnew ↦ ?_
    obtain ⟨claim, hclaim, rfl⟩ := List.mem_map.mp hold
    have htoken : claim.token = token := List.mem_singleton.mp hnew
    exact hfresh (htoken ▸ h.drawn claim hclaim)
  · intro next hnext held hheld
    obtain ⟨old, hold, ⟨hchanged, rfl⟩ | ⟨-, rfl⟩⟩ := mem_updateWhere.mp hnext
    · obtain rfl := honly old hold hchanged
      refine ⟨_, List.mem_append_right _ (List.mem_singleton_self _), ?_⟩
      simp only [claimed, hexhausted, Bool.false_eq_true, if_false, Option.some.injEq] at hheld ⊢
      exact ⟨hheld, trivial, trivial, trivial, (min_eq_left hleft).symm⟩
    · obtain ⟨claim, hclaim, hsound⟩ := h.held next hold held hheld
      exact ⟨claim, List.mem_append_left _ hclaim, hsound⟩
  · intro claim hclaim hrecorded hclock
    rcases List.mem_append.mp hclaim with hold | hnew
    · obtain ⟨old, hrow', hid, htoken⟩ := h.live claim hold hrecorded hclock
      exact ⟨old, mem_updateWhere_of_not hrow'
        (h.not_claimable hrow' hold htoken hclock hnow row.id), hid, htoken⟩
    · rw [List.mem_singleton.mp hnew]
      exact ⟨_, hmem, rfl, by simp [claimed, hexhausted]⟩

theorem ledgerSound_finish (h : LedgerSound notifier) (id token : String) (attemptCount : ℕ)
    (result : DeliveryResult) (now : ℤ) :
    LedgerSound { notifier with
      deliveries := finishUpdate notifier.deliveries id token attemptCount result now
      recorded := token :: notifier.recorded } where
  unique := h.unique.updateWhere fun _ ↦ rfl
  attempts_le row hrow := by
    obtain ⟨old, hold, ⟨-, rfl⟩ | ⟨-, rfl⟩⟩ := mem_updateWhere.mp hrow
    · exact h.attempts_le old hold
    · exact h.attempts_le row hold
  attempts row hrow := by
    obtain ⟨old, hold, ⟨-, rfl⟩ | ⟨-, rfl⟩⟩ := mem_updateWhere.mp hrow
    · exact h.attempts old hold
    · exact h.attempts row hold
  claimed_row claim hclaim := by
    obtain ⟨row, hrow, hid⟩ := h.claimed_row claim hclaim
    refine ⟨_, mem_updateWhere_of_mem hrow, ?_⟩
    split <;> exact hid
  drawn := h.drawn
  tokens := h.tokens
  held row hrow held hheld := by
    obtain ⟨old, hold, ⟨-, rfl⟩ | ⟨-, rfl⟩⟩ := mem_updateWhere.mp hrow
    · cases hheld
    · exact h.held row hold held hheld
  live claim hclaim hrecorded hclock := by
    obtain ⟨hne, hrecorded⟩ := not_or.mp (mt List.mem_cons.mpr hrecorded)
    obtain ⟨row, hrow, hid, htoken⟩ := h.live claim hclaim hrecorded hclock
    refine ⟨row, mem_updateWhere_of_not hrow ?_, hid, htoken⟩
    simp [finishable, htoken, hne]

/-! ## Tasks and their claims -/

/-- The task has left the call of the provider behind. -/
def Phase.called : Phase → Bool
  | .claiming _ | .reading _ | .sending .. => false
  | .finishing .. | .ended => true

/-- What a task in a phase has been granted. -/
def PhaseSound (notifier : Notifier) (index : ℕ) (id : String) : Phase → Prop
  | .claiming now => now ≤ notifier.clock ∧ ∀ claim ∈ notifier.claims, claim.task ≠ index
  | .reading token => token ∈ notifier.drawn ∧
    ∀ claim ∈ notifier.claims, claim.token = token → claim.task = index
  | .sending token attemptCount | .finishing token attemptCount _ _ =>
    ∃ claim ∈ notifier.claims, claim.task = index ∧ claim.id = id ∧ claim.token = token ∧
      claim.attempt = attemptCount
  | .ended => True

structure TasksSound (notifier : Notifier) : Prop where
  phases : ∀ index task, notifier.tasks[index]? = some task →
    PhaseSound notifier index task.id task.phase
  bounded : ∀ claim ∈ notifier.claims, claim.task < notifier.tasks.length
  handed_nodup : notifier.handed.Nodup
  handed : ∀ call ∈ notifier.handed, ∃ claim ∈ notifier.claims, call = (claim.token, claim.id) ∧
    ∀ task, notifier.tasks[claim.task]? = some task → task.phase.called = true

theorem tasksSound_empty (clock : ℤ) : TasksSound (empty clock) where
  phases _ _ h := by cases h
  bounded _ h := absurd h List.not_mem_nil
  handed_nodup := List.nodup_nil
  handed _ h := absurd h List.not_mem_nil

theorem TasksSound.countP_handed_le (h : TasksSound notifier) (id : String) :
    (notifier.handed.countP fun call ↦ call.2 == id) ≤
      (claimsOf notifier.claims id).length := by
  rw [List.countP_eq_length_filter]
  have hsub : (notifier.handed.filter fun call ↦ call.2 == id) ⊆
      (claimsOf notifier.claims id).map fun claim ↦ (claim.token, claim.id) := by
    intro call hcall
    obtain ⟨hmem, hid⟩ := List.mem_filter.mp hcall
    obtain ⟨claim, hclaim, rfl, -⟩ := h.handed call hmem
    exact List.mem_map_of_mem (List.mem_filter.mpr ⟨hclaim, hid⟩)
  have hle := (List.subperm_of_subset (h.handed_nodup.filter _) hsub).length_le
  rwa [List.length_map] at hle

theorem getElem?_setPhase (htask : notifier.tasks[index]? = some task) {phase : Phase} {other : ℕ}
    {found : Task} (h : (notifier.setPhase index task phase).tasks[other]? = some found) :
    other = index ∧ found = { task with phase } ∨
      other ≠ index ∧ notifier.tasks[other]? = some found := by
  have hlt := (List.getElem?_eq_some_iff.mp htask).1
  by_cases heq : other = index
  · subst heq
    simp only [Notifier.setPhase, List.getElem?_set_self hlt, Option.some.injEq] at h
    exact .inl ⟨rfl, h.symm⟩
  · simp only [Notifier.setPhase, List.getElem?_set_ne (Ne.symm heq)] at h
    exact .inr ⟨heq, h⟩

theorem tasksSound_setPhase (h : TasksSound notifier) (htask : notifier.tasks[index]? = some task)
    {phase : Phase} (hphase : PhaseSound notifier index task.id phase)
    (hcalled : task.phase.called = true → phase.called = true) :
    TasksSound (notifier.setPhase index task phase) where
  phases other found hfound := by
    rcases getElem?_setPhase htask hfound with ⟨rfl, rfl⟩ | ⟨-, hsame⟩
    · exact hphase
    · exact h.phases other found hsame
  bounded claim hclaim := by
    simpa [Notifier.setPhase] using h.bounded claim hclaim
  handed_nodup := h.handed_nodup
  handed call hcall := by
    obtain ⟨claim, hclaim, hpair, hdone⟩ := h.handed call hcall
    refine ⟨claim, hclaim, hpair, fun found hfound ↦ ?_⟩
    rcases getElem?_setPhase htask hfound with ⟨heq, rfl⟩ | ⟨-, hsame⟩
    · exact hcalled (hdone task (heq ▸ htask))
    · exact hdone found hsame

theorem TasksSound.mono {notifier next : Notifier} (h : TasksSound notifier)
    (hclock : notifier.clock ≤ next.clock) (htasks : next.tasks = notifier.tasks)
    (hdrawn : next.drawn = notifier.drawn) (hclaims : next.claims = notifier.claims)
    (hhanded : next.handed = notifier.handed) : TasksSound next where
  phases index task htask := by
    have hphase := h.phases index task (htasks ▸ htask)
    cases hkind : task.phase with
    | claiming now =>
      rw [hkind] at hphase
      exact ⟨hphase.1.trans hclock, hclaims ▸ hphase.2⟩
    | reading token =>
      rw [hkind] at hphase
      exact ⟨hdrawn ▸ hphase.1, hclaims ▸ hphase.2⟩
    | sending token attemptCount =>
      rw [hkind] at hphase
      rwa [PhaseSound, hclaims]
    | finishing token attemptCount result now =>
      rw [hkind] at hphase
      rwa [PhaseSound, hclaims]
    | ended => trivial
  bounded claim hclaim := by
    rw [htasks]
    exact h.bounded claim (hclaims ▸ hclaim)
  handed_nodup := hhanded ▸ h.handed_nodup
  handed call hcall := by
    rw [hclaims, htasks]
    exact h.handed call (hhanded ▸ hcall)

theorem tasksSound_batch (h : TasksSound notifier) (run : ℕ) (ids : List String)
    (waiting : List (List String)) :
    TasksSound { notifier with
      waiting
      tasks := notifier.tasks ++ ids.map fun id ↦ ⟨run, id, .claiming notifier.clock⟩ } where
  phases index task htask := by
    rcases Nat.lt_or_ge index notifier.tasks.length with hlt | hge
    · rw [List.getElem?_append_left hlt] at htask
      exact h.phases index task htask
    · rw [List.getElem?_append_right hge] at htask
      obtain ⟨id, -, rfl⟩ := List.mem_map.mp (List.mem_of_getElem? htask)
      refine ⟨le_rfl, fun claim hclaim heq ↦ ?_⟩
      have := h.bounded claim hclaim
      omega
  bounded claim hclaim := by
    have := h.bounded claim hclaim
    simp only [List.length_append]
    omega
  handed_nodup := h.handed_nodup
  handed call hcall := by
    obtain ⟨claim, hclaim, hpair, hdone⟩ := h.handed call hcall
    refine ⟨claim, hclaim, hpair, fun task htask ↦ ?_⟩
    rw [List.getElem?_append_left (h.bounded claim hclaim)] at htask
    exact hdone task htask

theorem tasksSound_crash (h : TasksSound notifier) (run : ℕ) (waiting : List (List String)) :
    TasksSound { notifier with
      waiting
      tasks := notifier.tasks.map fun task ↦
        if task.run = run then { task with phase := .ended } else task } where
  phases index task htask := by
    rw [List.getElem?_map] at htask
    obtain ⟨old, hold, rfl⟩ := Option.map_eq_some_iff.mp htask
    split
    · trivial
    · exact h.phases index old hold
  bounded claim hclaim := by
    simpa using h.bounded claim hclaim
  handed_nodup := h.handed_nodup
  handed call hcall := by
    obtain ⟨claim, hclaim, hpair, hdone⟩ := h.handed call hcall
    refine ⟨claim, hclaim, hpair, fun task htask ↦ ?_⟩
    rw [List.getElem?_map] at htask
    obtain ⟨old, hold, rfl⟩ := Option.map_eq_some_iff.mp htask
    split
    · rfl
    · exact hdone old hold

/-! ## Steps of the tasks -/

/-- The ledger and the tasks. -/
structure Sound (notifier : Notifier) : Prop where
  ledger : LedgerSound notifier
  tasks : TasksSound notifier

/-- What the claim of a task can do. -/
inductive ClaimCase (notifier : Notifier) (index : ℕ) (task : Task) (now : ℤ) (token : String) :
    Notifier → Prop where
  | drawn : ClaimCase notifier index task now token notifier
  | refused (phase : Phase) (hfresh : token ∉ notifier.drawn)
    (hexhausted : ∀ row ∈ notifier.deliveries, claimable task.id now row = true →
      maxAttempts ≤ row.attemptCount) (hphase : phase = .ended ∨ phase = .reading token) :
    ClaimCase notifier index task now token ({ notifier with
      deliveries := claimUpdate notifier.deliveries task.id token now
      drawn := token :: notifier.drawn }.setPhase index task phase)
  | granted (row : Delivery) (hrow : row ∈ notifier.deliveries) (hid : row.id = task.id)
    (hdue : due now row = true) (hleft : row.attemptCount < maxAttempts) (phase : Phase)
    (hfresh : token ∉ notifier.drawn) (hphase : phase = .ended ∨ phase = .reading token) :
    ClaimCase notifier index task now token ({ notifier with
      deliveries := claimUpdate notifier.deliveries row.id token now
      drawn := token :: notifier.drawn
      claims := notifier.claims ++
        [Claim.mk index row.id token (now + claimMs) (row.attemptCount + 1)] }.setPhase index task
      phase)

theorem claim_cases (h : LedgerSound notifier) (index : ℕ) (task : Task) (now : ℤ) (token : String)
    : ClaimCase notifier index task now token
      (advanceClaiming notifier index task now token) := by
  unfold advanceClaiming
  split
  · exact .drawn
  · next hdrawn =>
    have hfresh : token ∉ notifier.drawn := by simpa using hdrawn
    generalize hphase : (if notifier.deliveries.countP (claimable task.id now) = 1 then
      Phase.reading token else .ended) = phase
    have hphase : phase = .ended ∨ phase = .reading token := by
      rw [← hphase]
      split
      · exact .inr rfl
      · exact .inl rfl
    unfold grant
    cases hfound : notifier.deliveries.find? (claimable task.id now) with
    | none =>
      have hnone := List.find?_eq_none.mp hfound
      have hcase : ClaimCase notifier index task now token _ := .refused phase hfresh
        (fun row hrow hclaimable ↦ absurd hclaimable (hnone row hrow)) hphase
      simpa using hcase
    | some row =>
      have hrow := List.mem_of_find?_eq_some hfound
      have hclaimable := List.find?_some hfound
      simp only [claimable, Bool.and_eq_true, beq_iff_eq] at hclaimable
      obtain ⟨hid, hdue⟩ := hclaimable
      by_cases hleft : row.attemptCount < maxAttempts
      · have hcase : ClaimCase notifier index task now token _ :=
          .granted row hrow hid hdue hleft phase hfresh hphase
        simpa [hleft, ← hid, Option.filter] using hcase
      · have honly : ∀ other ∈ notifier.deliveries, claimable task.id now other = true →
            maxAttempts ≤ other.attemptCount := by
          intro other hother hclaimable
          simp only [claimable, Bool.and_eq_true, beq_iff_eq] at hclaimable
          obtain rfl := h.unique.eq_of_mem hother hrow (hclaimable.1.trans hid.symm)
          exact Nat.not_lt.mp hleft
        have hcase : ClaimCase notifier index task now token _ :=
          .refused phase hfresh honly hphase
        simpa [hleft, Option.filter] using hcase

theorem tasksSound_claims (h : Sound notifier) (htask : notifier.tasks[index]? = some task)
    (hclaiming : task.phase = .claiming now) (hfresh : token ∉ notifier.drawn)
    {deliveries : List Delivery} {new : List Claim}
    (hnew : ∀ claim ∈ new, claim.task = index ∧ claim.token = token) {phase : Phase}
    (hphase : phase = .ended ∨ phase = .reading token) :
    TasksSound ({ notifier with
      deliveries
      drawn := token :: notifier.drawn
      claims := notifier.claims ++ new }.setPhase index task phase) := by
  have hunclaimed : ∀ claim ∈ notifier.claims, claim.task ≠ index := by
    have hsound := h.tasks.phases index task htask
    rw [hclaiming] at hsound
    exact hsound.2
  have hlt := (List.getElem?_eq_some_iff.mp htask).1
  constructor
  · intro other found hfound
    rcases getElem?_setPhase htask hfound with ⟨rfl, rfl⟩ | ⟨hne, hsame⟩
    · rcases hphase with rfl | rfl
      · trivial
      · refine ⟨List.mem_cons_self, fun claim hclaim htoken ↦ ?_⟩
        rcases List.mem_append.mp hclaim with hold | hadded
        · exact absurd (htoken ▸ h.ledger.drawn claim hold) hfresh
        · exact (hnew claim hadded).1
    · have hsound := h.tasks.phases other found hsame
      cases hkind : found.phase with
      | claiming start =>
        rw [hkind] at hsound
        refine ⟨hsound.1, List.forall_mem_append.mpr ⟨hsound.2, fun claim hclaim heq ↦ ?_⟩⟩
        exact hne (heq.symm.trans (hnew claim hclaim).1)
      | reading held =>
        rw [hkind] at hsound
        refine ⟨List.mem_cons_of_mem _ hsound.1,
          List.forall_mem_append.mpr ⟨hsound.2, fun claim hclaim heq ↦ ?_⟩⟩
        exact absurd (((hnew claim hclaim).2.symm.trans heq) ▸ hsound.1) hfresh
      | sending held attemptCount =>
        rw [hkind] at hsound
        obtain ⟨claim, hclaim, hgranted⟩ := hsound
        exact ⟨claim, List.mem_append_left _ hclaim, hgranted⟩
      | finishing held attemptCount result time =>
        rw [hkind] at hsound
        obtain ⟨claim, hclaim, hgranted⟩ := hsound
        exact ⟨claim, List.mem_append_left _ hclaim, hgranted⟩
      | ended => trivial
  · intro claim hclaim
    rw [Notifier.setPhase, List.length_set]
    rcases List.mem_append.mp hclaim with hold | hadded
    · exact h.tasks.bounded claim hold
    · exact (hnew claim hadded).1 ▸ hlt
  · exact h.tasks.handed_nodup
  · intro call hcall
    obtain ⟨claim, hclaim, hpair, hdone⟩ := h.tasks.handed call hcall
    refine ⟨claim, List.mem_append_left _ hclaim, hpair, fun found hfound ↦ ?_⟩
    rcases getElem?_setPhase htask hfound with ⟨heq, -⟩ | ⟨-, hsame⟩
    · exact absurd heq (hunclaimed claim hclaim)
    · exact hdone found hsame

theorem sound_claiming (h : Sound notifier) (htask : notifier.tasks[index]? = some task)
    (hclaiming : task.phase = .claiming now) (token : String) :
    Sound (advanceClaiming notifier index task now token) := by
  have hnow : now ≤ notifier.clock := by
    have hsound := h.tasks.phases index task htask
    rw [hclaiming] at hsound
    exact hsound.1
  have hcase := claim_cases h.ledger index task now token
  generalize advanceClaiming notifier index task now token = next at hcase ⊢
  cases hcase with
  | drawn => exact h
  | refused phase hfresh hexhausted hphase =>
    refine ⟨(ledgerSound_exhaust h.ledger hnow hexhausted).setPhase index task phase, ?_⟩
    have hnone : ∀ claim ∈ ([] : List Claim), claim.task = index ∧ claim.token = token :=
      fun _ hmem ↦ absurd hmem List.not_mem_nil
    simpa using tasksSound_claims h htask hclaiming hfresh hnone hphase
  | granted row hrow hid hdue hleft phase hfresh hphase =>
    refine ⟨(ledgerSound_grant h.ledger hnow hfresh hrow hdue hleft index).setPhase index task
      phase, ?_⟩
    exact tasksSound_claims h htask hclaiming hfresh (by simp) hphase

theorem sound_reading (h : Sound notifier) (htask : notifier.tasks[index]? = some task)
    (hreading : task.phase = .reading token) (availability : Availability) :
    Sound (advanceReading notifier index task token availability) := by
  have hsound := h.tasks.phases index task htask
  rw [hreading] at hsound
  have hnext : ∀ phase, PhaseSound notifier index task.id phase →
      Sound (notifier.setPhase index task phase) := fun phase hphase ↦
    ⟨h.ledger.setPhase index task phase,
      tasksSound_setPhase h.tasks htask hphase (by rw [hreading]; exact nofun)⟩
  unfold advanceReading
  cases hfound : claimedRow notifier.deliveries task.id token with
  | none => exact hnext .ended trivial
  | some row =>
    have hrow := List.mem_of_find?_eq_some hfound
    have hmatches := List.find?_some hfound
    simp only [Bool.and_eq_true, beq_iff_eq] at hmatches
    obtain ⟨claim, hclaim, htoken, hid, -, -, hattempt⟩ := h.ledger.held row hrow _ hmatches.2
    have hgranted : ∃ claim ∈ notifier.claims, claim.task = index ∧ claim.id = task.id ∧
        claim.token = token ∧ claim.attempt = row.attemptCount :=
      ⟨claim, hclaim, hsound.2 claim hclaim htoken, hid.trans hmatches.1, htoken, hattempt⟩
    cases availability with
    | channelUnavailable | ruleUnavailable | available => exact hnext _ hgranted

variable {attemptCount : ℕ}

theorem sound_sending (h : Sound notifier) (htask : notifier.tasks[index]? = some task)
    (hsending : task.phase = .sending token attemptCount) (provider : ProviderCall) :
    Sound (advanceSending notifier index task token attemptCount provider) := by
  have hsound := h.tasks.phases index task htask
  rw [hsending] at hsound
  obtain ⟨claim, hclaim, hindex, hid, htoken, hattempt⟩ := hsound
  have hphase : PhaseSound notifier index task.id
      (.finishing token attemptCount provider.result notifier.clock) :=
    ⟨claim, hclaim, hindex, hid, htoken, hattempt⟩
  have hnext := tasksSound_setPhase h.tasks htask hphase (fun _ ↦ rfl)
  refine ⟨h.ledger.withTasks _ _ _,
    ⟨hnext.phases, hnext.bounded, ?_, fun call hcall ↦ ?_⟩⟩
  · show (if provider = ProviderCall.notCalled then notifier.handed
      else (token, task.id) :: notifier.handed).Nodup
    split
    · exact h.tasks.handed_nodup
    · -- a call with this token would be one of this task, which has made none yet
      refine List.nodup_cons.mpr ⟨fun hcalled ↦ ?_, h.tasks.handed_nodup⟩
      obtain ⟨other, hother, hpair, hdone⟩ := h.tasks.handed _ hcalled
      obtain rfl := h.ledger.claim_eq hother hclaim
        ((Prod.mk.inj hpair).1.symm.trans htoken.symm)
      have hphase := hdone task (hindex ▸ htask)
      rw [hsending] at hphase
      cases hphase
  · have hcall : call ∈ if provider = ProviderCall.notCalled then notifier.handed
        else (token, task.id) :: notifier.handed := hcall
    have hold : ∀ call ∈ notifier.handed, _ := hnext.handed
    split at hcall
    · exact hold call hcall
    · rcases List.mem_cons.mp hcall with rfl | hmem
      · refine ⟨claim, hclaim, by rw [htoken, hid], fun found hfound ↦ ?_⟩
        rcases getElem?_setPhase htask hfound with ⟨-, rfl⟩ | ⟨hne, -⟩
        · rfl
        · exact absurd hindex hne
      · exact hold call hmem

theorem sound_finishing (h : Sound notifier) (htask : notifier.tasks[index]? = some task)
    (token : String) (attemptCount : ℕ) (result : DeliveryResult) (now : ℤ) :
    Sound (advanceFinishing notifier index task token attemptCount result now) := by
  refine ⟨(ledgerSound_finish h.ledger task.id token attemptCount result now).setPhase index task
    .ended, ?_⟩
  have hended : PhaseSound notifier index task.id .ended := trivial
  have htasks := tasksSound_setPhase h.tasks htask hended (fun _ ↦ rfl)
  exact htasks.mono le_rfl rfl rfl rfl rfl

theorem sound_step (h : Sound notifier) (action : Action) : Sound (step notifier action) := by
  cases action with
  | tick milliseconds =>
    have hclock : notifier.clock ≤ notifier.clock + milliseconds := by omega
    exact ⟨ledgerSound_tick h.ledger milliseconds, h.tasks.mono hclock rfl rfl rfl rfl⟩
  | enqueue id =>
    unfold step
    dsimp only
    split
    · exact h
    · next hnew =>
      exact ⟨ledgerSound_enqueue h.ledger (by simpa using hnew) notifier.clock,
        h.tasks.mono le_rfl rfl rfl rfl rfl⟩
  | begin =>
    exact ⟨h.ledger.withTasks _ _ _, h.tasks.mono le_rfl rfl rfl rfl rfl⟩
  | batch run =>
    unfold step
    dsimp only
    split
    · exact h
    · exact ⟨h.ledger.withTasks _ _ _, tasksSound_batch h.tasks run _ _⟩
  | advance index environment =>
    unfold step
    dsimp only
    split
    · exact h
    · next task htask =>
      unfold advance
      split
      · next hphase => exact sound_claiming h htask hphase environment.token
      · next hphase => exact sound_reading h htask hphase environment.availability
      · next hphase => exact sound_sending h htask hphase environment.provider
      · exact sound_finishing h htask _ _ _ _
      · exact h
  | fail index =>
    unfold step
    dsimp only
    split
    · exact h
    · next task htask =>
      have hended : PhaseSound notifier index task.id .ended := trivial
      have htasks := tasksSound_setPhase h.tasks htask hended (fun _ ↦ rfl)
      exact ⟨h.ledger.withTasks _ _ _, htasks.mono le_rfl rfl rfl rfl rfl⟩
  | crash run =>
    exact ⟨h.ledger.withTasks _ _ _, tasksSound_crash h.tasks run _⟩

/-! ## Discipline -/

theorem retryDelayMs_mono : Monotone retryDelayMs := by
  intro first second hle
  have hpow : 2 ^ (first - 1) ≤ 2 ^ (second - 1) :=
    Nat.pow_le_pow_right Nat.two_pos (Nat.sub_le_sub_right hle 1)
  exact min_le_min le_rfl (Nat.mul_le_mul_left _ hpow)

theorem retryDelayMs_le (attempt : ℕ) : retryDelayMs attempt ≤ 60 * 60000 :=
  min_le_left _ _

/-- What holds at any time. -/
structure Disciplined (notifier : Notifier) : Prop where
  handed_le : ∀ id, (notifier.handed.countP fun call ↦ call.2 == id) ≤ maxAttempts
  one_claim : ∀ first ∈ notifier.claims, ∀ second ∈ notifier.claims, first.id = second.id →
    first.token ∉ notifier.recorded → second.token ∉ notifier.recorded →
    notifier.clock < first.claimUntil → notifier.clock < second.claimUntil → first = second
  delays : ∀ id, ((claimsOf notifier.claims id).map fun claim ↦ retryDelayMs claim.attempt).Pairwise
    (· ≤ ·) ∧ ∀ claim ∈ claimsOf notifier.claims id, retryDelayMs claim.attempt ≤ 60 * 60000

theorem disciplined_of_sound (h : Sound notifier) :
    Disciplined notifier where
  handed_le id := (h.tasks.countP_handed_le id).trans (h.ledger.length_claimsOf_le id)
  one_claim _ hfirst _ hsecond hid hlive hlive' hclock hclock' :=
    h.ledger.live_unique hfirst hsecond hid hlive hlive' hclock hclock'
  delays id := by
    refine ⟨?_, fun claim _ ↦ retryDelayMs_le claim.attempt⟩
    have hsorted := List.pairwise_map.mp (h.ledger.attempts_sorted id)
    exact List.pairwise_map.mpr (hsorted.imp fun hlt ↦ retryDelayMs_mono hlt.le)

/-- What holds of every step. -/
structure StepDisciplined (notifier : Notifier) (action : Action) : Prop where
  terminal : ∀ row ∈ notifier.deliveries, row.state = .sent ∨ row.state = .dead →
    row ∈ (step notifier action).deliveries
  overtaken : ∀ index environment task token attemptCount result now,
    action = .advance index environment → notifier.tasks[index]? = some task →
    task.phase = .finishing token attemptCount result now →
    ∀ claim ∈ notifier.claims, claim.token = token → ∀ newer ∈ notifier.claims,
      newer.id = claim.id → claim.attempt < newer.attempt →
      (step notifier action).deliveries = notifier.deliveries
  delayed : ∀ index environment task token attemptCount result now,
    action = .advance index environment → notifier.tasks[index]? = some task →
    task.phase = .finishing token attemptCount result now →
    ∀ row ∈ (step notifier action).deliveries, row.state = .pending →
      row ∈ notifier.deliveries ∨ row.nextAttemptAt = now + retryDelayMs row.attemptCount

theorem mem_step_of_settled (hrow : row ∈ notifier.deliveries)
    (hsettled : row.state = .sent ∨ row.state = .dead) (action : Action) :
    row ∈ (step notifier action).deliveries := by
  have hclaimable : ∀ id now, claimable id now row = false := by
    intro id now
    rcases hsettled with hstate | hstate <;> simp [claimable, due, hstate]
  have hfinishable : ∀ id token, finishable id token row = false := by
    intro id token
    rcases hsettled with hstate | hstate <;> simp [finishable, hstate]
  cases action with
  | tick | begin | crash => exact hrow
  | enqueue id =>
    unfold step
    dsimp only
    split
    · exact hrow
    · exact List.mem_append_left _ hrow
  | batch run =>
    unfold step
    dsimp only
    split <;> exact hrow
  | fail index =>
    unfold step
    dsimp only
    split <;> exact hrow
  | advance index environment =>
    unfold step
    dsimp only
    split
    · exact hrow
    · next task htask =>
      unfold advance
      split
      · unfold advanceClaiming
        split
        · exact hrow
        · exact mem_updateWhere_of_not hrow (hclaimable _ _)
      · unfold advanceReading
        split
        · exact hrow
        · split <;> exact hrow
      · exact hrow
      · exact mem_updateWhere_of_not hrow (hfinishable _ _)
      · exact hrow

theorem step_finishing (htask : notifier.tasks[index]? = some task) {result : DeliveryResult}
    (hphase : task.phase = .finishing token attemptCount result now) (environment : Environment) :
    (step notifier (.advance index environment)).deliveries =
      finishUpdate notifier.deliveries task.id token attemptCount result now := by
  simp only [step, htask, advance, hphase]
  rfl

theorem Sound.finishing_row (h : Sound notifier) (htask : notifier.tasks[index]? = some task)
    {result : DeliveryResult} (hphase : task.phase = .finishing token attemptCount result now)
    (hrow : row ∈ notifier.deliveries) (hfinishable : finishable task.id token row = true) :
    row.attemptCount = attemptCount ∧ ∀ claim ∈ notifier.claims, claim.token = token →
      claim.attempt = row.attemptCount ∧ claim.id = row.id := by
  simp only [finishable, Bool.and_eq_true, beq_iff_eq] at hfinishable
  have hsound := h.tasks.phases index task htask
  rw [hphase] at hsound
  obtain ⟨granted, hgranted, -, -, htoken, hattempt⟩ := hsound
  obtain ⟨holder, hholder, hsame, hid, -, -, hcount⟩ := h.ledger.held row hrow _ hfinishable.2
  obtain rfl := h.ledger.claim_eq hgranted hholder (htoken.trans hsame.symm)
  refine ⟨hcount.symm.trans hattempt, fun claim hclaim hclaimToken ↦ ?_⟩
  obtain rfl := h.ledger.claim_eq hclaim hgranted (hclaimToken.trans htoken.symm)
  exact ⟨hcount, hid⟩

theorem stepDisciplined_of_sound (h : Sound notifier) (action : Action) :
    StepDisciplined notifier action where
  terminal _ hrow hsettled := mem_step_of_settled hrow hsettled action
  overtaken := by
    rintro index environment task token attemptCount result now rfl htask hphase claim hclaim
      htoken newer hnewer hid hlater
    rw [step_finishing htask hphase]
    -- the row counts the newest attempt, so its token is not the older one
    refine updateWhere_eq_self fun row hrow ↦ Bool.eq_false_iff.mpr fun hfinishable ↦ ?_
    obtain ⟨-, hheld⟩ := h.finishing_row htask hphase hrow hfinishable
    obtain ⟨hattempt, hrowid⟩ := hheld claim hclaim htoken
    have hle := (h.ledger.attempt_mem hrow hnewer (hid.trans hrowid)).2
    omega
  delayed := by
    rintro index environment task token attemptCount result now rfl htask hphase row hrow hpending
    rw [step_finishing htask hphase] at hrow
    obtain ⟨old, hold, ⟨hfinishable, rfl⟩ | ⟨-, rfl⟩⟩ := mem_updateWhere.mp hrow
    · have hcount := (h.finishing_row htask hphase hold hfinishable).1
      have hstate : finishedState attemptCount result = .pending := hpending
      right
      simp [finished, hstate, hcount]
    · exact .inl hold

/-- In every run of notification workers, whatever their interleaving, crashes, expiries and late
completions: no delivery is handed to its provider more than `MAX_ATTEMPTS` times; at any time at
most one claim of a delivery is neither expired nor recorded; the delays of successive attempts
do not decrease and are bounded by an hour; and in every step settled deliveries stay as they
are, and a task that was overtaken changes nothing. -/
theorem claims_disciplined (clock : ℤ) (actions : List Action) :
    Visits step Disciplined (empty clock) actions ∧
      Along step StepDisciplined (empty clock) actions := by
  have hstart : Sound (empty clock) := ⟨ledgerSound_empty clock, tasksSound_empty clock⟩
  have hstep := fun notifier action (h : Sound notifier) ↦ sound_step h action
  constructor
  · exact visits_mono (fun _ ↦ disciplined_of_sound) (visits_invariant hstep hstart actions)
  · exact along_invariant hstep (fun _ action h ↦ stepDisciplined_of_sound h action) hstart actions

end AlphaPing.Notifications.Outbox
