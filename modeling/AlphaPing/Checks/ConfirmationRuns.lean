import AlphaPing.Checks.Confirmation
import AlphaPing.Library.Streaks

/-!
# What the confirmation window does over a run

A check that is healthy stays so until as many results in a row are not healthy as the failure
threshold asks for, and a check that is not stays so until as many results in a row are healthy as
the recovery threshold asks for. The failure counter is the streak of the results that are not
healthy while the check is healthy, and the success counter is the streak of the healthy ones while
it is not; each is reset by a result of the other kind.

The results may be confirmed by the ingest worker, by the checks worker, or by each in turn.
-/

namespace AlphaPing.Checks

open Ingest.CheckResults Library.Streaks

/-- A result that counts as a success. -/
def successful (observed : ExecutedState) : Bool :=
  decide (observed = .healthy)

/-- A result that counts as a failure. -/
def failing (observed : ExecutedState) : Bool :=
  !successful observed

variable {thresholds : Thresholds}

/-- The counters of a standing follow the results so far. -/
structure Follows (past : List ExecutedState) (current : Standing) : Prop where
  known : current.state ≠ .unknown
  failures : current.state = .healthy → current.failures = asU32 (streak failing past)
  successes : current.state ≠ .healthy → current.successes = asU32 (streak successful past)
  apart : current.failures = 0 ∨ current.successes = 0

/-- What a result does to a check with the given history. -/
structure Law (thresholds : Thresholds) (past : List ExecutedState)
    (before after : ResultState) : Prop where
  leaves : before = .healthy →
    (after ≠ .healthy ↔ LastAll failing thresholds.failureConfirmations past)
  recovers : before ≠ .healthy →
    (after = .healthy ↔ LastAll successful thresholds.recoveryConfirmations past)
  stays_down : before = .down → after = .down ∨ after = .healthy

theorem le_asU32_iff {threshold count : ℕ} (h : threshold ≤ 20) :
    threshold ≤ asU32 count ↔ threshold ≤ count := by
  unfold asU32
  omega

theorem asU32_succ (count : ℕ) : asU32 (asU32 count + 1) = asU32 (count + 1) := by
  unfold asU32
  omega

theorem streak_successful (past : List ExecutedState) (observed : ExecutedState) :
    streak successful (past ++ [observed]) =
      if observed = .healthy then streak successful past + 1 else 0 := by
  rw [streak_append_singleton]
  exact if_congr decide_eq_true_iff rfl rfl

theorem streak_failing (past : List ExecutedState) (observed : ExecutedState) :
    streak failing (past ++ [observed]) =
      if observed = .healthy then 0 else streak failing past + 1 := by
  rw [streak_append_singleton]
  by_cases hhealthy : observed = .healthy <;> simp [failing, successful, hhealthy]

variable {past : List ExecutedState} {current : Standing}

theorem Follows.success_of_healthy (hstate : current.state = .healthy) :
    Follows (past ++ [.healthy]) (Standing.confirm thresholds (some current) .healthy) ∧
      Law thresholds (past ++ [.healthy]) current.state
        (Standing.confirm thresholds (some current) .healthy).state := by
  have hnext : (Standing.confirm thresholds (some current) .healthy).state = .healthy := by
    simp [Standing.confirm, hstate]
  have hreset : streak failing (past ++ [.healthy]) = 0 := by rw [streak_failing, if_pos rfl]
  have hpositive := thresholds.failure_range.1
  constructor
  · exact ⟨by rw [hnext]; decide, fun _ ↦ by rw [hreset]; rfl,
      fun hunhealthy ↦ absurd hnext hunhealthy, .inl rfl⟩
  · refine ⟨fun _ ↦ ?_, fun hunhealthy ↦ absurd hstate hunhealthy, fun _ ↦ .inr hnext⟩
    rw [lastAll_iff, hreset, hnext]
    exact iff_of_false (fun h ↦ h rfl) (by omega)

theorem Follows.success_of_unhealthy (h : Follows past current) (hstate : current.state ≠ .healthy)
    : Follows (past ++ [.healthy]) (Standing.confirm thresholds (some current) .healthy) ∧
      Law thresholds (past ++ [.healthy]) current.state
        (Standing.confirm thresholds (some current) .healthy).state := by
  have hreset : streak failing (past ++ [.healthy]) = 0 := by rw [streak_failing, if_pos rfl]
  have hcount : (Standing.confirm thresholds (some current) .healthy).successes =
      asU32 (streak successful (past ++ [.healthy])) := by
    have hsuccesses := h.successes hstate
    rw [streak_successful, if_pos rfl, ← asU32_succ, ← hsuccesses]
    simp [Standing.confirm]
  have hnext : (Standing.confirm thresholds (some current) .healthy).state =
      if thresholds.recoveryConfirmations ≤ streak successful (past ++ [.healthy]) then .healthy
      else current.state := by
    have hreach := @le_asU32_iff _ (streak successful (past ++ [.healthy]))
      thresholds.recovery_range.2
    simp only [← hreach, ← hcount]
    simp [Standing.confirm, hstate]
  have hrecovers : (Standing.confirm thresholds (some current) .healthy).state = .healthy ↔
      LastAll successful thresholds.recoveryConfirmations (past ++ [.healthy]) := by
    rw [lastAll_iff, hnext]
    split
    · next hreached => exact iff_of_true rfl hreached
    · next hreached => exact iff_of_false hstate hreached
  have hkept : (Standing.confirm thresholds (some current) .healthy).state = .healthy ∨
      (Standing.confirm thresholds (some current) .healthy).state = current.state := by
    rw [hnext]
    split
    · exact .inl rfl
    · exact .inr rfl
  constructor
  · refine ⟨fun hunknown ↦ ?_, fun _ ↦ by rw [hreset]; rfl, fun _ ↦ hcount, .inl rfl⟩
    rcases hkept with hhealthy | hsame
    · rw [hunknown] at hhealthy
      cases hhealthy
    · exact h.known (hsame.symm.trans hunknown)
  · exact ⟨fun hhealthy ↦ absurd hhealthy hstate, fun _ ↦ hrecovers,
      fun hdown ↦ hkept.symm.imp_left fun hsame ↦ hsame.trans hdown⟩

/-- A failure starts an outage of a healthy check once the failure threshold is reached. -/
theorem Follows.failure_of_healthy (h : Follows past current) (hstate : current.state = .healthy)
    {observed : ExecutedState} (hobserved : observed ≠ .healthy) :
    Follows (past ++ [observed]) (Standing.confirm thresholds (some current) observed) ∧
      Law thresholds (past ++ [observed]) current.state
        (Standing.confirm thresholds (some current) observed).state := by
  have hreset : streak successful (past ++ [observed]) = 0 := by
    rw [streak_successful, if_neg hobserved]
  have hcount : (Standing.confirm thresholds (some current) observed).failures =
      asU32 (streak failing (past ++ [observed])) := by
    rw [streak_failing, if_neg hobserved, ← asU32_succ, ← h.failures hstate]
    simp [Standing.confirm, hobserved]
  have hnone : (Standing.confirm thresholds (some current) observed).successes = 0 := by
    simp [Standing.confirm, hobserved]
  have hnext : (Standing.confirm thresholds (some current) observed).state =
      if thresholds.failureConfirmations ≤ streak failing (past ++ [observed]) then
        observed.toResultState
      else .healthy := by
    have hreach := @le_asU32_iff _ (streak failing (past ++ [observed]))
      thresholds.failure_range.2
    simp only [← hreach, ← hcount]
    simp [Standing.confirm, hstate, hobserved]
  have hbad : observed.toResultState ≠ .healthy ∧ observed.toResultState ≠ .unknown := by
    cases observed with
    | healthy => exact absurd rfl hobserved
    | degraded => decide
    | down => decide
  constructor
  · refine ⟨?_, fun _ ↦ hcount, fun _ ↦ by rw [hreset, hnone]; rfl, .inr hnone⟩
    rw [hnext]
    split
    · exact hbad.2
    · decide
  · refine ⟨fun _ ↦ ?_, fun hunhealthy ↦ absurd hstate hunhealthy, fun hdown ↦ ?_⟩
    · rw [lastAll_iff, hnext]
      split
      · next hreached => exact iff_of_true hbad.1 hreached
      · next hreached => exact iff_of_false (fun hchanged ↦ hchanged rfl) hreached
    · rw [hstate] at hdown
      cases hdown

/-- A failure during an outage continues it, and does not turn a down check degraded. -/
theorem Follows.failure_of_unhealthy (h : Follows past current) (hstate : current.state ≠ .healthy)
    {observed : ExecutedState} (hobserved : observed ≠ .healthy) :
    Follows (past ++ [observed]) (Standing.confirm thresholds (some current) observed) ∧
      Law thresholds (past ++ [observed]) current.state
        (Standing.confirm thresholds (some current) observed).state := by
  have hreset : streak successful (past ++ [observed]) = 0 := by
    rw [streak_successful, if_neg hobserved]
  have hpositive := thresholds.recovery_range.1
  have hnone : (Standing.confirm thresholds (some current) observed).successes = 0 := by
    simp [Standing.confirm, hobserved]
  have hnext : (Standing.confirm thresholds (some current) observed).state = .down ∨
      current.state ≠ .down ∧
        (Standing.confirm thresholds (some current) observed).state = .degraded := by
    have hknown := h.known
    cases hcurrent : current.state with
    | healthy => exact absurd hcurrent hstate
    | unknown => exact absurd hcurrent hknown
    | degraded =>
      cases observed with
      | healthy => exact absurd rfl hobserved
      | degraded =>
        exact .inr ⟨by decide, by simp [Standing.confirm, hcurrent, ExecutedState.toResultState]⟩
      | down => exact .inl (by simp [Standing.confirm, hcurrent, ExecutedState.toResultState])
    | down =>
      cases observed with
      | healthy => exact absurd rfl hobserved
      | degraded => exact .inl (by simp [Standing.confirm, hcurrent])
      | down => exact .inl (by simp [Standing.confirm, hcurrent, ExecutedState.toResultState])
  have hunhealthy : (Standing.confirm thresholds (some current) observed).state ≠ .healthy ∧
      (Standing.confirm thresholds (some current) observed).state ≠ .unknown := by
    rcases hnext with hdown | ⟨-, hdegraded⟩
    · rw [hdown]
      decide
    · rw [hdegraded]
      decide
  constructor
  · exact ⟨hunhealthy.2, fun hhealthy ↦ absurd hhealthy hunhealthy.1,
      fun _ ↦ by rw [hreset, hnone]; rfl, .inr hnone⟩
  · refine ⟨fun hhealthy ↦ absurd hhealthy hstate, fun _ ↦ ?_, fun hdown ↦ ?_⟩
    · rw [lastAll_iff, hreset]
      exact iff_of_false hunhealthy.1 (by omega)
    · rcases hnext with hdown' | ⟨hnot, -⟩
      · exact .inl hdown'
      · exact absurd hdown hnot

theorem Follows.confirm (h : Follows past current) (observed : ExecutedState) :
    Follows (past ++ [observed]) (Standing.confirm thresholds (some current) observed) ∧
      Law thresholds (past ++ [observed]) current.state
        (Standing.confirm thresholds (some current) observed).state := by
  by_cases hobserved : observed = .healthy
  · subst hobserved
    by_cases hstate : current.state = .healthy
    · exact success_of_healthy hstate
    · exact h.success_of_unhealthy hstate
  · by_cases hstate : current.state = .healthy
    · exact h.failure_of_healthy hstate hobserved
    · exact h.failure_of_unhealthy hstate hobserved

theorem standings_law (h : Follows past current) (observed : List ExecutedState) :
    (∀ standing ∈ standings thresholds (some current) observed,
      standing.failures = 0 ∨ standing.successes = 0) ∧
    ∀ (index : ℕ) (before after : Standing),
      (current :: standings thresholds (some current) observed)[index]? = some before →
      (standings thresholds (some current) observed)[index]? = some after →
      Law thresholds (past ++ observed.take (index + 1)) before.state after.state := by
  induction observed generalizing past current with
  | nil => exact ⟨fun _ hmem ↦ absurd hmem List.not_mem_nil, fun _ _ _ _ hafter ↦ by cases hafter⟩
  | cons first rest ih =>
    obtain ⟨hfollows, hlaw⟩ := @Follows.confirm thresholds _ _ h first
    obtain ⟨hapart, hrest⟩ := ih hfollows
    refine ⟨fun standing hmem ↦ ?_, fun index before after hbefore hafter ↦ ?_⟩
    · rcases List.mem_cons.mp hmem with rfl | hmem
      · exact hfollows.apart
      · exact hapart standing hmem
    · cases index with
      | zero =>
        cases hbefore
        cases hafter
        exact hlaw
      | succ index =>
        have hnext := hrest index before after hbefore hafter
        rwa [List.append_assoc, List.singleton_append] at hnext

/-! ## The rows of a run -/

theorem asU32_eq_zero {count : ℕ} : asU32 count = 0 ↔ count = 0 := by
  unfold asU32
  omega

theorem down_until_healthy {rows : List PreviousConfirmation}
    (hstep : ∀ (index : ℕ) (before after : PreviousConfirmation),
      rows[index]? = some before → rows[index + 1]? = some after → before.state = .down →
        after.state = .down ∨ after.state = .healthy)
    {first last : ℕ} {down : PreviousConfirmation} (hdown : rows[first]? = some down)
    (hstate : down.state = .down) (hle : first ≤ last) {row : PreviousConfirmation}
    (hrow : rows[last]? = some row) :
    row.state = .down ∨ ∃ between other, first < between ∧ between ≤ last ∧
      rows[between]? = some other ∧ other.state = .healthy := by
  induction last, hle using Nat.le_induction generalizing row with
  | base =>
    cases hdown.symm.trans hrow
    exact .inl hstate
  | succ last hle ih =>
    have hlast : last < rows.length :=
      Nat.lt_of_succ_lt (List.getElem?_eq_some_iff.mp hrow).1
    rcases ih (List.getElem?_eq_getElem hlast) with hbefore | ⟨between, other, hlt, hbound, hother⟩
    · rcases hstep last _ row (List.getElem?_eq_getElem hlast) hrow hbefore with hsame | hhealthy
      · exact .inl hsame
      · exact .inr ⟨last + 1, row, Nat.lt_succ_of_le hle, le_rfl, hrow, hhealthy⟩
    · exact .inr ⟨between, other, hlt, Nat.le_succ_of_le hbound, hother⟩

/-- The run of a check that starts healthy. A point at which it leaves the healthy state is one at
which the last results, as many as the failure threshold, all fail, and no earlier point of the
same healthy period is; a point at which it becomes healthy again is one at which the last
results, as many as the recovery threshold, all succeed, and no earlier point of the outage is. -/
theorem confirmation_run (thresholds : Thresholds) (executorOf : ℕ → Executor)
    {start : PreviousConfirmation} (hstart : start.state = .healthy)
    (hfailures : start.consecutiveFailures = 0) (sightings : List Sighting) :
    let rows := history thresholds executorOf (some start) sightings
    let observed := sightings.map fun sighting ↦ sighting.check.state
    (∀ (index : ℕ) (before after : PreviousConfirmation),
      (start :: rows)[index]? = some before → rows[index]? = some after →
        (before.state = .healthy → (after.state ≠ .healthy ↔
          LastAll failing thresholds.failureConfirmations (observed.take (index + 1)))) ∧
        (before.state ≠ .healthy → (after.state = .healthy ↔
          LastAll successful thresholds.recoveryConfirmations (observed.take (index + 1))))) ∧
    (∀ (first last : ℕ) (down degraded : PreviousConfirmation), first < last →
      rows[first]? = some down → down.state = .down →
      rows[last]? = some degraded → degraded.state = .degraded →
        ∃ between other, first < between ∧ between < last ∧ rows[between]? = some other ∧
          other.state = .healthy) ∧
    ∀ row ∈ rows, row.consecutiveFailures = 0 ∨ row.consecutiveSuccesses = 0 := by
  intro rows observed
  have hfollows : Follows [] (standing start) := by
    have hnone : (standing start).failures = 0 := by rw [standing, hfailures, asU32_zero]
    have hhealthy : (standing start).state = .healthy := hstart
    exact ⟨by rw [hhealthy]; decide, fun _ ↦ hnone, fun hnot ↦ absurd hhealthy hnot, .inl hnone⟩
  obtain ⟨hapart, hlaw⟩ := @standings_law thresholds _ _ hfollows observed
  have hrows : rows.map standing = standings thresholds (some (standing start)) observed :=
    map_standing_history thresholds executorOf (some start) sightings
  have hstep : ∀ (index : ℕ) (before after : PreviousConfirmation),
      (start :: rows)[index]? = some before → rows[index]? = some after →
      Law thresholds (observed.take (index + 1)) before.state after.state := by
    intro index before after hbefore hafter
    refine hlaw index (standing before) (standing after) ?_ ?_
    · rw [← hrows, ← List.map_cons, List.getElem?_map, hbefore]
      rfl
    · rw [← hrows, List.getElem?_map, hafter]
      rfl
  refine ⟨fun index before after hbefore hafter ↦ ?_,
    fun first last down degraded hlt hdown hstate hrow hdegraded ↦ ?_, fun row hrow ↦ ?_⟩
  · have hpoint := hstep index before after hbefore hafter
    exact ⟨hpoint.leaves, hpoint.recovers⟩
  · have hdowns : ∀ (index : ℕ) (before after : PreviousConfirmation),
        rows[index]? = some before → rows[index + 1]? = some after → before.state = .down →
          after.state = .down ∨ after.state = .healthy :=
      fun index before after hbefore hafter ↦ (hstep (index + 1) before after hbefore
        hafter).stays_down
    rcases down_until_healthy hdowns hdown hstate hlt.le hrow with
      hsame | ⟨between, other, hfirst, hbound, hother, hhealthy⟩
    · rw [hdegraded] at hsame
      cases hsame
    · refine ⟨between, other, hfirst, lt_of_le_of_ne hbound fun heq ↦ ?_, hother, hhealthy⟩
      rw [heq, hrow] at hother
      cases hother
      rw [hdegraded] at hhealthy
      cases hhealthy
  · have hmem : standing row ∈ standings thresholds (some (standing start)) observed :=
      hrows ▸ List.mem_map_of_mem hrow
    exact (hapart _ hmem).imp asU32_eq_zero.mp asU32_eq_zero.mp

/-- The row of a check that has had one success. -/
def healthyRow : PreviousConfirmation where
  state := .healthy
  failureCode := none
  failureSummary := none
  consecutiveFailures := 0
  consecutiveSuccesses := 1

theorem confirmation_run_three_failures :
    let rows := history ⟨3, 2, by decide, by decide⟩ (fun _ ↦ .agent) (some healthyRow)
      [failedSighting, failedSighting, failedSighting]
    rows.map (·.state) = [.healthy, .healthy, .down] ∧
      ∀ row ∈ rows, row.consecutiveFailures = 0 ∨ row.consecutiveSuccesses = 0 :=
  ⟨by decide, (confirmation_run ⟨3, 2, by decide, by decide⟩ (fun _ ↦ .agent) rfl rfl
    [failedSighting, failedSighting, failedSighting]).2.2⟩

end AlphaPing.Checks
