import AlphaPing.Retention.Runs

/-!
# What a failing workspace does to the others

The cursor of a run comes past the workspaces only that the run has cleaned. While it goes round,
every workspace is cleaned. A workspace under another lease is skipped, and the others of its page
are cleaned all the same; but when the cleanup of a workspace throws, the run ends there.
-/

namespace AlphaPing.Retention.Isolation

open Library.Pages Library.Runs Library.Tables Library.Workflows Runs

/-! ## Reports -/

def cleaned (report : RunReport) : List ℕ :=
  (report.visits.filter fun visit ↦ visit.2 = .processed).map Prod.fst

/-- The run as a pass over the workspaces. -/
def pass (report : RunReport) : Pass ℕ where
  start := report.batch.workspaceCursor
  finish := report.cursor
  advanced := report.skippedWorkspaces = 0
  present := report.present
  handled := cleaned report

/-- The run has come to every workspace of its page, unless the time was over, and to the cleanup
of commands and artifacts. -/
structure Isolated (report : RunReport) : Prop where
  others : ∀ policy ∈ report.batch.policies,
    policy.workspacePk ∈ report.visits.map Prod.fst ∨ report.deadlineReached = true
  reachedGlobal : report.reachedGlobal = true

instance (report : RunReport) : Decidable (Isolated report) :=
  decidable_of_iff
    ((∀ policy ∈ report.batch.policies, policy.workspacePk ∈ report.visits.map Prod.fst ∨
      report.deadlineReached = true) ∧ report.reachedGlobal = true)
    ⟨fun h ↦ ⟨h.1, h.2⟩, fun h ↦ ⟨h.others, h.reachedGlobal⟩⟩

/-- The batch was loaded from the table. -/
def Loaded (report : RunReport) : Prop :=
  ∃ db : RetentionDb, report.batch = loadPolicies db report.batch.workspaceCursor ∧
    report.present = db.policies.rows.map RetentionPolicyRow.workspacePk

/-- What has become of the policies that the loop has come to. -/
structure Accounts (done : List RetentionPolicyRow) (report : RunReport) : Prop where
  loaded : Loaded report
  visited : report.visits.map Prod.fst = done.map RetentionPolicyRow.workspacePk
  processed : report.skippedWorkspaces = 0 → ∀ visit ∈ report.visits, visit.2 = .processed

theorem mem_cleaned_of_accounts {done : List RetentionPolicyRow} {report : RunReport}
    (h : Accounts done report) (hskipped : report.skippedWorkspaces = 0)
    {policy : RetentionPolicyRow} (hpolicy : policy ∈ done) :
    policy.workspacePk ∈ cleaned report := by
  have hvisited : policy.workspacePk ∈ report.visits.map Prod.fst := by
    rw [h.visited]
    exact List.mem_map_of_mem hpolicy
  rwa [cleaned, List.filter_eq_self.mpr fun visit hvisit ↦ by
    simpa using h.processed hskipped visit hvisit]

theorem sound_pass {report : RunReport} (hloaded : Loaded report)
    (hcleaned : report.skippedWorkspaces = 0 → ∀ policy ∈ report.batch.policies,
      policy.workspacePk ∈ cleaned report) : (pass report).Sound policyBatch := by
  obtain ⟨db, hbatch, hpresent⟩ := hloaded
  apply sound_of_page db.policies.unique (by decide) hpresent
  · have hnext := congrArg RetentionPolicyBatch.nextWorkspaceCursor hbatch
    simp only [pass, RunReport.cursor, resolveRetentionWorkspaceCursor, decide_eq_true_eq]
    split
    · exact hnext
    · rfl
  · intro hadvanced policy hpolicy
    apply hcleaned (of_decide_eq_true hadvanced)
    rw [hbatch]
    exact hpolicy

theorem Accounts.visit {done : List RetentionPolicyRow} {report : RunReport}
    (h : Accounts done report) (policy : RetentionPolicyRow) (result : WorkspaceCleanupResult) :
    Accounts (done ++ [policy]) (report.visit policy.workspacePk (some result)) := by
  refine ⟨h.loaded, ?_, fun hskipped ↦ ?_⟩
  · simp [RunReport.visit, h.visited]
  · have hsum := Nat.add_eq_zero_iff.mp hskipped
    intro visit hvisit
    rcases List.mem_append.mp hvisit with hold | hnew
    · exact h.processed hsum.1 visit hold
    · rw [List.mem_singleton.mp hnew]
      cases hprocessed : result.processed with
      | true => simp [visitOf, hprocessed]
      | false => simp [visitOf, hprocessed] at hsum

/-! ## The cursor -/

def StoresSound : Batch → Prop
  | .complete report _ => (pass report).Sound policyBatch
  | _ => True

abbrev Careful (flow : Flow) : Prop := flow.Sends fun batch _ ↦ StoresSound batch

section Sends

variable {run : ScheduledRun}

theorem careful_cleanWorkspace {policy : RetentionPolicyRow}
    {next : Option WorkspaceCleanupResult → Flow} (h : ∀ result, Careful (next result)) :
    Careful (cleanWorkspace run policy next) := by
  rw [cleanWorkspace]
  split
  · exact h none
  · refine ⟨trivial, fun reply ↦ ?_⟩
    dsimp only
    split
    · split
      · exact h none
      · refine ⟨trivial, fun reply ↦ ?_⟩
        dsimp only
        split
        · split
          · exact h none
          · exact h _
        · exact h none
    · exact h _

theorem careful_failRun (report : RunReport) : Careful (failRun run report) :=
  ⟨trivial, fun _ ↦ trivial⟩

theorem careful_completeRun {report : RunReport} (h : (pass report).Sound policyBatch) :
    Careful (completeRun run report) := by
  rw [completeRun]
  dsimp only
  split
  · exact careful_failRun _
  · refine ⟨h, fun reply ↦ ?_⟩
    dsimp only
    split
    · exact ⟨trivial, fun _ ↦ trivial⟩
    · exact careful_failRun _

theorem careful_processRetentionPolicies (policies : List RetentionPolicyRow) :
    ∀ (continues : List Bool) (done : List RetentionPolicyRow) (report : RunReport),
      report.batch.policies = done ++ policies → Accounts done report →
      Careful (processRetentionPolicies run (completeRun run) (failRun run) policies continues
        report) := by
  induction policies with
  | nil =>
    intro continues done report hpolicies haccounts
    apply careful_completeRun
    apply sound_pass haccounts.loaded
    intro hskipped policy hpolicy
    rw [hpolicies, List.append_nil] at hpolicy
    exact mem_cleaned_of_accounts haccounts hskipped hpolicy
  | cons policy rest ih =>
    intro continues done report hpolicies haccounts
    rw [processRetentionPolicies]
    split
    · apply careful_cleanWorkspace
      intro result
      cases result with
      | none => exact careful_failRun _
      | some result =>
        apply ih continues.tail (done ++ [policy])
        · rw [List.append_assoc, List.singleton_append]
          exact hpolicies
        · exact haccounts.visit policy result
    · apply careful_completeRun
      apply sound_pass
      · exact haccounts.loaded
      · intro hskipped
        simp at hskipped

theorem careful_handle (request : Request) : Careful (handle request) := by
  cases request with
  | administer policies => exact ⟨trivial, fun _ ↦ trivial⟩
  | scheduled run =>
    refine ⟨trivial, fun reply ↦ ?_⟩
    dsimp only
    split
    · intro db later
      apply careful_processRetentionPolicies _ _ []
      · rfl
      · exact ⟨⟨later, rfl, rfl⟩, rfl, fun _ _ h ↦ absurd h List.not_mem_nil⟩
    · trivial

end Sends

/-- Every stored cursor comes from a sound pass. -/
def Sound (db : RetentionDb) : Prop :=
  ∀ report ∈ db.reports, (pass report).Sound policyBatch

theorem perform_sound (db : RetentionDb) (batch : Batch) (hdb : Sound db)
    (hbatch : StoresSound batch) (_ : True) : Sound (perform batch db).1 := by
  cases batch with
  | claim runId now =>
    dsimp only [perform]
    split <;> exact hdb
  | acquire workspacePk now =>
    dsimp only [perform, acquireLease]
    split
    · exact hdb
    · split <;> exact hdb
  | release lease eventTimeCursor => exact hdb
  | complete report now =>
    dsimp only [perform, Sound]
    split
    · intro other hother
      rcases List.mem_append.mp hother with hold | hnew
      · exact hdb other hold
      · rw [List.mem_singleton.mp hnew]
        exact hbatch
    · exact hdb
  | fail runId now => exact hdb
  | cleanRetentionRunHistory runId now => exact hdb
  | administer policies => exact hdb

/-! ## The end of a run -/

/-- No cleanup of a workspace throws by itself. -/
def Quiet : Request → Prop
  | .scheduled run => ∀ cleaning ∈ run.cleanings, cleaning.throwsAt = none
  | .administer _ => True

/-- A lease that is given back is still held. -/
def KeepsLease (db : RetentionDb) : Batch → Prop
  | .release lease _ => db.cursors.countP (holds lease) = 1
  | _ => True

instance : DecidablePred Quiet
  | .scheduled run =>
    inferInstanceAs (Decidable (∀ cleaning ∈ run.cleanings, cleaning.throwsAt = none))
  | .administer _ => isTrue trivial

instance (db : RetentionDb) : DecidablePred (KeepsLease db)
  | .release lease _ => inferInstanceAs (Decidable (db.cursors.countP (holds lease) = 1))
  | .claim _ _ => isTrue trivial
  | .acquire _ _ => isTrue trivial
  | .complete _ _ => isTrue trivial
  | .fail _ _ => isTrue trivial
  | .cleanRetentionRunHistory _ _ => isTrue trivial
  | .administer _ => isTrue trivial

def EndsIsolated (outcome : Option RunReport) : Prop :=
  ∀ report ∈ outcome, Isolated report

instance : DecidablePred EndsIsolated := fun outcome ↦
  inferInstanceAs (Decidable (∀ report ∈ outcome, Isolated report))

abbrev Isolates (flow : Flow) : Prop := flow.Ends perform KeepsLease EndsIsolated

section Ends

variable {run : ScheduledRun}

theorem throwsAt_cleaningOf (hquiet : Quiet (.scheduled run)) (workspacePk : ℕ) :
    (run.cleaningOf workspacePk).throwsAt = none := by
  rw [ScheduledRun.cleaningOf]
  cases hfound : lookup Cleaning.workspacePk workspacePk run.cleanings with
  | none => rfl
  | some cleaning => exact hquiet cleaning (lookup_some hfound).1

theorem isolates_cleanWorkspace {policy : RetentionPolicyRow}
    {next : Option WorkspaceCleanupResult → Flow} (hquiet : Quiet (.scheduled run))
    (h : ∀ result, Isolates (next (some result))) :
    Isolates (cleanWorkspace run policy next) := by
  have hnone (stage : Stage) :
      (run.cleaningOf policy.workspacePk).throwsAt ≠ some stage := by
    rw [throwsAt_cleaningOf hquiet]
    exact Option.some_ne_none stage |>.symm
  rw [cleanWorkspace, if_neg (hnone .acquiring)]
  intro db _
  dsimp only
  split
  · rw [if_neg (hnone .cleaning)]
    intro later hkept
    have hreply (lease : WorkspaceRetentionLease) (cursor : ℤ)
        (hkept : KeepsLease later (.release lease cursor)) :
        (perform (.release lease cursor) later).2 = .changes 1 := congrArg Reply.changes hkept
    rw [hreply _ _ hkept]
    dsimp only
    rw [if_neg (hnone .finalizing)]
    exact h _
  · exact h _

theorem isolates_failRun {report : RunReport} (h : Isolated report) :
    Isolates (failRun run report) := by
  intro db _ other hother
  obtain rfl := Option.some.inj hother
  exact h

theorem isolates_completeRun {report : RunReport} (h : ∀ policy ∈ report.batch.policies,
    policy.workspacePk ∈ report.visits.map Prod.fst ∨ report.deadlineReached = true) :
    Isolates (completeRun run report) := by
  rw [completeRun]
  dsimp only
  split
  · exact isolates_failRun ⟨h, rfl⟩
  · intro db _
    dsimp only
    split
    · intro later _ other hother
      obtain rfl := Option.some.inj hother
      exact ⟨h, rfl⟩
    · exact isolates_failRun ⟨h, rfl⟩

theorem isolates_processRetentionPolicies (hquiet : Quiet (.scheduled run))
    (policies : List RetentionPolicyRow) :
    ∀ (continues : List Bool) (done : List RetentionPolicyRow) (report : RunReport),
      report.batch.policies = done ++ policies →
      report.visits.map Prod.fst = done.map RetentionPolicyRow.workspacePk →
      Isolates (processRetentionPolicies run (completeRun run) (failRun run) policies continues
        report) := by
  induction policies with
  | nil =>
    intro continues done report hpolicies hvisited
    apply isolates_completeRun
    intro policy hpolicy
    rw [hpolicies, List.append_nil] at hpolicy
    left
    rw [hvisited]
    exact List.mem_map_of_mem hpolicy
  | cons policy rest ih =>
    intro continues done report hpolicies hvisited
    rw [processRetentionPolicies]
    split
    · apply isolates_cleanWorkspace hquiet
      intro result
      apply ih continues.tail (done ++ [policy])
      · rw [List.append_assoc, List.singleton_append]
        exact hpolicies
      · simp [RunReport.visit, hvisited]
    · apply isolates_completeRun
      intro _ _
      exact .inr rfl

theorem isolates_handle (request : Request) (hquiet : Quiet request) :
    Isolates (handle request) := by
  cases request with
  | administer policies =>
    intro db _ report hreport
    cases hreport
  | scheduled run =>
    intro db _
    dsimp only
    split
    · intro before later
      exact isolates_processRetentionPolicies hquiet _ _ [] _ rfl rfl
    · intro report hreport
      cases hreport

end Ends

/-! ## Every run -/

/-- How the calls have ended that have. -/
def outcomes (system : System Request RetentionDb Batch Reply (Option RunReport)) :
    List (Option RunReport) :=
  system.calls.filterMap fun call ↦
    match call.rest with
    | .ended outcome => some outcome
    | _ => none

/-- What the stored cursors say about the workspaces that are cleaned. -/
structure Cycles (db : RetentionDb) : Prop where
  /-- No cursor is stored beyond a workspace that the run has not cleaned. -/
  cursor : ∀ report ∈ db.reports, (pass report).Sound policyBatch
  /-- Runs that take the cursor once round clean every workspace that is there all the time. -/
  round : ∀ cursor reports, reports ⊆ db.reports →
    Chained cursor (reports.map pass) → Round cursor (reports.map pass) → ∀ workspacePk,
      0 < workspacePk → (∀ report ∈ reports, workspacePk ∈ report.present) →
        ∃ report ∈ reports, workspacePk ∈ cleaned report
  /-- So many runs that skip nothing are enough for the workspaces that there are. -/
  turns : ∀ cursor reports present, reports ⊆ db.reports →
    Chained cursor (reports.map pass) → (∀ report ∈ reports, report.present = present) →
      (present.length - 1) / policyBatch + 2 ≤
        (reports.countP fun report ↦ report.skippedWorkspaces = 0) →
      ∀ workspacePk ∈ present, 0 < workspacePk → ∃ report ∈ reports, workspacePk ∈ cleaned report

/-- Workspaces do not get in the way of each other. -/
structure Isolating (system : System Request RetentionDb Batch Reply (Option RunReport)) :
    Prop where
  cycles : Cycles system.store
  isolated : ∀ outcome ∈ outcomes system, EndsIsolated outcome

theorem round_of_sound {db : RetentionDb} (hdb : Sound db) {cursor : ℕ} {reports : List RunReport}
    (hreports : reports ⊆ db.reports) (hchain : Chained cursor (reports.map pass))
    (hround : Round cursor (reports.map pass)) {workspacePk : ℕ} (hpositive : 0 < workspacePk)
    (hpresent : ∀ report ∈ reports, workspacePk ∈ report.present) :
    ∃ report ∈ reports, workspacePk ∈ cleaned report := by
  have hhandled := handled_of_round hchain
    (List.forall_mem_map.mpr fun report hreport ↦ hdb report (hreports hreport))
    (List.forall_mem_map.mpr hpresent) hpositive hround
  simpa [pass] using hhandled

theorem turns_of_sound {db : RetentionDb} (hdb : Sound db) {cursor : ℕ} {reports : List RunReport}
    {present : List ℕ} (hreports : reports ⊆ db.reports)
    (hchain : Chained cursor (reports.map pass))
    (hpresent : ∀ report ∈ reports, report.present = present)
    (hmany : (present.length - 1) / policyBatch + 2 ≤
      reports.countP fun report ↦ report.skippedWorkspaces = 0)
    {workspacePk : ℕ} (hmem : workspacePk ∈ present) (hpositive : 0 < workspacePk) :
    ∃ report ∈ reports, workspacePk ∈ cleaned report := by
  have hadvances : (reports.map pass).countP Pass.advanced =
      reports.countP fun report ↦ report.skippedWorkspaces = 0 := List.countP_map
  have hhandled := handled_of_advances (show 0 < policyBatch by decide) hchain
    (List.forall_mem_map.mpr fun report hreport ↦ hdb report (hreports hreport))
    (List.forall_mem_map.mpr hpresent) hmem hpositive
    ((needed_le hmem policyBatch cursor).trans (hmany.trans_eq hadvances.symm))
  simpa [pass] using hhandled

def startDb (policies : PolicyTable) (runs : List RunRow) (cursors : List CursorRow) :
    RetentionDb := ⟨policies, runs, cursors, []⟩

theorem mem_outcomes {system : System Request RetentionDb Batch Reply (Option RunReport)}
    {outcome : Option RunReport} (h : outcome ∈ outcomes system) :
    ∃ call ∈ system.calls, call.rest = .ended outcome := by
  obtain ⟨call, hcall, hended⟩ := List.mem_filterMap.mp h
  split at hended
  · next heq =>
    obtain rfl := Option.some.inj hended
    exact ⟨call, hcall, heq⟩
  · cases hended

theorem visits_cycles (policies : PolicyTable) (runs : List RunRow) (cursors : List CursorRow)
    (actions : List (Action Request)) :
    Visits (step handle perform) (fun system ↦ Cycles system.store)
      (start (startDb policies runs cursors)) actions := by
  have hany : ∀ (system : System Request RetentionDb Batch Reply (Option RunReport))
      (action : Action Request), True → Performs (fun _ _ ↦ True) system action :=
    fun _ _ _ _ _ ↦ trivial
  have hsound : Visits (step handle perform) (fun system ↦ Sound system.store)
      (start (startDb policies runs cursors)) actions :=
    visits_of_sends careful_handle perform_sound (fun _ h ↦ absurd h List.not_mem_nil)
      (along_invariant (fun _ _ _ ↦ trivial) hany trivial actions)
  refine visits_mono (fun system hdb ↦ ⟨hdb, ?_, ?_⟩) hsound
  · intro cursor reports hreports hchain hround workspacePk hpositive hpresent
    exact round_of_sound hdb hreports hchain hround hpositive hpresent
  · intro cursor reports present hreports hchain hpresent hmany workspacePk hmem hpositive
    exact turns_of_sound hdb hreports hchain hpresent hmany hmem hpositive

def twoWorkspaces : PolicyTable where
  rows := [⟨"first", 1, none, none, 7, 30, 365, 365, 365, 7, 7⟩,
    ⟨"second", 2, none, none, 7, 30, 365, 365, 365, 7, 7⟩]
  unique := show (List.map _ _).Nodup by decide
  positive := by decide

/-- A run in which the cleanup of the first workspace ends like this. -/
def runAt (scheduledTime : ℤ) (throwsAt : Option Stage) : Request :=
  .scheduled
    { scheduledTime := scheduledTime
      startedAt := scheduledTime
      continues := []
      cleanings := [⟨1, scheduledTime, 0, 0, throwsAt⟩]
      commandsDeleted := 0
      globalThrows := false
      completedAt := scheduledTime + 60000 }

/-- Two runs, one an hour after the other. -/
def twoRuns : List (Action Request) :=
  inTurn 0 [(runAt 1752580800000 none, 9), (runAt 1752584400000 none, 9)]

/-- The first workspace is never cleaned. -/
def failingRuns : List (Action Request) :=
  inTurn 0 [(runAt 1752580800000 (some .cleaning), 5), (runAt 1752584400000 (some .cleaning), 5),
    (runAt 1752588000000 (some .cleaning), 5)]

end AlphaPing.Retention.Isolation
