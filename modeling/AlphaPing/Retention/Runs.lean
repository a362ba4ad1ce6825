import AlphaPing.Library.Pages
import AlphaPing.Library.Workflows
import Mathlib.Data.String.Basic
import Mathlib.Data.Prod.Lex
import Mathlib.Order.Nat

/-!
# Runs of the retention worker

A run claims its row in `retention_runs` and loads a page of workspaces after the cursor of the
last run that succeeded. It cleans one workspace after the other under a lease, then the agent
commands and the artifact bucket, and stores the cursor. Several runs may be under way.

Here a cleanup ends or throws; what it deletes is not modelled.
-/

namespace AlphaPing.Retention.Runs

open Library.Pages Library.Runs Library.Tables Library.Workflows

/-- A row of `retention_policies` with its workspace. -/
structure RetentionPolicyRow where
  workspaceId : String
  workspacePk : ℕ
  workspaceDeletedAt : Option ℤ
  workspacePurgeStartedAt : Option ℤ
  rawDays : ℤ
  rollup5mDays : ℤ
  rollup1hDays : ℤ
  eventDays : ℤ
  auditLogDays : ℤ
  expiredAnnouncementGraceDays : ℤ
  softDeleteGraceDays : ℤ

/-- `telemetry_pk` is unique and counted from one. -/
structure PolicyTable where
  rows : List RetentionPolicyRow
  unique : UniqueKey RetentionPolicyRow.workspacePk rows
  positive : ∀ row ∈ rows, 0 < row.workspacePk

structure RunRow where
  runId : String
  startedAt : ℤ
  completedAt : Option ℤ
  errorCode : Option String
  workspaceCursor : ℕ
  deletedRows : ℕ

/-- A row of `retention_cursors` of the kind `event`. -/
structure CursorRow where
  workspacePk : ℕ
  timeCursor : ℤ
  leaseUntil : ℤ

structure RetentionPolicyBatch where
  policies : List RetentionPolicyRow
  workspaceCursor : ℕ
  nextWorkspaceCursor : ℕ

structure WorkspaceRetentionLease where
  workspacePk : ℕ
  leaseUntil : ℤ
  eventTimeCursor : ℤ

structure WorkspaceCleanupResult where
  deletedRows : ℕ
  processed : Bool

/-- What became of a workspace that a run has come to. -/
inductive Visit where
  | processed | leased | threw
  deriving DecidableEq

/-- A run in its own words. The table and the visits are kept for the statements only. -/
structure RunReport where
  runId : String
  batch : RetentionPolicyBatch
  /-- The workspaces of the table from which the batch was loaded. -/
  present : List ℕ
  visits : List (ℕ × Visit)
  deletedRows : ℕ
  skippedWorkspaces : ℕ
  deadlineReached : Bool
  /-- The cleanup of commands and artifacts has been reached. -/
  reachedGlobal : Bool

structure RetentionDb where
  policies : PolicyTable
  runs : List RunRow
  cursors : List CursorRow
  /-- The runs that have stored a cursor, in this order. No statement reads them. -/
  reports : List RunReport

/-! ## Statements -/

def policyBatch : ℕ := 100

def workspaceLeaseMs : ℤ := 15 * 60000

def runHistoryRetentionMs : ℤ := 30 * 86400000

def runHistoryBatch : ℕ := 100

/-- The cursor of the last run before this one that succeeded. -/
def previousCursor (db : RetentionDb) (runId : String) : ℕ :=
  (((selectOrdered (fun row : RunRow ↦ OrderDual.toDual row.runId) 1 <| db.runs.filter fun row ↦
    row.runId < runId && row.completedAt.isSome && row.errorCode.isNone).head?).map
      RunRow.workspaceCursor).getD 0

def loadPolicies (db : RetentionDb) (workspaceCursor : ℕ) : RetentionPolicyBatch where
  policies := page RetentionPolicyRow.workspacePk policyBatch workspaceCursor db.policies.rows
  workspaceCursor := workspaceCursor
  nextWorkspaceCursor :=
    nextCursor RetentionPolicyRow.workspacePk policyBatch workspaceCursor db.policies.rows

def resolveRetentionWorkspaceCursor (batch : RetentionPolicyBatch) (skippedWorkspaces : ℕ) : ℕ :=
  if skippedWorkspaces = 0 then batch.nextWorkspaceCursor else batch.workspaceCursor

def RunReport.cursor (report : RunReport) : ℕ :=
  resolveRetentionWorkspaceCursor report.batch report.skippedWorkspaces

inductive Batch where
  | claim (runId : String) (now : ℤ)
  | acquire (workspacePk : ℕ) (now : ℤ)
  | release (lease : WorkspaceRetentionLease) (eventTimeCursor : ℤ)
  | complete (report : RunReport) (now : ℤ)
  | fail (runId : String) (now : ℤ)
  | cleanRetentionRunHistory (runId : String) (now : ℤ)
  /-- Any change of the workspaces and their policies. -/
  | administer (policies : PolicyTable)

inductive Reply where
  | changes (count : ℕ)
  | lease (granted : Option WorkspaceRetentionLease)

/-- `acquireWorkspaceRetentionLease`. -/
def acquireLease (db : RetentionDb) (workspacePk : ℕ) (now : ℤ) : RetentionDb × Reply :=
  let leaseUntil := now + workspaceLeaseMs
  match lookup CursorRow.workspacePk workspacePk db.cursors with
  | none => ({ db with cursors := db.cursors ++ [⟨workspacePk, 0, leaseUntil⟩] },
      .lease (some ⟨workspacePk, leaseUntil, 0⟩))
  | some row =>
    if row.leaseUntil ≤ now then
      ({ db with
          cursors := updateWhere (fun row ↦ row.workspacePk = workspacePk)
            (fun row ↦ { row with leaseUntil := leaseUntil }) db.cursors },
        .lease (some ⟨workspacePk, leaseUntil, row.timeCursor⟩))
    else (db, .lease none)

def holds (lease : WorkspaceRetentionLease) (row : CursorRow) : Bool :=
  row.workspacePk = lease.workspacePk && row.leaseUntil = lease.leaseUntil

def perform (batch : Batch) (db : RetentionDb) : RetentionDb × Reply :=
  match batch with
  | .claim runId now =>
    if db.runs.any fun row ↦ row.runId = runId then (db, .changes 0)
    else ({ db with runs := db.runs ++ [⟨runId, now, none, none, 0, 0⟩] }, .changes 1)
  | .acquire workspacePk now => acquireLease db workspacePk now
  | .release lease eventTimeCursor =>
    ({ db with
        cursors := updateWhere (holds lease)
          (fun row ↦ { row with timeCursor := eventTimeCursor, leaseUntil := 0 }) db.cursors },
      .changes (db.cursors.countP (holds lease)))
  | .complete report now =>
    ({ db with
        runs := updateWhere (fun row ↦ row.runId = report.runId) (fun row ↦ { row with
          completedAt := some now
          deletedRows := report.deletedRows
          workspaceCursor := report.cursor }) db.runs
        reports := if db.runs.any fun row ↦ row.runId = report.runId then db.reports ++ [report]
          else db.reports },
      .changes (db.runs.countP fun row ↦ row.runId = report.runId))
  | .fail runId now =>
    ({ db with
        runs := updateWhere (fun row ↦ row.runId = runId) (fun row ↦ { row with
          completedAt := some now
          errorCode := some "retention_failed" }) db.runs },
      .changes (db.runs.countP fun row ↦ row.runId = runId))
  | .cleanRetentionRunHistory runId now =>
    let expired := selectOrdered (fun row : RunRow ↦ toLex (row.startedAt, row.runId))
      runHistoryBatch <| db.runs.filter fun row ↦
        row.startedAt < now - runHistoryRetentionMs && row.runId ≠ runId
    ({ db with runs := db.runs.filter fun row ↦ !(expired.map RunRow.runId).contains row.runId },
      .changes expired.length)
  | .administer policies => ({ db with policies }, .changes 1)

/-! ## Runs -/

abbrev Flow := Workflow RetentionDb Batch Reply (Option RunReport)

/-- Where the cleanup of a workspace throws. -/
inductive Stage where
  | acquiring | cleaning | finalizing
  deriving DecidableEq

/-- How the cleanup of a workspace goes. -/
structure Cleaning where
  workspacePk : ℕ
  acquiredAt : ℤ
  deletedRows : ℕ
  /-- The cursor that `cleanStateEvents` returns. -/
  eventTimeCursor : ℤ
  throwsAt : Option Stage

structure ScheduledRun where
  scheduledTime : ℤ
  startedAt : ℤ
  /-- The answers of `shouldContinue`; those that follow are true. -/
  continues : List Bool
  /-- Any other workspace is cleaned without a trace. -/
  cleanings : List Cleaning
  commandsDeleted : ℕ
  /-- The cleanup of commands or artifacts throws. -/
  globalThrows : Bool
  completedAt : ℤ

def ScheduledRun.runId (run : ScheduledRun) : String := "retention:" ++ toString run.scheduledTime

def ScheduledRun.cleaningOf (run : ScheduledRun) (workspacePk : ℕ) : Cleaning :=
  (lookup Cleaning.workspacePk workspacePk run.cleanings).getD
    ⟨workspacePk, run.startedAt, 0, 0, none⟩

/-- The cleanup of a workspace, which passes on what it returns, or nothing when it throws. -/
def cleanWorkspace (run : ScheduledRun) (policy : RetentionPolicyRow)
    (next : Option WorkspaceCleanupResult → Flow) : Flow :=
  let cleaning := run.cleaningOf policy.workspacePk
  if cleaning.throwsAt = some .acquiring then next none
  else .send (.acquire policy.workspacePk cleaning.acquiredAt) fun
    | .lease (some lease) =>
      if cleaning.throwsAt = some .cleaning then next none
      else .send (.release lease cleaning.eventTimeCursor) fun
        | .changes 1 =>
          if cleaning.throwsAt = some .finalizing then next none
          else next (some ⟨cleaning.deletedRows, true⟩)
        -- "retention_lease_lost"
        | _ => next none
    | _ => next (some ⟨0, false⟩)

def visitOf : Option WorkspaceCleanupResult → Visit
  | none => .threw
  | some result => if result.processed then .processed else .leased

def RunReport.visit (report : RunReport) (workspacePk : ℕ)
    (result : Option WorkspaceCleanupResult) : RunReport :=
  { report with
    visits := report.visits ++ [(workspacePk, visitOf result)]
    deletedRows := report.deletedRows + (result.elim 0 WorkspaceCleanupResult.deletedRows)
    skippedWorkspaces := report.skippedWorkspaces +
      if visitOf result = .leased then 1 else 0 }

/-- One workspace after the other; an exception leaves the loop. -/
def processRetentionPolicies (run : ScheduledRun) (next caught : RunReport → Flow) :
    List RetentionPolicyRow → List Bool → RunReport → Flow
  | [], _, report => next report
  | policy :: rest, continues, report =>
    if continues.headD true then
      cleanWorkspace run policy fun result ↦
        let report := report.visit policy.workspacePk result
        match result with
        | none => caught report
        | some _ => processRetentionPolicies run next caught rest continues.tail report
    else
      next { report with
        skippedWorkspaces := report.skippedWorkspaces + (rest.length + 1)
        deadlineReached := true }

/-- The `catch` of a run. -/
def failRun (run : ScheduledRun) (report : RunReport) : Flow :=
  .send (.fail run.runId run.completedAt) fun _ ↦ .ended (some report)

/-- What follows the workspaces. -/
def completeRun (run : ScheduledRun) (report : RunReport) : Flow :=
  let report := { report with reachedGlobal := true }
  if run.globalThrows then failRun run report
  else
    let report := { report with deletedRows := report.deletedRows + run.commandsDeleted }
    .send (.complete report run.completedAt) fun
    | .changes 1 =>
      .send (.cleanRetentionRunHistory run.runId run.completedAt) fun _ ↦ .ended (some report)
    -- "retention_run_completion_conflict"
    | _ => failRun run report

def runRetention (run : ScheduledRun) : Flow :=
  .send (.claim run.runId run.startedAt) fun
  | .changes 1 =>
    .ask (fun db ↦ previousCursor db run.runId) fun workspaceCursor ↦
    .ask (fun db ↦ (loadPolicies db workspaceCursor,
        db.policies.rows.map RetentionPolicyRow.workspacePk)) fun (batch, present) ↦
    processRetentionPolicies run (completeRun run) (failRun run) batch.policies run.continues
      ⟨run.runId, batch, present, [], 0, 0, false, false⟩
  | _ => .ended none

inductive Request where
  | scheduled (run : ScheduledRun)
  | administer (policies : PolicyTable)

def handle : Request → Flow
  | .scheduled run => runRetention run
  | .administer policies => .send (.administer policies) fun _ ↦ .ended none

end AlphaPing.Retention.Runs
