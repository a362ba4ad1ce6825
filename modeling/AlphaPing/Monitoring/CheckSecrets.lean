import AlphaPing.Monitoring.Handlers

/-!
# The secrets of checks

A check names its secrets in `secret_refs_json`; the wrapped values are rows of `check_secrets`.
The handlers write both in one batch. The retention worker deletes the secrets of services that it
purges, and secrets that no check has named for a day.

The vault is the control database together with the assertions of the checks and the sync jobs,
whose fresh tokens guard the statements of a replacement. `drawn` holds the results of
`crypto.randomUUID` so far: it does not give one of them again. With that, the time at which a
secret was created belongs to its identifier.
-/

namespace AlphaPing.Monitoring.CheckSecrets

open Library.Tables Library.Workflows Control ServiceConfig Handlers

/-- A row of `check_assertions`. -/
structure AssertionRow where
  id : String
  checkId : String

/-- A row of `service_state_sync_jobs`. -/
structure SyncJobRow where
  jobKey : String
  syncToken : String

structure Vault where
  control : ControlDb
  assertions : List AssertionRow
  syncJobs : List SyncJobRow
  drawn : List String

/-! ## Compilation -/

/-- A secret value of a form once it is wrapped, with the identifier drawn for it. -/
structure WrappedSecret where
  name : String
  id : String
  wrappedBytes : ℕ

structure SecretForm where
  headers : List WrappedSecret
  body : Option WrappedSecret
  tcpPayload : Option WrappedSecret

/-- `secretRefs` of the compiled configuration. -/
def SecretForm.references (form : SecretForm) : SecretReferences where
  headers := form.headers.map fun secret ↦ (secret.name, secret.id)
  body := form.body.map WrappedSecret.id
  tcpPayload := form.tcpPayload.map WrappedSecret.id

/-- `inserts` of `wrapSecrets`. -/
def SecretForm.inserts (form : SecretForm) : List CheckSecretInsert :=
  (form.headers ++ form.body.toList ++ form.tcpPayload.toList).map fun secret ↦
    ⟨secret.id, secret.wrappedBytes⟩

/-- `compileServiceConfig` has made the configuration of a form. -/
def Compiles (compiled : CompiledServiceConfig) : Prop :=
  ∃ form : SecretForm, compiled.secretRefs = form.references ∧ compiled.secrets = form.inserts

/-- The texts in `secret_refs_json`. -/
def namedSecrets (refs : SecretReferences) : List String :=
  refs.headers.map Prod.snd ++ refs.body.toList ++ refs.tcpPayload.toList

theorem mem_inserts_of_mem_named {compiled : CompiledServiceConfig} (h : Compiles compiled)
    {id : String} (hid : id ∈ namedSecrets compiled.secretRefs) :
    id ∈ compiled.secrets.map CheckSecretInsert.id := by
  obtain ⟨form, hrefs, hsecrets⟩ := h
  rw [hrefs, SecretForm.references] at hid
  rw [hsecrets, SecretForm.inserts]
  simpa [namedSecrets] using hid

/-! ## Batches -/

inductive VaultBatch where
  /-- A batch of a handler, with the identifiers of the assertions and the token it may insert. -/
  | mutate (batch : Batch) (assertionIds : List String) (syncToken : String)
  | deleteSecrets (workspaceId : String) (ids : List String)
  | cleanOrphanCheckSecrets (workspaceId : String) (now : ℤ) (rowBatch : ℕ)

/-- What a batch has drawn. -/
def draws (batch : Batch) (assertionIds : List String) (syncToken : String) : List String :=
  match batch with
  | .createService _ service check _ =>
    service.id :: check.id :: check.compiled.secrets.map CheckSecretInsert.id ++ assertionIds
  | .addCheck _ check _ _ =>
    check.id :: check.compiled.secrets.map CheckSecretInsert.id ++ assertionIds
  | .replaceCheck _ update =>
    syncToken :: update.compiled.secrets.map CheckSecretInsert.id ++ assertionIds
  | _ => []

def insertedCheck : Batch → Option (String × String)
  | .createService workspaceId _ check _ => some (check.id, workspaceId)
  | .addCheck workspaceId check _ _ => some (check.id, workspaceId)
  | _ => none

/-- The assertions of checks that are gone go with them. -/
def cascadeAssertions (before after : ControlDb) (assertions : List AssertionRow) :
    List AssertionRow :=
  assertions.filter fun row ↦ !((before.checks.any fun check ↦ check.id = row.checkId) &&
    !after.checks.any fun check ↦ check.id = row.checkId)

/-- `INSERT INTO check_assertions … WHERE EXISTS (SELECT 1 FROM check_configs created …)`. -/
def insertAssertions (db : ControlDb) (batch : Batch) (assertionIds : List String) :
    List AssertionRow :=
  match insertedCheck batch with
  | some (checkId, workspaceId) =>
    if db.checks.any fun check ↦ check.id = checkId && check.workspaceId = workspaceId then
      assertionIds.map fun id ↦ ⟨id, checkId⟩
    else []
  | none => []

/-- The update of `check_configs` in a replacement. -/
def replaceUpdate (db : ControlDb) (workspaceId : String) (update : ReplaceCheck) :
    Option (ControlDb × ℕ) :=
  let advanced := advanceAgentConfiguration db workspaceId
    ((db.checks.any fun current ↦ current.id = update.checkId &&
        current.workspaceId = workspaceId && current.configRevision = update.configRevision) &&
      capacityHolds db update.capacity && db.permits workspaceId update.machineConditions)
    update.machineId
  updateChecks advanced workspaceId update.machineId
    (capacityOr update.capacity update.checkId update.configBytes)
    (fun check ↦ check.id = update.checkId && check.serviceId = update.serviceId &&
      check.workspaceId = workspaceId && check.configRevision = update.configRevision &&
      advanced.permits workspaceId update.checkConditions)
    fun check ↦ { check with
      name := update.name
      requestJson := update.compiled.requestJson
      secretRefs := update.compiled.secretRefs
      configBytes := update.configBytes }

/-- The secrets of a replacement: the old ones go, the new ones come. -/
def exchangeSecrets (db : ControlDb) (workspaceId : String) (update : ReplaceCheck) : ControlDb :=
  insertSecrets { db with secrets := db.secrets.filter fun secret ↦
    !(secret.workspaceId = workspaceId && update.oldSecretIds.contains secret.id) }
    workspaceId update.compiled.secrets

/-- `prepareServiceStateSyncJob` after a statement that changed one row. -/
def insertSyncJob (jobs : List SyncJobRow) (checkId syncToken : String) (changes : ℕ) :
    List SyncJobRow :=
  let job : SyncJobRow := ⟨"check:" ++ checkId, syncToken⟩
  if changes = 1 then upsert SyncJobRow.jobKey (fun _ ↦ true) (fun _ ↦ job) job jobs else jobs

/-- The guard of the statements that follow the sync job. -/
def hasSyncJob (jobs : List SyncJobRow) (checkId syncToken : String) : Bool :=
  jobs.any fun job ↦ job.jobKey = "check:" ++ checkId && job.syncToken = syncToken

/-- The statements of a replacement, each after the first guarded by the token of the sync job. -/
def replaceStatements (vault : Vault) (workspaceId : String) (update : ReplaceCheck)
    (assertionIds : List String) (syncToken : String) : Option (Vault × ℕ) :=
  (replaceUpdate vault.control workspaceId update).map fun (updated, changes) ↦
    let jobs := insertSyncJob vault.syncJobs update.checkId syncToken changes
    if hasSyncJob jobs update.checkId syncToken then
      ({ vault with
        control := exchangeSecrets updated workspaceId update
        assertions := (vault.assertions.filter fun row ↦ row.checkId ≠ update.checkId) ++
          assertionIds.map fun id ↦ ⟨id, update.checkId⟩
        syncJobs := jobs }, changes)
    else ({ vault with control := updated, syncJobs := jobs }, changes)

/-- The batch of a handler, with the tables that it touches besides. -/
def mutateStatements (vault : Vault) (batch : Batch) (assertionIds : List String)
    (syncToken : String) : Option (Vault × ℕ) :=
  match batch with
  | .replaceCheck workspaceId update =>
    replaceStatements vault workspaceId update assertionIds syncToken
  | _ => (execute vault.control batch).map fun (after, changes) ↦
    ({ vault with
      control := after
      assertions := cascadeAssertions vault.control after vault.assertions ++
        insertAssertions after batch assertionIds }, changes)

/-- `crypto.randomUUID` has drawn the identifiers for this batch. -/
def drawnAnew (vault : Vault) (ids : List String) : Bool :=
  ids.Nodup && ids.all fun id ↦ !vault.drawn.contains id

def orphanSecretGraceMs : ℤ := 86400000

/-- A check of the workspace names the secret. -/
def named (db : ControlDb) (secret : SecretRow) : Bool :=
  db.checks.any fun check ↦ check.workspaceId = secret.workspaceId &&
    (namedSecrets check.secretRefs).contains secret.id

/-- Delete the secrets with these identifiers. -/
def removeSecrets (vault : Vault) (condition : SecretRow → Bool) : Vault × ℕ :=
  ({ vault with control := { vault.control with
      secrets := vault.control.secrets.filter fun secret ↦ !condition secret } },
    vault.control.secrets.countP condition)

section Perform

variable (createdAt : String → ℤ)

/-- The secrets of a workspace that no check names, past their grace period. -/
def orphans (vault : Vault) (workspaceId : String) (now : ℤ) : List SecretRow :=
  vault.control.secrets.filter fun secret ↦ secret.workspaceId = workspaceId &&
    createdAt secret.id < now - orphanSecretGraceMs && !named vault.control secret

/-- A batch and what its sender learns. -/
def perform (batch : VaultBatch) (vault : Vault) : Vault × Option ℕ :=
  match batch with
  | .mutate batch assertionIds syncToken =>
    if drawnAnew vault (draws batch assertionIds syncToken) then
      match mutateStatements vault batch assertionIds syncToken with
      | some (after, changes) =>
        ({ after with drawn := draws batch assertionIds syncToken ++ vault.drawn }, some changes)
      | none => (vault, none)
    else (vault, none)
  | .deleteSecrets workspaceId ids =>
    let (after, changes) := removeSecrets vault fun secret ↦
      secret.workspaceId = workspaceId && ids.contains secret.id
    (after, some changes)
  | .cleanOrphanCheckSecrets workspaceId now rowBatch =>
    let chosen := (selectOrdered SecretRow.id rowBatch
      (orphans createdAt vault workspaceId now)).map SecretRow.id
    let (after, changes) := removeSecrets vault fun secret ↦ chosen.contains secret.id
    (after, some changes)

end Perform

/-! ## Handlers -/

abbrev VaultFlow := Workflow Vault VaultBatch (Option ℕ) (Except HttpError Unit)

/-- A handler of the web application over the vault. -/
def overVault (assertionIds : List String) (syncToken : String) : Flow → VaultFlow
  | .ask query next => .ask (fun vault ↦ query vault.control) fun view ↦
    overVault assertionIds syncToken (next view)
  | .send batch next => .send (.mutate batch assertionIds syncToken) fun reply ↦
    overVault assertionIds syncToken (next reply)
  | .ended outcome => .ended outcome
  | .lost performed => .lost performed

def compiledOf : Request → Option CompiledServiceConfig
  | .createServiceMonitor request => request.input.compiled.toOption
  | .addServiceCheck request => request.input.compiled.toOption
  | .replaceServiceCheckConfiguration request => request.input.compiled.toOption
  | _ => none

/-- A request of the web application with what was drawn for it. -/
structure WebRequest where
  request : Request
  assertionIds : List String
  syncToken : String
  compiles : ∀ compiled ∈ compiledOf request, Compiles compiled

def secretBatch : ℕ := 40

/-- `deleteSecrets`: one statement after the other; the first argument bounds their number. -/
def deleteSecrets (workspaceId : String) : ℕ → List String → VaultFlow → VaultFlow
  | 0, _, next => next
  | left + 1, ids, next =>
    if ids = [] then next
    else .send (.deleteSecrets workspaceId (ids.take secretBatch)) fun
      | some _ => deleteSecrets workspaceId left (ids.drop secretBatch) next
      | none => .ended (.error ⟨500, "D1_ERROR"⟩)

/-- One service of `finalizeServices`: the page of its checks that the cursor has come to, whether
the telemetry of that page is gone, and whether it is the last one. -/
structure PurgeService where
  policy : SoftDeletePolicy
  service : ResourceRow
  now : ℤ
  cutoff : ℤ
  page : CheckRow → Bool
  telemetryGone : Bool
  last : Bool

/-- `collectSecretIds` of a page of checks. -/
def collectSecretIds (db : ControlDb) (request : PurgeService) : List String :=
  ((db.checks.filter fun check ↦ check.workspaceId = request.policy.workspaceId &&
    check.serviceId = request.service.id && request.page check).flatMap fun check ↦
      namedSecrets check.secretRefs).dedup

def purgeService (request : PurgeService) : VaultFlow :=
  .send (.mutate (.claimResource request.policy .service request.service request.now
    request.cutoff) [] "") fun
  | some 1 =>
    if !request.telemetryGone then .ended (.ok ())
    else .ask (fun vault ↦ collectSecretIds vault.control request) fun ids ↦
      deleteSecrets request.policy.workspaceId ids.length ids <|
      if !request.last then .ended (.ok ())
      else .send (.mutate (.finalizeServiceControl request.policy request.service.id
        request.cutoff) [] "") fun
      | some _ => .ended (.ok ())
      | none => .ended (.error ⟨500, "D1_ERROR"⟩)
  | some _ => .ended (.ok ())
  | none => .ended (.error ⟨500, "D1_ERROR"⟩)

def orphanSecretBatch : ℕ := 50

def cleanOrphanCheckSecrets (workspaceId : String) (now : ℤ) (rowBatch : ℕ) : VaultFlow :=
  if rowBatch < 1 ∨ orphanSecretBatch < rowBatch then
    .ended (.error ⟨500, "orphan check secret batch must be between 1 and 50"⟩)
  else .send (.cleanOrphanCheckSecrets workspaceId now rowBatch) fun
    | some _ => .ended (.ok ())
    | none => .ended (.error ⟨500, "D1_ERROR"⟩)

inductive VaultRequest where
  | web (request : WebRequest)
  | purgeService (request : PurgeService)
  | cleanOrphanCheckSecrets (workspaceId : String) (now : ℤ) (rowBatch : ℕ)

def serve : VaultRequest → VaultFlow
  | .web request => overVault request.assertionIds request.syncToken (handle request.request)
  | .purgeService request => purgeService request
  | .cleanOrphanCheckSecrets workspaceId now rowBatch =>
    cleanOrphanCheckSecrets workspaceId now rowBatch

/-- A replacement of the control database alone is the one that the sync job guards. -/
theorem replaceCheckBatch_eq (db : ControlDb) (workspaceId : String) (update : ReplaceCheck) :
    replaceCheckBatch db workspaceId update =
      (replaceUpdate db workspaceId update).map fun (updated, changes) ↦
        (if changes = 0 then updated else exchangeSecrets updated workspaceId update, changes) :=
  rfl

end AlphaPing.Monitoring.CheckSecrets
