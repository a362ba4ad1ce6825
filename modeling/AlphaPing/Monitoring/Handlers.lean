import AlphaPing.Monitoring.ServiceConfig

/-!
# The handlers that change services and their checks

Each handler as the questions that it asks the control database and the one batch that it sends
at the end, with the refusals in between. `compileServiceConfig` has been run: a request carries
its result, of whatever kind it is. The retention worker claims what it finalizes first.
-/

namespace AlphaPing.Monitoring.Handlers

open Library.Workflows Control ServiceConfig

abbrev Flow := Workflow ControlDb Batch (Option ℕ) (Except HttpError Unit)

def refuse (status : ℕ) (message : String) : Flow :=
  .ended (.error ⟨status, message⟩)

/-- An error of D1 that the handler passes on. -/
def d1Error : Flow := refuse 500 "D1_ERROR"

def succeed : Flow := .ended (.ok ())

/-- The characters that `String.prototype.trim` removes. -/
def isSpace (character : Char) : Bool :=
  [0x09, 0x0A, 0x0B, 0x0C, 0x0D, 0x20, 0xA0, 0x1680, 0x2028, 0x2029, 0x202F, 0x205F, 0x3000,
    0xFEFF].contains character.toNat || (0x2000 ≤ character.toNat && character.toNat ≤ 0x200A)

/-- `String.prototype.trim`. -/
def trim (text : String) : String :=
  String.ofList (((text.toList.dropWhile isSpace).reverse.dropWhile isSpace).reverse)

/-- `String.prototype.length`: characters outside the basic plane count twice. -/
def utf16Length (text : String) : ℕ :=
  (text.toList.map fun character ↦ if character.toNat < 0x10000 then 1 else 2).sum

def checkNameValid (checkName : String) : Bool :=
  2 ≤ utf16Length checkName && utf16Length checkName ≤ 80

def loadMonitoringAccess (actor : Actor) (next : MonitoringAccess → Flow) : Flow :=
  .ask (fun db ↦ db.workspaceOf actor) fun
  | none => refuse 404 "Workspace not found"
  | some (workspaceId, .admin) => next ⟨workspaceId, .admin, []⟩
  | some (workspaceId, .member) =>
    .ask (fun db ↦ db.grantsOf workspaceId actor.userId) fun grants ↦
      if grants.length > maxAccessGrants then
        refuse 503 "Resource access scope exceeds the supported limit"
      else next ⟨workspaceId, .member, grants⟩

def requireAdmin (access : MonitoringAccess) (next : Flow) : Flow :=
  if access.role = .admin then next else refuse 404 "Workspace not found"

def requireResourceCapability (access : MonitoringAccess) (resourceType : ResourceType)
    (resourceId : String) (capability : Capability) (next : Flow) : Flow :=
  if canAccessResource access.role access.grants resourceType resourceId capability then next
  else refuse 404 "Resource not found"

def assertWorkspaceMonitorCapacity (workspaceId : String) (includeServiceCapacity : Bool)
    (next : Flow) : Flow :=
  .ask (fun db ↦ db.monitorCapacity workspaceId includeServiceCapacity) fun available ↦
    if available then next
    else if includeServiceCapacity then
      .ask (fun db ↦ decide ((db.services.countP fun service ↦ service.workspaceId = workspaceId &&
          service.deletedAt.isNone) < maxWorkspaceServices)) fun serviceAvailable ↦
        if serviceAvailable then refuse 409 "A workspace can configure at most 1000 checks"
        else refuse 409 "A workspace can monitor at most 200 services"
    else refuse 409 "A workspace can configure at most 1000 checks"

def assertAgentCapacity (capacity : Option AgentCapacityInput) (next : Flow) : Flow :=
  match capacity with
  | none => next
  | some input =>
    if !input.enforce then next
    else .ask (fun db ↦ db.capacityRows input) fun rows ↦
      if rows.length ≥ maxAgentChecks then
        refuse 409 "An Agent can run at most 32 enabled checks"
      else if (rows.map CheckRow.configBytes).sum + input.configBytes > maxAgentConfigBytes then
        refuse 409 "The Agent configuration has reached its encrypted snapshot size limit"
      else next

/-- The end of a mutation: a batch that was taken back may have met a full agent. -/
def finish (capacity : Option AgentCapacityInput) (conflict : String) : Option ℕ → Flow
  | none => assertAgentCapacity capacity d1Error
  | some changes => if changes = 1 then succeed else refuse 409 conflict

/-! ## New checks -/

structure AgentView where
  id : String
  machineId : String
  probeCount : ℕ
  configBytes : ℕ

/-- The active agent that a new check shall run on, and what it runs already. -/
def executorAgent (db : ControlDb) (workspaceId agentId : String) : Option AgentView :=
  (db.agents.find? fun agent ↦ agent.id = agentId && agent.workspaceId = workspaceId &&
    agent.active).map fun agent ↦
      let rows := db.capacityRows ⟨agent.id, none, 0, true⟩
      ⟨agent.id, agent.machineId, rows.length, (rows.map CheckRow.configBytes).sum⟩

structure CheckInput where
  checkName : String
  kind : CheckKind
  executorKind : ExecutorKind
  executorAgentId : String
  policy : CheckPolicy
  /-- The result of `compileServiceConfig`. -/
  compiled : Except HttpError CompiledServiceConfig

/-- The agent that was read has room for the check; then the check is ready to be inserted. -/
def withCapacity (input : CheckInput) (checkId serviceId name : String) (agent : Option AgentView)
    (next : NewCheck → Flow) : Flow :=
  if agent.any fun agent ↦ decide (agent.probeCount ≥ maxAgentChecks) then
    refuse 409 "An Agent can run at most 32 enabled checks"
  else match input.compiled with
  | .error failure => .ended (.error failure)
  | .ok compiled =>
    let configBytes := configurationBytes compiled 0
    if agent.any fun agent ↦ decide (agent.configBytes + configBytes > maxAgentConfigBytes) then
      refuse 409 "The Agent configuration has reached its encrypted snapshot size limit"
    else next
      { id := checkId
        serviceId := serviceId
        name := name
        kind := input.kind
        executorKind := input.executorKind
        executorAgentId := if input.executorKind = .agent then some input.executorAgentId else none
        machineId := agent.map AgentView.machineId
        policy := input.policy
        compiled := compiled
        configBytes := configBytes
        capacity := match agent with
          | some agent => ⟨agent.id, none, configBytes, true⟩
          | none => ⟨"", none, configBytes, false⟩ }

def NewCheck.enforced (check : NewCheck) : Option AgentCapacityInput :=
  if check.capacity.enforce then some check.capacity else none

/-- The agent is asked for when the input names one. -/
def loadExecutor (input : CheckInput) (workspaceId : String) (next : Option AgentView → Flow) :
    Flow :=
  match input.executorKind with
  | .cloudflare => next none
  | .agent =>
    .ask (fun db ↦ executorAgent db workspaceId input.executorAgentId) fun
    | none => refuse 400 "A valid Agent executor is required"
    | some agent => next (some agent)

/-- The slug with the first suffix that is free; `base` is `slugBase(name)`. -/
def availableSlug (workspaceId base : String) : ℕ → ℕ → (String → Flow) → Flow
  | 0, _, _ => refuse 409 "A unique service slug could not be generated"
  | left + 1, suffix, next =>
    let slug := if suffix = 1 then base else base ++ "-" ++ toString suffix
    .ask (fun db ↦ db.services.any fun service ↦ service.workspaceId = workspaceId &&
        service.slug = slug && service.deletedAt.isNone) fun existing ↦
      if existing then availableSlug workspaceId base left (suffix + 1) next else next slug

structure CreateServiceMonitor where
  actor : Actor
  name : String
  slugBase : String
  serviceId : String
  checkId : String
  input : CheckInput

def createServiceMonitor (request : CreateServiceMonitor) : Flow :=
  loadMonitoringAccess request.actor fun access ↦
  requireAdmin access <|
  assertWorkspaceMonitorCapacity access.workspaceId true <|
  loadExecutor request.input access.workspaceId fun agent ↦
  withCapacity request.input request.checkId request.serviceId
    (request.name ++ " availability") agent fun check ↦
  availableSlug access.workspaceId request.slugBase 100 1 fun slug ↦
  .send (.createService access.workspaceId ⟨request.serviceId, request.name, slug⟩ check
      [.admin request.actor.userId, .monitorCapacity true])
    (finish (NewCheck.enforced check)
      "Workspace access or monitoring capacity changed; reload and try again")

structure AddServiceCheck where
  actor : Actor
  serviceId : String
  checkId : String
  input : CheckInput

def addServiceCheck (request : AddServiceCheck) : Flow :=
  loadMonitoringAccess request.actor fun access ↦
  requireResourceCapability access .service request.serviceId .manage <|
  .ask (fun db ↦ hasService db access.workspaceId request.serviceId) fun present ↦
  if !present then refuse 404 "Service not found"
  else
    let checkName := trim request.input.checkName
    if !checkNameValid checkName then refuse 400 "Check name is invalid"
    else
      assertWorkspaceMonitorCapacity access.workspaceId false <|
      loadExecutor request.input access.workspaceId fun agent ↦
      if agent.any fun agent ↦
          !canAccessResource access.role access.grants .machine agent.machineId .manage then
        refuse 400 "A valid Agent executor is required"
      else
        withCapacity request.input request.checkId request.serviceId checkName agent fun check ↦
        let service := FinalCondition.resource access.role request.actor.userId .service
          request.serviceId .manage
        let machine := agent.toList.map fun agent ↦ FinalCondition.resource access.role
          request.actor.userId .machine agent.machineId .manage
        let conditions := service :: machine ++ [.monitorCapacity false]
        .send (.addCheck access.workspaceId check conditions conditions)
          (finish (NewCheck.enforced check)
            "Service access or check capacity changed; reload and try again")

/-! ## Existing checks -/

/-- The check with the machine of its agent, when that is active. -/
def loadCheck (db : ControlDb) (workspaceId serviceId checkId : String) :
    Option (CheckRow × Option String) :=
  if !(db.services.any fun service ↦ service.id = serviceId && service.deletedAt.isNone) ||
    !(db.workspaces.any fun workspace ↦ workspace.id = workspaceId && workspace.deletedAt.isNone)
  then none
  else (db.checks.find? fun check ↦ check.id = checkId && check.serviceId = serviceId &&
    check.workspaceId = workspaceId).map fun check ↦
      (check, (db.agents.find? fun agent ↦ check.executorAgentId = some agent.id &&
        agent.active).map AgentRow.machineId)

def agentMachine (row : CheckRow) (machineId : Option String) : Option String :=
  if row.executorKind = .agent then machineId else none

def capacityOf (row : CheckRow) (configBytes : ℕ) (enforce : Bool) : Option AgentCapacityInput :=
  if row.executorKind = .agent then
    some ⟨row.executorAgentId.getD "", some row.id, configBytes, enforce⟩
  else none

structure ReplaceServiceCheckConfiguration where
  actor : Actor
  serviceId : String
  checkId : String
  input : CheckInput
  replaceSecrets : Bool
  /-- The form has a secret header, a secret body or a secret payload. -/
  submittedSecrets : Bool

/-- Stored secrets do not become public without being replaced. -/
def publicSecret (existing : SecretReferences) (compiled : CompiledServiceConfig) :
    Option String :=
  if (compiled.publicHeaders.map String.toLower).any
      ((existing.headers.map fun header ↦ header.1.toLower).contains ·) then
    some "A stored secret header must be replaced before becoming public"
  else if existing.body.isSome && compiled.body.isSome then
    some "A stored secret body must be replaced before becoming public"
  else if existing.tcpPayload.isSome && compiled.payloadBase64.isSome then
    some "A stored secret TCP payload must be replaced before becoming public"
  else none

/-- The bytes of the stored secrets that a replacement keeps. -/
def withPreservedSecrets (workspaceId : String) (replaceSecrets : Bool)
    (oldSecretIds : List String) (next : ℕ → Flow) : Flow :=
  if replaceSecrets || oldSecretIds.isEmpty then next 0
  else .ask (fun db ↦ (db.secrets.filter fun secret ↦ secret.workspaceId = workspaceId &&
      oldSecretIds.contains secret.id).map SecretRow.wrappedBytes) fun stored ↦
    if stored.length ≠ oldSecretIds.length then
      refuse 409 "A stored check secret is unavailable"
    else next stored.sum

def sendReplacement (request : ReplaceServiceCheckConfiguration) (access : MonitoringAccess)
    (row : CheckRow) (machineId : Option String) (checkName : String)
    (compiled : CompiledServiceConfig) (configBytes : ℕ) : Flow :=
  if row.executorKind = .agent && row.enabled && row.executorAgentId.isNone then
    refuse 409 "The Agent executor is unavailable"
  else
    let capacity := capacityOf row configBytes row.enabled
    assertAgentCapacity capacity <|
    if row.executorKind = .agent && machineId.isNone then
      refuse 409 "The Agent executor is unavailable"
    else
      let service := FinalCondition.resource access.role request.actor.userId .service
        request.serviceId .manage
      let machine := (agentMachine row machineId).toList.map fun machineId ↦
        FinalCondition.resource access.role request.actor.userId .machine machineId .manage
      .send (.replaceCheck access.workspaceId
          { checkId := request.checkId
            serviceId := request.serviceId
            machineId := agentMachine row machineId
            configRevision := row.configRevision
            name := checkName
            compiled := compiled
            configBytes := configBytes
            capacity := capacity
            oldSecretIds := if request.replaceSecrets then referencedSecretIds row.secretRefs
              else []
            machineConditions := service :: machine
            checkConditions := service :: machine })
        (finish capacity "Check configuration changed; reload and try again")

/-- What a replacement may not change or leave open, given the row. -/
def replacementRefusal (request : ReplaceServiceCheckConfiguration) (row : CheckRow) :
    Option HttpError :=
  if !checkNameValid (trim request.input.checkName) then some ⟨400, "Check name is invalid"⟩
  else if request.input.kind ≠ row.kind ∨ request.input.executorKind ≠ row.executorKind ∨
      (if request.input.executorAgentId = "" then none else some request.input.executorAgentId) ≠
        row.executorAgentId then
    some ⟨400, "Check type and executor cannot be changed during target replacement"⟩
  else if request.input.policy ≠ row.policy then
    some ⟨400, "Schedule and confirmation changes must use the Policy editor"⟩
  else if !request.replaceSecrets && request.submittedSecrets then
    some ⟨400, "Secret values require explicit replacement confirmation"⟩
  else if (parseSecretReferences row.secretRefs).isNone then
    some ⟨409, "The stored secret references are invalid"⟩
  else none

/-- The configuration that is stored: the submitted secrets or the ones that are there. -/
def finalCompiled (request : ReplaceServiceCheckConfiguration) (row : CheckRow)
    (compiled : CompiledServiceConfig) : Except HttpError CompiledServiceConfig :=
  if request.replaceSecrets then .ok compiled
  else match publicSecret row.secretRefs compiled with
    | some message => .error ⟨400, message⟩
    | none => .ok { compiled with secretRefs := row.secretRefs, secrets := [] }

/-- The machine of the check's agent has to be managed. -/
def requireMachine (access : MonitoringAccess) (machineId : Option String) (next : Flow) : Flow :=
  match machineId with
  | some machineId => requireResourceCapability access .machine machineId .manage next
  | none => next

def replaceServiceCheckConfiguration (request : ReplaceServiceCheckConfiguration) : Flow :=
  loadMonitoringAccess request.actor fun access ↦
  requireResourceCapability access .service request.serviceId .manage <|
  .ask (fun db ↦ loadCheck db access.workspaceId request.serviceId request.checkId) fun
  | none => refuse 404 "Check not found"
  | some (row, machineId) =>
    requireMachine access (agentMachine row machineId) <|
    match replacementRefusal request row with
    | some failure => .ended (.error failure)
    | none =>
      match request.input.compiled.bind (finalCompiled request row) with
      | .error failure => .ended (.error failure)
      | .ok compiled =>
        withPreservedSecrets access.workspaceId request.replaceSecrets
          (referencedSecretIds row.secretRefs) fun preservedSecretBytes ↦
        sendReplacement request access row machineId (trim request.input.checkName) compiled
          (configurationBytes compiled preservedSecretBytes)

structure UpdateServiceCheckPolicy where
  actor : Actor
  serviceId : String
  checkId : String
  enabled : Bool
  policy : CheckPolicy

/-- `boundedPolicyInteger`, for the fields one after the other. -/
def boundedPolicy (executorKind : ExecutorKind) (policy : CheckPolicy) : Option String :=
  let minimumInterval : ℤ := if executorKind = .cloudflare then 60 else 5
  let fields : List (ℤ × ℤ × ℤ × String) :=
    [(policy.intervalSeconds, minimumInterval, 86400, "Check interval"),
      (policy.timeoutMs, 100, 30000, "Timeout"),
      (policy.retryCount, 0, 3, "Retry count"),
      (policy.failureConfirmations, 1, 20, "Failure confirmations"),
      (policy.recoveryConfirmations, 1, 20, "Recovery confirmations")]
  (fields.find? fun (value, minimum, maximum, _) ↦ value < minimum || maximum < value).map
    fun (_, minimum, maximum, label) ↦
      label ++ " must be between " ++ toString minimum ++ " and " ++ toString maximum

/-- A check of an agent is enabled only when the agent is there and its machine is managed. -/
def requireExecutor (access : MonitoringAccess) (row : CheckRow) (machineId : Option String)
    (enabled : Bool) (next : Flow) : Flow :=
  if row.executorKind = .agent && enabled then
    match row.executorAgentId, machineId with
    | some _, some machineId => requireResourceCapability access .machine machineId .manage next
    | _, _ => refuse 409 "The Agent executor is unavailable"
  else next

/-- A check is disabled only when another enabled check remains. -/
def assertRemaining (row : CheckRow) (enabled : Bool) (workspaceId serviceId checkId : String)
    (next : Flow) : Flow :=
  if row.enabled && !enabled then
    .ask (fun db ↦ db.checks.any fun check ↦ check.serviceId = serviceId &&
        check.workspaceId = workspaceId && check.enabled && check.id ≠ checkId) fun remaining ↦
      if remaining then next else refuse 409 "A service must keep at least one enabled check"
  else next

def updateServiceCheckPolicy (request : UpdateServiceCheckPolicy) : Flow :=
  loadMonitoringAccess request.actor fun access ↦
  requireResourceCapability access .service request.serviceId .manage <|
  .ask (fun db ↦ loadCheck db access.workspaceId request.serviceId request.checkId) fun
  | none => refuse 404 "Check not found"
  | some (row, machineId) =>
    requireExecutor access row machineId request.enabled <|
    match boundedPolicy row.executorKind request.policy with
    | some message => refuse 400 message
    | none =>
      assertRemaining row request.enabled access.workspaceId request.serviceId request.checkId <|
      let capacity := capacityOf row row.configBytes request.enabled
      assertAgentCapacity capacity <|
      let service := FinalCondition.resource access.role request.actor.userId .service
        request.serviceId .manage
      let machine := if request.enabled then
          (agentMachine row machineId).toList.map fun machineId ↦
            FinalCondition.resource access.role request.actor.userId .machine machineId .manage
        else []
      .send (.updatePolicy access.workspaceId
          { checkId := request.checkId
            serviceId := request.serviceId
            machineId := agentMachine row machineId
            wasEnabled := row.enabled
            configBytes := row.configBytes
            enabled := request.enabled
            policy := request.policy
            capacity := capacity
            machineConditions := service :: machine
            checkConditions := service :: machine })
        (finish capacity "Check policy changed; reload and try again")

structure DeleteServiceCheck where
  actor : Actor
  serviceId : String
  checkId : String

def deleteServiceCheck (request : DeleteServiceCheck) : Flow :=
  loadMonitoringAccess request.actor fun access ↦
  requireResourceCapability access .service request.serviceId .manage <|
  .ask (fun db ↦ loadCheck db access.workspaceId request.serviceId request.checkId) fun row ↦
  .ask (fun db ↦ decide (2 ≤ db.checks.countP fun check ↦ check.serviceId = request.serviceId &&
      check.workspaceId = access.workspaceId)) fun remaining ↦
  match row with
  | none => refuse 404 "Check not found"
  | some (row, machineId) =>
    if !remaining then refuse 409 "A service must keep at least one check"
    else
      let service := FinalCondition.resource access.role request.actor.userId .service
        request.serviceId .manage
      .send (.deleteCheck access.workspaceId
          { checkId := request.checkId
            serviceId := request.serviceId
            machineId := agentMachine row machineId
            secretIds := referencedSecretIds row.secretRefs
            machineConditions := [service]
            checkConditions := [service] })
        fun
        | none => d1Error
        | some changes =>
          if changes = 1 then succeed else refuse 409 "A service must keep at least one check"

/-! ## Deletion and restoration of resources -/

/-- When a resource was deleted and claimed for its finalization. -/
def deletionOf (db : ControlDb) (resourceType : ManagedResourceType)
    (workspaceId resourceId : String) : Option (Option ℤ × Option ℤ) :=
  match resourceType with
  | .machine => (db.machines.find? fun machine ↦ machine.id = resourceId &&
      machine.workspaceId = workspaceId).map fun machine ↦
        (machine.deletedAt, machine.purgeStartedAt)
  | .service => (db.services.find? fun service ↦ service.id = resourceId &&
      service.workspaceId = workspaceId).map fun service ↦
        (service.deletedAt, service.purgeStartedAt)

def grantType : ManagedResourceType → ResourceType
  | .machine => .machine
  | .service => .service

structure ResourceRequest where
  actor : Actor
  resourceType : ManagedResourceType
  resourceId : String
  now : ℤ

/-- What follows the batch of a deletion or a restoration. -/
def resourceChanged : Option ℕ → Flow
  | some 1 => succeed
  | some _ => refuse 409 "Resource state changed; reload and try again"
  | none => d1Error

def softDeleteResource (request : ResourceRequest) : Flow :=
  loadMonitoringAccess request.actor fun access ↦
  requireResourceCapability access (grantType request.resourceType) request.resourceId .manage <|
  .ask (fun db ↦ deletionOf db request.resourceType access.workspaceId request.resourceId) fun
  | some (none, _) =>
    .send (.softDelete access.workspaceId request.resourceType request.resourceId request.now
      [.resource access.role request.actor.userId (grantType request.resourceType)
        request.resourceId .manage]) resourceChanged
  | _ => refuse 404 "Resource not found"

def dayMs : ℤ := 86400000

def restoreResource (request : ResourceRequest) : Flow :=
  loadMonitoringAccess request.actor fun access ↦
  requireAdmin access <|
  .ask (fun db ↦ (deletionOf db request.resourceType access.workspaceId request.resourceId,
      (db.workspaces.find? (·.id = access.workspaceId)).bind WorkspaceRow.softDeleteGraceDays)) fun
  | (some (some deletedAt, purgeStartedAt), graceDays) =>
    if deletedAt ≤ request.now - graceDays.getD 7 * dayMs then
      refuse 409 "The resource recovery window has expired"
    else if purgeStartedAt.isSome then refuse 409 "The resource recovery window has expired"
    else .send (.restore access.workspaceId request.resourceType request.resourceId deletedAt
      [.admin request.actor.userId]) resourceChanged
  | _ => refuse 404 "Resource not found"

/-! ## Finalization -/

def resourceBatch : ℕ := 10

def deletedResources (db : ControlDb) (resourceType : ManagedResourceType)
    (policy : SoftDeletePolicy) (cutoff : ℤ) : List ResourceRow :=
  match resourceType with
  | .machine => ((db.machines.filter fun machine ↦ machine.workspaceId = policy.workspaceId &&
      deletedBy policy cutoff machine.deletedAt).take resourceBatch).map fun machine ↦
        ⟨machine.id, machine.deletedAt⟩
  | .service => ((db.services.filter fun service ↦ service.workspaceId = policy.workspaceId &&
      deletedBy policy cutoff service.deletedAt).take resourceBatch).map fun service ↦
        ⟨service.id, service.deletedAt⟩

def finalizeControl (resourceType : ManagedResourceType) (policy : SoftDeletePolicy)
    (resourceId : String) (cutoff : ℤ) : Batch :=
  match resourceType with
  | .machine => .finalizeMachineControl policy resourceId cutoff
  | .service => .finalizeServiceControl policy resourceId cutoff

/-- `finalizeMachines` and `finalizeServices`. `purged` says of each resource in turn whether its
telemetry is gone and the last page of its related rows is reached. -/
def finalizeResources (resourceType : ManagedResourceType) (policy : SoftDeletePolicy)
    (now cutoff : ℤ) : List ResourceRow → List Bool → Flow → Flow
  | [], _, next => next
  | resource :: rest, purged, next =>
    .send (.claimResource policy resourceType resource now cutoff) fun
    | some 1 =>
      if purged.headD false then
        .send (finalizeControl resourceType policy resource.id cutoff) fun
        | some _ => finalizeResources resourceType policy now cutoff rest purged.tail next
        | none => d1Error
      else finalizeResources resourceType policy now cutoff rest purged.tail next
    | some _ => finalizeResources resourceType policy now cutoff rest purged next
    | none => d1Error

structure FinalizeSoftDeleted where
  policy : SoftDeletePolicy
  now : ℤ
  machinesPurged : List Bool
  servicesPurged : List Bool

/-- The machines first, then the services. -/
def finalizeDeleted (request : FinalizeSoftDeleted) (cutoff : ℤ) : Flow :=
  .ask (fun db ↦ deletedResources db .machine request.policy cutoff) fun machines ↦
  finalizeResources .machine request.policy request.now cutoff machines request.machinesPurged <|
  .ask (fun db ↦ deletedResources db .service request.policy cutoff) fun services ↦
  finalizeResources .service request.policy request.now cutoff services request.servicesPurged
    succeed

def finalizeSoftDeletedResources (request : FinalizeSoftDeleted) : Flow :=
  let cutoff := request.now - request.policy.softDeleteGraceDays * dayMs
  -- A workspace that is deleted long enough has to be claimed.
  if request.policy.workspaceDeletedAt.any fun deletedAt ↦ decide (deletedAt ≤ cutoff) then
    .send (.claimWorkspace request.policy request.now cutoff) fun
    | some 1 => finalizeDeleted request cutoff
    | some _ => succeed
    | none => d1Error
  else finalizeDeleted request cutoff

/-! ## Requests -/

inductive Request where
  | createServiceMonitor (request : CreateServiceMonitor)
  | addServiceCheck (request : AddServiceCheck)
  | replaceServiceCheckConfiguration (request : ReplaceServiceCheckConfiguration)
  | updateServiceCheckPolicy (request : UpdateServiceCheckPolicy)
  | deleteServiceCheck (request : DeleteServiceCheck)
  | softDeleteResource (request : ResourceRequest)
  | restoreResource (request : ResourceRequest)
  | finalizeSoftDeletedResources (request : FinalizeSoftDeleted)
  /-- Any other change of members, grants, workspaces, machines and agents. -/
  | administer (workspaces : List WorkspaceRow) (memberships : List MembershipRow)
      (grants : List GrantRow) (machines : List MachineRow) (agents : List AgentRow)

def handle : Request → Flow
  | .createServiceMonitor request => createServiceMonitor request
  | .addServiceCheck request => addServiceCheck request
  | .replaceServiceCheckConfiguration request => replaceServiceCheckConfiguration request
  | .updateServiceCheckPolicy request => updateServiceCheckPolicy request
  | .deleteServiceCheck request => deleteServiceCheck request
  | .softDeleteResource request => softDeleteResource request
  | .restoreResource request => restoreResource request
  | .finalizeSoftDeletedResources request => finalizeSoftDeletedResources request
  | .administer workspaces memberships grants machines agents =>
    .send (.administer workspaces memberships grants machines agents) fun _ ↦ succeed

/-! ## A small installation -/

def emptyControl : ControlDb := ⟨[], [], [], [], [], [], [], [], []⟩

def operator : Actor := ⟨"main", "operator"⟩

/-- One workspace with one administrator, one machine and its agent. -/
def workspaceSetup : Request :=
  .administer [⟨"workspace", "main", none, none, none⟩]
    [⟨"workspace", "operator", .admin, true⟩] [] [⟨"machine", "workspace", 1, none, none⟩]
    [⟨"agent", "workspace", "machine", true⟩]

def minutePolicy : CheckPolicy := ⟨60, 5000, 0, 1, 1, true⟩

/-- An HTTP check of the agent with one secret of so many bytes. -/
def agentInput (secretId : String) (secretBytes : ℕ) : CheckInput where
  checkName := "probe"
  kind := .http
  executorKind := .agent
  executorAgentId := "agent"
  policy := minutePolicy
  compiled := .ok ⟨"{}", [], none, none, ⟨[], some secretId, none⟩, [⟨secretId, secretBytes⟩]⟩

/-- A request that takes so many steps without any other between them. -/
def served (index steps : ℕ) (request : Request) : List (Action Request) :=
  .call request :: List.replicate steps (.advance index)

/-- The service `service` has the check `first`; `second` is added and disabled. -/
def twoChecks : List (Action Request) :=
  served 0 1 workspaceSetup ++
  served 1 5 (.createServiceMonitor
    ⟨operator, "api", "api", "service", "first", agentInput "key" 20000⟩) ++
  served 2 5 (.addServiceCheck ⟨operator, "service", "second", agentInput "token" 100⟩) ++
  served 3 4 (.updateServiceCheckPolicy ⟨operator, "service", "second", false, minutePolicy⟩)

end AlphaPing.Monitoring.Handlers
