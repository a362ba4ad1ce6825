import AlphaPing.Agent.Runtime
import AlphaPing.Agent.Spool.Core
import AlphaPing.Agent.Spool.SampleLoss
import AlphaPing.Ingest.Report

/-!
# One agent and the ingest worker

The two parties, the requests that are on their way, and the control plane that changes
assignments. The agent has one upload at a time and forgets it at a restart. Whatever it has sent
can be handled at any later moment and any number of times, and an answer reaches the agent only
while the upload that it answers is the current one; so a request that is slow, an answer that is
lost and a retry that overtakes its predecessor are all runs of this system.

The reports that were ever created are kept in the order of their creation. A report identifier
is a UUID: one that was used before is not drawn again.

Eviction under storage pressure is not an action here.
-/

namespace AlphaPing.System.Joint

open Protocol Library.Tables Agent Ingest.Database Ingest.CheckResults Ingest.Requests Ingest.Report

structure Parties where
  spool : Spool
  database : Database
  created : List MachineReport
  upload : Option Request
  sent : List Request
  answers : List (Request × Except IngestError DurableAck)

/-- The HTTP status of an answer; the platform chooses the one of a failure. -/
def responseStatus : Except IngestError DurableAck → Option ℕ
  | .ok _ => some 200
  | .error error => error.status

/-- How far `apply_ack` gets before something other than the spool fails. -/
inductive Progress where
  | nothing
  | configured
  | everything
  deriving DecidableEq

/-- A change of the control plane. `write` stores a check that is new, edited, disabled or given
to another agent. -/
inductive ControlChange where
  | raise
  | write (row : CheckConfigRow)
  | delete (checkId : String)

inductive Action where
  /-- A call of the agent that concerns no upload. -/
  | call (operation : Spool.Operation)
  | create (reportId : Bytes) (nowMs : ℤ)
  /-- `start_due_upload`. -/
  | send (keyEpoch : ℕ) (nowMs nextAttemptAt : ℤ)
  /-- The worker handles a request that was sent. -/
  | handle (index : ℕ) (now : ℤ) (attachments : Attachments) (failing : Option Stage)
  /-- An answer reaches the agent. -/
  | receive (index : ℕ) (nowMs retryAt : ℤ) (progress : Progress)
  /-- The upload ends without an answer. -/
  | lose (oversized : Bool) (nowMs retryAt : ℤ)
  | restart
  | control (change : ControlChange)

/-! ## The agent -/

/-- The calls of the main loop outside of uploads. -/
def isLocal : Spool.Operation → Bool
  | .appendSample .. | .appendContainerInventory .. | .redriveQuarantined .. |
    .appendProbeResult .. | .markCommandAttempt .. | .completeCommand .. => true
  | _ => false

/-- The first part of `apply_ack`; nothing is left of it when it fails. -/
def applyConfig (codec : Codec) (spool : Spool) (ack : DurableAck) (nowMs : ℤ) : Option Spool :=
  if spool.appliedConfigRevision < ack.configRevision then
    match ack.config with
    | none => none
    | some next =>
      match Host.validateNewConfig codec next ack.configRevision with
      | .ok () => some (spool.applyProbeConfig next nowMs).2
      | .error _ => none
  else some spool

/-- The rest of `apply_ack` and the branch of `finish_upload` around it. -/
def applyCommands (codec : Codec) (spool : Spool) (reportId : Bytes) (ack : DurableAck)
    (nowMs retryAt : ℤ) : Spool :=
  match spool.acceptCommands codec ack.commands nowMs with
  | (.error _, spool) => (spool.rescheduleDelivery reportId (nowMs + 300000) "local_config").2
  | (.ok _, spool) =>
    match spool.acknowledge reportId with
    | (.ok true, spool) => (spool.wakeBacklog retryAt backlogWakeBatch).2
    | (_, spool) => (spool.rescheduleDelivery reportId (nowMs + 300000) "local_config").2

/-- `finish_upload`, for an acknowledgement. -/
def finishAck (codec : Codec) (spool : Spool) (reportId : Bytes) (ack : DurableAck)
    (nowMs retryAt : ℤ) (progress : Progress) : Spool :=
  match applyConfig codec spool ack nowMs with
  | none => (spool.rescheduleDelivery reportId (nowMs + 300000) "local_config").2
  | some configured =>
    match progress with
    | .nothing => (spool.rescheduleDelivery reportId (nowMs + 300000) "local_config").2
    | .configured => (configured.rescheduleDelivery reportId (nowMs + 300000) "local_config").2
    | .everything => applyCommands codec configured reportId ack nowMs retryAt

/-- The statuses that `response_status_error` takes as final. -/
def permanentStatus (error : IngestError) : Bool :=
  error.status.any fun status ↦ status ∈ [400, 409, 413, 415, 422]

def finishUpload (codec : Codec) (spool : Spool) (reportId : Bytes)
    (result : Except IngestError DurableAck) (nowMs retryAt : ℤ) (progress : Progress) : Spool :=
  match result with
  | .ok ack => finishAck codec spool reportId ack nowMs retryAt progress
  | .error error =>
    if permanentStatus error then
      (spool.quarantineDelivery reportId "server_rejected_payload" nowMs).2
    else (spool.rescheduleDelivery reportId retryAt "upload_failed").2

/-! ## Steps -/

/-- The checks after a change; a written row gets the revision that the change brings. -/
def writeCheck (checks : List CheckConfigRow) (row : CheckConfigRow) : List CheckConfigRow :=
  checks.filter (fun old ↦ old.check.id != row.check.id) ++ [row]

def ControlChange.apply (change : ControlChange) (db : Database) : Database :=
  let revision := db.desiredConfigRevision + 1
  match change with
  | .raise => { db with desiredConfigRevision := revision }
  | .write row =>
    { db with
      desiredConfigRevision := revision
      checks := writeCheck db.checks
        { row with check := { row.check with assignmentRevision := revision } } }
  | .delete checkId =>
    { db with
      desiredConfigRevision := revision
      checks := db.checks.filter fun old ↦ old.check.id != checkId }

variable (codec : ResultCodec)

/-- A creation; the identifier is new, and a report that comes out is recorded. -/
def createReport (parties : Parties) (reportId : Bytes) (nowMs : ℤ) : Parties :=
  if parties.created.any fun report ↦ report.reportId == reportId then parties
  else
    match parties.spool.createNextDelivery codec.toCodec parties.database.machinePk
      parties.database.workspacePk reportId nowMs with
    | (.ok (some _), spool) =>
      { parties with
        spool
        created := parties.created ++
          (spool.deliveries.getLast?.map DeliveryRow.payload).toList }
    | (_, spool) => { parties with spool }

/-- An upload is started when there is none. -/
def sendDue (parties : Parties) (keyEpoch : ℕ) (nowMs nextAttemptAt : ℤ) : Parties :=
  match parties.upload, parties.spool.dueDelivery nowMs with
  | none, some delivery =>
    match parties.spool.beginDeliveryAttempt delivery.reportId nextAttemptAt with
    | (.error _, spool) => { parties with spool }
    | (.ok sequence, spool) =>
      let request : Request :=
        { agentId := parties.database.agentId
          keyEpoch
          sequence
          reportId := delivery.reportId
          report := delivery.payload }
      { parties with spool, upload := some request, sent := parties.sent ++ [request] }
  | _, _ => parties

/-- The worker handles one request to its end. -/
def handleRequest (parties : Parties) (request : Request) (now : ℤ) (attachments : Attachments)
    (failing : Option Stage) : Parties :=
  let handled := handleReport codec parties.database request now attachments failing
  { parties with
    database := handled.2
    answers := parties.answers ++ [(request, handled.1)] }

def step (parties : Parties) : Action → Parties
  | .call operation =>
    if isLocal operation then { parties with spool := parties.spool.apply codec.toCodec operation }
    else parties
  | .create reportId nowMs => createReport codec parties reportId nowMs
  | .send keyEpoch nowMs nextAttemptAt => sendDue parties keyEpoch nowMs nextAttemptAt
  | .handle index now attachments failing =>
    match parties.sent[index]? with
    | none => parties
    | some request => handleRequest codec parties request now attachments failing
  | .receive index nowMs retryAt progress =>
    match parties.upload, parties.answers[index]? with
    | some current, some (request, result) =>
      if request = current then
        { parties with
          spool := finishUpload codec.toCodec parties.spool request.reportId result nowMs retryAt
            progress
          upload := none }
      else parties
    | _, _ => parties
  | .lose oversized nowMs retryAt =>
    match parties.upload with
    | none => parties
    | some request =>
      { parties with
        spool :=
          if oversized then
            (parties.spool.quarantineDelivery request.reportId "payload_too_large" nowMs).2
          else (parties.spool.rescheduleDelivery request.reportId retryAt "upload_failed").2
        upload := none }
  | .restart => { parties with upload := none }
  | .control change => { parties with database := change.apply parties.database }

/-! ## What a step can do -/

variable {codec}

theorem applyConfig_core {codec : Codec} {spool next : Spool} {ack : DurableAck} {nowMs : ℤ}
    (h : applyConfig codec spool ack nowMs = some next) :
    next.core = { spool.core with
      revision := max spool.appliedConfigRevision ack.configRevision } ∧
    next.shape = spool.shape := by
  unfold applyConfig at h
  split at h
  · split at h
    · cases h
    · next config _ =>
      split at h
      · next hvalid =>
        unfold Host.validateNewConfig at hvalid
        split at hvalid
        · cases hvalid
        · next hrevision =>
          rw [← Option.some.inj h, Spool.core_applyProbeConfig, not_not.mp hrevision]
          exact ⟨rfl, Spool.shape_applyProbeConfig spool config nowMs⟩
      · cases h
  · next hcurrent =>
    rw [← Option.some.inj h, max_eq_left (not_lt.mp hcurrent)]
    exact ⟨rfl, rfl⟩

/-- What the end of an upload can leave in the spool. -/
inductive FinishCase (spool : Spool) (reportId : Bytes)
    (result : Except IngestError DurableAck) (next : Spool) : Prop where
  | kept (hcore : next.core = spool.core)
  | configured (ack : DurableAck) (hresult : result = .ok ack)
    (hcore : next.core = { spool.core with
      revision := max spool.appliedConfigRevision ack.configRevision })
  | acknowledged (ack : DurableAck) (hresult : result = .ok ack)
    (hcore : next.core = Core.acknowledge { spool.core with
      revision := max spool.appliedConfigRevision ack.configRevision } reportId)

theorem applyCommands_core (codec : Codec) {spool : Spool} (h : spool.Wellformed)
    (reportId : Bytes) (ack : DurableAck) (nowMs retryAt : ℤ) :
    (applyCommands codec spool reportId ack nowMs retryAt).Wellformed ∧
      ((applyCommands codec spool reportId ack nowMs retryAt).core = spool.core ∨
        (applyCommands codec spool reportId ack nowMs retryAt).core =
          spool.core.acknowledge reportId) := by
  have hshape := Spool.shape_acceptCommands spool codec ack.commands nowMs
  have hcore := Spool.core_acceptCommands spool codec ack.commands nowMs
  unfold applyCommands
  split
  · next accepted haccepted =>
    rw [haccepted] at hshape hcore
    exact ⟨(h.of_shape hshape).of_shape (by simp), .inl (by simpa using hcore)⟩
  · next accepted haccepted =>
    rw [haccepted] at hshape hcore
    have hwellformed := h.of_shape hshape
    have hdone := Spool.wellformed_acknowledged hwellformed reportId
    rw [Spool.acknowledge_eq hwellformed reportId]
    have hfinal : (accepted.acknowledged reportId).core = spool.core.acknowledge reportId := by
      rw [Spool.core_acknowledged, hcore]
    split
    · next heq =>
      rw [← (Prod.mk.inj heq).2]
      exact ⟨hdone.of_shape (by simp), .inr (by simpa using hfinal)⟩
    · next heq =>
      rw [← (Prod.mk.inj heq).2]
      exact ⟨hdone.of_shape (by simp), .inr (by simpa using hfinal)⟩

theorem finishUpload_cases {codec : Codec} {spool : Spool} (h : spool.Wellformed) (reportId : Bytes)
    (result : Except IngestError DurableAck) (nowMs retryAt : ℤ) (progress : Progress) :
    (finishUpload codec spool reportId result nowMs retryAt progress).Wellformed ∧
      FinishCase spool reportId result
        (finishUpload codec spool reportId result nowMs retryAt progress) := by
  have hkept : (spool.rescheduleDelivery reportId (nowMs + 300000) "local_config").2.Wellformed ∧
      FinishCase spool reportId result
        (spool.rescheduleDelivery reportId (nowMs + 300000) "local_config").2 :=
    ⟨h.of_shape (by simp), .kept (by simp)⟩
  unfold finishUpload
  cases result with
  | error error =>
    dsimp only
    split
    · exact ⟨h.of_shape (by simp), .kept (by simp)⟩
    · exact ⟨h.of_shape (by simp), .kept (by simp)⟩
  | ok ack =>
    dsimp only
    unfold finishAck
    cases hconfig : applyConfig codec spool ack nowMs with
    | none => exact hkept
    | some configured =>
      obtain ⟨hcore, hshape⟩ := applyConfig_core hconfig
      have hwellformed := h.of_shape hshape
      cases progress with
      | nothing => exact hkept
      | configured =>
        exact ⟨hwellformed.of_shape (by simp), .configured ack rfl (by simpa using hcore)⟩
      | everything =>
        obtain ⟨hdone, hsame | hacknowledged⟩ :=
          applyCommands_core codec hwellformed reportId ack nowMs retryAt
        · exact ⟨hdone, .configured ack rfl (hsame.trans hcore)⟩
        · exact ⟨hdone, .acknowledged ack rfl (by rw [hacknowledged, hcore])⟩

/-- A report comes out of the creation. -/
def Creates (codec : ResultCodec) (parties : Parties) (reportId : Bytes) (nowMs : ℤ) : Prop :=
  (∀ report ∈ parties.created, report.reportId ≠ reportId) ∧
    (parties.spool.createNextDelivery codec.toCodec parties.database.machinePk
      parties.database.workspacePk reportId nowMs).1 = .ok (some reportId)

def Inert (codec : ResultCodec) (parties : Parties) : Action → Prop
  | .create reportId nowMs => ¬ Creates codec parties reportId nowMs
  | .handle index .. => parties.sent[index]? = none
  | _ => True

/-- What a step does to the cores of the two parties and to what is between them. -/
inductive StepCase (codec : ResultCodec) (parties : Parties) : Action → Parties → Prop where
  | quiet (action : Action) (spool : Spool) (upload : Option Request)
    (hcore : spool.core = parties.spool.core)
    (hupload : upload = parties.upload ∨ upload = none) (hinert : Inert codec parties action) :
    StepCase codec parties action { parties with spool, upload }
  | snapshot (inventory : ContainerInventory) (nowMs : ℤ) :
    StepCase codec parties (.call (.appendContainerInventory inventory nowMs))
      { parties with spool := parties.spool.appendContainerInventory inventory nowMs }
  | result (result : ProbeResult) (nowMs : ℤ) :
    StepCase codec parties (.call (.appendProbeResult result nowMs))
      { parties with spool := (parties.spool.appendProbeResult result nowMs).2 }
  | created (reportId : Bytes) (nowMs : ℤ) (minute : ℤ) (parked : Spool)
    (hcore : parked.core = parties.spool.core)
    (hcreates : Creates codec parties reportId nowMs) :
    StepCase codec parties (.create reportId nowMs)
      { parties with
        spool := parked.insertDelivery codec.toCodec (parked.buildReport
          parties.database.machinePk parties.database.workspacePk reportId minute) nowMs
        created := parties.created ++ [parked.buildReport parties.database.machinePk
          parties.database.workspacePk reportId minute] }
  | sent (keyEpoch sequence : ℕ) (nowMs nextAttemptAt : ℤ) (spool : Spool)
    (frozen : FrozenReport) (hcore : spool.core = parties.spool.core)
    (hupload : parties.upload = none) (hfrozen : frozen ∈ parties.spool.core.reports) :
    StepCase codec parties (.send keyEpoch nowMs nextAttemptAt)
      { parties with
        spool
        upload := some ⟨parties.database.agentId, keyEpoch, sequence, frozen.reportId,
          frozen.report⟩
        sent := parties.sent ++ [⟨parties.database.agentId, keyEpoch, sequence, frozen.reportId,
          frozen.report⟩] }
  | handled (index : ℕ) (request : Request) (now : ℤ) (attachments : Attachments)
    (failing : Option Stage) (hrequest : parties.sent[index]? = some request) :
    StepCase codec parties (.handle index now attachments failing)
      (handleRequest codec parties request now attachments failing)
  | received (index : ℕ) (nowMs retryAt : ℤ) (progress : Progress) (request : Request)
    (result : Except IngestError DurableAck) (spool : Spool)
    (hupload : parties.upload = some request) (hanswer : (request, result) ∈ parties.answers)
    (hfinish : FinishCase parties.spool request.reportId result spool) :
    StepCase codec parties (.receive index nowMs retryAt progress)
      { parties with spool, upload := none }
  | control (change : ControlChange) :
    StepCase codec parties (.control change)
      { parties with database := change.apply parties.database }

theorem call_cases (parties : Parties) {operation : Spool.Operation}
    (hlocal : isLocal operation = true) :
    StepCase codec parties (.call operation)
      { parties with spool := parties.spool.apply codec.toCodec operation } := by
  cases operation with
  | appendContainerInventory inventory nowMs => exact .snapshot inventory nowMs
  | appendProbeResult result nowMs => exact .result result nowMs
  | appendSample sample nowMs =>
    exact .quiet _ _ _ (Spool.core_appendSample parties.spool sample nowMs) (.inl rfl) trivial
  | redriveQuarantined nowMs =>
    exact .quiet _ _ _ (Spool.core_redriveQuarantined parties.spool nowMs) (.inl rfl) trivial
  | markCommandAttempt commandId retryAtMs =>
    exact .quiet _ _ _ (Spool.core_markCommandAttempt parties.spool commandId retryAtMs) (.inl rfl)
      trivial
  | completeCommand result =>
    exact .quiet _ _ _ (Spool.core_completeCommand parties.spool result) (.inl rfl) trivial
  | createNextDelivery | beginDeliveryAttempt | rescheduleDelivery | quarantineDelivery
  | wakeBacklog | acknowledge | enforceCapacity | applyProbeConfig | acceptCommands =>
    cases hlocal

theorem create_cases (parties : Parties) (reportId : Bytes) (nowMs : ℤ) :
    StepCase codec parties (.create reportId nowMs)
      (createReport codec parties reportId nowMs) := by
  unfold createReport
  split
  · next hused =>
    refine .quiet _ _ _ rfl (.inl rfl) fun hcreates ↦ ?_
    obtain ⟨report, hreport, hid⟩ := List.any_eq_true.mp hused
    exact hcreates.1 report hreport (by simpa using hid)
  · next hfresh =>
    have hfresh : ∀ report ∈ parties.created, report.reportId ≠ reportId := by
      simpa using hfresh
    have houtcome := Spool.createNextDelivery_cases parties.spool codec.toCodec
      parties.database.machinePk parties.database.workspacePk reportId nowMs
    generalize hresult : parties.spool.createNextDelivery codec.toCodec
      parties.database.machinePk parties.database.workspacePk reportId nowMs = outcome
      at houtcome ⊢
    have hnone : outcome.1 ≠ .ok (some reportId) → ¬ Creates codec parties reportId nowMs :=
      fun hne hcreates ↦ hne (hresult ▸ hcreates.2)
    cases houtcome with
    | idle parked hparked => exact .quiet _ _ _ hparked.core (.inl rfl) (hnone nofun)
    | failed message parked hparked => exact .quiet _ _ _ hparked.core (.inl rfl) (hnone nofun)
    | created minute parked hparked =>
      have hcase : StepCase codec parties (.create reportId nowMs) _ :=
        .created reportId nowMs minute parked hparked.core ⟨hfresh, by rw [hresult]⟩
      simpa [Spool.insertDelivery, Spool.deliveryRow] using hcase

theorem send_cases (parties : Parties) (keyEpoch : ℕ) (nowMs nextAttemptAt : ℤ) :
    StepCase codec parties (.send keyEpoch nowMs nextAttemptAt)
      (sendDue parties keyEpoch nowMs nextAttemptAt) := by
  unfold sendDue
  split
  · next delivery hupload hdue =>
    have hcore := Spool.core_beginDeliveryAttempt parties.spool delivery.reportId nextAttemptAt
    split
    · next spool hbegin =>
      rw [hbegin] at hcore
      exact .quiet _ _ _ hcore (.inl rfl) trivial
    · next sequence spool hbegin =>
      rw [hbegin] at hcore
      obtain ⟨row, hrow, rfl⟩ := Option.map_eq_some_iff.mp hdue
      have hmem := (List.mem_filter.mp
        (mem_of_mem_selectOrdered (List.mem_of_mem_head? hrow))).1
      exact .sent keyEpoch sequence nowMs nextAttemptAt spool row.frozen hcore hupload
        (List.mem_map_of_mem hmem)
  · exact .quiet _ _ _ rfl (.inl rfl) trivial

variable (codec) in
theorem step_cases {parties : Parties} (h : parties.spool.Wellformed) (action : Action) :
    StepCase codec parties action (step codec parties action) := by
  have hidle : Inert codec parties action → StepCase codec parties action parties :=
    .quiet _ _ _ rfl (.inl rfl)
  unfold step
  split
  · split
    · next hlocal => exact call_cases parties hlocal
    · exact hidle trivial
  · exact create_cases parties _ _
  · exact send_cases parties _ _ _
  · split
    · next hrequest => exact hidle hrequest
    · next hrequest => exact .handled _ _ _ _ _ hrequest
  · split
    · next request current result hupload hanswer =>
      split
      · next heq =>
        obtain rfl := heq
        exact .received _ _ _ _ _ _ _ hupload (List.mem_of_getElem? hanswer)
          (finishUpload_cases h _ _ _ _ _).2
      · exact hidle trivial
    · exact hidle trivial
  · split
    · exact hidle trivial
    · refine .quiet _ _ _ ?_ (.inr rfl) trivial
      split <;> simp
  · exact .quiet _ _ _ rfl (.inr rfl) trivial
  · exact .control _

variable (codec) in
theorem wellformed_step {parties : Parties} (h : parties.spool.Wellformed) (action : Action) :
    (step codec parties action).spool.Wellformed := by
  unfold step
  split
  · split
    · exact Spool.wellformed_apply h _
    · exact h
  · unfold createReport
    have hcreated := Spool.wellformed_createNextDelivery h codec.toCodec
      parties.database.machinePk parties.database.workspacePk
    split
    · exact h
    · next reportId nowMs _ =>
      have hnext := hcreated reportId nowMs
      split <;> next heq => rw [heq] at hnext; exact hnext
  · unfold sendDue
    split
    · next keyEpoch nowMs nextAttemptAt _ _ delivery _ _ =>
      have hnext := h.of_shape
        (Spool.shape_beginDeliveryAttempt parties.spool delivery.reportId nextAttemptAt)
      split <;> next heq => rw [heq] at hnext; exact hnext
    · exact h
  · split <;> exact h
  · split
    · split
      · exact (finishUpload_cases h _ _ _ _ _).1
      · exact h
    · exact h
  · split
    · exact h
    · dsimp only
      split <;> exact h.of_shape (by simp)
  · exact h
  · exact h

/-! ## What the parties know of each other -/

/-- An agent that has just been enrolled. `handle_enrollment` takes the desired revision of the
machine for the one that the agent has applied; `run_enrollment` creates an empty spool. -/
def enrolled (database : Database) : Parties where
  spool := Spool.empty
  database := { database with appliedConfigRevision := database.desiredConfigRevision }
  created := []
  upload := none
  sent := []
  answers := []

/-- A machine without a history, to run the system on. -/
def newMachine : Database where
  agentId := "agent"
  machineId := "machine"
  workspaceId := "workspace"
  machinePk := 1
  workspacePk := 1
  appliedConfigRevision := 0
  desiredConfigRevision := 1
  maintenanceUntil := none
  settings :=
    { samplingIntervalSeconds := 10
      reportIntervalSeconds := 60
      containerMonitoringEnabled := false }
  catalog := { digest := none, containers := [] }
  checks := []
  replay := fun _ _ ↦ none
  tables := { blocks := [], latest := [], stateEvents := [], rollups5m := [], rollups1h := [] }
  checkTables := { blocks := [], latest := [] }

/-- Everything that is stored, sent or answered goes back to one creation. -/
structure Coherent (parties : Parties) : Prop where
  wellformed : parties.spool.Wellformed
  created_unique : (parties.created.map MachineReport.reportId).Nodup
  rows : ∀ frozen ∈ parties.spool.core.reports,
    frozen.report ∈ parties.created ∧ frozen.report.reportId = frozen.reportId
  sent : ∀ request ∈ parties.sent,
    request.report ∈ parties.created ∧ request.report.reportId = request.reportId
  upload : ∀ request ∈ parties.upload, request ∈ parties.sent
  answers : ∀ answer ∈ parties.answers, answer.1 ∈ parties.sent

theorem coherent_enrolled (database : Database) : Coherent (enrolled database) where
  wellformed := Spool.wellformed_empty
  created_unique := List.nodup_nil
  rows _ h := absurd h List.not_mem_nil
  sent _ h := absurd h List.not_mem_nil
  upload _ h := by cases h
  answers _ h := absurd h List.not_mem_nil

theorem reports_acknowledge_subset (core : Core) (reportId : Bytes) :
    (core.acknowledge reportId).reports ⊆ core.reports :=
  List.filter_subset_self _

theorem FinishCase.reports_subset {spool next : Spool} {reportId : Bytes}
    {result : Except IngestError DurableAck} (h : FinishCase spool reportId result next) :
    next.core.reports ⊆ spool.core.reports := by
  cases h with
  | kept hcore => rw [hcore]; exact List.Subset.refl _
  | configured ack hresult hcore => rw [hcore]; exact List.Subset.refl _
  | acknowledged ack hresult hcore => rw [hcore]; exact reports_acknowledge_subset _ _

variable (codec) in
theorem coherent_step {parties : Parties} (h : Coherent parties) (action : Action) :
    Coherent (step codec parties action) := by
  have hwellformed := wellformed_step codec h.wellformed action
  have hcase := step_cases codec h.wellformed action
  generalize step codec parties action = next at hwellformed hcase ⊢
  cases hcase with
  | quiet action spool upload hcore hupload hinert =>
    refine ⟨hwellformed, h.created_unique, fun frozen hfrozen ↦ ?_, h.sent, ?_, h.answers⟩
    · exact h.rows frozen (hcore ▸ hfrozen)
    · rcases hupload with rfl | rfl
      · exact h.upload
      · exact fun _ hnone ↦ by cases hnone
  | snapshot inventory nowMs =>
    refine ⟨hwellformed, h.created_unique, fun frozen hfrozen ↦ ?_, h.sent, h.upload, h.answers⟩
    rw [Spool.core_appendContainerInventory] at hfrozen
    exact h.rows frozen hfrozen
  | result result nowMs =>
    refine ⟨hwellformed, h.created_unique, fun frozen hfrozen ↦ ?_, h.sent, h.upload, h.answers⟩
    rw [Spool.core_appendProbeResult] at hfrozen
    exact h.rows frozen hfrozen
  | created reportId nowMs minute parked hcore hcreates =>
    refine ⟨hwellformed, ?_, fun frozen hfrozen ↦ ?_, fun request hrequest ↦ ?_, h.upload,
      h.answers⟩
    · rw [List.map_append]
      refine List.Nodup.append h.created_unique (List.nodup_singleton _) ?_
      refine List.disjoint_singleton.mpr fun hmem ↦ ?_
      obtain ⟨report, hreport, hid⟩ := List.mem_map.mp hmem
      exact hcreates.1 report hreport hid
    · rw [Spool.core_insertDelivery] at hfrozen
      rcases List.mem_append.mp hfrozen with hold | hnew
      · obtain ⟨hmem, hid⟩ := h.rows frozen (hcore ▸ hold)
        exact ⟨List.mem_append_left _ hmem, hid⟩
      · rw [List.mem_singleton.mp hnew]
        exact ⟨List.mem_append_right _ (List.mem_singleton_self _), rfl⟩
    · obtain ⟨hmem, hid⟩ := h.sent request hrequest
      exact ⟨List.mem_append_left _ hmem, hid⟩
  | sent keyEpoch sequence nowMs nextAttemptAt spool frozen hcore hupload hfrozen =>
    refine ⟨hwellformed, h.created_unique, fun other hother ↦ ?_, fun request hrequest ↦ ?_,
      fun request hrequest ↦ ?_, fun answer hanswer ↦ ?_⟩
    · exact h.rows other (hcore ▸ hother)
    · rcases List.mem_append.mp hrequest with hold | hnew
      · exact h.sent request hold
      · rw [List.mem_singleton.mp hnew]
        exact h.rows frozen hfrozen
    · obtain rfl := Option.some.inj hrequest
      exact List.mem_append_right _ (List.mem_singleton_self _)
    · exact List.mem_append_left _ (h.answers answer hanswer)
  | handled index request now attachments failing hrequest =>
    refine ⟨hwellformed, h.created_unique, h.rows, h.sent, h.upload, fun answer hanswer ↦ ?_⟩
    rcases List.mem_append.mp hanswer with hold | hnew
    · exact h.answers answer hold
    · rw [List.mem_singleton.mp hnew]
      exact List.mem_of_getElem? hrequest
  | received index nowMs retryAt progress request result spool hupload hanswer hfinish =>
    refine ⟨hwellformed, h.created_unique, fun frozen hfrozen ↦ ?_, h.sent,
      (fun _ hnone ↦ by cases hnone), h.answers⟩
    exact h.rows frozen (hfinish.reports_subset hfrozen)
  | control change =>
    exact ⟨hwellformed, h.created_unique, h.rows, h.sent, h.upload, h.answers⟩

end AlphaPing.System.Joint
