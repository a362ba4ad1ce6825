import AlphaPing.Ingest.Database
import AlphaPing.Library.Tables
import AlphaPing.Library.Workflows
import AlphaPing.Protocol.Messages
import Mathlib.Data.Nat.Digits.Defs

/-!
# Enrollment

An administrator creates a machine with a token; an agent that presents the token becomes the
agent of the machine and gets its first key. The handler reads the token, and then sends one batch
that marks it as used and inserts the agent and the key. The statements of the batch repeat the
conditions under which the token was read, and the tables have unique indexes.

Hashing, signatures, key wrapping and the decoding of the message are third-party code. What
the handler draws from the random source, what the clock and the rate limiter say and how the body
arrives are part of a request.
-/

namespace AlphaPing.Ingest.Enrollment

open Library.Tables Library.Workflows Protocol Database

/-! ## Tables -/

structure WorkspaceRow where
  id : String
  telemetryPk : ℕ
  deletedAt : Option ℕ

structure MachineRow where
  id : String
  telemetryPk : ℕ
  workspaceId : String
  samplingIntervalSeconds : ℕ
  reportIntervalSeconds : ℕ
  containerMonitoringEnabled : Bool
  desiredConfigRevision : ℕ
  deletedAt : Option ℕ

/-- A row of `agent_enrollment_tokens`. -/
structure TokenRow where
  id : String
  workspaceId : String
  machineId : String
  tokenDigest : Bytes
  expiresAt : ℕ
  usedAt : Option ℕ
  usedByAgentId : Option String
  revokedAt : Option ℕ

/-- What an agent says about itself. -/
structure AgentDescription where
  identityPublicKey : Bytes
  platform : String
  arch : String
  agentVersion : String
  protocolVersion : ℕ
  hostname : String
  osName : String
  osVersion : String
  kernelVersion : String
  deriving DecidableEq

structure AgentRow where
  id : String
  workspaceId : String
  machineId : String
  description : AgentDescription
  /-- The status is `active`. -/
  active : Bool
  appliedConfigRevision : ℕ
  createdAt : ℕ
  deriving DecidableEq

structure AgentKeyRow where
  agentId : String
  keyEpoch : ℕ
  wrappedDataKey : Bytes
  noncePrefix : Bytes
  validFrom : ℕ
  validUntil : ℕ
  deriving DecidableEq

/-- Rows that a batch has inserted for the token with this digest. -/
structure Created where
  tokenDigest : Bytes
  agents : ℕ
  keys : ℕ

structure EnrollmentDb where
  workspaces : List WorkspaceRow
  machines : List MachineRow
  tokens : List TokenRow
  agents : List AgentRow
  agentKeys : List AgentKeyRow
  /-- The identifiers and digests of all tokens that were ever inserted. -/
  issued : List (String × Bytes)
  /-- What the batches of the enrollments have inserted. -/
  created : List Created

def EnrollmentDb.agentsCreated (db : EnrollmentDb) (digest : Bytes) : ℕ :=
  ((db.created.filter (·.tokenDigest = digest)).map Created.agents).sum

def EnrollmentDb.keysCreated (db : EnrollmentDb) (digest : Bytes) : ℕ :=
  ((db.created.filter (·.tokenDigest = digest)).map Created.keys).sum

def EnrollmentDb.activeAgents (db : EnrollmentDb) (machineId : String) : ℕ :=
  db.agents.countP fun agent ↦ agent.machineId = machineId && agent.active

/-! ## The batch of an enrollment -/

def keyValidityMs : ℕ := 7776000000

/-- The values that the statements are bound to; the digest is the one that was presented. -/
structure Enroll where
  tokenDigest : Bytes
  tokenId : String
  agentId : String
  description : AgentDescription
  configRevision : ℕ
  wrappedDataKey : Bytes
  noncePrefix : Bytes
  now : ℕ

/-- The token can still be used. -/
def usable (plan : Enroll) (token : TokenRow) : Bool :=
  token.id = plan.tokenId && token.usedAt.isNone && token.revokedAt.isNone &&
    plan.now ≤ token.expiresAt

def Enroll.use (plan : Enroll) (token : TokenRow) : TokenRow :=
  { token with usedAt := some plan.now, usedByAgentId := some plan.agentId }

def Enroll.agent (plan : Enroll) (token : TokenRow) : AgentRow where
  id := plan.agentId
  workspaceId := token.workspaceId
  machineId := token.machineId
  description := plan.description
  active := true
  appliedConfigRevision := plan.configRevision
  createdAt := plan.now

def Enroll.key (plan : Enroll) : AgentKeyRow where
  agentId := plan.agentId
  keyEpoch := 1
  wrappedDataKey := plan.wrappedDataKey
  noncePrefix := plan.noncePrefix
  validFrom := plan.now
  validUntil := plan.now + keyValidityMs

/-- The first statement; `agent_enrollment_used_by_uq` admits an agent once. -/
def consumeToken (db : EnrollmentDb) (plan : Enroll) : Option (EnrollmentDb × ℕ) :=
  if !db.tokens.any (usable plan) then some (db, 0)
  else if db.tokens.any fun token ↦ token.usedByAgentId = some plan.agentId && !usable plan token
  then none
  else some ({ db with tokens := updateWhere (usable plan) plan.use db.tokens },
    db.tokens.countP (usable plan))

/-- The second statement; `agents_one_active_machine_uq` admits one active agent. -/
def insertAgent (db : EnrollmentDb) (plan : Enroll) : Option (EnrollmentDb × ℕ) :=
  match db.tokens.find? fun token ↦ token.id = plan.tokenId &&
      token.usedByAgentId = some plan.agentId with
  | none => some (db, 0)
  | some token =>
    if db.agents.any fun agent ↦ agent.id = plan.agentId then none
    else if db.agents.any fun agent ↦ agent.machineId = token.machineId && agent.active then none
    else some ({ db with agents := db.agents ++ [plan.agent token] }, 1)

/-- The third statement. -/
def insertKey (db : EnrollmentDb) (plan : Enroll) : Option (EnrollmentDb × ℕ) :=
  if !db.agents.any fun agent ↦ agent.id = plan.agentId then some (db, 0)
  else if db.agentKeys.any fun key ↦ key.agentId = plan.agentId && key.keyEpoch = 1 then none
  else some ({ db with agentKeys := db.agentKeys ++ [plan.key] }, 1)

/-- The batch, with the changes of its first statement. -/
def enrollBatch (db : EnrollmentDb) (plan : Enroll) : Option (EnrollmentDb × ℕ) :=
  (consumeToken db plan).bind fun (consumed, changes) ↦
    (insertAgent consumed plan).bind fun (enrolled, agents) ↦
      (insertKey enrolled plan).map fun (keyed, keys) ↦
        ({ keyed with created := keyed.created ++ [⟨plan.tokenDigest, agents, keys⟩] }, changes)

/-! ## The other writers -/

structure NewToken where
  id : String
  workspaceId : String
  machineId : String
  tokenDigest : Bytes
  expiresAt : ℕ

/-- The writes of the other handlers to these tables. Whether an actor is authorized, and whether
something may be purged, depends on rows that are not modelled; it is left open. -/
inductive Administration where
  | createWorkspace (workspace : WorkspaceRow)
  | createMachine (machine : MachineRow) (token : NewToken)
  | updateMachine (machineId : String) (samplingIntervalSeconds reportIntervalSeconds : ℕ)
      (containerMonitoringEnabled : Bool)
  | revokeToken (tokenId workspaceId machineId : String) (now : ℕ)
  | regenerateToken (token : NewToken) (now : ℕ)
  | setWorkspaceDeleted (workspaceId : String) (deletedAt : Option ℕ)
  | setMachineDeleted (machineId : String) (deletedAt : Option ℕ)
  | purgeMachine (machineId : String)
  | purgeWorkspace (workspaceId : String)
  | applyRevision (agentId : String) (revision : ℕ)
  | proposeKey (key : AgentKeyRow)
  | limitKey (agentId : String) (keyEpoch validUntil : ℕ)

/-- Identifier and digest come from the random source: what was drawn once is not drawn again,
and an insertion that would repeat it does not take place. -/
def insertToken (db : EnrollmentDb) (token : NewToken) : Option EnrollmentDb :=
  if db.issued.any fun old ↦ old.1 = token.id || old.2 = token.tokenDigest then none
  else some
    { db with
      tokens := db.tokens ++ [{
        id := token.id
        workspaceId := token.workspaceId
        machineId := token.machineId
        tokenDigest := token.tokenDigest
        expiresAt := token.expiresAt
        usedAt := none
        usedByAgentId := none
        revokedAt := none }]
      issued := db.issued ++ [(token.id, token.tokenDigest)] }

/-- `revoked_at` is set on tokens that are not used and not revoked. -/
def revokeTokens (db : EnrollmentDb) (now : ℕ) (condition : TokenRow → Bool) : EnrollmentDb :=
  { db with
    tokens := updateWhere
      (fun token ↦ condition token && token.usedAt.isNone && token.revokedAt.isNone)
      (fun token ↦ { token with revokedAt := some now }) db.tokens }

/-- The rows that go with a machine or a workspace. -/
def cascade (db : EnrollmentDb) (goes : String → String → Bool) : EnrollmentDb :=
  { db with
    tokens := db.tokens.filter fun token ↦ !goes token.workspaceId token.machineId
    agents := db.agents.filter fun agent ↦ !goes agent.workspaceId agent.machineId
    agentKeys := db.agentKeys.filter fun key ↦ !db.agents.any fun agent ↦
      agent.id = key.agentId && goes agent.workspaceId agent.machineId }

def administer (db : EnrollmentDb) : Administration → Option EnrollmentDb
  | .createWorkspace workspace =>
    if db.workspaces.any fun old ↦ old.id = workspace.id then none
    else some { db with workspaces := db.workspaces ++ [workspace] }
  | .createMachine machine token =>
    if db.machines.any fun old ↦ old.id = machine.id then none
    else insertToken { db with machines := db.machines ++ [machine] }
      { token with workspaceId := machine.workspaceId, machineId := machine.id }
  | .updateMachine machineId sampling report containers =>
    some { db with
      machines := updateWhere (fun machine ↦ machine.id = machineId) (fun machine ↦ { machine with
        samplingIntervalSeconds := sampling
        reportIntervalSeconds := report
        containerMonitoringEnabled := containers
        desiredConfigRevision := machine.desiredConfigRevision + 1 }) db.machines }
  | .revokeToken tokenId workspaceId machineId now =>
    some (revokeTokens db now fun token ↦ token.id = tokenId &&
      token.workspaceId = workspaceId && token.machineId = machineId)
  | .regenerateToken token now =>
    if db.machines.any fun machine ↦ machine.id = token.machineId &&
        machine.workspaceId = token.workspaceId && machine.deletedAt.isNone then
      (insertToken db token).map fun inserted ↦ revokeTokens inserted now fun row ↦
        row.workspaceId = token.workspaceId && row.machineId = token.machineId && row.id ≠ token.id
    else some db
  | .setWorkspaceDeleted workspaceId deletedAt =>
    some { db with
      workspaces := updateWhere (fun workspace ↦ workspace.id = workspaceId)
        (fun workspace ↦ { workspace with deletedAt := deletedAt }) db.workspaces }
  | .setMachineDeleted machineId deletedAt =>
    some { db with
      machines := updateWhere (fun machine ↦ machine.id = machineId)
        (fun machine ↦ { machine with deletedAt := deletedAt }) db.machines }
  | .purgeMachine machineId =>
    some (cascade { db with
      machines := db.machines.filter fun machine ↦ machine.id ≠ machineId }
        fun _ machine ↦ machine = machineId)
  | .purgeWorkspace workspaceId =>
    some (cascade { db with
      workspaces := db.workspaces.filter fun workspace ↦ workspace.id ≠ workspaceId
      machines := db.machines.filter fun machine ↦ machine.workspaceId ≠ workspaceId }
        fun workspace _ ↦ workspace = workspaceId)
  | .applyRevision agentId revision =>
    some { db with
      agents := updateWhere (fun agent ↦ agent.id = agentId)
        (fun agent ↦ { agent with appliedConfigRevision := revision }) db.agents }
  | .proposeKey key =>
    if !db.agents.any fun agent ↦ agent.id = key.agentId then none
    else if db.agentKeys.any fun old ↦ old.agentId = key.agentId && old.keyEpoch = key.keyEpoch
    then some db
    else some { db with agentKeys := db.agentKeys ++ [key] }
  | .limitKey agentId keyEpoch validUntil =>
    some { db with
      agentKeys := updateWhere (fun key ↦ key.agentId = agentId && key.keyEpoch = keyEpoch &&
          validUntil < key.validUntil)
        (fun key ↦ { key with validUntil := validUntil }) db.agentKeys }

/-! ## The handler -/

structure EnrollmentRequest where
  token : Bytes
  identityPublicKey : Bytes
  platform : String
  arch : String
  agentVersion : String
  protocolVersion : ℕ
  machineClaimId : String
  requestNonce : Bytes
  supportedProtocolVersions : List ℕ
  pqHybrid : Bool
  signature : Bytes
  hostname : String
  osName : String
  osVersion : String
  kernelVersion : String
  deriving DecidableEq

structure EnrollmentResponse where
  agentId : String
  machinePk : ℕ
  workspacePk : ℕ
  keyEpoch : ℕ
  dataKey : Bytes
  noncePrefix : Bytes
  configRevision : ℕ
  sampleIntervalSeconds : ℕ
  reportIntervalSeconds : ℕ
  serverTimeMs : ℕ
  maxClockSkewMs : ℕ
  maxEnvelopeBytes : ℕ
  initialClientSequence : ℕ
  initialServerSequence : ℕ
  machineClaimId : String
  containerMonitoringEnabled : Bool

/-- Third-party code and the worker's secrets. -/
structure Env where
  decodeMessage : Bytes → Option EnrollmentRequest
  /-- The bytes are an Ed25519 public key. -/
  verifyingKey : Bytes → Bool
  /-- `verify_strict` with the encoding of the request. -/
  verifyStrict : Bytes → EnrollmentRequest → Bytes → Bool
  /-- `enrollment_token_digest` with the worker's pepper. -/
  tokenDigest : Bytes → Bytes
  /-- `wrap_key` with the worker's secret: nonce, key, agent and epoch. -/
  wrapKey : Bytes → Bytes → String → ℕ → Option Bytes

def protocolVersion : ℕ := 1

def maxClockSkewMs : ℕ := 300000

inductive EnrollmentValidationError where
  | fields
  | signature
  deriving DecidableEq

/-- `char::is_control`. -/
def isControl (character : Char) : Bool :=
  character.toNat < 32 || (127 ≤ character.toNat && character.toNat < 160)

def boundedSystemText (value : String) (maximum : ℕ) : Bool :=
  value.utf8ByteSize ≤ maximum && value.toList.all fun character ↦ !isControl character

/-- `is_ascii_alphanumeric`, or a minus or an underscore. -/
def isBase64Url (byte : UInt8) : Bool :=
  (48 ≤ byte && byte ≤ 57) || (65 ≤ byte && byte ≤ 90) || (97 ≤ byte && byte ≤ 122) ||
    byte = 45 || byte = 95

/-- `is_ascii_hexdigit`. -/
def isHexDigit (byte : UInt8) : Bool :=
  (48 ≤ byte && byte ≤ 57) || (65 ≤ byte && byte ≤ 70) || (97 ≤ byte && byte ≤ 102)

def machineClaimIsUuid (claim : String) : Bool :=
  claim.utf8ByteSize = 36 && claim.toUTF8.toList.zipIdx.all fun (byte, index) ↦
    if index = 8 ∨ index = 13 ∨ index = 18 ∨ index = 23 then byte = 45 else isHexDigit byte

def validateEnrollmentRequest (env : Env) (enrollment : EnrollmentRequest) :
    Except EnrollmentValidationError Unit :=
  if enrollment.protocolVersion ≠ protocolVersion ||
      8 < enrollment.supportedProtocolVersions.length ||
      !enrollment.supportedProtocolVersions.contains protocolVersion ||
      !enrollment.pqHybrid ||
      !(enrollment.token.length = 43 && enrollment.token.all isBase64Url) ||
      !machineClaimIsUuid enrollment.machineClaimId ||
      enrollment.identityPublicKey.length ≠ 32 ||
      enrollment.requestNonce.length ≠ 32 ||
      enrollment.platform.isEmpty || 32 < enrollment.platform.utf8ByteSize ||
      enrollment.arch.isEmpty || 32 < enrollment.arch.utf8ByteSize ||
      enrollment.agentVersion.isEmpty || 32 < enrollment.agentVersion.utf8ByteSize ||
      !boundedSystemText enrollment.hostname 253 ||
      !boundedSystemText enrollment.osName 64 ||
      !boundedSystemText enrollment.osVersion 128 ||
      !boundedSystemText enrollment.kernelVersion 128 ||
      enrollment.signature.length ≠ 64 then .error .fields
  else if !env.verifyingKey enrollment.identityPublicKey then .error .fields
  else if env.verifyStrict enrollment.identityPublicKey { enrollment with signature := [] }
    enrollment.signature then .ok ()
  else .error .signature

/-- What the handler takes from the random source. -/
structure Drawn where
  agentId : String
  dataKey : Bytes
  noncePrefix : Bytes
  wrappingNonce : Bytes

/-- An HTTP request, and what its handler will meet. -/
structure HttpRequest where
  post : Bool
  contentType : Option String
  connectingIp : Option String
  contentLength : Option String
  chunks : List Bytes
  /-- The rate limiter lets the key pass. -/
  limit : String → Bool
  now : ℕ
  drawn : Option Drawn

def isProtobufContentType (value : Option String) : Bool :=
  value.any fun value ↦ value.toLower = "application/x-protobuf"

def clientIpRateKey (value : Option String) : String :=
  "ip:" ++ ((value.filter fun value ↦ !value.isEmpty && value.utf8ByteSize ≤ 64 &&
    value.toUTF8.toList.all fun byte ↦ isHexDigit byte || byte = 46 || byte = 58).getD "unknown")

/-- `parse::<usize>` on a platform with 32 bits. -/
def parseUsize (text : String) : Option ℕ :=
  let digits := match text.toList with
    | '+' :: rest => rest
    | characters => characters
  let value := digits.foldl (fun value digit ↦ 10 * value + (digit.toNat - '0'.toNat)) 0
  if digits.isEmpty || !digits.all Char.isDigit || 4294967295 < value then none else some value

def readBoundedBody (contentLength : Option String) (chunks : List Bytes) (maximumBytes : ℕ) :
    Except IngestError Bytes :=
  if contentLength.any fun value ↦ (parseUsize value).all fun length ↦ maximumBytes < length then
    .error .badRequest
  else chunks.foldlM (fun body chunk ↦
    if maximumBytes < body.length + chunk.length then .error .badRequest
    else .ok (body ++ chunk)) []

/-- `hex::encode`. -/
def hexEncode (bytes : Bytes) : String :=
  String.ofList (bytes.flatMap fun byte ↦
    [Nat.digitChar (byte.toNat / 16), Nat.digitChar (byte.toNat % 16)])

inductive Batch where
  | enroll (plan : Enroll)
  | administer (change : Administration)

inductive Outcome where
  | enrolled (response : EnrollmentResponse)
  | failed (error : IngestError)
  | administered

/-- D1 executes a batch as one transaction; none is a violated constraint. -/
def execute (db : EnrollmentDb) : Batch → Option (EnrollmentDb × ℕ)
  | .enroll plan => enrollBatch db plan
  | .administer change => (administer db change).map fun after ↦ (after, 1)

/-- The tables after a batch, and the changes that its sender is told. -/
def perform (batch : Batch) (db : EnrollmentDb) : EnrollmentDb × Option ℕ :=
  match execute db batch with
  | some (after, changes) => (after, some changes)
  | none => (db, none)

abbrev Flow := Workflow EnrollmentDb Batch (Option ℕ) Outcome

def enforceRateLimit (request : HttpRequest) (key : String) (next : Flow) : Flow :=
  .ask (fun _ ↦ request.limit key) fun success ↦
    if success then next else .ended (.failed .rateLimited)

structure EnrollmentTokenRow where
  id : String
  machinePk : ℕ
  workspacePk : ℕ
  sampleIntervalSeconds : ℕ
  reportIntervalSeconds : ℕ
  configRevision : ℕ
  containerMonitoringEnabled : Bool

def enrollmentToken (db : EnrollmentDb) (digest : Bytes) (now : ℕ) (machineClaimId : String) :
    Option EnrollmentTokenRow :=
  (db.tokens.find? fun token ↦ token.tokenDigest = digest && token.usedAt.isNone &&
    token.revokedAt.isNone && now ≤ token.expiresAt && token.machineId = machineClaimId).bind
    fun token ↦ (db.machines.find? fun machine ↦ machine.id = token.machineId &&
      machine.deletedAt.isNone).bind fun machine ↦
      (db.workspaces.find? fun workspace ↦ workspace.id = token.workspaceId &&
        workspace.deletedAt.isNone).map fun workspace ↦
        { id := token.id
          machinePk := machine.telemetryPk
          workspacePk := workspace.telemetryPk
          sampleIntervalSeconds := machine.samplingIntervalSeconds
          reportIntervalSeconds := machine.reportIntervalSeconds
          configRevision := machine.desiredConfigRevision
          containerMonitoringEnabled := machine.containerMonitoringEnabled }

/-- The values of the batch. -/
def enrollPlan (enrollment : EnrollmentRequest) (digest : Bytes) (now : ℕ)
    (token : EnrollmentTokenRow) (drawn : Drawn) (wrapped : Bytes) : Enroll where
  tokenDigest := digest
  tokenId := token.id
  agentId := drawn.agentId
  description := ⟨enrollment.identityPublicKey, enrollment.platform, enrollment.arch,
    enrollment.agentVersion, enrollment.protocolVersion, enrollment.hostname, enrollment.osName,
    enrollment.osVersion, enrollment.kernelVersion⟩
  configRevision := token.configRevision
  wrappedDataKey := drawn.wrappingNonce ++ wrapped
  noncePrefix := drawn.noncePrefix
  now := now

def enrollmentResponse (enrollment : EnrollmentRequest) (now : ℕ) (token : EnrollmentTokenRow)
    (drawn : Drawn) : EnrollmentResponse where
  agentId := drawn.agentId
  machinePk := token.machinePk
  workspacePk := token.workspacePk
  keyEpoch := 1
  dataKey := drawn.dataKey
  noncePrefix := drawn.noncePrefix
  configRevision := token.configRevision
  sampleIntervalSeconds := token.sampleIntervalSeconds
  reportIntervalSeconds := token.reportIntervalSeconds
  serverTimeMs := now
  maxClockSkewMs := maxClockSkewMs
  maxEnvelopeBytes := maxEnvelopeBytes
  initialClientSequence := 1
  initialServerSequence := 1
  machineClaimId := enrollment.machineClaimId
  containerMonitoringEnabled := token.containerMonitoringEnabled

/-- What the handler does with the result of its batch. -/
def finishEnrollment (response : EnrollmentResponse) : Option ℕ → Flow
  | none => .ended (.failed .internal)
  | some changes =>
    if changes ≠ 1 then .ended (.failed .unauthorized) else .ended (.enrolled response)

/-- From the draw of the identity on. -/
def createAgent (env : Env) (request : HttpRequest) (enrollment : EnrollmentRequest)
    (digest : Bytes) (token : EnrollmentTokenRow) : Flow :=
  match request.drawn with
  | none => .ended (.failed .internal)
  | some drawn =>
    match env.wrapKey drawn.wrappingNonce drawn.dataKey drawn.agentId 1 with
    | none => .ended (.failed .unauthorized)
    | some wrapped =>
      .send (.enroll (enrollPlan enrollment digest request.now token drawn wrapped))
        (finishEnrollment (enrollmentResponse enrollment request.now token drawn))

/-- From the validated message on. -/
def enrollAgent (env : Env) (request : HttpRequest) (enrollment : EnrollmentRequest) : Flow :=
  let digest := env.tokenDigest enrollment.token
  enforceRateLimit request ("machine:" ++ enrollment.machineClaimId) <|
  enforceRateLimit request ("token:" ++ hexEncode digest) <|
  .ask (fun db ↦ enrollmentToken db digest request.now enrollment.machineClaimId) fun
  | none => .ended (.failed .unauthorized)
  | some token => createAgent env request enrollment digest token

/-- The message that the handler decodes. -/
def receivedMessage (env : Env) (request : HttpRequest) : Except IngestError EnrollmentRequest :=
  match readBoundedBody request.contentLength request.chunks 16384 with
  | .error failure => .error failure
  | .ok body =>
    match env.decodeMessage body with
    | none => .error .badRequest
    | some enrollment => .ok enrollment

def handleEnrollment (env : Env) (request : HttpRequest) : Flow :=
  if !request.post then .ended (.failed .badRequest)
  else if !isProtobufContentType request.contentType then .ended (.failed .unsupportedMediaType)
  else
    enforceRateLimit request (clientIpRateKey request.connectingIp) <|
    .ask (fun _ ↦ receivedMessage env request) fun
    | .error failure => .ended (.failed failure)
    | .ok enrollment =>
      match validateEnrollmentRequest env enrollment with
      | .error _ => .ended (.failed .unauthorized)
      | .ok () => enrollAgent env request enrollment

inductive Request where
  | enroll (request : HttpRequest)
  | administer (change : Administration)

/-- The other writers are taken at their word. -/
def handle (env : Env) : Request → Flow
  | .enroll request => handleEnrollment env request
  | .administer change => .send (.administer change) fun _ ↦ .ended .administered

def emptyEnrollments : EnrollmentDb := ⟨[], [], [], [], [], [], []⟩

end AlphaPing.Ingest.Enrollment
