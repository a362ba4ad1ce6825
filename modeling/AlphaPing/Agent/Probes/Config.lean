import AlphaPing.Protocol.Messages
import Mathlib.Tactic.Common

/-!
# Probe configurations that the agent accepts

`validate_config` guards every configuration that reaches the scheduler, whether it arrives in
an acknowledgement or is read back from the spool at start. An `AcceptedConfig` carries that
check, so the scheduler's lemmas take the task bounds from the value itself.
-/

namespace AlphaPing.Agent.Probes.Config

open Protocol

def maxProbeTasks : ℕ := 32

/-- `char::is_whitespace`. -/
def isWhitespace (character : Char) : Bool :=
  let code := character.toNat
  (9 ≤ code && code ≤ 13) || (0x2000 ≤ code && code ≤ 0x200A) ||
    code ∈ [0x20, 0x85, 0xA0, 0x1680, 0x2028, 0x2029, 0x202F, 0x205F, 0x3000]

/-- The collection intervals are both absent, or both present and compatible. -/
def intervalsValid (config : AgentConfigSnapshot) : Bool :=
  match config.sampleIntervalSeconds, config.reportIntervalSeconds with
  | some sample, some report =>
    (1 ≤ sample && sample ≤ 300) && (60 ≤ report && report ≤ 900) && report % sample == 0
  | none, none => true
  | _, _ => false

def taskFieldsValid (revision : ℕ) (task : ProbeTask) : Bool :=
  task.checkId.utf8ByteSize == 36 && task.checkPk != 0 && task.servicePk != 0 &&
    task.workspacePk != 0 && task.configRevision != 0 && task.configRevision ≤ revision &&
    (5 ≤ task.intervalSeconds && task.intervalSeconds ≤ 86400) &&
    task.phaseSeconds < task.intervalSeconds &&
    (100 ≤ task.timeoutMs && task.timeoutMs ≤ 30000) && task.retryCount.getD 0 ≤ 3

def requestValid (codec : Codec) : Option ProbeRequest → Bool
  | some (.http request) =>
    request.url.utf8ByteSize ≤ 2048 && codec.parseUrl request.url &&
      request.headers.length ≤ 32 && request.assertions.length ≤ 20 &&
      request.body.length ≤ 16384 && request.maxRedirects ≤ 3 &&
      request.maxResponseBytes ≤ 262144
  | some (.tcp request) =>
    request.hostname.utf8ByteSize ≤ 253 &&
      request.serverName.all (fun name ↦
        name.utf8ByteSize ≤ 253 && !name.toList.any isWhitespace) &&
      (1 ≤ request.port && request.port ≤ 65535) && request.payload.length ≤ 4096 &&
      request.responsePrefix.length ≤ 4096
  | some (.icmp request) => request.hostname.utf8ByteSize ≤ 253
  | none => false

def validateTask (codec : Codec) (revision : ℕ) (task : ProbeTask) : Except String Unit :=
  if ¬ taskFieldsValid revision task then .error "invalid probe task"
  else if ¬ requestValid codec task.request then .error "invalid probe request"
  else .ok ()

def validateConfig (codec : Codec) (config : AgentConfigSnapshot) : Except String Unit :=
  if config.revision = 0 then
    if config.probeTasks.isEmpty && config.digest.isEmpty then .ok ()
    else .error "invalid initial probe configuration"
  else if config.createdAtMs ≤ 0 ∨ config.digest.length ≠ 32 then
    .error "probe configuration metadata is invalid"
  else if ¬ intervalsValid config then .error "Agent collection intervals are invalid"
  else if codec.hash (codec.encodeConfig { config with digest := [] }) ≠ config.digest then
    .error "probe configuration digest is invalid"
  else if maxProbeTasks < config.probeTasks.length then .error "probe task limit exceeded"
  else config.probeTasks.forM (validateTask codec config.revision)

variable {codec : Codec}

theorem validateTask_ok {revision : ℕ} {task : ProbeTask}
    (h : validateTask codec revision task = .ok ()) :
    taskFieldsValid revision task = true ∧ requestValid codec task.request = true := by
  unfold validateTask at h
  split_ifs at h with hfields hrequest
  exact ⟨hfields, hrequest⟩

theorem forM_ok {α : Type} {check : α → Except String Unit} {items : List α}
    (h : items.forM check = .ok ()) : ∀ item ∈ items, check item = .ok () := by
  induction items with
  | nil => simp
  | cons head tail ih =>
    have hcons : (check head >>= fun _ ↦ tail.forM check) = .ok () := h
    cases hhead : check head with
    | error message =>
      rw [hhead] at hcons
      cases hcons
    | ok value =>
      rw [hhead] at hcons
      intro item hitem
      rcases List.mem_cons.mp hitem with rfl | htail
      · exact hhead
      · exact ih hcons item htail

theorem task_of_validateConfig {config : AgentConfigSnapshot}
    (h : validateConfig codec config = .ok ()) {task : ProbeTask}
    (hmem : task ∈ config.probeTasks) :
    taskFieldsValid config.revision task = true ∧ requestValid codec task.request = true := by
  unfold validateConfig at h
  split_ifs at h with hinitial hempty
  · rw [Bool.and_eq_true, List.isEmpty_iff] at hempty
    rw [hempty.1] at hmem
    exact absurd hmem List.not_mem_nil
  · exact validateTask_ok (forM_ok h task hmem)

/-- A configuration together with the check that lets it into the scheduler. -/
structure AcceptedConfig (codec : Codec) where
  snapshot : AgentConfigSnapshot
  accepted : validateConfig codec snapshot = .ok ()

theorem AcceptedConfig.task (config : AcceptedConfig codec) {task : ProbeTask}
    (hmem : task ∈ config.snapshot.probeTasks) :
    taskFieldsValid config.snapshot.revision task = true ∧
      requestValid codec task.request = true :=
  task_of_validateConfig config.accepted hmem

/-- The configuration of an agent that never received one. -/
def AcceptedConfig.initial (codec : Codec) : AcceptedConfig codec where
  snapshot := AgentConfigSnapshot.default
  accepted := rfl

end AlphaPing.Agent.Probes.Config
