import AlphaPing.Protocol.Messages
import Mathlib.Tactic.Common

/-!
# The configuration file of the agent

The file holds the credentials, the intervals and the transport sequence checkpoint, the upper
end of the sequences that the agent may use before it writes the file again. Secrets appear
here decoded, and the fields that no modelled function reads are left out.
-/

namespace AlphaPing.Agent

open Protocol

structure AgentConfig where
  agentId : String
  machinePk : ℕ
  workspacePk : ℕ
  keyEpoch : ℕ
  dataKey : Bytes
  noncePrefix : Bytes
  transportSequenceCheckpoint : ℕ
  sampleIntervalSeconds : ℕ
  reportIntervalSeconds : ℕ
  maxSpoolBytes : ℕ
  containerMonitoringEnabled : Bool

/-- `AgentConfig::validate`. -/
def AgentConfig.validate (config : AgentConfig) : Except String Unit :=
  if config.sampleIntervalSeconds < 1 ∨ config.reportIntervalSeconds < 60 then
    .error "sample/report intervals are below the supported minimum"
  else if config.reportIntervalSeconds % config.sampleIntervalSeconds ≠ 0 then
    .error "report interval must be divisible by sample interval"
  else if config.noncePrefix.length ≠ 4 then .error "nonce prefix must be 4 bytes"
  else if maxSequence < config.transportSequenceCheckpoint then
    .error "transport sequence checkpoint exceeds the protocol limit"
  else if config.dataKey.length ≠ 32 then .error "invalid data key"
  else .ok ()

/-! ## Key rotation -/

def maxFutureSkewMs : ℤ := 300000

def minKeyLifetimeMs : ℤ := 86400000

def maxKeyLifetimeMs : ℤ := 7776000000

/-- `u32::MAX`. -/
def maxKeyEpoch : ℕ := 4294967295

def validateKeyRotation (proposal : KeyRotationProposal) (currentEpoch : ℕ) (nowMs : ℤ) :
    Except String Unit :=
  let lifetime := proposal.validUntilMs - proposal.validFromMs
  if maxKeyEpoch < currentEpoch + 1 then .error "Agent key epoch is exhausted"
  else if proposal.keyEpoch ≠ currentEpoch + 1 then
    .error "Agent key rotation epoch is not the next epoch"
  else if proposal.dataKey.length ≠ 32 then .error "Agent key rotation data key is invalid"
  else if proposal.noncePrefix.length ≠ 4 then
    .error "Agent key rotation nonce prefix is invalid"
  else if nowMs + maxFutureSkewMs < proposal.validFromMs ∨
      proposal.validUntilMs ≤ nowMs + minKeyLifetimeMs ∨
      ¬ (minKeyLifetimeMs ≤ lifetime ∧ lifetime ≤ maxKeyLifetimeMs) then
    .error "Agent key rotation validity window is invalid"
  else .ok ()

theorem validateKeyRotation_ok {proposal : KeyRotationProposal} {currentEpoch : ℕ} {nowMs : ℤ}
    (hepoch : proposal.keyEpoch = currentEpoch + 1) (hmaximum : proposal.keyEpoch ≤ maxKeyEpoch)
    (hdataKey : proposal.dataKey.length = 32) (hnoncePrefix : proposal.noncePrefix.length = 4)
    (hfrom : proposal.validFromMs ≤ nowMs + maxFutureSkewMs)
    (huntil : nowMs + minKeyLifetimeMs < proposal.validUntilMs)
    (hshortest : minKeyLifetimeMs ≤ proposal.validUntilMs - proposal.validFromMs)
    (hlongest : proposal.validUntilMs - proposal.validFromMs ≤ maxKeyLifetimeMs) :
    validateKeyRotation proposal currentEpoch nowMs = .ok () := by
  have hwindow : ¬ (nowMs + maxFutureSkewMs < proposal.validFromMs ∨
      proposal.validUntilMs ≤ nowMs + minKeyLifetimeMs ∨
      ¬ (minKeyLifetimeMs ≤ proposal.validUntilMs - proposal.validFromMs ∧
        proposal.validUntilMs - proposal.validFromMs ≤ maxKeyLifetimeMs)) := by
    rintro (hlate | hearly | hlifetime)
    · exact absurd hlate (Int.not_lt.mpr hfrom)
    · exact absurd hearly (Int.not_le.mpr huntil)
    · exact hlifetime ⟨hshortest, hlongest⟩
  rw [validateKeyRotation, if_neg (by omega), if_neg (not_not.mpr hepoch), if_neg (not_not.mpr hdataKey),
    if_neg (not_not.mpr hnoncePrefix), if_neg hwindow]

def rotatedAgentConfig (current : AgentConfig) (proposal : KeyRotationProposal) (nowMs : ℤ) :
    Except String AgentConfig :=
  match validateKeyRotation proposal current.keyEpoch nowMs with
  | .error message => .error message
  | .ok () => .ok
    { current with
      keyEpoch := proposal.keyEpoch
      dataKey := proposal.dataKey
      noncePrefix := proposal.noncePrefix }

theorem checkpoint_rotatedAgentConfig {current next : AgentConfig} {proposal : KeyRotationProposal}
    {nowMs : ℤ} (h : rotatedAgentConfig current proposal nowMs = .ok next) :
    next.transportSequenceCheckpoint = current.transportSequenceCheckpoint := by
  unfold rotatedAgentConfig at h
  split at h
  · cases h
  · cases h
    rfl

end AlphaPing.Agent
