import AlphaPing.Agent.Spool.Tables

/-!
# Probe configuration and probe results

The applied configuration and its revision change in one transaction, so the revision that a
report names is the one of the stored configuration. Results wait here, by the minute of their
nominal slot, until a delivery of that minute or a later one takes them along.
-/

namespace AlphaPing.Agent.Spool

open Protocol

def loadProbeConfig (spool : Spool) : AgentConfigSnapshot :=
  (spool.probeConfig.map ProbeConfigRow.payload).getD .default

def applyProbeConfig (spool : Spool) (config : AgentConfigSnapshot) (nowMs : ℤ) : Outcome Bool :=
  if config.revision < spool.appliedConfigRevision then
    (.error "probe configuration revision rolled back", spool)
  else if config.revision = spool.appliedConfigRevision then (.ok false, spool)
  else
    (.ok true, { spool with
      probeConfig := some { revision := config.revision, payload := config, updatedAt := nowMs }
      appliedConfigRevision := config.revision })

/-- `append_probe_result`: an execution is stored once. -/
def appendProbeResult (spool : Spool) (result : ProbeResult) (nowMs : ℤ) : Bool × Spool :=
  if spool.probeResults.any fun row ↦ row.executionId == result.executionId then (false, spool)
  else
    (true, { spool with
      probeResults := spool.probeResults ++
        [{ executionId := result.executionId
           nominalMinute := floorMinute result.nominalSlotMs
           observedAt := result.observedAtMs
           payload := result
           createdAt := nowMs }] })

end AlphaPing.Agent.Spool
