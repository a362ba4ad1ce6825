import AlphaPing.Agent.RetryBound
import AlphaPing.System.Revision
import AlphaPing.Notifications.Outbox
import AlphaPing.Notifications.Progress
import AlphaPing.System.Retries
import AlphaPing.Monitoring.Capacity
import AlphaPing.Monitoring.EnabledChecks
import AlphaPing.Monitoring.WorkspaceCapacity
import AlphaPing.Ingest.EnrollmentTokens
import AlphaPing.System.KeyRotation
import AlphaPing.Monitoring.AgentCommands
import AlphaPing.Live.MachineReports
import AlphaPing.Agent.Timestamps
import AlphaPing.Live.Relay
import AlphaPing.Agent.Updater.Safety
import AlphaPing.Access.Incidents
import AlphaPing.Access.Mutations
import AlphaPing.Retention.Artifacts
import AlphaPing.Retention.Isolation
import AlphaPing.Retention.WorkspaceDeletion
import AlphaPing.Checks.SweptStates
import AlphaPing.Checks.ServiceChain
import AlphaPing.Access.Administrators
import AlphaPing.Access.Acceptances
import AlphaPing.System.DeliveryProgress
import AlphaPing.Monitoring.SecretIntegrity
import AlphaPing.PublicStatus.Noninterference
import AlphaPing.Checks.ConfirmationRuns
import AlphaPing.Agent.Updater.Replacement
import AlphaPing.Agent.Updater.Signatures
import AlphaPing.Checks.StatusBuckets
import AlphaPing.Checks.HourlyLatency
import AlphaPing.System.LiveFrames
import AlphaPing.System.AssertionLists
import AlphaPing.Ingest.NetworkVolumes
import AlphaPing.Checks.DueTimes
import AlphaPing.Agent.DockerResponses
import AlphaPing.System.CheckHistory
import AlphaPing.System.ShownStates
import AlphaPing.System.ServiceStates
import AlphaPing.PublicStatus.BatchedQueries
import AlphaPing.Monitoring.MutationOutcomes
import AlphaPing.Pages.Histories
