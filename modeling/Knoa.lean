import Knoa.Agents.SpawnRetry
import Knoa.Automation.DispatchSleep
import Knoa.Automation.Isolation
import Knoa.Capabilities.GrantEnforcement
import Knoa.Codex.AppServer
import Knoa.Codex.TurnStarts
import Knoa.Codex.TurnStream
import Knoa.Context.CheckpointRaces
import Knoa.Conversation.ConfirmAgreement
import Knoa.Conversation.DeltaStream
import Knoa.Conversation.InteractionDelivery
import Knoa.Conversation.SessionUpdates
import Knoa.Conversation.SnapshotOrder
import Knoa.Conversation.UpdatesInOrder
import Knoa.Extensions.CapabilityInstalls
import Knoa.Extensions.ResourceIsolation
import Knoa.Extensions.ServedDefinitions
import Knoa.Gateway.RevocationFinal
import Knoa.Hub.HostedOwners
import Knoa.Hub.HostedPasswords
import Knoa.Hub.NodeIsolation
import Knoa.Hub.RepeatedShares
import Knoa.Hub.ReplayProtection
import Knoa.Hub.WebhookRounds
import Knoa.Hub.WorkConvergence
import Knoa.Mobile.ChatTurnWatcher
import Knoa.Mobile.Connections
import Knoa.Mobile.GatewayTransport
import Knoa.Mobile.OfflineTaskQueue
import Knoa.Models.RemoteInvocations
import Knoa.Models.StepProtocol
import Knoa.Models.StreamAgreement
import Knoa.Models.WireHistory
import Knoa.Relay.P2PRoundTrip
import Knoa.Release.Activation
import Knoa.Release.HostUpdate
import Knoa.Release.TwoStores
import Knoa.Runtime.ToolProjections
import Knoa.Tasks.Acknowledgement
import Knoa.Tasks.ApprovalAgreement
import Knoa.Tasks.Capacity
import Knoa.Tasks.EventStream
import Knoa.Tasks.Fencing
import Knoa.Tasks.GapFree
import Knoa.Tasks.HandoffReturns
import Knoa.Tasks.Heartbeat
import Knoa.Tasks.Histories
import Knoa.Tasks.PrincipalFeed
import Knoa.Tasks.RestartRecovery
import Knoa.Tasks.SingleExecution
import Knoa.Tasks.StopBarrier
import Knoa.Tasks.SystemDenial
import Knoa.Tasks.ToolStepSafety
import Knoa.Automation.NextOccurrence
import Knoa.Tasks.ApprovalReplay
import Knoa.Conversation.Timeline
import Knoa.Relay.BufferBounds
import Knoa.Tools.LineFraming
import Knoa.Runtime.ResultBound
import Knoa.Tasks.LegacyEvents
import Knoa.Tasks.TraceCompaction
import Knoa.Tools.ExactEdit
