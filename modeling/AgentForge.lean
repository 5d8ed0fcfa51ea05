import AgentForge.LifecycleInvariant
import AgentForge.StoreLedger
import AgentForge.Refinement
import AgentForge.ServiceSafety
import AgentForge.Redelivery
import AgentForge.Idempotency
import AgentForge.Reclaim
import AgentForge.Recovery
import AgentForge.RecoverySafety
import AgentForge.Checkpoint
import AgentForge.MemoryQueue
import AgentForge.Soup
import AgentForge.QueueSystem
import AgentForge.KeyedLists
import AgentForge.QueueContents
import AgentForge.Custody
import AgentForge.MessageFlow
import AgentForge.QueueFlow
import AgentForge.KeyExclusion
import AgentForge.Tally
import AgentForge.TenantEffects
import AgentForge.QueueCounters
import AgentForge.Delivery
import AgentForge.DispatchRing
import AgentForge.Fairness
import AgentForge.Separator
import AgentForge.TenantKeys
import AgentForge.ServiceSteps
import AgentForge.PickedUp
import AgentForge.Compensation
import AgentForge.Repair
import AgentForge.FalseAlarms
import AgentForge.RepairRaces
import AgentForge.LiveMessages
import AgentForge.RecoveryDelivery
import AgentForge.Conversation
import AgentForge.ToolProtocol
import AgentForge.ResumedRequest
import AgentForge.EventNumbers
import AgentForge.TenantCalls
import AgentForge.TokenBudget
import AgentForge.Breaker
import AgentForge.Reservations
import AgentForge.Middleware
import AgentForge.StoreStreams
import AgentForge.UserReads
import AgentForge.WSHandlers
import AgentForge.Connections
import AgentForge.Streaming
import AgentForge.Reconnect
import AgentForge.Turns
import AgentForge.Endings
import AgentForge.Executions
import AgentForge.StepTrace
import AgentForge.LastStep
import AgentForge.AbortTiming
import AgentForge.RunBudget
import AgentForge.TaskPrompt
import AgentForge.KeyedFifo
import AgentForge.TenantFifo
import AgentForge.Redrive
import AgentForge.Reenqueue
import AgentForge.BoundedDelivery
import AgentForge.DynamoDB
import AgentForge.DynamoStore
import AgentForge.DynamoItems
import AgentForge.DynamoRequests
import AgentForge.StoreSimulation
import AgentForge.DynamoLifecycle
import AgentForge.RateLimit
import AgentForge.CursorPages
import AgentForge.ReservationLedger
import AgentForge.StoreAtomicity
import AgentForge.EventLog
import AgentForge.MapListings
import AgentForge.RepairConverges
import AgentForge.Compaction
import AgentForge.RecoveryCoverage
import AgentForge.SlashPaths
import AgentForge.WorkspacePaths
import AgentForge.Redaction
import AgentForge.StepFields
import AgentForge.OpenAIClient
import AgentForge.Router
import AgentForge.StreamAssembly
import AgentForge.ArtifactKeys
import AgentForge.Admission
import AgentForge.RetryAfter
import AgentForge.DigitOrder
import AgentForge.SortKeys
import AgentForge.RoutedCalls
