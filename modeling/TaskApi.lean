import TaskApi.BreakerConsistency
import TaskApi.BreakerHistory
import TaskApi.BroadcastDelivery
import TaskApi.CacheFallback
import TaskApi.Coherence
import TaskApi.ConcurrentPatches
import TaskApi.ConcurrentTenants
import TaskApi.ConnectionRegistry
import TaskApi.Connections
import TaskApi.EventDelivery
import TaskApi.ExternalRoute
import TaskApi.FailureAttempts
import TaskApi.IntegerRange
import TaskApi.Listing
import TaskApi.LockSafety
import TaskApi.MessageSafety
import TaskApi.PasswordGuesses
import TaskApi.ProbeLeak
import TaskApi.ReconnectDelays
import TaskApi.Registration
import TaskApi.RequestBodies
import TaskApi.RetryAfter
import TaskApi.RetryOutcomes
import TaskApi.SingleFlight
import TaskApi.StaleOutcomes
import TaskApi.Staleness
import TaskApi.TaskOwners
import TaskApi.TenantIsolation
