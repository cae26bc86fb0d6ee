import AlternatorClient.Aws.AffinityOnTheWire
import AlternatorClient.Aws.Attempts
import AlternatorClient.Aws.BatchOnTheWire
import AlternatorClient.Aws.Clients
import AlternatorClient.Aws.DiscoveredNames
import AlternatorClient.Aws.DiscoverySettles
import AlternatorClient.Aws.DiscoveryThreads
import AlternatorClient.Aws.FirstAttempt
import AlternatorClient.Aws.HttpClient
import AlternatorClient.Aws.Outgoing
import AlternatorClient.Aws.PartitionKeyDiscovery
import AlternatorClient.Aws.QueryPlans
import AlternatorClient.Aws.Refinement
import AlternatorClient.Aws.Reports
import AlternatorClient.Aws.Transmissions
import AlternatorClient.Aws.TypedWrites
import AlternatorClient.Config
import AlternatorClient.Exceptions
import AlternatorClient.Foundation.AppendFresh
import AlternatorClient.Foundation.Blindness
import AlternatorClient.Foundation.Bytes
import AlternatorClient.Foundation.Congruential
import AlternatorClient.Foundation.Decimal
import AlternatorClient.Foundation.Interleaving
import AlternatorClient.Foundation.LaggedFibonacci
import AlternatorClient.Foundation.Monitor
import AlternatorClient.Foundation.OrderedMap
import AlternatorClient.Foundation.Path
import AlternatorClient.Foundation.Pipe
import AlternatorClient.Foundation.Regex
import AlternatorClient.Foundation.Rotation
import AlternatorClient.Foundation.Runs
import AlternatorClient.Foundation.SortedLists
import AlternatorClient.Foundation.Streaming
import AlternatorClient.Foundation.Tally
import AlternatorClient.Foundation.Text
import AlternatorClient.GoRandom.Cooked
import AlternatorClient.GoRandom.Generator
import AlternatorClient.GoRandom.Int31n
import AlternatorClient.GoRandom.Recurrence
import AlternatorClient.GoRandom.Seeding
import AlternatorClient.GoRandom.SignedArithmetic
import AlternatorClient.GoRandom.Unbiased
import AlternatorClient.Guard
import AlternatorClient.Guard.Redaction
import AlternatorClient.HttpClient
import AlternatorClient.HttpClient.Answered
import AlternatorClient.HttpClient.Exchange
import AlternatorClient.HttpClient.Get
import AlternatorClient.HttpClient.Responses
import AlternatorClient.HttpClient.Server
import AlternatorClient.HttpCompression
import AlternatorClient.HttpCompression.Advertised
import AlternatorClient.HttpCompression.Tokens
import AlternatorClient.HttpCompression.Zlib
import AlternatorClient.KeyRouteAffinity
import AlternatorClient.KeyRouteAffinity.BatchWrite
import AlternatorClient.KeyRouteAffinity.Canonical
import AlternatorClient.KeyRouteAffinity.Voting
import AlternatorClient.KeyRouteAffinity.WriteOptions
import AlternatorClient.LiveNodes
import AlternatorClient.LiveNodes.Actions
import AlternatorClient.LiveNodes.Affinity
import AlternatorClient.LiveNodes.Alone
import AlternatorClient.LiveNodes.Assignments
import AlternatorClient.LiveNodes.Background
import AlternatorClient.LiveNodes.Batches
import AlternatorClient.LiveNodes.Consistency
import AlternatorClient.LiveNodes.ContactOrder
import AlternatorClient.LiveNodes.Contacts
import AlternatorClient.LiveNodes.Discovery
import AlternatorClient.LiveNodes.IdleRefresh
import AlternatorClient.LiveNodes.InStep
import AlternatorClient.LiveNodes.Interleavings
import AlternatorClient.LiveNodes.Mutex
import AlternatorClient.LiveNodes.Notifications
import AlternatorClient.LiveNodes.Operations
import AlternatorClient.LiveNodes.Persistence
import AlternatorClient.LiveNodes.Rearming
import AlternatorClient.LiveNodes.Rotation
import AlternatorClient.LiveNodes.Scopes
import AlternatorClient.LiveNodes.Sentinel
import AlternatorClient.LiveNodes.Sticky
import AlternatorClient.LiveNodes.Stopping
import AlternatorClient.LiveNodes.Threads
import AlternatorClient.LiveNodes.Turns
import AlternatorClient.LocalNodes
import AlternatorClient.LocalNodes.Grammar
import AlternatorClient.LocalNodes.Positions
import AlternatorClient.Murmur3
import AlternatorClient.Murmur3.Reference
import AlternatorClient.NodeHealth
import AlternatorClient.NodeHealth.History
import AlternatorClient.NodeHealth.Periods
import AlternatorClient.NodeHealth.Promotion
import AlternatorClient.QueryPlan
import AlternatorClient.QueryPlan.Calls
import AlternatorClient.QueryPlan.Drain
import AlternatorClient.RoutingScope
import AlternatorClient.RoutingScope.Queries
import AlternatorClient.Uri
