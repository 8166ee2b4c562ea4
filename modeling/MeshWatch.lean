import MeshWatch.Main
import MeshWatch.Mesh.Operation
import MeshWatch.Mesh.Sweep
import MeshWatch.Mesh.View
import MeshWatch.Queue
import MeshWatch.Session
import MeshWatch.Subscribers
import MeshWatch.Traffic
import MeshWatch.Proofs.Duplicates
import MeshWatch.Proofs.EveryNode
import MeshWatch.Proofs.Moves
import MeshWatch.Proofs.Tracking
import MeshWatch.Proofs.Eviction
import MeshWatch.Proofs.EventStream
import MeshWatch.Proofs.History
import MeshWatch.Proofs.Plausibility
import MeshWatch.Proofs.Lasting
import MeshWatch.Proofs.CleanState
import MeshWatch.Proofs.Tallies
import MeshWatch.Proofs.Noise
import MeshWatch.Proofs.Carried
import MeshWatch.Proofs.FirstCopy
import MeshWatch.Proofs.Distance
import MeshWatch.Proofs.TopicRoundTrip
import MeshWatch.Proofs.WireRoundTrip
import MeshWatch.Proofs.EncryptedPath
import MeshWatch.Proofs.LinkRatios
import MeshWatch.Proofs.NumberText
import MeshWatch.Proofs.JsonText
import MeshWatch.Proofs.StoredValues
import MeshWatch.Proofs.StoredRecords
import MeshWatch.Proofs.Tables
import MeshWatch.Proofs.StoredState
import MeshWatch.Proofs.SaveRestore
import MeshWatch.Proofs.RouteNotes
import MeshWatch.Proofs.RestoredRoutes
import MeshWatch.Proofs.NewestRecords
import MeshWatch.Proofs.Spellings
import MeshWatch.Proofs.Widening
import MeshWatch.Proofs.BodyRoundTrip
import MeshWatch.Proofs.TwoFormats
import MeshWatch.Proofs.NodeCap
import MeshWatch.Proofs.FirstSlot
import MeshWatch.Proofs.OneNode
import MeshWatch.Proofs.Sweeps
import MeshWatch.Proofs.Hearings
import MeshWatch.Proofs.RelayHints
import MeshWatch.Proofs.Bystanders
import MeshWatch.Proofs.Alerts
import MeshWatch.Proofs.ChannelSlots
import MeshWatch.Proofs.LongSpans
import MeshWatch.Proofs.Rounding
import MeshWatch.Proofs.FloatValues
import MeshWatch.Proofs.HealthTrend
import MeshWatch.Proofs.FullHealth
import MeshWatch.Proofs.TrafficSteps
import MeshWatch.Proofs.TruncatedIds
import MeshWatch.Proofs.Links
import MeshWatch.Proofs.LinkEvidence
import MeshWatch.Proofs.CounterBlocks
import MeshWatch.Proofs.EveryMessage
import MeshWatch.Proofs.Bookkeeping
import MeshWatch.Proofs.RouteTable
import MeshWatch.Proofs.RoutePaths
import MeshWatch.Proofs.DiscoveredHops
import MeshWatch.Proofs.HopRatios
import MeshWatch.Proofs.RecentLists
import MeshWatch.Proofs.RejectionSummaries
import MeshWatch.Proofs.RetryDelays
import MeshWatch.Proofs.TopicLevels
import MeshWatch.Proofs.IdForms
import MeshWatch.Proofs.LastValues
import MeshWatch.Proofs.Names
import MeshWatch.Proofs.HeapBound
