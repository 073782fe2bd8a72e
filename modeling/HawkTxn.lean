import HawkTxn.Core.UnorderedMap
import HawkTxn.Core.Digraph
import HawkTxn.Core.Tours
import HawkTxn.Core.TourCycles
import HawkTxn.Core.TourChains
import HawkTxn.Core.TourRepeats
import HawkTxn.Core.Runs
import HawkTxn.Core.Traces
import HawkTxn.Core.Readings
import HawkTxn.Core.Loops
import HawkTxn.Core.Ledgers
import HawkTxn.Core.Collector
import HawkTxn.Core.Programs
import HawkTxn.Core.Schedules
import HawkTxn.Core.Components
import HawkTxn.Commons
import HawkTxn.WaitForGraph
import HawkTxn.ResourceManager
import HawkTxn.ReleaseOrder
import HawkTxn.Blocking
import HawkTxn.TransactionManager
import HawkTxn.Actions
import HawkTxn.LockTable
import HawkTxn.LocalResources
import HawkTxn.GraphPruning
import HawkTxn.Bookkeeping
import HawkTxn.TwoPhase
import HawkTxn.Serializability
import HawkTxn.Polling
import HawkTxn.PollingLoop
import HawkTxn.ResponseRace
import HawkTxn.DeadlockDetector
import HawkTxn.VictimSelection
import HawkTxn.SearchTours
import HawkTxn.CycleRepeats
import HawkTxn.Network.Codec
import HawkTxn.Network.Transport
import HawkTxn.DetectionZoneManager
import HawkTxn.ZoneUpdates
import HawkTxn.PAGManager
import HawkTxn.ComponentSearch
import HawkTxn.ZoneAssignment
import HawkTxn.ZoneCoverage
import HawkTxn.DistributedDBNode
import HawkTxn.Delivery
import HawkTxn.Cluster
import HawkTxn.TreeAdjustment
import HawkTxn.Standstill
import HawkTxn.SafeQueue
import HawkTxn.MessageLoop
import HawkTxn.ServingCluster
import HawkTxn.CollectionRequests
import HawkTxn.Resolution
import HawkTxn.MissedCycles
import HawkTxn.Naming
import HawkTxn.ReleaseRequests
import HawkTxn.PathPushing
import HawkTxn.Rounds
import HawkTxn.DeadlockCounts
import HawkTxn.Hierarchy
import HawkTxn.TreeChecks
import HawkTxn.Tpcc.ResourceIds
import HawkTxn.Tpcc.Database
import HawkTxn.Tpcc.DataGenerator
import HawkTxn.Tpcc.Transactions
import HawkTxn.Tpcc.LockCoverage
import HawkTxn.Tpcc.Atomicity
import HawkTxn.Tpcc.Charges
import HawkTxn.Tpcc.Calls
import HawkTxn.Tpcc.OrderKeys
import HawkTxn.Tpcc.YearToDate
import HawkTxn.Tpcc.GeneratedData
import HawkTxn.Tpcc.RowAccess
import HawkTxn.Tpcc.Workload
import HawkTxn.Tpcc.ExactRows
import HawkTxn.Tpcc.Deliveries
import HawkTxn.Tpcc.Books
import HawkTxn.Tpcc.Restocking
import HawkTxn.Tpcc.StuckDeliveries
import HawkTxn.Tpcc.OrderBook
import HawkTxn.Tpcc.Commits
import HawkTxn.Core.Numerals
import HawkTxn.Clients
import HawkTxn.ClientSession
import HawkTxn.LifeCycle
