/-
Shared types and constants (`commons.h`).

Ids are C++ `int`; they are modelled as unbounded integers, since nothing here depends on wrap-around. Enumerators and
fields keep the source's words in lower camel case (`LOCK_REQUEST` is `.lockRequest`). The protobuf enum
`hawk::NetworkMessageType` (`protos/network.proto`) lists the same names with the same numbers, so one Lean type
stands for both and a `static_cast` between them is the identity.

A `NetworkMessage` local variable is default-initialised: its containers are empty and its scalar fields hold whatever
the stack slot held. `NetworkMessage.declare raw` is such a variable, with `raw` standing for the indeterminate scalars.
-/
import HawkTxn.Core.UnorderedMap

namespace HawkTxn

open HawkTxn.Core

abbrev NodeId := ℤ
abbrev TransactionId := ℤ
abbrev ResourceId := ℤ

/-- nodes of the cluster -/
def numNodes : ℤ := 128

/-- resources managed by each node -/
def resourcesPerNode : ℤ := 1000

def warehousesPerNode : ℤ := 10

def numWarehouses : ℤ := numNodes * warehousesPerNode

def sccCutThreshold : ℕ := 2

def centralizedNodeId : NodeId := 1

def maxConcurrentTransactionsPerNode : ℕ := 8

inductive DeadlockDetectionMode where
  | none
  | centralized
  | hawk
  | pathPushing
deriving DecidableEq, Repr

inductive LockMode where
  | shared
  | exclusive
deriving DecidableEq, Repr

/-- one SQL statement of a transaction -/
structure SQLStatement where
  transId : TransactionId
  homeNodeId : NodeId
  resources : List ResourceId
  lockMode : LockMode
deriving DecidableEq, Repr

inductive NetworkMessageType where
  | unknown
  | lockRequest
  | lockResponse
  | releaseLockRequest
  | releaseLockResponse
  | pagRequest
  | pagResponse
  | wfgReport
  | deadlockResolution
  | abortTransactionSignal
  | distributedDetectionInit
  | zoneDetectionRequest
  | zoneWfgReport
  | centralWfgReportFromZone
  | pathPushingProbe
  | clientCollectWfgRequest
  | clientCollectWfgResponse
  | clientPrintDeadlockRequest
  | clientResolveDeadlockRequest
  | deadlockReportToClient
deriving DecidableEq, Repr

/-- an edge of the wait-for graph with the home nodes of its ends -/
structure WFDEdge where
  waitingTransId : TransactionId
  holdingTransId : TransactionId
  waitingNodeId : NodeId
  holdingNodeId : NodeId
deriving DecidableEq, Repr

/-- a wait-for graph: for each waiting transaction, the transactions it waits for -/
abbrev WaitForGraph := UnorderedMap TransactionId (List TransactionId)

/-- a wait-for graph as a list of (waiting transaction, transactions waited for) -/
abbrev WfgDataPairs := List (TransactionId × List TransactionId)

structure NetworkMessage where
  type : NetworkMessageType
  senderId : NodeId
  receiverId : NodeId
  transId : TransactionId
  resId : ResourceId
  mode : LockMode
  granted : Bool
  wfgData : WaitForGraph
  wfgDataPairs : WfgDataPairs
  deadlockedTransactions : List TransactionId
  pagEdges : List WFDEdge
  detectionZones : List (List NodeId)
  detectionZoneLeaders : List NodeId
  victimTransId : TransactionId
  detectedCycles : List (List TransactionId)
  deadlockCount : ℤ
  path : List TransactionId
  centralNodeId : NodeId
  zoneMembers : List NodeId
deriving DecidableEq

/-- indeterminate values of the scalar fields of a freshly declared message -/
structure RawScalars where
  type : NetworkMessageType
  senderId : NodeId
  receiverId : NodeId
  transId : TransactionId
  resId : ResourceId
  mode : LockMode
  granted : Bool
  victimTransId : TransactionId
  deadlockCount : ℤ
  centralNodeId : NodeId
deriving DecidableEq, Repr

/-- `NetworkMessage msg;` -/
def NetworkMessage.declare (raw : RawScalars) : NetworkMessage where
  type := raw.type
  senderId := raw.senderId
  receiverId := raw.receiverId
  transId := raw.transId
  resId := raw.resId
  mode := raw.mode
  granted := raw.granted
  wfgData := ∅
  wfgDataPairs := []
  deadlockedTransactions := []
  pagEdges := []
  detectionZones := []
  detectionZoneLeaders := []
  victimTransId := raw.victimTransId
  detectedCycles := []
  deadlockCount := raw.deadlockCount
  path := []
  centralNodeId := raw.centralNodeId
  zoneMembers := []

/-- the values of `for (int i = lo; i <= hi; ++i)` -/
def intRange (lo hi : ℤ) : List ℤ := (List.range (hi - lo + 1).toNat).map fun i : ℕ => lo + (i : ℤ)

@[simp] theorem mem_intRange {lo hi i : ℤ} : i ∈ intRange lo hi ↔ lo ≤ i ∧ i ≤ hi := by
  simp only [intRange, List.mem_map, List.mem_range]
  refine ⟨?_, ?_⟩
  · rintro ⟨k, hk, rfl⟩; omega
  · rintro ⟨h1, h2⟩; exact ⟨(i - lo).toNat, by omega, by omega⟩

theorem length_intRange (lo hi : ℤ) : (intRange lo hi).length = (hi - lo + 1).toNat := by simp [intRange]

theorem nodup_intRange (lo hi : ℤ) : (intRange lo hi).Nodup := by
  refine List.Nodup.map ?_ List.nodup_range
  intro i j h
  simpa using h

/-- the node that owns a resource (C++ division truncates towards zero) -/
def getOwnerNodeId (resId : ResourceId) : NodeId := (resId - 1).tdiv resourcesPerNode + 1

end HawkTxn
