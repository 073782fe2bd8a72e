/-
One node of the cluster (`DistributedDBNode.h`, `DistributedDBNode.cpp`).

The threads of a node run loops over its state; a round of a loop, and the handling of one message, is one event.
What an event does is an `Outcome`: the state after, the effects on the network in order, and whether the handler threw
`std::out_of_range`, which `messageProcessingLoop` swallows, so that what was done before the throw stays. An event has
no outcome (`none`) where the C++ has undefined behaviour or a search does not return within the fuel.

The two count-to-N handlers of wait-for reports are one definition, `collectWfgReport`, at two resolvers; the abort
messages of all resolvers are `abortMsg`. The comparison of deadlock counts as doubles (`ratio > 1.0`) is the
comparison of the counts.

Results:
- `processMessage_manager`: the messages that change no more of the node than its transaction manager;
- `step_cases`: the events that have to do with detection zones;
- `step_sameNode`: an event keeps the node's ids and changes the transaction manager by operations of the manager only;
- `step_types`: every message an event sends is of one of nine types.
-/
import HawkTxn.DeadlockDetector
import HawkTxn.LockTable
import HawkTxn.DetectionZoneManager
import HawkTxn.PAGManager

namespace HawkTxn

open HawkTxn.Core UnorderedMap

structure DistributedDBNode where
  nodeId : NodeId
  numNodes : ℤ
  transactionManager : TransactionManager
  detectionZoneManager : DetectionZoneManager
  aggregatedWfg : WaitForGraph
  wfgReportsReceived : ℤ
  wfgReportsExpected : ℤ
  aggregatedPagEdges : List WFDEdge
  pagResponsesReceived : ℤ
  pagResponsesExpected : ℤ
  centralAggregatedWfg : WaitForGraph
  centralWfgReportsReceived : ℤ
  centralDeadlockCount : ℤ
  centralDetectedCycles : List (List TransactionId)
  totalDeadlocksFromZones : ℤ
  totalDeadlocksFromCentral : ℤ
  lastTreeAdjustTime : ℤ
  prevTotalDeadlocksFromZones : ℤ
  prevTotalDeadlocksFromCentral : ℤ
deriving DecidableEq

/-- what an event does to the network -/
inductive Effect where
  /-- `network_.sendMessage(msg)` -/
  | send (msg : NetworkMessage)
  /-- `network_.broadcastTreeAdjustment(nodeId_, zones, leaders)` -/
  | broadcastTreeAdjustment (zones : List (List NodeId)) (leaders : List NodeId)
  /-- `network_.getIncomingQueue()->push(msg)` -/
  | pushLocal (msg : NetworkMessage)
deriving DecidableEq

structure Outcome where
  node : DistributedDBNode
  effects : List Effect
  threw : Bool
deriving DecidableEq

/-- the messages passed to `sendMessage`, in order -/
def Outcome.sent (o : Outcome) : List NetworkMessage :=
  o.effects.filterMap fun
    | .send msg => some msg
    | _ => none

/-- the zones and leaders passed to `broadcastTreeAdjustment`, in order -/
def Outcome.adjustments (o : Outcome) : List (List (List NodeId) × List NodeId) :=
  o.effects.filterMap fun
    | .broadcastTreeAdjustment zones leaders => some (zones, leaders)
    | _ => none

namespace DistributedDBNode

/-- the constructor; the clock is read at `now` -/
def init (id : NodeId) (numNodes now : ℤ) : DistributedDBNode where
  nodeId := id
  numNodes := numNodes
  transactionManager := TransactionManager.init id
  detectionZoneManager := DetectionZoneManager.init id
  aggregatedWfg := ∅
  wfgReportsReceived := 0
  wfgReportsExpected := 0
  aggregatedPagEdges := []
  pagResponsesReceived := 0
  pagResponsesExpected := 0
  centralAggregatedWfg := ∅
  centralWfgReportsReceived := 0
  centralDeadlockCount := 0
  centralDetectedCycles := []
  totalDeadlocksFromZones := 0
  totalDeadlocksFromCentral := 0
  lastTreeAdjustTime := now
  prevTotalDeadlocksFromZones := 0
  prevTotalDeadlocksFromCentral := 0

def isCentralizedNode (nd : DistributedDBNode) : Bool := nd.nodeId = centralizedNodeId

/-- nothing is sent -/
def idle (nd : DistributedDBNode) : Outcome := ⟨nd, [], false⟩

/-- messages are sent -/
def sends (nd : DistributedDBNode) (msgs : List NetworkMessage) (threw : Bool) : Outcome :=
  ⟨nd, msgs.map .send, threw⟩

/-! ## Messages -/

def abortMsg (E : Env) (nd : DistributedDBNode) (victimHomeNode : NodeId) (victimId : TransactionId) :
    NetworkMessage :=
  { NetworkMessage.declare E.raw with
    type := .abortTransactionSignal, senderId := nd.nodeId, receiverId := victimHomeNode,
    deadlockedTransactions := [victimId] }

/-- the signal for a victim whose home node is known -/
def abortSignals (E : Env) (nd : DistributedDBNode) (victimId : TransactionId) : List NetworkMessage :=
  if nd.transactionManager.getTransactionHomeNode victimId ≠ 0 then
    [abortMsg E nd (nd.transactionManager.getTransactionHomeNode victimId) victimId]
  else []

def reportToClientMsg (E : Env) (nd : DistributedDBNode) (receiverId : NodeId)
    (detectedCycles : List (List TransactionId)) (deadlockCount : ℤ) : NetworkMessage :=
  { NetworkMessage.declare E.raw with
    type := .deadlockReportToClient, senderId := nd.nodeId, receiverId := receiverId,
    detectedCycles := detectedCycles, deadlockCount := deadlockCount }

/-- a message with no payload field set -/
def requestMsg (E : Env) (nd : DistributedDBNode) (type : NetworkMessageType) (receiverId : NodeId) :
    NetworkMessage :=
  { NetworkMessage.declare E.raw with type := type, senderId := nd.nodeId, receiverId := receiverId }

/-! ## Resolution -/

/-- the loop over the detected cycles: the signals sent, and whether `selectVictim` threw -/
def resolveCycles (E : Env) (nd : DistributedDBNode) (transactionFrequencies : UnorderedMap TransactionId ℤ) :
    List (List TransactionId) → List NetworkMessage × Bool
  | [] => ([], false)
  | cycle :: cycles =>
    match DeadlockDetector.selectVictim cycle transactionFrequencies with
    | none => ([], true)
    | some victimId =>
      let (sent, threw) := resolveCycles E nd transactionFrequencies cycles
      (abortSignals E nd victimId ++ sent, threw)

/-- what both resolvers do: prune the graph to the transactions active here, search it and send the signals; they
differ in what they send when nothing is left of the graph and in the report at the end. The result is what was sent
and whether it ended by a throw. -/
def pruneAndResolve (E : Env) (nd : DistributedDBNode) (graph : WaitForGraph) (onEmpty : List NetworkMessage)
    (report : WaitForGraph → List (List TransactionId) → List NetworkMessage) :
    Option (List NetworkMessage × Bool) :=
  let activeTxns := nd.transactionManager.getActiveTransactions E.hash
  let prunedGraph := WaitForGraph.pruneActive E.hash activeTxns graph
  if prunedGraph.entries = [] then some (onEmpty, false)
  else do
    let (detectedCycles, transactionFrequencies) ← DeadlockDetector.findCycles E.hash E.fuel prunedGraph
    let (sent, threw) := resolveCycles E nd transactionFrequencies detectedCycles
    some (if threw then sent else sent ++ report prunedGraph detectedCycles, threw)

def checkAndResolveDeadlocks (E : Env) (nd : DistributedDBNode) (graph : WaitForGraph) :
    Option (List NetworkMessage × Bool) :=
  pruneAndResolve E nd graph [] fun _ detectedCycles =>
    if nd.isCentralizedNode then [reportToClientMsg E nd 0 detectedCycles detectedCycles.length] else []

/-- with nothing left of the graph the report's deadlock count is indeterminate -/
def checkAndResolveDeadlocksForZone (E : Env) (nd : DistributedDBNode) (zoneLeaderId : NodeId)
    (graph : WaitForGraph) : Option (List NetworkMessage × Bool) :=
  let reportMsg := requestMsg E nd .centralWfgReportFromZone centralizedNodeId
  pruneAndResolve E nd graph
    (if E.mode = .hawk ∧ zoneLeaderId ≠ centralizedNodeId then [reportMsg] else [])
    fun prunedGraph detectedCycles =>
      if E.mode = .hawk ∧ zoneLeaderId ≠ centralizedNodeId then [{ reportMsg with
        wfgDataPairs := WaitForGraph.convertWFGToMessageFormat E.hash prunedGraph
        detectedCycles := detectedCycles
        deadlockCount := detectedCycles.length }]
      else []

/-! ## Handlers -/

/-- a report is merged and counted -/
def addWfgReport (nd : DistributedDBNode) (data : WfgDataPairs) : DistributedDBNode :=
  { nd with
    aggregatedWfg := WaitForGraph.mergeWFG nd.aggregatedWfg data
    wfgReportsReceived := nd.wfgReportsReceived + 1 }

/-- no report has been merged -/
def clearWfgReports (nd : DistributedDBNode) : DistributedDBNode :=
  { nd with aggregatedWfg := ∅, wfgReportsReceived := 0 }

/-- merge a report and count it; the report that reaches the expected number starts `resolve` on the merged graph,
and a throw of `resolve` leaves that graph and the count as they are -/
def collectWfgReport (resolve : DistributedDBNode → WaitForGraph → Option (List NetworkMessage × Bool))
    (nd : DistributedDBNode) (data : WfgDataPairs) : Option Outcome :=
  let nd := nd.addWfgReport data
  if nd.wfgReportsExpected ≤ nd.wfgReportsReceived then
    (resolve nd nd.aggregatedWfg).map fun res =>
      if res.2 then nd.sends res.1 true else nd.clearWfgReports.sends res.1 false
  else some nd.idle

def handleWFGReport (E : Env) (nd : DistributedDBNode) (wfgData : WaitForGraph) : Option Outcome :=
  if nd.isCentralizedNode then
    collectWfgReport (checkAndResolveDeadlocks E) nd (WaitForGraph.convertWFGToMessageFormat E.hash wfgData)
  else some nd.idle

def handleZoneWFGReport (E : Env) (nd : DistributedDBNode) (wfgDataPairs : WfgDataPairs) : Option Outcome :=
  if nd.detectionZoneManager.isZoneLeader then
    collectWfgReport (fun nd => checkAndResolveDeadlocksForZone E nd nd.nodeId) nd wfgDataPairs
  else some nd.idle

/-- an unknown transaction on a queue or among the holders throws -/
def handlePAGRequest (E : Env) (nd : DistributedDBNode) (requesterNodeId : NodeId) : Outcome :=
  match LockTable.collectCrossNodeWFDEdges E.hash nd.transactionManager with
  | none => ⟨nd, [], true⟩
  | some crossNodeEdges =>
    nd.sends [{ requestMsg E nd .pagResponse requesterNodeId with pagEdges := crossNodeEdges }] false

/-- is it time to cut the graph into new zones? -/
def shouldAdjustTree (E : Env) (nd : DistributedDBNode) : Bool :=
  let newDeadlocksFromZones := nd.totalDeadlocksFromZones - nd.prevTotalDeadlocksFromZones
  let newDeadlocksFromCentral := nd.totalDeadlocksFromCentral - nd.prevTotalDeadlocksFromCentral
  if 5000 ≤ (E.now - nd.lastTreeAdjustTime).tdiv 1000000 then
    if 0 < newDeadlocksFromZones then newDeadlocksFromZones < newDeadlocksFromCentral
    else 0 < newDeadlocksFromCentral
  else false

/-- a response is appended and counted -/
def addPagResponse (nd : DistributedDBNode) (pagEdges : List WFDEdge) : DistributedDBNode :=
  { nd with
    aggregatedPagEdges := nd.aggregatedPagEdges ++ pagEdges
    pagResponsesReceived := nd.pagResponsesReceived + 1 }

/-- no response has been appended -/
def clearPagResponses (nd : DistributedDBNode) : DistributedDBNode :=
  { nd with aggregatedPagEdges := [], pagResponsesReceived := 0 }

/-- the totals at the last check of the tree -/
def markTreeAdjust (E : Env) (nd : DistributedDBNode) : DistributedDBNode :=
  { nd with
    prevTotalDeadlocksFromZones := nd.totalDeadlocksFromZones
    prevTotalDeadlocksFromCentral := nd.totalDeadlocksFromCentral
    lastTreeAdjustTime := E.now }

/-- the new zones are cut and broadcast -/
def adjustTree (E : Env) (nd : DistributedDBNode) : Option (List Effect) :=
  if nd.shouldAdjustTree E then
    (PAGManager.greedySCCcut E.hash E.fuel (PAGManager.generatePAG nd.aggregatedPagEdges) sccCutThreshold).map
      fun cut => [.broadcastTreeAdjustment cut.1 cut.2]
  else some []

def handlePAGResponse (E : Env) (nd : DistributedDBNode) (pagEdges : List WFDEdge) : Option Outcome :=
  if nd.isCentralizedNode then
    let nd := nd.addPagResponse pagEdges
    if nd.pagResponsesExpected ≤ nd.pagResponsesReceived then
      (nd.adjustTree E).map fun effects => ⟨(nd.markTreeAdjust E).clearPagResponses, effects, false⟩
    else some nd.idle
  else some nd.idle

/-- abort the listed transactions one after the other -/
def abortAll (E : Env) (nd : DistributedDBNode) (transIdsToAbort : List TransactionId) : Outcome :=
  idle { nd with
    transactionManager := transIdsToAbort.foldl (fun tm tid => tm.abortTransaction E tid) nd.transactionManager }

def handleDeadlockResolution (E : Env) (nd : DistributedDBNode) (transIdsToAbort : List TransactionId) : Outcome :=
  abortAll E nd transIdsToAbort

def handleAbortTransactionSignal (E : Env) (nd : DistributedDBNode) (transIdsToAbort : List TransactionId) : Outcome :=
  abortAll E nd transIdsToAbort

def handleDistributedDetectionInit (nd : DistributedDBNode) (detectionZones : List (List NodeId))
    (detectionZoneLeaders : List NodeId) : Option Outcome :=
  (nd.detectionZoneManager.updateDetectionZones detectionZones detectionZoneLeaders).map fun dz =>
    idle { nd with detectionZoneManager := dz }

/-- the report of the node's own local graph -/
def localWfgReport (E : Env) (nd : DistributedDBNode) (receiverId : NodeId) : NetworkMessage :=
  let activeTxns := nd.transactionManager.getActiveTransactions E.hash
  let lwfg := LockTable.buildAndPruneLocalWaitForGraph E.hash nd.transactionManager activeTxns
  { requestMsg E nd .zoneWfgReport receiverId with
    wfgDataPairs := WaitForGraph.convertWFGToMessageFormat E.hash lwfg }

def handleZoneDetectionRequest (E : Env) (nd : DistributedDBNode) (centralNodeId : NodeId) : Outcome :=
  nd.sends [localWfgReport E nd centralNodeId] false

/-- a zone's report is merged and counted -/
def addZoneReport (nd : DistributedDBNode) (wfgDataPairs : WfgDataPairs) (detectedCycles : List (List TransactionId))
    (reportedDeadlockCount : ℤ) : DistributedDBNode :=
  { nd with
    centralAggregatedWfg := WaitForGraph.mergeWFG nd.centralAggregatedWfg wfgDataPairs
    centralWfgReportsReceived := nd.centralWfgReportsReceived + 1
    totalDeadlocksFromZones := nd.totalDeadlocksFromZones + reportedDeadlockCount
    centralDetectedCycles := nd.centralDetectedCycles ++ detectedCycles }

/-- no zone has reported; the cycles found centrally stay counted in the total -/
def clearZoneReports (nd : DistributedDBNode) (globalDeadlocks : ℤ) : DistributedDBNode :=
  { nd with
    totalDeadlocksFromCentral := nd.totalDeadlocksFromCentral + globalDeadlocks
    centralAggregatedWfg := ∅
    centralWfgReportsReceived := 0
    centralDeadlockCount := 0
    centralDetectedCycles := [] }

def handleCentralWFGReportFromZone (E : Env) (nd : DistributedDBNode) (wfgDataPairs : WfgDataPairs)
    (detectedCycles : List (List TransactionId)) (reportedDeadlockCount : ℤ) : Option Outcome :=
  if nd.isCentralizedNode then
    let nd := nd.addZoneReport wfgDataPairs detectedCycles reportedDeadlockCount
    if nd.numNodes ≤ nd.centralWfgReportsReceived then
      (DeadlockDetector.findCycles E.hash E.fuel nd.centralAggregatedWfg).map fun global =>
        (nd.clearZoneReports global.1.length).sends [reportToClientMsg E nd 0
          (nd.centralDetectedCycles ++ global.1) (nd.centralDeadlockCount + global.1.length)] false
    else some nd.idle
  else some nd.idle

/-- the holder a blocked transaction waits for: the first in iteration order -/
def blockingTransaction (E : Env) (nd : DistributedDBNode) (lastTransInPath : TransactionId) : Option TransactionId :=
  match nd.transactionManager.getTransaction lastTransInPath with
  | none => none
  | some txn =>
    if txn.status ≠ .blocked ∨ txn.waitingForResourceId = 0 then none
    else ((iter E.hash (nd.transactionManager.resourceManager.getResourceHolders txn.waitingForResourceId)).map
      Prod.fst).head?

def handlePathPushingProbe (E : Env) (nd : DistributedDBNode) (path : List TransactionId) : Outcome :=
  match path.getLast?.bind (nd.blockingTransaction E) with
  | none => nd.idle
  | some blockingTransId =>
    if blockingTransId ∈ path then
      -- the frequency table passed is empty
      match DeadlockDetector.selectVictim (path ++ [blockingTransId]) ∅ with
      | none => ⟨nd, [], true⟩
      | some victimId =>
        nd.sends (abortSignals E nd victimId ++ if nd.isCentralizedNode then
          [reportToClientMsg E nd 0 [path ++ [blockingTransId]] 1] else []) false
    else if nd.transactionManager.getTransactionHomeNode blockingTransId ≠ 0 then
      nd.sends [{ requestMsg E nd .pathPushingProbe
        (nd.transactionManager.getTransactionHomeNode blockingTransId) with path := path ++ [blockingTransId] }] false
    else nd.idle

def handleClientPrintDeadlockRequest (E : Env) (nd : DistributedDBNode) (clientId : NodeId) : Outcome :=
  if nd.isCentralizedNode then
    nd.sends [reportToClientMsg E nd clientId nd.centralDetectedCycles nd.centralDeadlockCount] false
  else nd.idle

def handleClientResolveDeadlockRequest (E : Env) (nd : DistributedDBNode) (victimTransId : TransactionId)
    (clientId : NodeId) : Outcome :=
  if nd.isCentralizedNode then
    nd.sends (abortSignals E nd victimTransId ++ [reportToClientMsg E nd clientId [] 0]) false
  else nd.idle

/-- the switch of `messageProcessingLoop` -/
def processMessage (E : Env) (nd : DistributedDBNode) (msg : NetworkMessage) : Option Outcome :=
  match msg.type with
  | .lockRequest | .releaseLockRequest | .releaseLockResponse | .deadlockReportToClient | .unknown
  | .clientCollectWfgResponse => some nd.idle
  | .lockResponse =>
    (nd.transactionManager.handleSQLResponse E msg.transId msg.granted msg.resId).map fun res =>
      { nd with transactionManager := res.1 }.sends res.2 false
  | .wfgReport => nd.handleWFGReport E msg.wfgData
  | .pagRequest => some (nd.handlePAGRequest E msg.senderId)
  | .pagResponse => nd.handlePAGResponse E msg.pagEdges
  | .deadlockResolution => some (nd.handleDeadlockResolution E msg.deadlockedTransactions)
  | .abortTransactionSignal => some (nd.handleAbortTransactionSignal E msg.deadlockedTransactions)
  | .distributedDetectionInit => nd.handleDistributedDetectionInit msg.detectionZones msg.detectionZoneLeaders
  | .zoneDetectionRequest => some (nd.handleZoneDetectionRequest E msg.centralNodeId)
  | .zoneWfgReport => nd.handleZoneWFGReport E msg.wfgDataPairs
  | .centralWfgReportFromZone =>
    nd.handleCentralWFGReportFromZone E msg.wfgDataPairs msg.detectedCycles msg.deadlockCount
  | .pathPushingProbe => some (nd.handlePathPushingProbe E msg.path)
  -- `handleClientCollectWFGRequest` has an empty loop for a body
  | .clientCollectWfgRequest => some nd.idle
  | .clientPrintDeadlockRequest => some (nd.handleClientPrintDeadlockRequest E msg.senderId)
  | .clientResolveDeadlockRequest => some (nd.handleClientResolveDeadlockRequest E msg.victimTransId msg.senderId)

/-! ## Loops -/

/-- no report has been merged and a number of them is expected -/
def startWfgRound (nd : DistributedDBNode) (expected : ℤ) : DistributedDBNode :=
  { nd.clearWfgReports with wfgReportsExpected := expected }

/-- no response has been appended and a number of them is expected -/
def startPagRound (nd : DistributedDBNode) (expected : ℤ) : DistributedDBNode :=
  { nd.clearPagResponses with pagResponsesExpected := expected }

/-- a round of `centralizedDetectLoop` -/
def centralizedDetect (E : Env) (nd : DistributedDBNode) : Outcome :=
  if nd.isCentralizedNode then
    (nd.startWfgRound nd.numNodes).sends ((intRange 1 nd.numNodes).map (requestMsg E nd .wfgReport)) false
  else nd.idle

/-- a round of `distributedDetectCoordinatorLoop` -/
def distributedDetectCoordinator (E : Env) (nd : DistributedDBNode) : Outcome :=
  if nd.detectionZoneManager.isZoneLeader then
    (nd.startWfgRound nd.detectionZoneManager.myDetectionZoneMembers.length).sends
      (nd.detectionZoneManager.myDetectionZoneMembers.map (requestMsg E nd .zoneWfgReport)) false
  else nd.idle

/-- a round of `pagSamplingLoop` -/
def pagSampling (E : Env) (nd : DistributedDBNode) : Outcome :=
  if E.mode = .hawk ∧ nd.isCentralizedNode then
    (nd.startPagRound nd.numNodes).sends ((intRange 1 nd.numNodes).map (requestMsg E nd .pagRequest)) false
  else nd.idle

/-- a round of `pathPushingDetectionLoop`: probes for the blocked transactions go to the node itself -/
def initiatePathPushingProbes (E : Env) (nd : DistributedDBNode) : Outcome :=
  let blocked := (nd.transactionManager.getActiveTransactions E.hash).filter fun transId =>
    (nd.transactionManager.getTransaction transId).any fun txn => txn.status = .blocked
  ⟨nd, blocked.map fun transId =>
    .pushLocal { requestMsg E nd .pathPushingProbe nd.nodeId with path := [transId] }, false⟩

/-- what can happen at a node; `transactionPollingLoop` is a sequence of `beginTransaction` and
`tryExecuteNextSQLStatement` events, `tpccWorkloadLoop` of `tpccArrival` events -/
inductive Event : Type 1 where
  | beginTransaction (E : Env) (draws : List (ResourceId × LockMode))
  | tpccArrival (E : Env)
  | tryExecuteNextSQLStatement (E : Env) (transId : TransactionId)
  | processMessage (E : Env) (msg : NetworkMessage)
  | centralizedDetect (E : Env)
  | distributedDetectCoordinator (E : Env)
  | pagSampling (E : Env)
  | initiatePathPushingProbes (E : Env)

def step (nd : DistributedDBNode) : Event → Option Outcome
  | .beginTransaction E draws =>
    some (idle { nd with transactionManager := nd.transactionManager.beginTransaction E draws })
  | .tpccArrival E => some (idle { nd with transactionManager := nd.transactionManager.tpccArrival E })
  | .tryExecuteNextSQLStatement E transId =>
    (nd.transactionManager.tryExecuteNextSQLStatement E transId).map fun res =>
      { nd with transactionManager := res.1 }.sends res.2.2 false
  | .processMessage E msg => nd.processMessage E msg
  | .centralizedDetect E => some (nd.centralizedDetect E)
  | .distributedDetectCoordinator E => some (nd.distributedDetectCoordinator E)
  | .pagSampling E => some (nd.pagSampling E)
  | .initiatePathPushingProbes E => some (nd.initiatePathPushingProbes E)

/-! ## The transaction manager -/

/-- the environment of an event -/
def Event.env : Event → Env
  | .beginTransaction E _ => E
  | .tpccArrival E => E
  | .tryExecuteNextSQLStatement E _ => E
  | .processMessage E _ => E
  | .centralizedDetect E => E
  | .distributedDetectCoordinator E => E
  | .pagSampling E => E
  | .initiatePathPushingProbes E => E

/-- a run of manager operations in the environment E -/
abbrev RunsIn (E : Env) : TransactionManager → TransactionManager → Prop :=
  ReachesBy TransactionManager.step fun _ op => op.env = E

/-- a node after an event has its ids still, and a transaction manager that only manager operations have changed -/
structure SameNode (E : Env) (nd nd' : DistributedDBNode) : Prop where
  nodeId : nd'.nodeId = nd.nodeId
  numNodes : nd'.numNodes = nd.numNodes
  zonesNodeId : nd'.detectionZoneManager.nodeId = nd.detectionZoneManager.nodeId
  runsIn : RunsIn E nd.transactionManager nd'.transactionManager

theorem SameNode.refl (E : Env) (nd : DistributedDBNode) : SameNode E nd nd := ⟨rfl, rfl, rfl, .start⟩

@[simp] theorem adjustments_sends (nd : DistributedDBNode) (msgs : List NetworkMessage) (threw : Bool) :
    (nd.sends msgs threw).adjustments = [] := by
  simp [Outcome.adjustments, sends, List.filterMap_map]

/-- an event that has nothing to do with detection zones; what it pushes onto its own queue are probes -/
structure ZonesKept (E : Env) (nd : DistributedDBNode) (o : Outcome) : Prop extends SameNode E nd o.node where
  detectionZoneManager : o.node.detectionZoneManager = nd.detectionZoneManager
  adjustments : o.adjustments = []
  pushLocal : ∀ msg, .pushLocal msg ∈ o.effects → msg.type = .pathPushingProbe

theorem pushLocal_notMem_sends (nd : DistributedDBNode) (msgs : List NetworkMessage) (threw : Bool)
    (msg : NetworkMessage) : .pushLocal msg ∉ (nd.sends msgs threw).effects := by
  simp [sends]

theorem ZonesKept.of_sends {E : Env} {nd nd' : DistributedDBNode} (msgs : List NetworkMessage) (threw : Bool)
    (hid : nd'.nodeId = nd.nodeId) (hnum : nd'.numNodes = nd.numNodes)
    (hdz : nd'.detectionZoneManager = nd.detectionZoneManager)
    (htm : RunsIn E nd.transactionManager nd'.transactionManager) : ZonesKept E nd (nd'.sends msgs threw) :=
  ⟨⟨hid, hnum, congrArg _ hdz, htm⟩, hdz, adjustments_sends nd' msgs threw,
    fun msg hmsg => absurd hmsg (pushLocal_notMem_sends nd' msgs threw msg)⟩

/-- an event that leaves the node as it is -/
def OnlySends (nd : DistributedDBNode) (o : Outcome) : Prop := ∃ msgs threw, o = nd.sends msgs threw

theorem onlySends_idle (nd : DistributedDBNode) : OnlySends nd nd.idle := ⟨[], false, rfl⟩

theorem OnlySends.node {nd : DistributedDBNode} {o : Outcome} (h : OnlySends nd o) : o.node = nd := by
  obtain ⟨msgs, threw, rfl⟩ := h
  rfl

theorem OnlySends.zonesKept {E : Env} {nd : DistributedDBNode} {o : Outcome} (h : OnlySends nd o) :
    ZonesKept E nd o := by
  obtain ⟨msgs, threw, rfl⟩ := h
  exact .of_sends msgs threw rfl rfl rfl .start

theorem onlySends_handlePAGRequest (E : Env) (nd : DistributedDBNode) (requesterNodeId : NodeId) :
    OnlySends nd (handlePAGRequest E nd requesterNodeId) := by
  unfold handlePAGRequest
  cases LockTable.collectCrossNodeWFDEdges E.hash nd.transactionManager with
  | none => exact ⟨[], true, rfl⟩
  | some edges => exact ⟨_, false, rfl⟩

theorem onlySends_handlePathPushingProbe (E : Env) (nd : DistributedDBNode) (path : List TransactionId) :
    OnlySends nd (handlePathPushingProbe E nd path) := by
  unfold handlePathPushingProbe
  cases path.getLast?.bind (nd.blockingTransaction E) with
  | none => exact onlySends_idle nd
  | some blockingTransId =>
    simp only
    by_cases hclosed : blockingTransId ∈ path
    · rw [if_pos hclosed]
      cases DeadlockDetector.selectVictim (path ++ [blockingTransId]) ∅ with
      | none => exact ⟨[], true, rfl⟩
      | some victimId => exact ⟨_, false, rfl⟩
    · rw [if_neg hclosed]
      split_ifs
      · exact ⟨_, false, rfl⟩
      · exact onlySends_idle nd

theorem onlySends_handleClientPrintDeadlockRequest (E : Env) (nd : DistributedDBNode) (clientId : NodeId) :
    OnlySends nd (handleClientPrintDeadlockRequest E nd clientId) := by
  unfold handleClientPrintDeadlockRequest
  split_ifs
  · exact ⟨_, false, rfl⟩
  · exact onlySends_idle nd

theorem onlySends_handleClientResolveDeadlockRequest (E : Env) (nd : DistributedDBNode) (victimTransId : TransactionId)
    (clientId : NodeId) : OnlySends nd (handleClientResolveDeadlockRequest E nd victimTransId clientId) := by
  unfold handleClientResolveDeadlockRequest
  split_ifs
  · exact ⟨_, false, rfl⟩
  · exact onlySends_idle nd

/-! ## What a handler leaves -/

theorem collectWfgReport_node {resolve : DistributedDBNode → WaitForGraph → Option (List NetworkMessage × Bool)}
    {nd : DistributedDBNode} {data : WfgDataPairs} {o : Outcome} (h : collectWfgReport resolve nd data = some o) :
    o.node = nd.addWfgReport data ∨ o.node = (nd.addWfgReport data).clearWfgReports := by
  unfold collectWfgReport at h
  simp only at h
  split_ifs at h
  · obtain ⟨res, -, rfl⟩ := Option.map_eq_some_iff.1 h
    split_ifs
    · exact Or.inl rfl
    · exact Or.inr rfl
  · cases h
    exact Or.inl rfl

theorem handleCentralWFGReportFromZone_node {E : Env} {nd : DistributedDBNode} {data : WfgDataPairs}
    {cycles : List (List TransactionId)} {count : ℤ} {o : Outcome}
    (h : nd.handleCentralWFGReportFromZone E data cycles count = some o) :
    o.node = nd ∨ o.node = nd.addZoneReport data cycles count ∨
      ∃ found : ℕ, o.node = (nd.addZoneReport data cycles count).clearZoneReports found := by
  unfold handleCentralWFGReportFromZone at h
  simp only at h
  split_ifs at h
  · obtain ⟨found, -, rfl⟩ := Option.map_eq_some_iff.1 h
    exact Or.inr (Or.inr ⟨found.1.length, rfl⟩)
  · cases h
    exact Or.inr (Or.inl rfl)
  · cases h
    exact Or.inl rfl

/-- the messages whose handlers change more of the node than its transaction manager -/
def collectedTypes : List NetworkMessageType :=
  [.wfgReport, .zoneWfgReport, .pagResponse, .distributedDetectionInit, .centralWfgReportFromZone]

theorem processMessage_manager {E : Env} {nd : DistributedDBNode} {msg : NetworkMessage} {o : Outcome}
    (h : nd.processMessage E msg = some o) (hcollected : msg.type ∉ collectedTypes) :
    ∃ tm, o.node = { nd with transactionManager := tm } := by
  have honly : OnlySends nd o → ∃ tm, o.node = { nd with transactionManager := tm } :=
    fun hsends => ⟨nd.transactionManager, hsends.node⟩
  unfold processMessage at h
  cases htype : msg.type <;> rw [htype] at h hcollected <;> simp only at h
  case wfgReport => exact absurd (by decide) hcollected
  case zoneWfgReport => exact absurd (by decide) hcollected
  case pagResponse => exact absurd (by decide) hcollected
  case distributedDetectionInit => exact absurd (by decide) hcollected
  case centralWfgReportFromZone => exact absurd (by decide) hcollected
  case lockResponse =>
    obtain ⟨res, -, rfl⟩ := Option.map_eq_some_iff.1 h
    exact ⟨res.1, rfl⟩
  case deadlockResolution => cases h; exact ⟨_, rfl⟩
  case abortTransactionSignal => cases h; exact ⟨_, rfl⟩
  case pagRequest => cases h; exact honly (onlySends_handlePAGRequest E nd _)
  case pathPushingProbe => cases h; exact honly (onlySends_handlePathPushingProbe E nd _)
  case clientPrintDeadlockRequest => cases h; exact honly (onlySends_handleClientPrintDeadlockRequest E nd _)
  case clientResolveDeadlockRequest => cases h; exact honly (onlySends_handleClientResolveDeadlockRequest E nd _ _)
  all_goals cases h; exact ⟨nd.transactionManager, rfl⟩

/-! ## Events and zones -/

/-- one operation of the manager -/
theorem runsIn_op {E : Env} {tm tm' : TransactionManager} {o : TransactionManager.Op} (hE : o.env = E)
    (h : tm.step o = some tm') : RunsIn E tm tm' := .next .start hE h

theorem zonesKept_abortAll (E : Env) (nd : DistributedDBNode) (transIds : List TransactionId) :
    ZonesKept E nd (abortAll E nd transIds) := by
  have hfold : ∀ tm, RunsIn E tm (transIds.foldl (fun tm tid => tm.abortTransaction E tid) tm) := by
    induction transIds with
    | nil => exact fun tm => .start
    | cons t transIds ih =>
      intro tm
      have habort : RunsIn E tm (tm.abortTransaction E t) := runsIn_op (o := .abortTransaction E t) rfl rfl
      exact habort.trans (ih _)
  exact .of_sends [] false rfl rfl rfl (hfold nd.transactionManager)

theorem zonesKept_collectWfgReport {E : Env}
    {resolve : DistributedDBNode → WaitForGraph → Option (List NetworkMessage × Bool)} {nd : DistributedDBNode}
    {data : WfgDataPairs} {o : Outcome} (h : collectWfgReport resolve nd data = some o) : ZonesKept E nd o := by
  unfold collectWfgReport at h
  simp only at h
  split_ifs at h
  · obtain ⟨res, -, rfl⟩ := Option.map_eq_some_iff.1 h
    split_ifs
    · exact .of_sends res.1 true rfl rfl rfl .start
    · exact .of_sends res.1 false rfl rfl rfl .start
  · cases h; exact .of_sends [] false rfl rfl rfl .start

theorem zonesKept_handleCentralWFGReportFromZone {E : Env} {nd : DistributedDBNode} {data : WfgDataPairs}
    {cycles : List (List TransactionId)} {count : ℤ} {o : Outcome}
    (h : handleCentralWFGReportFromZone E nd data cycles count = some o) : ZonesKept E nd o := by
  unfold handleCentralWFGReportFromZone at h
  simp only at h
  split_ifs at h
  · obtain ⟨global, -, rfl⟩ := Option.map_eq_some_iff.1 h
    exact .of_sends _ false rfl rfl rfl .start
  · cases h; exact .of_sends [] false rfl rfl rfl .start
  · cases h; exact (onlySends_idle nd).zonesKept

theorem processMessage_zonesKept {E : Env} {nd : DistributedDBNode} {msg : NetworkMessage} {o : Outcome}
    (h : nd.processMessage E msg = some o) (hinit : msg.type ≠ .distributedDetectionInit)
    (hpag : msg.type ≠ .pagResponse) : ZonesKept E nd o := by
  unfold processMessage at h
  cases htype : msg.type <;> rw [htype] at h <;> simp only at h
  case distributedDetectionInit => exact absurd htype hinit
  case pagResponse => exact absurd htype hpag
  case lockResponse =>
    obtain ⟨res, hres, rfl⟩ := Option.map_eq_some_iff.1 h
    exact .of_sends res.2 false rfl rfl rfl (runsIn_op (o := .handleSQLResponse E msg.transId msg.granted msg.resId)
      rfl (Option.map_eq_some_iff.2 ⟨res, hres, rfl⟩))
  case deadlockResolution => cases h; exact zonesKept_abortAll E nd _
  case abortTransactionSignal => cases h; exact zonesKept_abortAll E nd _
  case wfgReport =>
    unfold handleWFGReport at h
    split_ifs at h
    · exact zonesKept_collectWfgReport h
    · cases h; exact (onlySends_idle nd).zonesKept
  case zoneWfgReport =>
    unfold handleZoneWFGReport at h
    split_ifs at h
    · exact zonesKept_collectWfgReport h
    · cases h; exact (onlySends_idle nd).zonesKept
  case pagRequest => cases h; exact (onlySends_handlePAGRequest E nd _).zonesKept
  case zoneDetectionRequest => cases h; exact .of_sends _ false rfl rfl rfl .start
  case centralWfgReportFromZone => exact zonesKept_handleCentralWFGReportFromZone h
  case pathPushingProbe => cases h; exact (onlySends_handlePathPushingProbe E nd _).zonesKept
  case clientPrintDeadlockRequest => cases h; exact (onlySends_handleClientPrintDeadlockRequest E nd _).zonesKept
  case clientResolveDeadlockRequest =>
    cases h
    exact (onlySends_handleClientResolveDeadlockRequest E nd _ _).zonesKept
  -- the other messages leave the node as it is
  all_goals cases h; exact (onlySends_idle nd).zonesKept

/-- the message an event handles -/
def Event.handles : Event → Option NetworkMessage
  | .processMessage _ msg => some msg
  | _ => none

/-- an event keeps the zones unless it handles a new partition or a response about the predicted access graph -/
theorem step_cases {nd : DistributedDBNode} {ev : Event} {o : Outcome} (h : nd.step ev = some o) :
    ((∀ msg ∈ ev.handles, msg.type ≠ .distributedDetectionInit) ∧ ZonesKept ev.env nd o) ∨
    (∃ E msg, ev = .processMessage E msg ∧ msg.type = .distributedDetectionInit ∧
      nd.handleDistributedDetectionInit msg.detectionZones msg.detectionZoneLeaders = some o) ∨
    ∃ E msg, ev = .processMessage E msg ∧ msg.type = .pagResponse ∧ nd.handlePAGResponse E msg.pagEdges = some o := by
  cases ev with
  | beginTransaction E draws =>
    cases h
    exact Or.inl ⟨by simp [Event.handles],
      .of_sends [] false rfl rfl rfl (runsIn_op (o := .beginTransaction E draws) rfl rfl)⟩
  | tpccArrival E =>
    cases h
    exact Or.inl ⟨by simp [Event.handles],
      .of_sends [] false rfl rfl rfl (runsIn_op (o := .tpccArrival E) rfl rfl)⟩
  | tryExecuteNextSQLStatement E t =>
    obtain ⟨res, hres, rfl⟩ := Option.map_eq_some_iff.1 h
    exact Or.inl ⟨by simp [Event.handles], .of_sends res.2.2 false rfl rfl rfl
      (runsIn_op (o := .tryExecuteNextSQLStatement E t) rfl (Option.map_eq_some_iff.2 ⟨res, hres, rfl⟩))⟩
  | processMessage E msg =>
    by_cases hinit : msg.type = .distributedDetectionInit
    · simp only [step, processMessage, hinit] at h
      exact Or.inr (Or.inl ⟨E, msg, rfl, hinit, h⟩)
    · by_cases hpag : msg.type = .pagResponse
      · simp only [step, processMessage, hpag] at h
        exact Or.inr (Or.inr ⟨E, msg, rfl, hpag, h⟩)
      · refine Or.inl ⟨?_, processMessage_zonesKept h hinit hpag⟩
        intro msg' hmsg'
        cases hmsg'; exact hinit
  | centralizedDetect E =>
    cases h
    unfold centralizedDetect
    split_ifs
    · exact Or.inl ⟨by simp [Event.handles], .of_sends _ false rfl rfl rfl .start⟩
    · exact Or.inl ⟨by simp [Event.handles], (onlySends_idle nd).zonesKept⟩
  | distributedDetectCoordinator E =>
    cases h
    unfold distributedDetectCoordinator
    split_ifs
    · exact Or.inl ⟨by simp [Event.handles], .of_sends _ false rfl rfl rfl .start⟩
    · exact Or.inl ⟨by simp [Event.handles], (onlySends_idle nd).zonesKept⟩
  | pagSampling E =>
    cases h
    unfold pagSampling
    split_ifs
    · exact Or.inl ⟨by simp [Event.handles], .of_sends _ false rfl rfl rfl .start⟩
    · exact Or.inl ⟨by simp [Event.handles], (onlySends_idle nd).zonesKept⟩
  | initiatePathPushingProbes E =>
    cases h
    refine Or.inl ⟨by simp [Event.handles], .refl E nd, rfl, ?_, ?_⟩
    · simp [initiatePathPushingProbes, Outcome.adjustments, List.filterMap_map]
    · intro msg hmsg
      obtain ⟨t, -, heq⟩ := List.mem_map.1 hmsg
      cases heq; rfl

/-- what a response about the predicted access graph does: nothing, or it is counted and a new partition may be cut -/
theorem handlePAGResponse_cases {E : Env} {nd : DistributedDBNode} {pagEdges : List WFDEdge} {o : Outcome}
    (h : nd.handlePAGResponse E pagEdges = some o) : SameNode E nd o.node ∧
      o.node.detectionZoneManager = nd.detectionZoneManager ∧
      (o.effects = [] ∨ nd.isCentralizedNode = true ∧ ∃ cut, o.effects = [.broadcastTreeAdjustment cut.1 cut.2] ∧
        PAGManager.greedySCCcut E.hash E.fuel (PAGManager.generatePAG (nd.aggregatedPagEdges ++ pagEdges))
          sccCutThreshold = some cut) := by
  unfold handlePAGResponse at h
  simp only at h
  split_ifs at h with hcentral
  · obtain ⟨effects, heff, rfl⟩ := Option.map_eq_some_iff.1 h
    refine ⟨⟨rfl, rfl, rfl, .start⟩, rfl, ?_⟩
    unfold adjustTree at heff
    split_ifs at heff
    · obtain ⟨cut, hcut, rfl⟩ := Option.map_eq_some_iff.1 heff
      exact Or.inr ⟨hcentral, cut, rfl, hcut⟩
    · cases heff; exact Or.inl rfl
  · cases h; exact ⟨⟨rfl, rfl, rfl, .start⟩, rfl, Or.inl rfl⟩
  · cases h; exact ⟨.refl E nd, rfl, Or.inl rfl⟩

/-- an event keeps the node's ids and changes the transaction manager by operations of the manager only -/
theorem step_sameNode {nd : DistributedDBNode} {ev : Event} {o : Outcome} (h : nd.step ev = some o) :
    SameNode ev.env nd o.node := by
  rcases step_cases h with ⟨-, hkept⟩ | ⟨E, msg, rfl, -, hinit⟩ | ⟨E, msg, rfl, -, hpag⟩
  · exact hkept.toSameNode
  · obtain ⟨dz, hdz, rfl⟩ := Option.map_eq_some_iff.1 hinit
    exact ⟨rfl, rfl, DetectionZoneManager.updateDetectionZones_nodeId hdz, .start⟩
  · exact (handlePAGResponse_cases hpag).1

/-! ## What is sent -/

@[simp] theorem sent_idle (nd : DistributedDBNode) : nd.idle.sent = [] := rfl

@[simp] theorem sent_sends (nd : DistributedDBNode) (msgs : List NetworkMessage) (threw : Bool) :
    (nd.sends msgs threw).sent = msgs := by
  simp [Outcome.sent, sends, List.filterMap_map]

/-- all messages are of the given types -/
def OfTypes (types : List NetworkMessageType) (msgs : List NetworkMessage) : Prop := ∀ m ∈ msgs, m.type ∈ types

section OfTypes

variable {types : List NetworkMessageType}

@[simp] theorem ofTypes_nil : OfTypes types [] := fun _ hm => absurd hm List.not_mem_nil

@[simp] theorem ofTypes_append {l l' : List NetworkMessage} :
    OfTypes types (l ++ l') ↔ OfTypes types l ∧ OfTypes types l' := List.forall_mem_append

@[simp] theorem ofTypes_singleton {m : NetworkMessage} : OfTypes types [m] ↔ m.type ∈ types :=
  List.forall_mem_singleton

theorem OfTypes.mono {types' : List NetworkMessageType} {msgs : List NetworkMessage} (h : OfTypes types msgs)
    (hsub : types ⊆ types') : OfTypes types' msgs := fun m hm => hsub (h m hm)

theorem ofTypes_requestMsg (E : Env) (nd : DistributedDBNode) {type : NetworkMessageType} (h : type ∈ types)
    (l : List NodeId) : OfTypes types (l.map (requestMsg E nd type)) := by
  intro m hm
  obtain ⟨i, -, rfl⟩ := List.mem_map.1 hm
  exact h

theorem ofTypes_reportToClientMsg (E : Env) (nd : DistributedDBNode) (h : .deadlockReportToClient ∈ types)
    (receiverId : NodeId) (detectedCycles : List (List TransactionId)) (deadlockCount : ℤ) :
    OfTypes types [reportToClientMsg E nd receiverId detectedCycles deadlockCount] := ofTypes_singleton.2 h

theorem ofTypes_abortSignals (E : Env) (nd : DistributedDBNode) (victimId : TransactionId)
    (h : .abortTransactionSignal ∈ types) : OfTypes types (abortSignals E nd victimId) := by
  unfold abortSignals
  split_ifs
  · exact ofTypes_singleton.2 h
  · exact ofTypes_nil

theorem ofTypes_resolveCycles (E : Env) (nd : DistributedDBNode) (frequency : UnorderedMap TransactionId ℤ)
    (cycles : List (List TransactionId)) (h : .abortTransactionSignal ∈ types) :
    OfTypes types (resolveCycles E nd frequency cycles).1 := by
  induction cycles with
  | nil => exact ofTypes_nil
  | cons cycle cycles ih =>
    unfold resolveCycles
    cases DeadlockDetector.selectVictim cycle frequency with
    | none => exact ofTypes_nil
    | some victimId => exact ofTypes_append.2 ⟨ofTypes_abortSignals E nd victimId h, ih⟩

theorem ofTypes_pruneAndResolve {E : Env} {nd : DistributedDBNode} {graph : WaitForGraph}
    {onEmpty : List NetworkMessage} {report : WaitForGraph → List (List TransactionId) → List NetworkMessage}
    {res : List NetworkMessage × Bool} (h : pruneAndResolve E nd graph onEmpty report = some res)
    (habort : .abortTransactionSignal ∈ types) (hempty : OfTypes types onEmpty)
    (hreport : ∀ pruned cycles, OfTypes types (report pruned cycles)) : OfTypes types res.1 := by
  unfold pruneAndResolve at h
  by_cases hp : (WaitForGraph.pruneActive E.hash
      (nd.transactionManager.getActiveTransactions E.hash) graph).entries = []
  · rw [if_pos hp] at h
    cases h; exact hempty
  · rw [if_neg hp] at h
    obtain ⟨found, -, h⟩ := Option.bind_eq_some_iff.1 h
    have hcycles := ofTypes_resolveCycles E nd found.2 found.1 habort
    cases h
    split_ifs
    · exact hcycles
    · exact ofTypes_append.2 ⟨hcycles, hreport _ _⟩

end OfTypes

/-- the types of the messages a resolver sends -/
def resolverTypes : List NetworkMessageType :=
  [.abortTransactionSignal, .centralWfgReportFromZone, .deadlockReportToClient]

/-- the types of the messages a node sends -/
def sentTypes : List NetworkMessageType :=
  resolverTypes ++ [.lockRequest, .pagRequest, .pagResponse, .wfgReport, .zoneWfgReport, .pathPushingProbe]

theorem checkAndResolveDeadlocks_types {E : Env} {nd : DistributedDBNode} {graph : WaitForGraph}
    {res : List NetworkMessage × Bool} (h : checkAndResolveDeadlocks E nd graph = some res) :
    OfTypes resolverTypes res.1 := by
  apply ofTypes_pruneAndResolve h (by decide) ofTypes_nil
  intro pruned cycles
  split_ifs
  · exact ofTypes_reportToClientMsg _ _ (by decide) _ _ _
  · exact ofTypes_nil

theorem checkAndResolveDeadlocksForZone_types {E : Env} {nd : DistributedDBNode} {leader : NodeId}
    {graph : WaitForGraph} {res : List NetworkMessage × Bool}
    (h : checkAndResolveDeadlocksForZone E nd leader graph = some res) : OfTypes resolverTypes res.1 := by
  unfold checkAndResolveDeadlocksForZone at h
  refine ofTypes_pruneAndResolve h (by decide) ?_ fun pruned cycles => ?_ <;> split_ifs
  · exact ofTypes_singleton.2 (by simp [requestMsg, resolverTypes])
  · exact ofTypes_nil
  · exact ofTypes_singleton.2 (by simp [requestMsg, resolverTypes])
  · exact ofTypes_nil

theorem collectWfgReport_types {resolve : DistributedDBNode → WaitForGraph → Option (List NetworkMessage × Bool)}
    (hresolve : ∀ nd graph res, resolve nd graph = some res → OfTypes resolverTypes res.1) {nd : DistributedDBNode}
    {data : WfgDataPairs} {o : Outcome} (h : collectWfgReport resolve nd data = some o) :
    OfTypes resolverTypes o.sent := by
  unfold collectWfgReport at h
  simp only at h
  split_ifs at h
  · obtain ⟨res, hres, rfl⟩ := Option.map_eq_some_iff.1 h
    split_ifs <;> rw [sent_sends] <;> exact hresolve _ _ _ hres
  · cases h; exact ofTypes_nil

theorem handleWFGReport_types {E : Env} {nd : DistributedDBNode} {wfgData : WaitForGraph} {o : Outcome}
    (h : handleWFGReport E nd wfgData = some o) : OfTypes resolverTypes o.sent := by
  unfold handleWFGReport at h
  split_ifs at h
  · exact collectWfgReport_types (fun _ _ _ => checkAndResolveDeadlocks_types) h
  · cases h; exact ofTypes_nil

theorem handleZoneWFGReport_types {E : Env} {nd : DistributedDBNode} {data : WfgDataPairs} {o : Outcome}
    (h : handleZoneWFGReport E nd data = some o) : OfTypes resolverTypes o.sent := by
  unfold handleZoneWFGReport at h
  split_ifs at h
  · exact collectWfgReport_types (fun _ _ _ => checkAndResolveDeadlocksForZone_types) h
  · cases h; exact ofTypes_nil

theorem handlePAGResponse_types {E : Env} {nd : DistributedDBNode} {pagEdges : List WFDEdge} {o : Outcome}
    (h : handlePAGResponse E nd pagEdges = some o) : OfTypes sentTypes o.sent := by
  have hadjust : ∀ nd' effects, adjustTree E nd' = some effects →
      OfTypes sentTypes (Outcome.sent ⟨nd, effects, false⟩) := by
    intro nd' effects hadj
    unfold adjustTree at hadj
    split_ifs at hadj
    · obtain ⟨cut, -, rfl⟩ := Option.map_eq_some_iff.1 hadj
      exact ofTypes_nil
    · cases hadj; exact ofTypes_nil
  unfold handlePAGResponse at h
  simp only at h
  split_ifs at h
  · obtain ⟨effects, heff, rfl⟩ := Option.map_eq_some_iff.1 h
    exact hadjust _ _ heff
  all_goals cases h; exact ofTypes_nil

theorem handleCentralWFGReportFromZone_types {E : Env} {nd : DistributedDBNode} {data : WfgDataPairs}
    {cycles : List (List TransactionId)} {count : ℤ} {o : Outcome}
    (h : handleCentralWFGReportFromZone E nd data cycles count = some o) : OfTypes sentTypes o.sent := by
  unfold handleCentralWFGReportFromZone at h
  simp only at h
  split_ifs at h
  · obtain ⟨global, -, rfl⟩ := Option.map_eq_some_iff.1 h
    rw [sent_sends]
    exact ofTypes_reportToClientMsg _ _ (by decide) _ _ _
  all_goals cases h; exact ofTypes_nil

theorem handlePathPushingProbe_types (E : Env) (nd : DistributedDBNode) (path : List TransactionId) :
    OfTypes sentTypes (handlePathPushingProbe E nd path).sent := by
  unfold handlePathPushingProbe
  cases path.getLast?.bind (nd.blockingTransaction E) with
  | none => exact ofTypes_nil
  | some blockingTransId =>
    simp only
    by_cases hclosed : blockingTransId ∈ path
    · rw [if_pos hclosed]
      cases DeadlockDetector.selectVictim (path ++ [blockingTransId]) ∅ with
      | none => exact ofTypes_nil
      | some victimId =>
        simp only [sent_sends, ofTypes_append]
        refine ⟨ofTypes_abortSignals E nd victimId (by decide), ?_⟩
        split_ifs
        · exact ofTypes_reportToClientMsg _ _ (by decide) _ _ _
        · exact ofTypes_nil
    · rw [if_neg hclosed]
      split_ifs
      · rw [sent_sends]
        exact ofTypes_singleton.2 (by simp [requestMsg, sentTypes])
      · exact ofTypes_nil

theorem ofTypes_of_lockRequests {msgs : List NetworkMessage} (h : ∀ m ∈ msgs, m.type = .lockRequest) :
    OfTypes sentTypes msgs := fun m hm => by rw [h m hm]; decide

theorem processMessage_types {E : Env} {nd : DistributedDBNode} {msg : NetworkMessage} {o : Outcome}
    (h : nd.processMessage E msg = some o) : OfTypes sentTypes o.sent := by
  unfold processMessage at h
  cases htype : msg.type <;> rw [htype] at h <;> simp only at h
  case lockResponse =>
    obtain ⟨res, hres, rfl⟩ := Option.map_eq_some_iff.1 h
    rw [sent_sends]
    exact ofTypes_of_lockRequests (TransactionManager.handleSQLResponse_sent hres)
  case wfgReport => exact (handleWFGReport_types h).mono (by simp [sentTypes])
  case zoneWfgReport => exact (handleZoneWFGReport_types h).mono (by simp [sentTypes])
  case pagRequest =>
    cases h
    unfold handlePAGRequest
    cases LockTable.collectCrossNodeWFDEdges E.hash nd.transactionManager with
    | none => exact ofTypes_nil
    | some edges =>
      simp only [sent_sends]
      exact ofTypes_singleton.2 (by simp [requestMsg, sentTypes])
  case pagResponse => exact handlePAGResponse_types h
  case distributedDetectionInit =>
    obtain ⟨dz, -, rfl⟩ := Option.map_eq_some_iff.1 h
    exact ofTypes_nil
  case zoneDetectionRequest =>
    cases h
    simp only [handleZoneDetectionRequest, sent_sends]
    exact ofTypes_singleton.2 (by simp [localWfgReport, requestMsg, sentTypes])
  case centralWfgReportFromZone => exact handleCentralWFGReportFromZone_types h
  case pathPushingProbe => cases h; exact handlePathPushingProbe_types E nd msg.path
  case clientPrintDeadlockRequest =>
    cases h
    unfold handleClientPrintDeadlockRequest
    split_ifs
    · rw [sent_sends]; exact ofTypes_reportToClientMsg _ _ (by decide) _ _ _
    · exact ofTypes_nil
  case clientResolveDeadlockRequest =>
    cases h
    unfold handleClientResolveDeadlockRequest
    split_ifs
    · rw [sent_sends, ofTypes_append]
      exact ⟨ofTypes_abortSignals E nd _ (by decide), ofTypes_reportToClientMsg E nd (by decide) _ _ _⟩
    · exact ofTypes_nil
  -- the other messages send nothing
  all_goals cases h; exact ofTypes_nil

/-- **Message types.** Every message an event sends is of one of nine types. -/
theorem step_types {nd : DistributedDBNode} {ev : Event} {o : Outcome} (h : nd.step ev = some o) :
    OfTypes sentTypes o.sent := by
  cases ev with
  | beginTransaction E draws => cases h; exact ofTypes_nil
  | tpccArrival E => cases h; exact ofTypes_nil
  | tryExecuteNextSQLStatement E t =>
    obtain ⟨res, hres, rfl⟩ := Option.map_eq_some_iff.1 h
    rw [sent_sends]
    exact ofTypes_of_lockRequests (TransactionManager.tryExecuteNextSQLStatement_sent hres)
  | processMessage E msg => exact processMessage_types h
  | centralizedDetect E =>
    cases h
    unfold centralizedDetect
    split_ifs
    · rw [sent_sends]; exact ofTypes_requestMsg E nd (by decide) _
    · exact ofTypes_nil
  | distributedDetectCoordinator E =>
    cases h
    unfold distributedDetectCoordinator
    split_ifs
    · rw [sent_sends]; exact ofTypes_requestMsg E nd (by decide) _
    · exact ofTypes_nil
  | pagSampling E =>
    cases h
    unfold pagSampling
    split_ifs
    · rw [sent_sends]; exact ofTypes_requestMsg E nd (by decide) _
    · exact ofTypes_nil
  | initiatePathPushingProbes E =>
    cases h
    intro m hm
    simp [initiatePathPushingProbes, Outcome.sent] at hm

end DistributedDBNode

end HawkTxn
