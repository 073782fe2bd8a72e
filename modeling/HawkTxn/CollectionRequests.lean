/-
Who answers a collection request.

A round of `centralizedDetectLoop` asks every node for its wait-for graph, a round of `distributedDetectCoordinatorLoop`
every member of the zone. The requests have the type of the report they ask for, WFG_REPORT or ZONE_WFG_REPORT, so the
receiver's switch treats them as reports: a receiver with the coordinator's role counts an empty report, every other
one ignores them, and nobody replies. The handler that would reply serves ZONE_DETECTION_REQUEST, which no node sends.

Results:
- `zoneDetectionRequest_answered`, `zoneDetectionRequest_not_sent`: the request that is answered is never sent;
- `round_answered_iff`: a round is answered exactly when it addresses nobody.
-/
import HawkTxn.Delivery

namespace HawkTxn

open HawkTxn.Core UnorderedMap

namespace CollectionRequests

/-- is it a report of a local wait-for graph? -/
def isReport (m : NetworkMessage) : Bool := m.type = .wfgReport ∨ m.type = .zoneWfgReport

/-- the edges a report carries, in either representation -/
def Carries (m : NetworkMessage) (u v : TransactionId) : Prop :=
  m.wfgData.Edge u v ∨ ∃ vs, (u, vs) ∈ m.wfgDataPairs ∧ v ∈ vs

/-- the member handles the delivered request and sends the coordinator exactly one report, with its own local graph -/
def Answers (E : Env) (member : DistributedDBNode) (coordinator : NodeId) (request : NetworkMessage) : Prop :=
  ∃ o report, member.processMessage E request = some o ∧ o.sent.filter isReport = [report] ∧
    report.receiverId = coordinator ∧
    ∀ u v, (LockTable.buildAndPruneLocalWaitForGraph E.hash member.transactionManager
      (member.transactionManager.getActiveTransactions E.hash)).Edge u v → Carries report u v

/-- every member answers the request of a round that is addressed to it -/
def Answered (H : HashOrder) (raw : RawScalars) (Es : NodeId → Env) (members : NodeId → DistributedDBNode)
    (coordinator : NodeId) (round : Outcome) : Prop :=
  ∀ request ∈ round.sent, Answers (Es request.receiverId) (members request.receiverId) coordinator
    (Network.transmit H raw request)

/-- a message with the type of a report is answered by no report, whoever handles it -/
theorem not_answers_of_isReport {E : Env} {member : DistributedDBNode} {coordinator : NodeId}
    {request : NetworkMessage} (h : isReport request) : ¬ Answers E member coordinator request := by
  intro hanswers
  obtain ⟨o, report, ho, hfilter, -⟩ := hanswers
  have htypes : DistributedDBNode.OfTypes DistributedDBNode.resolverTypes o.sent := by
    unfold DistributedDBNode.processMessage at ho
    rcases of_decide_eq_true h with htype | htype <;> rw [htype] at ho
    · exact DistributedDBNode.handleWFGReport_types ho
    · exact DistributedDBNode.handleZoneWFGReport_types ho
  have hmem : report ∈ o.sent.filter isReport := by rw [hfilter]; exact List.mem_singleton_self report
  obtain ⟨hsent, hreport⟩ := List.mem_filter.1 hmem
  have htype := htypes report hsent
  rcases of_decide_eq_true hreport with hr | hr <;> rw [hr] at htype <;> exact absurd htype (by decide)

/-- the requests of a round in centralized mode -/
theorem sent_centralizedDetect (E : Env) (c : DistributedDBNode) : (c.centralizedDetect E).sent =
    if c.isCentralizedNode then (intRange 1 c.numNodes).map (DistributedDBNode.requestMsg E c .wfgReport) else [] := by
  unfold DistributedDBNode.centralizedDetect
  split_ifs <;> simp

/-- the requests of a round in HAWK mode -/
theorem sent_distributedDetectCoordinator (E : Env) (c : DistributedDBNode) :
    (c.distributedDetectCoordinator E).sent =
      if c.detectionZoneManager.isZoneLeader then
        c.detectionZoneManager.myDetectionZoneMembers.map (DistributedDBNode.requestMsg E c .zoneWfgReport)
      else [] := by
  unfold DistributedDBNode.distributedDetectCoordinator
  split_ifs <;> simp

/-- a round whose requests have the type of a report is answered exactly if there are none -/
theorem answered_iff_nil {H : HashOrder} {raw : RawScalars} {Es : NodeId → Env} {members : NodeId → DistributedDBNode}
    {coordinator : NodeId} {round : Outcome} (h : ∀ request ∈ round.sent, isReport request) :
    Answered H raw Es members coordinator round ↔ round.sent = [] := by
  refine ⟨?_, ?_⟩
  · intro hans
    apply List.eq_nil_iff_forall_not_mem.2
    intro request hreq
    have htype : isReport (Network.transmit H raw request) := by
      rcases of_decide_eq_true (h request hreq) with ht | ht <;>
        simp [isReport, Network.transmit_type, ht, Network.unencodedTypes]
    exact not_answers_of_isReport htype (hans request hreq)
  · intro hnil request hreq
    rw [hnil] at hreq
    exact absurd hreq List.not_mem_nil

/-- **Answers to a round.** Whatever the states of the nodes, and with every request delivered, a round is answered
exactly when it addresses nobody: in centralized mode, when the coordinator is not the central node or the cluster has
no nodes; in HAWK mode, when it is no zone leader or its zone has no members. -/
theorem round_answered_iff (H : HashOrder) (raw : RawScalars) (E : Env) (Es : NodeId → Env)
    (c : DistributedDBNode) (members : NodeId → DistributedDBNode) :
    (Answered H raw Es members c.nodeId (c.centralizedDetect E) ↔ c.isCentralizedNode = false ∨ c.numNodes < 1) ∧
    (Answered H raw Es members c.nodeId (c.distributedDetectCoordinator E) ↔
      c.detectionZoneManager.isZoneLeader = false ∨ c.detectionZoneManager.myDetectionZoneMembers = []) := by
  have hrequests : ∀ (type : NetworkMessageType) (l : List NodeId), type = .wfgReport ∨ type = .zoneWfgReport →
      ∀ request ∈ l.map (DistributedDBNode.requestMsg E c type), isReport request := by
    intro type l htype request hreq
    obtain ⟨i, -, rfl⟩ := List.mem_map.1 hreq
    exact decide_eq_true htype
  have hrange : intRange 1 c.numNodes = [] ↔ c.numNodes < 1 := by
    rw [List.eq_nil_iff_forall_not_mem]
    refine ⟨?_, ?_⟩
    · intro h
      have := h 1
      rw [mem_intRange] at this
      omega
    · intro h i hi
      rw [mem_intRange] at hi
      omega
  refine ⟨?_, ?_⟩
  · rw [answered_iff_nil, sent_centralizedDetect]
    · cases c.isCentralizedNode <;> simp [hrange]
    · rw [sent_centralizedDetect]
      split_ifs
      · exact hrequests _ _ (Or.inl rfl)
      · simp
  · rw [answered_iff_nil, sent_distributedDetectCoordinator]
    · cases c.detectionZoneManager.isZoneLeader <;> simp
    · rw [sent_distributedDetectCoordinator]
      split_ifs
      · exact hrequests _ _ (Or.inr rfl)
      · simp

/-- in a cluster of two the central node's request to node 2 is not answered -/
theorem request_unanswered : ¬ ∀ H raw E (Es : NodeId → Env) (c : DistributedDBNode) members,
    (c.isCentralizedNode = true → Answered H raw Es members c.nodeId (c.centralizedDetect E)) ∧
    (c.detectionZoneManager.isZoneLeader = true →
      Answered H raw Es members c.nodeId (c.distributedDetectCoordinator E)) := by
  intro h
  have hround := (h .stored Env.quiet.raw .quiet (fun _ => .quiet) (DistributedDBNode.init 1 2 0)
    (fun i => DistributedDBNode.init i 2 0)).1 rfl
  have hans := hround (DistributedDBNode.requestMsg .quiet (DistributedDBNode.init 1 2 0) .wfgReport 2)
    (List.mem_cons_of_mem _ List.mem_cons_self)
  exact not_answers_of_isReport (by decide) hans

/-! ## The request that is answered -/

/-- a node that handles ZONE_DETECTION_REQUEST sends one report, with its own local graph, to the node it names -/
theorem zoneDetectionRequest_answered (E : Env) (member : DistributedDBNode) {request : NetworkMessage}
    (h : request.type = .zoneDetectionRequest) : Answers E member request.centralNodeId request := by
  have hhandled : member.processMessage E request =
      some (member.handleZoneDetectionRequest E request.centralNodeId) := by rw [DistributedDBNode.processMessage, h]
  refine ⟨_, DistributedDBNode.localWfgReport E member request.centralNodeId, hhandled, ?_, rfl, ?_⟩
  · rw [DistributedDBNode.handleZoneDetectionRequest, DistributedDBNode.sent_sends]
    rfl
  · intro u v huv
    obtain ⟨vs, hvs, hv⟩ := WaitForGraph.edge_iff_lookup.1 huv
    exact Or.inr ⟨vs, mem_iter.2 hvs, hv⟩

/-- no node sends ZONE_DETECTION_REQUEST -/
theorem zoneDetectionRequest_not_sent {nd : DistributedDBNode} {ev : DistributedDBNode.Event} {o : Outcome}
    (h : nd.step ev = some o) : ∀ m ∈ o.sent, m.type ≠ .zoneDetectionRequest := by
  intro m hm htype
  have := DistributedDBNode.step_types h m hm
  rw [htype] at this
  exact absurd this (by decide)

end CollectionRequests

end HawkTxn
