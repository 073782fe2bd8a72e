/-
Rounds of collection at a coordinator.

The coordinator resets a counter when it starts a round and counts the reports that arrive: `handleWFGReport` and
`handleZoneWFGReport` share one counter and one merged graph, `handlePAGResponse` has its own. An `Observed` node is a
node with the history of its two counters as collectors: whom the last round addressed, and which reports have been
merged since. A report carries no round; the round whose request it answers is part of the input.

Results:
- `step_refines`: counters and merged data of the node are those of the collectors, after every event;
- `round_exact`: if every report counted answers the current round, comes from an addressed node and is that node's
  first, the threshold branch is taken on exactly one report of the round from each addressed node.
-/
import HawkTxn.Resolution
import HawkTxn.Core.Collector

namespace HawkTxn

open HawkTxn.Core UnorderedMap

namespace Rounds

open DistributedDBNode Collector

/-! ## Model -/

structure Observed where
  node : DistributedDBNode
  wfg : Collector NodeId WfgDataPairs
  pag : Collector NodeId (List WFDEdge)

/-- an event, and for a message the round whose request it answers -/
structure Input : Type 1 where
  event : Event
  round : ℕ

/-- the report a message makes, with what it adds -/
def reportOf {δ : Type} (msg : NetworkMessage) (round : ℕ) (data : δ) : Report NodeId δ := ⟨msg.senderId, round, data⟩

/-- what the message adds to the merged graph, if the node counts it -/
def wfgReportIn (E : Env) (nd : DistributedDBNode) (msg : NetworkMessage) : Option WfgDataPairs :=
  match msg.type with
  | .wfgReport =>
    if nd.isCentralizedNode then some (WaitForGraph.convertWFGToMessageFormat E.hash msg.wfgData) else none
  | .zoneWfgReport => if nd.detectionZoneManager.isZoneLeader then some msg.wfgDataPairs else none
  | _ => none

/-- what the message adds to the collected edges, if the node counts it -/
def pagResponseIn (nd : DistributedDBNode) (msg : NetworkMessage) : Option (List WFDEdge) :=
  if msg.type = .pagResponse ∧ nd.isCentralizedNode then some msg.pagEdges else none

/-- the receivers of the requests of a round -/
def addressed (round : Outcome) : List NodeId := round.sent.map (·.receiverId)

def wfgInput (nd : DistributedDBNode) (i : Input) : Option (Collector.Input NodeId WfgDataPairs) :=
  match i.event with
  | .centralizedDetect E =>
    if nd.isCentralizedNode then some (.start (addressed (nd.centralizedDetect E))) else none
  | .distributedDetectCoordinator E =>
    if nd.detectionZoneManager.isZoneLeader then some (.start (addressed (nd.distributedDetectCoordinator E))) else none
  | .processMessage E msg => (wfgReportIn E nd msg).map fun data => .receive (reportOf msg i.round data)
  | _ => none

def pagInput (nd : DistributedDBNode) (i : Input) : Option (Collector.Input NodeId (List WFDEdge)) :=
  match i.event with
  | .pagSampling E =>
    if E.mode = .hawk ∧ nd.isCentralizedNode then some (.start (addressed (nd.pagSampling E))) else none
  | .processMessage _ msg => (pagResponseIn nd msg).map fun edges => .receive (reportOf msg i.round edges)
  | _ => none

namespace Observed

def init (id : NodeId) (numNodes now : ℤ) : Observed := ⟨DistributedDBNode.init id numNodes now, .init, .init⟩

def step (s : Observed) (i : Input) : Option Observed :=
  (s.node.step i.event).map fun o => ⟨o.node, s.wfg.after (wfgInput s.node i), s.pag.after (pagInput s.node i)⟩

end Observed

/-- every report counted answers the current round, comes from an addressed node and is that node's first -/
def OnePerRound (s : Observed) (i : Input) : Prop :=
  s.wfg.Accepts (wfgInput s.node i) ∧ s.pag.Accepts (pagInput s.node i)

instance (s : Observed) (i : Input) : Decidable (OnePerRound s i) := inferInstanceAs (Decidable (_ ∧ _))

/-! ## The counters of the node -/

/-- reports are merged edge by edge -/
def wfgMerging : Merging WfgDataPairs WaitForGraph := ⟨∅, WaitForGraph.mergeWFG⟩

/-- responses are appended -/
def pagMerging : Merging (List WFDEdge) (List WFDEdge) := ⟨[], (· ++ ·)⟩

def wfgCounter (nd : DistributedDBNode) : Counter WaitForGraph :=
  ⟨nd.wfgReportsExpected, nd.wfgReportsReceived, nd.aggregatedWfg⟩

def pagCounter (nd : DistributedDBNode) : Counter (List WFDEdge) :=
  ⟨nd.pagResponsesExpected, nd.pagResponsesReceived, nd.aggregatedPagEdges⟩

theorem pagMerging_all (l : List (List WFDEdge)) : pagMerging.all l = l.flatten := by
  induction l using List.reverseRecOn with
  | nil => rfl
  | append_singleton l edges ih =>
    rw [Merging.all_append, ih, List.flatten_append]
    simp [pagMerging]

/-- the wait-for report takes the threshold branch -/
def WfgThreshold (nd : DistributedDBNode) (data : WfgDataPairs) : Prop :=
  (nd.addWfgReport data).wfgReportsExpected ≤ (nd.addWfgReport data).wfgReportsReceived

/-- the response takes the threshold branch -/
def PagThreshold (nd : DistributedDBNode) (edges : List WFDEdge) : Prop :=
  (nd.addPagResponse edges).pagResponsesExpected ≤ (nd.addPagResponse edges).pagResponsesReceived

instance (nd : DistributedDBNode) (data : WfgDataPairs) : Decidable (WfgThreshold nd data) :=
  inferInstanceAs (Decidable (_ ≤ _))

instance (nd : DistributedDBNode) (edges : List WFDEdge) : Decidable (PagThreshold nd edges) :=
  inferInstanceAs (Decidable (_ ≤ _))

/-- the resolvers do not throw, so a counted report changes the counter as a counter does, and the other one not -/
theorem collectWfgReport_counters {resolve : DistributedDBNode → WaitForGraph → Option (List NetworkMessage × Bool)}
    (hresolve : ∀ nd graph res, resolve nd graph = some res → res.2 = false) {nd : DistributedDBNode}
    {data : WfgDataPairs} {o : Outcome} (h : collectWfgReport resolve nd data = some o) :
    wfgCounter o.node = (wfgCounter nd).receive wfgMerging data ∧ pagCounter o.node = pagCounter nd := by
  unfold collectWfgReport at h
  simp only at h
  by_cases hle : (nd.addWfgReport data).wfgReportsExpected ≤ (nd.addWfgReport data).wfgReportsReceived
  · have hthreshold : ((wfgCounter nd).add wfgMerging data).Threshold := hle
    rw [if_pos hle] at h
    obtain ⟨res, hres, rfl⟩ := Option.map_eq_some_iff.1 h
    rw [hresolve _ _ _ hres, Counter.receive, if_pos hthreshold]
    exact ⟨rfl, rfl⟩
  · have hthreshold : ¬ ((wfgCounter nd).add wfgMerging data).Threshold := hle
    rw [if_neg hle] at h
    cases h
    rw [Counter.receive, if_neg hthreshold]
    exact ⟨rfl, rfl⟩

theorem handlePAGResponse_counters {E : Env} {nd : DistributedDBNode} {edges : List WFDEdge} {o : Outcome}
    (hcentral : nd.isCentralizedNode = true) (h : nd.handlePAGResponse E edges = some o) :
    wfgCounter o.node = wfgCounter nd ∧ pagCounter o.node = (pagCounter nd).receive pagMerging edges := by
  unfold handlePAGResponse at h
  simp only [if_pos hcentral] at h
  by_cases hle : (nd.addPagResponse edges).pagResponsesExpected ≤ (nd.addPagResponse edges).pagResponsesReceived
  · have hthreshold : ((pagCounter nd).add pagMerging edges).Threshold := hle
    rw [if_pos hle] at h
    obtain ⟨effects, -, rfl⟩ := Option.map_eq_some_iff.1 h
    rw [Counter.receive, if_pos hthreshold]
    exact ⟨rfl, rfl⟩
  · have hthreshold : ¬ ((pagCounter nd).add pagMerging edges).Threshold := hle
    rw [if_neg hle] at h
    cases h
    rw [Counter.receive, if_neg hthreshold]
    exact ⟨rfl, rfl⟩

/-! ## Every event -/

/-- a message that is no wait-for report and no response leaves both counters alone -/
theorem processMessage_same {E : Env} {nd : DistributedDBNode} {msg : NetworkMessage} {o : Outcome}
    (h : nd.processMessage E msg = some o) (hwfg : msg.type ≠ .wfgReport) (hzone : msg.type ≠ .zoneWfgReport)
    (hpag : msg.type ≠ .pagResponse) : wfgCounter o.node = wfgCounter nd ∧ pagCounter o.node = pagCounter nd := by
  by_cases hcentral : msg.type = .centralWfgReportFromZone
  · simp only [processMessage, hcentral] at h
    rcases handleCentralWFGReportFromZone_node h with hnode | hnode | ⟨found, hnode⟩ <;> rw [hnode] <;>
      exact ⟨rfl, rfl⟩
  by_cases hinit : msg.type = .distributedDetectionInit
  · simp only [processMessage, hinit] at h
    obtain ⟨dz, -, rfl⟩ := Option.map_eq_some_iff.1 h
    exact ⟨rfl, rfl⟩
  · obtain ⟨tm, hnode⟩ := processMessage_manager h (by simp [collectedTypes, hwfg, hzone, hpag, hinit, hcentral])
    rw [hnode]
    exact ⟨rfl, rfl⟩

/-- a counter after the data a message adds, if any -/
def receiveIf {δ σ : Type} (M : Merging δ σ) (k : Counter σ) : Option δ → Counter σ
  | none => k
  | some data => k.receive M data

/-- each counter receives what the message adds to it -/
theorem processMessage_counters {E : Env} {nd : DistributedDBNode} {msg : NetworkMessage} {o : Outcome}
    (h : nd.processMessage E msg = some o) :
    wfgCounter o.node = receiveIf wfgMerging (wfgCounter nd) (wfgReportIn E nd msg) ∧
    pagCounter o.node = receiveIf pagMerging (pagCounter nd) (pagResponseIn nd msg) := by
  by_cases hwfg : msg.type = .wfgReport
  · have hpagIn : pagResponseIn nd msg = none := if_neg (by simp [hwfg])
    rw [processMessage, hwfg] at h
    rw [hpagIn]
    simp only [handleWFGReport] at h
    simp only [wfgReportIn, hwfg]
    by_cases hcentral : nd.isCentralizedNode = true
    · rw [if_pos hcentral] at h ⊢
      exact collectWfgReport_counters (fun _ _ _ => Resolution.checkAndResolveDeadlocks_threw) h
    · rw [if_neg hcentral] at h ⊢
      cases h; exact ⟨rfl, rfl⟩
  by_cases hzone : msg.type = .zoneWfgReport
  · have hpagIn : pagResponseIn nd msg = none := if_neg (by simp [hzone])
    rw [processMessage, hzone] at h
    rw [hpagIn]
    simp only [handleZoneWFGReport] at h
    simp only [wfgReportIn, hzone]
    by_cases hleader : nd.detectionZoneManager.isZoneLeader = true
    · rw [if_pos hleader] at h ⊢
      exact collectWfgReport_counters (fun _ _ _ => Resolution.checkAndResolveDeadlocksForZone_threw) h
    · rw [if_neg hleader] at h ⊢
      cases h; exact ⟨rfl, rfl⟩
  have hwfgIn : wfgReportIn E nd msg = none := by
    unfold wfgReportIn
    cases htype : msg.type <;> first | rfl | exact absurd htype hwfg | exact absurd htype hzone
  rw [hwfgIn]
  by_cases hpag : msg.type = .pagResponse
  · rw [processMessage, hpag] at h
    by_cases hcentral : nd.isCentralizedNode = true
    · rw [pagResponseIn, if_pos ⟨hpag, hcentral⟩]
      exact handlePAGResponse_counters hcentral h
    · rw [pagResponseIn, if_neg fun hc => hcentral hc.2]
      simp only [handlePAGResponse, if_neg hcentral] at h
      cases h; exact ⟨rfl, rfl⟩
  rw [pagResponseIn, if_neg fun hc => hpag hc.1]
  exact processMessage_same h hwfg hzone hpag

theorem length_addressed_requestMsg (E : Env) (nd nd' : DistributedDBNode) (type : NetworkMessageType)
    (l : List NodeId) : (addressed (nd.sends (l.map (requestMsg E nd' type)) false)).length = l.length := by
  simp [addressed]

/-- the counters of the node are those of the collectors -/
structure Refines (nd : DistributedDBNode) (wfg : Collector NodeId WfgDataPairs)
    (pag : Collector NodeId (List WFDEdge)) : Prop where
  wfg : Counter.Refines wfgMerging (wfgCounter nd) wfg
  pag : Counter.Refines pagMerging (pagCounter nd) pag

/-- **Refinement.** The counters of the node are those of the collectors, after every event. -/
theorem step_refines {nd : DistributedDBNode} {i : Input} {o : Outcome} {wfg : Collector NodeId WfgDataPairs}
    {pag : Collector NodeId (List WFDEdge)} (h : Refines nd wfg pag) (hst : nd.step i.event = some o) :
    Refines o.node (wfg.after (wfgInput nd i)) (pag.after (pagInput nd i)) := by
  obtain ⟨event, round⟩ := i
  cases event with
  | beginTransaction E draws => cases hst; exact ⟨h.wfg, h.pag⟩
  | tpccArrival E => cases hst; exact ⟨h.wfg, h.pag⟩
  | tryExecuteNextSQLStatement E t =>
    obtain ⟨res, -, rfl⟩ := Option.map_eq_some_iff.1 hst
    exact ⟨h.wfg, h.pag⟩
  | processMessage E msg =>
    obtain ⟨hwfg, hpag⟩ := processMessage_counters hst
    refine ⟨?_, ?_⟩
    · rw [hwfg]
      simp only [wfgInput]
      cases wfgReportIn E nd msg with
      | none => exact h.wfg
      | some data => exact h.wfg.receive (reportOf msg round data)
    · rw [hpag]
      simp only [pagInput]
      cases pagResponseIn nd msg with
      | none => exact h.pag
      | some edges => exact h.pag.receive (reportOf msg round edges)
  | centralizedDetect E =>
    cases hst
    simp only [wfgInput, pagInput]
    unfold centralizedDetect
    by_cases hcentral : nd.isCentralizedNode = true
    · simp only [if_pos hcentral]
      refine ⟨Counter.refines_start wfg ?_, h.pag⟩
      rw [length_addressed_requestMsg, length_intRange, sub_add_cancel]
      rfl
    · simp only [if_neg hcentral]
      exact h
  | distributedDetectCoordinator E =>
    cases hst
    simp only [wfgInput, pagInput]
    unfold distributedDetectCoordinator
    by_cases hleader : nd.detectionZoneManager.isZoneLeader = true
    · simp only [if_pos hleader]
      refine ⟨Counter.refines_start wfg ?_, h.pag⟩
      rw [length_addressed_requestMsg]
      rfl
    · simp only [if_neg hleader]
      exact h
  | pagSampling E =>
    cases hst
    simp only [wfgInput, pagInput]
    unfold pagSampling
    by_cases hcentral : E.mode = .hawk ∧ nd.isCentralizedNode = true
    · simp only [if_pos hcentral]
      refine ⟨h.wfg, Counter.refines_start pag ?_⟩
      rw [length_addressed_requestMsg, length_intRange, sub_add_cancel]
      rfl
    · simp only [if_neg hcentral]
      exact h
  | initiatePathPushingProbes E => cases hst; exact h

/-! ## Exactness -/

theorem refines_of_reaches {ok : Observed → Input → Prop} {id : NodeId} {numNodes now : ℤ} {s : Observed}
    (h : ReachesBy Observed.step ok (Observed.init id numNodes now) s) : Refines s.node s.wfg s.pag := by
  have hinit : Refines (Observed.init id numNodes now).node .init .init :=
    ⟨Counter.refines_init, Counter.refines_init⟩
  refine h.invariant (P := fun s => Refines s.node s.wfg s.pag) hinit ?_
  intro s i s' hs _ hst
  obtain ⟨o, ho, rfl⟩ := Option.map_eq_some_iff.1 hst
  exact step_refines hs ho

theorem collectors_of_reaches {id : NodeId} {numNodes now : ℤ} {s : Observed}
    (h : ReachesBy Observed.step OnePerRound (Observed.init id numNodes now) s) : s.wfg.Inv ∧ s.pag.Inv := by
  refine h.invariant (P := fun s => s.wfg.Inv ∧ s.pag.Inv) ⟨inv_init, inv_init⟩ ?_
  intro s i s' hs hok hst
  obtain ⟨o, -, rfl⟩ := Option.map_eq_some_iff.1 hst
  exact ⟨hs.1.after hok.1, hs.2.after hok.2⟩

/-- if the message takes a threshold branch, the merged data is that of exactly one report of the current round from
each node the last round start addressed -/
structure ExactRound (s : Observed) (E : Env) (msg : NetworkMessage) (round : ℕ) : Prop where
  wfg : ∀ data, wfgReportIn E s.node msg = some data → WfgThreshold s.node data →
    s.wfg.Exact (reportOf msg round data) ∧ (s.node.addWfgReport data).aggregatedWfg =
      WaitForGraph.mergeReports ((s.wfg.merged ++ [reportOf msg round data]).map Report.data)
  pag : ∀ edges, pagResponseIn s.node msg = some edges → PagThreshold s.node edges →
    s.pag.Exact (reportOf msg round edges) ∧ (s.node.addPagResponse edges).aggregatedPagEdges =
      ((s.pag.merged ++ [reportOf msg round edges]).map Report.data).flatten

/-- **Exact rounds.** In every run in which each report counted answers the current round, comes from an addressed node
and is that node's first in the round, each threshold branch is taken on exactly one report of the current round from
each addressed node. -/
theorem round_exact {id : NodeId} {numNodes now : ℤ} {s : Observed}
    (h : ReachesBy Observed.step OnePerRound (Observed.init id numNodes now) s) (E : Env) (msg : NetworkMessage)
    (round : ℕ) (hmsg : OnePerRound s ⟨.processMessage E msg, round⟩) : ExactRound s E msg round := by
  have hrefines : Refines s.node s.wfg s.pag := refines_of_reaches h
  obtain ⟨hinvWfg, hinvPag⟩ := collectors_of_reaches h
  refine ⟨?_, ?_⟩
  · intro data hdata hthreshold
    have hadm : s.wfg.Accepts (wfgInput s.node ⟨.processMessage E msg, round⟩) := hmsg.1
    simp only [wfgInput, hdata, Option.map_some] at hadm
    have hfires : s.wfg.Fires := (hrefines.wfg.threshold_iff data).1 hthreshold
    exact ⟨hinvWfg.exact hadm hfires, hrefines.wfg.add_aggregated (reportOf msg round data)⟩
  · intro edges hedges hthreshold
    have hadm : s.pag.Accepts (pagInput s.node ⟨.processMessage E msg, round⟩) := hmsg.2
    simp only [pagInput, hedges, Option.map_some] at hadm
    have hfires : s.pag.Fires := (hrefines.pag.threshold_iff edges).1 hthreshold
    refine ⟨hinvPag.exact hadm hfires, ?_⟩
    rw [← pagMerging_all]
    exact hrefines.pag.add_aggregated (reportOf msg round edges)

/-- a report without edges to the central node -/
def emptyReport (sender : NodeId) : NetworkMessage :=
  { NetworkMessage.declare Env.quiet.raw with type := .wfgReport, senderId := sender, receiverId := 1 }

/-- the central node of a cluster of two has started a round and counted the report of node 2 -/
def oneReported : Observed :=
  (runBy Observed.step OnePerRound (Observed.init 1 2 0)
    [⟨.centralizedDetect .quiet, 0⟩, ⟨.processMessage .quiet (emptyReport 2), 1⟩]).get rfl

theorem round_exact_oneReported : oneReported.wfg.Exact (reportOf (emptyReport 1) 1 []) :=
  ((round_exact (.of_run (Option.some_get _).symm) .quiet (emptyReport 1) 1 (by decide)).wfg [] rfl (by decide)).1

/-- node 2 reports twice, and the round ends without node 1 -/
theorem duplicate_inexact : ¬ ∀ id numNodes now s, Reaches Observed.step (Observed.init id numNodes now) s →
    ∀ E msg round, ExactRound s E msg round := by
  intro hall
  have hreaches : ReachesBy Observed.step OnePerRound (Observed.init 1 2 0) oneReported :=
    .of_run (Option.some_get _).symm
  have hsenders := ((hall 1 2 0 oneReported (hreaches.mono fun _ _ _ => trivial) .quiet (emptyReport 2) 1).wfg [] rfl
    (by decide)).1.senders
  exact absurd (hsenders.mem_iff.2 (by decide : (1 : NodeId) ∈ oneReported.wfg.addressed)) (by decide)

end Rounds

end HawkTxn
