/-
Detection in two levels.

A zone leader resolves the union of its members' local graphs and reports what is left of it to the central node. The
central node merges the reports and, once as many have come as the cluster has nodes, searches the merged graph; it
reports the cycles to the client and signals nobody.

Results:
- `central_signals_nobody`: the central node signals nobody, whatever reports it handles;
- `hierarchy_resolves_iff`: a pass over the zones resolves every deadlock exactly when every component with a deadlock
  has a cycle inside one zone's graph among the transactions of that zone's leader.
-/
import HawkTxn.Resolution
import HawkTxn.Network.Codec

namespace HawkTxn

open HawkTxn.Core UnorderedMap

namespace Hierarchy

open DistributedDBNode Resolution

/-! ## Model -/

/-- the graph a node merges from the local graphs of its members -/
def unionOf (H : HashOrder) (graphs : NodeId → WaitForGraph) (members : List NodeId) : WaitForGraph :=
  WaitForGraph.mergeReports (members.map fun n => WaitForGraph.convertWFGToMessageFormat H (graphs n))

/-- a zone whose leader has resolved the union of its members' graphs; the leader's table records home nodes -/
structure Zone (graphs : NodeId → WaitForGraph) where
  env : Env
  leader : DistributedDBNode
  members : List NodeId
  home : TransactionId → NodeId
  homed : leader.transactionManager.Homed home
  result : List NetworkMessage × Bool
  resolved : checkAndResolveDeadlocksForZone env leader leader.nodeId (unionOf env.hash graphs members) = some result

namespace Zone

variable {graphs : NodeId → WaitForGraph}

def graph (z : Zone graphs) : WaitForGraph := unionOf z.env.hash graphs z.members

def sent (z : Zone graphs) : List NetworkMessage := z.result.1

/-- the reports to the central node -/
def reports (z : Zone graphs) : List NetworkMessage := z.sent.filter fun m => m.type = .centralWfgReportFromZone

end Zone

/-- what the node sends while it handles messages one after the other -/
def handleAll (nd : DistributedDBNode) : List (Env × NetworkMessage) → Option (List NetworkMessage)
  | [] => some []
  | (E, msg) :: msgs => do
    let o ← nd.processMessage E msg
    let sent ← handleAll o.node msgs
    some (o.sent ++ sent)

/-- one pass over zones that partition the nodes: the leaders resolve, and the central node handles the reports they
send, in any order -/
structure Pass (graphs : NodeId → WaitForGraph) where
  zones : List (Zone graphs)
  central : DistributedDBNode
  isCentral : central.isCentralizedNode = true
  partition : (zones.flatMap Zone.members).Perm (intRange 1 central.numNodes)
  hash : HashOrder
  raw : RawScalars
  handled : List (Env × NetworkMessage)
  delivered : (handled.map Prod.snd).Perm ((zones.flatMap Zone.reports).map (Network.transmit hash raw))
  centralSent : List NetworkMessage
  handles : handleAll central handled = some centralSent

namespace Pass

variable {graphs : NodeId → WaitForGraph}

/-- what the leaders and the central node send -/
def sent (p : Pass graphs) : List NetworkMessage := p.zones.flatMap Zone.sent ++ p.centralSent

/-- the union of all local graphs -/
def UnionEdge (p : Pass graphs) (u v : TransactionId) : Prop :=
  ∃ n ∈ intRange 1 p.central.numNodes, (graphs n).Edge u v

end Pass

/-! ## The two levels -/

theorem edge_unionOf {H : HashOrder} {graphs : NodeId → WaitForGraph} {members : List NodeId} {u v : TransactionId} :
    (unionOf H graphs members).Edge u v ↔ ∃ n ∈ members, (graphs n).Edge u v := by
  rw [unionOf, WaitForGraph.edge_mergeReports]
  refine ⟨?_, ?_⟩
  · intro hmerged
    obtain ⟨data, hdata, hedge⟩ := hmerged
    obtain ⟨n, hn, rfl⟩ := List.mem_map.1 hdata
    exact ⟨n, hn, WaitForGraph.edge_convert.1 hedge⟩
  · intro hmember
    obtain ⟨n, hn, hedge⟩ := hmember
    exact ⟨_, List.mem_map_of_mem hn, WaitForGraph.edge_convert.2 hedge⟩

/-- a handler of a leader's report sends reports to the client only -/
theorem processMessage_zoneReport_types {E : Env} {nd : DistributedDBNode} {msg : NetworkMessage} {o : Outcome}
    (htype : msg.type = .centralWfgReportFromZone) (h : nd.processMessage E msg = some o) :
    OfTypes [.deadlockReportToClient] o.sent := by
  rw [processMessage, htype] at h
  simp only [handleCentralWFGReportFromZone] at h
  split_ifs at h
  · obtain ⟨global, -, rfl⟩ := Option.map_eq_some_iff.1 h
    rw [sent_sends]
    exact ofTypes_reportToClientMsg _ _ (by decide) _ _ _
  all_goals cases h; exact ofTypes_nil

theorem handleAll_types {nd : DistributedDBNode} {msgs : List (Env × NetworkMessage)} {sent : List NetworkMessage}
    (htypes : ∀ m ∈ msgs.map Prod.snd, m.type = .centralWfgReportFromZone) (h : handleAll nd msgs = some sent) :
    OfTypes [.deadlockReportToClient] sent := by
  induction msgs generalizing nd sent with
  | nil => cases h; exact ofTypes_nil
  | cons input msgs ih =>
    obtain ⟨E, msg⟩ := input
    obtain ⟨o, ho, h⟩ := Option.bind_eq_some_iff.1 h
    obtain ⟨rest, hrest, h⟩ := Option.bind_eq_some_iff.1 h
    cases h
    exact ofTypes_append.2 ⟨processMessage_zoneReport_types (htypes msg List.mem_cons_self) ho,
      ih (fun m hm => htypes m (List.mem_cons_of_mem msg hm)) hrest⟩

variable {graphs : NodeId → WaitForGraph}

theorem Pass.handled_types (p : Pass graphs) : ∀ m ∈ p.handled.map Prod.snd, m.type = .centralWfgReportFromZone := by
  intro m hm
  obtain ⟨report, hreport, rfl⟩ := List.mem_map.1 (p.delivered.mem_iff.1 hm)
  obtain ⟨z, -, hz⟩ := List.mem_flatMap.1 hreport
  have htype : report.type = .centralWfgReportFromZone := by simpa using (List.mem_filter.1 hz).2
  rw [Network.transmit_type, htype, if_neg (by decide)]

theorem central_signals_nobody (p : Pass graphs) (v : TransactionId) (n : NodeId) : ¬ Signals p.centralSent v n :=
  not_signals_of_types (handleAll_types p.handled_types p.handles) (by decide) v n

/-- signals come from the leaders -/
theorem signals_sent_iff (p : Pass graphs) (v : TransactionId) (n : NodeId) :
    Signals p.sent v n ↔ ∃ z ∈ p.zones, Signals z.sent v n := by
  rw [Pass.sent, signals_append, or_iff_left (central_signals_nobody p v n)]
  simp only [Signals, List.mem_flatMap]
  refine ⟨?_, ?_⟩
  · rintro ⟨m, ⟨z, hz, hm⟩, hrest⟩; exact ⟨z, hz, m, hm, hrest⟩
  · rintro ⟨z, hz, m, hm, hrest⟩; exact ⟨m, ⟨z, hz, hm⟩, hrest⟩

theorem Zone.resolves (z : Zone graphs) : Resolves z.leader z.graph z.home z.sent :=
  resolves_checkAndResolveDeadlocksForZone z.homed z.resolved

/-- the graph of a zone is part of the union of all local graphs -/
theorem Pass.unionEdge_of_zone (p : Pass graphs) {z : Zone graphs} (hz : z ∈ p.zones) (u v : TransactionId)
    (huv : z.graph.Edge u v) : p.UnionEdge u v := by
  obtain ⟨n, hn, hedge⟩ := edge_unionOf.1 huv
  exact ⟨n, p.partition.mem_iff.1 (List.mem_flatMap.2 ⟨z, hz, hn⟩), hedge⟩

/-- **Two-level resolution.** Let `tms` be the managers of the nodes. A pass signals a transaction in the component of
every cycle of the union among active transactions exactly when every such cycle has in its component a cycle of one
zone's graph whose members are all active at that zone's leader. -/
theorem hierarchy_resolves_iff (p : Pass graphs) (tms : NodeId → TransactionManager) :
    (∀ c, IsCycle p.UnionEdge c → (∀ t ∈ c, ∃ n ∈ intRange 1 p.central.numNodes, t ∈ (tms n).activeTransactions) →
      ∃ v n, (∀ x ∈ c, SameComponent p.UnionEdge x v) ∧ Signals p.sent v n) ↔
    ∀ c, IsCycle p.UnionEdge c → (∀ t ∈ c, ∃ n ∈ intRange 1 p.central.numNodes, t ∈ (tms n).activeTransactions) →
      ∃ z ∈ p.zones, ∃ c', IsCycle z.graph.Edge c' ∧ (∀ x ∈ c, ∀ y ∈ c', SameComponent p.UnionEdge x y) ∧
        ∀ y ∈ c', y ∈ z.leader.transactionManager.activeTransactions := by
  refine forall_congr' fun c => imp_congr_right fun _ => imp_congr_right fun _ => ⟨?_, ?_⟩
  · intro hsignal
    obtain ⟨v, n, hcomp, hsig⟩ := hsignal
    obtain ⟨z, hz, hsig⟩ := (signals_sent_iff p v n).1 hsig
    obtain ⟨c', hc', hv, hactive⟩ := z.resolves.exists_cycle hsig
    have hsub : IsCycle p.UnionEdge c' := hc'.mono (p.unionEdge_of_zone hz)
    have hsame : ∀ x ∈ c, ∀ y ∈ c', SameComponent p.UnionEdge x y := by
      intro x hx y hy
      calc
        SameComponent p.UnionEdge x v := hcomp x hx
        SameComponent p.UnionEdge v y := hsub.sameComponent hv hy
    exact ⟨z, hz, c', hc', hsame, hactive⟩
  · intro hzone
    obtain ⟨z, hz, c', hc', hcomp, hactive⟩ := hzone
    obtain ⟨y, hy⟩ := hc'.exists_mem
    obtain ⟨-, -, v, -, hyv, hsig⟩ := z.resolves.exists_signal hc' hactive hy
    have hsame : ∀ x ∈ c, SameComponent p.UnionEdge x v := by
      intro x hx
      calc
        SameComponent p.UnionEdge x y := hcomp x hx y hy
        SameComponent p.UnionEdge y v := hyv.mono (p.unionEdge_of_zone hz)
    exact ⟨v, z.home v, hsame, (signals_sent_iff p v _).2 ⟨z, hz, hsig⟩⟩

/-- node 1 waits in its graph for what node 2 runs, and the other way round -/
def crossGraphs (n : NodeId) : WaitForGraph :=
  if n = 1 then pushAll ∅ [(1, 2)] else if n = 2 then pushAll ∅ [(2, 1)] else ∅

/-- node n of a cluster of two, after it has begun `count` transactions -/
def leader (n : NodeId) (count : ℕ) : DistributedDBNode :=
  { DistributedDBNode.init n 2 0 with transactionManager := begun n count }

/-- the zone of node 1, where the first transaction runs -/
def zoneOne : Zone crossGraphs where
  env := .quiet
  leader := leader 1 1
  members := [1]
  home := fun _ => 1
  homed := homed_begun (by decide) 1
  result := (checkAndResolveDeadlocksForZone .quiet (leader 1 1) 1 (unionOf .stored crossGraphs [1])).get rfl
  resolved := (Option.some_get _).symm

/-- the zone of node 2, where the second transaction runs -/
def zoneTwo : Zone crossGraphs where
  env := .quiet
  leader := leader 2 2
  members := [2]
  home := fun _ => 2
  homed := homed_begun (by decide) 2
  result := (checkAndResolveDeadlocksForZone .quiet (leader 2 2) 2 (unionOf .stored crossGraphs [2])).get rfl
  resolved := (Option.some_get _).symm

/-- each zone sees one edge of the cycle; the central node is told of the second zone's -/
def crossPass : Pass crossGraphs where
  zones := [zoneOne, zoneTwo]
  central := leader 1 1
  isCentral := rfl
  partition := .refl _
  hash := .stored
  raw := Env.quiet.raw
  handled := zoneTwo.reports.map fun m => (.quiet, Network.transmit .stored Env.quiet.raw m)
  delivered := .refl _
  centralSent := (handleAll (leader 1 1)
    (zoneTwo.reports.map fun m => (.quiet, Network.transmit .stored Env.quiet.raw m))).get rfl
  handles := (Option.some_get _).symm

theorem crossPass_unresolved : ¬ ∀ graphs (p : Pass graphs) (tms : NodeId → TransactionManager) c,
    IsCycle p.UnionEdge c → (∀ t ∈ c, ∃ n ∈ intRange 1 p.central.numNodes, t ∈ (tms n).activeTransactions) →
    ∃ v n, (∀ x ∈ c, SameComponent p.UnionEdge x v) ∧ Signals p.sent v n := by
  intro hall
  have h12 : crossPass.UnionEdge 1 2 := ⟨1, by decide, by decide⟩
  have h21 : crossPass.UnionEdge 2 1 := ⟨2, by decide, by decide⟩
  have hcycle : IsCycle crossPass.UnionEdge [1, 2] := ⟨by decide, by decide, by simpa using h12, h21⟩
  obtain ⟨v, n, -, m, hm, htype, -⟩ := hall crossGraphs crossPass (fun n => begun n (if n = 2 then 2 else 1))
    [1, 2] hcycle (by decide)
  have hnone : ∀ m ∈ crossPass.sent, m.type ≠ .abortTransactionSignal := by decide
  exact hnone m hm htype

end Hierarchy

end HawkTxn
