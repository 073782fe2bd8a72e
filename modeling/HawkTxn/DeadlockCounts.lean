/-
Deadlock counts and the cycles they stand for.

A zone leader reports the cycles it found to the central node with their number, the central node adds the numbers up
and tells the client at the end of a round, and when asked. Cycles and numbers are separate fields: a leader with
nothing left of its graph sends a report whose number it has not set, and the number the client is told is that of the
central search alone while the cycles are those of the zones too.

Results:
- `reportsRight_step`: a step keeps the reports right exactly if it sets its number and leaves no zone's cycles out;
- `counts_right_iff`: all numbers are right exactly in the runs of such steps;
- `rounds_disjoint`: a cycle the central search counts is none that a report of the round carried, provided no carried
  cycle is a cycle of the merged graph; a carried cycle with no edge leading off it is always counted again;
- `carried_isCycle`: what a zone leader reports are cycles of the graph it sends along.
-/
import HawkTxn.Resolution
import HawkTxn.Network.Codec

namespace HawkTxn

open HawkTxn.Core UnorderedMap

namespace DeadlockCounts

open DistributedDBNode Resolution

/-! ## Model -/

/-- the central node, what it and the zone leaders have sent, and the zone reports it has handled -/
structure Tally where
  central : DistributedDBNode
  sent : List NetworkMessage
  handled : List NetworkMessage

inductive Act : Type 1 where
  /-- a node checks a graph as the leader of a zone -/
  | zoneCheck (E : Env) (leader : DistributedDBNode) (zoneLeaderId : NodeId) (graph : WaitForGraph)
  /-- the central node handles a zone report that was sent -/
  | zoneReport (E : Env) (H : HashOrder) (raw : RawScalars) (msg : NetworkMessage)
  | print (E : Env) (clientId : NodeId)

namespace Tally

def init (numNodes now : ℤ) : Tally := ⟨DistributedDBNode.init centralizedNodeId numNodes now, [], []⟩

def step (s : Tally) : Act → Option Tally
  | .zoneCheck E leader zoneLeaderId graph =>
    (leader.checkAndResolveDeadlocksForZone E zoneLeaderId graph).map fun res => { s with sent := s.sent ++ res.1 }
  | .zoneReport E H raw msg =>
    if msg ∈ s.sent ∧ msg.type = .centralWfgReportFromZone then
      (s.central.processMessage E (Network.transmit H raw msg)).map fun o =>
        ⟨o.node, s.sent ++ o.sent, s.handled ++ [Network.transmit H raw msg]⟩
    else none
  | .print E clientId =>
    let o := s.central.handleClientPrintDeadlockRequest E clientId
    some { s with central := o.node, sent := s.sent ++ o.sent }

end Tally

/-- a report with cycles and their number, to the central node or to a client -/
def reportTypes : List NetworkMessageType := [.centralWfgReportFromZone, .deadlockReportToClient]

/-- the number of cycles of a report is the number it gives -/
def CountRight (msg : NetworkMessage) : Prop :=
  msg.type ∈ reportTypes → msg.deadlockCount = msg.detectedCycles.length

/-- how many cycles the reports carry -/
def cyclesIn (msgs : List NetworkMessage) : ℤ := (msgs.map fun msg => (msg.detectedCycles.length : ℤ)).sum

namespace Tally

/-- every report that was sent gives its number of cycles -/
def ReportsRight (s : Tally) : Prop := ∀ msg ∈ s.sent, CountRight msg

/-- ... and the total from the zones is the number of cycles of the reports handled -/
structure Right (s : Tally) : Prop where
  reports : s.ReportsRight
  total : s.central.totalDeadlocksFromZones = cyclesIn s.handled

/-- what is left of a graph among the transactions active at its leader -/
def prunedAt (E : Env) (leader : DistributedDBNode) (graph : WaitForGraph) : WaitForGraph :=
  WaitForGraph.pruneActive E.hash (leader.transactionManager.getActiveTransactions E.hash) graph

/-- a leader that reports nothing left of its graph happens to report the number 0; no zone has reported a cycle in the
round when the client is told the number -/
def SetsCount (s : Tally) : Act → Prop
  | .zoneCheck E leader zoneLeaderId graph => E.mode = .hawk → zoneLeaderId ≠ centralizedNodeId →
      (prunedAt E leader graph).entries = [] → E.raw.deadlockCount = 0
  | .zoneReport _ _ _ msg => s.central.numNodes ≤ s.central.centralWfgReportsReceived + 1 →
      s.central.centralDetectedCycles = [] ∧ msg.detectedCycles = []
  | .print _ _ => s.central.centralDetectedCycles = []

end Tally

/-! ## What a step sends -/

theorem countRight_of_type {msg : NetworkMessage} (h : msg.type ∉ reportTypes) : CountRight msg :=
  fun hmem => absurd hmem h

theorem countRight_iff {msg : NetworkMessage} (h : msg.type ∈ reportTypes) :
    CountRight msg ↔ msg.deadlockCount = msg.detectedCycles.length := ⟨fun hright => hright h, fun hright _ => hright⟩

theorem type_resolveCycles {E : Env} {nd : DistributedDBNode} {frequency : UnorderedMap TransactionId ℤ}
    {cycles : List (List TransactionId)} {msg : NetworkMessage} (h : msg ∈ (resolveCycles E nd frequency cycles).1) :
    msg.type = .abortTransactionSignal :=
  List.mem_singleton.1 (ofTypes_resolveCycles E nd frequency cycles (List.mem_singleton_self _) msg h)

theorem countRight_resolveCycles (E : Env) (nd : DistributedDBNode) (frequency : UnorderedMap TransactionId ℤ)
    (cycles : List (List TransactionId)) : ∀ msg ∈ (resolveCycles E nd frequency cycles).1, CountRight msg := by
  intro msg hmsg
  exact countRight_of_type (by rw [type_resolveCycles hmsg]; decide)

/-- a leader's report is right unless nothing was left of its graph and its number was not set -/
theorem countRight_zoneCheck {E : Env} {leader : DistributedDBNode} {zoneLeaderId : NodeId} {graph : WaitForGraph}
    {res : List NetworkMessage × Bool} (h : leader.checkAndResolveDeadlocksForZone E zoneLeaderId graph = some res) :
    (∀ msg ∈ res.1, CountRight msg) ↔ (E.mode = .hawk → zoneLeaderId ≠ centralizedNodeId →
      (Tally.prunedAt E leader graph).entries = [] → E.raw.deadlockCount = 0) := by
  unfold checkAndResolveDeadlocksForZone pruneAndResolve at h
  simp only at h
  by_cases hp : (Tally.prunedAt E leader graph).entries = []
  · have hempty := hp
    unfold Tally.prunedAt at hempty
    rw [if_pos hempty] at h
    cases h
    by_cases hreports : E.mode = .hawk ∧ zoneLeaderId ≠ centralizedNodeId
    · simp only [if_pos hreports, List.forall_mem_singleton]
      rw [countRight_iff (by simp [requestMsg, reportTypes])]
      exact ⟨fun hcount _ _ _ => hcount, fun hcount => hcount hreports.1 hreports.2 hp⟩
    · simp only [if_neg hreports, List.not_mem_nil]
      exact ⟨fun _ hmode hleader => absurd ⟨hmode, hleader⟩ hreports, fun _ msg hmsg => absurd hmsg id⟩
  · have hleft := hp
    unfold Tally.prunedAt at hleft
    rw [if_neg hleft] at h
    obtain ⟨⟨cycles, frequency⟩, -, h⟩ := Option.bind_eq_some_iff.1 h
    refine iff_of_true ?_ fun _ _ hnil => absurd hnil hp
    have hsignals := countRight_resolveCycles E leader frequency cycles
    intro msg hmsg
    cases h
    split_ifs at hmsg with hthrew hreports
    · exact hsignals msg hmsg
    · rcases List.mem_append.1 hmsg with hmsg | hmsg
      · exact hsignals msg hmsg
      · rw [List.mem_singleton.1 hmsg]
        exact fun _ => rfl
    · rw [List.append_nil] at hmsg
      exact hsignals msg hmsg

/-- the cycles of a report and their number survive the wire -/
theorem transmit_zoneReport (H : HashOrder) (raw : RawScalars) {msg : NetworkMessage}
    (htype : msg.type = .centralWfgReportFromZone) : (Network.transmit H raw msg).type = .centralWfgReportFromZone ∧
      (Network.transmit H raw msg).wfgDataPairs = msg.wfgDataPairs ∧
      (Network.transmit H raw msg).detectedCycles = msg.detectedCycles ∧
      (Network.transmit H raw msg).deadlockCount = msg.deadlockCount := by
  have hsame := Network.samePayload_transmit H raw msg
  rw [Network.SamePayload, htype] at hsame
  refine ⟨?_, hsame⟩
  rw [Network.transmit_type, htype, if_neg (by decide)]

/-- what the central node does with a zone report: it adds the report, and a report that completes the round starts the
search of the merged graph -/
theorem zoneReport_cases {E : Env} {H : HashOrder} {raw : RawScalars} {nd : DistributedDBNode} {msg : NetworkMessage}
    {o : Outcome} (hcentral : nd.isCentralizedNode = true) (htype : msg.type = .centralWfgReportFromZone)
    (h : nd.processMessage E (Network.transmit H raw msg) = some o) :
    let nd' := nd.addZoneReport msg.wfgDataPairs msg.detectedCycles msg.deadlockCount
    (nd.numNodes ≤ nd.centralWfgReportsReceived + 1 ∧ ∃ cycles frequency,
      DeadlockDetector.findCycles E.hash E.fuel nd'.centralAggregatedWfg = some (cycles, frequency) ∧
      o = (nd'.clearZoneReports cycles.length).sends [reportToClientMsg E nd' 0 (nd'.centralDetectedCycles ++ cycles)
        (nd'.centralDeadlockCount + cycles.length)] false) ∨
    (¬ nd.numNodes ≤ nd.centralWfgReportsReceived + 1 ∧ o = nd'.idle) := by
  intro nd'
  obtain ⟨htype', hpairs, hcycles, hcount⟩ := transmit_zoneReport H raw htype
  rw [processMessage, htype'] at h
  simp only [hpairs, hcycles, hcount, handleCentralWFGReportFromZone, if_pos hcentral] at h
  by_cases hround : nd.numNodes ≤ nd.centralWfgReportsReceived + 1
  · have hthreshold : nd'.numNodes ≤ nd'.centralWfgReportsReceived := hround
    rw [if_pos hthreshold] at h
    obtain ⟨⟨cycles, frequency⟩, hfound, rfl⟩ := Option.map_eq_some_iff.1 h
    exact Or.inl ⟨hround, cycles, frequency, hfound, rfl⟩
  · have hthreshold : ¬ nd'.numNodes ≤ nd'.centralWfgReportsReceived := hround
    rw [if_neg hthreshold] at h
    exact Or.inr ⟨hround, (Option.some.inj h).symm⟩

/-! ## Runs -/

namespace Tally

variable {s t : Tally}

/-- what holds of the central node in every run -/
structure Inv (s : Tally) : Prop where
  isCentral : s.central.isCentralizedNode = true
  /-- the number is set and reset within one step -/
  count : s.central.centralDeadlockCount = 0
  total : s.ReportsRight → s.central.totalDeadlocksFromZones = cyclesIn s.handled

theorem inv_init (numNodes now : ℤ) : Inv (init numNodes now) := ⟨rfl, rfl, fun _ => rfl⟩

theorem reportsRight_append {central : DistributedDBNode} {sent sent' handled : List NetworkMessage} :
    ReportsRight ⟨central, sent ++ sent', handled⟩ ↔
      (∀ msg ∈ sent, CountRight msg) ∧ ∀ msg ∈ sent', CountRight msg := List.forall_mem_append

theorem cyclesIn_append (msgs : List NetworkMessage) (msg : NetworkMessage) :
    cyclesIn (msgs ++ [msg]) = cyclesIn msgs + msg.detectedCycles.length := by
  simp [cyclesIn]

theorem step_zoneReport {E : Env} {H : HashOrder} {raw : RawScalars} {msg : NetworkMessage}
    (h : s.step (.zoneReport E H raw msg) = some t) : ∃ o, msg ∈ s.sent ∧ msg.type = .centralWfgReportFromZone ∧
      s.central.processMessage E (Network.transmit H raw msg) = some o ∧
      t = ⟨o.node, s.sent ++ o.sent, s.handled ++ [Network.transmit H raw msg]⟩ := by
  simp only [step] at h
  split_ifs at h with hsent
  obtain ⟨o, ho, rfl⟩ := Option.map_eq_some_iff.1 h
  exact ⟨o, hsent.1, hsent.2, ho, rfl⟩

theorem step_inv {a : Act} (hinv : Inv s) (h : s.step a = some t) : Inv t := by
  cases a with
  | zoneCheck E leader z graph =>
    obtain ⟨res, -, rfl⟩ := Option.map_eq_some_iff.1 h
    exact ⟨hinv.isCentral, hinv.count, fun hright => hinv.total (reportsRight_append.1 hright).1⟩
  | print E clientId =>
    cases h
    have hnode := (onlySends_handleClientPrintDeadlockRequest E s.central clientId).node
    refine ⟨by rw [hnode]; exact hinv.isCentral, by rw [hnode]; exact hinv.count, fun hright => ?_⟩
    rw [hnode]
    exact hinv.total (reportsRight_append.1 hright).1
  | zoneReport E H raw msg =>
    obtain ⟨o, hmem, htype, ho, rfl⟩ := step_zoneReport h
    -- whether or not the round ends, the report's number is added and no other total of the zones changes
    have htotal : o.node.totalDeadlocksFromZones = s.central.totalDeadlocksFromZones + msg.deadlockCount ∧
        o.node.isCentralizedNode = s.central.isCentralizedNode ∧ o.node.centralDeadlockCount = 0 := by
      rcases zoneReport_cases hinv.isCentral htype ho with ⟨-, cycles, frequency, -, rfl⟩ | ⟨-, rfl⟩
      · exact ⟨rfl, rfl, rfl⟩
      · exact ⟨rfl, rfl, hinv.count⟩
    refine ⟨htotal.2.1.trans hinv.isCentral, htotal.2.2, fun hright => ?_⟩
    have hbefore : s.ReportsRight := (reportsRight_append.1 hright).1
    have hcount : msg.deadlockCount = msg.detectedCycles.length := hbefore msg hmem (by rw [htype]; decide)
    rw [htotal.1, hinv.total hbefore, hcount, cyclesIn_append, (transmit_zoneReport H raw htype).2.2.1]

theorem countRight_reportToClient {E : Env} {nd : DistributedDBNode} {clientId : NodeId}
    {cycles : List (List TransactionId)} {count : ℤ} :
    (∀ msg ∈ [reportToClientMsg E nd clientId cycles count], CountRight msg) ↔ count = cycles.length := by
  rw [List.forall_mem_singleton, countRight_iff (by simp [reportToClientMsg, reportTypes])]
  exact Iff.rfl

/-- a step sends right reports exactly if it sets its number and leaves no zone's cycles out -/
theorem reportsRight_step {a : Act} (hinv : Inv s) (h : s.step a = some t) :
    t.ReportsRight ↔ s.ReportsRight ∧ s.SetsCount a := by
  cases a with
  | zoneCheck E leader z graph =>
    obtain ⟨res, hres, rfl⟩ := Option.map_eq_some_iff.1 h
    rw [reportsRight_append]
    exact and_congr_right fun _ => countRight_zoneCheck hres
  | print E clientId =>
    cases h
    rw [reportsRight_append]
    refine and_congr_right fun _ => ?_
    rw [handleClientPrintDeadlockRequest, if_pos hinv.isCentral, sent_sends, countRight_reportToClient, hinv.count]
    simp [SetsCount, eq_comm]
  | zoneReport E H raw msg =>
    obtain ⟨o, -, htype, ho, rfl⟩ := step_zoneReport h
    rw [reportsRight_append]
    refine and_congr_right fun _ => ?_
    rcases zoneReport_cases hinv.isCentral htype ho with ⟨hround, cycles, frequency, -, rfl⟩ | ⟨hround, rfl⟩
    · -- the client is told the number of the cycles found centrally
      rw [sent_sends, countRight_reportToClient]
      simp only [addZoneReport, hinv.count, zero_add, List.length_append, Nat.cast_add, SetsCount, hround,
        forall_const]
      rw [← List.length_eq_zero_iff, ← List.length_eq_zero_iff]
      omega
    · simp [SetsCount, hround]

theorem inv_of_reaches {ok : Tally → Act → Prop} {numNodes now : ℤ} (h : ReachesBy step ok (init numNodes now) s) :
    Inv s := h.invariant (inv_init numNodes now) fun _ _ _ hinv _ hst => step_inv hinv hst

/-- **Counts.** In every run of zone checks, zone reports and print requests, all reports give their number of cycles
and the total from the zones is the number of cycles reported, exactly if every step sets its number and leaves no
zone's cycles out. -/
theorem counts_right_iff {numNodes now : ℤ} (h : Reaches step (init numNodes now) s) :
    Right s ↔ ReachesBy step SetsCount (init numNodes now) s := by
  refine ⟨?_, ?_⟩
  · intro hright
    have hreports := hright.reports
    clear hright
    induction h with
    | start => exact .start
    | next hs _ hst ih =>
      obtain ⟨hbefore, hsets⟩ := (reportsRight_step (inv_of_reaches hs) hst).1 hreports
      exact .next (ih hbefore) hsets hst
  · intro hsets
    have hreports : s.ReportsRight := by
      have hrun := hsets.invariant (P := fun s => Inv s ∧ s.ReportsRight)
        ⟨inv_init numNodes now, fun msg hmsg => absurd hmsg List.not_mem_nil⟩
        fun s a t hs hok hst => ⟨step_inv hs.1 hst, (reportsRight_step hs.1 hst).2 ⟨hs.2, hok⟩⟩
      exact hrun.2
    exact ⟨hreports, (inv_of_reaches h).total hreports⟩

/-- node 2 of a cluster of three, with two active transactions -/
def leaderTwo : DistributedDBNode := { DistributedDBNode.init 2 3 0 with transactionManager := begun 2 2 }

/-- node 2 checks a graph, and the central node handles the report it sends last -/
theorem reaches_checkAndReport {E : Env} {graph : WaitForGraph} {res : List NetworkMessage × Bool}
    {msg : NetworkMessage} {o : Outcome} (hcheck : leaderTwo.checkAndResolveDeadlocksForZone E 2 graph = some res)
    (hlast : res.1.getLast? = some msg) (htype : msg.type = .centralWfgReportFromZone)
    (ho : (init 3 0).central.processMessage .quiet (Network.transmit .stored Env.quiet.raw msg) = some o) :
    Reaches step (init 3 0) ⟨o.node, res.1 ++ o.sent, [Network.transmit .stored Env.quiet.raw msg]⟩ := by
  have hfirst : (init 3 0).step (.zoneCheck E leaderTwo 2 graph) = some ⟨(init 3 0).central, res.1, []⟩ :=
    Option.map_eq_some_iff.2 ⟨res, hcheck, rfl⟩
  have hsecond : step ⟨(init 3 0).central, res.1, []⟩ (.zoneReport .quiet .stored Env.quiet.raw msg) =
      some ⟨o.node, res.1 ++ o.sent, [Network.transmit .stored Env.quiet.raw msg]⟩ := by
    simp only [step]
    rw [if_pos ⟨List.mem_of_getLast? hlast, htype⟩, ho]
    rfl
  exact .next (.next .start trivial hfirst) trivial hsecond

/-- two transactions wait for each other -/
def cycleSent : List NetworkMessage × Bool := (leaderTwo.checkAndResolveDeadlocksForZone .quiet 2 mutualWait).get rfl

def cycleReport : NetworkMessage := cycleSent.1.getLast (by decide)

def cycleHandled : Outcome :=
  ((init 3 0).central.processMessage .quiet (Network.transmit .stored Env.quiet.raw cycleReport)).get rfl

def cycleReported : Tally :=
  ⟨cycleHandled.node, cycleSent.1 ++ cycleHandled.sent, [Network.transmit .stored Env.quiet.raw cycleReport]⟩

theorem counts_right_iff_cycleReported : cycleReported.central.totalDeadlocksFromZones = 1 ∧
    (Right cycleReported ↔ ReachesBy step SetsCount (init 3 0) cycleReported) := by
  refine ⟨rfl, ?_⟩
  have hrun : Reaches step (init 3 0) cycleReported :=
    reaches_checkAndReport (Option.some_get _).symm (List.getLast?_eq_some_getLast _) rfl (Option.some_get _).symm
  exact counts_right_iff hrun

/-- the stack slot of the unset number happens to hold 7 -/
def sevenInMemory : Env := { Env.quiet with raw := { Env.quiet.raw with deadlockCount := 7 } }

def nothingSent : List NetworkMessage × Bool := (leaderTwo.checkAndResolveDeadlocksForZone sevenInMemory 2 ∅).get rfl

def nothingReport : NetworkMessage := nothingSent.1.getLast (by decide)

def nothingHandled : Outcome :=
  ((init 3 0).central.processMessage .quiet (Network.transmit .stored Env.quiet.raw nothingReport)).get rfl

def nothingReported : Tally :=
  ⟨nothingHandled.node, nothingSent.1 ++ nothingHandled.sent, [Network.transmit .stored Env.quiet.raw nothingReport]⟩

/-- of a graph with nothing left of it the central node counts seven deadlocks -/
theorem nothingSent_miscounts : nothingReported.central.totalDeadlocksFromZones = 7 ∧
    cyclesIn nothingReported.handled = 0 ∧ ¬ ∀ numNodes now s, Reaches step (init numNodes now) s → Right s := by
  have hcounted : nothingReported.central.totalDeadlocksFromZones = 7 := rfl
  have hcarried : cyclesIn nothingReported.handled = 0 := rfl
  refine ⟨hcounted, hcarried, fun h => ?_⟩
  have hrun : Reaches step (init 3 0) nothingReported :=
    reaches_checkAndReport (Option.some_get _).symm (List.getLast?_eq_some_getLast _) rfl (Option.some_get _).symm
  have htotal := (h 3 0 nothingReported hrun).total
  rw [hcounted, hcarried] at htotal
  exact absurd htotal (by decide)

end Tally

/-! ## Rounds of the central search -/

/-- a round of the central node: the zone reports it handled, and the cycles its search of the merged graph added to
the central total -/
structure Round where
  reports : List NetworkMessage
  global : List (List TransactionId)

namespace Round

/-- the cycles the zones have counted -/
def counted (r : Round) : List (List TransactionId) := r.reports.flatMap (·.detectedCycles)

def merged (r : Round) : WaitForGraph := WaitForGraph.mergeReports (r.reports.map (·.wfgDataPairs))

/-- no cycle counted centrally is one counted by a zone already -/
def Disjoint (r : Round) : Prop := ∀ g ∈ r.global, ∀ c ∈ r.counted, ¬ g ~r c

/-- no edge of the graph leads off the cycle -/
def Lone (r : Round) (c : List TransactionId) : Prop :=
  ∀ x ∈ c, ∀ y z, r.merged.Edge x y → r.merged.Edge x z → y = z

end Round

/-- the central node, the zone reports of its current round and the rounds before -/
structure Rounds where
  central : DistributedDBNode
  current : List NetworkMessage
  past : List Round

namespace Rounds

def init (numNodes now : ℤ) : Rounds := ⟨DistributedDBNode.init centralizedNodeId numNodes now, [], []⟩

/-- the cycles found by the search that a zone report starts, if it completes its round -/
def globalSearch (E : Env) (nd : DistributedDBNode) (msg : NetworkMessage) : Option (List (List TransactionId)) :=
  let nd := nd.addZoneReport msg.wfgDataPairs msg.detectedCycles msg.deadlockCount
  if nd.numNodes ≤ nd.centralWfgReportsReceived then
    (DeadlockDetector.findCycles E.hash E.fuel nd.centralAggregatedWfg).map Prod.fst
  else none

/-- the central node handles a zone report with any content -/
def step (s : Rounds) (i : Env × NetworkMessage) : Option Rounds :=
  if i.2.type = .centralWfgReportFromZone then
    (s.central.processMessage i.1 i.2).map fun o =>
      match globalSearch i.1 s.central i.2 with
      | none => ⟨o.node, s.current ++ [i.2], s.past⟩
      | some global => ⟨o.node, [], s.past ++ [⟨s.current ++ [i.2], global⟩]⟩
  else none

/-- the ids in the report's graph have been handed out, from 1 on -/
def PositiveIds (msg : NetworkMessage) : Prop := ∀ p ∈ msg.wfgDataPairs, ∀ v ∈ p.2, 0 < v

instance (msg : NetworkMessage) : Decidable (PositiveIds msg) :=
  inferInstanceAs (Decidable (∀ p ∈ msg.wfgDataPairs, ∀ v ∈ p.2, 0 < v))

/-- if the report completes the round, no cycle that a report of the round carries is one of the merged graph -/
def CarriesNone (s : Rounds) (i : Env × NetworkMessage) : Prop :=
  s.central.numNodes ≤ s.central.centralWfgReportsReceived + 1 →
    ∀ c ∈ Round.counted ⟨s.current ++ [i.2], []⟩, ¬ IsCycle (Round.merged ⟨s.current ++ [i.2], []⟩).Edge c

/-- what the fields of the central node have to do with the reports it has handled -/
structure Inv (s : Rounds) : Prop where
  isCentral : s.central.isCentralizedNode = true
  merged : s.central.centralAggregatedWfg = WaitForGraph.mergeReports (s.current.map (·.wfgDataPairs))
  cycles : s.central.centralDetectedCycles = s.current.flatMap (·.detectedCycles)
  /-- the central total is the number of cycles found in past rounds -/
  total : s.central.totalDeadlocksFromCentral = (s.past.map fun r => (r.global.length : ℤ)).sum
  positive : ∀ msg ∈ s.current, PositiveIds msg

theorem inv_init (numNodes now : ℤ) : Inv (init numNodes now) :=
  ⟨rfl, rfl, rfl, rfl, fun _ hmsg => absurd hmsg List.not_mem_nil⟩

theorem mergeReports_append (data : List WfgDataPairs) (d : WfgDataPairs) :
    WaitForGraph.mergeReports (data ++ [d]) = WaitForGraph.mergeWFG (WaitForGraph.mergeReports data) d := by
  simp [WaitForGraph.mergeReports]

/-- a step adds a report to the round, or ends the round with the cycles of the merged graph -/
theorem step_cases {s t : Rounds} {E : Env} {msg : NetworkMessage} (hinv : Inv s) (hpos : PositiveIds msg)
    (h : s.step (E, msg) = some t) : Inv t ∧
      ((¬ s.central.numNodes ≤ s.central.centralWfgReportsReceived + 1 ∧ t.past = s.past) ∨
        (s.central.numNodes ≤ s.central.centralWfgReportsReceived + 1 ∧ ∃ r : Round,
          t.past = s.past ++ [r] ∧ r.reports = s.current ++ [msg] ∧
          ∃ frequency, DeadlockDetector.findCycles E.hash E.fuel r.merged = some (r.global, frequency))) := by
  simp only [step] at h
  split_ifs at h with htype
  obtain ⟨o, ho, h⟩ := Option.map_eq_some_iff.1 h
  set nd := s.central.addZoneReport msg.wfgDataPairs msg.detectedCycles msg.deadlockCount with hnd
  have hmerged : nd.centralAggregatedWfg = WaitForGraph.mergeReports ((s.current ++ [msg]).map (·.wfgDataPairs)) := by
    rw [List.map_append, List.map_singleton, mergeReports_append, ← hinv.merged]
    rfl
  have hcycles : nd.centralDetectedCycles = (s.current ++ [msg]).flatMap (·.detectedCycles) := by
    rw [List.flatMap_append, List.flatMap_singleton, ← hinv.cycles]
    rfl
  have hpositive : ∀ m ∈ s.current ++ [msg], PositiveIds m := by
    intro m hm
    rcases List.mem_append.1 hm with hm | hm
    · exact hinv.positive m hm
    · rw [List.mem_singleton.1 hm]; exact hpos
  rw [processMessage, htype] at ho
  simp only [handleCentralWFGReportFromZone, if_pos hinv.isCentral, ← hnd] at ho
  by_cases hround : s.central.numNodes ≤ s.central.centralWfgReportsReceived + 1
  · have hthreshold : nd.numNodes ≤ nd.centralWfgReportsReceived := hround
    rw [if_pos hthreshold] at ho
    obtain ⟨⟨cycles, frequency⟩, hfound, rfl⟩ := Option.map_eq_some_iff.1 ho
    have hsearch : globalSearch E s.central msg = some cycles := by
      rw [globalSearch, if_pos hthreshold, ← hnd, hfound]
      rfl
    rw [hsearch] at h
    subst h
    refine ⟨⟨hinv.isCentral, rfl, rfl, ?_, fun _ hm => absurd hm List.not_mem_nil⟩, Or.inr ⟨hround, _, rfl, rfl,
      frequency, ?_⟩⟩
    · simp only [sends, clearZoneReports, List.map_append, List.map_singleton, List.sum_append, List.sum_singleton]
      rw [← hinv.total]
      rfl
    · rw [Round.merged, ← hmerged]
      exact hfound
  · have hthreshold : ¬ nd.numNodes ≤ nd.centralWfgReportsReceived := hround
    rw [if_neg hthreshold] at ho
    cases ho
    have hsearch : globalSearch E s.central msg = none := if_neg hthreshold
    rw [hsearch] at h
    subst h
    exact ⟨⟨hinv.isCentral, hmerged, hcycles, hinv.total, hpositive⟩, Or.inl ⟨hround, rfl⟩⟩

end Rounds

/-- a round that ended with a search of the graphs its reports brought -/
structure Round.Searched (r : Round) : Prop where
  positive : ∀ msg ∈ r.reports, Rounds.PositiveIds msg
  found : ∃ H fuel frequency, DeadlockDetector.findCycles H fuel r.merged = some (r.global, frequency)

namespace Round.Searched

variable {r : Round}

theorem pos (h : r.Searched) (u v : TransactionId) (huv : r.merged.Edge u v) : 0 < v := by
  obtain ⟨data, hdata, vs, hmem, hv⟩ := WaitForGraph.edge_mergeReports.1 huv
  obtain ⟨msg, hmsg, rfl⟩ := List.mem_map.1 hdata
  exact h.positive msg hmsg (u, vs) hmem v hv

/-- what the search counts are cycles of the merged graph -/
theorem isCycle (h : r.Searched) : ∀ g ∈ r.global, IsCycle r.merged.Edge g := by
  obtain ⟨H, fuel, frequency, hfound⟩ := h.found
  exact DeadlockDetector.findCycles_sound h.pos hfound

theorem disjoint (h : r.Searched) (hnone : ∀ c ∈ r.counted, ¬ IsCycle r.merged.Edge c) : r.Disjoint :=
  fun g hg c hc hrot => hnone c hc ((h.isCycle g hg).of_isRotated hrot)

/-- a lone cycle is found again, whatever the order of the search -/
theorem recounted (h : r.Searched) {c : List TransactionId} (hc : IsCycle r.merged.Edge c) (hlone : r.Lone c) :
    ∃ g ∈ r.global, g ~r c := by
  obtain ⟨H, fuel, frequency, hfound⟩ := h.found
  obtain ⟨x, hx⟩ := hc.exists_mem
  obtain ⟨g, hg, y, hyg, hyc⟩ := DeadlockDetector.findCycles_hits (C := {y | y ∈ c})
    (fun y hy => hc.exists_succ hy) hx hfound
  exact ⟨g, hg, hc.isRotated (h.isCycle g hg) hlone hyc hyg⟩

end Round.Searched

namespace Rounds

variable {s : Rounds} {numNodes now : ℤ}

/-- the rounds of a run have been searched, and end as the steps allow -/
theorem searched_of_reaches {ok : Rounds → Env × NetworkMessage → Prop} {P : Round → Prop}
    (hok : ∀ s i, ok s i → PositiveIds i.2)
    (hround : ∀ s i r, ok s i → s.central.numNodes ≤ s.central.centralWfgReportsReceived + 1 →
      r.reports = s.current ++ [i.2] → P r)
    (h : ReachesBy step ok (init numNodes now) s) : Inv s ∧ ∀ r ∈ s.past, r.Searched ∧ P r := by
  refine h.invariant (P := fun s => Inv s ∧ ∀ r ∈ s.past, r.Searched ∧ P r)
    ⟨inv_init numNodes now, fun _ hr => absurd hr List.not_mem_nil⟩ ?_
  intro s i t hs hi hst
  obtain ⟨E, msg⟩ := i
  obtain ⟨hinv, hpast⟩ := step_cases hs.1 (hok _ _ hi) hst
  refine ⟨hinv, ?_⟩
  rcases hpast with ⟨-, hpast⟩ | ⟨hends, r, hpast, hreports, frequency, hfound⟩
  · rw [hpast]; exact hs.2
  · rw [hpast]
    intro r' hr'
    rcases List.mem_append.1 hr' with hr' | hr'
    · exact hs.2 r' hr'
    · obtain rfl := List.mem_singleton.1 hr'
      have hpositive : ∀ m ∈ r'.reports, PositiveIds m := by
        intro m hm
        rw [hreports] at hm
        rcases List.mem_append.1 hm with hm | hm
        · exact hs.1.positive m hm
        · rw [List.mem_singleton.1 hm]; exact hok _ _ hi
      exact ⟨⟨hpositive, E.hash, E.fuel, frequency, hfound⟩, hround _ _ _ hi hends hreports⟩

/-- **Disjoint counts.** In a run in which no cycle that a report carries is one of the graph merged when its round
ends, no cycle counted by the central node has been counted by a zone in the same round. In any run a cycle that was
counted by a zone, is one of the merged graph and has no edge leading off it is counted again. -/
theorem rounds_disjoint (numNodes now : ℤ) :
    (∀ s, ReachesBy step (fun s i => PositiveIds i.2 ∧ CarriesNone s i) (init numNodes now) s →
      ∀ r ∈ s.past, r.Disjoint) ∧
    ∀ s, ReachesBy step (fun _ i => PositiveIds i.2) (init numNodes now) s → ∀ r ∈ s.past, ∀ c ∈ r.counted,
      IsCycle r.merged.Edge c → r.Lone c → ¬ r.Disjoint := by
  refine ⟨?_, ?_⟩
  · intro s h r hr
    have hrun := searched_of_reaches (P := fun r => ∀ c ∈ r.counted, ¬ IsCycle r.merged.Edge c)
      (fun _ _ hi => hi.1) (fun s i r hi hends hreports => ?_) h
    · exact (hrun.2 r hr).1.disjoint (hrun.2 r hr).2
    · intro c hc
      have hnone := hi.2 hends c
      rw [Round.counted, hreports] at hc
      rw [Round.merged, hreports]
      exact hnone hc
  · intro s h r hr c hc hcycle hlone hdisjoint
    have hrun := searched_of_reaches (P := fun _ => True) (fun _ _ hi => hi) (fun _ _ _ _ _ _ => trivial) h
    obtain ⟨g, hg, hrot⟩ := (hrun.2 r hr).1.recounted hcycle hlone
    exact hdisjoint g hg c hc hrot

/-- a report of one wait, and of no cycle, from the leader of the other zone of two -/
def waitReport (waiter holder : TransactionId) : NetworkMessage :=
  { Tally.cycleReport with wfgDataPairs := [(waiter, [holder])], detectedCycles := [], deadlockCount := 0 }

def waitReported : Rounds := (step (init 2 0) (.quiet, waitReport 1 2)).get rfl

/-- each zone has one of two waits that make a cycle -/
def crossingReported : Rounds := (step waitReported (.quiet, waitReport 2 1)).get rfl

theorem rounds_disjoint_crossingReported :
    crossingReported.past = [⟨[waitReport 1 2, waitReport 2 1], [[2, 1]]⟩] ∧
      ∀ r ∈ crossingReported.past, r.Disjoint := by
  have hcarriesNone : ∀ c ∈ Round.counted ⟨waitReported.current ++ [waitReport 2 1], []⟩, False :=
    fun _ hc => List.not_mem_nil hc
  have hfirst : ReachesBy step (fun s i => PositiveIds i.2 ∧ CarriesNone s i) (init 2 0) waitReported :=
    .next .start ⟨by decide, fun hends => absurd hends (by decide)⟩ (Option.some_get _).symm
  have hrun : ReachesBy step (fun s i => PositiveIds i.2 ∧ CarriesNone s i) (init 2 0) crossingReported :=
    .next hfirst ⟨by decide, fun _ c hc => (hcarriesNone c hc).elim⟩ (Option.some_get _).symm
  exact ⟨rfl, (rounds_disjoint 2 0).1 crossingReported hrun⟩

/-- node 2's report of two transactions that wait for each other, as it arrives -/
def mutualWaitReport : NetworkMessage := Network.transmit .stored Env.quiet.raw Tally.cycleReport

/-- in a cluster of two the leader of the other zone reports twice, and the round ends -/
def reportedTwice : Rounds := (run step (init 2 0) [(.quiet, mutualWaitReport), (.quiet, mutualWaitReport)]).get rfl

/-- the deadlock of the zone is found again in the merged graph -/
theorem reportedTwice_recounted : ¬ ∀ numNodes now s,
    ReachesBy step (fun _ i => PositiveIds i.2) (init numNodes now) s → ∀ r ∈ s.past, r.Disjoint := by
  intro h
  have hrun : run step (init 2 0) [(.quiet, mutualWaitReport), (.quiet, mutualWaitReport)] = some reportedTwice := rfl
  have hpositive : PositiveIds mutualWaitReport := by decide
  have hreaches : ReachesBy step (fun _ i => PositiveIds i.2) (init 2 0) reportedTwice := by
    have hkind : ∀ i ∈ [(Env.quiet, mutualWaitReport), (.quiet, mutualWaitReport)],
        (fun i : Env × NetworkMessage => PositiveIds i.2) i := by
      intro i hi
      rw [List.eq_of_mem_replicate (n := 2) hi]
      exact hpositive
    exact (ReachesBy.of_run_of_forall hkind hrun).mono fun _ _ hi => hi.1
  have hround : (⟨[mutualWaitReport, mutualWaitReport], [[2, 1], [2, 1]]⟩ : Round) ∈ reportedTwice.past := by
    have hpast : reportedTwice.past = [⟨[mutualWaitReport, mutualWaitReport], [[2, 1], [2, 1]]⟩] := rfl
    rw [hpast]
    exact List.mem_singleton_self _
  have hdisjoint := h 2 0 reportedTwice hreaches _ hround [2, 1] (by decide) [1, 2] (by decide)
  exact hdisjoint ⟨1, rfl⟩

end Rounds

/-! ## The reports of zone leaders -/

/-- **Carried cycles.** The cycles a zone leader reports are cycles of the graph it sends along, so they are cycles of
any graph the report is merged into. -/
theorem carried_isCycle {E : Env} {leader : DistributedDBNode} {zoneLeaderId : NodeId} {graph : WaitForGraph}
    {home : TransactionId → NodeId} {res : List NetworkMessage × Bool} {msg : NetworkMessage} {r : Round}
    (hhome : leader.transactionManager.Homed home)
    (h : leader.checkAndResolveDeadlocksForZone E zoneLeaderId graph = some res) (hmsg : msg ∈ res.1)
    (htype : msg.type = .centralWfgReportFromZone) (hr : msg ∈ r.reports) :
    ∀ c ∈ msg.detectedCycles, IsCycle r.merged.Edge c := by
  unfold checkAndResolveDeadlocksForZone at h
  obtain ⟨-, hcases⟩ := pruneAndResolve_cases h
  rcases hcases with ⟨-, hsent⟩ | ⟨cycles, frequency, hfound, hsent⟩
  · -- nothing was left of the graph and the report carries no cycle
    rw [hsent] at hmsg
    split_ifs at hmsg
    · rw [List.mem_singleton.1 hmsg]
      intro c hc
      exact absurd hc List.not_mem_nil
    · exact absurd hmsg List.not_mem_nil
  · rw [hsent] at hmsg
    rcases List.mem_append.1 hmsg with hmsg | hmsg
    · rw [type_resolveCycles hmsg] at htype
      cases htype
    · split_ifs at hmsg
      · have hsound := DeadlockDetector.findCycles_sound (pos_pruned hhome) hfound
        obtain rfl := List.mem_singleton.1 hmsg
        intro c hc
        refine (hsound c hc).mono fun u v huv => WaitForGraph.edge_mergeReports.2 ?_
        exact ⟨_, List.mem_map_of_mem hr, WaitForGraph.edge_convert.2 huv⟩
      · exact absurd hmsg List.not_mem_nil

end DeadlockCounts

end HawkTxn
