/-
What never happens in a cluster (`DistributedDBNode.cpp`, `Network.cpp`).

A node has no stub to itself, and a request for edges of the predicted access graph is encoded without its type; zones
start as the nodes themselves. So reports for a zone, probes for a holder and signals for a victim, which all stay at
one node, get lost, and no zones are ever cut. Whatever the mode and whatever clients ask, detection and resolution do
not start, lock requests stay unanswered, and the transactions of a node are left to its own loops.

Results:
- `step_untouched`: what an event of a node leaves and sends;
- `nothing_detected`: the messages that can be in flight, and what a node still is like;
- `polls_of_reaches`: what the managers of the nodes go through;
- `blocked_forever`, `leaves_locked`, `deadlock_permanent`.
-/
import HawkTxn.TreeAdjustment
import HawkTxn.Polling

namespace HawkTxn

open HawkTxn.Core UnorderedMap
open DistributedDBNode (Event)

namespace Network

/-- a message from a node goes to another node of the cluster, and is no request for edges -/
theorem mem_pushed_connected {H : HashOrder} {raw : RawScalars} {nd : DistributedDBNode} {msg : NetworkMessage}
    {p : NodeId × NetworkMessage} (h : p ∈ pushed .listed H raw (Delivery.connected nd) msg) :
    p.1 = msg.receiverId ∧ p.1 ∈ intRange 1 nd.numNodes ∧ p.1 ≠ nd.nodeId ∧ p.2 = transmit H raw msg ∧
      msg.type ≠ .pagRequest := by
  obtain ⟨d, hd, hserve⟩ := Option.bind_eq_some_iff.1 (Option.mem_toList.1 h)
  cases hserve
  unfold sendMessage at hd
  split_ifs at hd with hzero hclient
  · cases hclient
  obtain ⟨stub, hstub, hd⟩ := Option.bind_eq_some_iff.1 hd
  obtain ⟨rpc, hrpc, hd⟩ := Option.bind_eq_some_iff.1 hd
  cases hd
  rw [Delivery.connected, lookup_connectToPeers] at hstub
  split_ifs at hstub with hpeer
  cases hstub
  refine ⟨rfl, hpeer.1, hpeer.2, rfl, ?_⟩
  intro htype
  rw [Delivery.convertToProtoMessage_type, htype] at hrpc
  cases hrpc

end Network

namespace DistributedDBNode

/-- the operation of the manager that a round of the polling or workload loop is -/
def Event.poll : Event → Option TransactionManager.Op
  | .beginTransaction E draws => some (.beginTransaction E draws)
  | .tpccArrival E => some (.tpccArrival E)
  | .tryExecuteNextSQLStatement E t => some (.tryExecuteNextSQLStatement E t)
  | _ => none

theorem polls_of_poll {ev : Event} {o : TransactionManager.Op} (h : ev.poll = some o) :
    o.Polls ∧ o.env = ev.env := by
  cases ev <;> cases h <;> exact ⟨trivial, rfl⟩

end DistributedDBNode

namespace Cluster

/-! ## What a node is like and what it is sent -/

/-- a message to node n that starts nothing there -/
inductive Inert (n : NodeId) (msg : NetworkMessage) : Prop where
  | lockRequest (type : msg.type = .lockRequest)
  /-- a request for a report, which any node but the central one ignores -/
  | wfgReport (type : msg.type = .wfgReport) (peer : n ≠ centralizedNodeId)
  /-- a probe that has been nowhere yet -/
  | probe (type : msg.type = .pathPushingProbe) (t : TransactionId) (path : msg.path = [t])
  | resolve (type : msg.type = .clientResolveDeadlockRequest)
  /-- an answer to a client, at some other node -/
  | report (type : msg.type = .deadlockReportToClient) (peer : n ≠ centralizedNodeId) (noClient : n ≠ 0)

/-- the node as it was constructed, but for its transactions and the numbers of reports and responses it expects -/
def Untouched (numNodes now : ℤ) (n : NodeId) (nd : DistributedDBNode) : Prop :=
  ∃ tm wfgReports pagResponses, nd = { DistributedDBNode.init n numNodes now with
    transactionManager := tm, wfgReportsExpected := wfgReports, pagResponsesExpected := pagResponses }

variable {numNodes now : ℤ} {n : NodeId} {nd : DistributedDBNode} {cl cl' : Cluster} {Q : Env → Prop}

theorem Untouched.nodeId (h : Untouched numNodes now n nd) : nd.nodeId = n := by
  obtain ⟨tm, wfg, pag, rfl⟩ := h
  rfl

theorem Untouched.setManager (h : Untouched numNodes now n nd) (tm : TransactionManager) :
    Untouched numNodes now n { nd with transactionManager := tm } := by
  obtain ⟨tm', wfg, pag, rfl⟩ := h
  exact ⟨tm, wfg, pag, rfl⟩

/-- the manager goes through the operation of an event of the loops, and stays as it is at any other event -/
def PollsBy (ev : Event) (tm tm' : TransactionManager) : Prop :=
  match ev.poll with
  | some o => tm.step o = some tm'
  | none => tm' = tm

/-- what an event leaves, and what it puts onto incoming queues -/
structure Quiet (numNodes now : ℤ) (n : NodeId) (nd : DistributedDBNode) (ev : Event) (o : Outcome) : Prop where
  node : Untouched numNodes now n o.node
  polls : PollsBy ev nd.transactionManager o.node.transactionManager
  pushes : ∀ p ∈ o.effects.flatMap (pushes ev.env nd), Inert p.1 p.2

/-- an event that sends messages only, from a node as it was but for what it expects -/
theorem Quiet.of_sends {ev : Event} {nd' : DistributedDBNode} {msgs : List NetworkMessage} {threw : Bool}
    (hnode : Untouched numNodes now n nd') (hpolls : PollsBy ev nd.transactionManager nd'.transactionManager)
    (hsent : ∀ msg ∈ msgs, ∀ p ∈ Network.pushed .listed ev.env.hash ev.env.raw (Delivery.connected nd) msg,
      Inert p.1 p.2) : Quiet numNodes now n nd ev (nd'.sends msgs threw) := by
  refine ⟨hnode, hpolls, ?_⟩
  intro p hp
  obtain ⟨effect, heffect, hp⟩ := List.mem_flatMap.1 hp
  obtain ⟨msg, hmsg, rfl⟩ := List.mem_map.1 heffect
  exact hsent msg hmsg p hp

theorem Quiet.of_idle {ev : Event} (hnode : Untouched numNodes now n nd) (hev : ev.poll = none) :
    Quiet numNodes now n nd ev nd.idle := by
  refine ⟨hnode, ?_, fun p hp => absurd hp List.not_mem_nil⟩
  unfold PollsBy
  rw [hev]
  rfl

/-- a message to the node itself is not pushed -/
theorem not_pushed_self {H : HashOrder} {raw : RawScalars} {msg : NetworkMessage} {p : NodeId × NetworkMessage}
    (hself : msg.receiverId = nd.nodeId) : p ∉ Network.pushed .listed H raw (Delivery.connected nd) msg := by
  intro hp
  obtain ⟨hreceiver, -, hne, -⟩ := Network.mem_pushed_connected hp
  exact hne (hreceiver.trans hself)

/-- every home node that a node knows is itself -/
theorem home_eq (hinv : TransactionManager.Inv n nd.transactionManager) (hid : nd.nodeId = n) {t : TransactionId}
    (hhome : nd.transactionManager.getTransactionHomeNode t ≠ 0) :
    nd.transactionManager.getTransactionHomeNode t = nd.nodeId := by
  unfold TransactionManager.getTransactionHomeNode at hhome ⊢
  cases htxn : nd.transactionManager.activeTransactions.lookup t with
  | none => rw [htxn] at hhome; exact absurd rfl hhome
  | some txn => exact (hinv.homed t txn htxn).2.trans hid.symm

/-- so a signal for a victim is not pushed -/
theorem abortSignals_self {E : Env} (hinv : TransactionManager.Inv n nd.transactionManager) (hid : nd.nodeId = n)
    (victimId : TransactionId) : ∀ msg ∈ DistributedDBNode.abortSignals E nd victimId, msg.receiverId = nd.nodeId := by
  intro msg hmsg
  unfold DistributedDBNode.abortSignals at hmsg
  split_ifs at hmsg with hhome
  · rw [List.mem_singleton.1 hmsg]
    exact home_eq hinv hid hhome
  · cases hmsg

theorem quiet_probe {E : Env} {msg : NetworkMessage} (hnode : Untouched numNodes now n nd)
    (hinv : TransactionManager.Inv n nd.transactionManager) (t : TransactionId) :
    Quiet numNodes now n nd (.processMessage E msg) (nd.handlePathPushingProbe E [t]) := by
  unfold DistributedDBNode.handlePathPushingProbe
  cases [t].getLast?.bind (nd.blockingTransaction E) with
  | none => exact .of_idle hnode rfl
  | some blockingTransId =>
    simp only
    by_cases hclosed : blockingTransId ∈ [t]
    · -- `transactionFrequencies.at` throws
      have hvictim : DeadlockDetector.selectVictim ([t] ++ [blockingTransId]) ∅ = none := by
        unfold DeadlockDetector.selectVictim
        rw [if_neg]
        exact fun hall => AList.notMem_empty t (hall t List.mem_cons_self)
      rw [if_pos hclosed, hvictim]
      exact ⟨hnode, rfl, fun p hp => absurd hp List.not_mem_nil⟩
    · rw [if_neg hclosed]
      split_ifs with hhome
      · refine .of_sends hnode rfl ?_
        intro msg hmsg p hp
        obtain rfl := List.mem_singleton.1 hmsg
        exact absurd hp (not_pushed_self (home_eq hinv hnode.nodeId hhome))
      · exact .of_idle hnode rfl

theorem quiet_processMessage {E : Env} {msg : NetworkMessage} {o : Outcome} (hnode : Untouched numNodes now n nd)
    (hinv : TransactionManager.Inv n nd.transactionManager) (hinert : Inert n msg)
    (h : nd.processMessage E msg = some o) : Quiet numNodes now n nd (.processMessage E msg) o := by
  unfold DistributedDBNode.processMessage at h
  cases hinert with
  | lockRequest type =>
    rw [type] at h
    cases h
    exact .of_idle hnode rfl
  | wfgReport type peer =>
    rw [type] at h
    simp only [DistributedDBNode.handleWFGReport, DistributedDBNode.isCentralizedNode, hnode.nodeId, peer] at h
    cases h
    exact .of_idle hnode rfl
  | probe type t path =>
    rw [type, path] at h
    cases h
    exact quiet_probe hnode hinv t
  | resolve type =>
    rw [type] at h
    cases h
    unfold DistributedDBNode.handleClientResolveDeadlockRequest
    split_ifs with hcentral
    · refine .of_sends hnode rfl ?_
      intro msg' hmsg' p hp
      rcases List.mem_append.1 hmsg' with hmsg' | hmsg'
      · exact absurd hp (not_pushed_self (abortSignals_self hinv hnode.nodeId _ msg' hmsg'))
      · obtain rfl := List.mem_singleton.1 hmsg'
        obtain ⟨-, hrange, hpeer, hp, -⟩ := Network.mem_pushed_connected hp
        have hid : nd.nodeId = centralizedNodeId := by
          simpa [DistributedDBNode.isCentralizedNode] using hcentral
        refine .report ?_ (hid ▸ hpeer) (zero_lt_one.trans_le (mem_intRange.1 hrange).1).ne'
        rw [hp, Network.transmit_type]
        rfl
    · exact .of_idle hnode rfl
  | report type =>
    rw [type] at h
    cases h
    exact .of_idle hnode rfl

/-- **Events of a node.** -/
theorem step_untouched {ev : Event} {o : Outcome} (hnode : Untouched numNodes now n nd)
    (hinv : TransactionManager.Inv n nd.transactionManager) (hev : ∀ msg ∈ ev.handles, Inert n msg)
    (h : nd.step ev = some o) : Quiet numNodes now n nd ev o := by
  cases ev with
  | beginTransaction E draws =>
    cases h
    exact ⟨hnode.setManager _, rfl, fun p hp => absurd hp List.not_mem_nil⟩
  | tpccArrival E =>
    cases h
    exact ⟨hnode.setManager _, rfl, fun p hp => absurd hp List.not_mem_nil⟩
  | tryExecuteNextSQLStatement E t =>
    obtain ⟨res, hres, rfl⟩ := Option.map_eq_some_iff.1 h
    refine .of_sends (hnode.setManager _) (Option.map_eq_some_iff.2 ⟨res, hres, rfl⟩) ?_
    intro msg hmsg p hp
    refine .lockRequest ?_
    rw [(Network.mem_pushed hp).1, Network.transmit_type,
      TransactionManager.tryExecuteNextSQLStatement_sent hres msg hmsg]
    rfl
  | processMessage E msg => exact quiet_processMessage hnode hinv (hev msg rfl) h
  | centralizedDetect E =>
    cases h
    unfold DistributedDBNode.centralizedDetect
    split_ifs with hcentral
    · refine .of_sends ?_ rfl ?_
      · obtain ⟨tm, wfg, pag, rfl⟩ := hnode
        exact ⟨tm, _, pag, rfl⟩
      · intro msg hmsg p hp
        obtain ⟨i, -, rfl⟩ := List.mem_map.1 hmsg
        obtain ⟨-, -, hpeer, hp, -⟩ := Network.mem_pushed_connected hp
        have hid : nd.nodeId = centralizedNodeId := by
          simpa [DistributedDBNode.isCentralizedNode] using hcentral
        refine .wfgReport ?_ (hid ▸ hpeer)
        rw [hp, Network.transmit_type]
        rfl
    · exact .of_idle hnode rfl
  | distributedDetectCoordinator E =>
    cases h
    unfold DistributedDBNode.distributedDetectCoordinator
    split_ifs
    · refine .of_sends ?_ rfl ?_
      · obtain ⟨tm, wfg, pag, rfl⟩ := hnode
        exact ⟨tm, _, pag, rfl⟩
      · -- the only member of the zone is the node itself
        obtain ⟨tm, wfg, pag, rfl⟩ := hnode
        intro msg hmsg p hp
        obtain ⟨i, hi, rfl⟩ := List.mem_map.1 hmsg
        obtain rfl : i = n := List.mem_singleton.1 hi
        exact absurd hp (not_pushed_self rfl)
    · exact .of_idle hnode rfl
  | pagSampling E =>
    cases h
    unfold DistributedDBNode.pagSampling
    split_ifs
    · refine .of_sends ?_ rfl ?_
      · obtain ⟨tm, wfg, pag, rfl⟩ := hnode
        exact ⟨tm, wfg, _, rfl⟩
      · intro msg hmsg p hp
        obtain ⟨i, -, rfl⟩ := List.mem_map.1 hmsg
        exact absurd rfl (Network.mem_pushed_connected hp).2.2.2.2
    · exact .of_idle hnode rfl
  | initiatePathPushingProbes E =>
    cases h
    refine ⟨hnode, rfl, ?_⟩
    intro p hp
    obtain ⟨effect, heffect, hp⟩ := List.mem_flatMap.1 hp
    obtain ⟨t, -, rfl⟩ := List.mem_map.1 heffect
    rw [List.mem_singleton.1 hp]
    exact .probe rfl t rfl

/-! ## The cluster -/

/-- nothing has started anywhere, and nothing in flight will start anything -/
structure Standstill (numNodes now : ℤ) (cl : Cluster) : Prop where
  homes : Inv cl
  nodes : ∀ n, Untouched numNodes now n (cl.nodes n)
  inFlight : ∀ p ∈ cl.inFlight, Inert p.1 p.2

theorem standstill_init (numNodes now : ℤ) : Standstill numNodes now (init numNodes now) :=
  ⟨inv_init numNodes now, fun _ => ⟨_, _, _, rfl⟩, fun _ hp => absurd hp List.not_mem_nil⟩

/-- a message that a client can send -/
theorem inert_of_clientRequest {H : HashOrder} {raw : RawScalars} {net : Network} {msg : NetworkMessage}
    (hclient : net.isClient = true) : ∀ p ∈ Network.pushed .listed H raw net msg, Inert p.1 p.2 := by
  intro p hp
  obtain ⟨hmsg, hrpc⟩ := Network.mem_pushed hp
  have hrpc := hrpc hclient
  refine .resolve ?_
  rw [hmsg, Network.transmit_type]
  rw [Delivery.convertToProtoMessage_type] at hrpc
  cases htype : msg.type <;> rw [htype] at hrpc <;> first | rfl | exact absurd rfl hrpc

theorem Chosen.handles_inFlight {ev : Event} {rest : List (NodeId × NetworkMessage)} (h : Chosen cl n ev rest) :
    ∀ msg ∈ ev.handles, (n, msg) ∈ cl.inFlight := by
  intro msg hmsg
  cases h with
  | round hround =>
    cases ev with
    | processMessage E msg' => simp [IsRound] at hround
    | _ => cases hmsg
  | handle E hread =>
    cases hmsg
    exact List.mem_of_getElem? hread

/-- **Steps of a cluster.** -/
theorem step_standstill {a : Act} (hs : Standstill numNodes now cl) (hE : TransactionManager.KeepsHomes a.env)
    (hst : cl.step a = some cl') : Standstill numNodes now cl' ∧
    ∀ n, (cl'.nodes n).transactionManager = (cl.nodes n).transactionManager ∨
      ∃ ev o, a = .round n ev ∧ ev.poll = some o ∧
        (cl.nodes n).transactionManager.step o = some (cl'.nodes n).transactionManager := by
  have hhomes : Inv cl' := step_inv hE hs.homes hst
  rcases step_cases hst with ⟨n, ev, o, rest, hact, -, hchosen, ho, rfl⟩ | ⟨E, server, msg, -, rfl⟩
  · have hev : ∀ msg ∈ ev.handles, Inert n msg := fun msg hmsg => hs.inFlight _ (hchosen.handles_inFlight msg hmsg)
    have hquiet := step_untouched (hs.nodes n) (hs.homes n) hev ho
    refine ⟨⟨hhomes, ?_, ?_⟩, ?_⟩
    · intro k
      rw [nodes_after]
      split_ifs with hk
      · subst hk; exact hquiet.node
      · exact hs.nodes k
    · intro p hp
      rcases List.mem_append.1 hp with hp | hp
      · exact hs.inFlight p (hchosen.mem_inFlight hp)
      · exact hquiet.pushes p hp
    · intro k
      rw [nodes_after]
      split_ifs with hk
      · subst hk
        have hpolls := hquiet.polls
        unfold PollsBy at hpolls
        cases hpoll : ev.poll with
        | none => rw [hpoll] at hpolls; exact Or.inl hpolls
        | some op =>
          rw [hpoll] at hpolls
          refine Or.inr ⟨ev, op, ?_, hpoll, hpolls⟩
          cases a with
          | round k' ev' => cases hact; rfl
          | handle E i =>
            -- the handling of a message is no operation of the loops
            obtain ⟨q, -, heq⟩ := Option.map_eq_some_iff.1 hact
            cases heq
            cases hpoll
          | clientRequest => cases hact
      · exact Or.inl rfl
  · refine ⟨⟨hhomes, hs.nodes, ?_⟩, fun _ => Or.inl rfl⟩
    intro p hp
    rcases List.mem_append.1 hp with hp | hp
    · exact hs.inFlight p hp
    · exact inert_of_clientRequest rfl p hp

/-- **Runs of a cluster.** The managers go through operations of the loops only. -/
theorem polls_of_reaches (hQ : ∀ E, Q E → TransactionManager.KeepsHomes E) (hs : Standstill numNodes now cl)
    (h : ReachesBy step (fun _ a => Q a.env) cl cl') : Standstill numNodes now cl' ∧
      ∀ n, ReachesBy TransactionManager.step (fun _ o => o.Polls ∧ Q o.env) (cl.nodes n).transactionManager
        (cl'.nodes n).transactionManager := by
  refine h.invariant (P := fun s => Standstill numNodes now s ∧ ∀ n, ReachesBy TransactionManager.step
    (fun _ o => o.Polls ∧ Q o.env) (cl.nodes n).transactionManager (s.nodes n).transactionManager)
    ⟨hs, fun _ => .start⟩ ?_
  intro s a s' ih hE hst
  obtain ⟨hnext, hpolls⟩ := step_standstill ih.1 (hQ _ hE) hst
  refine ⟨hnext, ?_⟩
  intro n
  rcases hpolls n with hsame | ⟨ev, o, rfl, hpoll, hop⟩
  · rw [hsame]; exact ih.2 n
  · obtain ⟨hloop, henv⟩ := DistributedDBNode.polls_of_poll hpoll
    exact .next (ih.2 n) ⟨hloop, by rw [henv]; exact hE⟩ hop

/-- **Nothing is detected.** In every reachable cluster, whatever the detection modes, the order of rounds and messages
and the requests of clients: all that is in flight are lock requests, requests for reports to peers, new probes at their
own node, requests of clients and answers that no client gets. Every node still has the zone of its own and the empty
graphs, counts and totals it was constructed with, and its manager has gone through operations of its own loops only. -/
theorem nothing_detected
    (h : ReachesBy step (fun _ a => TransactionManager.KeepsHomes a.env) (init numNodes now) cl) :
    (∀ p ∈ cl.inFlight, Inert p.1 p.2) ∧ (∀ n, Untouched numNodes now n (cl.nodes n)) ∧
    ∀ n, ReachesBy TransactionManager.step (fun _ o => o.Polls ∧ TransactionManager.KeepsHomes o.env)
      (TransactionManager.init n) (cl.nodes n).transactionManager := by
  obtain ⟨hs, hpolls⟩ := polls_of_reaches (fun _ hE => hE) (standstill_init numNodes now) h
  exact ⟨hs.inFlight, hs.nodes, hpolls⟩

/-! ## Blocked transactions -/

/-- runs of a cluster whose retry callbacks change no transaction -/
abbrev SilentRun : Cluster → Cluster → Prop := ReachesBy step fun _ a => TransactionManager.Silent a.env

theorem SilentRun.standstill (h : SilentRun (init numNodes now) cl) : Standstill numNodes now cl :=
  (polls_of_reaches (fun _ => TransactionManager.Silent.keepsHomes) (standstill_init numNodes now) h).1

theorem SilentRun.pollsTo (hs : Standstill numNodes now cl) (h : SilentRun cl cl') (n : NodeId) :
    TransactionManager.PollsTo (cl.nodes n).transactionManager (cl'.nodes n).transactionManager :=
  (polls_of_reaches (fun _ => TransactionManager.Silent.keepsHomes) hs h).2 n

theorem SilentRun.pollInv (h : SilentRun (init numNodes now) cl) (n : NodeId) :
    TransactionManager.PollInv (cl.nodes n).transactionManager :=
  (h.pollsTo (standstill_init numNodes now) n).pollInv (TransactionManager.pollInv_init n)

/-- two writers of node 1, each waiting for the other's resource, and a writer of node 2 that waits for node 1 -/
def crossWriters : List Act :=
  [.round 1 (.beginTransaction .quiet [(5, .exclusive), (6, .exclusive)]),
    .round 1 (.beginTransaction .quiet [(6, .exclusive), (5, .exclusive)]),
    .round 2 (.beginTransaction .quiet [(7, .exclusive)]),
    .round 1 (.tryExecuteNextSQLStatement .quiet 1), .round 1 (.tryExecuteNextSQLStatement .quiet 2),
    .round 1 (.tryExecuteNextSQLStatement .quiet 1), .round 1 (.tryExecuteNextSQLStatement .quiet 2),
    .round 2 (.tryExecuteNextSQLStatement .quiet 1)]

/-- all loops of node 1 run, and what is in flight is handled -/
def allRounds : List Act :=
  [.handle .quiet 0, .round 1 (.centralizedDetect .quiet), .round 1 (.distributedDetectCoordinator .quiet),
    .round 1 (.pagSampling .quiet), .round 1 (.initiatePathPushingProbes .quiet), .handle .quiet 0,
    .handle .quiet 0, .handle .quiet 0, .round 1 (.tryExecuteNextSQLStatement .quiet 1)]

def crossed : Cluster := (run step (init 2 0) crossWriters).get rfl
def stillCrossed : Cluster := (run step crossed allRounds).get rfl

theorem silentRun_of_run {acts : List Act} (hacts : ∀ a ∈ acts, TransactionManager.Silent a.env)
    (h : run step cl acts = some cl') : SilentRun cl cl' := by
  have hrun : ReachesBy step (fun _ a => TransactionManager.Silent a.env ∧ True) cl cl' := .of_run_of_forall hacts h
  exact hrun.mono fun _ _ ha => ha.1

theorem crossed_reached : SilentRun (init 2 0) crossed := by
  have hacts : ∀ a ∈ crossWriters, TransactionManager.Silent a.env := by
    simp [crossWriters, Act.env, Event.env, TransactionManager.silent_quiet]
  exact silentRun_of_run hacts (Option.some_get _).symm

theorem stillCrossed_reached : SilentRun crossed stillCrossed := by
  have hacts : ∀ a ∈ allRounds, TransactionManager.Silent a.env := by
    simp [allRounds, Act.env, Event.env, TransactionManager.silent_quiet]
  exact silentRun_of_run hacts (Option.some_get _).symm

theorem nothing_detected_stillCrossed : stillCrossed.inFlight = [] ∧ Untouched 2 0 1 (stillCrossed.nodes 1) := by
  have hrun : ReachesBy step (fun _ a => TransactionManager.KeepsHomes a.env) (init 2 0) stillCrossed :=
    (crossed_reached.trans stillCrossed_reached).mono fun _ _ hE => hE.keepsHomes
  exact ⟨rfl, (nothing_detected hrun).2.1 1⟩

/-- **Blocked is forever.** A transaction that is blocked in a reachable cluster is never taken up again, committed or
aborted: in every later cluster it is as it was, with the same locks, behind the same transactions. -/
theorem blocked_forever (h : SilentRun (init numNodes now) cl) (hrun : SilentRun cl cl') {n : NodeId}
    {t : TransactionId} {txn : Transaction} (htxn : (cl.nodes n).transactionManager.getTransaction t = some txn)
    (hblocked : txn.status = .blocked) :
    (cl'.nodes n).transactionManager.getTransaction t = some txn ∧
    (∀ r, ((cl'.nodes n).transactionManager.resourceManager.getResourceHolders r).lookup t =
      ((cl.nodes n).transactionManager.resourceManager.getResourceHolders r).lookup t) ∧
    ∀ r, (cl.nodes n).transactionManager.resourceManager.getResourceWaitingQueue r <+:
      (cl'.nodes n).transactionManager.resourceManager.getResourceWaitingQueue r := by
  have hstill := TransactionManager.StillWaits.of_reaches (hrun.pollsTo h.standstill n) (h.pollInv n) htxn hblocked
  exact ⟨hstill.record.trans htxn, hstill.locks, hstill.queues⟩

/-- the lock request of node 2's transaction has been handled, and all loops have run -/
theorem blocked_forever_stillCrossed :
    (stillCrossed.nodes 2).transactionManager.getTransaction 1 =
      (crossed.nodes 2).transactionManager.getTransaction 1 :=
  (blocked_forever crossed_reached stillCrossed_reached (n := 2) (t := 1) (Option.some_get rfl).symm rfl).1

/-- **Leaving means every lock is held.** A transaction leaves its node only when the polling loop commits it, past its
last statement, while it holds the lock of each resource of each statement in the statement's mode; so one that names a
resource of another node never leaves. -/
theorem leaves_locked (h : SilentRun (init numNodes now) cl) {a : Act} (hE : TransactionManager.Silent a.env)
    (hst : cl.step a = some cl') {n : NodeId} {t : TransactionId} {txn : Transaction}
    (htxn : (cl.nodes n).transactionManager.getTransaction t = some txn)
    (hgone : (cl'.nodes n).transactionManager.getTransaction t = none) :
    (∃ E, a = .round n (.tryExecuteNextSQLStatement E t)) ∧ txn.currentSQLIndex = txn.statements.length ∧
    ∀ sql ∈ txn.statements, ∀ r ∈ sql.resources, getOwnerNodeId r = n ∧
      ((cl.nodes n).transactionManager.resourceManager.getResourceHolders r).lookup t = some sql.lockMode := by
  rcases (step_standstill h.standstill hE.keepsHomes hst).2 n with hsame | ⟨ev, o, rfl, hpoll, hop⟩
  · rw [hsame, htxn] at hgone
    cases hgone
  · obtain ⟨hloop, henv⟩ := DistributedDBNode.polls_of_poll hpoll
    obtain ⟨⟨E, rfl⟩, hindex, hheld⟩ := (h.pollInv n).leaves hloop (by rw [henv]; exact hE) hop htxn
      (AList.lookup_eq_none.1 hgone)
    refine ⟨⟨E, ?_⟩, hindex, ?_⟩
    · cases ev <;> cases hpoll
      rfl
    · rw [(h.standstill.homes n).node] at hheld
      exact hheld

/-- node 1 runs one writer of resource 5 up to its end -/
def oneWriter : List Act :=
  [.round 1 (.beginTransaction .quiet [(5, .exclusive)]), .round 1 (.tryExecuteNextSQLStatement .quiet 1)]

def pastLast : Cluster := (run step (init 2 0) oneWriter).get rfl

theorem leaves_locked_pastLast :
    ((pastLast.nodes 1).transactionManager.resourceManager.getResourceHolders 5).lookup 1 = some .exclusive := by
  have hacts : ∀ a ∈ oneWriter, TransactionManager.Silent a.env := by
    simp [oneWriter, Act.env, Event.env, TransactionManager.silent_quiet]
  have hrun : SilentRun (init 2 0) pastLast := silentRun_of_run hacts (Option.some_get _).symm
  have hleaves := leaves_locked hrun (a := .round 1 (.tryExecuteNextSQLStatement .quiet 1))
    TransactionManager.silent_quiet (Option.some_get rfl).symm (n := 1) (t := 1) (Option.some_get rfl).symm rfl
  exact (hleaves.2.2 ⟨1, 1, [5], .exclusive⟩ (by decide) 5 (by decide)).2

/-- **Deadlocks are permanent.** In every reachable cluster an edge of a node's local wait-for graph leads from a
transaction that is blocked on a local resource to another active transaction that holds it; and a cycle of that graph
is a cycle of it in every later cluster, its transactions unchanged. -/
theorem deadlock_permanent (h : SilentRun (init numNodes now) cl) (n : NodeId) (H : HashOrder) :
    (∀ w k, WaitForGraph.Edge (LockTable.buildLocalWaitForGraph H (cl.nodes n).transactionManager) w k →
      ∃ r ∈ (cl.nodes n).transactionManager.resourceManager.getLocalResources,
        LockTable.BlockedOn (cl.nodes n).transactionManager w r ∧
        k ∈ (cl.nodes n).transactionManager.resourceManager.getResourceHolders r ∧ k ≠ w ∧
        k ∈ (cl.nodes n).transactionManager.activeTransactions) ∧
    ∀ c, IsCycle (WaitForGraph.Edge (LockTable.buildLocalWaitForGraph H (cl.nodes n).transactionManager)) c →
      ∀ cl' H', SilentRun cl cl' →
        IsCycle (WaitForGraph.Edge (LockTable.buildLocalWaitForGraph H' (cl'.nodes n).transactionManager)) c ∧
        ∀ t ∈ c, (cl'.nodes n).transactionManager.getTransaction t =
          (cl.nodes n).transactionManager.getTransaction t := by
  refine ⟨fun w k => TransactionManager.edge_sound (h.pollInv n), ?_⟩
  intro c hcycle cl' H' hrun
  obtain ⟨hstill, hcycle'⟩ := TransactionManager.isCycle_still (h.pollInv n) (hrun.pollsTo h.standstill n) hcycle
  exact ⟨hcycle', fun t ht => (hstill t ht).record⟩

theorem deadlock_permanent_crossed :
    IsCycle (WaitForGraph.Edge (LockTable.buildLocalWaitForGraph .stored (stillCrossed.nodes 1).transactionManager))
      [1, 2] := by
  have hcycle : IsCycle (WaitForGraph.Edge (LockTable.buildLocalWaitForGraph .stored
      (crossed.nodes 1).transactionManager)) [1, 2] := by
    have hlocal : ∀ r ∈ [5, 6], r ∈ (crossed.nodes 1).transactionManager.resourceManager.getLocalResources := by
      intro r hr
      rw [ResourceManager.mem_getLocalResources]
      revert r
      decide
    have hwaits : ∀ w k r, r ∈ [5, 6] →
        ((crossed.nodes 1).transactionManager.resourceManager.getResourceWaitingQueue r).head? = some w →
        (crossed.nodes 1).transactionManager.getTransactionWaitingFor w = r →
        k ∈ (crossed.nodes 1).transactionManager.resourceManager.getResourceHolders r → k ≠ w →
        WaitForGraph.Edge (LockTable.buildLocalWaitForGraph .stored (crossed.nodes 1).transactionManager) w k := by
      intro w k r hr hfront hwaits hheld hne
      exact LockTable.edge_buildLocalWaitForGraph.2 ⟨r, hlocal r hr, hfront, hwaits, hheld, hne⟩
    have h12 := hwaits 1 2 6 (by decide) (by decide) (by decide) (by decide) (by decide)
    have h21 := hwaits 2 1 5 (by decide) (by decide) (by decide) (by decide) (by decide)
    exact ⟨by decide, by decide, by simpa using h12, h21⟩
  exact ((deadlock_permanent crossed_reached 1 .stored).2 [1, 2] hcycle stillCrossed .stored stillCrossed_reached).1

end Cluster

end HawkTxn
