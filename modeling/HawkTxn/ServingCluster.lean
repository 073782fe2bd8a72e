/-
A cluster whose nodes have queues and message processing loops (`DistributedDBNode.cpp`, `Network.cpp`, `SafeQueue.h`).

`Cluster` handles the messages in flight in any order and at any time. Here each node has its incoming queue, read by
the thread of its message processing loop; what an event sends is pushed onto the queues of the receivers at its end.
The other loops of a node go on while it runs, and stopping it sets its flag.

Results:
- `serves`: the queue and the loop of every node go through runs of `MessageServer`;
- `messages_served`, `node_stopped`: what becomes of the messages pushed;
- `refines`: every state is one of `Cluster`, whose messages in flight are those in hand and in the queues.
-/
import HawkTxn.Cluster
import HawkTxn.MessageLoop

namespace HawkTxn

open HawkTxn.Core
open DistributedDBNode (Event)

structure ServingCluster where
  numNodes : ℤ
  nodes : NodeId → DistributedDBNode
  server : NodeId → MessageServer NetworkMessage

namespace ServingCluster

/-! ## Model -/

def init (numNodes now : ℤ) : ServingCluster :=
  ⟨numNodes, fun n => DistributedDBNode.init n numNodes now, fun _ => .init⟩

/-- the messages for node n -/
def addressedTo (n : NodeId) (l : List (NodeId × NetworkMessage)) : List NetworkMessage :=
  l.filterMap fun p => if p.1 = n then some p.2 else none

/-- every message of l arrives at its node -/
def deliver (s : ServingCluster) (l : List (NodeId × NetworkMessage)) : ServingCluster :=
  { s with server := fun n => (addressedTo n l).foldl MessageServer.receive (s.server n) }

/-- the outcome of an event of node n -/
def after (s : ServingCluster) (E : Env) (n : NodeId) (o : Outcome) : ServingCluster :=
  deliver { s with nodes := Function.update s.nodes n o.node } (o.effects.flatMap (Cluster.pushes E (s.nodes n)))

/-- an act of the message processing loop of node n -/
def serve (s : ServingCluster) (n : NodeId) (a : MessageServer.Act NetworkMessage) : Option ServingCluster :=
  ((s.server n).step a).map fun server => { s with server := Function.update s.server n server }

inductive Act : Type 1 where
  /-- a round of one of the other loops of node n -/
  | round (n : NodeId) (ev : Event)
  | enterLoop (n : NodeId)
  | resume (n : NodeId)
  | wakeSpuriously (n : NodeId)
  /-- the loop of node n handles the message it has taken -/
  | handle (E : Env) (n : NodeId)
  | clientRequest (E : Env) (server : NodeId) (msg : NetworkMessage)
  | stop (n : NodeId)

/-- the environment of the event that an act runs satisfies Q -/
def Act.RunsIn (Q : Env → Prop) : Act → Prop
  | .round _ ev => Q ev.env
  | .handle E _ => Q E
  | .clientRequest E _ _ => Q E
  | _ => True

def step (s : ServingCluster) : Act → Option ServingCluster
  | .round n ev =>
    if n ∈ intRange 1 s.numNodes ∧ Cluster.IsRound ev ∧ (s.server n).systemRunning then
      ((s.nodes n).step ev).map (s.after ev.env n)
    else none
  | .enterLoop n => s.serve n .enterLoop
  | .resume n => s.serve n .resume
  | .wakeSpuriously n => s.serve n .wakeSpuriously
  | .handle E n =>
    match (s.server n).loop with
    | .handling msg => do
      let o ← (s.nodes n).step (.processMessage E msg)
      (s.serve n .finish).map fun s => s.after E n o
    | _ => none
  | .clientRequest E server msg => some (s.deliver (Network.pushed .listed E.hash E.raw
      { Network.init 0 s.numNodes true with clientToServerStub := some server } msg))
  | .stop n => s.serve n .stop

/-! ## One node's queue and loop -/

variable {s s' : ServingCluster} {n k : NodeId} {l : List (NodeId × NetworkMessage)} {numNodes now : ℤ}
  {Q : Env → Prop}

/-- a predicate on the acts of a loop that may leave out its spurious wake-ups -/
def Proper (P : MessageServer.Act NetworkMessage → Prop) : Prop := ∀ b, b ≠ .wakeSpuriously → P b

theorem reaches_foldl_receive {P : MessageServer.Act NetworkMessage → Prop} (hP : Proper P)
    (server : MessageServer NetworkMessage) (msgs : List NetworkMessage) :
    ReachesBy MessageServer.step (fun _ b => P b) server (msgs.foldl .receive server) := by
  induction msgs generalizing server with
  | nil => exact .start
  | cons msg msgs ih =>
    have hfirst : ReachesBy MessageServer.step (fun _ b => P b) server (server.receive msg) :=
      .next .start (a := .receive msg) (hP _ fun h => by cases h) rfl
    exact hfirst.trans (ih _)

theorem serve_cases {b : MessageServer.Act NetworkMessage} (h : s.serve k b = some s') :
    s'.numNodes = s.numNodes ∧ s'.nodes = s.nodes ∧ ∃ server, (s.server k).step b = some server ∧
      s'.server = Function.update s.server k server := by
  obtain ⟨server, hserver, rfl⟩ := Option.map_eq_some_iff.1 h
  exact ⟨rfl, rfl, server, hserver, rfl⟩

/-- an act of one loop is no act of another one -/
theorem serve_serves {P : MessageServer.Act NetworkMessage → Prop} {b : MessageServer.Act NetworkMessage}
    (h : s.serve k b = some s') (hb : k = n → P b) :
    ReachesBy MessageServer.step (fun _ b => P b) (s.server n) (s'.server n) := by
  obtain ⟨-, -, server, hserver, hupdate⟩ := serve_cases h
  rw [hupdate]
  by_cases hk : k = n
  · subst hk
    rw [Function.update_self]
    exact .next .start (hb rfl) hserver
  · rw [Function.update_of_ne (Ne.symm hk)]
    exact .start

theorem step_serves {P : MessageServer.Act NetworkMessage → Prop} {a : Act} (hP : Proper P)
    (hwake : a = .wakeSpuriously n → P .wakeSpuriously) (h : s.step a = some s') :
    ReachesBy MessageServer.step (fun _ b => P b) (s.server n) (s'.server n) := by
  cases a with
  | round k ev =>
    simp only [step] at h
    split_ifs at h
    obtain ⟨o, -, rfl⟩ := Option.map_eq_some_iff.1 h
    exact reaches_foldl_receive hP _ _
  | enterLoop k => exact serve_serves h fun _ => hP _ fun h => by cases h
  | resume k => exact serve_serves h fun _ => hP _ fun h => by cases h
  | wakeSpuriously k => exact serve_serves h fun hk => hwake (by rw [hk])
  | handle E k =>
    simp only [step] at h
    split at h
    · obtain ⟨o, -, h⟩ := Option.bind_eq_some_iff.1 h
      obtain ⟨t, ht, rfl⟩ := Option.map_eq_some_iff.1 h
      have hfinish := serve_serves (n := n) ht fun _ => hP _ fun h => by cases h
      exact hfinish.trans (reaches_foldl_receive hP _ _)
    · cases h
  | clientRequest E server msg =>
    cases h
    exact reaches_foldl_receive hP _ _
  | stop k => exact serve_serves h fun _ => hP _ fun h => by cases h

/-- the queue and the loop of a node go through a run of their own -/
theorem serves {P : MessageServer.Act NetworkMessage → Prop} {ok : ServingCluster → Act → Prop} (hP : Proper P)
    (hok : ∀ s a, ok s a → a = .wakeSpuriously n → P .wakeSpuriously) (h : ReachesBy step ok s s') :
    ReachesBy MessageServer.step (fun _ b => P b) (s.server n) (s'.server n) := by
  induction h with
  | start => exact .start
  | next _ ha hst ih => exact ih.trans (step_serves hP (hok _ _ ha) hst)

theorem server_reached (h : Reaches step (init numNodes now) s) (n : NodeId) :
    Reaches MessageServer.step .init (s.server n) :=
  serves (P := fun _ => True) (fun _ _ => trivial) (fun _ _ _ _ => trivial) h

/-- **Every message is served.** In every run of the cluster and at every node: the messages its loop has handled, the
one in its hand and those in its queue are the messages pushed, in the order they were pushed; the loop waits at an
empty queue only, and it ends in a stopped node only. -/
theorem messages_served (h : Reaches step (init numNodes now) s) (n : NodeId) :
    (s.server n).handled ++ (s.server n).loop.inHand ++ (s.server n).queue.queue_ = (s.server n).pushed ∧
    (() ∈ (s.server n).queue.waiting → (s.server n).queue.queue_ = []) ∧
    ((s.server n).loop = .ended → (s.server n).systemRunning = false) :=
  MessageServer.served_in_order (server_reached h n)

/-- node 1 asks node 2, whose loop waits, for a resource, and the loop takes the request -/
def takeRequest : List Act :=
  [.enterLoop 2, .round 1 (.beginTransaction .quiet (Cluster.writes 1001)),
    .round 1 (.tryExecuteNextSQLStatement .quiet 1), .resume 2]

def requestTaken : ServingCluster := (run step (init 2 0) takeRequest).get rfl

theorem messages_served_requestTaken : (requestTaken.server 2).pushed.length = 1 ∧
    (requestTaken.server 2).loop.inHand ++ (requestTaken.server 2).queue.queue_ = (requestTaken.server 2).pushed := by
  have hreached : Reaches step (init 2 0) requestTaken := .of_run (Option.some_get _).symm
  exact ⟨rfl, (messages_served hreached 2).1⟩

/-- **A stopped node.** Once a node of a reachable cluster is stopped its loop handles one more message at most, however
many are in its queue or still arrive; and a loop that was waiting still waits in every later state unless a message has
arrived or it woke up by itself, so that the destructor may join it for ever. -/
theorem node_stopped (h : Reaches step (init numNodes now) s) (hstopped : (s.server n).systemRunning = false) :
    (∀ s', Reaches step s s' → (s'.server n).handled.length ≤ (s.server n).handled.length + 1) ∧
    (() ∈ (s.server n).queue.waiting → ∀ s', ReachesBy step (fun _ a => a ≠ .wakeSpuriously n) s s' →
      (s'.server n).pushed = (s.server n).pushed → (s'.server n).loop = .inPop) := by
  obtain ⟨hone, hwaits⟩ := MessageServer.stopped (server_reached h n) hstopped
  refine ⟨?_, ?_⟩
  · intro s' hrun
    exact hone _ (serves (P := fun _ => True) (fun _ _ => trivial) (fun _ _ _ _ => trivial) hrun)
  · intro hwaiting s' hrun hpushed
    have hserver := serves (n := n) (P := fun b => b ≠ .wakeSpuriously) (fun _ hb => hb)
      (fun _ _ ha hwake => absurd hwake ha) hrun
    exact hwaits hwaiting _ hserver hpushed

/-- the loop of node 1 waits when the node is stopped -/
def stoppedWaiting : ServingCluster := (run step (init 2 0) [.enterLoop 1, .stop 1]).get rfl

theorem node_stopped_stoppedWaiting : (stoppedWaiting.server 1).systemRunning = false ∧
    () ∈ (stoppedWaiting.server 1).queue.waiting ∧
    ∀ s', ReachesBy step (fun _ a => a ≠ .wakeSpuriously 1) stoppedWaiting s' → (s'.server 1).pushed = [] →
      (s'.server 1).loop = .inPop := by
  have hreached : Reaches step (init 2 0) stoppedWaiting := .of_run (Option.some_get _).symm
  exact ⟨rfl, by decide, (node_stopped hreached rfl).2 (by decide)⟩

/-! ## Messages in flight -/

/-- pushed and not handled -/
def pending (server : MessageServer NetworkMessage) : List NetworkMessage :=
  server.loop.inHand ++ server.queue.queue_

/-- a step that neither pushes nor handles a message -/
theorem pending_of_same {server server' : MessageServer NetworkMessage} (h : server.Inv) (h' : server'.Inv)
    (hpushed : server'.pushed = server.pushed) (hhandled : server'.handled = server.handled) :
    pending server' = pending server := by
  have horder := h'.order
  rw [hpushed, hhandled, ← h.order, List.append_assoc, List.append_assoc] at horder
  exact List.append_cancel_left horder

theorem pending_foldl_receive (server : MessageServer NetworkMessage) (msgs : List NetworkMessage) :
    pending (msgs.foldl .receive server) = pending server ++ msgs := by
  induction msgs generalizing server with
  | nil => simp
  | cons msg msgs ih =>
    rw [List.foldl_cons, ih]
    simp [pending, MessageServer.receive]

@[simp] theorem addressedTo_append (n : NodeId) (l l' : List (NodeId × NetworkMessage)) :
    addressedTo n (l ++ l') = addressedTo n l ++ addressedTo n l' := List.filterMap_append

/-- the first message for a node, taken out -/
theorem addressedTo_eq_cons {msg : NetworkMessage} {rest : List NetworkMessage}
    (h : addressedTo n l = msg :: rest) :
    ∃ i, l[i]? = some (n, msg) ∧ ∀ k, addressedTo k (l.eraseIdx i) = if k = n then rest else addressedTo k l := by
  obtain ⟨pre, p, suf, rfl, hpre, hp, hsuf⟩ := List.filterMap_eq_cons_iff.1 h
  split_ifs at hp with hn
  obtain ⟨n', msg'⟩ := p
  simp only [Option.some.injEq] at hn hp
  subst hn hp
  refine ⟨pre.length, by simp, ?_⟩
  intro k
  have herase : (pre ++ (n', msg') :: suf).eraseIdx pre.length = pre ++ suf := by
    simp [List.eraseIdx_append_of_length_le]
  rw [herase, addressedTo_append]
  by_cases hk : k = n'
  · subst hk
    have hnone : addressedTo k pre = [] := List.filterMap_eq_nil_iff.2 hpre
    rw [if_pos rfl, hnone, List.nil_append]
    exact hsuf
  · rw [if_neg hk, addressedTo_append]
    simp [addressedTo, Ne.symm hk]

/-! ## The cluster without queues -/

/-- the same nodes, and the same messages for each of them, pushed and not handled, in the same order -/
structure Sim (s : ServingCluster) (cl : Cluster) : Prop where
  numNodes : cl.numNodes = s.numNodes
  nodes : cl.nodes = s.nodes
  inFlight : ∀ n, addressedTo n cl.inFlight = pending (s.server n)
  servers : ∀ n, (s.server n).Inv

variable {cl : Cluster}

theorem sim_init (numNodes now : ℤ) : Sim (init numNodes now) (Cluster.init numNodes now) :=
  ⟨rfl, rfl, fun _ => rfl, fun _ => MessageServer.inv_init⟩

theorem Sim.deliver (h : Sim s cl) (l : List (NodeId × NetworkMessage)) :
    Sim (s.deliver l) { cl with inFlight := cl.inFlight ++ l } where
  numNodes := h.numNodes
  nodes := h.nodes
  inFlight n := by
    calc addressedTo n (cl.inFlight ++ l) = pending (s.server n) ++ addressedTo n l := by
          rw [addressedTo_append, h.inFlight]
      _ = pending ((addressedTo n l).foldl .receive (s.server n)) := (pending_foldl_receive _ _).symm
  servers n := by
    have hrun := reaches_foldl_receive (P := fun _ => True) (fun _ _ => trivial) (s.server n) (addressedTo n l)
    exact hrun.invariant (h.servers n) fun _ _ _ hinv _ hst => MessageServer.step_inv hinv hst

theorem Sim.after (h : Sim s cl) (E : Env) (n : NodeId) (o : Outcome) : Sim (s.after E n o) (cl.after E n o) := by
  have hset : Sim { s with nodes := Function.update s.nodes n o.node }
      { cl with nodes := Function.update cl.nodes n o.node } :=
    ⟨h.numNodes, by rw [h.nodes], h.inFlight, h.servers⟩
  have hsent := hset.deliver (o.effects.flatMap (Cluster.pushes E (s.nodes n)))
  rw [← h.nodes] at hsent
  unfold ServingCluster.after Cluster.after
  rw [← h.nodes]
  exact hsent

/-- the loop of a node takes a step that neither pushes nor handles a message -/
theorem Sim.serve {b : MessageServer.Act NetworkMessage} (h : Sim s cl) (hst : s.serve k b = some s')
    (hsame : ∀ server, (s.server k).step b = some server →
      server.pushed = (s.server k).pushed ∧ server.handled = (s.server k).handled) : Sim s' cl := by
  obtain ⟨hnum, hnodes, server, hserver, hupdate⟩ := serve_cases hst
  obtain ⟨hpushed, hhandled⟩ := hsame server hserver
  have hinv := MessageServer.step_inv (h.servers k) hserver
  refine ⟨h.numNodes.trans hnum.symm, h.nodes.trans hnodes.symm, ?_, ?_⟩
  · intro n
    rw [hupdate, h.inFlight]
    by_cases hn : n = k
    · subst hn
      rw [Function.update_self, pending_of_same (h.servers n) hinv hpushed hhandled]
    · rw [Function.update_of_ne hn]
  · intro n
    rw [hupdate]
    by_cases hn : n = k
    · subst hn
      rw [Function.update_self]
      exact hinv
    · rw [Function.update_of_ne hn]
      exact h.servers n

/-- the loop of a node has handled the message in its hand, the first one in flight to it -/
theorem Sim.finish {msg : NetworkMessage} (h : Sim s cl) (hloop : (s.server n).loop = .handling msg)
    (hst : s.serve n .finish = some s') :
    ∃ i, cl.inFlight[i]? = some (n, msg) ∧ Sim s' { cl with inFlight := cl.inFlight.eraseIdx i } := by
  obtain ⟨hnum, hnodes, server, hserver, hupdate⟩ := serve_cases hst
  have hfirst : addressedTo n cl.inFlight = msg :: (s.server n).queue.queue_ := by
    rw [h.inFlight, pending, hloop]
    rfl
  obtain ⟨i, hi, herase⟩ := addressedTo_eq_cons hfirst
  have hinv := MessageServer.step_inv (h.servers n) hserver
  simp only [MessageServer.step, hloop, Option.some.injEq] at hserver
  subst hserver
  refine ⟨i, hi, h.numNodes.trans hnum.symm, h.nodes.trans hnodes.symm, ?_, ?_⟩
  · intro k
    rw [hupdate, herase]
    by_cases hk : k = n
    · subst hk
      rw [if_pos rfl, Function.update_self]
      rfl
    · rw [if_neg hk, Function.update_of_ne hk]
      exact h.inFlight k
  · intro k
    rw [hupdate]
    by_cases hk : k = n
    · subst hk
      rw [Function.update_self]
      exact hinv
    · rw [Function.update_of_ne hk]
      exact h.servers k

theorem popping_same (server : MessageServer NetworkMessage) :
    server.popping.pushed = server.pushed ∧ server.popping.handled = server.handled := by
  unfold MessageServer.popping
  split <;> exact ⟨rfl, rfl⟩

theorem step_sim {a : Act} (h : Sim s cl) (ha : a.RunsIn Q) (hst : s.step a = some s') :
    ∃ cl', ReachesBy Cluster.step (fun _ a => Q a.env) cl cl' ∧ Sim s' cl' := by
  cases a with
  | round n ev =>
    simp only [step] at hst
    split_ifs at hst with hround
    obtain ⟨o, ho, rfl⟩ := Option.map_eq_some_iff.1 hst
    refine ⟨cl.after ev.env n o, .next .start (a := .round n ev) ha ?_, h.after ev.env n o⟩
    rw [Cluster.step, h.numNodes, if_pos ⟨hround.1, hround.2.1⟩, h.nodes, ho]
    rfl
  | enterLoop n =>
    refine ⟨cl, .start, h.serve hst ?_⟩
    intro server hserver
    simp only [MessageServer.step] at hserver
    split at hserver
    · split_ifs at hserver
      · cases hserver
        exact popping_same _
      · cases hserver
        exact ⟨rfl, rfl⟩
    · cases hserver
  | resume n =>
    refine ⟨cl, .start, h.serve hst ?_⟩
    intro server hserver
    simp only [MessageServer.step] at hserver
    split_ifs at hserver
    cases hserver
    exact popping_same _
  | wakeSpuriously n =>
    refine ⟨cl, .start, h.serve hst ?_⟩
    intro server hserver
    simp only [MessageServer.step] at hserver
    split_ifs at hserver
    cases hserver
    exact ⟨rfl, rfl⟩
  | handle E n =>
    simp only [step] at hst
    split at hst
    · rename_i msg hloop
      obtain ⟨o, ho, hst⟩ := Option.bind_eq_some_iff.1 hst
      obtain ⟨t, ht, rfl⟩ := Option.map_eq_some_iff.1 hst
      obtain ⟨i, hi, hsim⟩ := h.finish hloop ht
      refine ⟨_, .next .start (a := .handle E i) ha ?_, hsim.after E n o⟩
      rw [Cluster.step, hi, h.nodes]
      simp only [Option.bind_eq_bind, Option.bind_some, ho]
    · cases hst
  | clientRequest E server msg =>
    cases hst
    refine ⟨_, .next .start (a := .clientRequest E server msg) ha ?_, h.deliver _⟩
    rw [Cluster.step, h.numNodes]
  | stop n =>
    refine ⟨cl, .start, h.serve hst ?_⟩
    intro server hserver
    cases hserver
    exact ⟨rfl, rfl⟩

/-- **Queues and loops refine the messages in flight.** Whatever a cluster with queues and message processing loops
reaches, `Cluster` reaches with the same nodes, and with the messages in flight that the loops have in hand and the
queues hold, for every node in their order. -/
theorem refines (h : ReachesBy step (fun _ a => a.RunsIn Q) (init numNodes now) s) :
    ∃ cl, ReachesBy Cluster.step (fun _ a => Q a.env) (Cluster.init numNodes now) cl ∧ cl.nodes = s.nodes ∧
      ∀ n, addressedTo n cl.inFlight = (s.server n).loop.inHand ++ (s.server n).queue.queue_ := by
  obtain ⟨cl, hcl, hsim⟩ := h.simulated (sim_init numNodes now) fun _ _ _ _ hsim ha hst => step_sim hsim ha hst
  exact ⟨cl, hcl, hsim.nodes, hsim.inFlight⟩

theorem requestTaken_reached :
    ReachesBy step (fun _ a => a.RunsIn TransactionManager.KeepsHomes) (init 2 0) requestTaken := by
  have hquiet : TransactionManager.KeepsHomes .quiet := fun _ _ _ _ txn h => ⟨txn, h, rfl⟩
  have hacts : ∀ a ∈ takeRequest, a.RunsIn TransactionManager.KeepsHomes := by
    simp [takeRequest, Act.RunsIn, Event.env, hquiet]
  have hrun : ReachesBy step (fun _ a => a.RunsIn TransactionManager.KeepsHomes ∧ True) (init 2 0) requestTaken :=
    .of_run_of_forall hacts (Option.some_get _).symm
  exact hrun.mono fun _ _ ha => ha.1

theorem refines_requestTaken : (requestTaken.server 2).loop.inHand.length = 1 ∧
    ∃ cl, ReachesBy Cluster.step (fun _ a => TransactionManager.KeepsHomes a.env) (Cluster.init 2 0) cl ∧
      cl.nodes = requestTaken.nodes ∧ addressedTo 2 cl.inFlight =
        (requestTaken.server 2).loop.inHand ++ (requestTaken.server 2).queue.queue_ := by
  obtain ⟨cl, hcl, hnodes, hinFlight⟩ := refines requestTaken_reached
  exact ⟨rfl, cl, hcl, hnodes, hinFlight 2⟩

end ServingCluster

end HawkTxn
