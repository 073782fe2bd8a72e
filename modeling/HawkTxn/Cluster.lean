/-
The nodes of a cluster and the messages between them.

A cluster runs the loops of its nodes in any order, and handles the messages in flight in any order. What an event
sends goes through the stubs of its node and through the codec; the retry callback of every event's environment adds no
transaction and changes no home node. The networks are those whose service was given the queue of its node
(`MemberOrder.listed`): with the members in the order of the header no message would come in at all
(`Delivery.nothing_arrives`).

A node answers no LOCK_REQUEST and puts the transactions of other nodes into no table of its own, so every transaction
it knows is homed at it, and a sample of the predicted access graph has no edge.

Results:
- `wellFormed_of_reaches`: nodes keep their ids;
- `inv_of_reaches`: every active transaction of a node is homed there;
- `crossNodeWait_invisible`: no wait across nodes is ever sampled.
-/
import HawkTxn.Delivery

namespace HawkTxn

open HawkTxn.Core UnorderedMap
open DistributedDBNode (Event)

structure Cluster where
  numNodes : ℤ
  nodes : NodeId → DistributedDBNode
  /-- pushed onto the incoming queue of a node and not handled yet -/
  inFlight : List (NodeId × NetworkMessage)

namespace Cluster

/-! ## Model -/

/-- the clocks of the nodes are read at `now` -/
def init (numNodes now : ℤ) : Cluster := ⟨numNodes, fun n => DistributedDBNode.init n numNodes now, []⟩

/-- what an effect of a node's event puts onto incoming queues -/
def pushes (E : Env) (nd : DistributedDBNode) : Effect → List (NodeId × NetworkMessage)
  | .send msg => Network.pushed .listed E.hash E.raw (Delivery.connected nd) msg
  | .broadcastTreeAdjustment zones leaders =>
    (Network.broadcastTreeAdjustment E.hash E.raw (Delivery.connected nd) nd.nodeId zones leaders).filterMap
      (Network.serve .listed E.raw)
  | .pushLocal msg => [(nd.nodeId, msg)]

/-- the outcome of an event of node n -/
def after (cl : Cluster) (E : Env) (n : NodeId) (o : Outcome) : Cluster :=
  { cl with
    nodes := Function.update cl.nodes n o.node
    inFlight := cl.inFlight ++ o.effects.flatMap (pushes E (cl.nodes n)) }

inductive Act : Type 1 where
  /-- a round of one of the loops of node n -/
  | round (n : NodeId) (ev : Event)
  /-- message i of those in flight is handled -/
  | handle (E : Env) (i : ℕ)
  /-- a client sends a message to the server it is connected to -/
  | clientRequest (E : Env) (server : NodeId) (msg : NetworkMessage)

/-- messages are handled by `handle` -/
def IsRound : Event → Bool
  | .processMessage .. => false
  | _ => true

def step (cl : Cluster) : Act → Option Cluster
  | .round n ev =>
    if n ∈ intRange 1 cl.numNodes ∧ IsRound ev then ((cl.nodes n).step ev).map (cl.after ev.env n) else none
  | .handle E i => do
    let (n, msg) ← cl.inFlight[i]?
    let o ← (cl.nodes n).step (.processMessage E msg)
    some ({ cl with inFlight := cl.inFlight.eraseIdx i }.after E n o)
  | .clientRequest E server msg => some { cl with
      inFlight := cl.inFlight ++ Network.pushed .listed E.hash E.raw
        { Network.init 0 cl.numNodes true with clientToServerStub := some server } msg }

def Act.env : Act → Env
  | .round _ ev => ev.env
  | .handle E _ => E
  | .clientRequest E _ _ => E

/-- the event a step runs, and at which node -/
def event? (cl : Cluster) : Act → Option (NodeId × Event)
  | .round n ev => some (n, ev)
  | .handle E i => cl.inFlight[i]?.map fun p => (p.1, .processMessage E p.2)
  | .clientRequest .. => none

/-! ## What a step keeps of each node -/

/-- what is left in flight when the event of a step has been chosen: all, or all but the message it handles -/
inductive Chosen (cl : Cluster) (n : NodeId) : Event → List (NodeId × NetworkMessage) → Prop where
  | round {ev : Event} : IsRound ev = true → Chosen cl n ev cl.inFlight
  | handle (E : Env) {i : ℕ} {msg : NetworkMessage} : cl.inFlight[i]? = some (n, msg) →
    Chosen cl n (.processMessage E msg) (cl.inFlight.eraseIdx i)

/-- a step is an event of a node or a request of a client -/
theorem step_cases {cl cl' : Cluster} {a : Act} (h : cl.step a = some cl') :
    (∃ n ev o rest, cl.event? a = some (n, ev) ∧ a.env = ev.env ∧ Chosen cl n ev rest ∧
      (cl.nodes n).step ev = some o ∧ cl' = { cl with inFlight := rest }.after ev.env n o) ∨
    ∃ E server msg, a = .clientRequest E server msg ∧ cl' = { cl with
      inFlight := cl.inFlight ++ Network.pushed .listed E.hash E.raw
        { Network.init 0 cl.numNodes true with clientToServerStub := some server } msg } := by
  cases a with
  | round n ev =>
    simp only [step] at h
    split_ifs at h with hround
    obtain ⟨o, ho, rfl⟩ := Option.map_eq_some_iff.1 h
    exact Or.inl ⟨n, ev, o, cl.inFlight, rfl, rfl, .round hround.2, ho, rfl⟩
  | handle E i =>
    obtain ⟨⟨n, msg⟩, hmsg, h⟩ := Option.bind_eq_some_iff.1 h
    obtain ⟨o, ho, h⟩ := Option.bind_eq_some_iff.1 h
    cases h
    exact Or.inl ⟨n, .processMessage E msg, o, _, by simp [event?, hmsg], rfl, .handle E hmsg, ho, rfl⟩
  | clientRequest E server msg => cases h; exact Or.inr ⟨E, server, msg, rfl, rfl⟩

theorem nodes_after (cl : Cluster) (E : Env) (n k : NodeId) (o : Outcome) :
    (cl.after E n o).nodes k = if k = n then o.node else cl.nodes k := by
  by_cases hk : k = n
  · subst hk; simp [after]
  · simp [after, hk]

/-- a step keeps the ids of every node and changes its manager by operations of the manager only -/
theorem step_sameNode {cl cl' : Cluster} {a : Act} (h : cl.step a = some cl') (k : NodeId) :
    DistributedDBNode.SameNode a.env (cl.nodes k) (cl'.nodes k) := by
  rcases step_cases h with ⟨n, ev, o, rest, -, henv, -, ho, rfl⟩ | ⟨E, server, msg, -, rfl⟩
  · rw [nodes_after, henv]
    split_ifs with hk
    · subst hk; exact DistributedDBNode.step_sameNode ho
    · exact .refl ev.env (cl.nodes k)
  · exact .refl _ (cl.nodes k)

theorem step_numNodes {cl cl' : Cluster} {a : Act} (h : cl.step a = some cl') : cl'.numNodes = cl.numNodes := by
  rcases step_cases h with ⟨n, ev, o, rest, -, -, -, -, rfl⟩ | ⟨E, server, msg, -, rfl⟩ <;> rfl

/-- every node knows its own id and the number of nodes -/
structure WellFormed (cl : Cluster) : Prop where
  nodeId : ∀ n, (cl.nodes n).nodeId = n
  numNodes : ∀ n, (cl.nodes n).numNodes = cl.numNodes
  zonesNodeId : ∀ n, (cl.nodes n).detectionZoneManager.nodeId = n

theorem wellFormed_init (numNodes now : ℤ) : WellFormed (init numNodes now) :=
  ⟨fun _ => rfl, fun _ => rfl, fun _ => rfl⟩

theorem step_wellFormed {cl cl' : Cluster} {a : Act} (hcl : WellFormed cl) (h : cl.step a = some cl') :
    WellFormed cl' where
  nodeId n := (step_sameNode h n).nodeId.trans (hcl.nodeId n)
  numNodes n := by rw [(step_sameNode h n).numNodes, hcl.numNodes n, step_numNodes h]
  zonesNodeId n := (step_sameNode h n).zonesNodeId.trans (hcl.zonesNodeId n)

theorem wellFormed_of_reaches {numNodes now : ℤ} {cl : Cluster} (h : Reaches step (init numNodes now) cl) :
    WellFormed cl :=
  h.invariant (wellFormed_init numNodes now) fun _ _ _ hcl _ hst => step_wellFormed hcl hst

/-- the transactions of each node are its own -/
def Inv (cl : Cluster) : Prop := ∀ n, TransactionManager.Inv n (cl.nodes n).transactionManager

theorem inv_init (numNodes now : ℤ) : Inv (init numNodes now) := fun n => TransactionManager.inv_init n

theorem step_inv {cl cl' : Cluster} {a : Act} (hE : TransactionManager.KeepsHomes a.env) (hinv : Inv cl)
    (h : cl.step a = some cl') : Inv cl' := by
  intro n
  apply (step_sameNode h n).runsIn.invariant (hinv n)
  intro tm op tm' htm henv hst
  apply TransactionManager.step_inv _ htm hst
  rw [henv]; exact hE

theorem inv_of_reaches {numNodes now : ℤ} {cl : Cluster}
    (h : ReachesBy step (fun _ a => TransactionManager.KeepsHomes a.env) (init numNodes now) cl) : Inv cl :=
  h.invariant (inv_init numNodes now) fun _ _ _ hinv hE hst => step_inv hE hinv hst

/-! ## Samples of the predicted access graph -/

/-- a node whose transactions are all homed at it samples no edge -/
theorem collectCrossNodeWFDEdges_eq_nil {H : HashOrder} {n : NodeId} {tm : TransactionManager} {edges : List WFDEdge}
    (hinv : TransactionManager.Inv n tm) (h : LockTable.collectCrossNodeWFDEdges H tm = some edges) : edges = [] := by
  have hedge : ∀ w acc holder acc', acc = [] → LockTable.addCrossNodeEdge tm w acc holder = some acc' →
      acc' = [] := by
    intro w acc holder acc' hacc hadd
    obtain ⟨waiting, hwaiting, hadd⟩ := Option.bind_eq_some_iff.1 hadd
    obtain ⟨holding, hholding, hadd⟩ := Option.bind_eq_some_iff.1 hadd
    have hsame : waiting.homeNodeId = holding.homeNodeId := by
      rw [(hinv.homed w waiting hwaiting).2, (hinv.homed holder.1 holding hholding).2]
    rw [if_neg (not_not_intro hsame)] at hadd
    cases hadd; exact hacc
  refine foldlM_invariant (P := fun acc => acc = []) ?_ h rfl
  intro acc r acc' _ hacc hround
  cases hfront : LockTable.frontWaiter tm r with
  | none => rw [hfront] at hround; cases hround; exact hacc
  | some w =>
    rw [hfront] at hround
    exact foldlM_invariant (P := fun acc => acc = []) (fun acc holder acc' _ => hedge w acc holder acc') hround hacc

/-- transaction t of node A is blocked waiting for resource r of node B, and transaction t' of node C holds r; neither
B nor C is A -/
structure CrossNodeWait (cl : Cluster) (t t' : TransactionId) (r : ResourceId) (A B C : NodeId) : Prop where
  nodes : A ∈ intRange 1 cl.numNodes ∧ B ∈ intRange 1 cl.numNodes ∧ C ∈ intRange 1 cl.numNodes
  waiter : ∃ txn, (cl.nodes A).transactionManager.getTransaction t = some txn ∧ txn.homeNodeId = A ∧
    txn.status = .blocked ∧ txn.waitingForResourceId = r
  owner : getOwnerNodeId r = B
  remote : B ≠ A
  held : t' ∈ (cl.nodes B).transactionManager.resourceManager.getResourceHolders r
  holder : ∃ txn, (cl.nodes C).transactionManager.getTransaction t' = some txn ∧ txn.homeNodeId = C
  elsewhere : C ≠ A

/-- the edge is among those node n collects -/
def Sampled (cl : Cluster) (n : NodeId) (edge : WFDEdge) : Prop :=
  ∃ H edges, LockTable.collectCrossNodeWFDEdges H (cl.nodes n).transactionManager = some edges ∧ edge ∈ edges

/-- **Waits across nodes are invisible.** In every reachable cluster no node samples any edge, so of the waits across
nodes none is sampled at the owner of its resource. -/
theorem crossNodeWait_invisible {numNodes now : ℤ} {cl : Cluster}
    (h : ReachesBy step (fun _ a => TransactionManager.KeepsHomes a.env) (init numNodes now) cl) :
    (∀ n edge, ¬ Sampled cl n edge) ∧
    ∀ t t' r A B C, CrossNodeWait cl t t' r A B C → ¬ Sampled cl B ⟨t, t', A, C⟩ := by
  have hnone : ∀ n edge, ¬ Sampled cl n edge := by
    intro n edge hsampled
    obtain ⟨H, edges, hedges, hmem⟩ := hsampled
    rw [collectCrossNodeWFDEdges_eq_nil (inv_of_reaches h n) hedges] at hmem
    exact absurd hmem List.not_mem_nil
  exact ⟨hnone, fun t t' r A B C _ => hnone B ⟨t, t', A, C⟩⟩

/-- ten statements that write one resource -/
def writes (r : ResourceId) : List (ResourceId × LockMode) := List.replicate 10 (r, .exclusive)

/-- transaction 1 of node 1 asks node 2 for a resource that transaction 2 of node 2 holds; the request is handled -/
def askAcross : List Act :=
  [.round 2 (.beginTransaction .quiet (writes 1002)), .round 2 (.beginTransaction .quiet (writes 1001)),
    .round 2 (.tryExecuteNextSQLStatement .quiet 2), .round 1 (.beginTransaction .quiet (writes 1001)),
    .round 1 (.tryExecuteNextSQLStatement .quiet 1), .handle .quiet 0]

def askedAcross : Cluster := (run step (init 2 0) askAcross).get rfl

theorem askedAcross_reached :
    ReachesBy step (fun _ a => TransactionManager.KeepsHomes a.env) (init 2 0) askedAcross := by
  have hquiet : TransactionManager.KeepsHomes .quiet := fun _ _ _ _ txn h => ⟨txn, h, rfl⟩
  have henv : ∀ a ∈ askAcross, TransactionManager.KeepsHomes a.env := by
    simp [askAcross, Act.env, Event.env, hquiet]
  have hrun : ReachesBy step (fun _ a => TransactionManager.KeepsHomes a.env ∧ True) (init 2 0) askedAcross :=
    ReachesBy.of_run_of_forall henv (Option.some_get _).symm
  exact hrun.mono fun _ _ hok => hok.1

theorem crossNodeWait_askedAcross : CrossNodeWait askedAcross 1 2 1001 1 2 2 where
  nodes := by decide
  waiter := ⟨_, rfl, rfl, rfl, rfl⟩
  owner := rfl
  remote := by decide
  held := by decide
  holder := ⟨_, rfl, rfl⟩
  elsewhere := by decide

theorem invisible_askedAcross : askedAcross.inFlight = [] ∧ CrossNodeWait askedAcross 1 2 1001 1 2 2 ∧
    ¬ Sampled askedAcross 2 ⟨1, 2, 1, 2⟩ :=
  ⟨rfl, crossNodeWait_askedAcross,
    (crossNodeWait_invisible askedAcross_reached).2 1 2 1001 1 2 2 crossNodeWait_askedAcross⟩

theorem wait_unsampled : ¬ ∀ numNodes now cl, 2 ≤ numNodes →
    ReachesBy step (fun _ a => TransactionManager.KeepsHomes a.env) (init numNodes now) cl → cl.inFlight = [] →
    ∀ t t' r A B C, CrossNodeWait cl t t' r A B C → Sampled cl B ⟨t, t', A, C⟩ := by
  intro hall
  obtain ⟨H, edges, hedges, hmem⟩ := hall 2 0 askedAcross (by decide) askedAcross_reached rfl 1 2 1001 1 2 2
    crossNodeWait_askedAcross
  rw [collectCrossNodeWFDEdges_eq_nil (inv_of_reaches askedAcross_reached 2) hedges] at hmem
  exact absurd hmem List.not_mem_nil

end Cluster

end HawkTxn
