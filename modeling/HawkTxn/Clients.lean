/-
Clients of a cluster (`Network.cpp`, `DistributedDBNode.cpp`).

A client announces itself to a server with a request of its own making, which is not encoded by
`convertToProtoMessage`, and sends everything else through `sendMessage`. It is node 0, which no node has a stub for.

Results:
- `processMessage_fromClient`: a node that handles a message of a client stays as it is and pushes nothing;
- `clients_erased`: with clients, the nodes of a cluster go through the states they go through without.
-/
import HawkTxn.Standstill

namespace HawkTxn

open HawkTxn.Core
open DistributedDBNode (Event)

namespace Network

/-! ## Model -/

/-- the call that `connectToServer` makes -/
def connectRequest (serverNodeId : NodeId) : HawkTxn.Delivery where
  target := serverNodeId
  rpc := .sendClientPrintDeadlockRequest
  request := { type := .clientPrintDeadlockRequest, senderId := 0, receiverId := serverNodeId }

/-- the network with its stub, and the call made; a network that is not a client's makes none -/
def connectToServer (net : Network) (serverNodeId : NodeId) : Option (Network × HawkTxn.Delivery) :=
  if net.isClient then some ({ net with clientToServerStub := some serverNodeId }, connectRequest serverNodeId)
  else none

/-- what `sendCollectCommand` sends -/
def collectCommand (raw : RawScalars) (targetNodeId : NodeId) : NetworkMessage :=
  { NetworkMessage.declare raw with type := .clientCollectWfgRequest, senderId := 0, receiverId := targetNodeId }

/-- what `sendPrintCommand` sends -/
def printCommand (raw : RawScalars) : NetworkMessage :=
  { NetworkMessage.declare raw with
    type := .clientPrintDeadlockRequest, senderId := 0, receiverId := centralizedNodeId }

/-- what `sendAbortCommand` sends -/
def abortCommand (raw : RawScalars) (victimTransId : TransactionId) : NetworkMessage :=
  { NetworkMessage.declare raw with
    type := .clientResolveDeadlockRequest, senderId := 0, receiverId := centralizedNodeId,
    victimTransId := victimTransId }

end Network

namespace Cluster

variable {numNodes now : ℤ} {n : NodeId} {nd : DistributedDBNode} {cl cl' : Cluster}

/-- what happens in a cluster with clients -/
inductive ClientAct : Type 1 where
  | cluster (a : Act)
  | connectToServer (E : Env) (serverNodeId : NodeId)

def clientStep (cl : Cluster) : ClientAct → Option Cluster
  | .cluster a => cl.step a
  | .connectToServer E serverNodeId => some { cl with
      inFlight := cl.inFlight ++ (Network.serve .listed E.raw (Network.connectRequest serverNodeId)).toList }

/-- a node does it, and not a client -/
def Act.ByNode : Act → Prop
  | .clientRequest .. => False
  | _ => True

/-- the retry callback keeps homes, and a client gives its id as the sender's -/
def ClientAct.Proper : ClientAct → Prop
  | .cluster a => TransactionManager.KeepsHomes a.env ∧
      ∀ E server msg, a = .clientRequest E server msg → msg.senderId = 0
  | .connectToServer .. => True

/-- of the messages in flight, those that clients have sent -/
def fromClient (p : NodeId × NetworkMessage) : Bool :=
  p.2.type = .clientPrintDeadlockRequest || p.2.type = .clientResolveDeadlockRequest

/-! ## What a node makes of a client -/

/-- a message to node 0 is not pushed -/
theorem not_pushed_zero {H : HashOrder} {raw : RawScalars} {msg : NetworkMessage} {p : NodeId × NetworkMessage}
    (hzero : msg.receiverId = 0) : p ∉ Network.pushed .listed H raw (Delivery.connected nd) msg := by
  intro hp
  obtain ⟨hreceiver, hrange, -⟩ := Network.mem_pushed_connected hp
  rw [hreceiver, hzero] at hrange
  exact absurd hrange (by simp [mem_intRange])

/-- messages to node 0 and to the node itself only -/
theorem pushes_sends_eq_nil {E : Env} {nd' : DistributedDBNode} {msgs : List NetworkMessage} {threw : Bool}
    (h : ∀ msg ∈ msgs, msg.receiverId = 0 ∨ msg.receiverId = nd.nodeId) :
    (nd'.sends msgs threw).effects.flatMap (pushes E nd) = [] := by
  rw [List.flatMap_eq_nil_iff]
  intro effect heffect
  obtain ⟨msg, hmsg, rfl⟩ := List.mem_map.1 heffect
  rw [List.eq_nil_iff_forall_not_mem]
  intro p
  rcases h msg hmsg with hzero | hself
  · exact not_pushed_zero hzero
  · exact not_pushed_self hself

/-- **What a client asks for.** A node whose transactions are its own stays as it is and pushes nothing: it has no stub
for the client, and none for itself, the only home it could signal. -/
theorem processMessage_fromClient {E : Env} {msg : NetworkMessage} {o : Outcome}
    (hinv : TransactionManager.Inv n nd.transactionManager) (hid : nd.nodeId = n) (hclient : fromClient (n, msg))
    (hsender : msg.senderId = 0) (h : nd.processMessage E msg = some o) :
    o.node = nd ∧ o.effects.flatMap (pushes E nd) = [] := by
  have htype : msg.type = .clientPrintDeadlockRequest ∨ msg.type = .clientResolveDeadlockRequest := by
    simpa [fromClient] using hclient
  unfold DistributedDBNode.processMessage at h
  rcases htype with htype | htype
  · rw [htype] at h
    cases h
    unfold DistributedDBNode.handleClientPrintDeadlockRequest
    split_ifs
    · refine ⟨rfl, pushes_sends_eq_nil ?_⟩
      intro reply hreply
      rw [List.mem_singleton.1 hreply]
      exact Or.inl hsender
    · exact ⟨rfl, rfl⟩
  · rw [htype] at h
    cases h
    unfold DistributedDBNode.handleClientResolveDeadlockRequest
    split_ifs
    · refine ⟨rfl, pushes_sends_eq_nil ?_⟩
      intro reply hreply
      rcases List.mem_append.1 hreply with hreply | hreply
      · exact Or.inr (abortSignals_self hinv hid _ reply hreply)
      · rw [List.mem_singleton.1 hreply]
        exact Or.inl hsender
    · exact ⟨rfl, rfl⟩

/-- no node speaks for a client -/
theorem not_fromClient_of_pushes {E : Env} {ev : Event} {o : Outcome} (h : nd.step ev = some o) :
    ∀ p ∈ o.effects.flatMap (pushes E nd), fromClient p = false := by
  intro p hp
  obtain ⟨effect, heffect, hp⟩ := List.mem_flatMap.1 hp
  cases effect with
  | send msg =>
    have hsent : msg ∈ o.sent := List.mem_filterMap.2 ⟨_, heffect, rfl⟩
    have htype : msg.type ∈ DistributedDBNode.sentTypes := DistributedDBNode.step_types h msg hsent
    rw [fromClient, (Network.mem_pushed hp).1, Network.transmit_type]
    generalize msg.type = t at htype
    revert t
    decide
  | broadcastTreeAdjustment zones leaders =>
    obtain ⟨d, hd, hserve⟩ := List.mem_filterMap.1 hp
    cases hserve
    obtain ⟨i, -, hd⟩ := List.mem_filterMap.1 hd
    split_ifs at hd
    obtain ⟨stub, -, rfl⟩ := Option.map_eq_some_iff.1 hd
    rfl
  | pushLocal msg =>
    have hprobe : msg.type = .pathPushingProbe := by
      rcases DistributedDBNode.step_cases h with ⟨-, hkept⟩ | ⟨E, m, -, -, hinit⟩ | ⟨E, m, -, -, hpag⟩
      · exact hkept.pushLocal msg heffect
      · obtain ⟨dz, -, rfl⟩ := Option.map_eq_some_iff.1 hinit
        cases heffect
      · obtain ⟨-, -, heffects⟩ := DistributedDBNode.handlePAGResponse_cases hpag
        rcases heffects with hnone | ⟨-, cut, hcut, -⟩
        · rw [hnone] at heffect
          cases heffect
        · rw [hcut] at heffect
          cases List.mem_singleton.1 heffect
    rw [List.mem_singleton.1 hp, fromClient, hprobe]
    rfl

/-- what a client sends through `sendMessage` says so -/
theorem fromClient_of_clientRequest {H : HashOrder} {raw : RawScalars} {net : Network} {msg : NetworkMessage}
    (hclient : net.isClient = true) :
    ∀ p ∈ Network.pushed .listed H raw net msg, fromClient p = true ∧ p.2.senderId = msg.senderId := by
  intro p hp
  obtain ⟨hmsg, hrpc⟩ := Network.mem_pushed hp
  have hrpc := hrpc hclient
  rw [Delivery.convertToProtoMessage_type] at hrpc
  refine ⟨?_, by rw [hmsg, (Network.transmit_sender_receiver H raw msg).1]⟩
  rw [fromClient, hmsg, Network.transmit_type]
  cases htype : msg.type <;> rw [htype] at hrpc <;> first | rfl | exact absurd rfl hrpc

/-! ## The messages of clients, left out -/

section Filter

variable {α : Type*} {p : α → Bool} {l : List α} {i : ℕ} {x : α}

/-- the list around one of its elements -/
theorem exists_around (hi : l[i]? = some x) :
    ∃ pre suf, l = pre ++ x :: suf ∧ l.eraseIdx i = pre ++ suf := by
  obtain ⟨hlt, rfl⟩ := List.getElem?_eq_some_iff.1 hi
  refine ⟨l.take i, l.drop (i + 1), ?_, List.eraseIdx_eq_take_drop_succ l i⟩
  rw [← List.drop_eq_getElem_cons hlt, List.take_append_drop]

theorem filter_eraseIdx_of_not (hi : l[i]? = some x) (hx : p x = false) :
    (l.eraseIdx i).filter p = l.filter p := by
  obtain ⟨pre, suf, hl, herase⟩ := exists_around hi
  rw [herase, hl]
  simp [hx]

/-- what is kept of a list has the element too, at a place of its own -/
theorem filter_eraseIdx_of_keep (hi : l[i]? = some x) (hx : p x = true) :
    ∃ j, (l.filter p)[j]? = some x ∧ (l.eraseIdx i).filter p = (l.filter p).eraseIdx j := by
  obtain ⟨pre, suf, hl, herase⟩ := exists_around hi
  refine ⟨(pre.filter p).length, ?_, ?_⟩
  · rw [hl]
    simp [hx]
  · rw [herase, hl]
    simp [hx, List.eraseIdx_append_of_length_le]

end Filter

/-- what is in flight does not matter -/
theorem WellFormed.of_nodes (h : WellFormed cl) (hnodes : cl'.nodes = cl.nodes) (hnum : cl'.numNodes = cl.numNodes) :
    WellFormed cl' where
  nodeId n := by rw [hnodes, h.nodeId]
  numNodes n := by rw [hnodes, hnum, h.numNodes]
  zonesNodeId n := by rw [hnodes, h.zonesNodeId]

/-- the same nodes, and in flight everything but the messages of clients -/
structure Erased (cl cl' : Cluster) : Prop where
  homes : Inv cl
  wellFormed : WellFormed cl
  senders : ∀ p ∈ cl.inFlight, fromClient p = true → p.2.senderId = 0
  numNodes : cl'.numNodes = cl.numNodes
  nodes : cl'.nodes = cl.nodes
  inFlight : cl'.inFlight = cl.inFlight.filter fun p => !fromClient p

theorem erased_init (numNodes now : ℤ) : Erased (init numNodes now) (init numNodes now) where
  homes := inv_init numNodes now
  wellFormed := wellFormed_init numNodes now
  senders _ hp := absurd hp List.not_mem_nil
  numNodes := rfl
  nodes := rfl
  inFlight := rfl

/-- messages of clients are put in flight -/
theorem Erased.request (h : Erased cl cl') {l : List (NodeId × NetworkMessage)}
    (hl : ∀ p ∈ l, fromClient p = true ∧ p.2.senderId = 0) : Erased { cl with inFlight := cl.inFlight ++ l } cl' where
  homes := h.homes
  wellFormed := h.wellFormed.of_nodes rfl rfl
  senders p hp hclient := by
    rcases List.mem_append.1 hp with hp | hp
    · exact h.senders p hp hclient
    · exact (hl p hp).2
  numNodes := h.numNodes
  nodes := h.nodes
  inFlight := by
    have hnone : l.filter (fun p => !fromClient p) = [] := List.filter_eq_nil_iff.2 fun p hp => by simp [(hl p hp).1]
    rw [List.filter_append, hnone, List.append_nil, h.inFlight]

/-- both clusters go through the outcome of an event, from what is left in flight -/
theorem Erased.after (h : Erased cl cl') {a : Act} {ev : Event} {o : Outcome} {rest : List (NodeId × NetworkMessage)}
    (hE : TransactionManager.KeepsHomes a.env) (ho : (cl.nodes n).step ev = some o)
    (hst : cl.step a = some ({ cl with inFlight := rest }.after ev.env n o)) (hrest : ∀ p ∈ rest, p ∈ cl.inFlight) :
    Erased ({ cl with inFlight := rest }.after ev.env n o)
      ({ cl' with inFlight := rest.filter fun p => !fromClient p }.after ev.env n o) where
  homes := step_inv hE h.homes hst
  wellFormed := step_wellFormed h.wellFormed hst
  senders p hp hclient := by
    rcases List.mem_append.1 hp with hp | hp
    · exact h.senders p (hrest p hp) hclient
    · rw [not_fromClient_of_pushes ho p hp] at hclient
      cases hclient
  numNodes := h.numNodes
  nodes := by rw [Cluster.after, Cluster.after, h.nodes]
  inFlight := by
    have hall : (o.effects.flatMap (pushes ev.env (cl.nodes n))).filter (fun p => !fromClient p) =
        o.effects.flatMap (pushes ev.env (cl.nodes n)) :=
      List.filter_eq_self.2 fun p hp => by rw [not_fromClient_of_pushes ho p hp]; rfl
    simp only [Cluster.after, h.nodes, List.filter_append, hall]

/-- a node handles a message of a client -/
theorem Erased.ignored (h : Erased cl cl') {E : Env} {i : ℕ} {msg : NetworkMessage} {o : Outcome}
    (hi : cl.inFlight[i]? = some (n, msg)) (hclient : fromClient (n, msg) = true)
    (ho : (cl.nodes n).processMessage E msg = some o) :
    Erased ({ cl with inFlight := cl.inFlight.eraseIdx i }.after E n o) cl' := by
  have hsender : msg.senderId = 0 := h.senders _ (List.mem_of_getElem? hi) hclient
  obtain ⟨hnode, hnone⟩ := processMessage_fromClient (h.homes n) (h.wellFormed.nodeId n) hclient hsender ho
  have hsame : Function.update cl.nodes n o.node = cl.nodes := by rw [hnode, Function.update_eq_self]
  have hrest := filter_eraseIdx_of_not (p := fun p => !fromClient p) hi (by simp [hclient])
  unfold Cluster.after
  rw [hnone, hsame, List.append_nil]
  exact ⟨h.homes, h.wellFormed.of_nodes rfl rfl, fun p hp => h.senders p (List.mem_of_mem_eraseIdx hp), h.numNodes,
    h.nodes, h.inFlight.trans hrest.symm⟩

/-- what nodes do by themselves -/
abbrev NodeRun : Cluster → Cluster → Prop := ReachesBy step fun _ a => TransactionManager.KeepsHomes a.env ∧ a.ByNode

theorem clientStep_erased {a : ClientAct} {t : Cluster} (h : Erased cl cl') (ha : a.Proper)
    (hst : cl.clientStep a = some t) : ∃ t', NodeRun cl' t' ∧ Erased t t' := by
  cases a with
  | connectToServer E serverNodeId =>
    cases hst
    refine ⟨cl', .start, h.request ?_⟩
    intro p hp
    rw [List.mem_singleton.1 hp]
    exact ⟨rfl, rfl⟩
  | cluster a =>
    obtain ⟨hE, hsender⟩ := ha
    cases a with
    | round k ev =>
      have hst' : cl.step (.round k ev) = some t := hst
      simp only [clientStep, step] at hst
      split_ifs at hst with hround
      obtain ⟨o, ho, rfl⟩ := Option.map_eq_some_iff.1 hst
      refine ⟨cl'.after ev.env k o, .next .start (a := .round k ev) ⟨hE, trivial⟩ ?_, ?_⟩
      · rw [step, h.numNodes, if_pos hround, h.nodes, ho]
        rfl
      · have hafter := h.after hE ho hst' fun p hp => hp
        rw [← h.inFlight] at hafter
        exact hafter
    | handle E i =>
      have hst' : cl.step (.handle E i) = some t := hst
      obtain ⟨⟨k, msg⟩, hmsg, hst⟩ := Option.bind_eq_some_iff.1 hst
      obtain ⟨o, ho, hst⟩ := Option.bind_eq_some_iff.1 hst
      cases hst
      cases hclient : fromClient (k, msg) with
      | true => exact ⟨cl', .start, h.ignored hmsg hclient ho⟩
      | false =>
        obtain ⟨j, hj, herase⟩ := filter_eraseIdx_of_keep (p := fun p => !fromClient p) hmsg (by simp [hclient])
        have hevent : (cl.nodes k).step (.processMessage E msg) = some o := ho
        have hafter := h.after hE hevent hst' fun p hp => List.mem_of_mem_eraseIdx hp
        rw [herase, ← h.inFlight] at hafter
        refine ⟨_, .next .start (a := .handle E j) ⟨hE, trivial⟩ ?_, hafter⟩
        rw [step, h.inFlight, hj, h.nodes]
        simp only [Option.bind_eq_bind, Option.bind_some]
        rw [hevent]
        rfl
    | clientRequest E server msg =>
      cases hst
      refine ⟨cl', .start, h.request ?_⟩
      intro p hp
      obtain ⟨hclient, hid⟩ := fromClient_of_clientRequest rfl p hp
      exact ⟨hclient, hid.trans (hsender E server msg rfl)⟩

/-- a run with clients, and one of the nodes alone -/
theorem erased_of_reaches (h : ReachesBy clientStep (fun _ a => a.Proper) (init numNodes now) cl) :
    ∃ cl', NodeRun (init numNodes now) cl' ∧ Erased cl cl' :=
  h.simulated (erased_init numNodes now) fun _ _ _ _ herased ha hst => clientStep_erased herased ha hst

/-- **Clients change nothing.** Whatever clients ask for, of whichever servers and at whatever times, the nodes of a
cluster go through the same states as without them: those they reach with clients and by themselves are the same. -/
theorem clients_erased (nodes : NodeId → DistributedDBNode) :
    (∃ cl, ReachesBy clientStep (fun _ a => a.Proper) (init numNodes now) cl ∧ cl.nodes = nodes) ↔
    ∃ cl, NodeRun (init numNodes now) cl ∧ cl.nodes = nodes := by
  refine ⟨?_, ?_⟩
  · intro hclients
    obtain ⟨cl, hcl, rfl⟩ := hclients
    obtain ⟨cl', hcl', herased⟩ := erased_of_reaches hcl
    exact ⟨cl', hcl', herased.nodes⟩
  · intro hnodes
    obtain ⟨cl, hcl, rfl⟩ := hnodes
    refine ⟨cl, ?_, rfl⟩
    induction hcl with
    | start => exact .start
    | @next s t a _ ha hst ih =>
      refine .next (a := .cluster a) ih ⟨ha.1, ?_⟩ hst
      rintro E server msg rfl
      exact absurd ha.2 id

end Cluster

end HawkTxn
