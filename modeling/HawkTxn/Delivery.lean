/-
Which messages of a node arrive.

The service of a network is constructed with a pointer that is not constructed yet, so no message arrives at all. This
hides two more ways to lose one, which are there in whichever order the members are initialised: a node sends through a
`Network` whose stubs `connectToPeers` built, and the stub table has no entry for the node itself; and the encoder has
no case for PAG_REQUEST, so such a message has type UNKNOWN, for which there is no RPC. With the queue constructed
first, every other message a node sends to a node of the cluster would arrive, once and with its type.

Results:
- `nothing_arrives`.
-/
import HawkTxn.DistributedDBNode
import HawkTxn.Network.Transport

namespace HawkTxn

open HawkTxn.Core

namespace Delivery

/-- the message is pushed exactly once, onto its receiver's incoming queue, with the type it was sent with -/
def Arrives (pushes : List (NodeId × NetworkMessage)) (msg : NetworkMessage) : Prop :=
  ∃ received, pushes = [(msg.receiverId, received)] ∧ received.type = msg.type

/-- the network a node sends through -/
def connected (nd : DistributedDBNode) : Network := (Network.init nd.nodeId nd.numNodes false).connectToPeers

/-- the type the encoder writes -/
theorem convertToProtoMessage_type (H : HashOrder) (m : NetworkMessage) :
    (Network.convertToProtoMessage H m).type = if m.type ∈ Network.unencodedTypes then .unknown else m.type := by
  cases hm : m.type <;> simp [Network.convertToProtoMessage, hm, Network.unencodedTypes]

/-- of the types nodes send, only PAG_REQUEST has no RPC after encoding -/
theorem peerRpc_eq_none_iff {H : HashOrder} {m : NetworkMessage} (h : m.type ∈ DistributedDBNode.sentTypes) :
    Network.peerRpc (Network.convertToProtoMessage H m).type = none ↔ m.type = .pagRequest := by
  rw [convertToProtoMessage_type]
  generalize m.type = t at h
  revert t
  decide

/-- of the types nodes send, only PAG_REQUEST is changed on the way -/
theorem transmit_type_eq {H : HashOrder} {raw : RawScalars} {m : NetworkMessage}
    (h : m.type ∈ DistributedDBNode.sentTypes) (hne : m.type ≠ .pagRequest) :
    (Network.transmit H raw m).type = m.type := by
  rw [Network.transmit_type]
  generalize m.type = t at h hne
  revert t
  decide

/-- **Delivery.** Whatever happens at a node and in whatever state, no message it sends to a node of 1..numNodes
arrives. Were the queue constructed before the service, a message would arrive exactly if it goes to another node and
is no PAG_REQUEST. -/
theorem nothing_arrives (H : HashOrder) (raw : RawScalars) {nd : DistributedDBNode} {ev : DistributedDBNode.Event}
    {o : Outcome} {msg : NetworkMessage} (hst : nd.step ev = some o) (hsent : msg ∈ o.sent)
    (hr : msg.receiverId ∈ intRange 1 nd.numNodes) :
    ¬ Arrives (Network.pushed .declared H raw (connected nd) msg) msg ∧
    (Arrives (Network.pushed .listed H raw (connected nd) msg) msg ↔
      msg.receiverId ≠ nd.nodeId ∧ msg.type ≠ .pagRequest) := by
  have htype : msg.type ∈ DistributedDBNode.sentTypes := DistributedDBNode.step_types hst msg hsent
  rw [connected, Network.pushed_connectToPeers H raw hr, Network.pushed_declared]
  simp only [ne_eq, peerRpc_eq_none_iff htype]
  refine ⟨?_, ?_, ?_⟩
  · intro harrives
    obtain ⟨received, hpush, -⟩ := harrives
    cases hpush
  · intro harrives
    obtain ⟨received, hpush, -⟩ := harrives
    split_ifs at hpush with h
    exact h
  · intro h
    rw [if_pos h]
    exact ⟨_, rfl, transmit_type_eq htype h.2⟩

/-- node 2 of two reports to the central node after a ZONE_WFG_REPORT without edges -/
def zoneReport : NetworkMessage :=
  DistributedDBNode.requestMsg .quiet (DistributedDBNode.init 2 2 0) .centralWfgReportFromZone 1

def reporting : Outcome :=
  ((DistributedDBNode.init 2 2 0).step (.processMessage .quiet
    { NetworkMessage.declare Env.quiet.raw with type := .zoneWfgReport, senderId := 2, receiverId := 2 })).get rfl

theorem nothing_arrives_zoneReport :
    ¬ Arrives (Network.pushed .declared .stored Env.quiet.raw (connected (DistributedDBNode.init 2 2 0)) zoneReport)
      zoneReport :=
  (nothing_arrives .stored Env.quiet.raw (o := reporting) (Option.some_get _).symm List.mem_cons_self (by decide)).1

/-- the central node of a cluster of two, with a transaction of its own -/
def centralNode : DistributedDBNode :=
  (((DistributedDBNode.init 1 2 0).step (.beginTransaction .quiet [])).get rfl).node

/-- the client asks it to abort that transaction -/
def resolveRequest : NetworkMessage :=
  { NetworkMessage.declare Env.quiet.raw with
    type := .clientResolveDeadlockRequest, receiverId := 1, victimTransId := 1 }

/-- the signal it sends to itself -/
def selfAbort : NetworkMessage := DistributedDBNode.abortMsg .quiet centralNode 1 1

theorem messages_lost :
    (¬ ∀ H raw (nd : DistributedDBNode) ev o msg, nd.step ev = some o → msg ∈ o.sent →
      msg.receiverId ∈ intRange 1 nd.numNodes → Arrives (Network.pushed .declared H raw (connected nd) msg) msg) ∧
    ¬ ∀ H raw (nd : DistributedDBNode) ev o msg, nd.step ev = some o → msg ∈ o.sent →
      msg.receiverId ∈ intRange 1 nd.numNodes → Arrives (Network.pushed .listed H raw (connected nd) msg) msg := by
  refine ⟨?_, ?_⟩
  · intro h
    obtain ⟨received, hpush, -⟩ := h .stored Env.quiet.raw (DistributedDBNode.init 2 2 0) _ reporting zoneReport
      (Option.some_get rfl).symm List.mem_cons_self (by decide)
    rw [Network.pushed_declared] at hpush
    cases hpush
  · intro h
    have hsent : selfAbort ∈ ((centralNode.step (.processMessage .quiet resolveRequest)).get rfl).sent :=
      List.mem_cons_self
    obtain ⟨received, hpush, -⟩ :=
      h .stored Env.quiet.raw centralNode _ _ selfAbort (Option.some_get rfl).symm hsent (by decide)
    have hnone : Network.pushed .listed .stored Env.quiet.raw (connected centralNode) selfAbort = [] := rfl
    rw [hnone] at hpush
    cases hpush

end Delivery

end HawkTxn
