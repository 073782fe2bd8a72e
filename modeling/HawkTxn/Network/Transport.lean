/-
Sending and receiving (`Network.h`, `Network.cpp`).

A stub is the id of the node whose server it was created for. A call that gets through is a `Delivery`: the RPC, the
request and the node that serves it. Every RPC of the service does the same: decode the request and push it through the
pointer that the service was constructed with. Calls do not fail here; what is dropped before a call is made is dropped
by `sendMessage`.

The header declares `service_` before `incomingQueue_`, so the service copies the pointer before it is constructed, and
nothing it serves reaches the queue of its node. The list of the constructor names the queue first. What nodes do with
the messages they were meant to get is told for that order (`MemberOrder.listed`), also in the modules on clusters.

Results:
- `lookup_connectToPeers`: the stubs of a connected node;
- `pushed_declared`: with the members in the order of the header nothing is pushed;
- `pushed_connectToPeers`: in the order of the list, a message to another node is pushed exactly when there is an RPC
  for its encoded type.
-/
import HawkTxn.Network.Codec

namespace HawkTxn

open HawkTxn.Core UnorderedMap

/-- the RPCs of `hawk::HawkService` -/
inductive Rpc where
  | sendLockRequest
  | sendLockResponse
  | sendReleaseLockRequest
  | sendReleaseLockResponse
  | sendPAGRequest
  | sendPAGResponse
  | sendWFGReport
  | sendDeadlockResolution
  | sendAbortTransactionSignal
  | sendDistributedDetectionInit
  | sendZoneDetectionRequest
  | sendZoneWFGReport
  | sendCentralWFGReportFromZone
  | sendPathPushingProbe
  | sendClientCollectWFGRequest
  | sendClientPrintDeadlockRequest
  | sendClientResolveDeadlockRequest
  | sendDeadlockReportToClient
deriving DecidableEq, Repr

structure Network where
  nodeId : NodeId
  numNodes : ℤ
  isClient : Bool
  peerStubs : UnorderedMap NodeId NodeId
  clientToServerStub : Option NodeId

/-- a request on its way to the server of a node -/
structure Delivery where
  target : NodeId
  rpc : Rpc
  request : ProtoMessage

namespace Network

/-! ## Model -/

def init (nodeId : NodeId) (numNodes : ℤ) (isClient : Bool) : Network := ⟨nodeId, numNodes, isClient, ∅, none⟩

/-- a stub for every node of 1..numNodes but this one -/
def connectToPeers (net : Network) : Network :=
  if net.isClient then net
  else { net with
    peerStubs := (intRange 1 net.numNodes).foldl (fun stubs i => if i = net.nodeId then stubs else stubs.insert i i)
      net.peerStubs }

/-- the switch over message types between peers -/
def peerRpc : NetworkMessageType → Option Rpc
  | .lockRequest => some .sendLockRequest
  | .lockResponse => some .sendLockResponse
  | .releaseLockRequest => some .sendReleaseLockRequest
  | .releaseLockResponse => some .sendReleaseLockResponse
  | .wfgReport => some .sendWFGReport
  | .pagRequest => some .sendPAGRequest
  | .pagResponse => some .sendPAGResponse
  | .deadlockResolution => some .sendDeadlockResolution
  | .abortTransactionSignal => some .sendAbortTransactionSignal
  | .distributedDetectionInit => some .sendDistributedDetectionInit
  | .zoneDetectionRequest => some .sendZoneDetectionRequest
  | .zoneWfgReport => some .sendZoneWFGReport
  | .centralWfgReportFromZone => some .sendCentralWFGReportFromZone
  | .pathPushingProbe => some .sendPathPushingProbe
  | .deadlockReportToClient => some .sendDeadlockReportToClient
  | .unknown | .clientCollectWfgRequest | .clientCollectWfgResponse | .clientPrintDeadlockRequest
  | .clientResolveDeadlockRequest => none

/-- the switch over message types from the client to its server -/
def clientRpc : NetworkMessageType → Option Rpc
  | .clientCollectWfgRequest => some .sendClientCollectWFGRequest
  | .clientPrintDeadlockRequest => some .sendClientPrintDeadlockRequest
  | .clientResolveDeadlockRequest => some .sendClientResolveDeadlockRequest
  | _ => none

/-- the call that is made, if any; the switches look at the type the encoder wrote -/
def sendMessage (H : HashOrder) (net : Network) (msg : NetworkMessage) : Option Delivery :=
  if msg.receiverId = 0 ∧ net.isClient = false then none
  else
    let proto_msg := convertToProtoMessage H msg
    if net.isClient then do
      let stub ← net.clientToServerStub
      let rpc ← clientRpc proto_msg.type
      some ⟨stub, rpc, proto_msg⟩
    else do
      let stub ← net.peerStubs.lookup msg.receiverId
      let rpc ← peerRpc proto_msg.type
      some ⟨stub, rpc, proto_msg⟩

/-- the calls that are made, in order -/
def broadcastTreeAdjustment (H : HashOrder) (raw : RawScalars) (net : Network) (senderId : NodeId)
    (detectionZones : List (List NodeId)) (detectionZoneLeaders : List NodeId) : List Delivery :=
  let msg := { NetworkMessage.declare raw with
    type := .distributedDetectionInit, senderId := senderId, receiverId := 0,
    detectionZones := detectionZones, detectionZoneLeaders := detectionZoneLeaders }
  (intRange 1 net.numNodes).filterMap fun i =>
    if i = net.nodeId then none
    else (net.peerStubs.lookup i).map fun stub => ⟨stub, .sendDistributedDetectionInit, convertToProtoMessage H msg⟩

/-- what a pointer to an incoming queue holds -/
inductive QueuePointer where
  /-- raw storage, whatever it reads as: the queue is not there yet -/
  | unconstructed
  /-- to the queue that the network of a node has made -/
  | queueOf (nodeId : NodeId)
deriving DecidableEq

/-- the pointers of `service_` and of the network itself -/
structure QueueMembers where
  service_ : QueuePointer
  incomingQueue_ : QueuePointer

inductive QueueMember where
  | service_
  | incomingQueue_

/-- an initialiser of the constructor -/
def initialise (nodeId : NodeId) (members : QueueMembers) : QueueMember → QueueMembers
  | .service_ => { members with service_ := members.incomingQueue_ }
  | .incomingQueue_ => { members with incomingQueue_ := .queueOf nodeId }

/-- the order in which the members are initialised -/
inductive MemberOrder where
  /-- in which the header declares them: the one the language prescribes -/
  | declared
  /-- in which the list of the constructor names them -/
  | listed

def MemberOrder.members : MemberOrder → List QueueMember
  | .declared => [.service_, .incomingQueue_]
  | .listed => [.incomingQueue_, .service_]

/-- the constructor -/
def construct (order : MemberOrder) (nodeId : NodeId) : QueueMembers :=
  order.members.foldl (initialise nodeId) ⟨.unconstructed, .unconstructed⟩

/-- the handler of every RPC (`GRPC_RPC_HANDLER`): the message pushed, and whose queue it is pushed onto -/
def hawkServiceImpl (raw : RawScalars) (incomingQueue_ : QueuePointer) (request : ProtoMessage) :
    Option (NodeId × NetworkMessage) :=
  match incomingQueue_ with
  | .unconstructed => none
  | .queueOf owner => some (owner, convertFromProtoMessage raw request)

/-- a call is served by the network of its target -/
def serve (order : MemberOrder) (raw : RawScalars) (d : Delivery) : Option (NodeId × NetworkMessage) :=
  hawkServiceImpl raw (construct order d.target).service_ d.request

/-- the pushes onto incoming queues that one call of `sendMessage` brings about -/
def pushed (order : MemberOrder) (H : HashOrder) (raw : RawScalars) (net : Network) (msg : NetworkMessage) :
    List (NodeId × NetworkMessage) :=
  ((net.sendMessage H msg).bind (serve order raw)).toList

/-! ## Delivery -/

/-- the stub table after `connectToPeers` -/
theorem lookup_connectToPeers (n : NodeId) (numNodes : ℤ) (i : NodeId) :
    (connectToPeers (init n numNodes false)).peerStubs.lookup i =
      if i ∈ intRange 1 numNodes ∧ i ≠ n then some i else none := by
  have hfold : ∀ (l : List ℤ) (stubs : UnorderedMap NodeId NodeId),
      (l.foldl (fun stubs j => if j = n then stubs else stubs.insert j j) stubs).lookup i =
        if i ∈ l ∧ i ≠ n then some i else stubs.lookup i := by
    intro l
    induction l with
    | nil => simp
    | cons j l ih =>
      intro stubs
      rw [List.foldl_cons, ih]
      by_cases hj : j = n
      · subst hj
        by_cases hi : i = j <;> simp [hi]
      · rw [if_neg hj, lookup_insert_eq]
        by_cases hi : i = j
        · subst hi; simp [hj]
        · simp [hi]
  have hstubs := hfold (intRange 1 numNodes) ∅
  rw [AList.lookup_empty] at hstubs
  exact hstubs

theorem serve_declared (raw : RawScalars) (d : Delivery) : serve .declared raw d = none := rfl

theorem serve_listed (raw : RawScalars) (d : Delivery) :
    serve .listed raw d = some (d.target, convertFromProtoMessage raw d.request) := rfl

/-- a service with raw storage for a pointer pushes nothing -/
theorem pushed_declared (H : HashOrder) (raw : RawScalars) (net : Network) (msg : NetworkMessage) :
    pushed .declared H raw net msg = [] := by
  unfold pushed
  cases net.sendMessage H msg <;> rfl

/-- what is pushed is the message after the codec, and a client's network has an RPC for it -/
theorem mem_pushed {H : HashOrder} {raw : RawScalars} {net : Network} {msg : NetworkMessage}
    {p : NodeId × NetworkMessage} (h : p ∈ pushed .listed H raw net msg) :
    p.2 = transmit H raw msg ∧ (net.isClient = true → clientRpc (convertToProtoMessage H msg).type ≠ none) := by
  obtain ⟨d, hd, hserve⟩ := Option.bind_eq_some_iff.1 (Option.mem_toList.1 h)
  cases hserve
  unfold sendMessage at hd
  split_ifs at hd with hzero hclient
  · obtain ⟨stub, -, hd⟩ := Option.bind_eq_some_iff.1 hd
    obtain ⟨rpc, hrpc, hd⟩ := Option.bind_eq_some_iff.1 hd
    cases hd
    exact ⟨rfl, fun _ => by rw [hrpc]; exact Option.some_ne_none rpc⟩
  · obtain ⟨stub, -, hd⟩ := Option.bind_eq_some_iff.1 hd
    obtain ⟨rpc, -, hd⟩ := Option.bind_eq_some_iff.1 hd
    cases hd
    exact ⟨rfl, fun hc => absurd hc hclient⟩

/-- a message to another node of the cluster is pushed if there is an RPC for it, and no other message is -/
theorem pushed_connectToPeers (H : HashOrder) (raw : RawScalars) {n : NodeId} {numNodes : ℤ} {msg : NetworkMessage}
    (hr : msg.receiverId ∈ intRange 1 numNodes) :
    pushed .listed H raw (connectToPeers (init n numNodes false)) msg =
      if msg.receiverId ≠ n ∧ peerRpc (convertToProtoMessage H msg).type ≠ none then
        [(msg.receiverId, transmit H raw msg)] else [] := by
  have hpos : msg.receiverId ≠ 0 := (zero_lt_one.trans_le (mem_intRange.1 hr).1).ne'
  have hclient : (connectToPeers (init n numNodes false)).isClient = false := rfl
  unfold pushed sendMessage
  rw [hclient, if_neg (fun h => hpos h.1)]
  simp only [Bool.false_eq_true, if_false, lookup_connectToPeers, hr, true_and]
  by_cases hn : msg.receiverId = n
  · simp [hn]
  · cases hrpc : peerRpc (convertToProtoMessage H msg).type with
    | none => simp [hn]
    | some rpc => simp [hn, serve_listed, transmit]

/-- the message `broadcastTreeAdjustment` sends to every peer -/
def adjustmentMsg (raw : RawScalars) (senderId : NodeId) (detectionZones : List (List NodeId))
    (detectionZoneLeaders : List NodeId) : NetworkMessage :=
  { NetworkMessage.declare raw with
    type := .distributedDetectionInit, senderId := senderId, receiverId := 0,
    detectionZones := detectionZones, detectionZoneLeaders := detectionZoneLeaders }

/-- a broadcast reaches every node of the cluster but the sender -/
theorem mem_broadcastTreeAdjustment {H : HashOrder} {raw : RawScalars} {n : NodeId} {numNodes : ℤ} {senderId : NodeId}
    {zones : List (List NodeId)} {leaders : List NodeId} {p : NodeId × NetworkMessage} :
    p ∈ (broadcastTreeAdjustment H raw (connectToPeers (init n numNodes false)) senderId zones leaders).filterMap
        (serve .listed raw) ↔
      p.1 ∈ intRange 1 numNodes ∧ p.1 ≠ n ∧ p.2 = transmit H raw (adjustmentMsg raw senderId zones leaders) := by
  have hid : (connectToPeers (init n numNodes false)).nodeId = n := rfl
  have hnum : (connectToPeers (init n numNodes false)).numNodes = numNodes := rfl
  unfold broadcastTreeAdjustment
  simp only [hid, hnum, lookup_connectToPeers, List.mem_filterMap]
  refine ⟨?_, ?_⟩
  · intro hmem
    obtain ⟨d, ⟨i, hi, hd⟩, hserve⟩ := hmem
    cases hserve
    split_ifs at hd with hin hstub
    · cases hd; exact ⟨hi, hin, rfl⟩
    · cases hd
  · intro htarget
    obtain ⟨hi, hin, hmsg⟩ := htarget
    refine ⟨⟨p.1, .sendDistributedDetectionInit, convertToProtoMessage H (adjustmentMsg raw senderId zones leaders)⟩,
      ⟨p.1, hi, ?_⟩, congrArg some (Prod.ext rfl hmsg.symm)⟩
    rw [if_neg hin, if_pos ⟨hi, hin⟩]
    rfl

/-- the new zones survive the wire -/
theorem transmit_adjustmentMsg (H : HashOrder) (raw : RawScalars) (senderId : NodeId) (zones : List (List NodeId))
    (leaders : List NodeId) : (transmit H raw (adjustmentMsg raw senderId zones leaders)).type =
        .distributedDetectionInit ∧
      (transmit H raw (adjustmentMsg raw senderId zones leaders)).detectionZones = zones ∧
      (transmit H raw (adjustmentMsg raw senderId zones leaders)).detectionZoneLeaders = leaders := by
  have hsame : SamePayload (adjustmentMsg raw senderId zones leaders) _ := samePayload_transmit H raw _
  exact ⟨by rw [transmit_type]; rfl, hsame.1, hsame.2⟩

end Network

end HawkTxn
