/-
The wire format (`protos/network.proto`, `convertToProtoMessage` and `convertFromProtoMessage` of `Network.cpp`).

A protobuf message is a record whose unset scalars are zero and whose payload is one of twelve cases or not set;
reading a case that is not set gives the default record. Protobuf keeps every field that was set, so a received
message is the record that was sent.

The encoder's switch has no case for three message types: they keep type UNKNOWN, the default.

Results:
- `lookup_convertProtoWFGToInternal`: a wait-for graph survives the wire, whatever the order of its entries;
- `roundtrip_iff`: a message survives exactly when the encoder has a case for its type.
-/
import HawkTxn.Commons

namespace HawkTxn

open HawkTxn.Core UnorderedMap

/-! ## Protobuf records -/

/-- `hawk::LockMode` -/
inductive ProtoLockMode where
  | shared
  | exclusive
deriving DecidableEq, Repr

/-- `hawk::WFDEdge` -/
structure ProtoWFDEdge where
  waitingTransId : ℤ := 0
  holdingTransId : ℤ := 0
  waitingNodeId : ℤ := 0
  holdingNodeId : ℤ := 0
deriving DecidableEq, Repr

structure LockRequestData where
  transId : ℤ := 0
  resourceId : ℤ := 0
  mode : ProtoLockMode := .shared
deriving DecidableEq, Repr

structure LockResponseData where
  transId : ℤ := 0
  resourceId : ℤ := 0
  granted : Bool := false
deriving DecidableEq, Repr

structure ReleaseLockData where
  transId : ℤ := 0
  resourceId : ℤ := 0
deriving DecidableEq, Repr

structure PairTransactionIdList where
  key : ℤ := 0
  value : List ℤ := []
deriving DecidableEq, Repr

structure WFGData where
  wfgDataPairs : List PairTransactionIdList := []
deriving DecidableEq, Repr

structure AbortTransactionData where
  deadlockedTransactions : List ℤ := []
deriving DecidableEq, Repr

structure PagData where
  pagEdges : List ProtoWFDEdge := []
deriving DecidableEq, Repr

structure NodeList where
  nodes : List ℤ := []
deriving DecidableEq, Repr

structure DetectionZoneInitData where
  detectionZones : List NodeList := []
  detectionZoneLeaders : List ℤ := []
deriving DecidableEq, Repr

structure ResolveDeadlockRequestData where
  victimTransId : ℤ := 0
deriving DecidableEq, Repr

structure TransactionList where
  transactions : List ℤ := []
deriving DecidableEq, Repr

structure DeadlockReportToClientData where
  detectedCycles : List TransactionList := []
  deadlockCount : ℤ := 0
deriving DecidableEq, Repr

structure PathPushingProbeData where
  path : List ℤ := []
deriving DecidableEq, Repr

structure ZoneDetectionRequestData where
  centralNodeId : ℤ := 0
  zoneMembers : List ℤ := []
deriving DecidableEq, Repr

structure CentralWFGReportFromZoneData where
  wfgData : WFGData := {}
  detectedCycles : List TransactionList := []
  reportedDeadlockCount : ℤ := 0
deriving DecidableEq, Repr

/-- the `oneof payload` -/
inductive Payload where
  | notSet
  | lockRequestData (data : LockRequestData)
  | lockResponseData (data : LockResponseData)
  | releaseLockData (data : ReleaseLockData)
  | wfgData (data : WFGData)
  | abortTransactionData (data : AbortTransactionData)
  | pagData (data : PagData)
  | detectionZoneInitData (data : DetectionZoneInitData)
  | resolveDeadlockRequestData (data : ResolveDeadlockRequestData)
  | deadlockReportToClientData (data : DeadlockReportToClientData)
  | pathPushingProbeData (data : PathPushingProbeData)
  | zoneDetectionRequestData (data : ZoneDetectionRequestData)
  | centralWfgReportData (data : CentralWFGReportFromZoneData)
deriving DecidableEq, Repr

/-- `hawk::NetworkMessage` -/
structure ProtoMessage where
  type : NetworkMessageType := .unknown
  senderId : ℤ := 0
  receiverId : ℤ := 0
  payload : Payload := .notSet
deriving DecidableEq, Repr

/-! ## Accessors of the payload: a case that is not set reads as its default -/

namespace ProtoMessage

def lockRequestData (m : ProtoMessage) : LockRequestData :=
  match m.payload with | .lockRequestData data => data | _ => {}

def lockResponseData (m : ProtoMessage) : LockResponseData :=
  match m.payload with | .lockResponseData data => data | _ => {}

def releaseLockData (m : ProtoMessage) : ReleaseLockData :=
  match m.payload with | .releaseLockData data => data | _ => {}

def wfgData (m : ProtoMessage) : WFGData :=
  match m.payload with | .wfgData data => data | _ => {}

def abortTransactionData (m : ProtoMessage) : AbortTransactionData :=
  match m.payload with | .abortTransactionData data => data | _ => {}

def pagData (m : ProtoMessage) : PagData :=
  match m.payload with | .pagData data => data | _ => {}

def detectionZoneInitData (m : ProtoMessage) : DetectionZoneInitData :=
  match m.payload with | .detectionZoneInitData data => data | _ => {}

def resolveDeadlockRequestData (m : ProtoMessage) : ResolveDeadlockRequestData :=
  match m.payload with | .resolveDeadlockRequestData data => data | _ => {}

def deadlockReportToClientData (m : ProtoMessage) : DeadlockReportToClientData :=
  match m.payload with | .deadlockReportToClientData data => data | _ => {}

def pathPushingProbeData (m : ProtoMessage) : PathPushingProbeData :=
  match m.payload with | .pathPushingProbeData data => data | _ => {}

def zoneDetectionRequestData (m : ProtoMessage) : ZoneDetectionRequestData :=
  match m.payload with | .zoneDetectionRequestData data => data | _ => {}

def centralWfgReportData (m : ProtoMessage) : CentralWFGReportFromZoneData :=
  match m.payload with | .centralWfgReportData data => data | _ => {}

end ProtoMessage

namespace Network

/-! ## Encoding and decoding -/

def toProtoLockMode : LockMode → ProtoLockMode
  | .shared => .shared
  | .exclusive => .exclusive

def fromProtoLockMode : ProtoLockMode → LockMode
  | .shared => .shared
  | .exclusive => .exclusive

/-- the loop that adds one wire pair for each pair of a graph -/
def addPairs (pairs : WfgDataPairs) : WFGData := ⟨pairs.map fun pair => ⟨pair.1, pair.2⟩⟩

/-- the loop that reads the wire pairs back -/
def readPairs (data : WFGData) : WfgDataPairs := data.wfgDataPairs.map fun pair => (pair.key, pair.value)

def convertWFGToProto (H : HashOrder) (wfg_data_map : WaitForGraph) : WFGData := addPairs (iter H wfg_data_map)

def convertProtoWFGToInternal (proto_wfg_data : WFGData) : WaitForGraph := assignAll ∅ (readPairs proto_wfg_data)

def convertDetectionZonesToProto (internal_zones : List (List NodeId)) (internal_leaders : List NodeId) :
    DetectionZoneInitData :=
  ⟨internal_zones.map fun zone => ⟨zone⟩, internal_leaders⟩

def convertProtoDetectionZonesToInternal (proto_data : DetectionZoneInitData) : List (List NodeId) × List NodeId :=
  (proto_data.detectionZones.map fun list => list.nodes, proto_data.detectionZoneLeaders)

def convertCyclesToProto (internal_cycles : List (List TransactionId)) : List TransactionList :=
  internal_cycles.map fun cycle => ⟨cycle⟩

def convertProtoCyclesToInternal (proto_cycles : List TransactionList) : List (List TransactionId) :=
  proto_cycles.map fun cycle => cycle.transactions

def convertToProtoMessage (H : HashOrder) (internal_msg : NetworkMessage) : ProtoMessage :=
  let proto_msg : ProtoMessage := { senderId := internal_msg.senderId, receiverId := internal_msg.receiverId }
  match internal_msg.type with
  | .lockRequest => { proto_msg with
      type := .lockRequest
      payload := .lockRequestData ⟨internal_msg.transId, internal_msg.resId, toProtoLockMode internal_msg.mode⟩ }
  | .lockResponse => { proto_msg with
      type := .lockResponse
      payload := .lockResponseData ⟨internal_msg.transId, internal_msg.resId, internal_msg.granted⟩ }
  | .releaseLockRequest => { proto_msg with
      type := .releaseLockRequest, payload := .releaseLockData ⟨internal_msg.transId, internal_msg.resId⟩ }
  | .releaseLockResponse => { proto_msg with
      type := .releaseLockResponse, payload := .releaseLockData ⟨internal_msg.transId, internal_msg.resId⟩ }
  | .wfgReport => { proto_msg with
      type := .wfgReport, payload := .wfgData (convertWFGToProto H internal_msg.wfgData) }
  | .clientCollectWfgResponse => { proto_msg with
      type := .clientCollectWfgResponse, payload := .wfgData (convertWFGToProto H internal_msg.wfgData) }
  | .zoneWfgReport => { proto_msg with
      type := .zoneWfgReport, payload := .wfgData (addPairs internal_msg.wfgDataPairs) }
  | .deadlockResolution => { proto_msg with
      type := .deadlockResolution, payload := .abortTransactionData ⟨internal_msg.deadlockedTransactions⟩ }
  | .abortTransactionSignal => { proto_msg with
      type := .abortTransactionSignal, payload := .abortTransactionData ⟨internal_msg.deadlockedTransactions⟩ }
  | .pagResponse => { proto_msg with
      type := .pagResponse
      payload := .pagData ⟨internal_msg.pagEdges.map fun edge =>
        ⟨edge.waitingTransId, edge.holdingTransId, edge.waitingNodeId, edge.holdingNodeId⟩⟩ }
  | .distributedDetectionInit => { proto_msg with
      type := .distributedDetectionInit
      payload := .detectionZoneInitData
        (convertDetectionZonesToProto internal_msg.detectionZones internal_msg.detectionZoneLeaders) }
  | .clientResolveDeadlockRequest => { proto_msg with
      type := .clientResolveDeadlockRequest
      payload := .resolveDeadlockRequestData ⟨internal_msg.victimTransId⟩ }
  | .deadlockReportToClient => { proto_msg with
      type := .deadlockReportToClient
      payload := .deadlockReportToClientData
        ⟨convertCyclesToProto internal_msg.detectedCycles, internal_msg.deadlockCount⟩ }
  | .pathPushingProbe => { proto_msg with
      type := .pathPushingProbe, payload := .pathPushingProbeData ⟨internal_msg.path⟩ }
  | .zoneDetectionRequest => { proto_msg with
      type := .zoneDetectionRequest
      payload := .zoneDetectionRequestData ⟨internal_msg.centralNodeId, internal_msg.zoneMembers⟩ }
  | .centralWfgReportFromZone => { proto_msg with
      type := .centralWfgReportFromZone
      payload := .centralWfgReportData ⟨addPairs internal_msg.wfgDataPairs,
        convertCyclesToProto internal_msg.detectedCycles, internal_msg.deadlockCount⟩ }
  | .unknown => { proto_msg with type := .unknown }
  -- the switch has no case for these, so `set_type` is not called
  | .pagRequest | .clientCollectWfgRequest | .clientPrintDeadlockRequest => proto_msg

/-- `raw`: the indeterminate scalars of the local message -/
def convertFromProtoMessage (raw : RawScalars) (proto_msg : ProtoMessage) : NetworkMessage :=
  let internal_msg := { NetworkMessage.declare raw with
    type := proto_msg.type, senderId := proto_msg.senderId, receiverId := proto_msg.receiverId }
  match proto_msg.type with
  | .lockRequest => { internal_msg with
      transId := proto_msg.lockRequestData.transId
      resId := proto_msg.lockRequestData.resourceId
      mode := fromProtoLockMode proto_msg.lockRequestData.mode }
  | .lockResponse => { internal_msg with
      transId := proto_msg.lockResponseData.transId
      resId := proto_msg.lockResponseData.resourceId
      granted := proto_msg.lockResponseData.granted }
  | .releaseLockRequest | .releaseLockResponse => { internal_msg with
      transId := proto_msg.releaseLockData.transId, resId := proto_msg.releaseLockData.resourceId }
  | .wfgReport | .clientCollectWfgResponse => { internal_msg with
      wfgData := convertProtoWFGToInternal proto_msg.wfgData }
  | .zoneWfgReport => { internal_msg with wfgDataPairs := readPairs proto_msg.wfgData }
  | .deadlockResolution | .abortTransactionSignal => { internal_msg with
      deadlockedTransactions := proto_msg.abortTransactionData.deadlockedTransactions }
  | .pagResponse => { internal_msg with
      pagEdges := proto_msg.pagData.pagEdges.map fun edge =>
        ⟨edge.waitingTransId, edge.holdingTransId, edge.waitingNodeId, edge.holdingNodeId⟩ }
  | .distributedDetectionInit => { internal_msg with
      detectionZones := (convertProtoDetectionZonesToInternal proto_msg.detectionZoneInitData).1
      detectionZoneLeaders := (convertProtoDetectionZonesToInternal proto_msg.detectionZoneInitData).2 }
  | .clientResolveDeadlockRequest => { internal_msg with
      victimTransId := proto_msg.resolveDeadlockRequestData.victimTransId }
  | .deadlockReportToClient => { internal_msg with
      deadlockCount := proto_msg.deadlockReportToClientData.deadlockCount
      detectedCycles := convertProtoCyclesToInternal proto_msg.deadlockReportToClientData.detectedCycles }
  | .pathPushingProbe => { internal_msg with path := proto_msg.pathPushingProbeData.path }
  | .zoneDetectionRequest => { internal_msg with
      centralNodeId := proto_msg.zoneDetectionRequestData.centralNodeId
      zoneMembers := proto_msg.zoneDetectionRequestData.zoneMembers }
  | .centralWfgReportFromZone => { internal_msg with
      wfgDataPairs := readPairs proto_msg.centralWfgReportData.wfgData
      detectedCycles := convertProtoCyclesToInternal proto_msg.centralWfgReportData.detectedCycles
      deadlockCount := proto_msg.centralWfgReportData.reportedDeadlockCount }
  -- UNKNOWN is logged; the others have no case
  | .unknown | .pagRequest | .clientCollectWfgRequest | .clientPrintDeadlockRequest => internal_msg

/-! ## Round trip -/

@[simp] theorem fromProtoLockMode_toProtoLockMode (mode : LockMode) :
    fromProtoLockMode (toProtoLockMode mode) = mode := by cases mode <;> rfl

@[simp] theorem readPairs_addPairs (pairs : WfgDataPairs) : readPairs (addPairs pairs) = pairs := by
  simp [readPairs, addPairs, Function.comp_def]

@[simp] theorem convertProtoCyclesToInternal_convertCyclesToProto (cycles : List (List TransactionId)) :
    convertProtoCyclesToInternal (convertCyclesToProto cycles) = cycles := by
  simp [convertProtoCyclesToInternal, convertCyclesToProto, Function.comp_def]

@[simp] theorem convertProtoDetectionZonesToInternal_convertDetectionZonesToProto (zones : List (List NodeId))
    (leaders : List NodeId) :
    convertProtoDetectionZonesToInternal (convertDetectionZonesToProto zones leaders) = (zones, leaders) := by
  simp [convertProtoDetectionZonesToInternal, convertDetectionZonesToProto, Function.comp_def]

/-- a wait-for graph survives the wire -/
@[simp] theorem lookup_convertProtoWFGToInternal (H : HashOrder) (g : WaitForGraph) (t : TransactionId) :
    (convertProtoWFGToInternal (convertWFGToProto H g)).lookup t = g.lookup t := by
  rw [convertProtoWFGToInternal, convertWFGToProto, readPairs_addPairs, lookup_assignAll_iter]

/-- the types the encoder has no case for -/
def unencodedTypes : List NetworkMessageType :=
  [.pagRequest, .clientCollectWfgRequest, .clientPrintDeadlockRequest]

/-- m' has m's value in every payload field of m's type; wait-for graphs are compared entry by entry -/
def SamePayload (m m' : NetworkMessage) : Prop :=
  match m.type with
  | .lockRequest => m'.transId = m.transId ∧ m'.resId = m.resId ∧ m'.mode = m.mode
  | .lockResponse => m'.transId = m.transId ∧ m'.resId = m.resId ∧ m'.granted = m.granted
  | .releaseLockRequest | .releaseLockResponse => m'.transId = m.transId ∧ m'.resId = m.resId
  | .wfgReport | .clientCollectWfgResponse => ∀ t, m'.wfgData.lookup t = m.wfgData.lookup t
  | .zoneWfgReport => m'.wfgDataPairs = m.wfgDataPairs
  | .deadlockResolution | .abortTransactionSignal => m'.deadlockedTransactions = m.deadlockedTransactions
  | .pagResponse => m'.pagEdges = m.pagEdges
  | .distributedDetectionInit =>
    m'.detectionZones = m.detectionZones ∧ m'.detectionZoneLeaders = m.detectionZoneLeaders
  | .clientResolveDeadlockRequest => m'.victimTransId = m.victimTransId
  | .deadlockReportToClient => m'.detectedCycles = m.detectedCycles ∧ m'.deadlockCount = m.deadlockCount
  | .pathPushingProbe => m'.path = m.path
  | .zoneDetectionRequest => m'.centralNodeId = m.centralNodeId ∧ m'.zoneMembers = m.zoneMembers
  | .centralWfgReportFromZone =>
    m'.wfgDataPairs = m.wfgDataPairs ∧ m'.detectedCycles = m.detectedCycles ∧ m'.deadlockCount = m.deadlockCount
  | .unknown | .pagRequest | .clientCollectWfgRequest | .clientPrintDeadlockRequest => True

/-- what the receiver makes of m -/
def transmit (H : HashOrder) (raw : RawScalars) (m : NetworkMessage) : NetworkMessage :=
  convertFromProtoMessage raw (convertToProtoMessage H m)

/-- the type survives unless the encoder has no case for it -/
theorem transmit_type (H : HashOrder) (raw : RawScalars) (m : NetworkMessage) :
    (transmit H raw m).type = if m.type ∈ unencodedTypes then .unknown else m.type := by
  cases hm : m.type <;> simp [transmit, convertToProtoMessage, convertFromProtoMessage, hm, unencodedTypes]

theorem transmit_sender_receiver (H : HashOrder) (raw : RawScalars) (m : NetworkMessage) :
    (transmit H raw m).senderId = m.senderId ∧ (transmit H raw m).receiverId = m.receiverId := by
  cases hm : m.type <;> simp [transmit, convertToProtoMessage, convertFromProtoMessage, hm]

theorem samePayload_transmit (H : HashOrder) (raw : RawScalars) (m : NetworkMessage) :
    SamePayload m (transmit H raw m) := by
  cases hm : m.type <;>
    simp [SamePayload, transmit, convertToProtoMessage, convertFromProtoMessage, hm, ProtoMessage.lockRequestData,
      ProtoMessage.lockResponseData, ProtoMessage.releaseLockData, ProtoMessage.wfgData,
      ProtoMessage.abortTransactionData, ProtoMessage.pagData, ProtoMessage.detectionZoneInitData,
      ProtoMessage.resolveDeadlockRequestData, ProtoMessage.deadlockReportToClientData,
      ProtoMessage.pathPushingProbeData, ProtoMessage.zoneDetectionRequestData, ProtoMessage.centralWfgReportData,
      Function.comp_def]

/-- **Round trip.** Decoding undoes encoding, in type, sender, receiver and every payload field of the type, exactly
for the messages whose type the encoder has a case for. -/
theorem roundtrip_iff (H : HashOrder) (raw : RawScalars) (m : NetworkMessage) :
    ((transmit H raw m).type = m.type ∧ (transmit H raw m).senderId = m.senderId ∧
      (transmit H raw m).receiverId = m.receiverId ∧ SamePayload m (transmit H raw m)) ↔
    m.type ∉ unencodedTypes := by
  refine ⟨?_, ?_⟩
  · intro hsame hm
    obtain ⟨htype, -⟩ := hsame
    rw [transmit_type, if_pos hm] at htype
    rw [← htype] at hm
    exact absurd hm (by decide)
  · intro hm
    obtain ⟨hs, hr⟩ := transmit_sender_receiver H raw m
    exact ⟨by rw [transmit_type, if_neg hm], hs, hr, samePayload_transmit H raw m⟩

/-- a request for edges of the predicted access graph arrives without its type -/
theorem pagRequest_lost : ¬ ∀ H raw (m : NetworkMessage),
    (transmit H raw m).type = m.type ∧ (transmit H raw m).senderId = m.senderId ∧
      (transmit H raw m).receiverId = m.receiverId ∧ SamePayload m (transmit H raw m) := by
  intro h
  have hlost := (h .stored ⟨.unknown, 0, 0, 0, 0, .shared, false, 0, 0, 0⟩
    { NetworkMessage.declare ⟨.unknown, 0, 0, 0, 0, .shared, false, 0, 0, 0⟩ with
      type := .pagRequest, senderId := 1, receiverId := 2 }).1
  exact absurd hlost (by decide)

end Network

end HawkTxn
