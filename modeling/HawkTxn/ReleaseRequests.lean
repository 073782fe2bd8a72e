/-
What becomes of locks that other nodes granted (`abortTransaction`, `commitTransaction`, `handleSQLResponse`).

A transaction records local and remote locks in one table, `acquiredLocks`. When it ends the lock manager of the node
releases what it knows of, which is local; the owner of a remote lock would have to be told by a RELEASE_LOCK_REQUEST.
A `History` is a node with what it has sent and what it owes: a release for every remote lock a transaction has when it
ends, and for every lock granted by a response that comes after the end.

Results:
- `step_ops`: an event changes the transaction manager by the operations `ops` lists;
- `never_requested`: no event ever asks for a release;
- `released_iff`: what is owed is requested exactly in the runs in which nothing is owed.
-/
import HawkTxn.Actions
import HawkTxn.DistributedDBNode

namespace HawkTxn

open HawkTxn.Core UnorderedMap

namespace ReleaseRequests

open DistributedDBNode TransactionManager

/-! ## Model -/

/-- the operations of the transaction manager in the handling of a message, in order -/
def messageOps (E : Env) (msg : NetworkMessage) : List Op :=
  match msg.type with
  | .lockResponse => [.handleSQLResponse E msg.transId msg.granted msg.resId]
  | .deadlockResolution | .abortTransactionSignal => msg.deadlockedTransactions.map (.abortTransaction E)
  | _ => []

/-- the operations of the transaction manager in an event, in order -/
def ops : Event → List Op
  | .beginTransaction E draws => [.beginTransaction E draws]
  | .tpccArrival E => [.tpccArrival E]
  | .tryExecuteNextSQLStatement E t => [.tryExecuteNextSQLStatement E t]
  | .processMessage E msg => messageOps E msg
  | .centralizedDetect _ | .distributedDetectCoordinator _ | .pagSampling _ | .initiatePathPushingProbes _ => []

/-- the actions of operations made one after the other, with the states they are taken from -/
def actionsAlong : TransactionManager → List Op → List (TransactionManager × Action)
  | _, [] => []
  | tm, o :: os => tm.moves o ++ (tm.step o).elim [] fun tm' => actionsAlong tm' os

/-- the locks of a transaction that nodes other than n own -/
def remoteLocks (n : NodeId) (txn : Transaction) : List ResourceId :=
  txn.acquiredLocks.keys.filter fun r => getOwnerNodeId r ≠ n

/-- the transaction an action ends -/
def endedBy : Action → Option TransactionId
  | .ended t _ => some t
  | _ => none

/-- the remote locks of the transaction an action ends -/
def owedAtEnd (p : TransactionManager × Action) : List (TransactionId × ResourceId) :=
  match endedBy p.2 with
  | none => []
  | some t => (p.1.activeTransactions.lookup t).elim [] fun txn => (remoteLocks p.1.nodeId txn).map fun r => (t, r)

/-- a run of a node: the transactions that have ended on it, the releases it owes, and what it has sent -/
structure History where
  node : DistributedDBNode
  ended : List TransactionId
  owed : List (TransactionId × ResourceId)
  sent : List NetworkMessage

namespace History

def start (nd : DistributedDBNode) : History := ⟨nd, [], [], []⟩

/-- a granted response for a transaction that has ended -/
def lateGrant (s : History) : Event → List (TransactionId × ResourceId)
  | .processMessage _ msg =>
    if msg.type = .lockResponse ∧ msg.granted = true ∧ msg.transId ∈ s.ended then [(msg.transId, msg.resId)] else []
  | _ => []

/-- the releases an event makes due -/
def owedBy (s : History) (ev : Event) : List (TransactionId × ResourceId) :=
  (actionsAlong s.node.transactionManager (ops ev)).flatMap owedAtEnd ++ s.lateGrant ev

def step (s : History) (ev : Event) : Option History :=
  (s.node.step ev).map fun o => {
    node := o.node
    ended := s.ended ++ (actionsAlong s.node.transactionManager (ops ev)).filterMap fun p => endedBy p.2
    owed := s.owed ++ s.owedBy ev
    sent := s.sent ++ o.sent }

/-- every release that is owed has been requested from the owner of the lock -/
def Released (s : History) : Prop := ∀ p ∈ s.owed, ∃ msg ∈ s.sent, msg.type = .releaseLockRequest ∧
  msg.receiverId = getOwnerNodeId p.2 ∧ msg.transId = p.1 ∧ msg.resId = p.2

/-- the event makes no release due: no transaction it ends has a remote lock, and it takes no grant for a transaction
that has ended -/
def LeavesNothing (s : History) (ev : Event) : Prop := s.owedBy ev = []

instance (s : History) (ev : Event) : Decidable (LeavesNothing s ev) := inferInstanceAs (Decidable (_ = []))

end History

/-! ## The operations of an event -/

theorem step_abortAll (E : Env) (tm : TransactionManager) (transIds : List TransactionId) :
    run TransactionManager.step tm (transIds.map (.abortTransaction E)) =
      some (transIds.foldl (fun tm tid => tm.abortTransaction E tid) tm) := by
  induction transIds generalizing tm with
  | nil => rfl
  | cons t transIds ih => exact (if_pos trivial).trans (ih _)

theorem run_single {tm tm' : TransactionManager} {o : Op} (h : tm.step o = some tm') :
    run TransactionManager.step tm [o] = some tm' := by
  rw [run, runBy, if_pos trivial, h]
  rfl

theorem collectWfgReport_transactionManager
    {resolve : DistributedDBNode → WaitForGraph → Option (List NetworkMessage × Bool)} {nd : DistributedDBNode}
    {data : WfgDataPairs} {o : Outcome} (h : collectWfgReport resolve nd data = some o) :
    o.node.transactionManager = nd.transactionManager := by
  rcases collectWfgReport_node h with hnode | hnode <;> rw [hnode] <;> rfl

theorem handlePAGResponse_transactionManager {E : Env} {nd : DistributedDBNode} {edges : List WFDEdge} {o : Outcome}
    (h : nd.handlePAGResponse E edges = some o) : o.node.transactionManager = nd.transactionManager := by
  unfold handlePAGResponse at h
  simp only at h
  split_ifs at h
  · obtain ⟨effects, -, rfl⟩ := Option.map_eq_some_iff.1 h
    rfl
  all_goals cases h; rfl

theorem handleCentralWFGReportFromZone_transactionManager {E : Env} {nd : DistributedDBNode} {data : WfgDataPairs}
    {cycles : List (List TransactionId)} {count : ℤ} {o : Outcome}
    (h : nd.handleCentralWFGReportFromZone E data cycles count = some o) :
    o.node.transactionManager = nd.transactionManager := by
  rcases handleCentralWFGReportFromZone_node h with hnode | hnode | ⟨found, hnode⟩ <;> rw [hnode] <;> rfl

theorem processMessage_ops {E : Env} {nd : DistributedDBNode} {msg : NetworkMessage} {o : Outcome}
    (h : nd.processMessage E msg = some o) :
    run TransactionManager.step nd.transactionManager (messageOps E msg) = some o.node.transactionManager := by
  unfold processMessage at h
  unfold messageOps
  cases htype : msg.type <;> rw [htype] at h <;> simp only at h ⊢
  case lockResponse =>
    obtain ⟨res, hres, rfl⟩ := Option.map_eq_some_iff.1 h
    exact run_single (Option.map_eq_some_iff.2 ⟨res, hres, rfl⟩)
  case deadlockResolution => cases h; exact step_abortAll E _ _
  case abortTransactionSignal => cases h; exact step_abortAll E _ _
  -- the other handlers do not touch the manager
  case wfgReport =>
    unfold handleWFGReport at h
    split_ifs at h
    · rw [collectWfgReport_transactionManager h]; rfl
    · cases h; rfl
  case zoneWfgReport =>
    unfold handleZoneWFGReport at h
    split_ifs at h
    · rw [collectWfgReport_transactionManager h]; rfl
    · cases h; rfl
  case pagRequest => cases h; rw [(onlySends_handlePAGRequest E nd _).node]; rfl
  case pagResponse => rw [handlePAGResponse_transactionManager h]; rfl
  case distributedDetectionInit =>
    obtain ⟨dz, -, rfl⟩ := Option.map_eq_some_iff.1 h
    rfl
  case centralWfgReportFromZone => rw [handleCentralWFGReportFromZone_transactionManager h]; rfl
  case pathPushingProbe => cases h; rw [(onlySends_handlePathPushingProbe E nd _).node]; rfl
  case clientPrintDeadlockRequest =>
    cases h
    rw [(onlySends_handleClientPrintDeadlockRequest E nd _).node]; rfl
  case clientResolveDeadlockRequest =>
    cases h
    rw [(onlySends_handleClientResolveDeadlockRequest E nd _ _).node]; rfl
  all_goals cases h; rfl

/-- an event changes the transaction manager by its operations, one after the other -/
theorem step_ops {nd : DistributedDBNode} {ev : Event} {o : Outcome} (h : nd.step ev = some o) :
    run TransactionManager.step nd.transactionManager (ops ev) = some o.node.transactionManager := by
  cases ev with
  | beginTransaction E draws => cases h; exact run_single rfl
  | tpccArrival E => cases h; exact run_single rfl
  | tryExecuteNextSQLStatement E t =>
    obtain ⟨res, hres, rfl⟩ := Option.map_eq_some_iff.1 h
    exact run_single (Option.map_eq_some_iff.2 ⟨res, hres, rfl⟩)
  | processMessage E msg => exact processMessage_ops h
  | centralizedDetect E =>
    cases h
    unfold centralizedDetect
    split_ifs <;> rfl
  | distributedDetectCoordinator E =>
    cases h
    unfold distributedDetectCoordinator
    split_ifs <;> rfl
  | pagSampling E =>
    cases h
    unfold pagSampling
    split_ifs <;> rfl
  | initiatePathPushingProbes E => cases h; rfl

/-- where the retry callback changes no transaction, the listed actions are what the event does to the manager -/
theorem path_actionsAlong {nd : DistributedDBNode} {ev : Event} {o : Outcome} (h : nd.step ev = some o)
    (hsilent : ∀ op ∈ ops ev, Silent op.env) :
    Path Move nd.transactionManager (actionsAlong nd.transactionManager (ops ev)) o.node.transactionManager := by
  have hrun := step_ops h
  generalize nd.transactionManager = tm at hrun ⊢
  generalize o.node.transactionManager = tm' at hrun ⊢
  revert hsilent hrun
  generalize ops ev = os
  intro hsilent hrun
  induction os generalizing tm with
  | nil => cases hrun; exact .nil
  | cons op os ih =>
    rw [run, runBy, if_pos trivial] at hrun
    obtain ⟨t, hst, hrest⟩ := Option.bind_eq_some_iff.1 hrun
    unfold actionsAlong
    rw [hst]
    exact (path_of_step (hsilent op List.mem_cons_self) hst).append
      (ih _ (fun op' hop' => hsilent op' (List.mem_cons_of_mem op hop')) hrest)

/-! ## Releases -/

/-- no event asks for a release -/
theorem never_requested {nd : DistributedDBNode} {ev : Event} {o : Outcome} (h : nd.step ev = some o) :
    ∀ msg ∈ o.sent, msg.type ≠ .releaseLockRequest := by
  intro msg hmsg htype
  have hsent := DistributedDBNode.step_types h msg hmsg
  rw [htype] at hsent
  exact absurd hsent (by decide)

namespace History

variable {nd : DistributedDBNode} {s : History}

theorem sent_of_reaches {ok : History → Event → Prop} (h : ReachesBy step ok (start nd) s) :
    ∀ msg ∈ s.sent, msg.type ≠ .releaseLockRequest := by
  refine h.invariant (P := fun s => ∀ msg ∈ s.sent, msg.type ≠ .releaseLockRequest) (by simp [start]) ?_
  intro s ev t hs _ hst
  obtain ⟨o, ho, rfl⟩ := Option.map_eq_some_iff.1 hst
  intro msg hmsg
  rcases List.mem_append.1 hmsg with hmsg | hmsg
  · exact hs msg hmsg
  · exact never_requested ho msg hmsg

/-- nothing is ever requested, so what is owed stays owed -/
theorem released_iff_owed_nil {ok : History → Event → Prop} (h : ReachesBy step ok (start nd) s) :
    Released s ↔ s.owed = [] := by
  refine ⟨?_, ?_⟩
  · intro hreleased
    rw [List.eq_nil_iff_forall_not_mem]
    intro p hp
    obtain ⟨msg, hmsg, htype, -⟩ := hreleased p hp
    exact sent_of_reaches h msg hmsg htype
  · intro hnil p hp
    rw [hnil] at hp
    exact absurd hp List.not_mem_nil

/-- a step adds what it makes due -/
theorem owed_step {t : History} {ev : Event} (h : s.step ev = some t) : t.owed = s.owed ++ s.owedBy ev := by
  obtain ⟨o, -, rfl⟩ := Option.map_eq_some_iff.1 h
  rfl

/-- nothing is owed exactly after steps that leave nothing to release -/
theorem owed_nil_iff (h : Reaches step (start nd) s) : s.owed = [] ↔ ReachesBy step LeavesNothing (start nd) s := by
  refine ⟨?_, ?_⟩
  · intro hnil
    induction h with
    | start => exact .start
    | next _ _ hst ih =>
      rw [owed_step hst, List.append_eq_nil_iff] at hnil
      exact .next (ih hnil.1) hnil.2 hst
  · intro hleaves
    refine hleaves.invariant (P := fun s => s.owed = []) rfl ?_
    intro s ev t hs hok hst
    rw [owed_step hst, hs, hok]
    rfl

/-- **Remote locks stay.** In a run of a node, whatever it starts from, no release is ever requested: every release
that is owed has been requested exactly if no step of the run made one due. -/
theorem released_iff (h : Reaches step (start nd) s) : (∀ msg ∈ s.sent, msg.type ≠ .releaseLockRequest) ∧
    (Released s ↔ ReachesBy step LeavesNothing (start nd) s) :=
  ⟨sent_of_reaches h, (released_iff_owed_nil h).trans (owed_nil_iff h)⟩

/-- a message to node 1 about transaction 1 -/
def aboutFirst (type : NetworkMessageType) : NetworkMessage :=
  { NetworkMessage.declare Env.quiet.raw with
    type := type, senderId := 2, receiverId := 1, transId := 1, resId := 1001, granted := true,
    deadlockedTransactions := [1] }

/-- transaction 1 writes 1001 ten times, which is node 2's, is granted it once and is aborted -/
def grantedAndAborted : List Event :=
  [.beginTransaction .quiet (List.replicate 10 (1001, .exclusive)), .tryExecuteNextSQLStatement .quiet 1,
    .processMessage .quiet (aboutFirst .lockResponse), .processMessage .quiet (aboutFirst .abortTransactionSignal)]

def node1 : DistributedDBNode := DistributedDBNode.init 1 2 0

def abortedHolder : History := (run step (start node1) grantedAndAborted).get rfl

/-- transaction 1 writes 5, which is node 1's, and commits -/
def localCommit : List Event :=
  [.beginTransaction .quiet [(5, .exclusive)], .tryExecuteNextSQLStatement .quiet 1,
    .tryExecuteNextSQLStatement .quiet 1]

def localCommitted : History := (run step (start node1) localCommit).get rfl

/-- a transaction that ends with local locks only owes nothing -/
theorem released_iff_localCommitted : localCommitted.ended = [1] ∧
    ((∀ msg ∈ localCommitted.sent, msg.type ≠ .releaseLockRequest) ∧
      (Released localCommitted ↔ ReachesBy step LeavesNothing (start node1) localCommitted)) := by
  refine ⟨rfl, ?_⟩
  have hrun : run step (start node1) localCommit = some localCommitted := rfl
  exact released_iff (.of_run hrun)

/-- the owner of 1001 is not told that its holder was aborted -/
theorem abortedHolder_kept : ¬ ∀ nd s, Reaches step (start nd) s → Released s := by
  intro h
  have hrun : run step (start node1) grantedAndAborted = some abortedHolder := rfl
  have howed : (1, 1001) ∈ abortedHolder.owed := by decide
  obtain ⟨msg, hmsg, htype, -⟩ := h node1 abortedHolder (.of_run hrun) (1, 1001) howed
  exact sent_of_reaches (.of_run hrun) msg hmsg htype

end History

end ReleaseRequests

end HawkTxn
