/-
What the transaction table, the lock manager and the waiting queues of a node say about each other
(`TransactionManager.cpp`, `ResourceManager.cpp`).

A lock is recorded twice, by the lock manager and by its transaction; a wait is recorded by the queue, by the status and
by the resource waited for. The operations keep the two records of a lock together. They do not keep the records of a
wait together: an aborted transaction stays in its queue, although `removeTransactionFromWaitingQueue` would take it
out, and a denied response leaves its transaction blocked on nothing.

Results:
- `locks_agree`: both records of the locks agree, and collecting edges across nodes never throws;
- `queues_exact`: queues list exactly waiting transactions, in every run that keeps to `KeepsQueues`;
- `blocked_waits`: a blocked transaction waits for something, in every run without denied responses, and a denied
  response breaks this at once.
-/
import HawkTxn.Actions
import HawkTxn.LockTable

namespace HawkTxn

open HawkTxn.Core UnorderedMap

namespace TransactionManager

variable {n : NodeId} {tm tm' : TransactionManager} {a : Action}

/-! ## Locks -/

/-- the lock a transaction records as its own -/
def recordedLock (tm : TransactionManager) (t : TransactionId) (r : ResourceId) : Option LockMode :=
  (tm.activeTransactions.lookup t).bind fun txn => txn.acquiredLocks.lookup r

theorem recordedLock_eq_some {t : TransactionId} {r : ResourceId} {m : LockMode} : tm.recordedLock t r = some m ↔
    ∃ txn, tm.activeTransactions.lookup t = some txn ∧ txn.acquiredLocks.lookup r = some m :=
  Option.bind_eq_some_iff

/-- a granted response is about a resource of another node -/
def RemoteAnswer (tm : TransactionManager) : Action → Prop
  | .answered _ true r => getOwnerNodeId r ≠ tm.nodeId
  | _ => True

instance (tm : TransactionManager) : (a : Action) → Decidable (RemoteAnswer tm a)
  | .answered _ true r => inferInstanceAs (Decidable (getOwnerNodeId r ≠ tm.nodeId))
  | .answered _ false _ | .began .. | .ended .. | .granted .. | .refused .. | .asked .. => .isTrue trivial

theorem Action.lockAfter_of_ne {k : TransactionId} (hk : k ≠ a.transId) (r : ResourceId) (old : Option LockMode) :
    a.lockAfter r k old = old := by
  cases a with
  | ended => exact if_neg hk
  | granted => exact if_neg fun h => hk h.1
  | _ => rfl

/-- the transactions record the locks of this node as the lock manager does -/
theorem Move.recordedLock (h : Move tm a tm') (hok : RemoteAnswer tm a) (hnum : Numbered tm) {r : ResourceId}
    (hr : getOwnerNodeId r = tm.nodeId) (k : TransactionId) :
    tm'.recordedLock k r = a.lockAfter r k (tm.recordedLock k r) := by
  by_cases hk : k = a.transId
  · subst hk
    cases h with
    | began E statements =>
      simp [TransactionManager.recordedLock, lookup_setTransaction, Action.transId, Action.lockAfter,
        hnum.lookup_next, newTransaction]
    | ended H active _ _ _ lookup =>
      simp [TransactionManager.recordedLock, lookup, Action.transId, Action.lockAfter]
    | granted here _ _ =>
      simp only [TransactionManager.recordedLock, lookup_setTransaction, Action.transId, Action.lockAfter, here.lookup,
        if_true, Option.bind_some, Transaction.lockLocally, lookup_insert_eq, true_and]
    | refused here _ _ =>
      simp [TransactionManager.recordedLock, lookup_setTransaction, Action.transId, Action.lockAfter, here.lookup,
        Transaction.waitLocally]
    | asked here _ =>
      simp [TransactionManager.recordedLock, lookup_setTransaction, Action.transId, Action.lockAfter, here.lookup,
        Transaction.waitRemotely]
    | @answered _ _ _ r' active _ =>
      -- the response is about a resource of another node
      have hne : r ≠ r' := fun heq => hok (heq ▸ hr)
      simp [TransactionManager.recordedLock, lookup_setTransaction, Action.transId, Action.lockAfter, active, grantLock,
        hne]
    | denied active =>
      simp [TransactionManager.recordedLock, lookup_setTransaction, Action.transId, Action.lockAfter, active,
        Transaction.denyLock]
  · rw [Action.lockAfter_of_ne hk, TransactionManager.recordedLock, h.lookup_of_ne hk]
    rfl

/-- both records of the locks of this node agree, and no other lock is given out here -/
structure LocksAgree (tm : TransactionManager) : Prop where
  node : tm.resourceManager.nodeId = tm.nodeId
  numbered : Numbered tm
  agree : ∀ r, getOwnerNodeId r = tm.nodeId → ∀ t,
    (tm.resourceManager.getResourceHolders r).lookup t = tm.recordedLock t r
  owned : ∀ r t m, (tm.resourceManager.getResourceHolders r).lookup t = some m → getOwnerNodeId r = tm.nodeId

theorem locksAgree_init (n : NodeId) : LocksAgree (init n) :=
  ⟨rfl, numbered_init n, fun _ _ _ => rfl, fun _ _ _ h => by cases h⟩

theorem move_locksAgree (hinv : LocksAgree tm) (hok : RemoteAnswer tm a) (h : Move tm a tm') : LocksAgree tm' := by
  refine ⟨by rw [h.rmNodeId, hinv.node, h.nodeId], h.numbered hinv.numbered, ?_, ?_⟩
  · intro r hr t
    have hr' : getOwnerNodeId r = tm.nodeId := hr.trans h.nodeId
    rw [h.lock, hinv.agree r hr', h.recordedLock hok hinv.numbered hr']
  · intro r t m hlock
    rw [h.nodeId]
    rw [h.lock] at hlock
    cases a with
    | granted t' r' m' =>
      simp only [Action.lockAfter] at hlock
      split_ifs at hlock with hnew
      · cases h with
        | granted _ owner _ => rw [hnew.2]; exact owner
      · exact hinv.owned r t m hlock
    | ended t' status =>
      simp only [Action.lockAfter] at hlock
      split_ifs at hlock
      exact hinv.owned r t m hlock
    | _ => exact hinv.owned r t m hlock

/-- holders are active, and so is a front that waits for a resource, so collecting edges finds their home nodes -/
theorem LocksAgree.collectCrossNodeWFDEdges (hinv : LocksAgree tm) (H : HashOrder) :
    (LockTable.collectCrossNodeWFDEdges H tm).isSome := by
  have hactive : ∀ r t, t ∈ tm.resourceManager.getResourceHolders r → ∃ txn, tm.getTransaction t = some txn := by
    intro r t ht
    obtain ⟨m, hm⟩ := mem_iff_lookup.1 ht
    rw [hinv.agree r (hinv.owned r t m hm)] at hm
    obtain ⟨txn, htxn, -⟩ := recordedLock_eq_some.1 hm
    exact ⟨txn, htxn⟩
  unfold LockTable.collectCrossNodeWFDEdges
  apply foldlM_isSome
  intro edges r hr
  cases hfront : LockTable.frontWaiter tm r with
  | none => rfl
  | some w =>
    obtain ⟨hheld, -, hwaits⟩ := LockTable.frontWaiter_eq_some.1 hfront
    have hwaiting : ∃ txn, tm.getTransaction w = some txn := by
      -- an unknown transaction waits for 0, which is no resource of a node that owns it
      cases htxn : tm.activeTransactions.lookup w with
      | some txn => exact ⟨txn, htxn⟩
      | none =>
        simp only [getTransactionWaitingFor, htxn] at hwaits
        obtain ⟨t, m, hm⟩ := exists_lookup_of_entries_ne_nil hheld
        have howner := hinv.owned r t m hm
        rw [← hwaits] at howner hr
        have hone : tm.nodeId = 1 := howner.symm
        have hlow := (ResourceManager.mem_getLocalResources.1 hr).1
        rw [hinv.node, hone] at hlow
        exact absurd hlow (by decide)
    obtain ⟨waiting, hw⟩ := hwaiting
    apply foldlM_isSome
    intro edges holderPair hmem
    have hholds : holderPair.1 ∈ tm.resourceManager.getResourceHolders r :=
      mem_iff_lookup.2 ⟨holderPair.2, mem_iter.1 hmem⟩
    obtain ⟨holding, hh⟩ := hactive r _ hholds
    simp only [LockTable.addCrossNodeEdge, hw, hh, Option.bind_eq_bind, Option.bind_some]
    split_ifs <;> rfl

/-- **Lock bookkeeping.** In every run whose granted responses are about resources of other nodes, the lock manager
records t as holder of a resource of the node in mode m exactly when t is active and records that lock; and collecting
the edges across nodes never throws. -/
theorem locks_agree (h : ReachesBy step (fun tm o => Silent o.env ∧ Admits moves RemoteAnswer tm o) (init n) tm) :
    (∀ r t m, getOwnerNodeId r = n → ((tm.resourceManager.getResourceHolders r).lookup t = some m ↔
      ∃ txn, tm.activeTransactions.lookup t = some txn ∧ txn.acquiredLocks.lookup r = some m)) ∧
    ∀ H, LockTable.collectCrossNodeWFDEdges H tm ≠ none := by
  have hinv : LocksAgree tm ∧ tm.nodeId = n := by
    refine moves_invariant (P := fun tm => LocksAgree tm ∧ tm.nodeId = n) (fun _ _ _ => path_of_step) ?_ h
      ⟨locksAgree_init n, rfl⟩
    intro s b t hs hok hmove
    exact ⟨move_locksAgree hs.1 hok hmove, hmove.nodeId.trans hs.2⟩
  refine ⟨?_, ?_⟩
  · intro r t m hr
    rw [hinv.1.agree r (hr.trans hinv.2.symm), recordedLock_eq_some]
  · intro H hnone
    have hsome := hinv.1.collectCrossNodeWFDEdges H
    rw [hnone] at hsome
    cases hsome

/-- a transaction of node 1 locks resource 5 of its node and resource 1005 of node 2 -/
def lockBoth : List Op :=
  [.beginControlledTransaction .quiet [⟨1, 1, [5], .exclusive⟩, ⟨1, 1, [1005], .shared⟩, ⟨1, 1, [6], .shared⟩],
    .tryExecuteNextSQLStatement .quiet 1, .tryExecuteNextSQLStatement .quiet 1, .handleSQLResponse .quiet 1 true 1005]

def bothLocked : TransactionManager := (runBy step (Admits moves RemoteAnswer) (init 1) lockBoth).get rfl

theorem locks_agree_bothLocked :
    (bothLocked.resourceManager.getResourceHolders 6).lookup 1 = some .shared ∧
    ((∀ r t m, getOwnerNodeId r = 1 → ((bothLocked.resourceManager.getResourceHolders r).lookup t = some m ↔
      ∃ txn, bothLocked.activeTransactions.lookup t = some txn ∧ txn.acquiredLocks.lookup r = some m)) ∧
    ∀ H, LockTable.collectCrossNodeWFDEdges H bothLocked ≠ none) := by
  have hsilent : ∀ o ∈ lockBoth, Silent o.env := by simp [lockBoth, Op.env, silent_quiet]
  exact ⟨by decide, locks_agree (ReachesBy.of_run_of_forall hsilent (Option.some_get _).symm)⟩

/-! ## Waiting queues -/

/-- t is in the waiting queue of some resource -/
def Queued (tm : TransactionManager) (t : TransactionId) : Prop :=
  ∃ r, t ∈ tm.resourceManager.getResourceWaitingQueue r

theorem queued_iff_entry {t : TransactionId} :
    (∃ e ∈ tm.resourceManager.resourceWaitingQueues.entries, t ∈ e.2) ↔ Queued tm t := by
  refine ⟨?_, ?_⟩
  · intro hentry
    obtain ⟨⟨r, queue⟩, he, ht⟩ := hentry
    refine ⟨r, ?_⟩
    rw [ResourceManager.getResourceWaitingQueue, getD_of_lookup (AList.mem_lookup_iff.2 he)]
    exact ht
  · intro hqueued
    obtain ⟨r, ht⟩ := hqueued
    cases hq : tm.resourceManager.resourceWaitingQueues.lookup r with
    | none => simp [ResourceManager.getResourceWaitingQueue, getD, hq] at ht
    | some queue =>
      rw [ResourceManager.getResourceWaitingQueue, getD_of_lookup hq] at ht
      exact ⟨⟨r, queue⟩, AList.mem_lookup_iff.1 hq, ht⟩

instance (tm : TransactionManager) (t : TransactionId) : Decidable (Queued tm t) := decidable_of_iff _ queued_iff_entry

/-- the action ends no queued transaction, takes no response for one, and queues no holder of the resource -/
def KeepsQueues (tm : TransactionManager) : Action → Prop
  | .ended t _ => ¬ Queued tm t
  | .answered t _ _ => ¬ Queued tm t
  | .refused t r _ => t ∉ tm.resourceManager.getResourceHolders r
  | _ => True

instance (tm : TransactionManager) : (a : Action) → Decidable (KeepsQueues tm a)
  | .ended t _ => inferInstanceAs (Decidable (¬ Queued tm t))
  | .answered t _ _ => inferInstanceAs (Decidable (¬ Queued tm t))
  | .refused t r _ => inferInstanceAs (Decidable (t ∉ tm.resourceManager.getResourceHolders r))
  | .began .. | .granted .. | .asked .. => .isTrue trivial

/-- t is active, blocked on r and no holder of r -/
def WaitsFor (tm : TransactionManager) (t : TransactionId) (r : ResourceId) : Prop :=
  ∃ txn, tm.activeTransactions.lookup t = some txn ∧ txn.status = .blocked ∧ txn.waitingForResourceId = r ∧
    t ∉ tm.resourceManager.getResourceHolders r

/-- every queue lists waiting transactions, each once -/
structure QueuesExact (tm : TransactionManager) : Prop where
  node : tm.resourceManager.nodeId = tm.nodeId
  numbered : Numbered tm
  waits : ∀ r, ∀ t ∈ tm.resourceManager.getResourceWaitingQueue r, WaitsFor tm t r
  nodup : ∀ r, (tm.resourceManager.getResourceWaitingQueue r).Nodup

theorem queuesExact_init (n : NodeId) : QueuesExact (init n) :=
  ⟨rfl, numbered_init n, fun _ _ ht => absurd ht List.not_mem_nil, fun _ => List.nodup_nil⟩

/-- a transaction that is about to execute a statement is in no queue -/
theorem QueuesExact.not_queued (hinv : QueuesExact tm) {t : TransactionId} {txn : Transaction} {sql : SQLStatement}
    {r : ResourceId} (here : AtStatement tm t txn sql r) : ¬ Queued tm t := by
  intro hqueued
  obtain ⟨r', ht⟩ := hqueued
  obtain ⟨txn', htxn', hblocked, -⟩ := hinv.waits r' t ht
  rw [here.lookup] at htxn'
  cases htxn'
  exact here.running hblocked

/-- the transaction an action is about is in no queue when the action is taken -/
theorem QueuesExact.mover_not_queued (hinv : QueuesExact tm) (hok : KeepsQueues tm a) (h : Move tm a tm') :
    ¬ Queued tm a.transId := by
  cases h with
  | began E statements =>
    intro hqueued
    obtain ⟨r, ht⟩ := hqueued
    obtain ⟨txn, htxn, -⟩ := hinv.waits r _ ht
    have hnone := hinv.numbered.lookup_next
    simp only [Action.transId] at htxn
    rw [hnone] at htxn
    cases htxn
  | ended => exact hok
  | granted here _ _ => exact hinv.not_queued here
  | refused here _ _ => exact hinv.not_queued here
  | asked here _ => exact hinv.not_queued here
  | answered => exact hok
  | denied => exact hok

/-- an action leaves the other transactions waiting -/
theorem WaitsFor.of_move {k : TransactionId} {r : ResourceId} (hw : WaitsFor tm k r) (h : Move tm a tm')
    (hk : k ≠ a.transId) : WaitsFor tm' k r := by
  obtain ⟨txn, htxn, hblocked, hfor, hnot⟩ := hw
  refine ⟨txn, (h.lookup_of_ne hk).trans htxn, hblocked, hfor, ?_⟩
  rw [← AList.lookup_eq_none] at hnot ⊢
  rw [h.lock, Action.lockAfter_of_ne hk, hnot]

theorem move_queuesExact (hinv : QueuesExact tm) (hok : KeepsQueues tm a) (h : Move tm a tm') : QueuesExact tm' := by
  have hmover := hinv.mover_not_queued hok h
  have hold : ∀ r, ∀ t ∈ tm.resourceManager.getResourceWaitingQueue r, WaitsFor tm' t r := by
    intro r t ht
    apply (hinv.waits r t ht).of_move h
    intro heq
    exact hmover ⟨r, heq ▸ ht⟩
  refine ⟨by rw [h.rmNodeId, hinv.node, h.nodeId], h.numbered hinv.numbered, ?_, ?_⟩
  · intro r t ht
    rw [h.queue hinv.node] at ht
    cases a with
    | refused t' r' m =>
      simp only [Action.queueAfter] at ht
      split_ifs at ht with hr
      · rcases List.mem_append.1 ht with ht | ht
        · exact hold r t ht
        · -- the refused transaction waits for r from now on
          obtain rfl := List.mem_singleton.1 ht
          subst hr
          have hlock := h.lock r t
          cases h with
          | refused here _ _ =>
            refine ⟨_, (lookup_setTransaction ..).trans (if_pos rfl), rfl, rfl, ?_⟩
            rw [← AList.lookup_eq_none, hlock]
            exact AList.lookup_eq_none.2 hok
      · exact hold r t ht
    | _ => exact hold r t ht
  · intro r
    rw [h.queue hinv.node]
    cases a with
    | refused t' r' m =>
      simp only [Action.queueAfter]
      split_ifs with hr
      · have hnew : t' ∉ tm.resourceManager.getResourceWaitingQueue r := fun hmem => hmover ⟨r, hmem⟩
        rw [List.nodup_append]
        refine ⟨hinv.nodup r, List.nodup_singleton t', ?_⟩
        intro x hx y hy heq
        obtain rfl := List.mem_singleton.1 hy
        exact hnew (heq ▸ hx)
      · exact hinv.nodup r
    | _ => exact hinv.nodup r

/-- **Waiting queues list exactly waiters.** In every run that ends no queued transaction, takes no response for one and
queues no holder of the resource, every entry of a queue occurs there once and is an active transaction that is blocked
on that resource and does not hold it. -/
theorem queues_exact (h : ReachesBy step (fun tm o => Silent o.env ∧ Admits moves KeepsQueues tm o) (init n) tm)
    (r : ResourceId) : (tm.resourceManager.getResourceWaitingQueue r).Nodup ∧
      ∀ t ∈ tm.resourceManager.getResourceWaitingQueue r, ∃ txn, tm.activeTransactions.lookup t = some txn ∧
        txn.status = .blocked ∧ txn.waitingForResourceId = r ∧ t ∉ tm.resourceManager.getResourceHolders r := by
  have hinv : QueuesExact tm := moves_invariant (fun _ _ _ => path_of_step)
    (fun _ _ _ hs hok hmove => move_queuesExact hs hok hmove) h (queuesExact_init n)
  exact ⟨hinv.nodup r, hinv.waits r⟩

/-- two writers of resource 5 of node 1 -/
def twoWriters : List Op :=
  [.beginControlledTransaction .quiet [⟨1, 1, [5], .exclusive⟩],
    .beginControlledTransaction .quiet [⟨2, 1, [5], .exclusive⟩], .tryExecuteNextSQLStatement .quiet 1,
    .tryExecuteNextSQLStatement .quiet 2]

/-- the second waits for the first -/
def secondWaits : TransactionManager := (runBy step (Admits moves KeepsQueues) (init 1) twoWriters).get rfl

theorem queues_exact_secondWaits : secondWaits.resourceManager.getResourceWaitingQueue 5 = [2] ∧
    (secondWaits.resourceManager.getResourceWaitingQueue 5).Nodup ∧
      ∀ t ∈ secondWaits.resourceManager.getResourceWaitingQueue 5, ∃ txn,
        secondWaits.activeTransactions.lookup t = some txn ∧ txn.status = .blocked ∧ txn.waitingForResourceId = 5 ∧
          t ∉ secondWaits.resourceManager.getResourceHolders 5 := by
  have hsilent : ∀ o ∈ twoWriters, Silent o.env := by simp [twoWriters, Op.env, silent_quiet]
  exact ⟨by decide, queues_exact (ReachesBy.of_run_of_forall hsilent (Option.some_get _).symm) 5⟩

theorem abortedWaiter_queued : ¬ ∀ n tm, ReachesBy step (fun _ o => Silent o.env) (init n) tm →
    ∀ r, ∀ t ∈ tm.resourceManager.getResourceWaitingQueue r, ∃ txn, tm.activeTransactions.lookup t = some txn ∧
      txn.status = .blocked ∧ txn.waitingForResourceId = r ∧ t ∉ tm.resourceManager.getResourceHolders r := by
  intro hall
  have hsilent : ∀ o ∈ twoWriters, Silent o.env := by simp [twoWriters, Op.env, silent_quiet]
  have hrun : ReachesBy step (fun _ o => Silent o.env) (init 1) secondWaits :=
    (ReachesBy.of_run_of_forall hsilent (Option.some_get _).symm).mono fun _ _ hok => hok.1
  have habort : ReachesBy step (fun _ o => Silent o.env) (init 1) (secondWaits.abortTransaction .quiet 2) :=
    hrun.next (a := .abortTransaction .quiet 2) silent_quiet rfl
  obtain ⟨txn, htxn, -⟩ := hall 1 _ habort 5 2 (by decide)
  have hgone : (secondWaits.abortTransaction .quiet 2).activeTransactions.lookup 2 = none := by decide
  rw [hgone] at htxn
  cases htxn

/-! ## Blocked transactions -/

/-- a transaction is blocked exactly if it waits for its current statement, and then it is queued here or has a request
pending at another node -/
structure Waits (tm : TransactionManager) (t : TransactionId) (txn : Transaction) : Prop where
  blocked_iff : txn.status = .blocked ↔ txn.currentResource = some txn.waitingForResourceId
  waiting : txn.status = .blocked → t ∈ tm.resourceManager.getResourceWaitingQueue txn.waitingForResourceId ∨
    txn.remoteRequestPending = true

/-- every active transaction is as `Waits` says -/
def AllWait (tm : TransactionManager) : Prop := ∀ t txn, tm.activeTransactions.lookup t = some txn → Waits tm t txn

/-- no statement of a transaction that begins names 0 first, the mark for waiting for nothing -/
def NamesResources : Action → Prop
  | .began _ statements => ∀ sql ∈ statements, sql.resources.head? ≠ some 0
  | _ => True

/-- the action takes no response that denies a lock -/
def NotDenied : Action → Prop
  | .answered _ false _ => False
  | _ => True

instance : DecidablePred NamesResources
  | .began _ statements => inferInstanceAs (Decidable (∀ sql ∈ statements, sql.resources.head? ≠ some 0))
  | .ended .. | .granted .. | .refused .. | .asked .. | .answered .. => .isTrue trivial

instance : DecidablePred NotDenied
  | .answered _ false _ => .isFalse id
  | .answered _ true _ | .began .. | .ended .. | .granted .. | .refused .. | .asked .. => .isTrue trivial

/-- what is kept for one transaction -/
structure WaitsInv (tm : TransactionManager) (t : TransactionId) (txn : Transaction) : Prop where
  waits : Waits tm t txn
  idle : txn.status ≠ .blocked → txn.waitingForResourceId = 0
  named : ∀ sql ∈ txn.statements, sql.resources.head? ≠ some 0

structure BlockedInv (tm : TransactionManager) : Prop where
  node : tm.resourceManager.nodeId = tm.nodeId
  numbered : Numbered tm
  waits : ∀ t txn, tm.activeTransactions.lookup t = some txn → WaitsInv tm t txn

theorem blockedInv_init (n : NodeId) : BlockedInv (init n) :=
  ⟨rfl, numbered_init n, fun _ _ h => by cases h⟩

/-- 0 is not the first resource of the current statement -/
theorem currentResource_ne_zero {txn : Transaction} (h : ∀ sql ∈ txn.statements, sql.resources.head? ≠ some 0) :
    txn.currentResource ≠ some 0 := by
  intro hzero
  obtain ⟨sql, hsql, hr⟩ := Option.bind_eq_some_iff.1 hzero
  exact h sql (List.mem_of_getElem? hsql) hr

/-- a transaction that runs and waits for 0 -/
theorem WaitsInv.of_running {t : TransactionId} {txn : Transaction} (hrunning : txn.status ≠ .blocked)
    (hidle : txn.waitingForResourceId = 0) (hnamed : ∀ sql ∈ txn.statements, sql.resources.head? ≠ some 0) :
    WaitsInv tm t txn := by
  refine ⟨⟨?_, fun hb => absurd hb hrunning⟩, fun _ => hidle, hnamed⟩
  rw [hidle]
  exact ⟨fun hb => absurd hb hrunning, fun hzero => absurd hzero (currentResource_ne_zero hnamed)⟩

/-- queues only grow, so what the other transactions wait for stays -/
theorem WaitsInv.of_move {k : TransactionId} {txn : Transaction} (hw : WaitsInv tm k txn) (h : Move tm a tm')
    (hnode : tm.resourceManager.nodeId = tm.nodeId) : WaitsInv tm' k txn := by
  refine ⟨⟨hw.waits.blocked_iff, ?_⟩, hw.idle, hw.named⟩
  intro hb
  rcases hw.waits.waiting hb with hqueue | hpending
  · left
    rw [h.queue hnode]
    cases a with
    | refused t r m =>
      simp only [Action.queueAfter]
      split_ifs
      · exact List.mem_append_left _ hqueue
      · exact hqueue
    | _ => exact hqueue
  · exact Or.inr hpending

theorem move_blockedInv (hinv : BlockedInv tm) (hnames : NamesResources a) (hok : NotDenied a) (h : Move tm a tm') :
    BlockedInv tm' := by
  refine ⟨by rw [h.rmNodeId, hinv.node, h.nodeId], h.numbered hinv.numbered, ?_⟩
  intro k txn hk
  by_cases hmover : k = a.transId
  · subst hmover
    have hqueue := h.queue hinv.node
    cases h with
    | began E statements =>
      obtain rfl := eq_of_lookup_setTransaction hk
      exact .of_running (by simp [newTransaction]) rfl hnames
    | ended H active _ _ _ lookup =>
      simp [lookup, Action.transId] at hk
    | granted here _ _ =>
      obtain rfl := eq_of_lookup_setTransaction hk
      have hw := hinv.waits _ _ here.lookup
      exact .of_running here.running (hw.idle here.running) hw.named
    | @refused t old sql r here _ _ =>
      obtain rfl := eq_of_lookup_setTransaction hk
      have hcurrent : (old.waitLocally r).currentResource = some r :=
        Option.bind_eq_some_iff.2 ⟨sql, here.statement, here.resource⟩
      refine ⟨⟨⟨fun _ => hcurrent, fun _ => rfl⟩, ?_⟩, fun hrunning => absurd rfl hrunning,
        (hinv.waits _ _ here.lookup).named⟩
      have hq := hqueue r
      simp only [Action.queueAfter, if_true] at hq
      have hmem : t ∈ tm.resourceManager.getResourceWaitingQueue r ++ [t] :=
        List.mem_append_right _ List.mem_cons_self
      rw [← hq] at hmem
      exact fun _ => Or.inl hmem
    | @asked t old sql r here _ =>
      obtain rfl := eq_of_lookup_setTransaction hk
      have hcurrent : (old.waitRemotely r).currentResource = some r :=
        Option.bind_eq_some_iff.2 ⟨sql, here.statement, here.resource⟩
      exact ⟨⟨⟨fun _ => hcurrent, fun _ => rfl⟩, fun _ => Or.inr rfl⟩, fun hrunning => absurd rfl hrunning,
        (hinv.waits _ _ here.lookup).named⟩
    | answered active _ =>
      obtain rfl := eq_of_lookup_setTransaction hk
      exact .of_running (by simp [grantLock]) rfl (hinv.waits _ _ active).named
    | denied => exact hok.elim
  · rw [h.lookup_of_ne hmover] at hk
    exact (hinv.waits k txn hk).of_move h hinv.node

/-- a denied response leaves its transaction blocked on nothing -/
theorem BlockedInv.not_allWait_of_denied (hinv : BlockedInv tm) {t : TransactionId} {r : ResourceId}
    (h : Move tm (.answered t false r) tm') : ¬ AllWait tm' := by
  intro hall
  cases h with
  | @denied _ txn _ active =>
    have hw := hall t txn.denyLock ((lookup_setTransaction ..).trans (if_pos rfl))
    have hzero : txn.currentResource = some 0 := hw.blocked_iff.1 rfl
    exact currentResource_ne_zero (hinv.waits t txn active).named hzero

/-- the denied response is the only action of its operation -/
theorem moves_of_denied {o : Op} {p : TransactionManager × Action} (hp : p ∈ tm.moves o) (hd : ¬ NotDenied p.2) :
    ∃ t r, tm.moves o = [(tm, .answered t false r)] := by
  rcases mem_moves hp with ⟨s, t, hp⟩ | ⟨t, r, hp⟩ | ⟨hmoves, htm, hp⟩
  · rcases mem_attempt hp with ⟨txn, -, -, rfl⟩ | ⟨r, m, hp | hp | hp⟩
    · exact absurd trivial hd
    · rw [hp] at hd; exact absurd trivial hd
    · rw [hp] at hd; exact absurd trivial hd
    · rw [hp] at hd; exact absurd trivial hd
  · rw [hp] at hd; exact absurd trivial hd
  · rcases hp with ⟨statements, hp⟩ | ⟨t, r, hp⟩ | ⟨t, hp⟩ | ⟨E, t, -, hp⟩
    · rw [hp] at hd; exact absurd trivial hd
    · refine ⟨t, r, hmoves.trans ?_⟩
      rw [← htm, ← hp]
    · rw [hp] at hd; exact absurd trivial hd
    · rw [hp] at hd; exact absurd trivial hd

/-- **A blocked transaction is always waiting for something.** In every run that takes no denied response for an active
transaction, over statements that name no resource 0, an active transaction is blocked exactly if it waits for the first
resource of its current statement, and then it is in the queue of that resource or has a request pending. Such a run
keeps this up with its next step exactly when that step, too, takes no denied response. -/
theorem blocked_waits (h : ReachesBy step
      (fun tm o => Silent o.env ∧ Admits moves (fun _ a => NamesResources a ∧ NotDenied a) tm o) (init n) tm) :
    (∀ t txn, tm.activeTransactions.lookup t = some txn →
      (txn.status = .blocked ↔ txn.currentResource = some txn.waitingForResourceId) ∧
      (txn.status = .blocked → t ∈ tm.resourceManager.getResourceWaitingQueue txn.waitingForResourceId ∨
        txn.remoteRequestPending = true)) ∧
    ∀ o tm', tm.step o = some tm' → Silent o.env → (∀ p ∈ tm.moves o, NamesResources p.2) →
      (AllWait tm' ↔ ∀ p ∈ tm.moves o, NotDenied p.2) := by
  have hmove : ∀ s b t, BlockedInv s → (NamesResources b ∧ NotDenied b) → Move s b t → BlockedInv t :=
    fun _ _ _ hs hok hst => move_blockedInv hs hok.1 hok.2 hst
  have hinv : BlockedInv tm := moves_invariant (fun _ _ _ => path_of_step) hmove h (blockedInv_init n)
  refine ⟨?_, ?_⟩
  · intro t txn htxn
    have hw := (hinv.waits t txn htxn).waits
    exact ⟨hw.blocked_iff, hw.waiting⟩
  · intro o tm' hst hE hnames
    have hpath := path_of_step hE hst
    refine ⟨?_, ?_⟩
    · intro hall p hp
      by_contra hd
      obtain ⟨t, r, hmoves⟩ := moves_of_denied hp hd
      rw [hmoves] at hpath
      cases hpath with
      | cons hdenied hrest =>
        cases hrest
        exact hinv.not_allWait_of_denied hdenied hall
    · intro hnot t txn htxn
      have hinv' : BlockedInv tm' := hpath.keeps hmove (fun p hp => ⟨hnames p hp, hnot p hp⟩) hinv
      exact (hinv'.waits t txn htxn).waits

/-- a transaction of node 1 that wants a lock of node 2 -/
def remoteReader : List Op :=
  [.beginControlledTransaction .quiet [⟨1, 1, [1005], .shared⟩], .tryExecuteNextSQLStatement .quiet 1]

def readerAsked : TransactionManager :=
  (runBy step (Admits moves fun _ a => NamesResources a ∧ NotDenied a) (init 1) remoteReader).get rfl

theorem readerAsked_reaches : ReachesBy step (fun tm o => Silent o.env ∧
    Admits moves (fun _ a => NamesResources a ∧ NotDenied a) tm o) (init 1) readerAsked := by
  have hsilent : ∀ o ∈ remoteReader, Silent o.env := by simp [remoteReader, Op.env, silent_quiet]
  exact ReachesBy.of_run_of_forall hsilent (Option.some_get _).symm

theorem blocked_waits_readerAsked : readerAsked.getTransactionWaitingFor 1 = 1005 ∧
    ∀ t txn, readerAsked.activeTransactions.lookup t = some txn →
      (txn.status = .blocked ↔ txn.currentResource = some txn.waitingForResourceId) ∧
      (txn.status = .blocked → t ∈ readerAsked.resourceManager.getResourceWaitingQueue txn.waitingForResourceId ∨
        txn.remoteRequestPending = true) :=
  ⟨by decide, (blocked_waits readerAsked_reaches).1⟩

theorem denied_waitsForNothing : ¬ ∀ n tm, ReachesBy step (fun _ o => Silent o.env) (init n) tm → AllWait tm := by
  intro hall
  have hrun : ReachesBy step (fun _ o => Silent o.env) (init 1) readerAsked :=
    readerAsked_reaches.mono fun _ _ hok => hok.1
  have hdenied : ReachesBy step (fun _ o => Silent o.env) (init 1)
      ((readerAsked.step (.handleSQLResponse .quiet 1 false 1005)).get rfl) :=
    hrun.next (a := .handleSQLResponse .quiet 1 false 1005) silent_quiet (Option.some_get _).symm
  have hw := hall 1 _ hdenied 1 _ rfl
  exact absurd (hw.blocked_iff.1 rfl) (by decide)

end TransactionManager

end HawkTxn
