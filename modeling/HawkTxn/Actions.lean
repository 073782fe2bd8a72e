/-
What the operations of the transaction manager do, one action at a time (`TransactionManager.cpp`).

Most operations do one thing: begin or end a transaction, get a lock, be refused one, ask another node for one. A
granted response does two: the response is taken, then `tryExecuteNextSQLStatement` goes on. `moves` lists the actions
of an operation with the states they are taken from, and `Move` says what each action does.

The retry callback takes a transaction and a resource, and `Transaction` has a condition variable to wait on. A `Silent`
environment is one whose callback changes no transaction; everything here is about such environments.

Results:
- `path_of_step`: the listed actions, taken one after the other, are what an operation does;
- `sent_attempt`: asking another node for a lock is sending it a LOCK_REQUEST;
- `Move.lookup_of_ne`, `Move.lock`, `Move.queue`: what an action does to the transactions, the locks and the queues.
-/
import HawkTxn.TransactionManager
import HawkTxn.Core.Traces

namespace HawkTxn

open HawkTxn.Core UnorderedMap

/-! ## Transactions after an action -/

namespace Transaction

/-- the first resource of the current statement -/
def currentResource (txn : Transaction) : Option ResourceId :=
  txn.statements[txn.currentSQLIndex]?.bind fun sql => sql.resources.head?

/-- the lock of the current statement was granted by the lock manager of the node -/
def lockLocally (txn : Transaction) (resId : ResourceId) (mode : LockMode) : Transaction :=
  { txn with
    currentSQLIndex := txn.currentSQLIndex + 1
    acquiredLocks := txn.acquiredLocks.insert resId mode }

/-- the lock manager of the node refused the lock -/
def waitLocally (txn : Transaction) (resId : ResourceId) : Transaction :=
  { txn with
    status := .blocked
    waitingForResourceId := resId }

/-- another node was asked for the lock -/
def waitRemotely (txn : Transaction) (resId : ResourceId) : Transaction :=
  { txn with
    remoteRequestPending := true
    waitingForResourceId := resId
    status := .blocked }

/-- a response denied the lock -/
def denyLock (txn : Transaction) : Transaction :=
  { txn with
    remoteRequestPending := false
    remoteRequestSuccess := false
    waitingForResourceId := 0
    status := .blocked }

end Transaction

namespace TransactionManager

/-! ## Actions -/

inductive Action where
  | began (transId : TransactionId) (statements : List SQLStatement)
  | ended (transId : TransactionId) (status : TransactionStatus)
  /-- by the lock manager of the node -/
  | granted (transId : TransactionId) (resId : ResourceId) (mode : LockMode)
  /-- by the lock manager of the node -/
  | refused (transId : TransactionId) (resId : ResourceId) (mode : LockMode)
  /-- another node was asked -/
  | asked (transId : TransactionId) (resId : ResourceId) (mode : LockMode)
  /-- a response was taken -/
  | answered (transId : TransactionId) (granted : Bool) (resId : ResourceId)
deriving DecidableEq

/-- whose action it is -/
def Action.transId : Action → TransactionId
  | .began t _ => t
  | .ended t _ => t
  | .granted t _ _ => t
  | .refused t _ _ => t
  | .asked t _ _ => t
  | .answered t _ _ => t

/-- t is about to execute the statement sql, whose first resource is r -/
structure AtStatement (tm : TransactionManager) (t : TransactionId) (txn : Transaction) (sql : SQLStatement)
    (r : ResourceId) : Prop where
  lookup : tm.activeTransactions.lookup t = some txn
  running : txn.status ≠ .blocked
  statement : txn.statements[txn.currentSQLIndex]? = some sql
  resource : sql.resources.head? = some r

/-- one action of the manager, and the state after -/
inductive Move (tm : TransactionManager) : Action → TransactionManager → Prop where
  | began (E : Env) (statements : List SQLStatement) :
      Move tm (.began tm.nextTransactionId statements) (tm.getNextTransactionId.2.setTransaction tm.nextTransactionId
        (newTransaction E tm.nextTransactionId tm.nodeId statements))
  | ended {t : TransactionId} {txn : Transaction} {status : TransactionStatus} {tm' : TransactionManager}
      (H : HashOrder) (active : tm.activeTransactions.lookup t = some txn) (nodeId : tm'.nodeId = tm.nodeId)
      (next : tm'.nextTransactionId = tm.nextTransactionId)
      (released : tm'.resourceManager = (tm.resourceManager.releaseAllLocks H t).1)
      (lookup : ∀ k, tm'.activeTransactions.lookup k = if k = t then none else tm.activeTransactions.lookup k) :
      Move tm (.ended t status) tm'
  | granted {t : TransactionId} {txn : Transaction} {sql : SQLStatement} {r : ResourceId}
      (here : AtStatement tm t txn sql r) (owner : getOwnerNodeId r = tm.nodeId)
      (acquired : (tm.resourceManager.acquireLock t r sql.lockMode).1 = true) :
      Move tm (.granted t r sql.lockMode) ({ tm with
        resourceManager := (tm.resourceManager.acquireLock t r sql.lockMode).2 }.setTransaction t
          (txn.lockLocally r sql.lockMode))
  | refused {t : TransactionId} {txn : Transaction} {sql : SQLStatement} {r : ResourceId}
      (here : AtStatement tm t txn sql r) (owner : getOwnerNodeId r = tm.nodeId)
      (conflict : (tm.resourceManager.acquireLock t r sql.lockMode).1 = false) :
      Move tm (.refused t r sql.lockMode) ({ tm with
        resourceManager := (tm.resourceManager.acquireLock t r sql.lockMode).2 }.setTransaction t
          (txn.waitLocally r))
  | asked {t : TransactionId} {txn : Transaction} {sql : SQLStatement} {r : ResourceId}
      (here : AtStatement tm t txn sql r) (owner : getOwnerNodeId r ≠ tm.nodeId) :
      Move tm (.asked t r sql.lockMode) (tm.setTransaction t (txn.waitRemotely r))
  | answered {t : TransactionId} {txn : Transaction} {sql : SQLStatement} {r : ResourceId}
      (active : tm.activeTransactions.lookup t = some txn)
      (statement : txn.statements[txn.currentSQLIndex]? = some sql) :
      Move tm (.answered t true r) (tm.setTransaction t (grantLock txn r sql))
  | denied {t : TransactionId} {txn : Transaction} {r : ResourceId}
      (active : tm.activeTransactions.lookup t = some txn) :
      Move tm (.answered t false r) (tm.setTransaction t txn.denyLock)

/-- the actions of `tryExecuteNextSQLStatement` -/
def attempt (tm : TransactionManager) (transId : TransactionId) : List (TransactionManager × Action) :=
  match tm.activeTransactions.lookup transId with
  | none => []
  | some txn =>
    if txn.status = .blocked then []
    else if txn.statements.length ≤ txn.currentSQLIndex then [(tm, .ended transId .committed)]
    else match txn.statements[txn.currentSQLIndex]?, txn.currentResource with
      | some sql, some resId =>
        if getOwnerNodeId resId = tm.nodeId then
          if (tm.resourceManager.acquireLock transId resId sql.lockMode).1 then
            [(tm, .granted transId resId sql.lockMode)]
          else [(tm, .refused transId resId sql.lockMode)]
        else [(tm, .asked transId resId sql.lockMode)]
      | _, _ => []

/-- the actions of an operation, with the states they are taken from -/
def moves (tm : TransactionManager) : Op → List (TransactionManager × Action)
  | .beginTransaction _ draws =>
    [(tm, .began tm.nextTransactionId (generateRandomSQLStatements tm.nextTransactionId tm.nodeId draws))]
  | .beginControlledTransaction _ statements => [(tm, .began tm.nextTransactionId statements)]
  | .tpccArrival _ => [(tm, .began tm.nextTransactionId [])]
  | .tryExecuteNextSQLStatement _ transId => tm.attempt transId
  | .handleSQLResponse _ transId granted resId =>
    match tm.activeTransactions.lookup transId with
    | none => []
    | some txn =>
      if granted then
        match txn.statements[txn.currentSQLIndex]? with
        | none => []
        | some sql => (tm, .answered transId true resId) ::
          (tm.setTransaction transId (grantLock txn resId sql)).attempt transId
      else [(tm, .answered transId false resId)]
  | .abortTransaction _ transId =>
    if transId ∈ tm.activeTransactions then [(tm, .ended transId .aborted)] else []
  | .commitTransaction _ transId =>
    if transId ∈ tm.activeTransactions then [(tm, .ended transId .committed)] else []

/-- the retry callback changes no transaction -/
def Silent (E : Env) : Prop := ∀ t r txns k, (E.notify t r txns).lookup k = txns.lookup k

theorem silent_quiet : Silent .quiet := fun _ _ _ _ => rfl

theorem Silent.keepsHomes {E : Env} (h : Silent E) : KeepsHomes E :=
  fun t r txns k txn hk => ⟨txn, (h t r txns k).symm.trans hk, rfl⟩

/-! ## The actions are what an operation does -/

@[simp] theorem setTransaction_nodeId (tm : TransactionManager) (t : TransactionId) (txn : Transaction) :
    (tm.setTransaction t txn).nodeId = tm.nodeId := rfl

@[simp] theorem setTransaction_resourceManager (tm : TransactionManager) (t : TransactionId) (txn : Transaction) :
    (tm.setTransaction t txn).resourceManager = tm.resourceManager := rfl

@[simp] theorem setTransaction_nextTransactionId (tm : TransactionManager) (t : TransactionId) (txn : Transaction) :
    (tm.setTransaction t txn).nextTransactionId = tm.nextTransactionId := rfl

theorem lookup_setTransaction (tm : TransactionManager) (t k : TransactionId) (txn : Transaction) :
    (tm.setTransaction t txn).activeTransactions.lookup k =
      if k = t then some txn else tm.activeTransactions.lookup k := lookup_insert_eq _ t k txn

theorem eq_of_lookup_setTransaction {tm : TransactionManager} {t : TransactionId} {txn txn' : Transaction}
    (h : (tm.setTransaction t txn).activeTransactions.lookup t = some txn') : txn' = txn := by
  rw [lookup_setTransaction, if_pos rfl] at h
  exact (Option.some.inj h).symm

theorem move_endTransaction {E : Env} (hE : Silent E) {tm : TransactionManager} {t : TransactionId}
    (ht : t ∈ tm.activeTransactions) (status : TransactionStatus) :
    Move tm (.ended t status) (endTransaction status E tm t) := by
  obtain ⟨txn, htxn⟩ := mem_iff_lookup.1 ht
  -- the callbacks run one after the other
  have hcalls : ∀ (calls : List (TransactionId × ResourceId)) (txns : TransactionTable) k,
      (calls.foldl (fun txns call => E.notify call.1 call.2 txns) txns).lookup k = txns.lookup k := by
    intro calls
    induction calls with
    | nil => exact fun _ _ => rfl
    | cons call calls ih => exact fun txns k => (ih _ k).trans (hE call.1 call.2 txns k)
  refine .ended E.hash htxn ?_ ?_ ?_ ?_ <;> unfold endTransaction <;> rw [htxn]
  intro k
  simp only [lookup_erase_eq, lookup_insert_eq, hcalls]
  split_ifs <;> rfl

theorem endTransaction_of_notMem {E : Env} {tm : TransactionManager} {t : TransactionId}
    (ht : t ∉ tm.activeTransactions) (status : TransactionStatus) : endTransaction status E tm t = tm := by
  unfold endTransaction
  rw [AList.lookup_eq_none.2 ht]

/-- what one call of `tryExecuteNextSQLStatement` does, and the action it is -/
theorem attempt_cases {E : Env} {tm : TransactionManager} {t : TransactionId}
    {res : TransactionManager × Bool × List NetworkMessage} (h : tm.tryExecuteNextSQLStatement E t = some res) :
    (tm.attempt t = [] ∧ res = (tm, false, [])) ∨
    (t ∈ tm.activeTransactions ∧ tm.attempt t = [(tm, .ended t .committed)] ∧
      res = (tm.commitTransaction E t, true, [])) ∨
    ∃ txn sql r, AtStatement tm t txn sql r ∧
      ((getOwnerNodeId r = tm.nodeId ∧ (tm.resourceManager.acquireLock t r sql.lockMode).1 = true ∧
          tm.attempt t = [(tm, .granted t r sql.lockMode)] ∧ res = ({ tm with
            resourceManager := (tm.resourceManager.acquireLock t r sql.lockMode).2 }.setTransaction t
              (txn.lockLocally r sql.lockMode), true, [])) ∨
        (getOwnerNodeId r = tm.nodeId ∧ (tm.resourceManager.acquireLock t r sql.lockMode).1 = false ∧
          tm.attempt t = [(tm, .refused t r sql.lockMode)] ∧ res = ({ tm with
            resourceManager := (tm.resourceManager.acquireLock t r sql.lockMode).2 }.setTransaction t
              (txn.waitLocally r), false, [])) ∨
        (getOwnerNodeId r ≠ tm.nodeId ∧ tm.attempt t = [(tm, .asked t r sql.lockMode)] ∧
          res = (tm.setTransaction t (txn.waitRemotely r), false,
            [lockRequestMsg E tm.nodeId (getOwnerNodeId r) t r sql.lockMode]))) := by
  unfold tryExecuteNextSQLStatement at h
  unfold attempt
  cases htxn : tm.activeTransactions.lookup t with
  | none => rw [htxn] at h; cases h; exact Or.inl ⟨rfl, rfl⟩
  | some txn =>
    simp only [htxn] at h
    simp only
    by_cases hb : txn.status = .blocked
    · rw [if_pos hb] at h ⊢
      cases h; exact Or.inl ⟨rfl, rfl⟩
    rw [if_neg hb] at h ⊢
    by_cases hlen : txn.statements.length ≤ txn.currentSQLIndex
    · rw [if_pos hlen] at h ⊢
      cases h
      exact Or.inr (Or.inl ⟨mem_iff_lookup.2 ⟨txn, htxn⟩, rfl, rfl⟩)
    rw [if_neg hlen] at h ⊢
    obtain ⟨sql, hsql, h⟩ := Option.bind_eq_some_iff.1 h
    obtain ⟨r, hr, h⟩ := Option.bind_eq_some_iff.1 h
    refine Or.inr (Or.inr ⟨txn, sql, r, ⟨htxn, hb, hsql, hr⟩, ?_⟩)
    simp only [Transaction.currentResource, hsql, Option.bind_some, hr]
    by_cases how : getOwnerNodeId r = tm.nodeId
    · rw [if_pos how] at h ⊢
      cases hacq : (tm.resourceManager.acquireLock t r sql.lockMode).1 with
      | true =>
        rw [hacq] at h; cases h
        exact Or.inl ⟨how, rfl, rfl, rfl⟩
      | false =>
        rw [hacq] at h; cases h
        exact Or.inr (Or.inl ⟨how, rfl, rfl, rfl⟩)
    · rw [if_neg how] at h ⊢
      cases h
      exact Or.inr (Or.inr ⟨how, rfl, rfl⟩)

theorem attempt_path {E : Env} (hE : Silent E) {tm : TransactionManager} {t : TransactionId}
    {res : TransactionManager × Bool × List NetworkMessage} (h : tm.tryExecuteNextSQLStatement E t = some res) :
    Path Move tm (tm.attempt t) res.1 := by
  rcases attempt_cases h with ⟨hnone, rfl⟩ | ⟨ht, hend, rfl⟩ | ⟨txn, sql, r, here, hlock⟩
  · rw [hnone]; exact .nil
  · rw [hend]; exact .single (move_endTransaction hE ht .committed)
  · rcases hlock with ⟨owner, acquired, hone, rfl⟩ | ⟨owner, conflict, hone, rfl⟩ | ⟨owner, hone, rfl⟩ <;> rw [hone]
    · exact .single (.granted here owner acquired)
    · exact .single (.refused here owner conflict)
    · exact .single (.asked here owner)

/-- **Actions of an operation.** What an operation does is what its actions do, one after the other. -/
theorem path_of_step {tm tm' : TransactionManager} {o : Op} (hE : Silent o.env) (h : tm.step o = some tm') :
    Path Move tm (tm.moves o) tm' := by
  cases o with
  | beginTransaction E draws => cases h; exact .single (.began E _)
  | beginControlledTransaction E statements => cases h; exact .single (.began E statements)
  | tpccArrival E => cases h; exact .single (.began E [])
  | tryExecuteNextSQLStatement E t =>
    obtain ⟨res, hres, rfl⟩ := Option.map_eq_some_iff.1 h
    exact attempt_path hE hres
  | handleSQLResponse E t granted r =>
    obtain ⟨res, hres, rfl⟩ := Option.map_eq_some_iff.1 h
    unfold handleSQLResponse at hres
    simp only [moves]
    cases htxn : tm.activeTransactions.lookup t with
    | none => rw [htxn] at hres; cases hres; exact .nil
    | some txn =>
      simp only [htxn] at hres
      simp only
      cases granted with
      | false => cases hres; exact .single (.denied htxn)
      | true =>
        obtain ⟨sql, hsql, hres⟩ := Option.bind_eq_some_iff.1 hres
        obtain ⟨res', hres', hres⟩ := Option.bind_eq_some_iff.1 hres
        cases hres
        simp only [hsql, if_true]
        exact .cons (.answered htxn hsql) (attempt_path hE hres')
  | abortTransaction E t =>
    cases h
    simp only [moves]
    split_ifs with ht
    · exact .single (move_endTransaction hE ht .aborted)
    · rw [abortTransaction, endTransaction_of_notMem ht]; exact .nil
  | commitTransaction E t =>
    cases h
    simp only [moves]
    split_ifs with ht
    · exact .single (move_endTransaction hE ht .committed)
    · rw [commitTransaction, endTransaction_of_notMem ht]; exact .nil

/-- asking another node for a lock is sending its owner the request -/
theorem sent_attempt {E : Env} {tm : TransactionManager} {t : TransactionId}
    {res : TransactionManager × Bool × List NetworkMessage} (h : tm.tryExecuteNextSQLStatement E t = some res) :
    res.2.2 = (tm.attempt t).filterMap fun p => match p.2 with
      | .asked t r m => some (lockRequestMsg E tm.nodeId (getOwnerNodeId r) t r m)
      | _ => none := by
  rcases attempt_cases h with ⟨hnone, rfl⟩ | ⟨-, hend, rfl⟩ | ⟨txn, sql, r, -, hlock⟩
  · rw [hnone]; rfl
  · rw [hend]; rfl
  · rcases hlock with ⟨-, -, hone, rfl⟩ | ⟨-, -, hone, rfl⟩ | ⟨-, hone, rfl⟩ <;> rw [hone] <;> rfl

/-- the one action of `tryExecuteNextSQLStatement` commits past the last statement, or is about a lock -/
theorem mem_attempt {tm : TransactionManager} {t : TransactionId} {p : TransactionManager × Action}
    (hp : p ∈ tm.attempt t) :
    (∃ txn, tm.activeTransactions.lookup t = some txn ∧ txn.statements.length ≤ txn.currentSQLIndex ∧
      p = (tm, .ended t .committed)) ∨
    ∃ r m, p.2 = .granted t r m ∨ p.2 = .refused t r m ∨ p.2 = .asked t r m := by
  unfold attempt at hp
  cases htxn : tm.activeTransactions.lookup t with
  | none => simp [htxn] at hp
  | some txn =>
    simp only [htxn] at hp
    split_ifs at hp with hb hlen
    · simp at hp
    · exact Or.inl ⟨txn, rfl, hlen, List.mem_singleton.1 hp⟩
    · right
      cases hsql : txn.statements[txn.currentSQLIndex]? with
      | none => simp [hsql] at hp
      | some sql =>
        cases hr : txn.currentResource with
        | none => simp [hsql, hr] at hp
        | some r =>
          simp only [hsql, hr] at hp
          refine ⟨r, sql.lockMode, ?_⟩
          split_ifs at hp <;> rw [List.mem_singleton.1 hp]
          · exact Or.inl rfl
          · exact Or.inr (Or.inl rfl)
          · exact Or.inr (Or.inr rfl)

/-- an action of `tryExecuteNextSQLStatement`, the granted response that comes before it, or all an operation does -/
theorem mem_moves {tm : TransactionManager} {o : Op} {p : TransactionManager × Action} (hp : p ∈ tm.moves o) :
    (∃ s t, p ∈ attempt s t) ∨ (∃ t r, p.2 = .answered t true r) ∨
    (tm.moves o = [p] ∧ p.1 = tm ∧ ((∃ statements, p.2 = .began tm.nextTransactionId statements) ∨
      (∃ t r, p.2 = .answered t false r) ∨ (∃ t, p.2 = .ended t .aborted) ∨
      ∃ E t, o = .commitTransaction E t ∧ p.2 = .ended t .committed)) := by
  cases o with
  | beginTransaction E draws =>
    obtain rfl := List.mem_singleton.1 hp
    exact Or.inr (Or.inr ⟨rfl, rfl, Or.inl ⟨_, rfl⟩⟩)
  | beginControlledTransaction E statements =>
    obtain rfl := List.mem_singleton.1 hp
    exact Or.inr (Or.inr ⟨rfl, rfl, Or.inl ⟨_, rfl⟩⟩)
  | tpccArrival E =>
    obtain rfl := List.mem_singleton.1 hp
    exact Or.inr (Or.inr ⟨rfl, rfl, Or.inl ⟨_, rfl⟩⟩)
  | tryExecuteNextSQLStatement E t => exact Or.inl ⟨tm, t, hp⟩
  | handleSQLResponse E t granted r =>
    simp only [moves] at hp ⊢
    cases htxn : tm.activeTransactions.lookup t with
    | none => simp [htxn] at hp
    | some txn =>
      simp only [htxn] at hp ⊢
      cases granted with
      | false =>
        obtain rfl := List.mem_singleton.1 hp
        exact Or.inr (Or.inr ⟨rfl, rfl, Or.inr (Or.inl ⟨t, r, rfl⟩)⟩)
      | true =>
        simp only [if_true] at hp
        cases hsql : txn.statements[txn.currentSQLIndex]? with
        | none => simp [hsql] at hp
        | some sql =>
          simp only [hsql] at hp
          rcases List.mem_cons.1 hp with rfl | hp
          · exact Or.inr (Or.inl ⟨t, r, rfl⟩)
          · exact Or.inl ⟨_, t, hp⟩
  | abortTransaction E t =>
    simp only [moves] at hp ⊢
    split_ifs at hp ⊢ with ht
    · obtain rfl := List.mem_singleton.1 hp
      exact Or.inr (Or.inr ⟨rfl, rfl, Or.inr (Or.inr (Or.inl ⟨t, rfl⟩))⟩)
    · simp at hp
  | commitTransaction E t =>
    simp only [moves] at hp ⊢
    split_ifs at hp ⊢ with ht
    · obtain rfl := List.mem_singleton.1 hp
      exact Or.inr (Or.inr ⟨rfl, rfl, Or.inr (Or.inr (Or.inr ⟨E, t, rfl, rfl⟩))⟩)
    · simp at hp

/-! ## What an action changes -/

/-- the lock k has on r after the action, if it had the lock `old` before -/
def Action.lockAfter (a : Action) (r : ResourceId) (k : TransactionId) (old : Option LockMode) : Option LockMode :=
  match a with
  | .granted t r' m => if k = t ∧ r = r' then some m else old
  | .ended t _ => if k = t then none else old
  | _ => old

/-- the waiting queue of r after the action -/
def Action.queueAfter (a : Action) (r : ResourceId) (queue : List TransactionId) : List TransactionId :=
  match a with
  | .refused t r' _ => if r = r' then queue ++ [t] else queue
  | _ => queue

/-- ids of active transactions have been handed out -/
def Numbered (tm : TransactionManager) : Prop := ∀ t ∈ tm.activeTransactions, t < tm.nextTransactionId

section Move

variable {tm tm' : TransactionManager} {a : Action}

theorem Move.nodeId (h : Move tm a tm') : tm'.nodeId = tm.nodeId := by
  cases h with
  | ended _ _ nodeId => exact nodeId
  | _ => rfl

theorem Move.rmNodeId (h : Move tm a tm') : tm'.resourceManager.nodeId = tm.resourceManager.nodeId := by
  cases h with
  | ended _ _ _ _ released => rw [released]; rfl
  | granted => exact ResourceManager.acquireLock_nodeId _ _ _ _
  | refused => exact ResourceManager.acquireLock_nodeId _ _ _ _
  | _ => rfl

/-- an action changes the transaction it is about only -/
theorem Move.lookup_of_ne (h : Move tm a tm') {k : TransactionId} (hk : k ≠ a.transId) :
    tm'.activeTransactions.lookup k = tm.activeTransactions.lookup k := by
  cases h with
  | ended _ _ _ _ _ lookup => exact (lookup k).trans (if_neg hk)
  | _ => exact (lookup_setTransaction _ _ k _).trans (if_neg hk)

theorem Move.lock (h : Move tm a tm') (r : ResourceId) (k : TransactionId) :
    (tm'.resourceManager.getResourceHolders r).lookup k =
      a.lockAfter r k ((tm.resourceManager.getResourceHolders r).lookup k) := by
  cases h with
  | ended H _ _ _ released _ =>
    rw [released, ResourceManager.getResourceHolders_releaseAllLocks, lookup_erase_eq]; rfl
  | @granted t _ sql r' _ _ acquired =>
    simp only [setTransaction_resourceManager, ResourceManager.getResourceHolders_acquireLock, acquired, and_true,
      Action.lockAfter]
    by_cases hr : r = r'
    · subst hr
      by_cases hk : k = t <;> simp [hk, lookup_insert_eq]
    · simp [hr]
  | refused _ _ conflict =>
    simp only [setTransaction_resourceManager, ResourceManager.getResourceHolders_acquireLock, conflict]
    simp [Action.lockAfter]
  | _ => rfl

theorem Move.queue (h : Move tm a tm') (hnode : tm.resourceManager.nodeId = tm.nodeId) (r : ResourceId) :
    tm'.resourceManager.getResourceWaitingQueue r =
      a.queueAfter r (tm.resourceManager.getResourceWaitingQueue r) := by
  cases h with
  | ended H _ _ _ released _ => rw [released]; rfl
  | granted _ _ acquired =>
    have hc := (ResourceManager.acquireLock_granted acquired).2
    simp only [setTransaction_resourceManager, ResourceManager.getResourceWaitingQueue_acquireLock, hc]
    simp [Action.queueAfter]
  | @refused t _ sql r' _ owner conflict =>
    have howner : getOwnerNodeId r' = tm.resourceManager.nodeId := owner.trans hnode.symm
    have hc := (ResourceManager.acquireLock_refused howner).1 conflict
    simp only [setTransaction_resourceManager, ResourceManager.getResourceWaitingQueue_acquireLock, hc, howner,
      and_true, Action.queueAfter]
    split_ifs with hr
    · rw [hr]
    · rfl
  | _ => rfl

theorem Move.numbered (h : Move tm a tm') (hnum : Numbered tm) : Numbered tm' := by
  -- an action that begins nothing adds no id
  have hkeeps : ∀ t txn, tm.activeTransactions.lookup t = some txn → ∀ s : TransactionManager,
      s.nextTransactionId = tm.nextTransactionId → s.activeTransactions = tm.activeTransactions →
      ∀ txn', Numbered (s.setTransaction t txn') := by
    intro t txn htxn s hnext hactive txn' k hk
    rw [mem_iff_lookup, lookup_setTransaction, hactive] at hk
    rw [setTransaction_nextTransactionId, hnext]
    obtain ⟨v, hv⟩ := hk
    split_ifs at hv with hkt
    · exact hnum k (mem_iff_lookup.2 ⟨txn, hkt ▸ htxn⟩)
    · exact hnum k (mem_iff_lookup.2 ⟨v, hv⟩)
  cases h with
  | began E statements =>
    intro k hk
    obtain ⟨v, hv⟩ := mem_iff_lookup.1 hk
    rw [lookup_setTransaction] at hv
    have hnext : tm.nextTransactionId < tm.nextTransactionId + 1 := Int.lt_succ _
    split_ifs at hv with hkt
    · rw [hkt]; exact hnext
    · exact lt_trans (hnum k (mem_iff_lookup.2 ⟨v, hv⟩)) hnext
  | ended H active _ next _ lookup =>
    intro k hk
    obtain ⟨v, hv⟩ := mem_iff_lookup.1 hk
    rw [lookup] at hv
    split_ifs at hv
    rw [next]; exact hnum k (mem_iff_lookup.2 ⟨v, hv⟩)
  | granted here _ _ => exact hkeeps _ _ here.lookup { tm with resourceManager := _ } rfl rfl _
  | refused here _ _ => exact hkeeps _ _ here.lookup { tm with resourceManager := _ } rfl rfl _
  | asked here _ => exact hkeeps _ _ here.lookup tm rfl rfl _
  | answered active _ => exact hkeeps _ _ active tm rfl rfl _
  | denied active => exact hkeeps _ _ active tm rfl rfl _

theorem Move.next_le (h : Move tm a tm') : tm.nextTransactionId ≤ tm'.nextTransactionId := by
  cases h with
  | began => exact (Int.lt_succ _).le
  | ended _ _ _ next => exact next.ge
  | _ => exact le_refl tm.nextTransactionId

/-- an action is about an id that has been handed out -/
theorem Move.transId_lt (h : Move tm a tm') (hnum : Numbered tm) : a.transId < tm'.nextTransactionId := by
  have hactive : ∀ {t txn}, tm.activeTransactions.lookup t = some txn → t < tm'.nextTransactionId :=
    fun htxn => lt_of_lt_of_le (hnum _ (mem_iff_lookup.2 ⟨_, htxn⟩)) h.next_le
  cases h with
  | began => exact Int.lt_succ _
  | ended _ active => exact hactive active
  | granted here => exact hactive here.lookup
  | refused here => exact hactive here.lookup
  | asked here => exact hactive here.lookup
  | answered active => exact hactive active
  | denied active => exact hactive active

/-- the id of a transaction that begins is new -/
theorem Numbered.lookup_next (hnum : Numbered tm) : tm.activeTransactions.lookup tm.nextTransactionId = none := by
  rw [AList.lookup_eq_none]
  exact fun hmem => lt_irrefl _ (hnum _ hmem)

/-- an id that has been handed out and is not active does not become active again -/
theorem Move.stays_gone (h : Move tm a tm') {t : TransactionId} (hgone : t ∉ tm.activeTransactions)
    (hlt : t < tm.nextTransactionId) : t ∉ tm'.activeTransactions := by
  have hnone : ∀ txn, tm.activeTransactions.lookup t ≠ some txn := fun txn h => hgone (mem_iff_lookup.2 ⟨txn, h⟩)
  by_cases hown : t = a.transId
  · subst hown
    cases h with
    | began => exact absurd rfl hlt.ne
    | ended _ active => exact absurd active (hnone _)
    | granted here => exact absurd here.lookup (hnone _)
    | refused here => exact absurd here.lookup (hnone _)
    | asked here => exact absurd here.lookup (hnone _)
    | answered active => exact absurd active (hnone _)
    | denied active => exact absurd active (hnone _)
  · rw [← AList.lookup_eq_none, h.lookup_of_ne hown, AList.lookup_eq_none]
    exact hgone

end Move

theorem numbered_init (n : NodeId) : Numbered (init n) := fun _ ht => absurd ht (AList.notMem_empty _)

end TransactionManager

end HawkTxn
