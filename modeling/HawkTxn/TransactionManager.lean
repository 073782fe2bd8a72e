/-
The transaction manager of one node (`Transaction.h`, `TransactionManager.h`, `TransactionManager.cpp`).

The manager and the lock table share the node's `ResourceManager` by reference; here it is a field of the manager.
Every public operation is one step. A step is undefined (`none`) where the C++ reads outside a vector: the first
resource of a statement without resources, the statement of a granted response past the end of the list.

What the code reads from outside its own state is collected in an `Env`: the iteration order of hash tables, the clock,
the indeterminate bytes of a declared message, the retry callback (declared in `TransactionManager.h`, its body is not
in the repository, so it may do anything to the transaction table), a bound on the steps of searches, and the
compiled-in detection mode. Every operation takes its own `Env`.

The random statements of `beginTransaction` are drawn by the caller of the model. Condition variables have no waiters
in the source and are left out.
-/
import HawkTxn.ResourceManager

namespace HawkTxn

open HawkTxn.Core UnorderedMap

inductive TransactionStatus where
  | running
  | blocked
  | committed
  | aborted
deriving DecidableEq, Repr

structure Transaction where
  id : TransactionId
  homeNodeId : NodeId
  statements : List SQLStatement
  status : TransactionStatus
  /-- nanoseconds -/
  startTime : ℤ
  acquiredLocks : UnorderedMap ResourceId LockMode
  currentSQLIndex : ℕ
  remoteRequestPending : Bool
  remoteRequestSuccess : Bool
  /-- 0: not waiting -/
  waitingForResourceId : ResourceId
deriving DecidableEq

/-- the active transactions by id -/
abbrev TransactionTable := UnorderedMap TransactionId Transaction

/-- what the code reads from outside its own state -/
structure Env where
  hash : HashOrder
  /-- nanoseconds -/
  now : ℤ
  raw : RawScalars
  /-- `notifyTransactionToRetryAcquire(transId, resId)` -/
  notify : TransactionId → ResourceId → TransactionTable → TransactionTable
  fuel : ℕ
  mode : DeadlockDetectionMode

/-- stored iteration order, clock at zero, a callback that does nothing -/
def Env.quiet : Env where
  hash := .stored
  now := 0
  raw := ⟨.unknown, 0, 0, 0, 0, .shared, false, 0, 0, 0⟩
  notify := fun _ _ txns => txns
  fuel := 100
  mode := .hawk

structure TransactionManager where
  nodeId : NodeId
  resourceManager : ResourceManager
  nextTransactionId : TransactionId
  activeTransactions : TransactionTable
  completedTransactionLatencies : List ℤ
deriving DecidableEq

namespace TransactionManager

def init (nodeId : NodeId) : TransactionManager := ⟨nodeId, ResourceManager.init nodeId, 1, ∅, []⟩

/-- a fresh `Transaction` with its id, home node, start time and statements filled in -/
def newTransaction (E : Env) (id : TransactionId) (homeNodeId : NodeId) (statements : List SQLStatement) :
    Transaction where
  id := id
  homeNodeId := homeNodeId
  statements := statements
  status := .running
  startTime := E.now
  acquiredLocks := ∅
  currentSQLIndex := 0
  remoteRequestPending := false
  remoteRequestSuccess := false
  waitingForResourceId := 0

/-- the id handed out and the state after -/
def getNextTransactionId (tm : TransactionManager) : TransactionId × TransactionManager :=
  (tm.nextTransactionId, { tm with nextTransactionId := tm.nextTransactionId + 1 })

/-- write back a transaction object -/
def setTransaction (tm : TransactionManager) (transId : TransactionId) (txn : Transaction) : TransactionManager :=
  { tm with activeTransactions := tm.activeTransactions.insert transId txn }

/-- each draw is a resource and a lock mode -/
def generateRandomSQLStatements (transId : TransactionId) (homeNodeId : NodeId)
    (draws : List (ResourceId × LockMode)) : List SQLStatement :=
  draws.map fun draw => ⟨transId, homeNodeId, [draw.1], draw.2⟩

def beginTransaction (E : Env) (tm : TransactionManager) (draws : List (ResourceId × LockMode)) :
    TransactionManager :=
  let (id, tm) := tm.getNextTransactionId
  tm.setTransaction id (newTransaction E id tm.nodeId (generateRandomSQLStatements id tm.nodeId draws))

def beginControlledTransaction (E : Env) (tm : TransactionManager) (statements : List SQLStatement) :
    TransactionManager :=
  let (id, tm) := tm.getNextTransactionId
  tm.setTransaction id (newTransaction E id tm.nodeId statements)

def addTPCCTransaction (tm : TransactionManager) (tpccTrans : Transaction) : TransactionManager :=
  tm.setTransaction tpccTrans.id tpccTrans

/-- one arrival of `tpccWorkloadLoop`: a TPC-C object has no statements and is homed at this node -/
def tpccArrival (E : Env) (tm : TransactionManager) : TransactionManager :=
  let (id, tm) := tm.getNextTransactionId
  tm.addTPCCTransaction (newTransaction E id tm.nodeId [])

/-- `abortTransaction` and `commitTransaction` differ in the status they leave -/
def endTransaction (status : TransactionStatus) (E : Env) (tm : TransactionManager) (transId : TransactionId) :
    TransactionManager :=
  match tm.activeTransactions.lookup transId with
  | none => tm
  | some txn =>
    let released := tm.resourceManager.releaseAllLocks E.hash transId
    let active := released.2.foldl (fun txns call => E.notify call.1 call.2 txns) tm.activeTransactions
    { tm with
      resourceManager := released.1
      completedTransactionLatencies := tm.completedTransactionLatencies ++ [(E.now - txn.startTime).tdiv 1000000]
      activeTransactions := (active.insert transId { txn with status := status }).erase transId }

def abortTransaction (E : Env) (tm : TransactionManager) (transId : TransactionId) : TransactionManager :=
  endTransaction .aborted E tm transId

def commitTransaction (E : Env) (tm : TransactionManager) (transId : TransactionId) : TransactionManager :=
  endTransaction .committed E tm transId

/-- the request for a lock that another node owns -/
def lockRequestMsg (E : Env) (nodeId ownerNodeId : NodeId) (transId : TransactionId) (resId : ResourceId)
    (mode : LockMode) : NetworkMessage :=
  { NetworkMessage.declare E.raw with
    type := .lockRequest, senderId := nodeId, receiverId := ownerNodeId, transId := transId, resId := resId,
    mode := mode }

/-- state after, return value, messages sent -/
def tryExecuteNextSQLStatement (E : Env) (tm : TransactionManager) (transId : TransactionId) :
    Option (TransactionManager × Bool × List NetworkMessage) :=
  match tm.activeTransactions.lookup transId with
  | none => some (tm, false, [])
  | some txn =>
    if txn.status = .blocked then some (tm, false, [])
    else if txn.statements.length ≤ txn.currentSQLIndex then some (tm.commitTransaction E transId, true, [])
    else do
      let currentSQL ← txn.statements[txn.currentSQLIndex]?
      let resId ← currentSQL.resources.head?
      if getOwnerNodeId resId = tm.nodeId then
        let (acquired, rm) := tm.resourceManager.acquireLock transId resId currentSQL.lockMode
        if acquired then
          some ({ tm with resourceManager := rm }.setTransaction transId { txn with
            currentSQLIndex := txn.currentSQLIndex + 1
            acquiredLocks := txn.acquiredLocks.insert resId currentSQL.lockMode }, true, [])
        else
          some ({ tm with resourceManager := rm }.setTransaction transId { txn with
            status := .blocked
            waitingForResourceId := resId }, false, [])
      else
        some (tm.setTransaction transId { txn with
            remoteRequestPending := true
            waitingForResourceId := resId
            status := .blocked }, false,
          [lockRequestMsg E tm.nodeId (getOwnerNodeId resId) transId resId currentSQL.lockMode])

/-- a granted response: the index is advanced first, and the mode read from the statement just passed -/
def grantLock (txn : Transaction) (resId : ResourceId) (sql : SQLStatement) : Transaction :=
  { txn with
    remoteRequestPending := false
    remoteRequestSuccess := true
    waitingForResourceId := 0
    currentSQLIndex := txn.currentSQLIndex + 1
    acquiredLocks := txn.acquiredLocks.insert resId sql.lockMode
    status := .running }

/-- state after and messages sent -/
def handleSQLResponse (E : Env) (tm : TransactionManager) (transId : TransactionId) (granted : Bool)
    (resId : ResourceId) : Option (TransactionManager × List NetworkMessage) :=
  match tm.activeTransactions.lookup transId with
  | none => some (tm, [])
  | some txn =>
    if granted then do
      let sql ← txn.statements[txn.currentSQLIndex]?
      let (tm, _, sent) ← tryExecuteNextSQLStatement E (tm.setTransaction transId (grantLock txn resId sql)) transId
      some (tm, sent)
    else
      some (tm.setTransaction transId { txn with
        remoteRequestPending := false
        remoteRequestSuccess := false
        waitingForResourceId := 0
        status := .blocked }, [])

/-- the ids of the active transactions, as a set in iteration order -/
def getActiveTransactions (H : HashOrder) (tm : TransactionManager) : List TransactionId :=
  H.order tm.activeTransactions.keys

def getTransaction (tm : TransactionManager) (transId : TransactionId) : Option Transaction :=
  tm.activeTransactions.lookup transId

def getTransactionWaitingFor (tm : TransactionManager) (transId : TransactionId) : ResourceId :=
  match tm.activeTransactions.lookup transId with
  | some txn => txn.waitingForResourceId
  | none => 0

def getTransactionHomeNode (tm : TransactionManager) (transId : TransactionId) : NodeId :=
  match tm.activeTransactions.lookup transId with
  | some txn => txn.homeNodeId
  | none => 0

/-- a call of an operation -/
inductive Op : Type 1 where
  | beginTransaction (E : Env) (draws : List (ResourceId × LockMode))
  | beginControlledTransaction (E : Env) (statements : List SQLStatement)
  | tpccArrival (E : Env)
  | tryExecuteNextSQLStatement (E : Env) (transId : TransactionId)
  | handleSQLResponse (E : Env) (transId : TransactionId) (granted : Bool) (resId : ResourceId)
  | abortTransaction (E : Env) (transId : TransactionId)
  | commitTransaction (E : Env) (transId : TransactionId)

def step (tm : TransactionManager) : Op → Option TransactionManager
  | .beginTransaction E draws => some (tm.beginTransaction E draws)
  | .beginControlledTransaction E statements => some (tm.beginControlledTransaction E statements)
  | .tpccArrival E => some (tm.tpccArrival E)
  | .tryExecuteNextSQLStatement E t => (tm.tryExecuteNextSQLStatement E t).map (·.1)
  | .handleSQLResponse E t granted r => (tm.handleSQLResponse E t granted r).map (·.1)
  | .abortTransaction E t => some (tm.abortTransaction E t)
  | .commitTransaction E t => some (tm.commitTransaction E t)

/-! ## The lock request of a step -/

/-- the local lock the next statement of a transaction asks for -/
def nextRequest (tm : TransactionManager) (transId : TransactionId) : Option (ResourceId × LockMode) := do
  let txn ← tm.activeTransactions.lookup transId
  let sql ← txn.statements[txn.currentSQLIndex]?
  let resId ← sql.resources.head?
  if txn.status ≠ .blocked ∧ getOwnerNodeId resId = tm.nodeId then some (resId, sql.lockMode) else none

/-- the local lock a call asks for, and for whom -/
def Op.request (tm : TransactionManager) : Op → Option (TransactionId × ResourceId × LockMode)
  | .tryExecuteNextSQLStatement _ t => (tm.nextRequest t).map fun req => (t, req)
  | .handleSQLResponse _ t granted r =>
    if granted then do
      let txn ← tm.activeTransactions.lookup t
      let sql ← txn.statements[txn.currentSQLIndex]?
      ((tm.setTransaction t (grantLock txn r sql)).nextRequest t).map fun req => (t, req)
    else none
  | _ => none

theorem nextRequest_eq_some {tm : TransactionManager} {t : TransactionId} {r : ResourceId} {m : LockMode} :
    tm.nextRequest t = some (r, m) ↔ ∃ txn sql, tm.activeTransactions.lookup t = some txn ∧ txn.status ≠ .blocked ∧
      txn.statements[txn.currentSQLIndex]? = some sql ∧ sql.resources.head? = some r ∧
      getOwnerNodeId r = tm.nodeId ∧ sql.lockMode = m := by
  unfold nextRequest
  refine ⟨?_, ?_⟩
  · intro h
    obtain ⟨txn, htxn, h⟩ := Option.bind_eq_some_iff.1 h
    obtain ⟨sql, hsql, h⟩ := Option.bind_eq_some_iff.1 h
    obtain ⟨r', hr', h⟩ := Option.bind_eq_some_iff.1 h
    split_ifs at h with hc
    cases h
    exact ⟨txn, sql, htxn, hc.1, hsql, hr', hc.2, rfl⟩
  · intro hex
    obtain ⟨txn, sql, h1, h2, h3, h4, h5, rfl⟩ := hex
    simp only [h1, h3, h4, Option.bind_eq_bind, Option.bind_some]
    rw [if_pos ⟨h2, h5⟩]

/-- the object is one of the table with some fields changed, but not its home node -/
def Rewrites (tm : TransactionManager) (t : TransactionId) (txn : Transaction) : Prop :=
  ∃ old, tm.activeTransactions.lookup t = some old ∧ txn.homeNodeId = old.homeNodeId

/-- what one call of `tryExecuteNextSQLStatement` leaves behind -/
theorem tryExecuteNextSQLStatement_cases {E : Env} {tm : TransactionManager} {t : TransactionId}
    {res : TransactionManager × Bool × List NetworkMessage} (h : tm.tryExecuteNextSQLStatement E t = some res) :
    (res.1 = tm ∧ res.2.2 = [] ∧ tm.nextRequest t = none) ∨
    (res.1 = tm.commitTransaction E t ∧ res.2.2 = [] ∧ tm.nextRequest t = none) ∨
    (∃ txn r m, res.1 = tm.setTransaction t txn ∧
      res.2.2 = [lockRequestMsg E tm.nodeId (getOwnerNodeId r) t r m] ∧ tm.nextRequest t = none ∧
      Rewrites tm t txn) ∨
    ∃ txn r m, tm.nextRequest t = some (r, m) ∧ getOwnerNodeId r = tm.nodeId ∧ res.2.2 = [] ∧
      res.1 = { tm with resourceManager := (tm.resourceManager.acquireLock t r m).2 }.setTransaction t txn ∧
      ((tm.resourceManager.acquireLock t r m).1 = false → txn.status = .blocked ∧ txn.waitingForResourceId = r) ∧
      Rewrites tm t txn := by
  unfold tryExecuteNextSQLStatement at h
  cases htxn : tm.activeTransactions.lookup t with
  | none =>
    rw [htxn] at h; cases h
    exact Or.inl ⟨rfl, rfl, by simp [nextRequest, htxn]⟩
  | some txn =>
    simp only [htxn] at h
    split_ifs at h with hb hlen
    · cases h
      refine Or.inl ⟨rfl, rfl, ?_⟩
      rw [Option.eq_none_iff_forall_ne_some]
      intro req hreq
      obtain ⟨r, m⟩ := req
      obtain ⟨txn', -, h1, h2, -⟩ := nextRequest_eq_some.1 hreq
      rw [htxn] at h1; cases h1
      exact h2 hb
    · cases h
      exact Or.inr (Or.inl ⟨rfl, rfl, by simp [nextRequest, htxn, List.getElem?_eq_none hlen]⟩)
    · obtain ⟨sql, hsql, h⟩ := Option.bind_eq_some_iff.1 h
      obtain ⟨r, hr, h⟩ := Option.bind_eq_some_iff.1 h
      by_cases how : getOwnerNodeId r = tm.nodeId
      · have hreq : tm.nextRequest t = some (r, sql.lockMode) :=
          nextRequest_eq_some.2 ⟨txn, sql, htxn, hb, hsql, hr, how, rfl⟩
        rw [if_pos how] at h
        cases hacq : (tm.resourceManager.acquireLock t r sql.lockMode).1 with
        | true =>
          rw [hacq] at h; cases h
          exact Or.inr (Or.inr (Or.inr ⟨_, r, _, hreq, how, rfl, rfl,
            fun hf => absurd (hacq.symm.trans hf) (by decide), txn, htxn, rfl⟩))
        | false =>
          rw [hacq] at h; cases h
          exact Or.inr (Or.inr (Or.inr ⟨_, r, _, hreq, how, rfl, rfl, fun _ => ⟨rfl, rfl⟩, txn, htxn, rfl⟩))
      · rw [if_neg how] at h
        cases h
        exact Or.inr (Or.inr (Or.inl ⟨_, r, _, rfl, rfl,
          by simp [nextRequest, htxn, hsql, hr, how], txn, htxn, rfl⟩))

/-- a step that asks for no local lock leaves the queues as they are and gives no lock out -/
structure AsksNothing (tm tm' : TransactionManager) : Prop where
  nodeId : tm'.nodeId = tm.nodeId
  rmNodeId : tm'.resourceManager.nodeId = tm.resourceManager.nodeId
  queues : ∀ r, tm'.resourceManager.getResourceWaitingQueue r = tm.resourceManager.getResourceWaitingQueue r
  holders : ∀ r k, k ∈ tm'.resourceManager.getResourceHolders r → k ∈ tm.resourceManager.getResourceHolders r

theorem AsksNothing.of_eq {tm tm' : TransactionManager} (hnode : tm'.nodeId = tm.nodeId)
    (hrm : tm'.resourceManager = tm.resourceManager) : AsksNothing tm tm' :=
  ⟨hnode, by rw [hrm], fun r => by rw [hrm], fun r k hk => by rwa [hrm] at hk⟩

theorem AsksNothing.refl (tm : TransactionManager) : AsksNothing tm tm := .of_eq rfl rfl

theorem asksNothing_endTransaction (status : TransactionStatus) (E : Env) (tm : TransactionManager)
    (t : TransactionId) : AsksNothing tm (endTransaction status E tm t) := by
  unfold endTransaction
  cases tm.activeTransactions.lookup t with
  | none => exact .refl tm
  | some txn =>
    refine ⟨rfl, rfl, fun _ => rfl, ?_⟩
    intro r k hk
    simp only at hk
    rw [ResourceManager.getResourceHolders_releaseAllLocks, AList.mem_erase] at hk
    exact hk.2

/-- a step that asks for a local lock leaves the transaction in the table and the manager after `acquireLock` -/
structure Asked (tm tm' : TransactionManager) (t : TransactionId) (r : ResourceId) (m : LockMode) : Prop where
  nodeId : tm'.nodeId = tm.nodeId
  owner : getOwnerNodeId r = tm.nodeId
  resourceManager : tm'.resourceManager = (tm.resourceManager.acquireLock t r m).2
  refused : (tm.resourceManager.acquireLock t r m).1 = false →
    ∃ txn, tm'.activeTransactions.lookup t = some txn ∧ txn.status = .blocked ∧ txn.waitingForResourceId = r

theorem tryExecuteNextSQLStatement_spec {E : Env} {tm : TransactionManager} {t : TransactionId}
    {res : TransactionManager × Bool × List NetworkMessage} (h : tm.tryExecuteNextSQLStatement E t = some res) :
    match tm.nextRequest t with
    | none => AsksNothing tm res.1
    | some (r, m) => Asked tm res.1 t r m := by
  rcases tryExecuteNextSQLStatement_cases h with ⟨htm, -, hreq⟩ | ⟨htm, -, hreq⟩ |
    ⟨txn, r, m, htm, -, hreq, -⟩ | ⟨txn, r, m, hreq, how, -, htm, href, -⟩ <;> rw [hreq, htm]
  · exact .refl tm
  · exact asksNothing_endTransaction _ E tm t
  · exact .of_eq rfl rfl
  · exact ⟨rfl, how, rfl, fun hf => ⟨txn, AList.lookup_insert _, href hf⟩⟩

/-- the only message a transaction sends is the request for a remote lock -/
theorem tryExecuteNextSQLStatement_sent {E : Env} {tm : TransactionManager} {t : TransactionId}
    {res : TransactionManager × Bool × List NetworkMessage} (h : tm.tryExecuteNextSQLStatement E t = some res) :
    ∀ msg ∈ res.2.2, msg.type = .lockRequest := by
  rcases tryExecuteNextSQLStatement_cases h with ⟨-, hsent, -⟩ | ⟨-, hsent, -⟩ |
    ⟨txn, r, m, -, hsent, -⟩ | ⟨txn, r, m, -, -, hsent, -⟩ <;> rw [hsent]
  · simp
  · simp
  · simp [lockRequestMsg]
  · simp

theorem handleSQLResponse_sent {E : Env} {tm : TransactionManager} {t : TransactionId} {granted : Bool}
    {r : ResourceId} {res : TransactionManager × List NetworkMessage}
    (h : tm.handleSQLResponse E t granted r = some res) : ∀ msg ∈ res.2, msg.type = .lockRequest := by
  unfold handleSQLResponse at h
  cases htxn : tm.activeTransactions.lookup t with
  | none => rw [htxn] at h; cases h; simp
  | some txn =>
    simp only [htxn] at h
    cases granted with
    | false => cases h; simp
    | true =>
      obtain ⟨sql, -, h⟩ := Option.bind_eq_some_iff.1 h
      obtain ⟨res', hres', h⟩ := Option.bind_eq_some_iff.1 h
      cases h
      exact tryExecuteNextSQLStatement_sent hres'

theorem step_spec {tm tm' : TransactionManager} {o : Op} (h : tm.step o = some tm') :
    match o.request tm with
    | none => AsksNothing tm tm'
    | some (t, r, m) => Asked tm tm' t r m := by
  cases o with
  | beginTransaction E draws => cases h; exact .of_eq rfl rfl
  | beginControlledTransaction E statements => cases h; exact .of_eq rfl rfl
  | tpccArrival E => cases h; exact .of_eq rfl rfl
  | abortTransaction E t => cases h; exact asksNothing_endTransaction _ E tm t
  | commitTransaction E t => cases h; exact asksNothing_endTransaction _ E tm t
  | tryExecuteNextSQLStatement E t =>
    obtain ⟨res, hres, rfl⟩ := Option.map_eq_some_iff.1 h
    have hspec := tryExecuteNextSQLStatement_spec hres
    simp only [Op.request]
    cases hreq : tm.nextRequest t with
    | none => rw [hreq] at hspec; exact hspec
    | some req => rw [hreq] at hspec; exact hspec
  | handleSQLResponse E t granted r =>
    obtain ⟨res, hres, rfl⟩ := Option.map_eq_some_iff.1 h
    unfold handleSQLResponse at hres
    simp only [Op.request]
    cases htxn : tm.activeTransactions.lookup t with
    | none =>
      rw [htxn] at hres; cases hres
      cases granted <;> exact .refl tm
    | some txn =>
      simp only [htxn] at hres
      cases granted with
      | false => cases hres; exact .of_eq rfl rfl
      | true =>
        obtain ⟨sql, hsql, hres⟩ := Option.bind_eq_some_iff.1 hres
        obtain ⟨res', hres', hres⟩ := Option.bind_eq_some_iff.1 hres
        cases hres
        have hspec := tryExecuteNextSQLStatement_spec hres'
        simp only [if_true, Option.bind_eq_bind, Option.bind_some, hsql]
        cases hreq : (tm.setTransaction t (grantLock txn r sql)).nextRequest t with
        | none => rw [hreq] at hspec; exact ⟨hspec.nodeId, hspec.rmNodeId, hspec.queues, hspec.holders⟩
        | some req =>
          rw [hreq] at hspec
          exact ⟨hspec.nodeId, hspec.owner, hspec.resourceManager, hspec.refused⟩

/-- a step adds a holder only by a request that is granted -/
theorem mem_holders_of_step {tm tm' : TransactionManager} {o : Op} (h : tm.step o = some tm') {r : ResourceId}
    {k : TransactionId} (hk : k ∈ tm'.resourceManager.getResourceHolders r) :
    k ∈ tm.resourceManager.getResourceHolders r ∨
      ∃ m, o.request tm = some (k, r, m) ∧ (tm.resourceManager.acquireLock k r m).1 = true := by
  have hspec := step_spec h
  cases hreq : o.request tm with
  | none => rw [hreq] at hspec; exact Or.inl (hspec.holders r k hk)
  | some req =>
    obtain ⟨t, r', m⟩ := req
    rw [hreq] at hspec
    rw [hspec.resourceManager, ResourceManager.getResourceHolders_acquireLock] at hk
    split_ifs at hk with hr
    · obtain ⟨rfl, hgranted⟩ := hr
      rcases AList.mem_insert _ |>.1 hk with rfl | hk
      · exact Or.inr ⟨m, rfl, hgranted⟩
      · exact Or.inl hk
    · exact Or.inl hk

/-- a step adds a waiting transaction only by a request that is refused -/
theorem mem_queue_of_step {tm tm' : TransactionManager} {o : Op} (h : tm.step o = some tm') {r : ResourceId}
    {k : TransactionId} (hk : k ∈ tm'.resourceManager.getResourceWaitingQueue r) :
    k ∈ tm.resourceManager.getResourceWaitingQueue r ∨
      ∃ m, o.request tm = some (k, r, m) ∧ (tm.resourceManager.acquireLock k r m).1 = false := by
  have hspec := step_spec h
  cases hreq : o.request tm with
  | none => rw [hreq] at hspec; rw [hspec.queues r] at hk; exact Or.inl hk
  | some req =>
    obtain ⟨t, r', m⟩ := req
    rw [hreq] at hspec
    rw [hspec.resourceManager, ResourceManager.getResourceWaitingQueue_acquireLock] at hk
    split_ifs at hk with hr
    · obtain ⟨rfl, -, hconflict⟩ := hr
      rcases List.mem_append.1 hk with hk | hk
      · exact Or.inl hk
      · obtain rfl := List.mem_singleton.1 hk
        refine Or.inr ⟨m, rfl, Bool.eq_false_iff.2 ?_⟩
        intro hgranted
        rw [(ResourceManager.acquireLock_granted hgranted).2] at hconflict
        cases hconflict
    · exact Or.inl hk

/-! ## Home nodes -/

/-- ids are positive, and the table records the home node that `home` gives, which is none but the broadcast id 0 -/
def Homed (tm : TransactionManager) (home : TransactionId → NodeId) : Prop :=
  ∀ t txn, tm.activeTransactions.lookup t = some txn → 0 < t ∧ txn.homeNodeId = home t ∧ home t ≠ 0

theorem Homed.pos {tm : TransactionManager} {home : TransactionId → NodeId} (h : tm.Homed home) {t : TransactionId}
    (ht : t ∈ tm.activeTransactions) : 0 < t := by
  obtain ⟨txn, htxn⟩ := mem_iff_lookup.1 ht
  exact (h t txn htxn).1

theorem Homed.getTransactionHomeNode {tm : TransactionManager} {home : TransactionId → NodeId} (h : tm.Homed home)
    {t : TransactionId} (ht : t ∈ tm.activeTransactions) :
    tm.getTransactionHomeNode t = home t ∧ home t ≠ 0 := by
  obtain ⟨txn, htxn⟩ := mem_iff_lookup.1 ht
  simp only [TransactionManager.getTransactionHomeNode, htxn]
  exact (h t txn htxn).2

/-- the retry callback adds no transaction and changes no home node -/
def KeepsHomes (E : Env) : Prop :=
  ∀ t r txns k txn, (E.notify t r txns).lookup k = some txn →
    ∃ old, txns.lookup k = some old ∧ txn.homeNodeId = old.homeNodeId

/-- the environment of a call -/
def Op.env : Op → Env
  | .beginTransaction E _ => E
  | .beginControlledTransaction E _ => E
  | .tpccArrival E => E
  | .tryExecuteNextSQLStatement E _ => E
  | .handleSQLResponse E _ _ _ => E
  | .abortTransaction E _ => E
  | .commitTransaction E _ => E

/-- every entry of the table is an entry of `txns` with the same home node -/
def HomesFrom (txns txns' : TransactionTable) : Prop :=
  ∀ k txn, txns'.lookup k = some txn → ∃ old, txns.lookup k = some old ∧ txn.homeNodeId = old.homeNodeId

theorem HomesFrom.refl (txns : TransactionTable) : HomesFrom txns txns := fun _ txn h => ⟨txn, h, rfl⟩

theorem HomesFrom.trans {a b c : TransactionTable} (h : HomesFrom a b) (k : HomesFrom b c) : HomesFrom a c := by
  intro t txn htxn
  obtain ⟨mid, hmid, hhome⟩ := k t txn htxn
  obtain ⟨old, hold, hhome'⟩ := h t mid hmid
  exact ⟨old, hold, hhome.trans hhome'⟩

theorem homesFrom_insert {txns : TransactionTable} {t : TransactionId} {txn : Transaction}
    (h : ∃ old, txns.lookup t = some old ∧ txn.homeNodeId = old.homeNodeId) : HomesFrom txns (txns.insert t txn) := by
  intro k txn' hk
  rw [lookup_insert_eq] at hk
  split_ifs at hk with hkt
  · cases hk; subst hkt; exact h
  · exact ⟨txn', hk, rfl⟩

theorem homesFrom_endTransaction {E : Env} (hE : KeepsHomes E) (status : TransactionStatus) (tm : TransactionManager)
    (t : TransactionId) : HomesFrom tm.activeTransactions (endTransaction status E tm t).activeTransactions := by
  unfold endTransaction
  cases htxn : tm.activeTransactions.lookup t with
  | none => exact .refl _
  | some txn =>
    intro k txn' hk
    simp only at hk
    rw [lookup_erase_eq] at hk
    split_ifs at hk with hkt
    rw [lookup_insert_eq, if_neg hkt] at hk
    -- the callbacks run one after the other
    have hcalls : ∀ (calls : List (TransactionId × ResourceId)) (txns : TransactionTable),
        HomesFrom txns (calls.foldl (fun txns call => E.notify call.1 call.2 txns) txns) := by
      intro calls
      induction calls with
      | nil => exact fun txns => .refl txns
      | cons call calls ih => exact fun txns => HomesFrom.trans (hE call.1 call.2 txns) (ih _)
    exact hcalls _ _ k txn' hk

theorem homesFrom_tryExecuteNextSQLStatement {E : Env} (hE : KeepsHomes E) {tm : TransactionManager}
    {t : TransactionId} {res : TransactionManager × Bool × List NetworkMessage}
    (h : tm.tryExecuteNextSQLStatement E t = some res) :
    HomesFrom tm.activeTransactions res.1.activeTransactions ∧ res.1.nextTransactionId = tm.nextTransactionId := by
  rcases tryExecuteNextSQLStatement_cases h with ⟨htm, -⟩ | ⟨htm, -⟩ | ⟨txn, r, m, htm, -, -, hrw⟩ |
    ⟨txn, r, m, -, -, -, htm, -, hrw⟩ <;> rw [htm]
  · exact ⟨.refl _, rfl⟩
  · refine ⟨homesFrom_endTransaction hE .committed tm t, ?_⟩
    unfold commitTransaction endTransaction
    cases tm.activeTransactions.lookup t <;> rfl
  · exact ⟨homesFrom_insert hrw, rfl⟩
  · exact ⟨homesFrom_insert hrw, rfl⟩

/-- ids are handed out from 1, and every active transaction has this node as its home -/
structure Inv (n : NodeId) (tm : TransactionManager) : Prop where
  node : tm.nodeId = n
  next : 0 < tm.nextTransactionId
  homed : ∀ t txn, tm.activeTransactions.lookup t = some txn → 0 < t ∧ txn.homeNodeId = n

theorem inv_init (n : NodeId) : Inv n (init n) where
  node := rfl
  next := Int.one_pos
  homed t txn h := by simp [init] at h

/-- a step that keeps the node and hands out no id -/
theorem Inv.of_homesFrom {n : NodeId} {tm tm' : TransactionManager} (hinv : Inv n tm)
    (hnode : tm'.nodeId = tm.nodeId) (hnext : tm'.nextTransactionId = tm.nextTransactionId)
    (h : HomesFrom tm.activeTransactions tm'.activeTransactions) : Inv n tm' where
  node := hnode.trans hinv.node
  next := hnext ▸ hinv.next
  homed t txn ht := by
    obtain ⟨old, hold, hhome⟩ := h t txn ht
    exact ⟨(hinv.homed t old hold).1, hhome.trans (hinv.homed t old hold).2⟩

/-- a step that begins a transaction under the next id -/
theorem Inv.begin {n : NodeId} {tm : TransactionManager} (hinv : Inv n tm) (E : Env)
    (statements : List SQLStatement) :
    Inv n (tm.getNextTransactionId.2.setTransaction tm.nextTransactionId
      (newTransaction E tm.nextTransactionId tm.nodeId statements)) where
  node := hinv.node
  next := Int.lt_add_one_of_le hinv.next.le
  homed t txn ht := by
    simp only [setTransaction, getNextTransactionId] at ht
    rw [lookup_insert_eq] at ht
    split_ifs at ht with hk
    · cases ht; subst hk; exact ⟨hinv.next, hinv.node⟩
    · exact hinv.homed t txn ht

theorem endTransaction_nextTransactionId (status : TransactionStatus) (E : Env) (tm : TransactionManager)
    (t : TransactionId) : (endTransaction status E tm t).nextTransactionId = tm.nextTransactionId := by
  unfold endTransaction
  cases tm.activeTransactions.lookup t <;> rfl

theorem step_inv {n : NodeId} {tm tm' : TransactionManager} {o : Op} (hE : KeepsHomes o.env) (hinv : Inv n tm)
    (h : tm.step o = some tm') : Inv n tm' := by
  have hnode : tm'.nodeId = tm.nodeId := by
    have hspec := step_spec h
    cases hreq : o.request tm with
    | none => rw [hreq] at hspec; exact hspec.nodeId
    | some req => rw [hreq] at hspec; exact hspec.nodeId
  cases o with
  | beginTransaction E draws => cases h; exact hinv.begin E _
  | beginControlledTransaction E statements => cases h; exact hinv.begin E statements
  | tpccArrival E => cases h; exact hinv.begin E []
  | abortTransaction E t =>
    cases h
    exact hinv.of_homesFrom hnode (endTransaction_nextTransactionId ..) (homesFrom_endTransaction hE _ tm t)
  | commitTransaction E t =>
    cases h
    exact hinv.of_homesFrom hnode (endTransaction_nextTransactionId ..) (homesFrom_endTransaction hE _ tm t)
  | tryExecuteNextSQLStatement E t =>
    obtain ⟨res, hres, rfl⟩ := Option.map_eq_some_iff.1 h
    obtain ⟨hhomes, hnext⟩ := homesFrom_tryExecuteNextSQLStatement hE hres
    exact hinv.of_homesFrom hnode hnext hhomes
  | handleSQLResponse E t granted r =>
    obtain ⟨res, hres, rfl⟩ := Option.map_eq_some_iff.1 h
    unfold handleSQLResponse at hres
    cases htxn : tm.activeTransactions.lookup t with
    | none => rw [htxn] at hres; cases hres; exact hinv
    | some txn =>
      simp only [htxn] at hres
      cases granted with
      | false => cases hres; exact hinv.of_homesFrom hnode rfl (homesFrom_insert ⟨txn, htxn, rfl⟩)
      | true =>
        obtain ⟨sql, -, hres⟩ := Option.bind_eq_some_iff.1 hres
        obtain ⟨res', hres', hres⟩ := Option.bind_eq_some_iff.1 hres
        cases hres
        obtain ⟨hhomes, hnext⟩ := homesFrom_tryExecuteNextSQLStatement hE hres'
        have hgrant : HomesFrom tm.activeTransactions
            (tm.setTransaction t (grantLock txn r sql)).activeTransactions := homesFrom_insert ⟨txn, htxn, rfl⟩
        exact hinv.of_homesFrom hnode hnext (hgrant.trans hhomes)

theorem inv_of_reaches {n : NodeId} {tm : TransactionManager}
    (h : ReachesBy step (fun _ o => KeepsHomes o.env) (init n) tm) : Inv n tm :=
  h.invariant (inv_init n) fun _ _ _ hinv hE hstep => step_inv hE hinv hstep

/-- a manager that only begins transactions itself is the home of all of them -/
theorem homed_of_reaches {n : NodeId} (hn : n ≠ 0) {tm : TransactionManager}
    (h : ReachesBy step (fun _ o => KeepsHomes o.env) (init n) tm) : tm.Homed fun _ => n :=
  fun t txn htxn => ⟨((inv_of_reaches h).homed t txn htxn).1, ((inv_of_reaches h).homed t txn htxn).2, hn⟩

@[simp] theorem mem_getActiveTransactions {H : HashOrder} {tm : TransactionManager} {t : TransactionId} :
    t ∈ tm.getActiveTransactions H ↔ t ∈ tm.activeTransactions := by
  rw [getActiveTransactions, HashOrder.mem_order, AList.mem_keys]

end TransactionManager

end HawkTxn
