/-
Nodes that only poll (`TransactionManager.cpp`, the polling and workload loops of `DistributedDBNode.cpp`).

The loops begin transactions and try their next statements; responses, aborts and explicit commits come from outside.
A node that nothing comes to from outside never takes a blocked transaction up again, and no transaction of it leaves
but by a commit.

Results:
- `move_pollInv`: a transaction holds the lock of every statement it has passed, and the queues list blocked
  transactions;
- `StillWaits.of_reaches`: nothing about a blocked transaction changes any more;
- `edge_sound`, `isCycle_still`: the edges of the local wait-for graph are waits, and its cycles stay;
- `polled_out`: a transaction that is polled once per statement and once more is blocked or gone.
-/
import HawkTxn.Bookkeeping

namespace HawkTxn

open HawkTxn.Core UnorderedMap

namespace TransactionManager

variable {n : NodeId} {tm tm' tm'' : TransactionManager} {a : Action} {o : Op} {t k : TransactionId}

/-! ## Polls -/

/-- the operations of the polling and workload loops -/
def Op.Polls : Op → Prop
  | .beginTransaction .. | .tpccArrival _ | .tryExecuteNextSQLStatement .. => True
  | _ => False

instance : (o : Op) → Decidable o.Polls
  | .beginTransaction .. | .tpccArrival _ | .tryExecuteNextSQLStatement .. => .isTrue trivial
  | .beginControlledTransaction .. | .handleSQLResponse .. | .abortTransaction .. | .commitTransaction .. =>
    .isFalse id

/-- the actions of these operations: each statement begun names one resource, who is past the last one commits -/
def Polled (tm : TransactionManager) : Action → Prop
  | .began _ statements => ∀ sql ∈ statements, ∃ r, sql.resources = [r]
  | .ended t status => status = .committed ∧ ∃ txn, tm.activeTransactions.lookup t = some txn ∧
      txn.status ≠ .blocked ∧ txn.statements.length ≤ txn.currentSQLIndex
  | .answered .. => False
  | _ => True

/-- a blocked transaction is not tried -/
theorem attempt_of_blocked {txn : Transaction} (htxn : tm.activeTransactions.lookup t = some txn)
    (hblocked : txn.status = .blocked) : tm.attempt t = [] := by
  unfold attempt
  simp only [htxn, if_pos hblocked]

theorem admits_of_polls (tm : TransactionManager) (h : o.Polls) : Admits moves Polled tm o := by
  intro p hp
  cases o with
  | beginTransaction E draws =>
    obtain rfl := List.mem_singleton.1 hp
    intro sql hsql
    obtain ⟨draw, -, rfl⟩ := List.mem_map.1 hsql
    exact ⟨draw.1, rfl⟩
  | tpccArrival E =>
    obtain rfl := List.mem_singleton.1 hp
    exact fun sql hsql => absurd hsql List.not_mem_nil
  | tryExecuteNextSQLStatement E t =>
    rcases mem_attempt hp with ⟨txn, htxn, hend, rfl⟩ | ⟨r, m, h | h | h⟩
    · refine ⟨rfl, txn, htxn, ?_, hend⟩
      intro hblocked
      rw [moves, attempt_of_blocked htxn hblocked] at hp
      cases hp
    all_goals rw [h]; trivial
  | beginControlledTransaction E statements => cases h
  | handleSQLResponse E t granted r => cases h
  | abortTransaction E t => cases h
  | commitTransaction E t => cases h

/-- an action of a transaction that is not blocked -/
theorem Move.not_blocked (h : Move tm a tm') (hok : Polled tm a) (hnum : Numbered tm) {txn : Transaction}
    (htxn : tm.activeTransactions.lookup a.transId = some txn) : txn.status ≠ .blocked := by
  cases h with
  | began E statements => rw [Action.transId, hnum.lookup_next] at htxn; cases htxn
  | ended _ active =>
    obtain ⟨-, txn', htxn', hrunning, -⟩ := hok
    rw [Action.transId, htxn'] at htxn
    cases htxn; exact hrunning
  | granted here => rw [Action.transId, here.lookup] at htxn; cases htxn; exact here.running
  | refused here => rw [Action.transId, here.lookup] at htxn; cases htxn; exact here.running
  | asked here => rw [Action.transId, here.lookup] at htxn; cases htxn; exact here.running
  | answered => cases hok
  | denied => cases hok

/-! ## The invariant -/

/-- t names one resource in each statement and holds the lock of every statement it has passed -/
structure Walks (tm : TransactionManager) (t : TransactionId) (txn : Transaction) : Prop where
  single : ∀ sql ∈ txn.statements, ∃ r, sql.resources = [r]
  bound : txn.currentSQLIndex ≤ txn.statements.length
  passed : ∀ sql ∈ txn.statements.take txn.currentSQLIndex, ∀ r ∈ sql.resources,
    getOwnerNodeId r = tm.nodeId ∧ (tm.resourceManager.getResourceHolders r).lookup t = some sql.lockMode

structure PollInv (tm : TransactionManager) : Prop where
  locks : LocksAgree tm
  queued : ∀ r, ∀ t ∈ tm.resourceManager.getResourceWaitingQueue r, ∃ txn,
    tm.activeTransactions.lookup t = some txn ∧ txn.status = .blocked ∧ txn.waitingForResourceId = r
  walks : ∀ t txn, tm.activeTransactions.lookup t = some txn → Walks tm t txn

theorem pollInv_init (n : NodeId) : PollInv (init n) :=
  ⟨locksAgree_init n, fun _ _ ht => absurd ht List.not_mem_nil, fun t txn h => by simp [init] at h⟩

/-- an action leaves the locks of the other transactions -/
theorem Walks.of_move {txn : Transaction} (hw : Walks tm t txn) (h : Move tm a tm') (ht : t ≠ a.transId) :
    Walks tm' t txn := by
  refine ⟨hw.single, hw.bound, ?_⟩
  intro sql hsql r hr
  rw [h.lock, Action.lockAfter_of_ne ht, h.nodeId]
  exact hw.passed sql hsql r hr

/-- a transaction that stays at its statement and keeps its locks -/
theorem Walks.stay {txn txn' : Transaction} (hw : Walks tm t txn) (hstatements : txn'.statements = txn.statements)
    (hindex : txn'.currentSQLIndex = txn.currentSQLIndex) (hnode : tm'.nodeId = tm.nodeId)
    (hlock : ∀ r, (tm'.resourceManager.getResourceHolders r).lookup t =
      (tm.resourceManager.getResourceHolders r).lookup t) : Walks tm' t txn' := by
  refine ⟨hstatements ▸ hw.single, by rw [hstatements, hindex]; exact hw.bound, ?_⟩
  rw [hstatements, hindex]
  intro sql hsql r hr
  rw [hlock, hnode]
  exact hw.passed sql hsql r hr

/-- the lock of one more statement; if it is held already, it is SHARED and stays so -/
theorem Walks.pass {txn : Transaction} {sql : SQLStatement} {r : ResourceId} (hw : Walks tm t txn)
    (here : AtStatement tm t txn sql r) (owner : getOwnerNodeId r = tm.nodeId)
    (acquired : (tm.resourceManager.acquireLock t r sql.lockMode).1 = true)
    (h : Move tm (.granted t r sql.lockMode) tm') : Walks tm' t (txn.lockLocally r sql.lockMode) := by
  have hlt : txn.currentSQLIndex < txn.statements.length := (List.getElem?_eq_some_iff.1 here.statement).1
  have hmem : sql ∈ txn.statements := List.mem_of_getElem? here.statement
  refine ⟨hw.single, hlt, ?_⟩
  intro sql' hsql' r' hr'
  rw [h.lock, h.nodeId]
  simp only [Action.lockAfter, true_and]
  rw [Transaction.lockLocally, List.take_add_one, here.statement, List.mem_append] at hsql'
  rcases hsql' with hsql' | hsql'
  · obtain ⟨howner, hheld⟩ := hw.passed sql' hsql' r' hr'
    refine ⟨howner, ?_⟩
    split_ifs with hr
    · subst hr
      obtain ⟨hm, hm'⟩ := ResourceManager.shared_of_granted acquired hheld
      rw [hm, hm']
    · exact hheld
  · obtain rfl : sql' = sql := by simpa using hsql'
    -- its one resource is the first one
    obtain ⟨r₀, hsingle⟩ := hw.single sql' hmem
    have hfirst := here.resource
    rw [hsingle, List.head?_cons, Option.some.injEq] at hfirst
    rw [hsingle, List.mem_singleton, hfirst] at hr'
    subst hr'
    exact ⟨owner, if_pos rfl⟩

theorem PollInv.mover_not_queued (hinv : PollInv tm) (hok : Polled tm a) (h : Move tm a tm') (r : ResourceId) :
    a.transId ∉ tm.resourceManager.getResourceWaitingQueue r := by
  intro hqueued
  obtain ⟨txn, htxn, hblocked, -⟩ := hinv.queued r _ hqueued
  exact h.not_blocked hok hinv.locks.numbered htxn hblocked

theorem move_pollInv (hinv : PollInv tm) (hok : Polled tm a) (h : Move tm a tm') : PollInv tm' := by
  have hremote : RemoteAnswer tm a := by
    cases a with
    | answered => cases hok
    | _ => trivial
  refine ⟨move_locksAgree hinv.locks hremote h, ?_, ?_⟩
  · intro r t ht
    have hold : t ∈ tm.resourceManager.getResourceWaitingQueue r → ∃ txn,
        tm'.activeTransactions.lookup t = some txn ∧ txn.status = .blocked ∧ txn.waitingForResourceId = r := by
      intro hqueued
      rw [h.lookup_of_ne fun heq => hinv.mover_not_queued hok h r (heq ▸ hqueued)]
      exact hinv.queued r t hqueued
    rw [h.queue hinv.locks.node] at ht
    cases h with
    | @refused t' txn sql r' here owner conflict =>
      simp only [Action.queueAfter] at ht
      split_ifs at ht with hr
      · rcases List.mem_append.1 ht with ht | ht
        · exact hold ht
        · -- the refused transaction is blocked from now on
          obtain rfl := List.mem_singleton.1 ht
          exact ⟨_, (lookup_setTransaction ..).trans (if_pos rfl), rfl, hr.symm⟩
      · exact hold ht
    | _ => exact hold ht
  · intro k txn hk
    by_cases hmover : k = a.transId
    · subst hmover
      have hlock := h.lock
      cases h with
      | began E statements =>
        obtain rfl := eq_of_lookup_setTransaction hk
        exact ⟨hok, Nat.zero_le _, fun sql hsql => absurd hsql (by simp [newTransaction])⟩
      | ended _ _ _ _ _ lookup => simp [lookup, Action.transId] at hk
      | @granted t old sql r here owner acquired =>
        obtain rfl := eq_of_lookup_setTransaction hk
        exact (hinv.walks t old here.lookup).pass here owner acquired (.granted here owner acquired)
      | @refused t old sql r here _ _ =>
        obtain rfl := eq_of_lookup_setTransaction hk
        exact (hinv.walks t old here.lookup).stay rfl rfl rfl fun r' => hlock r' t
      | @asked t old sql r here _ =>
        obtain rfl := eq_of_lookup_setTransaction hk
        exact (hinv.walks t old here.lookup).stay rfl rfl rfl fun r' => hlock r' t
      | answered => cases hok
      | denied => cases hok
    · rw [h.lookup_of_ne hmover] at hk
      exact (hinv.walks k txn hk).of_move h hmover

/-- runs of polls whose callback changes no transaction -/
abbrev PollsTo : TransactionManager → TransactionManager → Prop := ReachesBy step fun _ o => o.Polls ∧ Silent o.env

/-- **The invariant rule for polls.** -/
theorem PollsTo.invariant {P : TransactionManager → Prop} (h : PollsTo tm tm') (h0 : P tm)
    (hmove : ∀ s a s', P s → Polled s a → Move s a s' → P s') : P tm' :=
  moves_invariant (fun _ _ _ => path_of_step) hmove (h.mono fun s _ ho => ⟨ho.2, admits_of_polls s ho.1⟩) h0

theorem PollsTo.pollInv (h : PollsTo tm tm') (hinv : PollInv tm) : PollInv tm' :=
  h.invariant hinv fun _ _ _ => move_pollInv

/-! ## Blocked transactions -/

/-- nothing about t is different, and others at most queued up -/
structure StillWaits (t : TransactionId) (tm tm' : TransactionManager) : Prop where
  nodeId : tm'.resourceManager.nodeId = tm.resourceManager.nodeId
  record : tm'.activeTransactions.lookup t = tm.activeTransactions.lookup t
  locks : ∀ r, (tm'.resourceManager.getResourceHolders r).lookup t =
    (tm.resourceManager.getResourceHolders r).lookup t
  queues : ∀ r, tm.resourceManager.getResourceWaitingQueue r <+: tm'.resourceManager.getResourceWaitingQueue r

theorem StillWaits.refl (t : TransactionId) (tm : TransactionManager) : StillWaits t tm tm :=
  ⟨rfl, rfl, fun _ => rfl, fun _ => List.prefix_rfl⟩

theorem StillWaits.trans (h : StillWaits t tm tm') (h' : StillWaits t tm' tm'') : StillWaits t tm tm'' :=
  ⟨h'.nodeId.trans h.nodeId, h'.record.trans h.record, fun r => (h'.locks r).trans (h.locks r),
    fun r => (h.queues r).trans (h'.queues r)⟩

theorem Move.stillWaits (h : Move tm a tm') (hnode : tm.resourceManager.nodeId = tm.nodeId) (ht : t ≠ a.transId) :
    StillWaits t tm tm' := by
  refine ⟨h.rmNodeId, h.lookup_of_ne ht, ?_, ?_⟩
  · intro r
    rw [h.lock, Action.lockAfter_of_ne ht]
  · intro r
    rw [h.queue hnode]
    cases a with
    | refused t' r' m =>
      simp only [Action.queueAfter]
      split_ifs
      · exact List.prefix_append _ _
      · exact List.prefix_rfl
    | _ => exact List.prefix_rfl

theorem StillWaits.of_reaches (h : PollsTo tm tm') (hinv : PollInv tm) {txn : Transaction}
    (htxn : tm.activeTransactions.lookup t = some txn) (hblocked : txn.status = .blocked) : StillWaits t tm tm' := by
  have hstill : PollInv tm' ∧ StillWaits t tm tm' := by
    refine h.invariant (P := fun s => PollInv s ∧ StillWaits t tm s) ⟨hinv, .refl t tm⟩ ?_
    intro s a s' hs hok hmove
    have hother : t ≠ a.transId := by
      rintro rfl
      exact hmove.not_blocked hok hs.1.locks.numbered (hs.2.record.trans htxn) hblocked
    exact ⟨move_pollInv hs.1 hok hmove, hs.2.trans (hmove.stillWaits hs.1.locks.node hother)⟩
  exact hstill.2

/-! ## The local wait-for graph -/

/-- an edge is a wait: its source is blocked on a local resource that its target holds, and both are active -/
theorem edge_sound (hinv : PollInv tm) {H : HashOrder}
    (h : WaitForGraph.Edge (LockTable.buildLocalWaitForGraph H tm) t k) :
    ∃ r ∈ tm.resourceManager.getLocalResources, LockTable.BlockedOn tm t r ∧
      k ∈ tm.resourceManager.getResourceHolders r ∧ k ≠ t ∧ k ∈ tm.activeTransactions := by
  obtain ⟨r, hlocal, hfront, -, hk, hne⟩ := LockTable.edge_buildLocalWaitForGraph.1 h
  have hqueued : t ∈ tm.resourceManager.getResourceWaitingQueue r := List.mem_of_mem_head? hfront
  obtain ⟨m, hm⟩ := mem_iff_lookup.1 hk
  have hrecorded := (hinv.locks.agree r (hinv.locks.owned r k m hm) k).symm.trans hm
  obtain ⟨txn, htxn, -⟩ := recordedLock_eq_some.1 hrecorded
  have howned : getOwnerNodeId r = tm.nodeId := hinv.locks.owned r k m hm
  exact ⟨r, hlocal, ⟨hinv.queued r t hqueued, howned, hqueued⟩, hk, hne, mem_iff_lookup.2 ⟨txn, htxn⟩⟩

theorem StillWaits.edge (ht : StillWaits t tm tm') (hk : StillWaits k tm tm') {H H' : HashOrder}
    (h : WaitForGraph.Edge (LockTable.buildLocalWaitForGraph H tm) t k) :
    WaitForGraph.Edge (LockTable.buildLocalWaitForGraph H' tm') t k := by
  obtain ⟨r, hlocal, hfront, hwaits, hheld, hne⟩ := LockTable.edge_buildLocalWaitForGraph.1 h
  refine LockTable.edge_buildLocalWaitForGraph.2 ⟨r, ?_, ?_, ?_, ?_, hne⟩
  · rw [ResourceManager.getLocalResources, ht.nodeId]; exact hlocal
  · obtain ⟨rest, hrest⟩ := ht.queues r
    rw [← hrest, List.head?_append, hfront]
    rfl
  · rw [getTransactionWaitingFor, ht.record]; exact hwaits
  · rw [mem_iff_lookup, hk.locks r, ← mem_iff_lookup]; exact hheld

/-- a cycle of the local graph stays a cycle of it -/
theorem isCycle_still (hinv : PollInv tm) (hrun : PollsTo tm tm') {H H' : HashOrder} {c : List TransactionId}
    (h : IsCycle (WaitForGraph.Edge (LockTable.buildLocalWaitForGraph H tm)) c) :
    (∀ t ∈ c, StillWaits t tm tm') ∧
      IsCycle (WaitForGraph.Edge (LockTable.buildLocalWaitForGraph H' tm')) c := by
  have hstill : ∀ t ∈ c, StillWaits t tm tm' := by
    intro t ht
    obtain ⟨k, -, hedge⟩ := h.exists_succ ht
    obtain ⟨r, -, hblocked, -⟩ := edge_sound hinv hedge
    obtain ⟨txn, htxn, hstatus, -⟩ := hblocked.active
    exact .of_reaches hrun hinv htxn hstatus
  refine ⟨hstill, (h.restrict hstill).mono ?_⟩
  intro t k hedge
  exact hedge.2.1.edge hedge.2.2 hedge.1

/-! ## Leaving -/

/-- only an end takes a transaction out of the table -/
theorem Move.still_active (h : Move tm a tm') (ht : t ∈ tm.activeTransactions)
    (hne : ∀ status, a ≠ .ended t status) : t ∈ tm'.activeTransactions := by
  have hset : ∀ (s : TransactionManager) u txn, s.activeTransactions = tm.activeTransactions →
      t ∈ (s.setTransaction u txn).activeTransactions :=
    fun s u txn hs => (AList.mem_insert _).2 (Or.inr (hs ▸ ht))
  cases h with
  | @ended u txn status tm' H _ _ _ _ lookup =>
    rw [mem_iff_lookup] at ht ⊢
    rwa [lookup, if_neg]
    rintro rfl
    exact hne status rfl
  | _ => exact hset _ _ _ rfl

theorem exists_ended {l : List (TransactionManager × Action)} (h : Path Move tm l tm')
    (ht : t ∈ tm.activeTransactions) (hgone : t ∉ tm'.activeTransactions) :
    ∃ p ∈ l, ∃ status, p.2 = .ended t status := by
  by_contra hnone
  have hkeeps : ∀ s a s', t ∈ s.activeTransactions → (∀ status, a ≠ .ended t status) → Move s a s' →
      t ∈ s'.activeTransactions := fun s a s' hs hne hmove => hmove.still_active hs hne
  exact hgone (h.keeps hkeeps (fun p hp status heq => hnone ⟨p, hp, status, heq⟩) ht)

/-- who leaves commits past its last statement, and holds the lock of every statement -/
theorem PollInv.leaves (hinv : PollInv tm) (hpolls : o.Polls) (hE : Silent o.env) (hst : tm.step o = some tm')
    {txn : Transaction} (htxn : tm.activeTransactions.lookup t = some txn) (hgone : t ∉ tm'.activeTransactions) :
    (∃ E, o = .tryExecuteNextSQLStatement E t) ∧ txn.currentSQLIndex = txn.statements.length ∧
      ∀ sql ∈ txn.statements, ∀ r ∈ sql.resources, getOwnerNodeId r = tm.nodeId ∧
        (tm.resourceManager.getResourceHolders r).lookup t = some sql.lockMode := by
  obtain ⟨p, hp, status, hended⟩ := exists_ended (path_of_step hE hst) (mem_iff_lookup.2 ⟨txn, htxn⟩) hgone
  cases o with
  | beginTransaction E draws => rw [List.mem_singleton.1 hp] at hended; cases hended
  | tpccArrival E => rw [List.mem_singleton.1 hp] at hended; cases hended
  | tryExecuteNextSQLStatement E u =>
    rcases mem_attempt hp with ⟨old, hold, hlen, rfl⟩ | ⟨r, m, h | h | h⟩
    · cases hended
      rw [htxn] at hold
      cases hold
      have hw := hinv.walks t txn htxn
      have hindex := hw.bound.antisymm hlen
      refine ⟨⟨E, rfl⟩, hindex, ?_⟩
      have hpassed := hw.passed
      rw [hindex, List.take_length] at hpassed
      exact hpassed
    all_goals rw [h] at hended; cases hended
  | beginControlledTransaction E statements => cases hpolls
  | handleSQLResponse E u granted r => cases hpolls
  | abortTransaction E u => cases hpolls
  | commitTransaction E u => cases hpolls

/-! ## Progress -/

/-- does the operation try the next statement of t? -/
def Op.tries (t : TransactionId) : Op → Bool
  | .tryExecuteNextSQLStatement _ u => u = t
  | _ => false

/-- t left or is blocked -/
def Out (tm : TransactionManager) (t : TransactionId) : Prop :=
  t ∉ tm.activeTransactions ∨ ∃ txn, tm.activeTransactions.lookup t = some txn ∧ txn.status = .blocked

theorem Numbered.lt (hnum : Numbered tm) {txn : Transaction} (htxn : tm.activeTransactions.lookup t = some txn) :
    t < tm.nextTransactionId := hnum t (mem_iff_lookup.2 ⟨txn, htxn⟩)

theorem PollsTo.lt_next (h : PollsTo tm tm') (hlt : t < tm.nextTransactionId) : t < tm'.nextTransactionId :=
  h.invariant (P := fun s => t < s.nextTransactionId) hlt fun _ _ _ hs _ hmove => hs.trans_le hmove.next_le

/-- who is out stays out -/
theorem Out.of_reaches (h : PollsTo tm tm') (hinv : PollInv tm) (hlt : t < tm.nextTransactionId) (hout : Out tm t) :
    Out tm' t := by
  rcases hout with hgone | ⟨txn, htxn, hblocked⟩
  · have hstays : t ∉ tm'.activeTransactions ∧ t < tm'.nextTransactionId := by
      refine h.invariant (P := fun s => t ∉ s.activeTransactions ∧ t < s.nextTransactionId) ⟨hgone, hlt⟩ ?_
      exact fun s a s' hs _ hmove => ⟨hmove.stays_gone hs.1 hs.2, hs.2.trans_le hmove.next_le⟩
    exact Or.inl hstays.1
  · exact Or.inr ⟨txn, (StillWaits.of_reaches h hinv htxn hblocked).record.trans htxn, hblocked⟩

/-- a poll of an active transaction that is not blocked does one thing -/
theorem attempt_singleton {E : Env} {res : TransactionManager × Bool × List NetworkMessage}
    (h : tm.tryExecuteNextSQLStatement E t = some res) {txn : Transaction}
    (htxn : tm.activeTransactions.lookup t = some txn) (hrunning : txn.status ≠ .blocked) :
    ∃ a : Action, a.transId = t ∧ tm.attempt t = [(tm, a)] := by
  have hsome : tm.attempt t ≠ [] := by
    unfold tryExecuteNextSQLStatement at h
    unfold attempt
    simp only [htxn, if_neg hrunning] at h ⊢
    split_ifs at h ⊢ with hlen
    · exact List.cons_ne_nil _ _
    · obtain ⟨sql, hsql, h⟩ := Option.bind_eq_some_iff.1 h
      obtain ⟨r, hr, -⟩ := Option.bind_eq_some_iff.1 h
      simp only [hsql, Transaction.currentResource, Option.bind_some, hr]
      split_ifs <;> exact List.cons_ne_nil _ _
  rcases attempt_cases h with ⟨hnone, -⟩ | ⟨-, hend, -⟩ | ⟨old, sql, r, -, hlock⟩
  · exact absurd hnone hsome
  · exact ⟨_, rfl, hend⟩
  · rcases hlock with ⟨-, -, hone, -⟩ | ⟨-, -, hone, -⟩ | ⟨-, hone, -⟩ <;> exact ⟨_, rfl, hone⟩

/-- who does something is out, or has passed one more statement -/
theorem Move.out_or_passed (h : Move tm a tm') (hok : Polled tm a) (hnum : Numbered tm) {txn : Transaction}
    (htxn : tm.activeTransactions.lookup a.transId = some txn) : Out tm' a.transId ∨
    ∃ txn', tm'.activeTransactions.lookup a.transId = some txn' ∧ txn'.statements = txn.statements ∧
      txn'.currentSQLIndex = txn.currentSQLIndex + 1 := by
  cases h with
  | began E statements => rw [Action.transId, hnum.lookup_next] at htxn; cases htxn
  | ended _ _ _ _ _ lookup =>
    refine Or.inl (Or.inl ?_)
    rw [← AList.lookup_eq_none, lookup]
    exact if_pos rfl
  | granted here =>
    rw [Action.transId, here.lookup] at htxn
    cases htxn
    exact Or.inr ⟨_, (lookup_setTransaction ..).trans (if_pos rfl), rfl, rfl⟩
  | refused here => exact Or.inl (Or.inr ⟨_, (lookup_setTransaction ..).trans (if_pos rfl), rfl⟩)
  | asked here => exact Or.inl (Or.inr ⟨_, (lookup_setTransaction ..).trans (if_pos rfl), rfl⟩)
  | answered => cases hok
  | denied => cases hok

/-- a poll of another transaction, and a begin, leave t as it is -/
theorem lookup_of_not_tries (hnum : Numbered tm) (hpolls : o.Polls) (hE : Silent o.env)
    (hst : tm.step o = some tm') (hother : o.tries t = false) (ht : t ∈ tm.activeTransactions) :
    tm'.activeTransactions.lookup t = tm.activeTransactions.lookup t := by
  have hmover : ∀ p ∈ tm.moves o, t ≠ p.2.transId := by
    intro p hp
    cases o with
    | beginTransaction E draws => rw [List.mem_singleton.1 hp]; exact (hnum t ht).ne
    | tpccArrival E => rw [List.mem_singleton.1 hp]; exact (hnum t ht).ne
    | tryExecuteNextSQLStatement E u =>
      have hu : t ≠ u := fun heq => absurd hother (by simp [Op.tries, heq])
      rcases mem_attempt hp with ⟨old, -, -, rfl⟩ | ⟨r, m, h | h | h⟩
      · exact hu
      all_goals rw [h]; exact hu
    | beginControlledTransaction E statements => cases hpolls
    | handleSQLResponse E u granted r => cases hpolls
    | abortTransaction E u => cases hpolls
    | commitTransaction E u => cases hpolls
  have hkeeps : ∀ s a s', s.activeTransactions.lookup t = tm.activeTransactions.lookup t → t ≠ a.transId →
      Move s a s' → s'.activeTransactions.lookup t = tm.activeTransactions.lookup t :=
    fun s a s' hs hne hmove => (hmove.lookup_of_ne hne).trans hs
  exact (path_of_step hE hst).keeps hkeeps hmover rfl

/-- one poll: t is out, or it has passed one more statement if it was its turn -/
theorem step_tries (hinv : PollInv tm) (hpolls : o.Polls) (hE : Silent o.env) (hst : tm.step o = some tm')
    {txn : Transaction} (htxn : tm.activeTransactions.lookup t = some txn) : Out tm' t ∨
    ∃ txn', tm'.activeTransactions.lookup t = some txn' ∧ txn'.statements = txn.statements ∧
      txn'.currentSQLIndex = txn.currentSQLIndex + if o.tries t then 1 else 0 := by
  have hactive : t ∈ tm.activeTransactions := mem_iff_lookup.2 ⟨txn, htxn⟩
  have hnum := hinv.locks.numbered
  by_cases htries : o.tries t = true
  · rw [if_pos htries]
    by_cases hblocked : txn.status = .blocked
    · have hstep : PollsTo tm tm' := .next .start ⟨hpolls, hE⟩ hst
      exact Or.inl (Out.of_reaches hstep hinv (hnum t hactive) (Or.inr ⟨txn, htxn, hblocked⟩))
    cases o with
    | tryExecuteNextSQLStatement E u =>
      obtain rfl : u = t := by simpa [Op.tries] using htries
      obtain ⟨res, hres, -⟩ := Option.map_eq_some_iff.1 hst
      obtain ⟨a, rfl, hone⟩ := attempt_singleton hres htxn hblocked
      have hpath := path_of_step hE hst
      have hok := admits_of_polls tm hpolls
      rw [Admits, moves, hone] at hok
      rw [moves, hone] at hpath
      cases hpath with
      | cons hmove hrest =>
        cases hrest
        exact hmove.out_or_passed (hok (tm, a) List.mem_cons_self) hnum htxn
    | _ => cases htries
  · rw [if_neg htries]
    have hsame := lookup_of_not_tries hnum hpolls hE hst (Bool.eq_false_of_not_eq_true htries) hactive
    exact Or.inr ⟨txn, hsame.trans htxn, rfl, rfl⟩

/-- the run that a list of polls is -/
theorem pollsTo_of_run {ops : List Op} (hops : ∀ o ∈ ops, o.Polls ∧ Silent o.env) (h : run step tm ops = some tm') :
    PollsTo tm tm' := by
  have hrun : ReachesBy step (fun _ o => (o.Polls ∧ Silent o.env) ∧ True) tm tm' := .of_run_of_forall hops h
  exact hrun.mono fun _ _ ho => ho.1

theorem out_of_run {ops : List Op} (hinv : PollInv tm) (hops : ∀ o ∈ ops, o.Polls ∧ Silent o.env)
    (hrun : run step tm ops = some tm') {txn : Transaction} (htxn : tm.activeTransactions.lookup t = some txn)
    (hcount : txn.statements.length < txn.currentSQLIndex + ops.countP (Op.tries t)) : Out tm' t := by
  induction ops generalizing tm txn with
  | nil => exact absurd hcount (not_lt.2 (hinv.walks t txn htxn).bound)
  | cons o ops ih =>
    obtain ⟨ho, hrest⟩ := List.forall_mem_cons.1 hops
    rw [run, runBy, if_pos trivial] at hrun
    obtain ⟨s, hst, hrun⟩ := Option.bind_eq_some_iff.1 hrun
    have hstep : PollsTo tm s := .next .start ho hst
    have hs : PollInv s := hstep.pollInv hinv
    rcases step_tries hinv ho.1 ho.2 hst htxn with hout | ⟨txn', htxn', hstatements, hindex⟩
    · exact hout.of_reaches (pollsTo_of_run hrest hrun) hs (hstep.lt_next (hinv.locks.numbered.lt htxn))
    · apply ih hs hrest hrun htxn'
      rw [hstatements, hindex]
      rw [List.countP_cons] at hcount
      omega

/-- **Progress.** In every run of polls, a transaction that is tried once per statement left and once more has left, or
is blocked, and stays so. -/
theorem polled_out {ops : List Op} (h : PollsTo (init n) tm) (hops : ∀ o ∈ ops, o.Polls ∧ Silent o.env)
    (hrun : run step tm ops = some tm') {txn : Transaction} (htxn : tm.getTransaction t = some txn)
    (hcount : txn.statements.length < txn.currentSQLIndex + ops.countP (Op.tries t)) (hlater : PollsTo tm' tm'') :
    tm''.getTransaction t = none ∨ ∃ txn', tm''.getTransaction t = some txn' ∧ txn'.status = .blocked := by
  have hinv : PollInv tm := h.pollInv (pollInv_init n)
  have hrest : PollsTo tm tm' := pollsTo_of_run hops hrun
  have hout : Out tm' t := out_of_run hinv hops hrun htxn hcount
  have hlt : t < tm'.nextTransactionId := hrest.lt_next (hinv.locks.numbered.lt htxn)
  rcases hout.of_reaches hlater (hrest.pollInv hinv) hlt with hgone | hblocked
  · exact Or.inl (AList.lookup_eq_none.2 hgone)
  · exact Or.inr hblocked

/-- two writers of resources 5 and 6, in opposite orders -/
def crossedWriters : List Op :=
  [.beginTransaction .quiet [(5, .exclusive), (6, .exclusive)],
    .beginTransaction .quiet [(6, .exclusive), (5, .exclusive)]]

def crossed : TransactionManager := (run step (init 1) crossedWriters).get rfl

/-- each is tried three times -/
def crossedPolls : List Op :=
  [.tryExecuteNextSQLStatement .quiet 1, .tryExecuteNextSQLStatement .quiet 2, .tryExecuteNextSQLStatement .quiet 1,
    .tryExecuteNextSQLStatement .quiet 2, .tryExecuteNextSQLStatement .quiet 1, .tryExecuteNextSQLStatement .quiet 2]

def crossedBlocked : TransactionManager := (run step crossed crossedPolls).get rfl

theorem polled_out_crossed : crossedBlocked.getTransactionWaitingFor 1 = 6 ∧
    (crossedBlocked.getTransaction 1 = none ∨
      ∃ txn, crossedBlocked.getTransaction 1 = some txn ∧ txn.status = .blocked) := by
  have hbegun : ∀ o ∈ crossedWriters, o.Polls ∧ Silent o.env := by
    simp [crossedWriters, Op.Polls, Op.env, silent_quiet]
  have hpolls : ∀ o ∈ crossedPolls, o.Polls ∧ Silent o.env := by
    simp [crossedPolls, Op.Polls, Op.env, silent_quiet]
  exact ⟨by decide, polled_out (pollsTo_of_run hbegun (Option.some_get _).symm) hpolls (Option.some_get _).symm
    (Option.some_get rfl).symm (by decide) .start⟩

end TransactionManager

end HawkTxn
