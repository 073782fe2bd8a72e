/-
Two-phase locking over the statements of a transaction (`TransactionManager.cpp`).

A transaction walks through its statements with one index. A lock of this node advances the index when the lock manager
grants it, a lock of another node when a granted response is taken; past the last statement the transaction commits and
its locks are released. The log of a run lists the actions taken so far, so it says what each transaction was granted.

A statement lists resources, and only the first one is ever asked for. A granted response advances the index whatever
resource it names and whether or not anything was asked.

Results:
- `index_bounded`: if every granted response names the resource its transaction is at, the index stays in bounds and
  passes only statements whose own resource was granted; a response that does not breaks this at once;
- `commit_granted_iff`: if every response answers the pending request, a transaction that commits was granted every
  resource of every statement exactly when each of them is the first resource of a statement with the same lock mode,
  and what it was granted it still holds.
-/
import HawkTxn.Bookkeeping

namespace HawkTxn

open HawkTxn.Core UnorderedMap

namespace TransactionManager

variable {n : NodeId} {tm tm' : TransactionManager} {a : Action} {log : List Action} {t : TransactionId}
  {r : ResourceId} {m : LockMode}

/-! ## What a log says about one transaction -/

/-- the actions of t, oldest first -/
def actionsOf (t : TransactionId) (log : List Action) : List Action := log.filter fun a => a.transId = t

/-- the last thing t did was to ask another node for r in mode m -/
def Asking (log : List Action) (t : TransactionId) (r : ResourceId) (m : LockMode) : Prop :=
  (actionsOf t log).getLast? = some (.asked t r m)

/-- t was granted r in mode m, by the lock manager of the node or by the response that came after its request -/
def LockGranted (log : List Action) (t : TransactionId) (r : ResourceId) (m : LockMode) : Prop :=
  .granted t r m ∈ log ∨ [.asked t r m, .answered t true r] <:+: actionsOf t log

/-- t was granted r, by the lock manager of the node or by any response -/
def ResourceGranted (log : List Action) (t : TransactionId) (r : ResourceId) : Prop :=
  (∃ m, .granted t r m ∈ log) ∨ .answered t true r ∈ log

theorem actionsOf_append (log : List Action) (a : Action) (t : TransactionId) :
    actionsOf t (log ++ [a]) = if a.transId = t then actionsOf t log ++ [a] else actionsOf t log := by
  unfold actionsOf
  rw [List.filter_append]
  split_ifs with h <;> simp [h]

theorem asking_append : Asking (log ++ [a]) t r m ↔ if a.transId = t then a = .asked t r m else Asking log t r m := by
  unfold Asking
  rw [actionsOf_append]
  split_ifs
  · rw [List.getLast?_concat, Option.some.injEq]
  · rfl

theorem asking_asked : Asking (log ++ [.asked t r m]) t r m := by
  rw [asking_append]
  simp [Action.transId]

theorem lockGranted_append : LockGranted (log ++ [a]) t r m ↔
    LockGranted log t r m ∨ a = .granted t r m ∨ (a = .answered t true r ∧ Asking log t r m) := by
  unfold LockGranted Asking
  rw [List.mem_append, List.mem_singleton, actionsOf_append]
  by_cases ha : a.transId = t
  · rw [if_pos ha, pair_infix_append]
    refine ⟨?_, ?_⟩
    · intro h
      rcases h with (h | h) | h | ⟨h, h'⟩
      · exact Or.inl (Or.inl h)
      · exact Or.inr (Or.inl h.symm)
      · exact Or.inl (Or.inr h)
      · exact Or.inr (Or.inr ⟨h', h⟩)
    · intro h
      rcases h with (h | h) | h | ⟨h, h'⟩
      · exact Or.inl (Or.inl h)
      · exact Or.inr (Or.inl h)
      · exact Or.inl (Or.inr h.symm)
      · exact Or.inr (Or.inr ⟨h', h⟩)
  · rw [if_neg ha]
    have hgranted : a ≠ .granted t r m := fun h => ha (h ▸ rfl)
    have hanswered : a ≠ .answered t true r := fun h => ha (h ▸ rfl)
    simp only [hgranted, hgranted.symm, hanswered, or_false, false_and]

theorem resourceGranted_append : ResourceGranted (log ++ [a]) t r ↔
    ResourceGranted log t r ∨ (∃ m, a = .granted t r m) ∨ a = .answered t true r := by
  unfold ResourceGranted
  simp only [List.mem_append, List.mem_singleton]
  refine ⟨?_, ?_⟩
  · intro h
    rcases h with ⟨m, h | h⟩ | h | h
    · exact Or.inl (Or.inl ⟨m, h⟩)
    · exact Or.inr (Or.inl ⟨m, h.symm⟩)
    · exact Or.inl (Or.inr h)
    · exact Or.inr (Or.inr h.symm)
  · intro h
    rcases h with (⟨m, h⟩ | h) | ⟨m, h⟩ | h
    · exact Or.inl ⟨m, Or.inl h⟩
    · exact Or.inr (Or.inl h)
    · exact Or.inl ⟨m, Or.inr h.symm⟩
    · exact Or.inr (Or.inr h.symm)

theorem LockGranted.resourceGranted (h : LockGranted log t r m) : ResourceGranted log t r := by
  rcases h with h | h
  · exact Or.inl ⟨m, h⟩
  · exact Or.inr (List.mem_filter.1 (h.subset (by simp))).1

/-- what another transaction does grants t nothing -/
theorem lockGranted_append_of_ne (ha : a.transId ≠ t) : LockGranted (log ++ [a]) t r m ↔ LockGranted log t r m := by
  rw [lockGranted_append, or_iff_left]
  intro h
  rcases h with h | ⟨h, -⟩ <;> exact ha (h ▸ rfl)

theorem resourceGranted_append_of_ne (ha : a.transId ≠ t) :
    ResourceGranted (log ++ [a]) t r ↔ ResourceGranted log t r := by
  rw [resourceGranted_append, or_iff_left]
  intro h
  rcases h with ⟨m, h⟩ | h <;> exact ha (h ▸ rfl)

/-- a transaction that has done nothing yet was granted nothing -/
theorem not_resourceGranted_of_new (h : ∀ a ∈ log, a.transId ≠ t) : ¬ ResourceGranted log t r := by
  intro hgranted
  rcases hgranted with ⟨m, hmem⟩ | hmem
  · exact h _ hmem rfl
  · exact h _ hmem rfl

/-! ## The statement index -/

/-- a granted response names the first resource of the statement its transaction is at, or that resource has been
granted to the transaction before -/
def AnswersCurrent (tm : TransactionManager) : Action → Prop
  | .answered t true r => ∃ txn ∈ tm.activeTransactions.lookup t, ∃ own ∈ txn.currentResource,
      own = r ∨ own ∈ txn.acquiredLocks
  | _ => True

instance (tm : TransactionManager) : (a : Action) → Decidable (AnswersCurrent tm a)
  | .answered t true r => inferInstanceAs (Decidable (∃ txn ∈ tm.activeTransactions.lookup t,
      ∃ own ∈ txn.currentResource, own = r ∨ own ∈ txn.acquiredLocks))
  | .answered _ false _ | .began .. | .ended .. | .granted .. | .refused .. | .asked .. => .isTrue trivial

/-- what the log says about the index of a transaction -/
structure IndexInv (log : List Action) (tm : TransactionManager) (t : TransactionId) (txn : Transaction) : Prop where
  bound : txn.currentSQLIndex ≤ txn.statements.length
  passed : ∀ j < txn.currentSQLIndex, ∃ sql own, txn.statements[j]? = some sql ∧ sql.resources.head? = some own ∧
    ResourceGranted log t own
  recorded : ∀ r, r ∈ txn.acquiredLocks ↔ ResourceGranted log t r
  pending : txn.remoteRequestPending = true → txn.status = .blocked ∧
    txn.currentResource = some txn.waitingForResourceId ∧ getOwnerNodeId txn.waitingForResourceId ≠ tm.nodeId

structure LogInv (log : List Action) (tm : TransactionManager) : Prop where
  numbered : Numbered tm
  past : ∀ a ∈ log, a.transId < tm.nextTransactionId
  index : ∀ t txn, tm.activeTransactions.lookup t = some txn → IndexInv log tm t txn

theorem logInv_init (n : NodeId) : LogInv [] (init n) :=
  ⟨numbered_init n, fun _ ha => absurd ha List.not_mem_nil, by simp [init]⟩

/-- the log says about the other transactions what it said before -/
theorem IndexInv.of_move {txn : Transaction} (hinv : IndexInv log tm t txn) (h : Move tm a tm')
    (ha : a.transId ≠ t) : IndexInv (log ++ [a]) tm' t txn := by
  refine ⟨hinv.bound, ?_, ?_, ?_⟩
  · intro j hj
    obtain ⟨sql, own, hsql, hown, hgranted⟩ := hinv.passed j hj
    exact ⟨sql, own, hsql, hown, (resourceGranted_append_of_ne ha).2 hgranted⟩
  · intro r
    rw [resourceGranted_append_of_ne ha]; exact hinv.recorded r
  · rw [h.nodeId]; exact hinv.pending

/-- the transaction records one more resource and passes the statement it is at, whose resource has been granted -/
theorem IndexInv.advance {txn txn' : Transaction} {sql : SQLStatement} {own r : ResourceId} {m : LockMode}
    (hinv : IndexInv log tm t txn) (hstatements : txn'.statements = txn.statements)
    (hindex : txn'.currentSQLIndex = txn.currentSQLIndex + 1)
    (hlocks : txn'.acquiredLocks = txn.acquiredLocks.insert r m) (hpending : txn'.remoteRequestPending = false)
    (hsql : txn.statements[txn.currentSQLIndex]? = some sql) (hown : sql.resources.head? = some own)
    (hgranted : ∀ r', ResourceGranted (log ++ [a]) t r' ↔ ResourceGranted log t r' ∨ r' = r)
    (hownGranted : ResourceGranted (log ++ [a]) t own) : IndexInv (log ++ [a]) tm' t txn' := by
  have hlt : txn.currentSQLIndex < txn.statements.length := (List.getElem?_eq_some_iff.1 hsql).1
  refine ⟨?_, ?_, ?_, ?_⟩
  · rw [hindex, hstatements]; exact hlt
  · intro j hj
    rw [hindex] at hj
    rw [hstatements]
    rcases Nat.lt_succ_iff_lt_or_eq.1 hj with hj | rfl
    · obtain ⟨sql', own', hsql', hown', hg⟩ := hinv.passed j hj
      exact ⟨sql', own', hsql', hown', (hgranted own').2 (Or.inl hg)⟩
    · exact ⟨sql, own, hsql, hown, hownGranted⟩
  · intro r'
    rw [hlocks, AList.mem_insert, hgranted, hinv.recorded, or_comm]
  · intro h
    rw [hpending] at h; cases h

/-- the transaction changes neither its index nor its locks -/
theorem IndexInv.stay {txn txn' : Transaction} (hinv : IndexInv log tm t txn)
    (hstatements : txn'.statements = txn.statements) (hindex : txn'.currentSQLIndex = txn.currentSQLIndex)
    (hlocks : txn'.acquiredLocks = txn.acquiredLocks)
    (hgranted : ∀ r', ResourceGranted (log ++ [a]) t r' ↔ ResourceGranted log t r')
    (hpending : txn'.remoteRequestPending = true → txn'.status = .blocked ∧
      txn'.currentResource = some txn'.waitingForResourceId ∧
      getOwnerNodeId txn'.waitingForResourceId ≠ tm'.nodeId) : IndexInv (log ++ [a]) tm' t txn' := by
  refine ⟨?_, ?_, ?_, hpending⟩
  · rw [hindex, hstatements]; exact hinv.bound
  · intro j hj
    rw [hindex] at hj
    obtain ⟨sql, own, hsql, hown, hg⟩ := hinv.passed j hj
    exact ⟨sql, own, by rw [hstatements]; exact hsql, hown, (hgranted own).2 hg⟩
  · intro r'
    rw [hlocks, hgranted]; exact hinv.recorded r'

/-- a transaction about to execute a statement has no request pending -/
theorem IndexInv.not_pending {txn : Transaction} {sql : SQLStatement} (hinv : IndexInv log tm t txn)
    (here : AtStatement tm t txn sql r) : txn.remoteRequestPending = false := by
  rw [← Bool.not_eq_true]
  exact fun h => here.running (hinv.pending h).1

theorem move_logInv (hinv : LogInv log tm) (hok : AnswersCurrent tm a) (h : Move tm a tm') :
    LogInv (log ++ [a]) tm' := by
  refine ⟨h.numbered hinv.numbered, ?_, ?_⟩
  · intro b hb
    rcases List.mem_append.1 hb with hb | hb
    · exact lt_of_lt_of_le (hinv.past b hb) h.next_le
    · rw [List.mem_singleton.1 hb]; exact h.transId_lt hinv.numbered
  · intro k txn hk
    by_cases hmover : k = a.transId
    · subst hmover
      cases h with
      | began E statements =>
        obtain rfl := eq_of_lookup_setTransaction hk
        have hnew : ∀ r,
            ¬ ResourceGranted (log ++ [.began tm.nextTransactionId statements]) tm.nextTransactionId r := by
          intro r hgranted
          rw [resourceGranted_append] at hgranted
          rcases hgranted with hgranted | ⟨m, h⟩ | h
          · exact not_resourceGranted_of_new (fun a ha => (hinv.past a ha).ne) hgranted
          · cases h
          · cases h
        refine ⟨Nat.zero_le _, fun j hj => absurd hj (Nat.not_lt_zero j), ?_, by intro h; cases h⟩
        intro r
        exact ⟨fun h => absurd h (AList.notMem_empty r), fun h => absurd h (hnew r)⟩
      | ended H active _ _ _ lookup => simp [lookup, Action.transId] at hk
      | @granted t old sql r here _ _ =>
        obtain rfl := eq_of_lookup_setTransaction hk
        have hold := hinv.index t old here.lookup
        have hgranted : ∀ r', ResourceGranted (log ++ [.granted t r sql.lockMode]) t r' ↔
            ResourceGranted log t r' ∨ r' = r := by
          intro r'
          simp [resourceGranted_append, eq_comm]
        exact hold.advance rfl rfl rfl (hold.not_pending here) here.statement here.resource hgranted
          ((hgranted r).2 (Or.inr rfl))
      | @refused t old sql r here _ _ =>
        obtain rfl := eq_of_lookup_setTransaction hk
        have hold := hinv.index t old here.lookup
        refine hold.stay rfl rfl rfl (fun r' => by simp [resourceGranted_append]) ?_
        intro hpending
        exact absurd ((hold.not_pending here).symm.trans hpending) (by decide)
      | @asked t old sql r here owner =>
        obtain rfl := eq_of_lookup_setTransaction hk
        have hcurrent : (old.waitRemotely r).currentResource = some r :=
          Option.bind_eq_some_iff.2 ⟨sql, here.statement, here.resource⟩
        refine (hinv.index t old here.lookup).stay rfl rfl rfl (fun r' => by simp [resourceGranted_append]) ?_
        exact fun _ => ⟨rfl, hcurrent, owner⟩
      | @answered t old sql r active statement =>
        obtain rfl := eq_of_lookup_setTransaction hk
        have hold := hinv.index t old active
        have hgranted : ∀ r', ResourceGranted (log ++ [.answered t true r]) t r' ↔
            ResourceGranted log t r' ∨ r' = r := by
          intro r'
          simp [resourceGranted_append, eq_comm]
        -- the response names the resource of the statement, or that resource was granted before
        obtain ⟨txn', htxn', own, hown, hwhy⟩ := hok
        rw [active] at htxn'
        cases htxn'
        simp only [Transaction.currentResource, statement, Option.bind_some, Option.mem_def] at hown
        refine hold.advance rfl rfl rfl rfl statement hown hgranted ((hgranted own).2 ?_)
        rcases hwhy with rfl | hmem
        · exact Or.inr rfl
        · exact Or.inl ((hold.recorded own).1 hmem)
      | @denied t old r active =>
        obtain rfl := eq_of_lookup_setTransaction hk
        exact (hinv.index t old active).stay rfl rfl rfl (fun r' => by simp [resourceGranted_append])
          (by intro h; cases h)
    · rw [h.lookup_of_ne hmover] at hk
      exact (hinv.index k txn hk).of_move h (Ne.symm hmover)

/-- **The statement index stays in bounds.** In every run whose granted responses name the resource their transaction is
at, or one that is granted already, the index of an active transaction is in bounds and has passed only statements whose
own resource was granted. A further granted response reads the statements in bounds and passes such a statement exactly
when it meets the condition, and a response to a pending request does. -/
theorem index_bounded (h : ReachesBy (logged step moves)
      (fun st o => Silent o.env ∧ Admits moves AnswersCurrent st.1 o) (init n, []) (tm, log)) :
    (∀ t txn, tm.activeTransactions.lookup t = some txn → txn.currentSQLIndex ≤ txn.statements.length ∧
      ∀ j < txn.currentSQLIndex, ∃ sql own, txn.statements[j]? = some sql ∧ sql.resources.head? = some own ∧
        ResourceGranted log t own) ∧
    (∀ t txn r, tm.activeTransactions.lookup t = some txn →
      ((∃ sql own, txn.statements[txn.currentSQLIndex]? = some sql ∧ sql.resources.head? = some own ∧
        ResourceGranted (log ++ [.answered t true r]) t own) ↔ AnswersCurrent tm (.answered t true r))) ∧
    ∀ t txn, tm.activeTransactions.lookup t = some txn → txn.remoteRequestPending = true →
      AnswersCurrent tm (.answered t true txn.waitingForResourceId) := by
  have hinv : LogInv log tm := logged_invariant (fun _ _ _ => path_of_step)
    (fun _ _ _ _ hs hok hmove => move_logInv hs hok hmove) h (logInv_init n)
  refine ⟨?_, ?_, ?_⟩
  · intro t txn htxn
    exact ⟨(hinv.index t txn htxn).bound, (hinv.index t txn htxn).passed⟩
  · intro t txn r htxn
    have hrecorded := (hinv.index t txn htxn).recorded
    have hgranted : ∀ own, ResourceGranted (log ++ [.answered t true r]) t own ↔
        own = r ∨ own ∈ txn.acquiredLocks := by
      intro own
      rw [hrecorded]
      simp [resourceGranted_append, eq_comm, or_comm]
    refine ⟨?_, ?_⟩
    · intro hpasses
      obtain ⟨sql, own, hsql, hown, hg⟩ := hpasses
      exact ⟨txn, htxn, own, Option.bind_eq_some_iff.2 ⟨sql, hsql, hown⟩, (hgranted own).1 hg⟩
    · intro hanswers
      obtain ⟨txn', htxn', own, hcurrent, hwhy⟩ := hanswers
      rw [htxn] at htxn'
      cases htxn'
      obtain ⟨sql, hsql, hown⟩ := Option.bind_eq_some_iff.1 hcurrent
      exact ⟨sql, own, hsql, hown, (hgranted own).2 hwhy⟩
  · intro t txn htxn hpending
    exact ⟨txn, htxn, _, ((hinv.index t txn htxn).pending hpending).2.1, Or.inl rfl⟩

/-- three reads at node 2, of which the first has been asked for -/
def remoteReads : List Op :=
  [.beginControlledTransaction .quiet [⟨1, 1, [1005], .shared⟩, ⟨1, 1, [1006], .shared⟩, ⟨1, 1, [1007], .shared⟩],
    .tryExecuteNextSQLStatement .quiet 1]

/-- the first read is granted, and the second is asked for -/
def firstGranted : TransactionManager × List Action :=
  (runBy (logged step moves) (fun st o => Admits moves AnswersCurrent st.1 o) (init 1, [])
    (remoteReads ++ [.handleSQLResponse .quiet 1 true 1005])).get rfl

theorem firstGranted_reaches : ReachesBy (logged step moves)
    (fun st o => Silent o.env ∧ Admits moves AnswersCurrent st.1 o) (init 1, []) firstGranted := by
  have hsilent : ∀ o ∈ remoteReads ++ [.handleSQLResponse .quiet 1 true 1005], Silent o.env := by
    simp [remoteReads, Op.env, silent_quiet]
  exact ReachesBy.of_run_of_forall hsilent (Option.some_get _).symm

theorem index_bounded_firstGranted : AnswersCurrent firstGranted.1 (.answered 1 true 1006) :=
  (index_bounded firstGranted_reaches).2.2 1 _ rfl rfl

theorem duplicateResponse_passes : ¬ ∀ n tm log,
    ReachesBy (logged step moves) (fun _ o => Silent o.env) (init n, []) (tm, log) →
    ∀ t txn, tm.activeTransactions.lookup t = some txn → txn.currentSQLIndex ≤ txn.statements.length ∧
      ∀ j < txn.currentSQLIndex, ∃ sql own, txn.statements[j]? = some sql ∧ sql.resources.head? = some own ∧
        ResourceGranted log t own := by
  intro hall
  have hrun : ReachesBy (logged step moves) (fun _ o => Silent o.env) (init 1, []) firstGranted :=
    firstGranted_reaches.mono fun _ _ hok => hok.1
  have hagain : ReachesBy (logged step moves) (fun _ o => Silent o.env) (init 1, [])
      ((logged step moves firstGranted (.handleSQLResponse .quiet 1 true 1005)).get rfl) :=
    hrun.next (a := .handleSQLResponse .quiet 1 true 1005) silent_quiet (Option.some_get _).symm
  obtain ⟨sql, own, hsql, hown, hgranted⟩ := (hall 1 _ _ hagain 1 _ rfl).2 1 (by decide)
  cases hsql
  cases hown
  rcases hgranted with ⟨m, hmem⟩ | hmem
  · cases m <;> exact absurd hmem (by decide)
  · exact absurd hmem (by decide)

/-! ## Commits -/

/-- a response answers the pending request of its transaction -/
def AnswersPending (tm : TransactionManager) : Action → Prop
  | .answered t _ r => ∀ txn ∈ tm.activeTransactions.lookup t,
      txn.remoteRequestPending = true ∧ txn.waitingForResourceId = r
  | _ => True

instance (tm : TransactionManager) : (a : Action) → Decidable (AnswersPending tm a)
  | .answered t _ r => inferInstanceAs (Decidable (∀ txn ∈ tm.activeTransactions.lookup t,
      txn.remoteRequestPending = true ∧ txn.waitingForResourceId = r))
  | .began .. | .ended .. | .granted .. | .refused .. | .asked .. => .isTrue trivial

/-- one of the first k statements names r first, in mode m -/
def PassedLock (statements : List SQLStatement) (k : ℕ) (r : ResourceId) (m : LockMode) : Prop :=
  ∃ j < k, ∃ sql, statements[j]? = some sql ∧ sql.resources.head? = some r ∧ sql.lockMode = m

theorem passedLock_succ {statements : List SQLStatement} {k : ℕ} {sql : SQLStatement} {own : ResourceId}
    (hsql : statements[k]? = some sql) (hown : sql.resources.head? = some own) :
    PassedLock statements (k + 1) r m ↔ PassedLock statements k r m ∨ (r = own ∧ m = sql.lockMode) := by
  refine ⟨?_, ?_⟩
  · intro h
    obtain ⟨j, hj, sql', hsql', hr, hm⟩ := h
    rcases Nat.lt_succ_iff_lt_or_eq.1 hj with hj | rfl
    · exact Or.inl ⟨j, hj, sql', hsql', hr, hm⟩
    · rw [hsql] at hsql'
      cases hsql'
      rw [hown] at hr
      exact Or.inr ⟨(Option.some.inj hr).symm, hm.symm⟩
  · intro h
    rcases h with ⟨j, hj, h⟩ | ⟨rfl, rfl⟩
    · exact ⟨j, Nat.lt_succ_of_lt hj, h⟩
    · exact ⟨k, Nat.lt_succ_self k, sql, hsql, hown, rfl⟩

/-- what the log says about the locks of a transaction -/
structure GrantInv (log : List Action) (t : TransactionId) (txn : Transaction) : Prop where
  granted_iff : ∀ r m, LockGranted log t r m ↔ PassedLock txn.statements txn.currentSQLIndex r m
  asking : txn.remoteRequestPending = true → ∃ sql, txn.statements[txn.currentSQLIndex]? = some sql ∧
    Asking log t txn.waitingForResourceId sql.lockMode
  notEnded : ∀ status, .ended t status ∉ log

structure CommitInv (log : List Action) (tm : TransactionManager) : Prop where
  locks : LocksAgree tm
  history : LogInv log tm
  grants : ∀ t txn, tm.activeTransactions.lookup t = some txn → GrantInv log t txn

theorem commitInv_init (n : NodeId) : CommitInv [] (init n) :=
  ⟨locksAgree_init n, logInv_init n, by simp [init]⟩

/-- a response to the pending request names the resource its transaction is at, and that is one of another node -/
theorem AnswersPending.current (hok : AnswersPending tm a) (hinv : LogInv log tm) (h : Move tm a tm') :
    AnswersCurrent tm a ∧ RemoteAnswer tm a := by
  cases h with
  | @answered t txn sql r active statement =>
    obtain ⟨hpending, rfl⟩ := hok txn active
    obtain ⟨-, hcurrent, howner⟩ := (hinv.index t txn active).pending hpending
    exact ⟨⟨txn, active, _, hcurrent, Or.inl rfl⟩, howner⟩
  | _ => exact ⟨trivial, trivial⟩

theorem GrantInv.of_append {txn : Transaction} (hinv : GrantInv log t txn) (ha : a.transId ≠ t) :
    GrantInv (log ++ [a]) t txn := by
  refine ⟨?_, ?_, ?_⟩
  · intro r m
    rw [lockGranted_append_of_ne ha]; exact hinv.granted_iff r m
  · intro hpending
    obtain ⟨sql, hsql, hasking⟩ := hinv.asking hpending
    exact ⟨sql, hsql, asking_append.2 (by rw [if_neg ha]; exact hasking)⟩
  · intro status hmem
    rcases List.mem_append.1 hmem with hmem | hmem
    · exact hinv.notEnded status hmem
    · exact ha (List.mem_singleton.1 hmem ▸ rfl)

/-- the actions that do not end the transaction -/
theorem GrantInv.notEnded_append {txn : Transaction} (hinv : GrantInv log t txn)
    (ha : ∀ status, a ≠ .ended t status) (status : TransactionStatus) : .ended t status ∉ log ++ [a] := by
  intro hmem
  rcases List.mem_append.1 hmem with hmem | hmem
  · exact hinv.notEnded status hmem
  · exact ha status (List.mem_singleton.1 hmem).symm

/-- the transaction passes the statement it is at, whose lock is the only new grant -/
theorem GrantInv.pass {txn txn' : Transaction} {sql : SQLStatement} {own : ResourceId} (hinv : GrantInv log t txn)
    (hstatements : txn'.statements = txn.statements) (hindex : txn'.currentSQLIndex = txn.currentSQLIndex + 1)
    (hpending : txn'.remoteRequestPending = false) (hsql : txn.statements[txn.currentSQLIndex]? = some sql)
    (hown : sql.resources.head? = some own) (ha : ∀ status, a ≠ .ended t status)
    (hgranted : ∀ r m, LockGranted (log ++ [a]) t r m ↔ LockGranted log t r m ∨ (r = own ∧ m = sql.lockMode)) :
    GrantInv (log ++ [a]) t txn' := by
  refine ⟨?_, ?_, hinv.notEnded_append ha⟩
  · intro r m
    rw [hgranted, hinv.granted_iff, hstatements, hindex, passedLock_succ hsql hown]
  · intro h
    rw [hpending] at h
    cases h

/-- the transaction stays at its statement, and nothing is granted -/
theorem GrantInv.stay {txn txn' : Transaction} (hinv : GrantInv log t txn)
    (hstatements : txn'.statements = txn.statements) (hindex : txn'.currentSQLIndex = txn.currentSQLIndex)
    (ha : ∀ status, a ≠ .ended t status) (hgranted : ∀ r m, LockGranted (log ++ [a]) t r m ↔ LockGranted log t r m)
    (hasking : txn'.remoteRequestPending = true → ∃ sql, txn'.statements[txn'.currentSQLIndex]? = some sql ∧
      Asking (log ++ [a]) t txn'.waitingForResourceId sql.lockMode) : GrantInv (log ++ [a]) t txn' := by
  refine ⟨?_, hasking, hinv.notEnded_append ha⟩
  intro r m
  rw [hgranted, hinv.granted_iff, hstatements, hindex]

theorem move_commitInv (hinv : CommitInv log tm) (hok : AnswersPending tm a) (h : Move tm a tm') :
    CommitInv (log ++ [a]) tm' := by
  obtain ⟨hcurrent, hremote⟩ := hok.current hinv.history h
  refine ⟨move_locksAgree hinv.locks hremote h, move_logInv hinv.history hcurrent h, ?_⟩
  intro k txn hk
  by_cases hmover : k = a.transId
  · subst hmover
    cases h with
    | began E statements =>
      obtain rfl := eq_of_lookup_setTransaction hk
      have hnew : ∀ b ∈ log, b.transId ≠ tm.nextTransactionId := fun b hb => (hinv.history.past b hb).ne
      refine ⟨?_, (by intro h; cases h), ?_⟩
      · intro r m
        refine ⟨?_, ?_⟩
        · intro hgranted
          rw [lockGranted_append] at hgranted
          rcases hgranted with hgranted | h | ⟨h, -⟩
          · exact absurd hgranted.resourceGranted (not_resourceGranted_of_new hnew)
          · cases h
          · cases h
        · intro hpassed
          obtain ⟨j, hj, -⟩ := hpassed
          exact absurd hj (Nat.not_lt_zero j)
      · intro status hmem
        rcases List.mem_append.1 hmem with hmem | hmem
        · exact hnew _ hmem rfl
        · cases List.mem_singleton.1 hmem
    | ended H active _ _ _ lookup => simp [lookup, Action.transId] at hk
    | @granted t old sql r here _ _ =>
      obtain rfl := eq_of_lookup_setTransaction hk
      have hpending := (hinv.history.index t old here.lookup).not_pending here
      refine (hinv.grants t old here.lookup).pass rfl rfl hpending here.statement here.resource (by simp) ?_
      intro r' m'
      rw [lockGranted_append]
      simp [eq_comm]
    | @refused t old sql r here _ _ =>
      obtain rfl := eq_of_lookup_setTransaction hk
      have hpending := (hinv.history.index t old here.lookup).not_pending here
      refine (hinv.grants t old here.lookup).stay rfl rfl (by simp) (fun r' m' => by simp [lockGranted_append]) ?_
      intro h
      exact absurd (hpending.symm.trans h) (by decide)
    | @asked t old sql r here owner =>
      obtain rfl := eq_of_lookup_setTransaction hk
      refine (hinv.grants t old here.lookup).stay rfl rfl (by simp) (fun r' m' => by simp [lockGranted_append]) ?_
      exact fun _ => ⟨sql, here.statement, asking_asked⟩
    | @answered t old sql r active statement =>
      obtain rfl := eq_of_lookup_setTransaction hk
      have hold := hinv.grants t old active
      obtain ⟨hpending, rfl⟩ := hok old active
      obtain ⟨sql', hsql', hasking⟩ := hold.asking hpending
      rw [statement] at hsql'
      cases hsql'
      have hown : sql.resources.head? = some old.waitingForResourceId := by
        have hcurrent := ((hinv.history.index t old active).pending hpending).2.1
        simpa only [Transaction.currentResource, statement, Option.bind_some] using hcurrent
      -- the request that the response answers was the last one
      have hasked : ∀ r' m', Asking log t r' m' ↔ r' = old.waitingForResourceId ∧ m' = sql.lockMode := by
        intro r' m'
        unfold Asking at hasking ⊢
        rw [hasking]
        simp [eq_comm]
      refine hold.pass rfl rfl rfl statement hown (by simp) ?_
      intro r' m'
      rw [lockGranted_append, hasked]
      simp [eq_comm]
    | @denied t old r active =>
      obtain rfl := eq_of_lookup_setTransaction hk
      exact (hinv.grants t old active).stay rfl rfl (by simp) (fun r' m' => by simp [lockGranted_append])
        (by intro h; cases h)
  · rw [h.lookup_of_ne hmover] at hk
    exact (hinv.grants k txn hk).of_append (Ne.symm hmover)

/-- t was granted every resource of every statement in the statement's mode, holds all it was granted, and has given
nothing back -/
structure LockedAll (log : List Action) (tm : TransactionManager) (t : TransactionId) (txn : Transaction) : Prop where
  granted : ∀ sql ∈ txn.statements, ∀ r ∈ sql.resources, LockGranted log t r sql.lockMode
  held : ∀ r m, LockGranted log t r m → r ∈ txn.acquiredLocks ∧
    (getOwnerNodeId r = tm.nodeId → t ∈ tm.resourceManager.getResourceHolders r)
  notEnded : ∀ status, .ended t status ∉ log

/-- every resource of every statement is the first one of a statement with the same lock mode -/
def FirstResourcesCover (statements : List SQLStatement) : Prop :=
  ∀ sql ∈ statements, ∀ r ∈ sql.resources, ∃ first ∈ statements,
    first.resources.head? = some r ∧ first.lockMode = sql.lockMode

instance (statements : List SQLStatement) : Decidable (FirstResourcesCover statements) :=
  inferInstanceAs (Decidable (∀ sql ∈ statements, _))

theorem passedLock_length {statements : List SQLStatement} : PassedLock statements statements.length r m ↔
    ∃ first ∈ statements, first.resources.head? = some r ∧ first.lockMode = m := by
  refine ⟨?_, ?_⟩
  · intro h
    obtain ⟨j, -, sql, hsql, h⟩ := h
    exact ⟨sql, List.mem_of_getElem? hsql, h⟩
  · intro h
    obtain ⟨sql, hmem, h⟩ := h
    obtain ⟨j, hj, hsql⟩ := List.mem_iff_getElem.1 hmem
    exact ⟨j, hj, sql, List.getElem?_eq_some_iff.2 ⟨hj, hsql⟩, h⟩

/-- what was granted is still held -/
theorem CommitInv.held (hinv : CommitInv log tm) {txn : Transaction}
    (htxn : tm.activeTransactions.lookup t = some txn) (hgranted : LockGranted log t r m) :
    r ∈ txn.acquiredLocks ∧ (getOwnerNodeId r = tm.nodeId → t ∈ tm.resourceManager.getResourceHolders r) := by
  have hmem : r ∈ txn.acquiredLocks := ((hinv.history.index t txn htxn).recorded r).2 hgranted.resourceGranted
  refine ⟨hmem, ?_⟩
  intro howner
  obtain ⟨m', hm'⟩ := mem_iff_lookup.1 hmem
  rw [mem_iff_lookup]
  exact ⟨m', (hinv.locks.agree r howner t).trans (recordedLock_eq_some.2 ⟨txn, htxn, hm'⟩)⟩

/-- past its last statement a transaction was granted the first resource of each statement and nothing else -/
theorem CommitInv.lockedAll_iff (hinv : CommitInv log tm) {txn : Transaction}
    (htxn : tm.activeTransactions.lookup t = some txn) (hend : txn.statements.length ≤ txn.currentSQLIndex) :
    LockedAll log tm t txn ↔ FirstResourcesCover txn.statements := by
  have hindex : txn.currentSQLIndex = txn.statements.length := (hinv.history.index t txn htxn).bound.antisymm hend
  have hgrants : ∀ r m, LockGranted log t r m ↔
      ∃ first ∈ txn.statements, first.resources.head? = some r ∧ first.lockMode = m := by
    intro r m
    rw [(hinv.grants t txn htxn).granted_iff, hindex, passedLock_length]
  refine ⟨?_, ?_⟩
  · intro hall sql hsql r hr
    exact (hgrants r sql.lockMode).1 (hall.granted sql hsql r hr)
  · intro hcover
    refine ⟨?_, fun r m => hinv.held htxn, (hinv.grants t txn htxn).notEnded⟩
    intro sql hsql r hr
    exact (hgrants r sql.lockMode).2 (hcover sql hsql r hr)

/-- a transaction that is committed by itself is past its last statement -/
theorem end_of_commit {o : Op} {s : TransactionManager} (h : (s, .ended t .committed) ∈ tm.moves o)
    (hcall : ∀ E, o ≠ .commitTransaction E t) : ∃ txn, s.activeTransactions.lookup t = some txn ∧
      txn.statements.length ≤ txn.currentSQLIndex := by
  rcases mem_moves h with ⟨s', t', h⟩ | ⟨t', r, h⟩ | ⟨-, -, h⟩
  · rcases mem_attempt h with ⟨txn, htxn, hend, h⟩ | ⟨r, m, h | h | h⟩
    · cases h
      exact ⟨txn, htxn, hend⟩
    all_goals cases h
  · cases h
  · rcases h with ⟨statements, h⟩ | ⟨t', r, h⟩ | ⟨t', h⟩ | ⟨E, t', ho, h⟩
    · cases h
    · cases h
    · cases h
    · cases h
      exact absurd ho (hcall E)

/-- **Commit means every lock was taken.** In every run whose responses answer pending requests, at the moment the
manager commits a transaction by itself, the transaction was granted every resource of every statement in the
statement's mode, holds all it was granted and has given nothing back, exactly when every resource of every statement is
the first one of a statement with the same lock mode. -/
theorem commit_granted_iff {o : Op} {s : TransactionManager} {pre suf : List (TransactionManager × Action)}
    (h : ReachesBy (logged step moves) (fun st o => Silent o.env ∧ Admits moves AnswersPending st.1 o) (init n, [])
      (tm, log)) (hE : Silent o.env) (hok : Admits moves AnswersPending tm o) (hst : tm.step o = some tm')
    (hcommit : tm.moves o = pre ++ (s, .ended t .committed) :: suf) (hcall : ∀ E, o ≠ .commitTransaction E t) :
    ∃ txn, s.activeTransactions.lookup t = some txn ∧
      (LockedAll (log ++ pre.map Prod.snd) s t txn ↔ FirstResourcesCover txn.statements) := by
  have hmove : ∀ log s b t, CommitInv log s → AnswersPending s b → Move s b t → CommitInv (log ++ [b]) t :=
    fun _ _ _ _ hs hok hst => move_commitInv hs hok hst
  have hinv : CommitInv log tm := logged_invariant (fun _ _ _ => path_of_step) hmove h (commitInv_init n)
  have hpath := path_of_step hE hst
  rw [hcommit] at hpath
  have hpre : ∀ p ∈ pre, AnswersPending p.1 p.2 := by
    intro p hp
    exact hok p (by rw [hcommit]; exact List.mem_append_left _ hp)
  have hmem : (s, .ended t .committed) ∈ tm.moves o := by
    rw [hcommit]; exact List.mem_append_right _ List.mem_cons_self
  obtain ⟨txn, htxn, hend⟩ := end_of_commit hmem hcall
  exact ⟨txn, htxn, (hpath.invariant_at hmove hpre hinv).lockedAll_iff htxn hend⟩

/-- the state and the log after operations whose responses answer pending requests -/
def answeredRun (ops : List Op) : Option (TransactionManager × List Action) :=
  runBy (logged step moves) (fun st o => Admits moves AnswersPending st.1 o) (init 1, []) ops

theorem answeredRun_reaches {ops : List Op} {tm : TransactionManager} {log : List Action}
    (hsilent : ∀ o ∈ ops, Silent o.env) (h : answeredRun ops = some (tm, log)) : ReachesBy (logged step moves)
      (fun st o => Silent o.env ∧ Admits moves AnswersPending st.1 o) (init 1, []) (tm, log) :=
  ReachesBy.of_run_of_forall hsilent h

/-- one lock of node 1 and one of node 2 -/
def mixedLocks : List Op :=
  [.beginControlledTransaction .quiet [⟨1, 1, [5], .exclusive⟩, ⟨1, 1, [1005], .shared⟩],
    .tryExecuteNextSQLStatement .quiet 1, .tryExecuteNextSQLStatement .quiet 1]

/-- the second one has been asked for -/
def secondAsked : TransactionManager × List Action := (answeredRun mixedLocks).get rfl

/-- the response grants it, and the transaction commits -/
theorem commit_granted_mixedLocks : ∃ s txn, s.activeTransactions.lookup 1 = some txn ∧
    LockedAll (secondAsked.2 ++ [.answered 1 true 1005]) s 1 txn := by
  have hsilent : ∀ o ∈ mixedLocks, Silent o.env := by simp [mixedLocks, Op.env, silent_quiet]
  have hrun : answeredRun mixedLocks = some (secondAsked.1, secondAsked.2) :=
    (Option.some_get (rfl : (answeredRun mixedLocks).isSome = true)).symm
  have hmoves : secondAsked.1.moves (.handleSQLResponse .quiet 1 true 1005) =
      [(secondAsked.1, .answered 1 true 1005)] ++ (_, .ended 1 .committed) :: [] := rfl
  obtain ⟨txn, htxn, hiff⟩ := commit_granted_iff (o := .handleSQLResponse .quiet 1 true 1005)
    (answeredRun_reaches hsilent hrun) silent_quiet (by decide) rfl hmoves (by simp)
  refine ⟨_, txn, htxn, hiff.2 ?_⟩
  cases htxn
  decide

/-- one statement that lists two resources -/
def twoResources : List Op :=
  [.beginControlledTransaction .quiet [⟨1, 1, [5, 6], .exclusive⟩], .tryExecuteNextSQLStatement .quiet 1]

/-- the first one is granted -/
def oneGranted : TransactionManager × List Action := (answeredRun twoResources).get rfl

theorem secondResource_notGranted : ¬ ∀ n tm log o tm' pre s suf t txn,
    ReachesBy (logged step moves) (fun st o => Silent o.env ∧ Admits moves AnswersPending st.1 o) (init n, [])
      (tm, log) → Silent o.env → Admits moves AnswersPending tm o → tm.step o = some tm' →
    tm.moves o = pre ++ (s, .ended t .committed) :: suf → (∀ E, o ≠ .commitTransaction E t) →
    s.activeTransactions.lookup t = some txn → (∀ sql ∈ txn.statements, sql.resources ≠ []) →
    LockedAll (log ++ pre.map Prod.snd) s t txn := by
  intro hall
  have hsilent : ∀ o ∈ twoResources, Silent o.env := by simp [twoResources, Op.env, silent_quiet]
  have hrun : answeredRun twoResources = some (oneGranted.1, oneGranted.2) :=
    (Option.some_get (rfl : (answeredRun twoResources).isSome = true)).symm
  have hlocked := hall 1 oneGranted.1 oneGranted.2 (.tryExecuteNextSQLStatement .quiet 1) _ [] oneGranted.1 [] 1 _
    (answeredRun_reaches hsilent hrun) silent_quiet (by decide) (Option.some_get rfl).symm rfl
    (by simp) rfl (by decide)
  rcases hlocked.granted ⟨1, 1, [5, 6], .exclusive⟩ (by decide) 6 (by decide) with hmem | hpair
  · exact absurd hmem (by decide)
  · exact absurd (hpair.subset (List.mem_cons_of_mem _ List.mem_cons_self)) (by decide)

end TransactionManager

end HawkTxn
