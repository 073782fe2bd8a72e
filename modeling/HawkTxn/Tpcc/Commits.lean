/-
Commits of TPC-C transactions (`TransactionManager.cpp`, `transactionPollingLoop`, `tpcc_transaction.h`).

A TPC-C object does its work in `execute()` and has no statements. It enters the same table of active transactions as
the others, and the polling loop takes a transaction without statements left for a finished one. Nothing in the
repository calls `execute()`, so no operation here logs an `executed` event.

Results:
- `poll_commits`: a poll that meets an active TPC-C transaction commits it;
- `commits_executed_iff`: commits follow successful executions exactly in the runs without such polls.
-/
import HawkTxn.Actions

namespace HawkTxn

open HawkTxn.Core UnorderedMap

namespace TransactionManager

/-! ## Model -/

/-- what a log shows of a transaction -/
inductive TxnEvent where
  /-- passed to `addTPCCTransaction` -/
  | added (transId : TransactionId)
  /-- `execute()` returned -/
  | executed (transId : TransactionId) (result : Bool)
  | committed (transId : TransactionId)
  | aborted (transId : TransactionId)
deriving DecidableEq

/-- the event of an action, if it ends a transaction -/
def endEvent : Action → Option TxnEvent
  | .ended t .committed => some (.committed t)
  | .ended t .aborted => some (.aborted t)
  | _ => none

/-- the events of an operation -/
def txnEvents (tm : TransactionManager) : Op → List TxnEvent
  | .tpccArrival _ => [.added tm.nextTransactionId]
  | o => (tm.moves o).filterMap fun p => endEvent p.2

/-- an operation of the manager together with its events -/
def workloadStep (st : TransactionManager × List TxnEvent) (o : Op) : Option (TransactionManager × List TxnEvent) :=
  (st.1.step o).map fun tm => (tm, st.2 ++ st.1.txnEvents o)

/-- what the workload threads, the polling loop and abort signals call -/
def Scheduled : Op → Prop
  | .beginTransaction .. | .beginControlledTransaction .. | .tpccArrival .. => True
  | .tryExecuteNextSQLStatement .. | .abortTransaction .. => True
  | .handleSQLResponse .. | .commitTransaction .. => False

instance : (o : Op) → Decidable (Scheduled o)
  | .beginTransaction .. | .beginControlledTransaction .. | .tpccArrival .. => .isTrue trivial
  | .tryExecuteNextSQLStatement .. | .abortTransaction .. => .isTrue trivial
  | .handleSQLResponse .. | .commitTransaction .. => .isFalse id

/-- TPC-C transactions are committed only after their `execute()` returned true -/
def CommitsExecuted (log : List TxnEvent) : Prop :=
  ∀ pre suf t, log = pre ++ .committed t :: suf → .added t ∈ pre → .executed t true ∈ pre

/-- a poll of a TPC-C transaction that is active -/
def PollsTpcc (st : TransactionManager × List TxnEvent) : Op → Prop
  | .tryExecuteNextSQLStatement _ t => .added t ∈ st.2 ∧ t ∈ st.1.activeTransactions
  | _ => False

instance (st : TransactionManager × List TxnEvent) : (o : Op) → Decidable (PollsTpcc st o)
  | .tryExecuteNextSQLStatement _ t =>
    inferInstanceAs (Decidable (TxnEvent.added t ∈ st.2 ∧ t ∈ st.1.activeTransactions))
  | .beginTransaction .. | .beginControlledTransaction .. | .tpccArrival .. => .isFalse id
  | .abortTransaction .. | .handleSQLResponse .. | .commitTransaction .. => .isFalse id

/-! ## Logs -/

theorem commitsExecuted_nil : CommitsExecuted [] := by
  intro pre suf t h
  simp at h

theorem commitsExecuted_concat {log : List TxnEvent} {e : TxnEvent} : CommitsExecuted (log ++ [e]) ↔
    CommitsExecuted log ∧ ∀ t, e = .committed t → .added t ∈ log → .executed t true ∈ log := by
  refine ⟨?_, ?_⟩
  · intro h
    refine ⟨?_, ?_⟩
    · intro pre suf t hlog
      exact h pre (suf ++ [e]) t (by rw [hlog]; simp)
    · rintro t rfl
      exact h log [] t rfl
  · intro h pre suf t heq
    obtain ⟨hlog, he⟩ := h
    rcases List.eq_nil_or_concat suf with rfl | ⟨suf', e', rfl⟩
    · obtain ⟨rfl, hlast⟩ := List.append_inj' heq rfl
      exact he t (List.singleton_inj.1 hlast)
    · have hcat : log ++ [e] = (pre ++ .committed t :: suf') ++ [e'] := by simpa using heq
      exact hlog pre suf' t (List.append_inj' hcat rfl).1

/-! ## TPC-C transactions stay as they came -/

/-- the transactions of ts have no statements and are not blocked, and their ids have been handed out -/
structure Plain (ts : TransactionId → Prop) (tm : TransactionManager) : Prop where
  handed : ∀ t, ts t → t < tm.nextTransactionId
  idle : ∀ t txn, ts t → tm.activeTransactions.lookup t = some txn → txn.statements = [] ∧ txn.status ≠ .blocked

variable {ts : TransactionId → Prop} {tm tm' : TransactionManager} {a : Action}

/-- no lock is asked for a transaction without statements -/
theorem Plain.not_atStatement (h : Plain ts tm) {t : TransactionId} {txn : Transaction} {sql : SQLStatement}
    {r : ResourceId} (here : AtStatement tm t txn sql r) : ¬ ts t := by
  intro ht
  have hstatement := here.statement
  rw [(h.idle t txn ht here.lookup).1] at hstatement
  simp at hstatement

/-- an action about a transaction that is not one of ts -/
theorem Plain.of_other (h : Plain ts tm) (hmove : Move tm a tm') (hother : ¬ ts a.transId) : Plain ts tm' where
  handed t ht := lt_of_lt_of_le (h.handed t ht) hmove.next_le
  idle t txn ht htxn := by
    have hne : t ≠ a.transId := fun heq => hother (heq ▸ ht)
    rw [hmove.lookup_of_ne hne] at htxn
    exact h.idle t txn ht htxn

/-- the action takes no response -/
def NoAnswer (_ : TransactionManager) (a : Action) : Prop := ∀ t granted r, a ≠ .answered t granted r

theorem Plain.move (h : Plain ts tm) (ha : NoAnswer tm a) (hmove : Move tm a tm') : Plain ts tm' := by
  cases hmove with
  | began E statements =>
    exact h.of_other (.began E statements) fun ht => lt_irrefl _ (h.handed _ ht)
  | @ended t txn status _ H active nodeId next released lookup =>
    refine ⟨fun k hk => next ▸ h.handed k hk, ?_⟩
    intro k txn' hk htxn'
    rw [lookup] at htxn'
    split_ifs at htxn'
    exact h.idle k txn' hk htxn'
  | granted here owner acquired => exact h.of_other (.granted here owner acquired) (h.not_atStatement here)
  | refused here owner conflict => exact h.of_other (.refused here owner conflict) (h.not_atStatement here)
  | asked here owner => exact h.of_other (.asked here owner) (h.not_atStatement here)
  | answered => exact absurd rfl (ha _ _ _)
  | denied => exact absurd rfl (ha _ _ _)

theorem noAnswer_of_scheduled {o : Op} (ho : Scheduled o) {p : TransactionManager × Action} (hp : p ∈ tm.moves o) :
    NoAnswer p.1 p.2 := by
  intro k granted r
  cases o with
  | tryExecuteNextSQLStatement E t =>
    rcases mem_attempt hp with ⟨txn, -, -, rfl⟩ | ⟨r', m, h | h | h⟩
    · simp
    all_goals rw [h]; simp
  | abortTransaction E t =>
    simp only [moves] at hp
    split_ifs at hp
    · rw [List.mem_singleton.1 hp]; simp
    · simp at hp
  | handleSQLResponse => exact absurd ho id
  | commitTransaction => exact absurd ho id
  | _ => rw [List.mem_singleton.1 hp]; simp

theorem Plain.step (h : Plain ts tm) {o : Op} (hE : Silent o.env) (ho : Scheduled o) (hst : tm.step o = some tm') :
    Plain ts tm' :=
  (path_of_step hE hst).keeps (fun _ _ _ hs ha hmove => Plain.move hs ha hmove) (fun _ => noAnswer_of_scheduled ho) h

/-! ## Runs -/

/-- the TPC-C transactions of the log are as they came, and none was executed -/
structure WorkloadInv (st : TransactionManager × List TxnEvent) : Prop where
  plain : Plain (fun t => .added t ∈ st.2) st.1
  unexecuted : ∀ t result, .executed t result ∉ st.2

theorem workloadInv_init (n : NodeId) : WorkloadInv (init n, []) :=
  ⟨⟨fun _ h => absurd h List.not_mem_nil, fun _ _ h => absurd h List.not_mem_nil⟩, fun _ _ => List.not_mem_nil⟩

/-- the events of a scheduled operation that is no arrival end transactions -/
theorem mem_txnEvents {o : Op} {e : TxnEvent} (he : e ∈ tm.txnEvents o) :
    (e = .added tm.nextTransactionId ∧ ∃ E, o = .tpccArrival E) ∨ (∃ t, e = .committed t) ∨ ∃ t, e = .aborted t := by
  have hend : e ∈ (tm.moves o).filterMap (fun p => endEvent p.2) → (∃ t, e = .committed t) ∨ ∃ t, e = .aborted t := by
    intro h
    obtain ⟨⟨s, a⟩, -, ha⟩ := List.mem_filterMap.1 h
    cases a with
    | ended t status =>
      cases status with
      | committed => exact Or.inl ⟨t, (Option.some.inj ha).symm⟩
      | aborted => exact Or.inr ⟨t, (Option.some.inj ha).symm⟩
      | running => cases ha
      | blocked => cases ha
    | _ => cases ha
  cases o with
  | tpccArrival E => exact Or.inl ⟨List.mem_singleton.1 he, E, rfl⟩
  | _ => exact Or.inr (hend he)

theorem workloadStep_inv {st st' : TransactionManager × List TxnEvent} {o : Op} (h : WorkloadInv st)
    (hE : Silent o.env) (ho : Scheduled o) (hst : workloadStep st o = some st') : WorkloadInv st' := by
  obtain ⟨tm', hstep, rfl⟩ := Option.map_eq_some_iff.1 hst
  have hplain := h.plain.step hE ho hstep
  refine ⟨⟨?_, ?_⟩, ?_⟩
  · intro t ht
    rcases List.mem_append.1 ht with ht | ht
    · exact hplain.handed t ht
    · rcases mem_txnEvents ht with ⟨heq, E, rfl⟩ | ⟨k, hk⟩ | ⟨k, hk⟩
      · cases heq; cases hstep
        exact Int.lt_succ _
      · cases hk
      · cases hk
  · intro t txn ht htxn
    rcases List.mem_append.1 ht with ht | ht
    · exact hplain.idle t txn ht htxn
    · rcases mem_txnEvents ht with ⟨heq, E, rfl⟩ | ⟨k, hk⟩ | ⟨k, hk⟩
      · cases heq; cases hstep
        rw [eq_of_lookup_setTransaction htxn]
        exact ⟨rfl, by simp [newTransaction]⟩
      · cases hk
      · cases hk
  · intro t result ht
    rcases List.mem_append.1 ht with ht | ht
    · exact h.unexecuted t result ht
    · rcases mem_txnEvents ht with ⟨heq, -⟩ | ⟨k, hk⟩ | ⟨k, hk⟩
      · cases heq
      · cases hk
      · cases hk

/-- **Polling commits.** A poll that meets an active TPC-C transaction commits it. -/
theorem poll_commits {st : TransactionManager × List TxnEvent} (h : WorkloadInv st) (E : Env) {t : TransactionId}
    (ht : PollsTpcc st (.tryExecuteNextSQLStatement E t)) :
    st.1.txnEvents (.tryExecuteNextSQLStatement E t) = [.committed t] := by
  obtain ⟨txn, htxn⟩ := mem_iff_lookup.1 ht.2
  obtain ⟨hstatements, hstatus⟩ := h.plain.idle t txn ht.1 htxn
  simp [txnEvents, moves, attempt, htxn, hstatements, hstatus, endEvent]

/-- a scheduled operation has at most one event, and a commit is that of the transaction polled -/
theorem txnEvents_scheduled {o : Op} (ho : Scheduled o) (hst : tm.step o = some tm') :
    tm.txnEvents o = [] ∨ ∃ e, tm.txnEvents o = [e] ∧
      ∀ t, e = .committed t → t ∈ tm.activeTransactions ∧ ∃ E, o = .tryExecuteNextSQLStatement E t := by
  cases o with
  | tpccArrival E => exact Or.inr ⟨_, rfl, fun t h => by cases h⟩
  | beginTransaction E draws => exact Or.inl rfl
  | beginControlledTransaction E statements => exact Or.inl rfl
  | tryExecuteNextSQLStatement E t =>
    obtain ⟨res, hres, -⟩ := Option.map_eq_some_iff.1 hst
    simp only [txnEvents, moves]
    rcases attempt_cases hres with ⟨hnone, -⟩ | ⟨ht, hend, -⟩ | ⟨txn, sql, r, -, hlock⟩
    · rw [hnone]; exact Or.inl rfl
    · rw [hend]
      refine Or.inr ⟨_, rfl, ?_⟩
      intro k hk
      cases hk
      exact ⟨ht, E, rfl⟩
    · rcases hlock with ⟨-, -, hone, -⟩ | ⟨-, -, hone, -⟩ | ⟨-, hone, -⟩ <;> rw [hone] <;> exact Or.inl rfl
  | abortTransaction E t =>
    simp only [txnEvents, moves]
    split_ifs
    · exact Or.inr ⟨_, rfl, fun k h => by cases h⟩
    · exact Or.inl rfl
  | handleSQLResponse => exact absurd ho id
  | commitTransaction => exact absurd ho id

/-- one scheduled operation keeps the rule for commits exactly when it polls no active TPC-C transaction -/
theorem workloadStep_commitsExecuted {st st' : TransactionManager × List TxnEvent} {o : Op} (h : WorkloadInv st)
    (hlog : CommitsExecuted st.2) (ho : Scheduled o) (hst : workloadStep st o = some st') :
    CommitsExecuted st'.2 ↔ ¬ PollsTpcc st o := by
  obtain ⟨tm', hstep, rfl⟩ := Option.map_eq_some_iff.1 hst
  refine ⟨?_, ?_⟩
  · intro hlog' hpoll
    cases o with
    | tryExecuteNextSQLStatement E t =>
      rw [poll_commits h E hpoll] at hlog'
      have hexec := (commitsExecuted_concat.1 hlog').2 t rfl hpoll.1
      exact h.unexecuted t true hexec
    | _ => exact hpoll
  · intro hpoll
    rcases txnEvents_scheduled ho hstep with hnone | ⟨e, hone, hcommit⟩
    · rw [hnone, List.append_nil]
      exact hlog
    · rw [hone]
      refine commitsExecuted_concat.2 ⟨hlog, ?_⟩
      intro t he hadded
      obtain ⟨hactive, E, rfl⟩ := hcommit t he
      exact absurd ⟨hadded, hactive⟩ hpoll

/-- **Commits without execution.** In every run of arrivals, polls and abort signals in which no poll meets an active
TPC-C transaction, TPC-C transactions are committed only after a successful `execute()`; the first poll that meets one
breaks this. -/
theorem commits_executed_iff {n : NodeId} {st : TransactionManager × List TxnEvent}
    (h : ReachesBy workloadStep (fun st o => Silent o.env ∧ Scheduled o ∧ ¬ PollsTpcc st o) (init n, []) st) :
    CommitsExecuted st.2 ∧ ∀ o st', Silent o.env → Scheduled o → workloadStep st o = some st' →
      (CommitsExecuted st'.2 ↔ ¬ PollsTpcc st o) := by
  have hinv : WorkloadInv st ∧ CommitsExecuted st.2 := by
    refine h.invariant (P := fun st => WorkloadInv st ∧ CommitsExecuted st.2)
      ⟨workloadInv_init n, commitsExecuted_nil⟩ ?_
    intro s o t hs hok hst
    exact ⟨workloadStep_inv hs.1 hok.1 hok.2.1 hst, (workloadStep_commitsExecuted hs.1 hs.2 hok.2.1 hst).2 hok.2.2⟩
  exact ⟨hinv.2, fun o st' _ ho hst => workloadStep_commitsExecuted hinv.1 hinv.2 ho hst⟩

/-- a TPC-C transaction arrives and is aborted before it is polled; a second one arrives -/
def abortedFirst : TransactionManager × List TxnEvent :=
  (runBy workloadStep (fun st o => Scheduled o ∧ ¬ PollsTpcc st o) (init 1, [])
    [.tpccArrival .quiet, .abortTransaction .quiet 1, .tryExecuteNextSQLStatement .quiet 1,
      .tpccArrival .quiet]).get rfl

theorem commits_executed_iff_abortedFirst :
    abortedFirst.2 = [.added 1, .aborted 1, .added 2] ∧ CommitsExecuted abortedFirst.2 ∧
    ∀ o st', Silent o.env → Scheduled o → workloadStep abortedFirst o = some st' →
      (CommitsExecuted st'.2 ↔ ¬ PollsTpcc abortedFirst o) :=
  have hsilent : ∀ o ∈ [Op.tpccArrival .quiet, .abortTransaction .quiet 1, .tryExecuteNextSQLStatement .quiet 1,
      .tpccArrival .quiet], Silent o.env := by
    intro o ho
    fin_cases ho <;> exact silent_quiet
  ⟨rfl, commits_executed_iff (n := 1) (ReachesBy.of_run_of_forall hsilent (Option.some_get _).symm)⟩

/-- the first poll commits what was never executed -/
theorem not_commitsExecuted_polled :
    (runBy workloadStep (fun _ o => Scheduled o) (init 1, [])
      [.tpccArrival .quiet, .tryExecuteNextSQLStatement .quiet 1]).map
        (fun st => (st.1.completedTransactionLatencies, st.2)) = some ([0], [.added 1, .committed 1]) ∧
    ¬ CommitsExecuted [.added 1, .committed 1] := by
  refine ⟨rfl, fun h => ?_⟩
  have hexec := h [.added 1] [] 1 rfl (by decide)
  revert hexec
  decide

end TransactionManager

end HawkTxn
