/-
The life of a transaction (`TransactionManager.cpp`).

Ids are handed out from 1 upwards by every operation that begins a transaction. A transaction leaves the table of active
transactions when it commits or aborts, and its latency is recorded then, whichever of the two it was.

Results:
- `lives_once`: every id handed out begins once and ends once at most, and nothing is done for it before or after;
- `latencies_of_reaches`: there is one latency for every end, and every id is accounted for.
-/
import HawkTxn.PollingLoop
import HawkTxn.TwoPhase

namespace HawkTxn

open HawkTxn.Core UnorderedMap

namespace TransactionManager

variable {n : NodeId} {tm tm' : TransactionManager} {a : Action} {log : List Action} {t k : TransactionId}

/-! ## Logs of a life -/

/-- neither a begin nor an end -/
def Action.Inner : Action → Prop
  | .began .. => False
  | .ended .. => False
  | _ => True

def Action.isEnd : Action → Bool
  | .ended .. => true
  | _ => false

/-- t has begun and not ended -/
def Alive (log : List Action) (t : TransactionId) : Prop :=
  ∃ statements mid, actionsOf t log = .began t statements :: mid ∧ ∀ a ∈ mid, a.Inner

/-- t has begun, and ended with its last action -/
def Over (log : List Action) (t : TransactionId) : Prop :=
  ∃ statements mid status, actionsOf t log = .began t statements :: (mid ++ [.ended t status]) ∧ ∀ a ∈ mid, a.Inner

theorem actionsOf_append_of_ne (h : t ≠ a.transId) : actionsOf t (log ++ [a]) = actionsOf t log := by
  rw [actionsOf_append, if_neg h.symm]

theorem alive_append_of_ne (h : t ≠ a.transId) : Alive (log ++ [a]) t ↔ Alive log t := by
  unfold Alive
  rw [actionsOf_append_of_ne h]

theorem over_append_of_ne (h : t ≠ a.transId) : Over (log ++ [a]) t ↔ Over log t := by
  unfold Over
  rw [actionsOf_append_of_ne h]

theorem Alive.inner (h : Alive log a.transId) (ha : a.Inner) : Alive (log ++ [a]) a.transId := by
  obtain ⟨statements, mid, hlog, hmid⟩ := h
  refine ⟨statements, mid ++ [a], ?_, ?_⟩
  · rw [actionsOf_append, if_pos rfl, hlog]
    rfl
  · intro b hb
    rcases List.mem_append.1 hb with hb | hb
    · exact hmid b hb
    · rw [List.mem_singleton.1 hb]
      exact ha

theorem Alive.ended (h : Alive log t) (status : TransactionStatus) : Over (log ++ [.ended t status]) t := by
  obtain ⟨statements, mid, hlog, hmid⟩ := h
  refine ⟨statements, mid, status, ?_, hmid⟩
  rw [actionsOf_append, if_pos (show (Action.ended t status).transId = t from rfl), hlog]
  rfl

/-- a transaction that has done something has an id of its own log -/
theorem Alive.actionsOf_ne_nil (h : Alive log t) : actionsOf t log ≠ [] := by
  obtain ⟨statements, mid, hlog, -⟩ := h
  rw [hlog]
  exact List.cons_ne_nil _ _

/-! ## What an action does to a life -/

theorem Move.mem_of_ne (h : Move tm a tm') (hk : k ≠ a.transId) :
    k ∈ tm'.activeTransactions ↔ k ∈ tm.activeTransactions := by
  rw [mem_iff_lookup, mem_iff_lookup, h.lookup_of_ne hk]

theorem mem_setTransaction_self (tm : TransactionManager) (t : TransactionId) (txn : Transaction) :
    t ∈ (tm.setTransaction t txn).activeTransactions :=
  mem_iff_lookup.2 ⟨txn, by rw [lookup_setTransaction, if_pos rfl]⟩

/-- an action begins a transaction, ends an active one or is one of an active one -/
theorem Move.own (h : Move tm a tm') :
    (∃ statements, a = .began tm.nextTransactionId statements ∧ tm.nextTransactionId ∈ tm'.activeTransactions ∧
      tm'.nextTransactionId = tm.nextTransactionId + 1) ∨
    (∃ t status, a = .ended t status ∧ t ∈ tm.activeTransactions ∧ t ∉ tm'.activeTransactions ∧
      tm'.nextTransactionId = tm.nextTransactionId) ∨
    (a.Inner ∧ a.transId ∈ tm.activeTransactions ∧ a.transId ∈ tm'.activeTransactions ∧
      tm'.nextTransactionId = tm.nextTransactionId) := by
  cases h with
  | began E statements => exact Or.inl ⟨statements, rfl, mem_setTransaction_self _ _ _, rfl⟩
  | @ended t txn status _ _ active _ next _ lookup =>
    refine Or.inr (Or.inl ⟨t, status, rfl, mem_iff_lookup.2 ⟨txn, active⟩, ?_, next⟩)
    rw [← AList.lookup_eq_none, lookup, if_pos rfl]
  | granted here =>
    exact Or.inr (Or.inr ⟨trivial, mem_iff_lookup.2 ⟨_, here.lookup⟩, mem_setTransaction_self _ _ _, rfl⟩)
  | refused here =>
    exact Or.inr (Or.inr ⟨trivial, mem_iff_lookup.2 ⟨_, here.lookup⟩, mem_setTransaction_self _ _ _, rfl⟩)
  | asked here =>
    exact Or.inr (Or.inr ⟨trivial, mem_iff_lookup.2 ⟨_, here.lookup⟩, mem_setTransaction_self _ _ _, rfl⟩)
  | answered active =>
    exact Or.inr (Or.inr ⟨trivial, mem_iff_lookup.2 ⟨_, active⟩, mem_setTransaction_self _ _ _, rfl⟩)
  | denied active =>
    exact Or.inr (Or.inr ⟨trivial, mem_iff_lookup.2 ⟨_, active⟩, mem_setTransaction_self _ _ _, rfl⟩)

/-- what the actions so far say about every id -/
structure LifeInv (log : List Action) (tm : TransactionManager) : Prop where
  numbered : Numbered tm
  first : 1 ≤ tm.nextTransactionId
  alive : ∀ t ∈ tm.activeTransactions, Alive log t
  ended : ∀ t, 1 ≤ t → t < tm.nextTransactionId → t ∉ tm.activeTransactions → Over log t
  unused : ∀ t, t < 1 ∨ tm.nextTransactionId ≤ t → actionsOf t log = []
  count : ((Poller.active tm).card : ℤ) + log.countP Action.isEnd + 1 = tm.nextTransactionId

theorem lifeInv_init (n : NodeId) : LifeInv [] (init n) where
  numbered := numbered_init n
  first := le_rfl
  alive _ ht := absurd ht (AList.notMem_empty _)
  ended _ hle hlt := absurd hlt hle.not_gt
  unused _ _ := rfl
  count := rfl

/-- the number of active transactions, from who is among them -/
theorem active_eq {s : Finset TransactionId} (h : ∀ k, k ∈ tm.activeTransactions ↔ k ∈ s) : Poller.active tm = s := by
  ext k
  rw [Poller.mem_active, h]

theorem countP_append_singleton (log : List Action) (a : Action) :
    (log ++ [a]).countP Action.isEnd = log.countP Action.isEnd + if a.isEnd then 1 else 0 := by
  rw [List.countP_append, List.countP_singleton]

theorem move_lifeInv (hinv : LifeInv log tm) (h : Move tm a tm') : LifeInv (log ++ [a]) tm' := by
  have hnumbered := h.numbered hinv.numbered
  -- the other transactions
  have halive : ∀ k ∈ tm'.activeTransactions, k ≠ a.transId → Alive (log ++ [a]) k := by
    intro k hk hne
    rw [h.mem_of_ne hne] at hk
    exact (alive_append_of_ne hne).2 (hinv.alive k hk)
  have hover : ∀ k, 1 ≤ k → k < tm.nextTransactionId → k ∉ tm'.activeTransactions → k ≠ a.transId →
      Over (log ++ [a]) k := by
    intro k hle hlt hgone hne
    rw [h.mem_of_ne hne] at hgone
    exact (over_append_of_ne hne).2 (hinv.ended k hle hlt hgone)
  have hactive : ∀ t ∈ tm.activeTransactions, 1 ≤ t := by
    intro t ht
    by_contra hlt
    exact (hinv.alive t ht).actionsOf_ne_nil (hinv.unused t (Or.inl (not_le.1 hlt)))
  have hunused : ∀ k, k < 1 ∨ tm'.nextTransactionId ≤ k → k ≠ a.transId → actionsOf k (log ++ [a]) = [] := by
    intro k hk hne
    rw [actionsOf_append_of_ne hne]
    exact hinv.unused k (hk.imp_right h.next_le.trans)
  have hcount := hinv.count
  rcases h.own with ⟨statements, rfl, hself, hnext⟩ | ⟨t, status, rfl, hwas, hgone, hnext⟩ |
    ⟨hinner, hwas, hself, hnext⟩
  · have hnew : actionsOf tm.nextTransactionId log = [] := hinv.unused _ (Or.inr le_rfl)
    refine ⟨hnumbered, by rw [hnext]; linarith [hinv.first], ?_, ?_, ?_, ?_⟩
    · intro k hk
      by_cases hne : k = tm.nextTransactionId
      · subst hne
        refine ⟨statements, [], ?_, by simp⟩
        rw [actionsOf_append, hnew]
        exact if_pos rfl
      · exact halive k hk hne
    · intro k hle hlt hk
      have hne : k ≠ tm.nextTransactionId := fun heq => hk (heq ▸ hself)
      rw [hnext] at hlt
      exact hover k hle (lt_of_le_of_ne (Int.lt_add_one_iff.1 hlt) hne) hk hne
    · intro k hk
      refine hunused k hk fun heq => ?_
      rcases hk with hk | hk
      · exact (heq ▸ hk).not_ge hinv.first
      · rw [hnext, heq] at hk
        exact hk.not_gt (Int.lt_succ _)
    · have hset : Poller.active tm' = insert tm.nextTransactionId (Poller.active tm) := by
        apply active_eq
        intro k
        rw [Finset.mem_insert, Poller.mem_active]
        by_cases hne : k = tm.nextTransactionId
        · simp [hne, hself]
        · simp [hne, h.mem_of_ne (k := k) hne]
      have hfresh : tm.nextTransactionId ∉ Poller.active tm := by
        rw [Poller.mem_active]
        exact fun hmem => lt_irrefl _ (hinv.numbered _ hmem)
      rw [countP_append_singleton, hset, Finset.card_insert_of_notMem hfresh, hnext, ← hcount]
      simp [Action.isEnd]
      ring
  · refine ⟨hnumbered, by rw [hnext]; exact hinv.first, ?_, ?_, ?_, ?_⟩
    · intro k hk
      exact halive k hk fun (heq : k = t) => hgone (heq ▸ hk)
    · intro k hle hlt hk
      by_cases hne : k = t
      · subst hne
        exact (hinv.alive k hwas).ended status
      · exact hover k hle (hnext ▸ hlt) hk hne
    · intro k hk
      refine hunused k hk fun (heq : k = t) => ?_
      rw [heq, hnext] at hk
      exact hk.elim (hactive t hwas).not_gt (hinv.numbered t hwas).not_ge
    · have hset : Poller.active tm' = (Poller.active tm).erase t := by
        apply active_eq
        intro k
        rw [Finset.mem_erase, Poller.mem_active]
        by_cases hne : k = t
        · simp [hne, hgone]
        · simp [hne, h.mem_of_ne (k := k) hne]
      have hcard : ((Poller.active tm).erase t).card + 1 = (Poller.active tm).card :=
        Finset.card_erase_add_one (Poller.mem_active.2 hwas)
      rw [countP_append_singleton, hset, hnext, ← hcount, ← hcard]
      simp [Action.isEnd]
      ring
  · refine ⟨hnumbered, by rw [hnext]; exact hinv.first, ?_, ?_, ?_, ?_⟩
    · intro k hk
      by_cases hne : k = a.transId
      · subst hne
        exact (hinv.alive _ hwas).inner hinner
      · exact halive k hk hne
    · intro k hle hlt hk
      exact hover k hle (hnext ▸ hlt) hk fun heq => hk (heq ▸ hself)
    · intro k hk
      refine hunused k hk fun heq => ?_
      rw [heq, hnext] at hk
      exact hk.elim (hactive _ hwas).not_gt (hinv.numbered _ hwas).not_ge
    · have hset : Poller.active tm' = Poller.active tm := by
        apply active_eq
        intro k
        rw [Poller.mem_active]
        by_cases hne : k = a.transId
        · rw [hne]
          exact iff_of_true hself hwas
        · exact h.mem_of_ne hne
      have hend : a.isEnd = false := by
        cases a <;> first | rfl | exact absurd hinner id
      rw [countP_append_singleton, hset, hnext, hend]
      simpa using hcount

/-! ## Latencies -/

theorem latencies_endTransaction {E : Env} (ht : t ∈ tm.activeTransactions) (status : TransactionStatus) :
    (endTransaction status E tm t).completedTransactionLatencies.length =
      tm.completedTransactionLatencies.length + 1 := by
  obtain ⟨txn, htxn⟩ := mem_iff_lookup.1 ht
  unfold endTransaction
  rw [htxn]
  simp

theorem latencies_attempt {E : Env} {res : TransactionManager × Bool × List NetworkMessage}
    (h : tm.tryExecuteNextSQLStatement E t = some res) : res.1.completedTransactionLatencies.length =
      tm.completedTransactionLatencies.length + (tm.attempt t).countP fun p => p.2.isEnd := by
  rcases attempt_cases h with ⟨hnone, rfl⟩ | ⟨ht, hend, rfl⟩ | ⟨txn, sql, r, -, hlock⟩
  · rw [hnone]
    rfl
  · rw [hend]
    exact latencies_endTransaction ht .committed
  · rcases hlock with ⟨-, -, hone, rfl⟩ | ⟨-, -, hone, rfl⟩ | ⟨-, hone, rfl⟩ <;> rw [hone] <;> rfl

/-- an operation records a latency for every end among its actions -/
theorem latencies_step {o : Op} (h : tm.step o = some tm') : tm'.completedTransactionLatencies.length =
    tm.completedTransactionLatencies.length + (tm.moves o).countP fun p => p.2.isEnd := by
  cases o with
  | beginTransaction E draws => cases h; rfl
  | beginControlledTransaction E statements => cases h; rfl
  | tpccArrival E => cases h; rfl
  | tryExecuteNextSQLStatement E t =>
    obtain ⟨res, hres, rfl⟩ := Option.map_eq_some_iff.1 h
    exact latencies_attempt hres
  | handleSQLResponse E t granted r =>
    obtain ⟨res, hres, rfl⟩ := Option.map_eq_some_iff.1 h
    unfold handleSQLResponse at hres
    simp only [moves]
    cases htxn : tm.activeTransactions.lookup t with
    | none => rw [htxn] at hres; cases hres; rfl
    | some txn =>
      simp only [htxn] at hres
      simp only
      cases granted with
      | false => cases hres; rfl
      | true =>
        obtain ⟨sql, hsql, hres⟩ := Option.bind_eq_some_iff.1 hres
        obtain ⟨res', hres', hres⟩ := Option.bind_eq_some_iff.1 hres
        cases hres
        simp only [hsql, if_true]
        rw [List.countP_cons_of_neg (by simp [Action.isEnd])]
        exact latencies_attempt hres'
  | abortTransaction E t =>
    cases h
    simp only [moves]
    split_ifs with ht
    · exact latencies_endTransaction ht .aborted
    · rw [abortTransaction, endTransaction_of_notMem ht]
      rfl
  | commitTransaction E t =>
    cases h
    simp only [moves]
    split_ifs with ht
    · exact latencies_endTransaction ht .committed
    · rw [commitTransaction, endTransaction_of_notMem ht]
      rfl

/-! ## Runs -/

theorem lifeInv_of_reaches (h : ReachesBy (logged step moves) (fun _ o => Silent o.env) (init n, []) (tm, log)) :
    LifeInv log tm := by
  have hadmitted : ReachesBy (logged step moves) (fun s o => Silent o.env ∧ Admits moves (fun _ _ => True) s.1 o)
      (init n, []) (tm, log) := h.mono fun _ _ hE => ⟨hE, fun _ _ => trivial⟩
  refine logged_invariant (P := LifeInv) (fun _ _ _ => path_of_step) ?_ hadmitted (lifeInv_init n)
  exact fun log s a s' hinv _ hmove => move_lifeInv hinv hmove

/-- a latency for every end -/
theorem latencies_of_reaches
    (h : ReachesBy (logged step moves) (fun _ o => Silent o.env) (init n, []) (tm, log)) :
    tm.completedTransactionLatencies.length = log.countP Action.isEnd := by
  refine h.invariant (P := fun st => st.1.completedTransactionLatencies.length = st.2.countP Action.isEnd) rfl ?_
  intro st o st' hst _ hstep
  obtain ⟨tm', htm', rfl⟩ := Option.map_eq_some_iff.1 hstep
  calc tm'.completedTransactionLatencies.length
      = st.1.completedTransactionLatencies.length + (st.1.moves o).countP fun p => p.2.isEnd := latencies_step htm'
    _ = (st.2 ++ (st.1.moves o).map Prod.snd).countP Action.isEnd := by
        rw [hst, List.countP_append, List.countP_map]
        rfl

/-- **Every transaction lives once.** In every run of a node, one operation after another: an id that has been handed
out has one begin, which is the first of its actions, and one end, which is the last of them, or none as long as it is
active; of other ids there are no actions. As many latencies are recorded as transactions have ended, by commits and
aborts together, and with those active they are all that have begun. -/
theorem lives_once (h : ReachesBy (logged step moves) (fun _ o => Silent o.env) (init n, []) (tm, log)) :
    (∀ t, 1 ≤ t → t < tm.nextTransactionId →
      (t ∈ tm.activeTransactions → Alive log t) ∧ (t ∉ tm.activeTransactions → Over log t)) ∧
    (∀ t, t < 1 ∨ tm.nextTransactionId ≤ t → t ∉ tm.activeTransactions ∧ actionsOf t log = []) ∧
    ((Poller.active tm).card : ℤ) + tm.completedTransactionLatencies.length + 1 = tm.nextTransactionId := by
  have hinv := lifeInv_of_reaches h
  refine ⟨fun t hle hlt => ⟨hinv.alive t, hinv.ended t hle hlt⟩, ?_, ?_⟩
  · intro t ht
    have hnone := hinv.unused t ht
    exact ⟨fun hmem => (hinv.alive t hmem).actionsOf_ne_nil hnone, hnone⟩
  · rw [latencies_of_reaches h]
    exact hinv.count

/-- three transactions, of which the first commits and the second is aborted while it waits -/
def threeLives : List Op :=
  [.beginTransaction .quiet [(5, .exclusive)], .beginTransaction .quiet [(5, .shared)], .tpccArrival .quiet,
    .tryExecuteNextSQLStatement .quiet 1, .tryExecuteNextSQLStatement .quiet 2, .abortTransaction .quiet 2,
    .tryExecuteNextSQLStatement .quiet 1]

def oneLeft : TransactionManager × List Action := (run (logged step moves) (init 1, []) threeLives).get rfl

theorem oneLeft_reaches :
    ReachesBy (logged step moves) (fun _ o => Silent o.env) (init 1, []) (oneLeft.1, oneLeft.2) := by
  have henv : ∀ o ∈ threeLives, Silent o.env := by simp [threeLives, Op.env, silent_quiet]
  have hrun : ReachesBy (logged step moves) (fun _ o => Silent o.env ∧ True) (init 1, []) oneLeft :=
    .of_run_of_forall henv (Option.some_get _).symm
  exact hrun.mono fun _ _ hok => hok.1

theorem lives_once_oneLeft :
    oneLeft.1.completedTransactionLatencies.length = 2 ∧ Over oneLeft.2 2 ∧ Alive oneLeft.2 3 := by
  have hlives := (lives_once oneLeft_reaches).1
  exact ⟨rfl, (hlives 2 (by decide) (by decide)).2 (by decide), (hlives 3 (by decide) (by decide)).1 (by decide)⟩

end TransactionManager

end HawkTxn
