/-
The polling loop of a node (`transactionPollingLoop`).

A round of the loop starts transactions until there are `MAX_CONCURRENT_TRANSACTIONS_PER_NODE` of them, unless the
compiled-in constant `kTRANSACTION_TYPE_TPCC` says that they come from the TPC-C workload, takes a snapshot of the
active transactions and tries the next statement of each. Every call of the transaction manager is a step of its own,
and the other threads of the node call it between any two of them; so the number of transactions that a round starts is
computed from a table that may have changed meanwhile.

Results:
- `active_bounded`: a node never has more than the maximum, whatever the other threads answer, abort and commit;
- `rounds_finish`: within as many rounds as it has statements, and two more, a transaction is gone or blocked;
- `saturated`: once as many are blocked, nothing ever happens at the node again.
-/
import HawkTxn.Polling

namespace HawkTxn

open HawkTxn.Core UnorderedMap

/-- where the polling loop is -/
inductive PollingLoop where
  /-- before the loop's condition -/
  | top
  /-- the transactions still to be started in this round -/
  | starting (left : ℕ)
  /-- the transactions of the snapshot still to be tried -/
  | trying (currentActiveTxns : List TransactionId)

structure Poller where
  transactionManager : TransactionManager
  loop : PollingLoop
  /-- snapshots taken so far -/
  rounds : ℕ

namespace Poller

open TransactionManager (Op)

/-! ## Model -/

def init (n : NodeId) : Poller := ⟨.init n, .top, 0⟩

inductive Act : Type 1 where
  /-- the loop goes on, up to the end of its next call; the draws are for a transaction it begins -/
  | goOn (E : Env) (draws : List (ResourceId × LockMode))
  /-- a call of another thread -/
  | call (o : Op)

/-- a round begins: how many transactions it starts -/
def numToStart (kTRANSACTION_TYPE_TPCC : ℕ) (E : Env) (tm : TransactionManager) : ℕ :=
  if kTRANSACTION_TYPE_TPCC = 0 then maxConcurrentTransactionsPerNode - (tm.getActiveTransactions E.hash).length
  else 0

def step (kTRANSACTION_TYPE_TPCC : ℕ) (p : Poller) : Act → Option Poller
  | .goOn E draws =>
    match p.loop with
    | .top => some { p with loop := .starting (numToStart kTRANSACTION_TYPE_TPCC E p.transactionManager) }
    | .starting (left + 1) => some { p with
        transactionManager := p.transactionManager.beginTransaction E draws
        loop := .starting left }
    | .starting 0 => some { p with
        loop := .trying (p.transactionManager.getActiveTransactions E.hash)
        rounds := p.rounds + 1 }
    | .trying (tid :: rest) => (p.transactionManager.tryExecuteNextSQLStatement E tid).map fun res =>
        { p with transactionManager := res.1, loop := .trying rest }
    | .trying [] => some { p with loop := .top }
  | .call o => (p.transactionManager.step o).map fun tm => { p with transactionManager := tm }

/-! ## What a step does -/

variable {tpcc : ℕ} {n : NodeId} {p p' p'' : Poller} {a : Act} {tm tm' : TransactionManager} {t : TransactionId}

/-- the loop begins a round, begins a transaction, takes the snapshot, tries a transaction or ends the round -/
inductive GoesOn (tpcc : ℕ) (E : Env) (draws : List (ResourceId × LockMode)) : Poller → Poller → Prop where
  | round {tm : TransactionManager} {rounds : ℕ} :
      GoesOn tpcc E draws ⟨tm, .top, rounds⟩ ⟨tm, .starting (numToStart tpcc E tm), rounds⟩
  | begins {tm : TransactionManager} {left rounds : ℕ} :
      GoesOn tpcc E draws ⟨tm, .starting (left + 1), rounds⟩ ⟨tm.beginTransaction E draws, .starting left, rounds⟩
  | snapshot {tm : TransactionManager} {rounds : ℕ} :
      GoesOn tpcc E draws ⟨tm, .starting 0, rounds⟩ ⟨tm, .trying (tm.getActiveTransactions E.hash), rounds + 1⟩
  | tries {tm tm' : TransactionManager} {tid : TransactionId} {rest : List TransactionId} {rounds : ℕ} :
      tm.step (.tryExecuteNextSQLStatement E tid) = some tm' →
      GoesOn tpcc E draws ⟨tm, .trying (tid :: rest), rounds⟩ ⟨tm', .trying rest, rounds⟩
  | ends {tm : TransactionManager} {rounds : ℕ} : GoesOn tpcc E draws ⟨tm, .trying [], rounds⟩ ⟨tm, .top, rounds⟩

theorem goesOn_of_step {E : Env} {draws : List (ResourceId × LockMode)} (h : p.step tpcc (.goOn E draws) = some p') :
    GoesOn tpcc E draws p p' := by
  obtain ⟨tm, loop, rounds⟩ := p
  match loop with
  | .top =>
    cases h
    exact .round
  | .starting (left + 1) =>
    cases h
    exact .begins
  | .starting 0 =>
    cases h
    exact .snapshot
  | .trying (tid :: rest) =>
    obtain ⟨res, hres, rfl⟩ := Option.map_eq_some_iff.1 h
    refine .tries ?_
    rw [TransactionManager.step, hres]
    rfl
  | .trying [] =>
    cases h
    exact .ends

/-! ## The number of transactions -/

/-- the size of the table of active transactions -/
def active (tm : TransactionManager) : Finset TransactionId := tm.activeTransactions.keys.toFinset

theorem mem_active : t ∈ active tm ↔ t ∈ tm.activeTransactions := by
  rw [active, List.mem_toFinset, AList.mem_keys]

theorem length_getActiveTransactions (H : HashOrder) (tm : TransactionManager) :
    (tm.getActiveTransactions H).length = (active tm).card := by
  calc (tm.getActiveTransactions H).length = tm.activeTransactions.keys.length := (H.perm _).length_eq
    _ = (active tm).card := (List.toFinset_card_of_nodup tm.activeTransactions.keys_nodup).symm

/-- an operation that adds a transaction -/
def Begins : Op → Prop
  | .beginTransaction .. | .beginControlledTransaction .. | .tpccArrival _ => True
  | _ => False

theorem not_began_of_attempt {q : TransactionManager × TransactionManager.Action} (h : q ∈ tm.attempt t)
    (k : TransactionId) (statements : List SQLStatement) : q.2 ≠ .began k statements := by
  rcases TransactionManager.mem_attempt h with ⟨txn, -, -, rfl⟩ | ⟨r, m, h | h | h⟩
  · simp
  all_goals simp [h]

theorem not_began {o : Op} (ho : ¬ Begins o) {q : TransactionManager × TransactionManager.Action}
    (h : q ∈ tm.moves o) (k : TransactionId) (statements : List SQLStatement) : q.2 ≠ .began k statements := by
  cases o with
  | beginTransaction E draws => exact absurd trivial ho
  | beginControlledTransaction E statements => exact absurd trivial ho
  | tpccArrival E => exact absurd trivial ho
  | tryExecuteNextSQLStatement E t => exact not_began_of_attempt h k statements
  | handleSQLResponse E t granted r =>
    simp only [TransactionManager.moves] at h
    split at h
    · cases h
    · split_ifs at h
      · split at h
        · cases h
        · rcases List.mem_cons.1 h with rfl | h
          · simp
          · exact not_began_of_attempt h k statements
      · rw [List.mem_singleton.1 h]
        simp
  | abortTransaction E t =>
    simp only [TransactionManager.moves] at h
    split_ifs at h
    · rw [List.mem_singleton.1 h]
      simp
    · cases h
  | commitTransaction E t =>
    simp only [TransactionManager.moves] at h
    split_ifs at h
    · rw [List.mem_singleton.1 h]
      simp
    · cases h

/-- an action that is no begin adds no transaction -/
theorem active_of_move {b : TransactionManager.Action} (h : TransactionManager.Move tm b tm')
    (hb : ∀ k statements, b ≠ .began k statements) : active tm' ⊆ active tm := by
  have hset : ∀ (s : TransactionManager) u txn txn', s.activeTransactions = tm.activeTransactions →
      tm.activeTransactions.lookup u = some txn → active (s.setTransaction u txn') ⊆ active tm := by
    intro s u txn txn' hs hu k hk
    rw [mem_active] at hk ⊢
    rcases (AList.mem_insert _).1 hk with rfl | hk
    · exact mem_iff_lookup.2 ⟨txn, hu⟩
    · rwa [hs] at hk
  cases h with
  | began E statements => exact absurd rfl (hb _ _)
  | ended H _ _ _ _ lookup =>
    intro k hk
    rw [mem_active, mem_iff_lookup] at hk ⊢
    obtain ⟨txn, hk⟩ := hk
    rw [lookup] at hk
    split_ifs at hk
    exact ⟨txn, hk⟩
  | granted here => exact hset _ _ _ _ rfl here.lookup
  | refused here => exact hset _ _ _ _ rfl here.lookup
  | asked here => exact hset _ _ _ _ rfl here.lookup
  | answered found => exact hset _ _ _ _ rfl found
  | denied found => exact hset _ _ _ _ rfl found

/-- an operation that is no begin adds no transaction -/
theorem active_of_step {o : Op} (ho : ¬ Begins o) (hE : TransactionManager.Silent o.env) (hst : tm.step o = some tm') :
    active tm' ⊆ active tm := by
  have hkeeps : ∀ s b s', active s ⊆ active tm → (∀ k statements, b ≠ .began k statements) →
      TransactionManager.Move s b s' → active s' ⊆ active tm :=
    fun s b s' hs hb hmove => (active_of_move hmove hb).trans hs
  exact (TransactionManager.path_of_step hE hst).keeps hkeeps (fun q hq => not_began ho hq) subset_rfl

theorem card_active_begin (E : Env) (tm : TransactionManager) (draws : List (ResourceId × LockMode)) :
    (active (tm.beginTransaction E draws)).card ≤ (active tm).card + 1 := by
  have hinsert : active (tm.beginTransaction E draws) ⊆ insert tm.nextTransactionId (active tm) := by
    intro k hk
    rw [mem_active] at hk
    rw [Finset.mem_insert, mem_active]
    exact (AList.mem_insert _).1 hk
  exact (Finset.card_le_card hinsert).trans (Finset.card_insert_le _ _)

/-- room for the transactions still to be started -/
def Bounded (p : Poller) : Prop :=
  match p.loop with
  | .starting left => (active p.transactionManager).card + left ≤ maxConcurrentTransactionsPerNode
  | _ => (active p.transactionManager).card ≤ maxConcurrentTransactionsPerNode

theorem Bounded.card_le (h : Bounded p) : (active p.transactionManager).card ≤ maxConcurrentTransactionsPerNode := by
  unfold Bounded at h
  split at h
  · exact (Nat.le_add_right _ _).trans h
  · exact h

/-- the calls of the other threads begin no transaction -/
def Steady : Act → Prop
  | .goOn E _ => TransactionManager.Silent E
  | .call o => ¬ Begins o ∧ TransactionManager.Silent o.env

theorem step_bounded (h : Bounded p) (ha : Steady a) (hst : p.step 0 a = some p') : Bounded p' := by
  cases a with
  | goOn E draws =>
    cases goesOn_of_step hst with
    | round =>
      simp only [Bounded, numToStart, if_true, length_getActiveTransactions] at h ⊢
      omega
    | @begins tm left =>
      have hcard := card_active_begin E tm draws
      simp only [Bounded] at h ⊢
      omega
    | snapshot => exact h
    | @tries _ _ tid _ _ hop =>
      have hsub := active_of_step (o := .tryExecuteNextSQLStatement E tid) (by simp [Begins]) ha hop
      exact (Finset.card_le_card hsub).trans h
    | ends => exact h
  | call o =>
    obtain ⟨tm, htm, rfl⟩ := Option.map_eq_some_iff.1 hst
    have hcard := Finset.card_le_card (active_of_step ha.1 ha.2 htm)
    unfold Bounded at h ⊢
    cases hloop : p.loop with
    | starting left =>
      rw [hloop] at h
      exact (Nat.add_le_add_right hcard left).trans h
    | _ =>
      rw [hloop] at h
      exact hcard.trans h

/-- **A bounded number of transactions.** Whatever the other threads of the node answer, abort and commit, and between
whichever calls of the polling loop, the node never has more active transactions than the maximum. -/
theorem active_bounded (h : ReachesBy (step 0) (fun _ a => Steady a) (init n) p) (H : HashOrder) :
    (p.transactionManager.getActiveTransactions H).length ≤ maxConcurrentTransactionsPerNode := by
  have hbounded : Bounded p := h.invariant (Nat.zero_le _) fun _ _ _ hp ha hst => step_bounded hp ha hst
  rw [length_getActiveTransactions]
  exact hbounded.card_le

/-- the loop of node 1 begins its transactions and takes its snapshot -/
def startRound : List Act := List.replicate 10 (.goOn .quiet [(5, .exclusive)])

def roundStarted : Poller := (run (step 0) (init 1) startRound).get rfl

theorem active_bounded_roundStarted : roundStarted.rounds = 1 ∧
    (roundStarted.transactionManager.getActiveTransactions .stored).length = 8 ∧
    (roundStarted.transactionManager.getActiveTransactions .stored).length ≤ maxConcurrentTransactionsPerNode := by
  have hsteady : ∀ a ∈ startRound, Steady a := by
    intro a ha
    rw [List.eq_of_mem_replicate ha]
    exact TransactionManager.silent_quiet
  have hrun : ReachesBy (step 0) (fun _ a => Steady a ∧ True) (init 1) roundStarted :=
    .of_run_of_forall hsteady (Option.some_get _).symm
  exact ⟨rfl, rfl, active_bounded (hrun.mono fun _ _ ha => ha.1) .stored⟩

/-! ## Progress -/

/-- the other threads only poll, and no callback changes a transaction -/
def Polling : Act → Prop
  | .goOn E _ => TransactionManager.Silent E
  | .call o => o.Polls ∧ TransactionManager.Silent o.env

/-- a step is at most one poll -/
theorem step_polls (ha : Polling a) (hst : p.step tpcc a = some p') :
    p'.transactionManager = p.transactionManager ∨
    ∃ o : Op, o.Polls ∧ TransactionManager.Silent o.env ∧
      p.transactionManager.step o = some p'.transactionManager := by
  cases a with
  | goOn E draws =>
    cases goesOn_of_step hst with
    | round => exact Or.inl rfl
    | begins => exact Or.inr ⟨.beginTransaction E draws, trivial, ha, rfl⟩
    | snapshot => exact Or.inl rfl
    | @tries _ _ tid _ _ hop => exact Or.inr ⟨.tryExecuteNextSQLStatement E tid, trivial, ha, hop⟩
    | ends => exact Or.inl rfl
  | call o =>
    obtain ⟨tm, htm, rfl⟩ := Option.map_eq_some_iff.1 hst
    exact Or.inr ⟨o, ha.1, ha.2, htm⟩

theorem pollsTo_of_step (ha : Polling a) (hst : p.step tpcc a = some p') :
    TransactionManager.PollsTo p.transactionManager p'.transactionManager := by
  rcases step_polls ha hst with hsame | ⟨o, hpolls, hE, hop⟩
  · rw [hsame]
    exact .start
  · exact .next .start ⟨hpolls, hE⟩ hop

theorem pollsTo_of_reaches (h : ReachesBy (step tpcc) (fun _ a => Polling a) p p') :
    TransactionManager.PollsTo p.transactionManager p'.transactionManager := by
  induction h with
  | start => exact .start
  | next _ ha hst ih => exact ih.trans (pollsTo_of_step ha hst)

/-- the rounds that t has had its turn in, if it is there -/
def turns (p : Poller) (t : TransactionId) : ℕ :=
  match p.loop with
  | .trying rest => if t ∈ rest then p.rounds - 1 else p.rounds
  | _ => p.rounds

theorem turns_le (p : Poller) (t : TransactionId) : p.turns t ≤ p.rounds ∧ p.rounds ≤ p.turns t + 1 := by
  unfold turns
  split
  · split_ifs <;> omega
  · omega

/-- t is out, or it has passed a statement in each of its turns since p₀, where it was at txn -/
def OnTime (p₀ : Poller) (t : TransactionId) (txn : Transaction) (p : Poller) : Prop :=
  TransactionManager.Out p.transactionManager t ∨
  ∃ txn', p.transactionManager.activeTransactions.lookup t = some txn' ∧ txn'.statements = txn.statements ∧
    txn.currentSQLIndex + p.turns t ≤ txn'.currentSQLIndex + p₀.turns t

/-- a poll that takes no more turns from t than the statements it lets t pass -/
theorem OnTime.of_poll {p₀ : Poller} {txn : Transaction} {o : Op} (h : OnTime p₀ t txn p)
    (hinv : TransactionManager.PollInv p.transactionManager) (hlt : t < p.transactionManager.nextTransactionId)
    (hpolls : o.Polls) (hE : TransactionManager.Silent o.env)
    (hop : p.transactionManager.step o = some p'.transactionManager)
    (hturns : p'.turns t ≤ p.turns t + if o.tries t then 1 else 0) : OnTime p₀ t txn p' := by
  rcases h with hout | ⟨txn', htxn', hstatements, hindex⟩
  · exact Or.inl (hout.of_reaches (.next .start ⟨hpolls, hE⟩ hop) hinv hlt)
  · rcases TransactionManager.step_tries hinv hpolls hE hop htxn' with hout | ⟨txn'', htxn'', hstatements', hindex'⟩
    · exact Or.inl hout
    · refine Or.inr ⟨txn'', htxn'', hstatements'.trans hstatements, ?_⟩
      rw [hindex']
      omega

theorem step_onTime {p₀ : Poller} {txn : Transaction} (h : OnTime p₀ t txn p)
    (hinv : TransactionManager.PollInv p.transactionManager) (hlt : t < p.transactionManager.nextTransactionId)
    (ha : Polling a) (hst : p.step tpcc a = some p') : OnTime p₀ t txn p' := by
  cases a with
  | goOn E draws =>
    cases goesOn_of_step hst with
    | round => exact h
    | begins => exact h.of_poll hinv hlt (o := .beginTransaction E draws) trivial ha rfl (Nat.le_add_right _ _)
    | @snapshot tm rounds =>
      rcases h with hout | ⟨txn', htxn', hstatements, hindex⟩
      · exact Or.inl hout
      · refine Or.inr ⟨txn', htxn', hstatements, ?_⟩
        have hmem : t ∈ tm.getActiveTransactions E.hash :=
          TransactionManager.mem_getActiveTransactions.2 (mem_iff_lookup.2 ⟨txn', htxn'⟩)
        simpa [turns, hmem] using hindex
    | @tries _ _ tid rest rounds hop =>
      refine h.of_poll hinv hlt (o := .tryExecuteNextSQLStatement E tid) trivial ha hop ?_
      by_cases htid : tid = t
      · subst htid
        simp only [turns, List.mem_cons_self, if_true, Op.tries, decide_true]
        split_ifs <;> omega
      · simp [turns, Op.tries, htid, Ne.symm htid]
    | ends => exact h
  | call o =>
    obtain ⟨tm, htm, rfl⟩ := Option.map_eq_some_iff.1 hst
    exact h.of_poll hinv hlt ha.1 ha.2 htm (Nat.le_add_right _ _)

/-- **Transactions are done within a bounded number of rounds.** Whatever the other threads of the node poll meanwhile
and in whatever order snapshots are listed: once the loop has begun two more rounds than a transaction has statements
left, the transaction has left the node or is blocked. -/
theorem rounds_finish (h : ReachesBy (step tpcc) (fun _ a => Polling a) (init n) p)
    (hrun : ReachesBy (step tpcc) (fun _ a => Polling a) p p') {txn : Transaction}
    (htxn : p.transactionManager.getTransaction t = some txn)
    (hrounds : p.rounds + txn.statements.length + 2 ≤ p'.rounds + txn.currentSQLIndex) :
    p'.transactionManager.getTransaction t = none ∨
    ∃ txn', p'.transactionManager.getTransaction t = some txn' ∧ txn'.status = .blocked := by
  have hinv := (pollsTo_of_reaches h).pollInv (TransactionManager.pollInv_init n)
  have hlast : TransactionManager.PollInv p'.transactionManager ∧ t < p'.transactionManager.nextTransactionId ∧
      OnTime p t txn p' := by
    refine hrun.invariant (P := fun q => TransactionManager.PollInv q.transactionManager ∧
      t < q.transactionManager.nextTransactionId ∧ OnTime p t txn q) ?_ ?_
    · exact ⟨hinv, hinv.locks.numbered.lt htxn, Or.inr ⟨txn, htxn, rfl, le_rfl⟩⟩
    · intro q a q' hq ha hst
      have hpolls := pollsTo_of_step ha hst
      exact ⟨hpolls.pollInv hq.1, hpolls.lt_next hq.2.1, step_onTime hq.2.2 hq.1 hq.2.1 ha hst⟩
  obtain ⟨hinv', -, hout | ⟨txn', htxn', hstatements, hindex⟩⟩ := hlast
  · rcases hout with hgone | hblocked
    · exact Or.inl (AList.lookup_eq_none.2 hgone)
    · exact Or.inr hblocked
  · have hbound := (hinv'.walks t txn' htxn').bound
    rw [hstatements] at hbound
    have hstart := (turns_le p t).1
    have hend := (turns_le p' t).2
    omega

/-- a transaction that arrives before the first round -/
def arrived : Poller := (run (step 1) (init 1) [.call (.beginTransaction .quiet [(5, .exclusive)])]).get rfl

/-- two rounds, and the snapshot of the third -/
def threeRounds : List Act := List.replicate 10 (.goOn .quiet [])

def threeBegun : Poller := (run (step 1) arrived threeRounds).get rfl

theorem rounds_finish_threeBegun : threeBegun.rounds = 3 ∧
    (threeBegun.transactionManager.getTransaction 1 = none ∨
      ∃ txn, threeBegun.transactionManager.getTransaction 1 = some txn ∧ txn.status = .blocked) := by
  have harrive : Polling (.call (.beginTransaction .quiet [(5, .exclusive)])) :=
    ⟨trivial, TransactionManager.silent_quiet⟩
  have hpolling : ∀ a ∈ threeRounds, Polling a := by
    intro a ha
    rw [List.eq_of_mem_replicate ha]
    exact TransactionManager.silent_quiet
  have hrun : ReachesBy (step 1) (fun _ a => Polling a ∧ True) arrived threeBegun :=
    .of_run_of_forall hpolling (Option.some_get _).symm
  exact ⟨rfl, rounds_finish (n := 1) (.next .start harrive rfl) (hrun.mono fun _ _ ha => ha.1)
    (Option.some_get rfl).symm (by decide)⟩

/-! ## Standstill -/

/-- the other threads make no call -/
def Alone : Act → Prop
  | .goOn E _ => TransactionManager.Silent E
  | .call _ => False

/-- as many transactions as a node may have are blocked -/
def Saturated (tm : TransactionManager) : Prop :=
  (active tm).card = maxConcurrentTransactionsPerNode ∧
  ∀ t ∈ active tm, ∃ txn, tm.getTransaction t = some txn ∧ txn.status = .blocked

/-- the poll of a transaction that is blocked, or gone -/
theorem try_saturated (h : Saturated tm) (E : Env) (t : TransactionId) :
    ∃ res, tm.tryExecuteNextSQLStatement E t = some res ∧ res.1 = tm := by
  unfold TransactionManager.tryExecuteNextSQLStatement
  cases htxn : tm.activeTransactions.lookup t with
  | none => exact ⟨_, rfl, rfl⟩
  | some txn =>
    obtain ⟨txn', htxn', hblocked⟩ := h.2 t (mem_active.2 (mem_iff_lookup.2 ⟨txn, htxn⟩))
    obtain rfl : txn' = txn := Option.some.inj (htxn'.symm.trans htxn)
    simp only [if_pos hblocked]
    exact ⟨_, rfl, rfl⟩

theorem step_try_saturated (h : Saturated tm) {E : Env}
    (hop : tm.step (.tryExecuteNextSQLStatement E t) = some tm') : tm' = tm := by
  obtain ⟨res, hres, hsame⟩ := try_saturated h E t
  rw [TransactionManager.step, hres] at hop
  exact (Option.some.inj hop).symm.trans hsame

/-- the loop does not stop at a poll -/
theorem goesOn_saturated (h : Saturated p.transactionManager) (E : Env) (draws : List (ResourceId × LockMode)) :
    (p.step 0 (.goOn E draws)).isSome := by
  obtain ⟨tm, loop, rounds⟩ := p
  match loop with
  | .top => rfl
  | .starting (left + 1) => rfl
  | .starting 0 => rfl
  | .trying (tid :: rest) =>
    obtain ⟨res, hres, -⟩ := try_saturated h E tid
    simp only [step]
    rw [hres]
    rfl
  | .trying [] => rfl

theorem step_saturated (h : Bounded p) (hsat : Saturated p.transactionManager) (ha : Alone a)
    (hst : p.step 0 a = some p') : p'.transactionManager = p.transactionManager := by
  cases a with
  | goOn E draws =>
    cases goesOn_of_step hst with
    | begins =>
      have hcard := hsat.1
      simp only [Bounded] at h hcard
      omega
    | tries hop => exact step_try_saturated hsat hop
    | _ => rfl
  | call o => cases ha

/-- **Standstill.** Once the maximum of transactions is blocked, the table, the locks and the queues of the node never
change again, and the loop always has a next step: it begins nothing and tries blocked transactions for ever. -/
theorem saturated (h : ReachesBy (step 0) (fun _ a => Alone a) (init n) p) {l : List TransactionId} (hl : l.Nodup)
    (hmany : maxConcurrentTransactionsPerNode ≤ l.length)
    (hblocked : ∀ t ∈ l, ∃ txn, p.transactionManager.getTransaction t = some txn ∧ txn.status = .blocked)
    (hrun : ReachesBy (step 0) (fun _ a => Alone a) p p') :
    p'.transactionManager = p.transactionManager ∧ ∀ E draws, (p'.step 0 (.goOn E draws)).isSome := by
  have hsteady : ∀ (q : Poller) a, Alone a → Steady a := by
    intro q a ha
    cases a with
    | goOn E draws => exact ha
    | call o => cases ha
  have hbounded : Bounded p :=
    (h.mono hsteady).invariant (Nat.zero_le _) fun _ _ _ hp ha hst => step_bounded hp ha hst
  have hsub : l.toFinset ⊆ active p.transactionManager := by
    intro t ht
    obtain ⟨txn, htxn, -⟩ := hblocked t (List.mem_toFinset.1 ht)
    exact mem_active.2 (mem_iff_lookup.2 ⟨txn, htxn⟩)
  have hcard : l.toFinset.card = l.length := List.toFinset_card_of_nodup hl
  have hall : l.toFinset = active p.transactionManager := by
    apply Finset.eq_of_subset_of_card_le hsub
    rw [hcard]
    exact hbounded.card_le.trans hmany
  have hsat : Saturated p.transactionManager := by
    refine ⟨hbounded.card_le.antisymm ?_, fun t ht => hblocked t (List.mem_toFinset.1 (by rw [hall]; exact ht))⟩
    rw [← hall, hcard]
    exact hmany
  have hlast : Bounded p' ∧ p'.transactionManager = p.transactionManager := by
    refine hrun.invariant (P := fun q => Bounded q ∧ q.transactionManager = p.transactionManager) ⟨hbounded, rfl⟩ ?_
    intro q a q' hq ha hst
    have hsame := step_saturated hq.1 (by rw [hq.2]; exact hsat) ha hst
    exact ⟨step_bounded hq.1 (hsteady q a ha) hst, hsame.trans hq.2⟩
  exact ⟨hlast.2, fun E draws => goesOn_saturated (by rw [hlast.2]; exact hsat) E draws⟩

/-- the loop of node 1 goes on k times, with a resource of node 2 for every transaction it begins -/
def goOns (k : ℕ) : List Act := List.replicate k (.goOn .quiet [(1001, .exclusive)])

theorem alone_goOns (k : ℕ) : ∀ a ∈ goOns k, Alone a := by
  intro a ha
  rw [List.eq_of_mem_replicate ha]
  exact TransactionManager.silent_quiet

/-- all eight have asked for the resource -/
def allAsked : Poller := (run (step 0) (init 1) (goOns 18)).get rfl

def nextRound : Poller := (run (step 0) allAsked (goOns 12)).get rfl

theorem saturated_allAsked :
    nextRound.rounds = 2 ∧ nextRound.transactionManager = allAsked.transactionManager ∧
      ∀ E draws, (nextRound.step 0 (.goOn E draws)).isSome := by
  have hreached : ReachesBy (step 0) (fun _ a => Alone a ∧ True) (init 1) allAsked :=
    .of_run_of_forall (alone_goOns 18) (Option.some_get _).symm
  have hrun : ReachesBy (step 0) (fun _ a => Alone a ∧ True) allAsked nextRound :=
    .of_run_of_forall (alone_goOns 12) (Option.some_get _).symm
  have hblocked : ∀ t ∈ ([1, 2, 3, 4, 5, 6, 7, 8] : List TransactionId), ∃ txn,
      allAsked.transactionManager.getTransaction t = some txn ∧ txn.status = .blocked := by
    decide
  exact ⟨rfl, saturated (hreached.mono fun _ _ ha => ha.1) (by decide) (by decide) hblocked
    (hrun.mono fun _ _ ha => ha.1)⟩

end Poller

end HawkTxn
