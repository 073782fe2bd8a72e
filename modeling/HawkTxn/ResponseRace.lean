/-
A granted response that is handled while its request is still being made (`tryExecuteNextSQLStatement`,
`handleSQLResponse`).

For a remote lock the sender records the request, sends it and only then sets the status BLOCKED. The response is
handled by another thread: it clears the request, advances the index, sets RUNNING and tries the next statement. Once
the request is out, any order of the remaining steps is possible. A `Race` is the transaction manager with the position
of both threads; other transactions may act in between.

Whoever holds a transaction object keeps it: a write after the transaction has left the table changes nothing in the
table. The next statement is tried in one step. The sender's write of BLOCKED in the middle of it is the same as one
right after it, since the status is read once, at its beginning.

Results:
- `sender_alone`, `handler_alone`: the steps of a thread on its own are the function it runs;
- `grant_kept_iff`: the grant is kept exactly in the runs in which BLOCKED is written before RUNNING, or after the
  handler has found the transaction another wait or its end.
-/
import HawkTxn.Actions

namespace HawkTxn

open HawkTxn.Core UnorderedMap

namespace Transaction

/-- the request is recorded before it is sent -/
def recordRequest (txn : Transaction) (resId : ResourceId) : Transaction :=
  { txn with
    remoteRequestPending := true
    waitingForResourceId := resId }

def block (txn : Transaction) : Transaction := { txn with status := .blocked }

/-- a granted response clears the request -/
def noteGrant (txn : Transaction) : Transaction :=
  { txn with
    remoteRequestPending := false
    remoteRequestSuccess := true
    waitingForResourceId := 0 }

/-- the granted lock is recorded with the mode of the statement just passed -/
def passStatement (txn : Transaction) (resId : ResourceId) (sql : SQLStatement) : Transaction :=
  { txn with
    currentSQLIndex := txn.currentSQLIndex + 1
    acquiredLocks := txn.acquiredLocks.insert resId sql.lockMode }

def resume (txn : Transaction) : Transaction := { txn with status := .running }

end Transaction

namespace ResponseRace

open TransactionManager

/-! ## Model -/

/-- what the call of `tryExecuteNextSQLStatement` has done -/
inductive Sender where
  | called
  | recorded
  | sent
  | returned
deriving DecidableEq

/-- what the handling of the granted response has done -/
inductive Handler where
  | waiting
  | noted
  | advanced
  | resumed
  | returned
deriving DecidableEq

structure Race where
  tm : TransactionManager
  sender : Sender
  handler : Handler
  sent : List NetworkMessage
  /-- the actions of the handler's `tryExecuteNextSQLStatement` -/
  next : List Action

inductive Turn : Type 1 where
  | record
  | send (E : Env)
  | block
  | note
  | advance
  | resume
  | proceed (E : Env)
  /-- another transaction acts -/
  | other (a : Action) (tm : TransactionManager)

/-- t is about to ask another node for r, the first resource of the statement sql -/
structure AtRemoteStatement (tm : TransactionManager) (t : TransactionId) (txn : Transaction) (sql : SQLStatement)
    (r : ResourceId) : Prop extends AtStatement tm t txn sql r where
  owner : getOwnerNodeId r ≠ tm.nodeId
  /-- the transaction manager and the lock manager are of one node -/
  wired : tm.resourceManager.nodeId = tm.nodeId

/-- the sender has just found the statement at which t needs the lock of another node -/
def start (tm : TransactionManager) : Race := ⟨tm, .called, .waiting, [], []⟩

/-- write to the object of t, if it still is in the table -/
def write (tm : TransactionManager) (t : TransactionId) (f : Transaction → Transaction) : TransactionManager :=
  match tm.activeTransactions.lookup t with
  | none => tm
  | some txn => tm.setTransaction t (f txn)

/-- the next step of one of the threads; t asks for r in mode m -/
def step (t : TransactionId) (r : ResourceId) (m : LockMode) (s : Race) : Turn → Option Race
  | .record =>
    if s.sender = .called then some { s with tm := write s.tm t (·.recordRequest r), sender := .recorded } else none
  | .send E =>
    if s.sender = .recorded then
      some { s with sent := s.sent ++ [lockRequestMsg E s.tm.nodeId (getOwnerNodeId r) t r m], sender := .sent }
    else none
  | .block => if s.sender = .sent then some { s with tm := write s.tm t (·.block), sender := .returned } else none
  | .note =>
    -- there is no response before the request
    if (s.sender = .sent ∨ s.sender = .returned) ∧ s.handler = .waiting then
      match s.tm.activeTransactions.lookup t with
      | none => some { s with handler := .returned }
      | some txn => some { s with tm := s.tm.setTransaction t txn.noteGrant, handler := .noted }
    else none
  | .advance =>
    if s.handler = .noted then do
      let txn ← s.tm.activeTransactions.lookup t
      let sql ← txn.statements[txn.currentSQLIndex]?
      some { s with tm := s.tm.setTransaction t (txn.passStatement r sql), handler := .advanced }
    else none
  | .resume =>
    if s.handler = .advanced then some { s with tm := write s.tm t (·.resume), handler := .resumed } else none
  | .proceed E =>
    if s.handler = .resumed then
      (s.tm.tryExecuteNextSQLStatement E t).map fun res =>
        { s with
          tm := res.1, handler := .returned, sent := s.sent ++ res.2.2, next := (s.tm.attempt t).map Prod.snd }
    else none
  | .other _ tm => some { s with tm := tm }

/-- both calls have returned -/
def Race.Finished (s : Race) : Prop := s.sender = .returned ∧ s.handler = .returned

instance (s : Race) : Decidable s.Finished := inferInstanceAs (Decidable (_ ∧ _))

/-- what happens elsewhere in the node is an action of another transaction -/
def Admitted (t : TransactionId) (s : Race) : Turn → Prop
  | .other a tm => Move s.tm a tm ∧ a.transId ≠ t
  | _ => True

/-- the handler asked for the lock of the statement t is at, and the request is pending at the owner or queued here -/
def WaitsForNext (t : TransactionId) (s : Race) (txn : Transaction) : Prop :=
  ∃ r m, txn.currentResource = some r ∧ txn.waitingForResourceId = r ∧
    ((.asked t r m ∈ s.next ∧ getOwnerNodeId r ≠ s.tm.nodeId ∧ txn.remoteRequestPending = true) ∨
      (.refused t r m ∈ s.next ∧ getOwnerNodeId r = s.tm.nodeId ∧
        t ∈ s.tm.resourceManager.getResourceWaitingQueue r))

/-- statement i of t is behind its index, and t is BLOCKED only by a later one -/
def Kept (t : TransactionId) (i : ℕ) (s : Race) : Prop :=
  ∀ txn, s.tm.activeTransactions.lookup t = some txn →
    i < txn.currentSQLIndex ∧ (txn.status = .blocked → WaitsForNext t s txn)

/-- the sender writes BLOCKED before the handler has written RUNNING, or when t has committed or is BLOCKED already -/
def InTime (t : TransactionId) (s : Race) : Turn → Prop
  | .block => s.handler = .waiting ∨ s.handler = .noted ∨ s.handler = .advanced ∨
      ∀ txn ∈ s.tm.activeTransactions.lookup t, txn.status = .blocked
  | _ => True

instance (t : TransactionId) (s : Race) : (turn : Turn) → Decidable (InTime t s turn)
  | .block => inferInstanceAs (Decidable (_ ∨ _ ∨ _ ∨ ∀ txn ∈ s.tm.activeTransactions.lookup t, _))
  | .record | .send .. | .note | .advance | .resume | .proceed .. | .other .. => .isTrue trivial

variable {tm : TransactionManager} {t : TransactionId} {txn : Transaction} {sql : SQLStatement} {r : ResourceId}
  {m : LockMode} {s : Race}

/-! ## A thread on its own -/

theorem write_of_lookup {f : Transaction → Transaction} (h : tm.activeTransactions.lookup t = some txn) :
    write tm t f = tm.setTransaction t (f txn) := by
  unfold write
  rw [h]

theorem lookup_write {f : Transaction → Transaction} :
    (write tm t f).activeTransactions.lookup t = (tm.activeTransactions.lookup t).map f := by
  unfold write
  cases h : tm.activeTransactions.lookup t with
  | none => exact h
  | some txn => rw [Option.map_some]; exact AList.lookup_insert _

@[simp] theorem write_nodeId {f : Transaction → Transaction} : (write tm t f).nodeId = tm.nodeId := by
  unfold write
  cases tm.activeTransactions.lookup t <;> rfl

@[simp] theorem write_resourceManager {f : Transaction → Transaction} :
    (write tm t f).resourceManager = tm.resourceManager := by
  unfold write
  cases tm.activeTransactions.lookup t <;> rfl

theorem lookup_set (tm : TransactionManager) (t : TransactionId) (txn : Transaction) :
    (tm.setTransaction t txn).activeTransactions.lookup t = some txn := AList.lookup_insert _

theorem setTransaction_twice (tm : TransactionManager) (t : TransactionId) (txn txn' : Transaction) :
    (tm.setTransaction t txn).setTransaction t txn' = tm.setTransaction t txn' := by
  unfold setTransaction
  simp only [AList.insert_insert]

/-- the sender's steps without a response in between are the call of `tryExecuteNextSQLStatement` -/
theorem sender_alone (E : Env) (here : AtRemoteStatement tm t txn sql r) :
    ∃ s, run (step t r sql.lockMode) (start tm) [.record, .send E, .block] = some s ∧
      tm.tryExecuteNextSQLStatement E t = some (s.tm, false, s.sent) := by
  have hlt : ¬ txn.statements.length ≤ txn.currentSQLIndex :=
    not_le.2 (List.getElem?_eq_some_iff.1 here.statement).1
  have hcall : tm.tryExecuteNextSQLStatement E t = some (tm.setTransaction t (txn.waitRemotely r), false,
      [lockRequestMsg E tm.nodeId (getOwnerNodeId r) t r sql.lockMode]) := by
    unfold tryExecuteNextSQLStatement
    simp only [here.lookup, here.running, hlt, here.statement, here.resource, here.owner, if_false, Option.bind_eq_bind,
      Option.bind_some]
    rfl
  refine ⟨⟨tm.setTransaction t (txn.waitRemotely r), .returned, .waiting,
    [lockRequestMsg E tm.nodeId (getOwnerNodeId r) t r sql.lockMode], []⟩, ?_, hcall⟩
  have hset := lookup_set tm t (txn.recordRequest r)
  simp [run, runBy, step, start, write_of_lookup here.lookup, write_of_lookup hset, setTransaction_twice]
  rfl

/-- the handler's steps without a step of the sender in between are the call of `handleSQLResponse` -/
theorem handler_alone (E : Env) (hsender : s.sender = .sent ∨ s.sender = .returned) (hwaiting : s.handler = .waiting)
    (active : s.tm.activeTransactions.lookup t = some txn)
    (statement : txn.statements[txn.currentSQLIndex]? = some sql) :
    (run (step t r m) s [.note, .advance, .resume, .proceed E]).map (fun s' => (s'.tm, s'.sent)) =
      (s.tm.handleSQLResponse E t true r).map fun res => (res.1, s.sent ++ res.2) := by
  have hnote := lookup_set s.tm t txn.noteGrant
  have hpass := lookup_set s.tm t (txn.noteGrant.passStatement r sql)
  have hstatement : txn.noteGrant.statements[txn.noteGrant.currentSQLIndex]? = some sql := statement
  have hgrant : ((txn.noteGrant).passStatement r sql).resume = grantLock txn r sql := rfl
  unfold handleSQLResponse
  simp only [active, statement, if_true, Option.bind_eq_bind, Option.bind_some]
  simp only [run, runBy, step, hsender, hwaiting, and_self, if_true, active, Option.bind_some, hnote, hstatement,
    Option.bind_eq_bind, setTransaction_twice, write_of_lookup hpass, hgrant]
  cases (s.tm.setTransaction t (grantLock txn r sql)).tryExecuteNextSQLStatement E t <;> rfl

/-! ## Runs -/

/-- t is at statement i until the handler passes it -/
structure Inv (t : TransactionId) (i : ℕ) (s : Race) : Prop where
  wired : s.tm.resourceManager.nodeId = s.tm.nodeId
  asked : s.handler ≠ .waiting → s.sender = .sent ∨ s.sender = .returned
  fresh : s.handler ≠ .returned → s.next = []
  here : s.handler = .waiting ∨ s.handler = .noted →
    ∃ txn, s.tm.activeTransactions.lookup t = some txn ∧ txn.currentSQLIndex = i
  passed : s.handler = .advanced ∨ s.handler = .resumed →
    ∃ txn, s.tm.activeTransactions.lookup t = some txn ∧ txn.currentSQLIndex = i + 1
  behind : s.handler = .returned → ∀ txn, s.tm.activeTransactions.lookup t = some txn → i < txn.currentSQLIndex

/-- the handler asked for no lock, or was granted it -/
def Requestless (t : TransactionId) (s : Race) : Prop := ∀ r m, .asked t r m ∉ s.next ∧ .refused t r m ∉ s.next

/-- no BLOCKED has been written over a RUNNING -/
structure Timely (t : TransactionId) (s : Race) : Prop where
  resumed : s.handler = .resumed → ∀ txn, s.tm.activeTransactions.lookup t = some txn → txn.status ≠ .blocked
  settled : s.handler = .returned → ∀ txn, s.tm.activeTransactions.lookup t = some txn →
    (txn.status = .blocked ∧ WaitsForNext t s txn) ∨ (txn.status ≠ .blocked ∧ Requestless t s)

/-- a BLOCKED has been written over a RUNNING -/
structure Late (t : TransactionId) (s : Race) : Prop where
  sender : s.sender = .returned
  handler : s.handler = .resumed ∨ s.handler = .returned
  requestless : Requestless t s
  stuck : ∃ txn, s.tm.activeTransactions.lookup t = some txn ∧ txn.status = .blocked

theorem inv_start (here : AtRemoteStatement tm t txn sql r) : Inv t txn.currentSQLIndex (start tm) where
  wired := here.wired
  asked h := absurd rfl h
  fresh _ := rfl
  here _ := ⟨txn, here.lookup, rfl⟩
  passed h := by simp [start] at h
  behind h := by simp [start] at h

theorem timely_start : Timely t (start tm) where
  resumed h := by simp [start] at h
  settled h := by simp [start] at h

/-- what an action of another transaction leaves of t and of the node -/
theorem other_frame {a : Action} {tm' : TransactionManager} (hmove : Move tm a tm') (ha : a.transId ≠ t) :
    tm'.activeTransactions.lookup t = tm.activeTransactions.lookup t ∧ tm'.nodeId = tm.nodeId ∧
    (tm.resourceManager.nodeId = tm.nodeId → tm'.resourceManager.nodeId = tm'.nodeId ∧
      ∀ r, t ∈ tm.resourceManager.getResourceWaitingQueue r → t ∈ tm'.resourceManager.getResourceWaitingQueue r) := by
  refine ⟨hmove.lookup_of_ne (Ne.symm ha), hmove.nodeId, ?_⟩
  intro wired
  refine ⟨by rw [hmove.rmNodeId, hmove.nodeId, wired], ?_⟩
  intro r ht
  rw [hmove.queue wired]
  unfold Action.queueAfter
  split
  · split_ifs
    · exact List.mem_append_left _ ht
    · exact ht
  · exact ht

/-- the wait of t does not depend on the thread positions, nor on what happens elsewhere -/
theorem WaitsForNext.mono {s' : Race} (h : WaitsForNext t s txn) (hnext : s'.next = s.next)
    (hnode : s'.tm.nodeId = s.tm.nodeId) (hqueue : ∀ r, t ∈ s.tm.resourceManager.getResourceWaitingQueue r →
      t ∈ s'.tm.resourceManager.getResourceWaitingQueue r) : WaitsForNext t s' txn := by
  obtain ⟨r, m, hcurrent, hwaiting, hwhy⟩ := h
  refine ⟨r, m, hcurrent, hwaiting, ?_⟩
  rw [hnext, hnode]
  rcases hwhy with ⟨h1, h2, h3⟩ | ⟨h1, h2, h3⟩
  · exact Or.inl ⟨h1, h2, h3⟩
  · exact Or.inr ⟨h1, h2, hqueue r h3⟩

theorem lookup_commitTransaction_self (E : Env) (tm : TransactionManager) (t : TransactionId) :
    (tm.commitTransaction E t).activeTransactions.lookup t = none := by
  unfold commitTransaction endTransaction
  cases h : tm.activeTransactions.lookup t with
  | none => exact h
  | some txn => exact AList.lookup_erase _ _

/-- the handler tries the next statement -/
theorem proceed_spec {E : Env} {i : ℕ} {res : TransactionManager × Bool × List NetworkMessage}
    (h : tm.tryExecuteNextSQLStatement E t = some res) (wired : tm.resourceManager.nodeId = tm.nodeId)
    (active : tm.activeTransactions.lookup t = some txn) (hindex : txn.currentSQLIndex = i + 1)
    (sender : Sender) (sent : List NetworkMessage) :
    res.1.resourceManager.nodeId = res.1.nodeId ∧
    ∀ txn', res.1.activeTransactions.lookup t = some txn' → i < txn'.currentSQLIndex ∧
      (txn.status ≠ .blocked →
        (txn'.status = .blocked ∧
          WaitsForNext t ⟨res.1, sender, .returned, sent, (tm.attempt t).map Prod.snd⟩ txn') ∨
        (txn'.status ≠ .blocked ∧
          Requestless t ⟨res.1, sender, .returned, sent, (tm.attempt t).map Prod.snd⟩)) := by
  have hbehind : i < txn.currentSQLIndex := by rw [hindex]; exact Nat.lt_succ_self i
  rcases attempt_cases h with ⟨hnone, rfl⟩ | ⟨-, -, rfl⟩ | ⟨txn₀, sql, r, here, hlock⟩
  · refine ⟨wired, ?_⟩
    intro txn' htxn'
    rw [active] at htxn'
    cases htxn'
    refine ⟨hbehind, fun hrunning => Or.inr ⟨hrunning, ?_⟩⟩
    intro r m
    rw [hnone]
    exact ⟨List.not_mem_nil, List.not_mem_nil⟩
  · have hends := asksNothing_endTransaction .committed E tm t
    refine ⟨?_, ?_⟩
    · exact hends.rmNodeId.trans (wired.trans hends.nodeId.symm)
    · intro txn' htxn'
      rw [lookup_commitTransaction_self] at htxn'
      cases htxn'
  · obtain rfl : txn₀ = txn := Option.some.inj (here.lookup.symm.trans active)
    have hrunning := here.running
    rcases hlock with ⟨owner, acquired, hone, rfl⟩ | ⟨owner, conflict, hone, rfl⟩ | ⟨owner, hone, rfl⟩
    · refine ⟨(ResourceManager.acquireLock_nodeId _ _ _ _).trans wired, ?_⟩
      intro txn' htxn'
      obtain rfl := eq_of_lookup_setTransaction htxn'
      refine ⟨Nat.lt_succ_of_lt hbehind, fun _ => Or.inr ⟨hrunning, ?_⟩⟩
      intro r' m'
      rw [hone]
      simp
    · refine ⟨(ResourceManager.acquireLock_nodeId _ _ _ _).trans wired, ?_⟩
      intro txn' htxn'
      obtain rfl := eq_of_lookup_setTransaction htxn'
      refine ⟨hbehind, fun _ => Or.inl ⟨rfl, r, sql.lockMode, ?_, rfl, Or.inr ⟨?_, owner, ?_⟩⟩⟩
      · exact Option.bind_eq_some_iff.2 ⟨sql, here.statement, here.resource⟩
      · rw [hone]
        exact List.mem_singleton_self _
      · have howner : getOwnerNodeId r = tm.resourceManager.nodeId := owner.trans wired.symm
        have hcheck := (ResourceManager.acquireLock_refused howner).1 conflict
        rw [setTransaction_resourceManager, ResourceManager.getResourceWaitingQueue_acquireLock,
          if_pos ⟨rfl, howner, hcheck⟩]
        exact List.mem_append_right _ (List.mem_singleton_self t)
    · refine ⟨wired, ?_⟩
      intro txn' htxn'
      obtain rfl := eq_of_lookup_setTransaction htxn'
      refine ⟨hbehind, fun _ => Or.inl ⟨rfl, r, sql.lockMode, ?_, rfl, Or.inl ⟨?_, owner, rfl⟩⟩⟩
      · exact Option.bind_eq_some_iff.2 ⟨sql, here.statement, here.resource⟩
      · rw [hone]
        exact List.mem_singleton_self _

/-- what each turn does; t is in the table as long as the handler has not gone on to the next statement -/
theorem step_cases {i : ℕ} {s' : Race} {turn : Turn} (hinv : Inv t i s) (h : step t r m s turn = some s') :
    match turn with
    | .record => s.handler = .waiting ∧ s' = { s with tm := write s.tm t (·.recordRequest r), sender := .recorded }
    | .send E =>
      s' = { s with sent := s.sent ++ [lockRequestMsg E s.tm.nodeId (getOwnerNodeId r) t r m], sender := .sent }
    | .block => s' = { s with tm := write s.tm t (·.block), sender := .returned }
    | .note => (s.sender = .sent ∨ s.sender = .returned) ∧ s.handler = .waiting ∧
        ∃ txn : Transaction, txn.currentSQLIndex = i ∧
          s' = { s with tm := s.tm.setTransaction t txn.noteGrant, handler := .noted }
    | .advance => s.handler = .noted ∧ ∃ txn : Transaction, ∃ sql, txn.currentSQLIndex = i ∧
          s' = { s with tm := s.tm.setTransaction t (txn.passStatement r sql), handler := .advanced }
    | .resume => s.handler = .advanced ∧ s' = { s with tm := write s.tm t (·.resume), handler := .resumed }
    | .proceed E => s.handler = .resumed ∧ ∃ txn res, s.tm.activeTransactions.lookup t = some txn ∧
        txn.currentSQLIndex = i + 1 ∧ s.tm.tryExecuteNextSQLStatement E t = some res ∧
        s' = { s with
          tm := res.1, handler := .returned, sent := s.sent ++ res.2.2, next := (s.tm.attempt t).map Prod.snd }
    | .other _ tm => s' = { s with tm := tm } := by
  cases turn with
  | record =>
    simp only [step] at h
    split_ifs at h with hs
    cases h
    refine ⟨?_, rfl⟩
    by_contra hw
    rcases hinv.asked hw with hsent | hsent <;> rw [hs] at hsent <;> cases hsent
  | send E =>
    simp only [step] at h
    split_ifs at h
    cases h
    rfl
  | block =>
    simp only [step] at h
    split_ifs at h
    cases h
    rfl
  | note =>
    simp only [step] at h
    split_ifs at h with hs
    obtain ⟨txn, htxn, hindex⟩ := hinv.here (Or.inl hs.2)
    simp only [htxn] at h
    cases h
    exact ⟨hs.1, hs.2, txn, hindex, rfl⟩
  | advance =>
    simp only [step] at h
    split_ifs at h with hs
    obtain ⟨txn, htxn, hindex⟩ := hinv.here (Or.inr hs)
    simp only [htxn, Option.bind_eq_bind, Option.bind_some] at h
    obtain ⟨sql, -, h⟩ := Option.bind_eq_some_iff.1 h
    cases h
    exact ⟨hs, txn, sql, hindex, rfl⟩
  | resume =>
    simp only [step] at h
    split_ifs at h with hs
    cases h
    exact ⟨hs, rfl⟩
  | proceed E =>
    simp only [step] at h
    split_ifs at h with hs
    obtain ⟨txn, htxn, hindex⟩ := hinv.passed (Or.inr hs)
    obtain ⟨res, hres, rfl⟩ := Option.map_eq_some_iff.1 h
    exact ⟨hs, txn, res, htxn, hindex, hres, rfl⟩
  | other a tm =>
    cases h
    rfl

theorem inv_step {i : ℕ} {s' : Race} {turn : Turn} (hinv : Inv t i s) (hok : Admitted t s turn)
    (h : step t r m s turn = some s') : Inv t i s' := by
  have hstep := step_cases hinv h
  cases turn with
  | record =>
    obtain ⟨hwaiting, rfl⟩ := hstep
    obtain ⟨txn, htxn, hindex⟩ := hinv.here (Or.inl hwaiting)
    refine ⟨by simpa using hinv.wired, fun hw => absurd hwaiting hw, hinv.fresh, ?_, ?_, ?_⟩
    · exact fun _ => ⟨txn.recordRequest r, by simp [lookup_write, htxn], hindex⟩
    · intro hp
      simp [hwaiting] at hp
    · intro hr
      simp [hwaiting] at hr
  | send E =>
    obtain rfl : s' = _ := hstep
    exact ⟨hinv.wired, fun _ => Or.inl rfl, hinv.fresh, hinv.here, hinv.passed, hinv.behind⟩
  | block =>
    obtain rfl : s' = _ := hstep
    refine ⟨by simpa using hinv.wired, fun _ => Or.inr rfl, hinv.fresh, ?_, ?_, ?_⟩
    · intro hw
      obtain ⟨txn, htxn, hindex⟩ := hinv.here hw
      exact ⟨txn.block, by simp [lookup_write, htxn], hindex⟩
    · intro hp
      obtain ⟨txn, htxn, hindex⟩ := hinv.passed hp
      exact ⟨txn.block, by simp [lookup_write, htxn], hindex⟩
    · intro hr txn htxn
      simp only [lookup_write] at htxn
      obtain ⟨old, hold, rfl⟩ := Option.map_eq_some_iff.1 htxn
      exact hinv.behind hr old hold
  | note =>
    obtain ⟨hsender, hwaiting, txn, hindex, rfl⟩ := hstep
    refine ⟨hinv.wired, fun _ => hsender, fun _ => hinv.fresh (by simp [hwaiting]), ?_, ?_, ?_⟩
    · exact fun _ => ⟨txn.noteGrant, lookup_set _ _ _, hindex⟩
    · intro hp
      simp at hp
    · intro hr
      simp at hr
  | advance =>
    obtain ⟨hnoted, txn, sql, hindex, rfl⟩ := hstep
    refine ⟨hinv.wired, fun _ => hinv.asked (by simp [hnoted]), fun _ => hinv.fresh (by simp [hnoted]), ?_, ?_, ?_⟩
    · intro hw
      simp at hw
    · exact fun _ => ⟨txn.passStatement r sql, lookup_set _ _ _, congrArg (· + 1) hindex⟩
    · intro hr
      simp at hr
  | resume =>
    obtain ⟨hadvanced, rfl⟩ := hstep
    obtain ⟨txn, htxn, hindex⟩ := hinv.passed (Or.inl hadvanced)
    refine ⟨by simpa using hinv.wired, fun _ => hinv.asked (by simp [hadvanced]),
      fun _ => hinv.fresh (by simp [hadvanced]), ?_, ?_, ?_⟩
    · intro hw
      simp at hw
    · exact fun _ => ⟨txn.resume, by simp [lookup_write, htxn], hindex⟩
    · intro hr
      simp at hr
  | proceed E =>
    obtain ⟨hresumed, txn, res, htxn, hindex, hres, rfl⟩ := hstep
    obtain ⟨hwired, hafter⟩ := proceed_spec hres hinv.wired htxn hindex s.sender s.sent
    refine ⟨hwired, fun _ => hinv.asked (by simp [hresumed]), fun hr => absurd rfl hr, ?_, ?_, ?_⟩
    · intro hw
      simp at hw
    · intro hp
      simp at hp
    · exact fun _ txn' htxn' => (hafter txn' htxn').1
  | other a tm =>
    obtain rfl : s' = _ := hstep
    obtain ⟨hmove, ha⟩ := hok
    obtain ⟨hlookup, -, hwired⟩ := other_frame hmove ha
    refine ⟨(hwired hinv.wired).1, hinv.asked, hinv.fresh, ?_, ?_, ?_⟩
    · simpa only [hlookup] using hinv.here
    · simpa only [hlookup] using hinv.passed
    · simpa only [hlookup] using hinv.behind

/-- a response that has been noted at most is followed by RUNNING; a transaction that waits stays BLOCKED -/
theorem Timely.block (hs : Timely t s) (hintime : InTime t s .block) :
    Timely t { s with tm := write s.tm t (·.block), sender := .returned } := by
  have hblocked : s.handler = .resumed ∨ s.handler = .returned →
      ∀ txn, s.tm.activeTransactions.lookup t = some txn → txn.status = .blocked := by
    intro hafter
    rcases hintime with hw | hw | hw | hw
    · simp [hw] at hafter
    · simp [hw] at hafter
    · simp [hw] at hafter
    · exact hw
  refine ⟨?_, ?_⟩
  · intro hr txn htxn
    simp only [lookup_write] at htxn
    obtain ⟨old, hold, rfl⟩ := Option.map_eq_some_iff.1 htxn
    exact absurd (hblocked (Or.inl hr) old hold) (hs.resumed hr old hold)
  · intro hr txn htxn
    simp only [lookup_write] at htxn
    obtain ⟨old, hold, rfl⟩ := Option.map_eq_some_iff.1 htxn
    rcases hs.settled hr old hold with ⟨-, hwaits⟩ | ⟨hrunning, -⟩
    · have hsame : WaitsForNext t s old.block := hwaits
      exact Or.inl ⟨rfl, hsame.mono rfl write_nodeId (by simp)⟩
    · exact absurd (hblocked (Or.inr hr) old hold) hrunning

theorem timely_step {i : ℕ} {s' : Race} {turn : Turn} (hinv : Inv t i s) (hs : Timely t s)
    (hok : Admitted t s turn) (hintime : InTime t s turn) (h : step t r m s turn = some s') : Timely t s' := by
  have hstep := step_cases hinv h
  cases turn with
  | record =>
    obtain ⟨hwaiting, rfl⟩ := hstep
    exact ⟨fun hr => by simp [hwaiting] at hr, fun hr => by simp [hwaiting] at hr⟩
  | send E =>
    obtain rfl : s' = _ := hstep
    exact ⟨hs.resumed, hs.settled⟩
  | block =>
    obtain rfl : s' = _ := hstep
    exact hs.block hintime
  | note =>
    obtain ⟨-, -, txn, -, rfl⟩ := hstep
    exact ⟨fun hr => by simp at hr, fun hr => by simp at hr⟩
  | advance =>
    obtain ⟨-, txn, sql, -, rfl⟩ := hstep
    exact ⟨fun hr => by simp at hr, fun hr => by simp at hr⟩
  | resume =>
    obtain ⟨-, rfl⟩ := hstep
    refine ⟨?_, fun hr => by simp at hr⟩
    intro _ txn htxn
    simp only [lookup_write] at htxn
    obtain ⟨old, -, rfl⟩ := Option.map_eq_some_iff.1 htxn
    exact TransactionStatus.noConfusion
  | proceed E =>
    obtain ⟨hresumed, txn, res, htxn, hindex, hres, rfl⟩ := hstep
    obtain ⟨-, hafter⟩ := proceed_spec hres hinv.wired htxn hindex s.sender (s.sent ++ res.2.2)
    refine ⟨fun hr => by simp at hr, ?_⟩
    exact fun _ txn' htxn' => (hafter txn' htxn').2 (hs.resumed hresumed txn htxn)
  | other a tm =>
    obtain rfl : s' = _ := hstep
    obtain ⟨hmove, ha⟩ := hok
    obtain ⟨hlookup, hnode, hwired⟩ := other_frame hmove ha
    refine ⟨by simpa only [hlookup] using hs.resumed, ?_⟩
    intro hr txn htxn
    simp only [hlookup] at htxn
    rcases hs.settled hr txn htxn with ⟨hblocked, hwaits⟩ | hrunning
    · exact Or.inl ⟨hblocked, hwaits.mono rfl hnode (hwired hinv.wired).2⟩
    · exact Or.inr hrunning

/-- a BLOCKED that is not in time is late -/
theorem late_of_not_inTime {i : ℕ} {s' : Race} {turn : Turn} (hinv : Inv t i s) (hs : Timely t s)
    (hintime : ¬ InTime t s turn) (h : step t r m s turn = some s') : Late t s' := by
  cases turn with
  | block =>
    simp only [InTime, not_or, not_forall] at hintime
    obtain ⟨hw, hn, ha, txn, htxn, hrunning⟩ := hintime
    have hhandler : s.handler = .resumed ∨ s.handler = .returned := by
      cases hh : s.handler <;> simp_all
    have hrequestless : Requestless t s := by
      rcases hhandler with hr | hr
      · intro r' m'
        rw [hinv.fresh (by simp [hr])]
        exact ⟨List.not_mem_nil, List.not_mem_nil⟩
      · rcases hs.settled hr txn htxn with ⟨hblocked, -⟩ | ⟨-, hnone⟩
        · exact absurd hblocked hrunning
        · exact hnone
    obtain rfl : s' = _ := step_cases hinv h
    refine ⟨rfl, hhandler, hrequestless, txn.block, ?_, rfl⟩
    simp [lookup_write, Option.mem_def.1 htxn]
  | _ => exact absurd trivial hintime

/-- nothing undoes a late BLOCKED: the handler that goes on finds t BLOCKED and returns -/
theorem late_step {s' : Race} {turn : Turn} (hs : Late t s) (hok : Admitted t s turn)
    (h : step t r m s turn = some s') : Late t s' := by
  have hsender := hs.sender
  have hhandler : s.handler ≠ .waiting ∧ s.handler ≠ .noted ∧ s.handler ≠ .advanced := by
    rcases hs.handler with hh | hh <;> simp [hh]
  cases turn with
  | other a tm =>
    obtain ⟨hmove, ha⟩ := hok
    obtain ⟨hlookup, -, -⟩ := other_frame hmove ha
    cases h
    exact ⟨hsender, hs.handler, hs.requestless, by simpa only [hlookup] using hs.stuck⟩
  | proceed E =>
    simp only [step] at h
    split_ifs at h with hguard
    obtain ⟨txn, htxn, hblocked⟩ := hs.stuck
    have hattempt : s.tm.attempt t = [] := by
      unfold attempt
      simp only [htxn, hblocked, if_true]
    have hreturns : s.tm.tryExecuteNextSQLStatement E t = some (s.tm, false, []) := by
      unfold tryExecuteNextSQLStatement
      simp only [htxn, hblocked, if_true]
    rw [hreturns, hattempt] at h
    cases h
    refine ⟨hsender, Or.inr rfl, ?_, txn, htxn, hblocked⟩
    exact fun r' m' => ⟨List.not_mem_nil, List.not_mem_nil⟩
  | record => simp [step, hsender] at h
  | send E => simp [step, hsender] at h
  | block => simp [step, hsender] at h
  | note => simp [step, hhandler] at h
  | advance => simp [step, hhandler] at h
  | resume => simp [step, hhandler] at h

/-- every run is in time, or has come too late -/
theorem timely_or_late (here : AtRemoteStatement tm t txn sql r)
    (h : ReachesBy (step t r sql.lockMode) (Admitted t) (start tm) s) :
    Inv t txn.currentSQLIndex s ∧
    ((ReachesBy (step t r sql.lockMode) (fun s turn => Admitted t s turn ∧ InTime t s turn) (start tm) s ∧
      Timely t s) ∨ Late t s) := by
  induction h with
  | start => exact ⟨inv_start here, Or.inl ⟨.start, timely_start⟩⟩
  | @next s s' turn _ hok hst ih =>
    obtain ⟨hinv, hs⟩ := ih
    refine ⟨inv_step hinv hok hst, ?_⟩
    rcases hs with ⟨hrun, htimely⟩ | hlate
    · by_cases hintime : InTime t s turn
      · exact Or.inl ⟨hrun.next ⟨hok, hintime⟩ hst, timely_step hinv htimely hok hintime hst⟩
      · exact Or.inr (late_of_not_inTime hinv htimely hintime hst)
    · exact Or.inr (late_step hlate hok hst)

theorem timely_of_reaches (here : AtRemoteStatement tm t txn sql r)
    (h : ReachesBy (step t r sql.lockMode) (fun s turn => Admitted t s turn ∧ InTime t s turn) (start tm) s) :
    Inv t txn.currentSQLIndex s ∧ Timely t s := by
  refine h.invariant (P := fun s => Inv t txn.currentSQLIndex s ∧ Timely t s)
    ⟨inv_start here, timely_start⟩ ?_
  intro s turn s' hs hok hst
  exact ⟨inv_step hs.1 hok.1 hst, timely_step hs.1 hs.2 hok.1 hok.2 hst⟩

/-- **No grant is lost to a response in time.** Let t be at a statement whose lock another node owns. When the call that
asks for the lock and the handling of the granted response have both returned, in whatever order their steps were made
and whatever other transactions did in between, the grant is kept exactly if BLOCKED was not written over RUNNING. -/
theorem grant_kept_iff (here : AtRemoteStatement tm t txn sql r)
    (h : ReachesBy (step t r sql.lockMode) (Admitted t) (start tm) s) (hfinished : s.Finished) :
    Kept t txn.currentSQLIndex s ↔
      ReachesBy (step t r sql.lockMode) (fun s turn => Admitted t s turn ∧ InTime t s turn) (start tm) s := by
  refine ⟨?_, ?_⟩
  · intro hkept
    rcases (timely_or_late here h).2 with ⟨hrun, -⟩ | hlate
    · exact hrun
    · obtain ⟨txn', htxn', hblocked⟩ := hlate.stuck
      obtain ⟨r', m', -, -, hwhy⟩ := (hkept txn' htxn').2 hblocked
      rcases hwhy with ⟨hasked, -⟩ | ⟨hrefused, -⟩
      · exact absurd hasked (hlate.requestless r' m').1
      · exact absurd hrefused (hlate.requestless r' m').2
  · intro hrun txn' htxn'
    obtain ⟨hinv, htimely⟩ := timely_of_reaches here hrun
    refine ⟨hinv.behind hfinished.2 txn' htxn', ?_⟩
    intro hblocked
    rcases htimely.settled hfinished.2 txn' htxn' with ⟨-, hwaits⟩ | ⟨hrunning, -⟩
    · exact hwaits
    · exact absurd hblocked hrunning

/-- transaction 1 of node 1 reads 1005, which is node 2's, then 5 and 6, which are its own -/
def threeReads : TransactionManager := (TransactionManager.init 1).beginControlledTransaction .quiet
  [⟨1, 1, [1005], .shared⟩, ⟨1, 1, [5], .shared⟩, ⟨1, 1, [6], .shared⟩]

def readsRemote : Transaction := newTransaction .quiet 1 1
  [⟨1, 1, [1005], .shared⟩, ⟨1, 1, [5], .shared⟩, ⟨1, 1, [6], .shared⟩]

theorem threeReads_atRemoteStatement :
    AtRemoteStatement threeReads 1 readsRemote ⟨1, 1, [1005], .shared⟩ 1005 where
  lookup := rfl
  running := by decide
  statement := rfl
  resource := rfl
  owner := by decide
  wired := rfl

/-- the sender writes BLOCKED before the response is noted -/
def blockedFirst : List Turn := [.record, .send .quiet, .block, .note, .advance, .resume, .proceed .quiet]

/-- the sender writes BLOCKED after the handler has gone on -/
def blockedLast : List Turn := [.record, .send .quiet, .note, .advance, .resume, .proceed .quiet, .block]

def keptRace : Race := (run (step 1 1005 .shared) (start threeReads) blockedFirst).get rfl

def stuckRace : Race := (run (step 1 1005 .shared) (start threeReads) blockedLast).get rfl

theorem reaches_of_run {turns : List Turn} {s₀ : Race} (hown : ∀ turn ∈ turns, ∀ s, Admitted t s turn)
    (h : run (step t r m) s₀ turns = some s) : ReachesBy (step t r m) (Admitted t) s₀ s := by
  have hkind : ∀ turn ∈ turns, (fun turn => ∀ s, Admitted t s turn) turn := hown
  exact (ReachesBy.of_run_of_forall hkind h).mono fun s _ hok => hok.1 s

/-- the order of the steps when the response is slow -/
theorem grant_kept_iff_keptRace : keptRace.next = [.granted 1 5 .shared] ∧
    (Kept 1 readsRemote.currentSQLIndex keptRace ↔
      ReachesBy (step 1 1005 .shared) (fun s turn => Admitted 1 s turn ∧ InTime 1 s turn) (start threeReads)
        keptRace) := by
  refine ⟨rfl, ?_⟩
  have hrun : run (step 1 1005 .shared) (start threeReads) blockedFirst = some keptRace := rfl
  have hreach : ReachesBy (step 1 1005 .shared) (Admitted 1) (start threeReads) keptRace :=
    reaches_of_run (by simp [blockedFirst, Admitted]) hrun
  exact grant_kept_iff threeReads_atRemoteStatement hreach ⟨rfl, rfl⟩

/-- after a fast response transaction 1 has both locks and stays BLOCKED -/
theorem stuckRace_lost : ¬ ∀ tm t txn sql r s, AtRemoteStatement tm t txn sql r →
    ReachesBy (step t r sql.lockMode) (Admitted t) (start tm) s → s.Finished →
    Kept t txn.currentSQLIndex s := by
  intro h
  have hrun : run (step 1 1005 .shared) (start threeReads) blockedLast = some stuckRace := rfl
  have hreach : ReachesBy (step 1 1005 .shared) (Admitted 1) (start threeReads) stuckRace :=
    reaches_of_run (by simp [blockedLast, Admitted]) hrun
  have hkept := h threeReads 1 readsRemote ⟨1, 1, [1005], .shared⟩ 1005 stuckRace threeReads_atRemoteStatement hreach
    ⟨rfl, rfl⟩
  have hnext : stuckRace.next = [.granted 1 5 .shared] := rfl
  obtain ⟨txn, htxn⟩ : ∃ txn, stuckRace.tm.activeTransactions.lookup 1 = some txn := ⟨_, rfl⟩
  have hblocked : txn.status = .blocked := by
    cases htxn
    rfl
  obtain ⟨r, m, -, -, hwhy⟩ := (hkept txn htxn).2 hblocked
  rw [hnext] at hwhy
  rcases hwhy with ⟨hasked, -⟩ | ⟨hrefused, -⟩
  · simp at hasked
  · simp at hrefused

end ResponseRace

end HawkTxn
