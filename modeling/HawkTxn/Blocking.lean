/-
Who blocks whom at one resource, and who overtakes whom (`ResourceManager.cpp`, `checkConflict`).

The conflict check reads the modes of the holders and whether anybody waits. It does not look at who asks: a holder is
refused because of its own lock or because of the queue behind it. A resource without holders is granted before the
queue is looked at, and no operation takes the front of a queue out of it when it gets the lock.

Results:
- `refused_by_other_iff`: a refusal is caused by another transaction except in the three cases of `SelfBlocked`;
- `no_overtaking`: nobody overtakes a waiting transaction as long as no release takes the last holder from a resource
  with waiting transactions, and such a release makes overtaking possible at once.
-/
import HawkTxn.ResourceManager

namespace HawkTxn

open HawkTxn.Core UnorderedMap

namespace ResourceManager

/-! ## Blocking on oneself -/

/-- another transaction holds a conflicting lock, or a newcomer finds another transaction waiting -/
def BlockedByOther (rm : ResourceManager) (transId : TransactionId) (resId : ResourceId) (mode : LockMode) : Prop :=
  (∃ k m', k ≠ transId ∧ (rm.getResourceHolders resId).lookup k = some m' ∧ (mode = .exclusive ∨ m' = .exclusive)) ∨
  (transId ∉ rm.getResourceHolders resId ∧ ∃ k ∈ rm.getResourceWaitingQueue resId, k ≠ transId)

/-- the requests that are refused with no other transaction to blame -/
inductive SelfBlocked (rm : ResourceManager) (transId : TransactionId) (resId : ResourceId) (mode : LockMode) : Prop
  where
  /-- the only holder asks again, and its own lock conflicts with the request -/
  | upgrade {own : LockMode} (holds : (rm.getResourceHolders resId).lookup transId = some own)
      (alone : ∀ k ∈ rm.getResourceHolders resId, k = transId) (conflicts : mode = .exclusive ∨ own = .exclusive)
  /-- a reader asks for SHARED again while somebody waits -/
  | reread (holds : transId ∈ rm.getResourceHolders resId)
      (readers : ∀ k m', (rm.getResourceHolders resId).lookup k = some m' → m' = .shared)
      (reads : mode = .shared) (waiting : rm.getResourceWaitingQueue resId ≠ [])
  /-- a newcomer asks for SHARED beside readers and finds only itself waiting -/
  | requeued (newcomer : transId ∉ rm.getResourceHolders resId) (held : ∃ k, k ∈ rm.getResourceHolders resId)
      (readers : ∀ k m', (rm.getResourceHolders resId).lookup k = some m' → m' = .shared)
      (reads : mode = .shared) (waiting : rm.getResourceWaitingQueue resId ≠ [])
      (onlySelf : ∀ k ∈ rm.getResourceWaitingQueue resId, k = transId)

theorem SelfBlocked.checkConflict {rm : ResourceManager} {t : TransactionId} {r : ResourceId} {m : LockMode}
    (h : SelfBlocked rm t r m) : rm.checkConflict r m = true := by
  rw [checkConflict_eq_true]
  cases h with
  | upgrade holds alone conflicts => exact ⟨⟨t, mem_iff_lookup.2 ⟨_, holds⟩⟩, Or.inr ⟨t, _, holds, conflicts⟩⟩
  | reread holds _ _ waiting => exact ⟨⟨t, holds⟩, Or.inl waiting⟩
  | requeued _ held _ _ waiting _ => exact ⟨held, Or.inl waiting⟩

theorem SelfBlocked.not_blockedByOther {rm : ResourceManager} {t : TransactionId} {r : ResourceId} {m : LockMode}
    (h : SelfBlocked rm t r m) : ¬ BlockedByOther rm t r m := by
  intro hother
  cases h with
  | upgrade holds alone _ =>
    have hholds : t ∈ rm.getResourceHolders r := mem_iff_lookup.2 ⟨_, holds⟩
    rcases hother with ⟨k, m', hk, hm', -⟩ | ⟨hnot, -⟩
    · exact hk (alone k (mem_iff_lookup.2 ⟨m', hm'⟩))
    · exact hnot hholds
  | reread holds readers reads _ =>
    rcases hother with ⟨k, m', -, hm', hconflict⟩ | ⟨hnot, -⟩
    · simp [reads, readers k m' hm'] at hconflict
    · exact hnot holds
  | requeued _ _ readers reads _ onlySelf =>
    rcases hother with ⟨k, m', -, hm', hconflict⟩ | ⟨-, k, hk, hne⟩
    · simp [reads, readers k m' hm'] at hconflict
    · exact hne (onlySelf k hk)

/-- with no other transaction to blame, all holders but the one that asks read, and so does the request -/
theorem readers_of_not_blockedByOther {rm : ResourceManager} {t : TransactionId} {r : ResourceId} {m : LockMode}
    (hother : ¬ BlockedByOther rm t r m) {k : TransactionId} {m' : LockMode} (hk : k ≠ t)
    (hm' : (rm.getResourceHolders r).lookup k = some m') : m = .shared ∧ m' = .shared := by
  by_contra hmodes
  apply hother
  refine Or.inl ⟨k, m', hk, hm', ?_⟩
  cases m <;> cases m' <;> simp_all

/-- a refusal without another transaction to blame is one of the three cases -/
theorem selfBlocked_of_refused {n : NodeId} {rm : ResourceManager} (hinv : Inv n rm) {t : TransactionId}
    {r : ResourceId} {m : LockMode} (hrefused : rm.checkConflict r m = true) (hother : ¬ BlockedByOther rm t r m) :
    SelfBlocked rm t r m := by
  obtain ⟨hheld, hwhy⟩ := checkConflict_eq_true.1 hrefused
  by_cases hholds : t ∈ rm.getResourceHolders r
  · obtain ⟨own, hown⟩ := mem_iff_lookup.1 hholds
    by_cases halone : ∀ k ∈ rm.getResourceHolders r, k = t
    · by_cases hconflict : m = .exclusive ∨ own = .exclusive
      · exact .upgrade hown halone hconflict
      · -- t is the only holder and reads, so the queue is the reason
        have hread : m = .shared ∧ own = .shared := by cases m <;> cases own <;> simp_all
        have hreaders : ∀ k m', (rm.getResourceHolders r).lookup k = some m' → m' = .shared := by
          intro k m' hm'
          rw [halone k (mem_iff_lookup.2 ⟨m', hm'⟩), hown] at hm'
          exact Option.some.inj hm' ▸ hread.2
        rcases hwhy with hq | ⟨k, m', hm', hmode⟩
        · exact .reread hholds hreaders hread.1 hq
        · simp [hread.1, hreaders k m' hm'] at hmode
    · -- beside another holder t cannot hold in EXCLUSIVE mode
      push Not at halone
      obtain ⟨k, hk, hkt⟩ := halone
      have hreaders : ∀ k m', (rm.getResourceHolders r).lookup k = some m' → m' = .shared := by
        rcases hinv.compatible r with hone | hshared
        · exact absurd (hone k t hk hholds) hkt
        · exact hshared
      obtain ⟨mk, hmk⟩ := mem_iff_lookup.1 hk
      have hread : m = .shared := (readers_of_not_blockedByOther hother hkt hmk).1
      rcases hwhy with hq | ⟨k, m', hm', hmode⟩
      · exact .reread hholds hreaders hread hq
      · simp [hread, hreaders k m' hm'] at hmode
  · have hne : ∀ k m', (rm.getResourceHolders r).lookup k = some m' → k ≠ t := by
      intro k m' hm' hkt
      exact hholds (hkt ▸ mem_iff_lookup.2 ⟨m', hm'⟩)
    have hreaders : ∀ k m', (rm.getResourceHolders r).lookup k = some m' → m' = .shared := by
      intro k m' hm'
      exact (readers_of_not_blockedByOther hother (hne k m' hm') hm').2
    obtain ⟨k, hk⟩ := hheld
    obtain ⟨mk, hmk⟩ := mem_iff_lookup.1 hk
    have hread : m = .shared := (readers_of_not_blockedByOther hother (hne k mk hmk) hmk).1
    have honly : ∀ k ∈ rm.getResourceWaitingQueue r, k = t := by
      intro k hk
      by_contra hkt
      exact hother (Or.inr ⟨hholds, k, hk, hkt⟩)
    rcases hwhy with hq | ⟨k, m', hm', hmode⟩
    · exact .requeued hholds ⟨k, hk⟩ hreaders hread hq honly
    · simp [hread, hreaders k m' hm'] at hmode

/-- **Blocking is caused by someone else.** In every reachable state a refused request for an owned resource has
another transaction to blame, exactly when it is not one of the three cases of `SelfBlocked`. -/
theorem refused_by_other_iff {n : NodeId} {rm : ResourceManager} (h : Reaches step (init n) rm) {t : TransactionId}
    {r : ResourceId} {m : LockMode} (howner : getOwnerNodeId r = n) :
    ((rm.acquireLock t r m).1 = false → BlockedByOther rm t r m) ↔ ¬ SelfBlocked rm t r m := by
  have hinv : Inv n rm := h.invariant (inv_init n) fun _ _ _ hs _ hst => step_inv hs hst
  rw [acquireLock_refused (howner.trans hinv.node.symm)]
  refine ⟨?_, ?_⟩
  · intro hblame hself
    exact hself.not_blockedByOther (hblame hself.checkConflict)
  · intro hself hrefused
    by_contra hother
    exact hself (selfBlocked_of_refused hinv hrefused hother)

/-- transaction 1 holds resource 5 of node 1 in EXCLUSIVE mode -/
def heldState : ResourceManager := (run step (init 1) [.acquireLock 1 5 .exclusive]).get rfl

/-- another reader finds the writer in its way -/
theorem refused_by_other_reader : BlockedByOther heldState 2 5 .shared :=
  (refused_by_other_iff (n := 1) (ReachesBy.of_run (Option.some_get _).symm) (by decide)).2 (by
    intro hself
    cases hself with
    | upgrade holds _ _ => exact absurd (mem_iff_lookup.2 ⟨_, holds⟩) (by decide)
    | reread holds _ _ _ => exact absurd holds (by decide)
    | requeued _ _ _ _ waiting _ => exact absurd rfl waiting) (by decide)

theorem reentry_blocks_itself : ¬ ∀ n rm, Reaches step (init n) rm → ∀ t r m, getOwnerNodeId r = n →
    (rm.acquireLock t r m).1 = false → BlockedByOther rm t r m := by
  intro hall
  have hother := hall 1 heldState (ReachesBy.of_run (Option.some_get _).symm) 1 5 .exclusive (by decide) (by decide)
  have holds : (heldState.getResourceHolders 5).lookup 1 = some .exclusive := by decide
  have hself : SelfBlocked heldState 1 5 .exclusive := .upgrade holds (by decide) (Or.inl rfl)
  exact hself.not_blockedByOther hother

/-! ## Overtaking -/

/-- only the front of a queue is granted the resource -/
def NoOvertaking (rm : ResourceManager) : Prop :=
  ∀ t r m, rm.getResourceWaitingQueue r ≠ [] → (rm.acquireLock t r m).1 = true →
    (rm.getResourceWaitingQueue r).head? = some t

/-- the operation releases a lock of t on r, if t has one -/
def Op.releases : Op → TransactionId → ResourceId → Prop
  | .releaseLock transId resId, t, r => transId = t ∧ resId = r
  | .releaseAllLocks _ transId, t, _ => transId = t
  | .acquireLock .., _, _ => False
  | .removeTransactionFromWaitingQueue .., _, _ => False

/-- t and nobody else holds r -/
def LastHolder (rm : ResourceManager) (t : TransactionId) (r : ResourceId) : Prop :=
  t ∈ rm.getResourceHolders r ∧ ∀ k ∈ rm.getResourceHolders r, k = t

/-- the operation takes the last holder from no resource that somebody waits for -/
def LeavesHeld (rm : ResourceManager) (o : Op) : Prop :=
  ∀ t r, o.releases t r → LastHolder rm t r → rm.getResourceWaitingQueue r = []

/-- only resources of this node have queues -/
structure QueuesOwned (n : NodeId) (rm : ResourceManager) : Prop where
  node : rm.nodeId = n
  owned : ∀ r, rm.getResourceWaitingQueue r ≠ [] → getOwnerNodeId r = n

/-- what somebody waits for is held -/
def WaitedHeld (rm : ResourceManager) : Prop :=
  ∀ r, rm.getResourceWaitingQueue r ≠ [] → ∃ k, k ∈ rm.getResourceHolders r

/-- what one operation does to the resources that somebody waits for -/
theorem queue_of_step {rm rm' : ResourceManager} {o : Op} (h : rm.step o = some rm') (r : ResourceId)
    (hq : rm'.getResourceWaitingQueue r ≠ []) : rm.getResourceWaitingQueue r ≠ [] ∨
      ∃ t m, o = .acquireLock t r m ∧ getOwnerNodeId r = rm.nodeId ∧ rm.checkConflict r m = true := by
  cases o with
  | acquireLock t r' m =>
    cases h
    rw [getResourceWaitingQueue_acquireLock] at hq
    split_ifs at hq with hc
    · obtain ⟨rfl, howner, hconflict⟩ := hc
      exact Or.inr ⟨t, m, rfl, howner, hconflict⟩
    · exact Or.inl hq
  | releaseLock t r' => cases h; exact Or.inl (by simpa using hq)
  | releaseAllLocks H t => cases h; exact Or.inl hq
  | removeTransactionFromWaitingQueue t r' =>
    cases h
    rw [getResourceWaitingQueue_removeTransactionFromWaitingQueue] at hq
    split_ifs at hq with hr
    · rw [hr]
      refine Or.inl fun hnil => hq ?_
      rw [hnil]; rfl
    · exact Or.inl hq

/-- an operation takes away holders only by releasing their locks -/
theorem mem_holders_of_step {rm rm' : ResourceManager} {o : Op} (h : rm.step o = some rm') {k : TransactionId}
    {r : ResourceId} (hk : k ∈ rm.getResourceHolders r) : k ∈ rm'.getResourceHolders r ∨ o.releases k r := by
  cases o with
  | acquireLock t r' m =>
    cases h
    rw [getResourceHolders_acquireLock]
    split_ifs with hg
    · obtain ⟨rfl, -⟩ := hg
      exact Or.inl (AList.mem_insert _ |>.2 (Or.inr hk))
    · exact Or.inl hk
  | releaseLock t r' =>
    cases h
    rw [getResourceHolders_releaseLock]
    split_ifs with hr
    · obtain ⟨rfl, -⟩ := hr
      by_cases hkt : k = t
      · exact Or.inr ⟨hkt.symm, rfl⟩
      · exact Or.inl (AList.mem_erase.2 ⟨hkt, hk⟩)
    · exact Or.inl hk
  | releaseAllLocks H t =>
    cases h
    rw [getResourceHolders_releaseAllLocks]
    by_cases hkt : k = t
    · exact Or.inr hkt.symm
    · exact Or.inl (AList.mem_erase.2 ⟨hkt, hk⟩)
  | removeTransactionFromWaitingQueue t r' => cases h; exact Or.inl (by simpa using hk)

theorem step_nodeId {rm rm' : ResourceManager} {o : Op} (h : rm.step o = some rm') : rm'.nodeId = rm.nodeId := by
  cases o <;> cases h <;> simp

theorem step_queuesOwned {n : NodeId} {rm rm' : ResourceManager} {o : Op} (hown : QueuesOwned n rm)
    (h : rm.step o = some rm') : QueuesOwned n rm' := by
  refine ⟨(step_nodeId h).trans hown.node, ?_⟩
  intro r hq
  rcases queue_of_step h r hq with hq | ⟨t, m, -, howner, -⟩
  · exact hown.owned r hq
  · exact howner.trans hown.node

theorem step_waitedHeld {rm rm' : ResourceManager} {o : Op} (hheld : WaitedHeld rm) (hok : LeavesHeld rm o)
    (h : rm.step o = some rm') : WaitedHeld rm' := by
  intro r hq
  have hbefore : ∃ k, k ∈ rm.getResourceHolders r := by
    rcases queue_of_step h r hq with hq | ⟨t, m, -, -, hconflict⟩
    · exact hheld r hq
    · exact (checkConflict_eq_true.1 hconflict).1
  obtain ⟨k, hk⟩ := hbefore
  by_contra hnone
  -- every holder was released, so there was one, and r has a queue it had before
  have hrel : ∀ j ∈ rm.getResourceHolders r, o.releases j r := by
    intro j hj
    rcases mem_holders_of_step h hj with hj' | hj'
    · exact absurd ⟨j, hj'⟩ hnone
    · exact hj'
  have hlast : LastHolder rm k r := by
    refine ⟨hk, ?_⟩
    intro j hj
    have hkr := hrel k hk
    have hjr := hrel j hj
    cases o with
    | acquireLock t r' m => exact hkr.elim
    | releaseLock t r' => exact hjr.1.symm.trans hkr.1
    | releaseAllLocks H t => exact Eq.trans (Eq.symm hjr) hkr
    | removeTransactionFromWaitingQueue t r' => exact hkr.elim
  have hempty : rm.getResourceWaitingQueue r = [] := hok k r (hrel k hk) hlast
  rcases queue_of_step h r hq with hq | ⟨t, m, rfl, -, -⟩
  · exact hq hempty
  · exact hrel k hk

/-- overtaking needs a resource with waiting transactions and no holder, and with one it is possible -/
theorem noOvertaking_iff {n : NodeId} {rm : ResourceManager} (hown : QueuesOwned n rm) :
    NoOvertaking rm ↔ WaitedHeld rm := by
  refine ⟨?_, ?_⟩
  · intro hno r hq
    by_contra hfree
    obtain ⟨f, rest, hf⟩ := List.exists_cons_of_ne_nil hq
    -- a transaction other than the front asks for the free resource
    have hgranted : (rm.acquireLock (f + 1) r .exclusive).1 = true := by
      by_contra hg
      rw [Bool.not_eq_true, acquireLock_refused ((hown.owned r hq).trans hown.node.symm), checkConflict_eq_true] at hg
      exact hfree hg.1
    have hfront := hno (f + 1) r .exclusive hq hgranted
    rw [hf, List.head?_cons, Option.some.injEq] at hfront
    exact absurd hfront (Int.lt_succ f).ne
  · intro hheld t r m hq hgranted
    have hc := (acquireLock_granted hgranted).2
    rw [← Bool.not_eq_true, checkConflict_eq_true] at hc
    exact absurd ⟨hheld r hq, Or.inl hq⟩ hc

/-- a release that takes the last holder from a resource with waiting transactions frees it -/
theorem leavesHeld_of_waitedHeld {n : NodeId} {rm rm' : ResourceManager} {o : Op} (hown : QueuesOwned n rm)
    (h : rm.step o = some rm') (hheld : WaitedHeld rm') : LeavesHeld rm o := by
  intro t r hrel hlast
  by_contra hq
  cases o with
  | acquireLock t' r' m => exact hrel
  | removeTransactionFromWaitingQueue t' r' => exact hrel
  | releaseLock t' r' =>
    obtain ⟨rfl, rfl⟩ := hrel
    cases h
    obtain ⟨k, hk⟩ := hheld r' (by simpa using hq)
    rw [getResourceHolders_releaseLock, if_pos ⟨rfl, (hown.owned r' hq).trans hown.node.symm⟩, AList.mem_erase] at hk
    exact hk.1 (hlast.2 k hk.2)
  | releaseAllLocks H t' =>
    obtain rfl : t' = t := hrel
    cases h
    obtain ⟨k, hk⟩ := hheld r hq
    rw [getResourceHolders_releaseAllLocks, AList.mem_erase] at hk
    exact hk.1 (hlast.2 k hk.2)

/-- **No overtaking.** In every run that never takes the last holder from a resource with waiting transactions, only
the front of a queue is granted the resource, in every state reached; and such a run keeps this up with its next step
exactly when that step, too, takes the last holder from no such resource. -/
theorem no_overtaking {n : NodeId} {rm : ResourceManager} (h : ReachesBy step LeavesHeld (init n) rm) :
    NoOvertaking rm ∧ ∀ o rm', rm.step o = some rm' → (NoOvertaking rm' ↔ LeavesHeld rm o) := by
  have hnone : ∀ r, (init n).getResourceWaitingQueue r = [] := fun _ => rfl
  have hinv : QueuesOwned n rm ∧ WaitedHeld rm := by
    have hinit : QueuesOwned n (init n) ∧ WaitedHeld (init n) :=
      ⟨⟨rfl, fun r hq => absurd (hnone r) hq⟩, fun r hq => absurd (hnone r) hq⟩
    apply h.invariant hinit
    intro s o s' hs hok hst
    exact ⟨step_queuesOwned hs.1 hst, step_waitedHeld hs.2 hok hst⟩
  refine ⟨(noOvertaking_iff hinv.1).2 hinv.2, ?_⟩
  intro o rm' hst
  rw [noOvertaking_iff (step_queuesOwned hinv.1 hst)]
  refine ⟨?_, ?_⟩
  · exact leavesHeld_of_waitedHeld hinv.1 hst
  · exact fun hok => step_waitedHeld hinv.2 hok hst

/-- two readers hold resource 5 of node 1 and a writer waits -/
def writerWaits : ResourceManager :=
  (run step (init 1) [.acquireLock 1 5 .shared, .acquireLock 2 5 .shared, .acquireLock 3 5 .exclusive]).get rfl

/-- both readers have left -/
def bothLeft : ResourceManager :=
  (run step writerWaits [.releaseAllLocks .stored 1, .releaseAllLocks .stored 2]).get rfl

theorem no_overtaking_writerWaits : writerWaits.getResourceWaitingQueue 5 = [3] ∧ NoOvertaking writerWaits := by
  have hacquires : ∀ rm t r m, LeavesHeld rm (.acquireLock t r m) := fun rm t r m _ _ hrel => hrel.elim
  have hrun : ReachesBy step LeavesHeld (init 1) writerWaits :=
    .next (.next (.next .start (hacquires _ 1 5 .shared) rfl) (hacquires _ 2 5 .shared) rfl)
      (hacquires _ 3 5 .exclusive) rfl
  exact ⟨by decide, (no_overtaking hrun).1⟩

theorem bothLeft_overtaken : ¬ ∀ n rm, Reaches step (init n) rm → NoOvertaking rm := by
  intro hall
  have hreach : Reaches step (init 1) bothLeft :=
    ReachesBy.trans (ReachesBy.of_run (Option.some_get _).symm)
      (ReachesBy.of_run (Option.some_get _).symm)
  exact absurd (hall 1 bothLeft hreach 4 5 .shared (by decide) (by decide)) (by decide)

end ResourceManager

end HawkTxn
