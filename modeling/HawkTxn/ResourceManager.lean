/-
The lock manager of one node (`ResourceManager.h`, `ResourceManager.cpp`).

`resourceHolders` maps a resource to its holders and their lock modes, `resourceWaitingQueues` to the transactions
that were refused. The mutexes make every operation atomic, so an operation is a function of the state. The body of
the retry callback is not in the repository: `releaseLock` and `releaseAllLocks` return the calls they make of it
(waiting transaction, resource), in order, and leave what the callback does to their caller.

Results:
- `getResourceHolders_releaseAllLocks`, `getResourceHolders_releaseLock`: a release removes exactly the releasing
  transaction from the holders;
- `mutual_exclusion`: in every reachable state a resource has at most one holder or only SHARED holders, and a
  resource with a holder is owned by the node.
-/
import HawkTxn.Commons
import HawkTxn.Core.Runs

namespace HawkTxn

open HawkTxn.Core UnorderedMap

/-- the holders of one resource, with the mode each holds it in -/
abbrev Holders := UnorderedMap TransactionId LockMode

structure ResourceManager where
  nodeId : NodeId
  resourceHolders : UnorderedMap ResourceId Holders
  resourceWaitingQueues : UnorderedMap ResourceId (List TransactionId)
deriving DecidableEq

namespace ResourceManager

/-! ## Model -/

/-- the constructor: nothing is held, nobody waits -/
def init (nodeId : NodeId) : ResourceManager := ⟨nodeId, ∅, ∅⟩

def getResourceHolders (rm : ResourceManager) (resId : ResourceId) : Holders := getD rm.resourceHolders resId ∅

def getResourceWaitingQueue (rm : ResourceManager) (resId : ResourceId) : List TransactionId :=
  getD rm.resourceWaitingQueues resId []

def getLocalResources (rm : ResourceManager) : List ResourceId :=
  intRange ((rm.nodeId - 1) * resourcesPerNode + 1) (rm.nodeId * resourcesPerNode)

/-- does a request in `requestMode` conflict with a holder in `currentHolderMode`? -/
def modeConflict (requestMode currentHolderMode : LockMode) : Bool :=
  match requestMode with
  | .shared => currentHolderMode = .exclusive
  | .exclusive => true

def checkConflict (rm : ResourceManager) (resId : ResourceId) (requestMode : LockMode) : Bool :=
  if (rm.getResourceHolders resId).entries = [] then false
  else if rm.getResourceWaitingQueue resId ≠ [] then true
  else (rm.getResourceHolders resId).entries.any fun holder => modeConflict requestMode holder.2

/-- was the lock granted, and the state after -/
def acquireLock (rm : ResourceManager) (transId : TransactionId) (resId : ResourceId) (mode : LockMode) :
    Bool × ResourceManager :=
  if getOwnerNodeId resId ≠ rm.nodeId then (false, rm)
  else if rm.checkConflict resId mode then
    (false, { rm with resourceWaitingQueues := pushBack rm.resourceWaitingQueues resId transId })
  else
    (true, { rm with
      resourceHolders := rm.resourceHolders.insert resId ((rm.getResourceHolders resId).insert transId mode) })

/-- `transId` leaves the holders of `resId`; an empty holder map is dropped -/
def dropHolder (holders : UnorderedMap ResourceId Holders) (transId : TransactionId) (resId : ResourceId)
    (hs : Holders) : UnorderedMap ResourceId Holders :=
  if (hs.erase transId).entries = [] then holders.erase resId else holders.insert resId (hs.erase transId)

/-- the retry callback is called for the front of a nonempty queue -/
def notifyCalls (rm : ResourceManager) (resId : ResourceId) : List (TransactionId × ResourceId) :=
  match rm.getResourceWaitingQueue resId with
  | [] => []
  | waitingTransId :: _ => [(waitingTransId, resId)]

/-- the state after and the calls of `notifyTransactionToRetryAcquire` -/
def releaseLock (rm : ResourceManager) (transId : TransactionId) (resId : ResourceId) :
    ResourceManager × List (TransactionId × ResourceId) :=
  if getOwnerNodeId resId ≠ rm.nodeId then (rm, [])
  else if transId ∈ rm.getResourceHolders resId then
    ({ rm with resourceHolders := dropHolder rm.resourceHolders transId resId (rm.getResourceHolders resId) },
      rm.notifyCalls resId)
  else (rm, [])

/-- one round of the loop over `resourceHolders_`: the holder map and the resources released so far -/
def releaseEntry (transId : TransactionId) (acc : UnorderedMap ResourceId Holders × List ResourceId)
    (entry : ResourceId × Holders) : UnorderedMap ResourceId Holders × List ResourceId :=
  if transId ∈ entry.2 then (dropHolder acc.1 transId entry.1 entry.2, acc.2 ++ [entry.1]) else acc

/-- the state after and the calls of `notifyTransactionToRetryAcquire`, which all come after the loop -/
def releaseAllLocks (H : HashOrder) (rm : ResourceManager) (transId : TransactionId) :
    ResourceManager × List (TransactionId × ResourceId) :=
  let released := (iter H rm.resourceHolders).foldl (releaseEntry transId) (rm.resourceHolders, [])
  ({ rm with resourceHolders := released.1 }, released.2.flatMap rm.notifyCalls)

/-- was the transaction in the queue, and the state after -/
def removeTransactionFromWaitingQueue (rm : ResourceManager) (transId : TransactionId) (resId : ResourceId) :
    Bool × ResourceManager :=
  if rm.getResourceWaitingQueue resId = [] then (false, rm)
  else (decide (transId ∈ rm.getResourceWaitingQueue resId), { rm with
    resourceWaitingQueues := rm.resourceWaitingQueues.insert resId
      ((rm.getResourceWaitingQueue resId).filter (· ≠ transId)) })

/-- a call of an operation by any transaction -/
inductive Op : Type 1 where
  | acquireLock (transId : TransactionId) (resId : ResourceId) (mode : LockMode)
  | releaseLock (transId : TransactionId) (resId : ResourceId)
  | releaseAllLocks (H : HashOrder) (transId : TransactionId)
  | removeTransactionFromWaitingQueue (transId : TransactionId) (resId : ResourceId)

/-- one operation; the retry callback leaves the manager as it is -/
def step (rm : ResourceManager) : Op → Option ResourceManager
  | .acquireLock t r m => some (rm.acquireLock t r m).2
  | .releaseLock t r => some (rm.releaseLock t r).1
  | .releaseAllLocks H t => some (rm.releaseAllLocks H t).1
  | .removeTransactionFromWaitingQueue t r => some (rm.removeTransactionFromWaitingQueue t r).2

theorem mem_getLocalResources {rm : ResourceManager} {r : ResourceId} : r ∈ rm.getLocalResources ↔
    (rm.nodeId - 1) * resourcesPerNode + 1 ≤ r ∧ r ≤ rm.nodeId * resourcesPerNode := mem_intRange

/-! ## What each operation does to the holders -/

theorem getD_dropHolder (holders : UnorderedMap ResourceId Holders) (t : TransactionId) (r r' : ResourceId)
    (hs : Holders) : getD (dropHolder holders t r hs) r' ∅ = if r' = r then hs.erase t else getD holders r' ∅ := by
  unfold dropHolder
  split_ifs with hemp h h
  · subst h; rw [eq_empty hemp, getD, AList.lookup_erase]; rfl
  · rw [getD, AList.lookup_erase_ne h]; rfl
  · subst h; simp
  · simp [h]

/-- the conflict check stops a request only for a held resource, because somebody waits or a holder conflicts -/
theorem checkConflict_eq_true {rm : ResourceManager} {r : ResourceId} {m : LockMode} :
    rm.checkConflict r m = true ↔ (∃ k, k ∈ rm.getResourceHolders r) ∧ (rm.getResourceWaitingQueue r ≠ [] ∨
      ∃ k m', (rm.getResourceHolders r).lookup k = some m' ∧ (m = .exclusive ∨ m' = .exclusive)) := by
  have hany : (rm.getResourceHolders r).entries.any (fun holder => modeConflict m holder.2) = true ↔
      ∃ k m', (rm.getResourceHolders r).lookup k = some m' ∧ (m = .exclusive ∨ m' = .exclusive) := by
    rw [List.any_eq_true]
    refine ⟨?_, ?_⟩
    · intro h
      obtain ⟨⟨k, m'⟩, hmem, hconflict⟩ := h
      exact ⟨k, m', AList.mem_lookup_iff.2 hmem, by cases m <;> simp_all [modeConflict]⟩
    · intro h
      obtain ⟨k, m', hmem, hconflict⟩ := h
      exact ⟨⟨k, m'⟩, AList.mem_lookup_iff.1 hmem, by cases m <;> simp_all [modeConflict]⟩
  unfold checkConflict
  by_cases hemp : (rm.getResourceHolders r).entries = []
  · simp [hemp, notMem_of_entries_nil hemp]
  · have hheld : ∃ k, k ∈ rm.getResourceHolders r := by
      obtain ⟨k, m', hk⟩ := exists_lookup_of_entries_ne_nil hemp
      exact ⟨k, mem_iff_lookup.2 ⟨m', hk⟩⟩
    rw [if_neg hemp]
    by_cases hq : rm.getResourceWaitingQueue r = []
    · simp only [hq, ne_eq, not_true_eq_false, if_false, false_or, hany, hheld, true_and]
    · simp only [hq, ne_eq, not_false_eq_true, if_true, true_or, hheld, and_self]

/-- the conflict check passes only on a free resource, or for SHARED beside SHARED holders with nobody waiting -/
theorem checkConflict_eq_false {rm : ResourceManager} {r : ResourceId} {m : LockMode}
    (h : rm.checkConflict r m = false) : (∀ k, k ∉ rm.getResourceHolders r) ∨
      rm.getResourceWaitingQueue r = [] ∧ ∀ t m', (rm.getResourceHolders r).lookup t = some m' →
        m = .shared ∧ m' = .shared := by
  rw [← Bool.not_eq_true, checkConflict_eq_true, not_and_or, not_or, not_exists] at h
  rcases h with hfree | ⟨hq, hmodes⟩
  · exact Or.inl hfree
  · refine Or.inr ⟨not_not.1 hq, ?_⟩
    intro t m' hm'
    have hshared : ¬ (m = .exclusive ∨ m' = .exclusive) := fun hmode => hmodes ⟨t, m', hm', hmode⟩
    cases m <;> cases m' <;> simp at hshared ⊢

theorem getResourceHolders_acquireLock (rm : ResourceManager) (t : TransactionId) (r r' : ResourceId) (m : LockMode) :
    (rm.acquireLock t r m).2.getResourceHolders r' =
      if r' = r ∧ (rm.acquireLock t r m).1 = true then (rm.getResourceHolders r).insert t m
      else rm.getResourceHolders r' := by
  unfold acquireLock
  split_ifs <;> simp_all [getResourceHolders]

/-- a grant is made by the owner, after the conflict check -/
theorem acquireLock_granted {rm : ResourceManager} {t : TransactionId} {r : ResourceId} {m : LockMode}
    (h : (rm.acquireLock t r m).1 = true) : getOwnerNodeId r = rm.nodeId ∧ rm.checkConflict r m = false := by
  unfold acquireLock at h
  split_ifs at h with h1 h2
  exact ⟨not_not.1 h1, by simpa using h2⟩

/-- a holder beside which another lock is granted: both locks are SHARED -/
theorem shared_of_granted {rm : ResourceManager} {t k : TransactionId} {r : ResourceId} {m m' : LockMode}
    (h : (rm.acquireLock t r m).1 = true) (hk : (rm.getResourceHolders r).lookup k = some m') :
    m = .shared ∧ m' = .shared := by
  rcases checkConflict_eq_false (acquireLock_granted h).2 with hfree | ⟨-, hmodes⟩
  · exact absurd (mem_iff_lookup.2 ⟨m', hk⟩) (hfree k)
  · exact hmodes k m' hk

/-- the owner refuses exactly what the conflict check stops -/
theorem acquireLock_refused {rm : ResourceManager} {t : TransactionId} {r : ResourceId} {m : LockMode}
    (h : getOwnerNodeId r = rm.nodeId) : (rm.acquireLock t r m).1 = false ↔ rm.checkConflict r m = true := by
  unfold acquireLock
  rw [if_neg (not_not.2 h)]
  split_ifs with hc <;> simp [hc]

@[simp] theorem acquireLock_nodeId (rm : ResourceManager) (t : TransactionId) (r : ResourceId) (m : LockMode) :
    (rm.acquireLock t r m).2.nodeId = rm.nodeId := by
  unfold acquireLock; split_ifs <;> rfl

/-- a refused request joins the queue of its resource; a grant leaves the queues as they are -/
theorem getResourceWaitingQueue_acquireLock (rm : ResourceManager) (t : TransactionId) (r r' : ResourceId)
    (m : LockMode) : (rm.acquireLock t r m).2.getResourceWaitingQueue r' =
      if r' = r ∧ getOwnerNodeId r = rm.nodeId ∧ rm.checkConflict r m = true then rm.getResourceWaitingQueue r ++ [t]
      else rm.getResourceWaitingQueue r' := by
  unfold acquireLock
  split_ifs <;> simp_all [getResourceWaitingQueue, getD_pushBack]

theorem getResourceHolders_releaseLock (rm : ResourceManager) (t : TransactionId) (r r' : ResourceId) :
    (rm.releaseLock t r).1.getResourceHolders r' =
      if r' = r ∧ getOwnerNodeId r = rm.nodeId then (rm.getResourceHolders r).erase t
      else rm.getResourceHolders r' := by
  have hdrop : ∀ hs, getResourceHolders { rm with resourceHolders := dropHolder rm.resourceHolders t r hs } r' =
      if r' = r then hs.erase t else rm.getResourceHolders r' := fun hs => getD_dropHolder _ t r r' hs
  unfold releaseLock
  split_ifs with h1 h2 h2 h3 h3
  · exact absurd h2.2 h1
  · rfl
  · rw [hdrop, if_pos h3.1]
  · rw [hdrop, if_neg fun hr => h3 ⟨hr, not_not.1 h1⟩]
  · rw [‹r' = r ∧ _›.1, erase_of_notMem h2]
  · rfl

@[simp] theorem releaseLock_nodeId (rm : ResourceManager) (t : TransactionId) (r : ResourceId) :
    (rm.releaseLock t r).1.nodeId = rm.nodeId := by
  unfold releaseLock; split_ifs <;> rfl

/-- the loop over `resourceHolders_` removes t from the holders of every resource it visits -/
theorem getD_foldl_releaseEntry (t : TransactionId) (l : List (ResourceId × Holders))
    (acc : UnorderedMap ResourceId Holders × List ResourceId) (hnd : (l.map Prod.fst).Nodup)
    (hacc : ∀ e ∈ l, getD acc.1 e.1 ∅ = e.2) (r : ResourceId) :
    getD (l.foldl (releaseEntry t) acc).1 r ∅ =
      if r ∈ l.map Prod.fst then (getD acc.1 r ∅).erase t else getD acc.1 r ∅ := by
  induction l generalizing acc with
  | nil => simp
  | cons e l ih =>
    simp only [List.map_cons, List.nodup_cons] at hnd
    have he : getD acc.1 e.1 ∅ = e.2 := hacc e List.mem_cons_self
    -- what one round does: e's holders lose t, every other resource is as before
    have hround : ∀ r', getD (releaseEntry t acc e).1 r' ∅ =
        if r' = e.1 then e.2.erase t else getD acc.1 r' ∅ := by
      intro r'
      unfold releaseEntry
      split_ifs with ht hr hr
      · simp [getD_dropHolder, hr]
      · simp [getD_dropHolder, hr]
      · rw [hr, he, erase_of_notMem ht]
      · rfl
    rw [List.foldl_cons, ih _ hnd.2]
    · simp only [hround, List.map_cons, List.mem_cons]
      by_cases hr : r = e.1
      · subst hr; simp [hnd.1, he]
      · by_cases hl : r ∈ l.map Prod.fst
        · rw [if_pos hl, if_pos (Or.inr hl), if_neg hr]
        · rw [if_neg hl, if_neg (not_or.2 ⟨hr, hl⟩), if_neg hr]
    · intro e' he'
      rw [hround, if_neg, hacc e' (List.mem_cons_of_mem e he')]
      rintro heq
      exact hnd.1 (heq ▸ List.mem_map_of_mem he')

theorem getResourceHolders_releaseAllLocks (H : HashOrder) (rm : ResourceManager) (t : TransactionId)
    (r : ResourceId) :
    (releaseAllLocks H rm t).1.getResourceHolders r = (rm.getResourceHolders r).erase t := by
  have hfold := getD_foldl_releaseEntry t (iter H rm.resourceHolders) (rm.resourceHolders, [])
    (iter_keys_nodup H _) (fun e he => getD_of_lookup (mem_iter.1 he) ∅) r
  have hkeys : r ∈ (iter H rm.resourceHolders).map Prod.fst ↔ r ∈ rm.resourceHolders :=
    (iter_keys_perm H rm.resourceHolders).mem_iff
  apply hfold.trans
  split_ifs with hr
  · rfl
  · have hout : rm.getResourceHolders r = ∅ := getD_of_notMem (fun h => hr (hkeys.2 h)) ∅
    rw [hout]; exact hout.trans (erase_of_notMem (AList.notMem_empty t)).symm

@[simp] theorem releaseAllLocks_nodeId (H : HashOrder) (rm : ResourceManager) (t : TransactionId) :
    (releaseAllLocks H rm t).1.nodeId = rm.nodeId := rfl

@[simp] theorem getResourceWaitingQueue_releaseLock (rm : ResourceManager) (t : TransactionId) (r r' : ResourceId) :
    (rm.releaseLock t r).1.getResourceWaitingQueue r' = rm.getResourceWaitingQueue r' := by
  unfold releaseLock; split_ifs <;> rfl

@[simp] theorem getResourceWaitingQueue_releaseAllLocks (H : HashOrder) (rm : ResourceManager) (t : TransactionId)
    (r : ResourceId) : (releaseAllLocks H rm t).1.getResourceWaitingQueue r = rm.getResourceWaitingQueue r := rfl

theorem getResourceWaitingQueue_removeTransactionFromWaitingQueue (rm : ResourceManager) (t : TransactionId)
    (r r' : ResourceId) : (rm.removeTransactionFromWaitingQueue t r).2.getResourceWaitingQueue r' =
      if r' = r then (rm.getResourceWaitingQueue r).filter (· ≠ t) else rm.getResourceWaitingQueue r' := by
  unfold removeTransactionFromWaitingQueue
  by_cases hq : rm.getResourceWaitingQueue r = []
  · rw [if_pos hq]
    split_ifs with hr
    · rw [hr, hq]; rfl
    · rfl
  · rw [if_neg hq]
    simp [getResourceWaitingQueue]

@[simp] theorem getResourceHolders_removeTransactionFromWaitingQueue (rm : ResourceManager) (t : TransactionId)
    (r r' : ResourceId) :
    (rm.removeTransactionFromWaitingQueue t r).2.getResourceHolders r' = rm.getResourceHolders r' := by
  unfold removeTransactionFromWaitingQueue; split_ifs <;> rfl

@[simp] theorem removeTransactionFromWaitingQueue_nodeId (rm : ResourceManager) (t : TransactionId)
    (r : ResourceId) : (rm.removeTransactionFromWaitingQueue t r).2.nodeId = rm.nodeId := by
  unfold removeTransactionFromWaitingQueue; split_ifs <;> rfl

/-! ## Mutual exclusion -/

/-- holders that may hold a resource together: at most one, or all SHARED -/
def Compatible (hs : Holders) : Prop :=
  (∀ t t', t ∈ hs → t' ∈ hs → t = t') ∨ ∀ t m, hs.lookup t = some m → m = .shared

theorem compatible_empty : Compatible ∅ := Or.inl fun t _ ht => absurd ht (AList.notMem_empty t)

theorem Compatible.erase {hs : Holders} (h : Compatible hs) (t : TransactionId) : Compatible (hs.erase t) := by
  rcases h with h | h
  · exact Or.inl fun a b ha hb => h a b (AList.mem_erase.1 ha).2 (AList.mem_erase.1 hb).2
  · refine Or.inr fun a m ha => h a m ?_
    rw [lookup_erase_eq] at ha
    split_ifs at ha
    exact ha

/-- what the conflict check lets in keeps the holders compatible -/
theorem Compatible.grant {rm : ResourceManager} {r : ResourceId} {m : LockMode} (t : TransactionId)
    (hc : rm.checkConflict r m = false) : Compatible ((rm.getResourceHolders r).insert t m) := by
  rcases checkConflict_eq_false hc with hfree | ⟨-, hsh⟩
  · apply Or.inl
    intro a b ha hb
    simp only [hfree, AList.mem_insert, or_false] at ha hb
    exact ha.trans hb.symm
  · cases m with
    | exclusive =>
      -- an EXCLUSIVE request passes beside holders only if there are none
      apply Or.inl
      intro a b ha hb
      have hnone : ∀ x, x ∉ rm.getResourceHolders r := by
        intro x hx
        obtain ⟨m', hm'⟩ := mem_iff_lookup.1 hx
        exact absurd (hsh x m' hm').1 (by decide)
      simp only [AList.mem_insert, hnone, or_false] at ha hb
      exact ha.trans hb.symm
    | shared =>
      apply Or.inr
      intro a m' ha
      rw [lookup_insert_eq] at ha
      split_ifs at ha with hat
      · exact (Option.some.inj ha).symm
      · exact (hsh a m' ha).2

/-- every resource has compatible holders, and only resources of this node have holders -/
structure Inv (n : NodeId) (rm : ResourceManager) : Prop where
  node : rm.nodeId = n
  compatible : ∀ r, Compatible (rm.getResourceHolders r)
  owned : ∀ r t, t ∈ rm.getResourceHolders r → getOwnerNodeId r = n

theorem inv_init (n : NodeId) : Inv n (init n) :=
  ⟨rfl, fun _ => compatible_empty, fun _ t ht => absurd ht (AList.notMem_empty t)⟩

theorem Inv.acquireLock {n : NodeId} {rm : ResourceManager} (h : Inv n rm) (t : TransactionId) (r : ResourceId)
    (m : LockMode) : Inv n (rm.acquireLock t r m).2 := by
  refine ⟨by simp [h.node], ?_, ?_⟩
  · intro r'
    rw [getResourceHolders_acquireLock]
    split_ifs with hg
    · exact Compatible.grant t (acquireLock_granted hg.2).2
    · exact h.compatible r'
  · intro r' t' ht'
    rw [getResourceHolders_acquireLock] at ht'
    split_ifs at ht' with hg
    · rw [hg.1, (acquireLock_granted hg.2).1, h.node]
    · exact h.owned r' t' ht'

/-- an operation that leaves each resource its holders or the holders without one of them -/
theorem Inv.of_shrink {n : NodeId} {rm rm' : ResourceManager} (h : Inv n rm) (hnode : rm'.nodeId = rm.nodeId)
    (hshrink : ∀ r, rm'.getResourceHolders r = rm.getResourceHolders r ∨
      ∃ t, rm'.getResourceHolders r = (rm.getResourceHolders r).erase t) : Inv n rm' := by
  refine ⟨hnode.trans h.node, ?_, ?_⟩
  · intro r
    rcases hshrink r with hr | ⟨t, hr⟩ <;> rw [hr]
    · exact h.compatible r
    · exact (h.compatible r).erase t
  · intro r t ht
    rcases hshrink r with hr | ⟨t', hr⟩ <;> rw [hr] at ht
    · exact h.owned r t ht
    · exact h.owned r t (AList.mem_erase.1 ht).2

theorem step_inv {n : NodeId} {rm rm' : ResourceManager} {o : Op} (h : Inv n rm) (hst : rm.step o = some rm') :
    Inv n rm' := by
  cases o with
  | acquireLock t r m =>
    cases hst
    exact h.acquireLock t r m
  | releaseLock t r =>
    cases hst
    apply h.of_shrink (by simp)
    intro r'
    rw [getResourceHolders_releaseLock]
    split_ifs with hr
    · exact Or.inr ⟨t, by rw [hr.1]⟩
    · exact Or.inl rfl
  | releaseAllLocks H t =>
    cases hst
    exact h.of_shrink rfl fun r => Or.inr ⟨t, getResourceHolders_releaseAllLocks H rm t r⟩
  | removeTransactionFromWaitingQueue t r =>
    cases hst
    exact h.of_shrink (by simp) fun r' => Or.inl (by simp)

/-- **Mutual exclusion.** After any sequence of operations by any transactions, every resource has at most one holder
or only SHARED holders, and every resource with a holder is owned by this node. -/
theorem mutual_exclusion {n : NodeId} {rm : ResourceManager} (h : Reaches step (init n) rm) (r : ResourceId) :
    ((∀ t t', t ∈ rm.getResourceHolders r → t' ∈ rm.getResourceHolders r → t = t') ∨
      ∀ t m, (rm.getResourceHolders r).lookup t = some m → m = .shared) ∧
    ((∃ t, t ∈ rm.getResourceHolders r) → getOwnerNodeId r = n) := by
  have hinv : Inv n rm := h.invariant (inv_init n) fun _ _ _ hs _ hst => step_inv hs hst
  exact ⟨hinv.compatible r, fun ⟨t, ht⟩ => hinv.owned r t ht⟩

/-- two readers and a waiting writer on resource 7 of node 1, after one of the readers has left -/
def readersState : ResourceManager :=
  (run step (init 1) [.acquireLock 1 7 .shared, .acquireLock 2 7 .shared, .acquireLock 3 7 .exclusive,
    .releaseAllLocks .stored 1]).get rfl

theorem mutual_exclusion_readers :
    2 ∈ readersState.getResourceHolders 7 ∧ readersState.getResourceWaitingQueue 7 = [3] ∧
    ((∀ t t', t ∈ readersState.getResourceHolders 7 → t' ∈ readersState.getResourceHolders 7 → t = t') ∨
      ∀ t m, (readersState.getResourceHolders 7).lookup t = some m → m = .shared) ∧
    ((∃ t, t ∈ readersState.getResourceHolders 7) → getOwnerNodeId 7 = 1) :=
  ⟨by decide, by decide, mutual_exclusion (ReachesBy.of_run (Option.some_get _).symm) 7⟩

end ResourceManager

end HawkTxn
