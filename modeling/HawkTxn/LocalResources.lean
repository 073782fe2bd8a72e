/-
The resources a node owns and the resources it scans (`commons.h`, `ResourceManager.cpp`, `LockTable.cpp`).

`acquireLock` asks `getOwnerNodeId`, a truncating division; the graph builders walk `getLocalResources`, a range. From
node 2 on the division gives each node the thousand ids of its range. Towards zero it truncates from both sides: the ids
-998 to 0 go to node 1 as well, which grants and queues requests for them and never scans them.

Results:
- `getOwnerNodeId_eq_iff`: the ids the division gives to a node;
- `scanCovers_iff`: a node scans what it owns, except for node 1 and the ids -998 to 0.
-/
import HawkTxn.Blocking
import HawkTxn.LockTable

namespace HawkTxn

open HawkTxn.Core UnorderedMap

/-- the first node also owns the 999 ids before its range -/
theorem getOwnerNodeId_eq_iff {n : ℤ} (hn : 1 ≤ n) (r : ℤ) : getOwnerNodeId r = n ↔
    (n - 1) * resourcesPerNode + 1 ≤ r ∧ r ≤ n * resourcesPerNode ∨ n = 1 ∧ -998 ≤ r ∧ r ≤ 0 := by
  have hdiv : (r - 1).tdiv 1000 + 1 = n ↔
      (n - 1) * 1000 + 1 ≤ r ∧ r ≤ n * 1000 ∨ n = 1 ∧ -998 ≤ r ∧ r ≤ 0 := by
    rcases le_total 1 r with hr | hr
    · have hfloor : (r - 1).tdiv 1000 = (r - 1) / 1000 := Int.tdiv_eq_ediv_of_nonneg (by omega)
      omega
    · have hceil : (r - 1).tdiv 1000 = -((1 - r) / 1000) := by
        calc (r - 1).tdiv 1000 = (-(1 - r)).tdiv 1000 := by rw [neg_sub]
          _ = -((1 - r).tdiv 1000) := Int.neg_tdiv ..
          _ = -((1 - r) / 1000) := by rw [Int.tdiv_eq_ediv_of_nonneg (by omega)]
      omega
  exact hdiv

namespace LockTable

/-- the lock manager of node n and the loops over its local resources agree on r -/
structure ScanCovers (n : NodeId) (r : ResourceId) : Prop where
  /-- `acquireLock` treats r as its own exactly if the loops come to it -/
  owned_iff : ∀ rm : ResourceManager, rm.nodeId = n → (getOwnerNodeId r = rm.nodeId ↔ r ∈ rm.getLocalResources)
  once : ∀ rm : ResourceManager, rm.nodeId = n → r ∈ rm.getLocalResources → rm.getLocalResources.count r = 1
  /-- what is held or waited for is not skipped -/
  scanned : ∀ rm, Reaches ResourceManager.step (ResourceManager.init n) rm →
    (∃ h, h ∈ rm.getResourceHolders r) ∨ rm.getResourceWaitingQueue r ≠ [] → r ∈ rm.getLocalResources
  /-- the front waiter of r has its edges in the graph -/
  edges : ∀ tm : TransactionManager, Reaches ResourceManager.step (ResourceManager.init n) tm.resourceManager →
    ∀ H w h, frontWaiter tm r = some w → h ∈ tm.resourceManager.getResourceHolders r → h ≠ w →
      WaitForGraph.Edge (buildLocalWaitForGraph H tm) w h

theorem ScanCovers.of_owned_iff {n : NodeId} {r : ResourceId}
    (h : ∀ rm : ResourceManager, rm.nodeId = n → (getOwnerNodeId r = rm.nodeId ↔ r ∈ rm.getLocalResources)) :
    ScanCovers n r := by
  have hscanned : ∀ rm, Reaches ResourceManager.step (ResourceManager.init n) rm →
      (∃ h, h ∈ rm.getResourceHolders r) ∨ rm.getResourceWaitingQueue r ≠ [] → r ∈ rm.getLocalResources := by
    intro rm hrm hused
    have hinv : rm.Inv n := hrm.invariant (ResourceManager.inv_init n) fun _ _ _ hs _ hst =>
      ResourceManager.step_inv hs hst
    have hqueues : rm.QueuesOwned n := by
      refine hrm.invariant ⟨rfl, ?_⟩ fun _ _ _ hs _ hst => ResourceManager.step_queuesOwned hs hst
      exact fun r hr => absurd rfl hr
    rw [← h rm hqueues.node, hqueues.node]
    rcases hused with ⟨t, ht⟩ | hq
    · exact hinv.owned r t ht
    · exact hqueues.owned r hq
  refine ⟨h, ?_, hscanned, ?_⟩
  · intro rm _ hmem
    exact List.count_eq_one_of_mem (nodup_intRange _ _) hmem
  · intro tm htm H w h hw hh hne
    obtain ⟨-, hfront, hwait⟩ := frontWaiter_eq_some.1 hw
    exact edge_buildLocalWaitForGraph.2 ⟨r, hscanned _ htm (Or.inl ⟨h, hh⟩), hfront, hwait, hh, hne⟩

/-- **Owned resources are scanned.** Node n treats r as its own exactly if r is one of its local resources, and there it
occurs once; what can have holders or waiters is in the range the graph builders walk. The only exceptions are the ids
-998 to 0 of node 1. -/
theorem scanCovers_iff {n : ℤ} (hn : 1 ≤ n) (r : ℤ) :
    ScanCovers n r ↔ ¬ (n = 1 ∧ -998 ≤ r ∧ r ≤ 0) := by
  refine ⟨?_, ?_⟩
  · intro h hbefore
    have howner : getOwnerNodeId r = n := (getOwnerNodeId_eq_iff hn r).2 (Or.inr hbefore)
    obtain ⟨rfl, -, hr⟩ := hbefore
    have hfirst : 1 ≤ r := by
      simpa [ResourceManager.init] using
        (ResourceManager.mem_getLocalResources.1 ((h.owned_iff (ResourceManager.init 1) rfl).1 howner)).1
    omega
  · intro hr
    refine ScanCovers.of_owned_iff fun rm hrm => ?_
    rw [ResourceManager.mem_getLocalResources, hrm, getOwnerNodeId_eq_iff hn]
    exact or_iff_left hr

theorem scanCovers_blockEnds : ScanCovers 2 1001 ∧ ScanCovers 2 2000 ∧ ¬ ScanCovers 1 0 :=
  ⟨(scanCovers_iff (by decide) 1001).2 (by decide), (scanCovers_iff (by decide) 2000).2 (by decide),
    fun h => (scanCovers_iff (by decide) 0).1 h (by decide)⟩

/-- resource 0 is granted by node 1 and not in its range -/
theorem zero_not_scanned : ¬ ∀ n : NodeId, 1 ≤ n → ∀ r, ScanCovers n r := by
  intro hall
  have hheld : 1 ∈ ((ResourceManager.init 1).acquireLock 1 0 .exclusive).2.getResourceHolders 0 := by decide
  have hreach : Reaches ResourceManager.step (ResourceManager.init 1)
      ((ResourceManager.init 1).acquireLock 1 0 .exclusive).2 :=
    .next (a := .acquireLock 1 0 .exclusive) .start trivial rfl
  have hmem := (hall 1 le_rfl 0).scanned _ hreach (Or.inl ⟨1, hheld⟩)
  exact absurd (ResourceManager.mem_getLocalResources.1 hmem).1 (by decide)

end LockTable

end HawkTxn
