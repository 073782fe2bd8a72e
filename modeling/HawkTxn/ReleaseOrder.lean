/-
Releasing all locks at once and one by one (`ResourceManager.cpp`).

`releaseAllLocks` drops the transaction from every holder map in one pass and calls the retry callback afterwards;
`releaseEach` calls `releaseLock` for a list of resources, each with its own callback. On a reachable state no
resource is mapped to an empty holder map (`Trimmed`), so a holder map is determined by who holds what.

Results:
- `trimmed_of_reaches`: no operation leaves a resource mapped to an empty holder map;
- `releaseAllLocks_releaseEach`: both ways to release the resources of a transaction have the same effect.
-/
import HawkTxn.ResourceManager

namespace HawkTxn

open HawkTxn.Core UnorderedMap

namespace ResourceManager

/-- `releaseLock` for one resource after the other: the state after and all calls of the retry callback -/
def releaseEach (transId : TransactionId) (rm : ResourceManager) (resIds : List ResourceId) :
    ResourceManager × List (TransactionId × ResourceId) :=
  resIds.foldl (fun acc resId =>
    let released := acc.1.releaseLock transId resId
    (released.1, acc.2 ++ released.2)) (rm, [])

/-! ## No empty holder maps -/

/-- no resource is mapped to an empty holder map -/
def Trimmed (holders : UnorderedMap ResourceId Holders) : Prop :=
  ∀ r hs, holders.lookup r = some hs → hs.entries ≠ []

/-- tables without empty holder maps that give every resource the same holders are the same table -/
theorem Trimmed.lookup_eq {m m' : UnorderedMap ResourceId Holders} (h : Trimmed m) (h' : Trimmed m')
    (hget : ∀ r, getD m r ∅ = getD m' r ∅) (r : ResourceId) : m.lookup r = m'.lookup r := by
  have hr := hget r
  unfold getD at hr
  cases hl : m.lookup r with
  | none =>
    cases hl' : m'.lookup r with
    | none => rfl
    | some hs =>
      rw [hl, hl'] at hr
      exact absurd (congrArg AList.entries hr.symm) (h' r hs hl')
  | some hs =>
    cases hl' : m'.lookup r with
    | none =>
      rw [hl, hl'] at hr
      exact absurd (congrArg AList.entries hr) (h r hs hl)
    | some hs' =>
      rw [hl, hl'] at hr
      exact congrArg some hr

theorem Trimmed.insert {m : UnorderedMap ResourceId Holders} (h : Trimmed m) (r : ResourceId) {hs : Holders}
    (hne : hs.entries ≠ []) : Trimmed (m.insert r hs) := by
  intro r' hs' hl
  rw [lookup_insert_eq] at hl
  split_ifs at hl
  · cases hl; exact hne
  · exact h r' hs' hl

theorem Trimmed.dropHolder {m : UnorderedMap ResourceId Holders} (h : Trimmed m) (t : TransactionId)
    (r : ResourceId) (hs : Holders) : Trimmed (dropHolder m t r hs) := by
  unfold ResourceManager.dropHolder
  split_ifs with hemp
  · intro r' hs' hl
    rw [lookup_erase_eq] at hl
    split_ifs at hl
    exact h r' hs' hl
  · exact h.insert r hemp

theorem Trimmed.releaseLock {rm : ResourceManager} (h : Trimmed rm.resourceHolders) (t : TransactionId)
    (r : ResourceId) : Trimmed (rm.releaseLock t r).1.resourceHolders := by
  unfold ResourceManager.releaseLock
  split_ifs
  · exact h
  · exact h.dropHolder t r _
  · exact h

theorem Trimmed.releaseAllLocks {rm : ResourceManager} (h : Trimmed rm.resourceHolders) (H : HashOrder)
    (t : TransactionId) : Trimmed (releaseAllLocks H rm t).1.resourceHolders := by
  refine List.foldlRecOn (motive := fun acc : UnorderedMap ResourceId Holders × List ResourceId => Trimmed acc.1)
    _ _ h ?_
  intro acc hacc entry _
  unfold releaseEntry
  split_ifs
  · exact hacc.dropHolder t _ _
  · exact hacc

theorem step_trimmed {rm rm' : ResourceManager} {o : Op} (h : Trimmed rm.resourceHolders)
    (hst : rm.step o = some rm') : Trimmed rm'.resourceHolders := by
  cases o with
  | acquireLock t r m =>
    cases hst
    unfold acquireLock
    split_ifs
    · exact h
    · exact h
    · apply h.insert r
      intro hemp
      exact notMem_of_entries_nil hemp t ((AList.mem_insert _).2 (Or.inl rfl))
  | releaseLock t r =>
    cases hst
    exact h.releaseLock t r
  | releaseAllLocks H t =>
    cases hst
    exact h.releaseAllLocks H t
  | removeTransactionFromWaitingQueue t r =>
    cases hst
    unfold removeTransactionFromWaitingQueue
    split_ifs <;> exact h

theorem trimmed_of_reaches {n : NodeId} {rm : ResourceManager} (h : Reaches step (init n) rm) :
    Trimmed rm.resourceHolders :=
  h.invariant (P := fun rm => Trimmed rm.resourceHolders) (fun _ _ hl => absurd hl (by simp [init]))
    fun _ _ _ hs _ hst => step_trimmed hs hst

/-! ## One by one -/

@[simp] theorem releaseEach_nil (t : TransactionId) (rm : ResourceManager) : releaseEach t rm [] = (rm, []) := rfl

theorem releaseEach_concat (t : TransactionId) (rm : ResourceManager) (rs : List ResourceId) (r : ResourceId) :
    releaseEach t rm (rs ++ [r]) =
      (((releaseEach t rm rs).1.releaseLock t r).1,
        (releaseEach t rm rs).2 ++ ((releaseEach t rm rs).1.releaseLock t r).2) := by
  simp [releaseEach, List.foldl_append]

/-- what releasing distinct held resources one by one leaves and calls -/
structure ReleasedEach (t : TransactionId) (rm : ResourceManager) (rs : List ResourceId)
    (out : ResourceManager × List (TransactionId × ResourceId)) : Prop where
  nodeId : out.1.nodeId = rm.nodeId
  queues : out.1.resourceWaitingQueues = rm.resourceWaitingQueues
  trimmed : Trimmed out.1.resourceHolders
  holders : ∀ r, out.1.getResourceHolders r =
    if r ∈ rs then (rm.getResourceHolders r).erase t else rm.getResourceHolders r
  calls : out.2 = rs.flatMap rm.notifyCalls

theorem notifyCalls_congr {rm rm' : ResourceManager} (h : rm'.resourceWaitingQueues = rm.resourceWaitingQueues)
    (r : ResourceId) : rm'.notifyCalls r = rm.notifyCalls r := by
  unfold notifyCalls getResourceWaitingQueue
  rw [h]

@[simp] theorem resourceWaitingQueues_releaseLock (rm : ResourceManager) (t : TransactionId) (r : ResourceId) :
    (rm.releaseLock t r).1.resourceWaitingQueues = rm.resourceWaitingQueues := by
  unfold releaseLock; split_ifs <;> rfl

/-- releasing a resource that t holds and the node owns calls the front of its queue -/
theorem releaseLock_calls {rm : ResourceManager} {t : TransactionId} {r : ResourceId}
    (howner : getOwnerNodeId r = rm.nodeId) (hheld : t ∈ rm.getResourceHolders r) :
    (rm.releaseLock t r).2 = rm.notifyCalls r := by
  unfold releaseLock
  rw [if_neg (not_not.2 howner), if_pos hheld]

theorem releasedEach {rm : ResourceManager} (htrim : Trimmed rm.resourceHolders) (t : TransactionId)
    (rs : List ResourceId) (hnd : rs.Nodup) (hheld : ∀ r ∈ rs, t ∈ rm.getResourceHolders r)
    (howned : ∀ r ∈ rs, getOwnerNodeId r = rm.nodeId) : ReleasedEach t rm rs (releaseEach t rm rs) := by
  induction rs using List.reverseRecOn with
  | nil => exact ⟨rfl, rfl, htrim, fun r => by simp, rfl⟩
  | append_singleton rs r ih =>
    have hsub : ∀ r' ∈ rs, r' ∈ rs ++ [r] := fun r' hr' => List.mem_append_left _ hr'
    have hlast : r ∈ rs ++ [r] := List.mem_append_right _ (List.mem_singleton_self r)
    have hnew : r ∉ rs := fun hr =>
      (List.disjoint_of_nodup_append hnd) hr (List.mem_singleton_self r)
    have hrs := ih (List.Nodup.of_append_left hnd) (fun r' hr' => hheld r' (hsub r' hr'))
      fun r' hr' => howned r' (hsub r' hr')
    -- the releases before leave the holders of r as they were
    have hstill : (releaseEach t rm rs).1.getResourceHolders r = rm.getResourceHolders r := by
      rw [hrs.holders, if_neg hnew]
    have howner : getOwnerNodeId r = (releaseEach t rm rs).1.nodeId := (howned r hlast).trans hrs.nodeId.symm
    have hholds : t ∈ (releaseEach t rm rs).1.getResourceHolders r := hstill ▸ hheld r hlast
    rw [releaseEach_concat]
    refine ⟨by simp [hrs.nodeId], by simp [hrs.queues], hrs.trimmed.releaseLock t r, ?_, ?_⟩
    · intro r'
      rw [getResourceHolders_releaseLock]
      by_cases hr : r' = r
      · subst hr
        rw [if_pos ⟨rfl, howner⟩, if_pos hlast, hstill]
      · rw [if_neg fun h => hr h.1, hrs.holders]
        simp [hr]
    · rw [releaseLock_calls howner hholds, hrs.calls, notifyCalls_congr hrs.queues]
      simp

/-! ## All at once -/

/-- the pass over the holder map meets the resources that t holds -/
theorem released_foldl_releaseEntry {t : TransactionId} {l : List (ResourceId × Holders)}
    (acc : UnorderedMap ResourceId Holders × List ResourceId) :
    (l.foldl (releaseEntry t) acc).2 = acc.2 ++ (l.filter fun entry => t ∈ entry.2).map Prod.fst := by
  induction l generalizing acc with
  | nil => simp
  | cons entry l ih =>
    rw [List.foldl_cons, ih]
    unfold releaseEntry
    by_cases ht : t ∈ entry.2
    · simp [ht]
    · simp [ht]

theorem releaseAllLocks_calls (H : HashOrder) (rm : ResourceManager) (t : TransactionId) {rs : List ResourceId}
    (hnd : rs.Nodup) (hrs : ∀ r, r ∈ rs ↔ t ∈ rm.getResourceHolders r) :
    (releaseAllLocks H rm t).2.Perm (rs.flatMap rm.notifyCalls) := by
  have hkeys : (((iter H rm.resourceHolders).filter fun entry => t ∈ entry.2).map Prod.fst).Nodup :=
    (iter_keys_nodup H rm.resourceHolders).sublist (List.filter_sublist.map _)
  have hmem : ∀ r, r ∈ ((iter H rm.resourceHolders).filter fun entry => t ∈ entry.2).map Prod.fst ↔ r ∈ rs := by
    intro r
    rw [hrs]
    simp only [List.mem_map, List.mem_filter, decide_eq_true_eq]
    refine ⟨?_, ?_⟩
    · intro h
      obtain ⟨⟨r', hs⟩, ⟨hentry, ht⟩, rfl⟩ := h
      rw [getResourceHolders, getD_of_lookup (mem_iter.1 hentry)]
      exact ht
    · intro ht
      cases hl : rm.resourceHolders.lookup r with
      | none =>
        rw [getResourceHolders, getD, hl] at ht
        exact absurd ht (AList.notMem_empty t)
      | some hs =>
        rw [getResourceHolders, getD_of_lookup hl] at ht
        exact ⟨(r, hs), ⟨mem_iter.2 hl, ht⟩, rfl⟩
  have hperm := (List.perm_ext_iff_of_nodup hkeys hnd).2 hmem
  have hcalls : (releaseAllLocks H rm t).2 =
      (((iter H rm.resourceHolders).filter fun entry => t ∈ entry.2).map Prod.fst).flatMap rm.notifyCalls := by
    simp only [releaseAllLocks, released_foldl_releaseEntry, List.nil_append]
  rw [hcalls]
  exact hperm.flatMap_right _

/-- **All at once is one by one.** In every reachable state, for every transaction and every order of the resources it
holds, the two ways to release them give the same holder map and queues and call the retry callback the same number
of times for each waiting transaction and resource; the other holders stay, and no empty holder map is left. -/
theorem releaseAllLocks_releaseEach {n : NodeId} {rm : ResourceManager} (h : Reaches step (init n) rm) (H : HashOrder)
    (t : TransactionId) {rs : List ResourceId} (hnd : rs.Nodup) (hrs : ∀ r, r ∈ rs ↔ t ∈ rm.getResourceHolders r) :
    (∀ r, (releaseAllLocks H rm t).1.resourceHolders.lookup r = (releaseEach t rm rs).1.resourceHolders.lookup r) ∧
    (releaseAllLocks H rm t).1.resourceWaitingQueues = (releaseEach t rm rs).1.resourceWaitingQueues ∧
    (releaseAllLocks H rm t).2.Perm (releaseEach t rm rs).2 ∧
    (∀ r t', t' ≠ t → ((releaseAllLocks H rm t).1.getResourceHolders r).lookup t' =
      (rm.getResourceHolders r).lookup t') ∧
    ∀ r hs, (releaseAllLocks H rm t).1.resourceHolders.lookup r = some hs → hs.entries ≠ [] := by
  have hinv : Inv n rm := h.invariant (inv_init n) fun _ _ _ hs _ hst => step_inv hs hst
  have htrim := trimmed_of_reaches h
  have heach := releasedEach htrim t rs hnd (fun r hr => (hrs r).1 hr)
    fun r hr => (hinv.owned r t ((hrs r).1 hr)).trans hinv.node.symm
  have hall := htrim.releaseAllLocks H t
  refine ⟨hall.lookup_eq heach.trimmed ?_, heach.queues.symm, ?_, ?_, hall⟩
  · intro r
    have hleft := getResourceHolders_releaseAllLocks H rm t r
    have hright := heach.holders r
    by_cases hr : r ∈ rs
    · rw [if_pos hr] at hright
      exact hleft.trans hright.symm
    · rw [if_neg hr, ← erase_of_notMem fun ht => hr ((hrs r).2 ht)] at hright
      exact hleft.trans hright.symm
  · rw [heach.calls]
    exact releaseAllLocks_calls H rm t hnd hrs
  · intro r t' ht'
    rw [getResourceHolders_releaseAllLocks, lookup_erase_eq, if_neg ht']

/-- transaction 1 holds resources 7 and 8 of node 1, the first beside a reader, and writers wait for both -/
def twoHeldState : ResourceManager :=
  (run step (init 1) [.acquireLock 1 7 .shared, .acquireLock 2 7 .shared, .acquireLock 1 8 .exclusive,
    .acquireLock 3 7 .exclusive, .acquireLock 4 8 .exclusive]).get rfl

theorem mem_holders_twoHeldState (r : ResourceId) : r ∈ [7, 8] ↔ 1 ∈ twoHeldState.getResourceHolders r := by
  by_cases hr : r ∈ twoHeldState.resourceHolders
  · have hkeys : r ∈ [8, 7] := AList.mem_keys.1 hr
    fin_cases hkeys <;> decide
  · have hempty : twoHeldState.getResourceHolders r = ∅ := getD_of_notMem hr ∅
    have hkeys : r ∉ [8, 7] := fun h => hr (AList.mem_keys.2 h)
    rw [hempty]
    simp only [List.mem_cons, List.not_mem_nil, or_false] at hkeys ⊢
    exact iff_of_false (fun h => hkeys h.symm) (AList.notMem_empty 1)

theorem releaseAllLocks_releaseEach_two :
    (∀ r, (releaseAllLocks .stored twoHeldState 1).1.resourceHolders.lookup r =
      (releaseEach 1 twoHeldState [7, 8]).1.resourceHolders.lookup r) ∧
    (releaseAllLocks .stored twoHeldState 1).1.resourceWaitingQueues =
      (releaseEach 1 twoHeldState [7, 8]).1.resourceWaitingQueues ∧
    (releaseAllLocks .stored twoHeldState 1).2.Perm (releaseEach 1 twoHeldState [7, 8]).2 ∧
    (∀ r t', t' ≠ 1 → ((releaseAllLocks .stored twoHeldState 1).1.getResourceHolders r).lookup t' =
      (twoHeldState.getResourceHolders r).lookup t') ∧
    ∀ r hs, (releaseAllLocks .stored twoHeldState 1).1.resourceHolders.lookup r = some hs → hs.entries ≠ [] :=
  releaseAllLocks_releaseEach (n := 1) (ReachesBy.of_run (Option.some_get _).symm) .stored 1 (by decide)
    mem_holders_twoHeldState

end ResourceManager

end HawkTxn
