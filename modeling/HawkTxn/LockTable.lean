/-
The local wait-for graph of one node (`LockTable.h`, `LockTable.cpp`).

The builders walk the resources of the node. For each they read the holders, the front of the waiting queue and the
resource the front transaction says it waits for. Nobody behind the front is looked at, and a front that no longer
waits for the resource hides the whole queue.

Results:
- `edge_buildLocalWaitForGraph`: the edges of the graph;
- `complete_iff_front`: the graph is complete exactly when every blocked transaction with another holder is the front
  of its queue;
- `complete_unless_queued_behind`: complete in every run that never queues a transaction behind another one, or for an
  id outside the range that is walked.
-/
import HawkTxn.TransactionManager
import HawkTxn.WaitForGraph

namespace HawkTxn

open HawkTxn.Core UnorderedMap

namespace LockTable

/-! ## Model -/

/-- the front of the queue of a held resource, unless it waits for something else by now -/
def frontWaiter (tm : TransactionManager) (resId : ResourceId) : Option TransactionId :=
  if (tm.resourceManager.getResourceHolders resId).entries = [] then none
  else match tm.resourceManager.getResourceWaitingQueue resId with
    | [] => none
    | waitingTransId :: _ =>
      if tm.getTransactionWaitingFor waitingTransId ≠ resId then none else some waitingTransId

/-- one round of the builders' loop; `keep` tests the transactions that may be ends of an edge -/
def addWaitEdges (H : HashOrder) (keep : TransactionId → Bool) (tm : TransactionManager) (lwfg : WaitForGraph)
    (resId : ResourceId) : WaitForGraph :=
  match frontWaiter tm resId with
  | none => lwfg
  | some waitingTransId =>
    if keep waitingTransId = false then lwfg
    else (iter H (tm.resourceManager.getResourceHolders resId)).foldl (fun g holderPair =>
      if holderPair.1 ≠ waitingTransId ∧ keep holderPair.1 then pushBack g waitingTransId holderPair.1 else g) lwfg

def buildLocalWaitForGraph (H : HashOrder) (tm : TransactionManager) : WaitForGraph :=
  tm.resourceManager.getLocalResources.foldl (addWaitEdges H (fun _ => true) tm) ∅

def buildAndPruneLocalWaitForGraph (H : HashOrder) (tm : TransactionManager)
    (active_transaction_ids : List TransactionId) : WaitForGraph :=
  tm.resourceManager.getLocalResources.foldl
    (addWaitEdges H (fun t => decide (t ∈ active_transaction_ids)) tm) ∅

/-- the edge added for one holder; `activeTransactions.at` throws on an unknown transaction -/
def addCrossNodeEdge (tm : TransactionManager) (waitingTransId : TransactionId) (edges : List WFDEdge)
    (holderPair : TransactionId × LockMode) : Option (List WFDEdge) := do
  let waiting ← tm.getTransaction waitingTransId
  let holding ← tm.getTransaction holderPair.1
  if waiting.homeNodeId ≠ holding.homeNodeId then
    some (edges ++ [⟨waitingTransId, holderPair.1, waiting.homeNodeId, holding.homeNodeId⟩])
  else some edges

/-- `none`: an exception is thrown -/
def collectCrossNodeWFDEdges (H : HashOrder) (tm : TransactionManager) : Option (List WFDEdge) :=
  tm.resourceManager.getLocalResources.foldlM (fun edges resId =>
    match frontWaiter tm resId with
    | none => some edges
    | some waitingTransId =>
      (iter H (tm.resourceManager.getResourceHolders resId)).foldlM (addCrossNodeEdge tm waitingTransId) edges) []

/-! ## The edges of the local graphs -/

theorem frontWaiter_eq_some {tm : TransactionManager} {r : ResourceId} {w : TransactionId} :
    frontWaiter tm r = some w ↔ (tm.resourceManager.getResourceHolders r).entries ≠ [] ∧
      (tm.resourceManager.getResourceWaitingQueue r).head? = some w ∧ tm.getTransactionWaitingFor w = r := by
  unfold frontWaiter
  split_ifs with hemp
  · simp [hemp]
  · cases tm.resourceManager.getResourceWaitingQueue r with
    | nil => simp
    | cons f rest =>
      by_cases hf : tm.getTransactionWaitingFor f = r
      · simp only [hf, ne_eq, not_true_eq_false, if_false, Option.some.injEq, List.head?_cons]
        refine ⟨?_, ?_⟩
        · rintro rfl; exact ⟨hemp, rfl, hf⟩
        · exact fun h => h.2.1
      · simp only [hf, ne_eq, not_false_eq_true, if_true, List.head?_cons, Option.some.injEq]
        refine ⟨?_, ?_⟩
        · intro h; cases h
        · rintro ⟨-, rfl, hw⟩; exact absurd hw hf

/-- the edges one round adds, in order -/
def waitEdges (H : HashOrder) (keep : TransactionId → Bool) (tm : TransactionManager) (r : ResourceId) :
    List (TransactionId × TransactionId) :=
  match frontWaiter tm r with
  | none => []
  | some w =>
    if keep w = false then []
    else (((iter H (tm.resourceManager.getResourceHolders r)).map Prod.fst).filter fun h =>
      decide (h ≠ w ∧ keep h)).map fun h => (w, h)

theorem addWaitEdges_eq_pushAll (H : HashOrder) (keep : TransactionId → Bool) (tm : TransactionManager)
    (g : WaitForGraph) (r : ResourceId) : addWaitEdges H keep tm g r = pushAll g (waitEdges H keep tm r) := by
  unfold addWaitEdges waitEdges
  cases frontWaiter tm r with
  | none => rfl
  | some w =>
    by_cases hk : keep w = false
    · simp only [hk, if_true]; rfl
    · simp only [if_neg hk]
      rw [← foldl_pushBack_if, List.foldl_map]
      simp only [decide_eq_true_eq]

theorem mem_waitEdges {H : HashOrder} {keep : TransactionId → Bool} {tm : TransactionManager} {r : ResourceId}
    {w h : TransactionId} : (w, h) ∈ waitEdges H keep tm r ↔
      frontWaiter tm r = some w ∧ h ∈ tm.resourceManager.getResourceHolders r ∧ h ≠ w ∧ keep w ∧ keep h := by
  have hkeys : h ∈ (iter H (tm.resourceManager.getResourceHolders r)).map Prod.fst ↔
      h ∈ tm.resourceManager.getResourceHolders r := (iter_keys_perm H _).mem_iff
  unfold waitEdges
  cases frontWaiter tm r with
  | none => simp
  | some f =>
    simp only [Option.some.injEq]
    split_ifs with hk
    · simp only [List.not_mem_nil, false_iff]
      intro hedge
      obtain ⟨rfl, -, -, hw, -⟩ := hedge
      simp [hk] at hw
    · refine ⟨?_, ?_⟩
      · intro hm
        obtain ⟨h', hm', heq⟩ := List.mem_map.1 hm
        obtain ⟨h1, h2⟩ := List.mem_filter.1 hm'
        cases heq
        simp only [decide_eq_true_eq] at h2
        exact ⟨rfl, hkeys.1 h1, h2.1, by simpa using hk, h2.2⟩
      · intro hedge
        obtain ⟨rfl, h1, h2, -, h3⟩ := hedge
        exact List.mem_map.2 ⟨h, List.mem_filter.2 ⟨hkeys.2 h1, by simp [h2, h3]⟩, rfl⟩

/-- the edges of a builder: from the front of a queue that waits for the resource to the other holders -/
theorem edge_foldl_addWaitEdges {H : HashOrder} {keep : TransactionId → Bool} {tm : TransactionManager}
    {w h : TransactionId} :
    WaitForGraph.Edge (tm.resourceManager.getLocalResources.foldl (addWaitEdges H keep tm) ∅) w h ↔
      ∃ r ∈ tm.resourceManager.getLocalResources,
        (tm.resourceManager.getResourceWaitingQueue r).head? = some w ∧ tm.getTransactionWaitingFor w = r ∧
        h ∈ tm.resourceManager.getResourceHolders r ∧ h ≠ w ∧ keep w ∧ keep h := by
  have hfold : tm.resourceManager.getLocalResources.foldl (addWaitEdges H keep tm) ∅ =
      pushAll ∅ (tm.resourceManager.getLocalResources.flatMap (waitEdges H keep tm)) := by
    rw [← foldl_pushAll]
    exact congrArg (fun f => List.foldl f ∅ _) (funext fun g => funext fun r => addWaitEdges_eq_pushAll H keep tm g r)
  rw [hfold, WaitForGraph.Edge, mem_getD_pushAll, List.mem_flatMap]
  simp only [getD_empty, List.not_mem_nil, false_or, mem_waitEdges, frontWaiter_eq_some]
  refine exists_congr fun r => and_congr_right fun _ => ⟨fun h => ?_, fun h => ?_⟩
  · obtain ⟨⟨-, h1, h2⟩, h3⟩ := h
    exact ⟨h1, h2, h3⟩
  · obtain ⟨h1, h2, h3, h4⟩ := h
    exact ⟨⟨fun hemp => notMem_of_entries_nil hemp _ h3, h1, h2⟩, h3, h4⟩

theorem edge_buildLocalWaitForGraph {H : HashOrder} {tm : TransactionManager} {w h : TransactionId} :
    WaitForGraph.Edge (buildLocalWaitForGraph H tm) w h ↔
      ∃ r ∈ tm.resourceManager.getLocalResources,
        (tm.resourceManager.getResourceWaitingQueue r).head? = some w ∧ tm.getTransactionWaitingFor w = r ∧
        h ∈ tm.resourceManager.getResourceHolders r ∧ h ≠ w := by
  rw [buildLocalWaitForGraph, edge_foldl_addWaitEdges]
  simp

theorem edge_buildAndPruneLocalWaitForGraph {H : HashOrder} {tm : TransactionManager} {active : List TransactionId}
    {w h : TransactionId} :
    WaitForGraph.Edge (buildAndPruneLocalWaitForGraph H tm active) w h ↔
      WaitForGraph.Edge (buildLocalWaitForGraph H tm) w h ∧ w ∈ active ∧ h ∈ active := by
  rw [buildAndPruneLocalWaitForGraph, edge_foldl_addWaitEdges, edge_buildLocalWaitForGraph]
  simp only [decide_eq_true_eq]
  refine ⟨?_, ?_⟩
  · rintro ⟨r, hr, h1, h2, h3, h4, h5⟩; exact ⟨⟨r, hr, h1, h2, h3, h4⟩, h5⟩
  · rintro ⟨⟨r, hr, h1, h2, h3, h4⟩, h5⟩; exact ⟨r, hr, h1, h2, h3, h4, h5⟩

/-! ## Completeness -/

/-- w is blocked on a resource r of the node itself: it is in r's queue and says that it waits for r -/
structure BlockedOn (tm : TransactionManager) (w : TransactionId) (r : ResourceId) : Prop where
  active : ∃ txn, tm.activeTransactions.lookup w = some txn ∧ txn.status = .blocked ∧ txn.waitingForResourceId = r
  /-- local is what `acquireLock` takes for local, in the range that the builders walk or not -/
  owned : getOwnerNodeId r = tm.nodeId
  queued : w ∈ tm.resourceManager.getResourceWaitingQueue r

/-- every transaction blocked on a local resource has an edge to every other holder -/
def Complete (tm : TransactionManager) : Prop :=
  ∀ H w r h, BlockedOn tm w r → h ∈ tm.resourceManager.getResourceHolders r → h ≠ w →
    WaitForGraph.Edge (buildLocalWaitForGraph H tm) w h

/-- the step queues a transaction behind no other one, and for a resource that the builders walk -/
def QueuesFirst (tm : TransactionManager) (o : TransactionManager.Op) : Prop :=
  ∀ req ∈ o.request tm, tm.resourceManager.checkConflict req.2.1 req.2.2 = true →
    req.2.1 ∈ tm.resourceManager.getLocalResources ∧
      ∀ w ∈ tm.resourceManager.getResourceWaitingQueue req.2.1, w = req.1

/-- by its bounds, without listing the range -/
instance (rm : ResourceManager) (r : ResourceId) : Decidable (r ∈ rm.getLocalResources) :=
  decidable_of_iff _ ResourceManager.mem_getLocalResources.symm

instance (tm : TransactionManager) (o : TransactionManager.Op) : Decidable (QueuesFirst tm o) :=
  inferInstanceAs (Decidable (∀ req ∈ o.request tm, _))

theorem BlockedOn.waitingFor {tm : TransactionManager} {w : TransactionId} {r : ResourceId} (h : BlockedOn tm w r) :
    tm.getTransactionWaitingFor w = r := by
  obtain ⟨txn, htxn, -, hw⟩ := h.active
  simp only [TransactionManager.getTransactionWaitingFor, htxn, hw]

/-- a blocked transaction with another holder has its edges exactly when the builders come to the resource and it is the
front of the queue -/
theorem BlockedOn.edge_iff {tm : TransactionManager} {w h : TransactionId} {r : ResourceId} {H : HashOrder}
    (hb : BlockedOn tm w r) (hh : h ∈ tm.resourceManager.getResourceHolders r) (hne : h ≠ w) :
    WaitForGraph.Edge (buildLocalWaitForGraph H tm) w h ↔
      r ∈ tm.resourceManager.getLocalResources ∧ (tm.resourceManager.getResourceWaitingQueue r).head? = some w := by
  rw [edge_buildLocalWaitForGraph]
  refine ⟨?_, ?_⟩
  · intro hedge
    obtain ⟨r', hlocal, hfront, hw, -, -⟩ := hedge
    obtain rfl : r = r' := hb.waitingFor.symm.trans hw
    exact ⟨hlocal, hfront⟩
  · exact fun hscanned => ⟨r, hscanned.1, hscanned.2, hb.waitingFor, hh, hne⟩

theorem complete_iff_front (tm : TransactionManager) : Complete tm ↔
    ∀ w r, BlockedOn tm w r → (∃ h ∈ tm.resourceManager.getResourceHolders r, h ≠ w) →
      r ∈ tm.resourceManager.getLocalResources ∧ (tm.resourceManager.getResourceWaitingQueue r).head? = some w := by
  refine ⟨?_, ?_⟩
  · intro hc w r hb hother
    obtain ⟨h, hh, hne⟩ := hother
    exact (hb.edge_iff hh hne).1 (hc .stored w r h hb hh hne)
  · intro hf H w r h hb hh hne
    exact (hb.edge_iff hh hne).2 (hf w r hb ⟨h, hh, hne⟩)

/-- each waiting queue holds one transaction at most, perhaps several times, and is one the builders come to -/
structure Inv (tm : TransactionManager) : Prop where
  node : tm.resourceManager.nodeId = tm.nodeId
  scanned : ∀ r, tm.resourceManager.getResourceWaitingQueue r ≠ [] → r ∈ tm.resourceManager.getLocalResources
  uniform : ∀ r, ∀ w ∈ tm.resourceManager.getResourceWaitingQueue r,
    ∀ w' ∈ tm.resourceManager.getResourceWaitingQueue r, w = w'

theorem inv_init (n : NodeId) : Inv (TransactionManager.init n) where
  node := rfl
  scanned _ hq := absurd rfl hq
  uniform _ w hw := absurd hw (by simp [TransactionManager.init, ResourceManager.init,
    ResourceManager.getResourceWaitingQueue])

/-- the range depends on the node only -/
theorem getLocalResources_congr {rm rm' : ResourceManager} (h : rm'.nodeId = rm.nodeId) :
    rm'.getLocalResources = rm.getLocalResources := by
  rw [ResourceManager.getLocalResources, h, ResourceManager.getLocalResources]

theorem step_inv {tm tm' : TransactionManager} {o : TransactionManager.Op} (h : Inv tm) (hok : QueuesFirst tm o)
    (hst : tm.step o = some tm') : Inv tm' := by
  have hspec := TransactionManager.step_spec hst
  cases hreq : o.request tm with
  | none =>
    rw [hreq] at hspec
    refine ⟨by rw [hspec.rmNodeId, h.node, hspec.nodeId], ?_, ?_⟩
    · intro r hq
      rw [hspec.queues r] at hq
      rw [getLocalResources_congr hspec.rmNodeId]
      exact h.scanned r hq
    · intro r
      rw [hspec.queues r]; exact h.uniform r
  | some req =>
    obtain ⟨t, r, m⟩ := req
    rw [hreq] at hspec
    have hnode : tm'.resourceManager.nodeId = tm.resourceManager.nodeId := by simp [hspec.resourceManager]
    refine ⟨by simp [hnode, hspec.nodeId, h.node], ?_, ?_⟩
    · intro r' hq
      rw [hspec.resourceManager, ResourceManager.getResourceWaitingQueue_acquireLock] at hq
      rw [getLocalResources_congr hnode]
      split_ifs at hq with hr
      · obtain ⟨rfl, -, hconflict⟩ := hr
        exact (hok (t, r', m) hreq hconflict).1
      · exact h.scanned r' hq
    · intro r'
      rw [hspec.resourceManager, ResourceManager.getResourceWaitingQueue_acquireLock]
      split_ifs with hr
      · -- t joins a queue that holds nobody else
        have hqueue : ∀ w ∈ tm.resourceManager.getResourceWaitingQueue r ++ [t], w = t := by
          intro w hw
          rcases List.mem_append.1 hw with hw | hw
          · exact (hok (t, r, m) hreq hr.2.2).2 w hw
          · exact List.mem_singleton.1 hw
        exact fun w hw w' hw' => (hqueue w hw).trans (hqueue w' hw').symm
      · exact h.uniform r'

theorem Inv.complete {tm : TransactionManager} (h : Inv tm) : Complete tm := by
  rw [complete_iff_front]
  intro w r hb _
  refine ⟨h.scanned r (List.ne_nil_of_mem hb.queued), ?_⟩
  obtain ⟨f, rest, hq⟩ := List.exists_cons_of_ne_nil (List.ne_nil_of_mem hb.queued)
  rw [hq, List.head?_cons, h.uniform r f (by rw [hq]; exact List.mem_cons_self) w hb.queued]

/-- queueing t for a resource that a third transaction holds hides t's edges at once, if another one waits before it or
the builders do not come to the resource -/
theorem Inv.not_complete_of_queued {tm tm' : TransactionManager} {o : TransactionManager.Op} {t h : TransactionId}
    {r : ResourceId} {m : LockMode} (hinv : Inv tm) (hst : tm.step o = some tm')
    (hreq : o.request tm = some (t, r, m)) (hc : tm.resourceManager.checkConflict r m = true)
    (hhidden : r ∉ tm.resourceManager.getLocalResources ∨
      ∃ w ∈ tm.resourceManager.getResourceWaitingQueue r, w ≠ t)
    (hh : h ∈ tm.resourceManager.getResourceHolders r) (hht : h ≠ t) : ¬ Complete tm' := by
  have hspec := TransactionManager.step_spec hst
  rw [hreq] at hspec
  have hrefused : (tm.resourceManager.acquireLock t r m).1 = false := by
    by_contra hg
    have := (ResourceManager.acquireLock_granted (Bool.eq_true_of_not_eq_false hg)).2
    rw [hc] at this; cases this
  have hqueue : tm'.resourceManager.getResourceWaitingQueue r =
      tm.resourceManager.getResourceWaitingQueue r ++ [t] := by
    rw [hspec.resourceManager, ResourceManager.getResourceWaitingQueue_acquireLock,
      if_pos ⟨rfl, by rw [hspec.owner, hinv.node], hc⟩]
  have hholders : h ∈ tm'.resourceManager.getResourceHolders r := by
    rw [hspec.resourceManager, ResourceManager.getResourceHolders_acquireLock, hrefused]
    simpa using hh
  have hblocked : BlockedOn tm' t r :=
    ⟨hspec.refused hrefused, by rw [hspec.owner, hspec.nodeId], by rw [hqueue]; simp⟩
  intro hcomplete
  obtain ⟨hscanned, hfront⟩ := (complete_iff_front tm').1 hcomplete t r hblocked ⟨h, hholders, hht⟩
  rcases hhidden with hlocal | ⟨w, hw, hwt⟩
  · have hsame : tm'.resourceManager.getLocalResources = tm.resourceManager.getLocalResources :=
      getLocalResources_congr (by simp [hspec.resourceManager])
    exact hlocal (hsame ▸ hscanned)
  · obtain ⟨f, rest, hq⟩ := List.exists_cons_of_ne_nil (List.ne_nil_of_mem hw)
    have hfw : f = w := hinv.uniform r f (by rw [hq]; exact List.mem_cons_self) w hw
    rw [hqueue, hq, List.cons_append, List.head?_cons] at hfront
    exact hwt (hfw ▸ Option.some.inj hfront)

/-- **Completeness of the local wait-for graph.** In every run that never queues a transaction behind another one, or
for an id outside the range that the builders walk, the graph is complete in the state reached, and every cycle of
local waits is a cycle of the graph. The first step that does either, for a resource that a third transaction holds,
makes the graph incomplete. -/
theorem complete_unless_queued_behind {n : NodeId} {tm : TransactionManager}
    (h : ReachesBy TransactionManager.step QueuesFirst (TransactionManager.init n) tm) :
    (∀ H w r h, BlockedOn tm w r → h ∈ tm.resourceManager.getResourceHolders r → h ≠ w →
      WaitForGraph.Edge (buildLocalWaitForGraph H tm) w h) ∧
    (∀ H c, IsCycle (fun w h => ∃ r, BlockedOn tm w r ∧ h ∈ tm.resourceManager.getResourceHolders r ∧ h ≠ w) c →
      IsCycle (WaitForGraph.Edge (buildLocalWaitForGraph H tm)) c) ∧
    ∀ o tm' t r m, tm.step o = some tm' → o.request tm = some (t, r, m) →
      tm.resourceManager.checkConflict r m = true →
      (r ∉ tm.resourceManager.getLocalResources ∨ ∃ w ∈ tm.resourceManager.getResourceWaitingQueue r, w ≠ t) →
      (∃ h ∈ tm.resourceManager.getResourceHolders r, h ≠ t) → ¬ Complete tm' := by
  have hinv : Inv tm := h.invariant (inv_init n) fun _ _ _ hs hok hst => step_inv hs hok hst
  refine ⟨hinv.complete, fun H c hc => hc.mono ?_, ?_⟩
  · intro w h hwait
    obtain ⟨r, hb, hh, hne⟩ := hwait
    exact hinv.complete H w r h hb hh hne
  · intro o tm' t r m hst hreq hc hhidden hholds
    obtain ⟨h, hh, hht⟩ := hholds
    exact hinv.not_complete_of_queued hst hreq hc hhidden hh hht

/-- three writers of resource 5 on node 1 -/
def startWriters : List TransactionManager.Op :=
  [.beginControlledTransaction .quiet [⟨1, 1, [5], .exclusive⟩],
    .beginControlledTransaction .quiet [⟨2, 1, [5], .exclusive⟩],
    .beginControlledTransaction .quiet [⟨3, 1, [5], .exclusive⟩]]

/-- the first holds the lock and the second waits for it -/
def oneWaits : TransactionManager :=
  (runBy TransactionManager.step QueuesFirst (TransactionManager.init 1)
    (startWriters ++ [.tryExecuteNextSQLStatement .quiet 1, .tryExecuteNextSQLStatement .quiet 2])).get rfl

theorem complete_oneWaits : WaitForGraph.Edge (buildLocalWaitForGraph .stored oneWaits) 2 1 :=
  (complete_unless_queued_behind (ReachesBy.of_run (Option.some_get _).symm)).1 .stored 2 5 1
    ⟨⟨_, rfl, rfl, rfl⟩, by decide, by decide⟩ (by decide) (by decide)

/-- the third waits behind the second -/
def twoWait : TransactionManager :=
  (run TransactionManager.step (TransactionManager.init 1) (startWriters ++ [.tryExecuteNextSQLStatement .quiet 1,
    .tryExecuteNextSQLStatement .quiet 2, .tryExecuteNextSQLStatement .quiet 3])).get rfl

theorem twoWait_incomplete : ¬ ∀ n tm, Reaches TransactionManager.step (TransactionManager.init n) tm →
    ∀ H w r h, BlockedOn tm w r → h ∈ tm.resourceManager.getResourceHolders r → h ≠ w →
      WaitForGraph.Edge (buildLocalWaitForGraph H tm) w h := by
  intro hall
  have hblocked : BlockedOn twoWait 3 5 := ⟨⟨_, rfl, rfl, rfl⟩, by decide, by decide⟩
  have hholder : 1 ∈ twoWait.resourceManager.getResourceHolders 5 := by decide
  have hedge := hall 1 twoWait (ReachesBy.of_run (Option.some_get _).symm) .stored 3 5 1 hblocked hholder (by decide)
  exact absurd ((hblocked.edge_iff hholder (by decide)).1 hedge).2 (by decide)

end LockTable

end HawkTxn
