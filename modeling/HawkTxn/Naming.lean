/-
Names of transactions across nodes.

Every manager numbers its transactions from 1, so an id alone names a transaction only at its own node. A report carries
ids alone, and the graphs of several nodes are merged under them. A `Cluster` is the managers of all nodes, which act in
any order, with the reports built so far and the history of lock requests with their outcomes.

Results:
- `Inv`: an edge of a report goes from an id made to wait at its node to an id granted a lock there;
- `home_eq_node`: a transaction active at a node has that node as its home;
- `no_phantom_deadlock`: if no id was made to wait at one node and granted a lock at another one, merging reports makes
  no cycle and nobody is signalled.
-/
import HawkTxn.Resolution

namespace HawkTxn

open HawkTxn.Core UnorderedMap Relation

namespace Naming

/-! ## Model -/

/-- a local graph as one of the two builders of a manager builds it, and the iteration order of that node -/
structure Report where
  hash : HashOrder
  manager : TransactionManager
  /-- the ids to prune to, for the pruning builder -/
  active : Option (List TransactionId)

def Report.graph (rep : Report) : WaitForGraph :=
  match rep.active with
  | none => LockTable.buildLocalWaitForGraph rep.hash rep.manager
  | some active => LockTable.buildAndPruneLocalWaitForGraph rep.hash rep.manager active

def Report.data (rep : Report) : WfgDataPairs := WaitForGraph.convertWFGToMessageFormat rep.hash rep.graph

/-- a request for a lock of the node, and its outcome -/
structure Request where
  node : NodeId
  trans : TransactionId
  granted : Bool
deriving DecidableEq

structure Cluster where
  managers : NodeId → TransactionManager
  /-- built so far -/
  reports : List Report
  /-- made so far -/
  history : List Request

inductive Event : Type 1 where
  /-- node n performs an operation; the retry callback adds no transaction and changes no home node -/
  | operate (n : NodeId) (o : TransactionManager.Op) (keepsHomes : TransactionManager.KeepsHomes o.env)
  /-- node n builds a report -/
  | build (n : NodeId) (H : HashOrder) (active : Option (List TransactionId))

namespace Cluster

def init : Cluster := ⟨TransactionManager.init, [], []⟩

/-- would node n grant the request? -/
def grants (s : Cluster) (n : NodeId) (req : TransactionId × ResourceId × LockMode) : Bool :=
  ((s.managers n).resourceManager.acquireLock req.1 req.2.1 req.2.2).1

/-- the request an operation makes at node n -/
def requestOf (s : Cluster) (n : NodeId) (o : TransactionManager.Op) : List Request :=
  (o.request (s.managers n)).toList.map fun req => ⟨n, req.1, s.grants n req⟩

def step (s : Cluster) : Event → Option Cluster
  | .operate n o _ => ((s.managers n).step o).map fun tm =>
    { s with managers := Function.update s.managers n tm, history := s.requestOf n o ++ s.history }
  | .build n H active => some { s with reports := ⟨H, s.managers n, active⟩ :: s.reports }

end Cluster

/-- one request waits and the other one is granted, for one id, only at one node -/
def Request.Apart (a b : Request) : Prop := a.trans = b.trans → a.granted ≠ b.granted → a.node = b.node

instance (a b : Request) : Decidable (a.Apart b) := inferInstanceAs (Decidable (_ → _ → _))

/-- an id about to wait was granted no lock at another node, and one about to be granted a lock did not wait at
another node -/
def NamesApart (s : Cluster) : Event → Prop
  | .operate n o _ => ∀ req ∈ s.requestOf n o, ∀ old ∈ s.history, req.Apart old
  | .build .. => True

instance (s : Cluster) (ev : Event) : Decidable (NamesApart s ev) :=
  match ev with
  | .operate n o _ => inferInstanceAs (Decidable (∀ req ∈ s.requestOf n o, _))
  | .build .. => inferInstanceAs (Decidable True)

/-- the union of the local graphs over transactions named by their node and id -/
def UnionEdge (family : List Report) (x y : NodeId × TransactionId) : Prop :=
  ∃ rep ∈ family, rep.manager.nodeId = x.1 ∧ rep.manager.nodeId = y.1 ∧ rep.graph.Edge x.2 y.2

/-! ## The history of requests -/

theorem mem_requestOf {s : Cluster} {n : NodeId} {o : TransactionManager.Op} {req : Request} :
    req ∈ s.requestOf n o ↔ ∃ t r m, o.request (s.managers n) = some (t, r, m) ∧
      req = ⟨n, t, ((s.managers n).resourceManager.acquireLock t r m).1⟩ := by
  rw [Cluster.requestOf, List.mem_map]
  refine ⟨?_, ?_⟩
  · intro hmem
    obtain ⟨⟨t, r, m⟩, hreq, rfl⟩ := hmem
    exact ⟨t, r, m, Option.mem_toList.1 hreq, rfl⟩
  · intro hasked
    obtain ⟨t, r, m, hreq, rfl⟩ := hasked
    exact ⟨(t, r, m), Option.mem_toList.2 hreq, rfl⟩

/-- an edge of a local graph goes from a transaction in a queue of the node to a holder -/
theorem edge_report {rep : Report} {u v : TransactionId} (h : rep.graph.Edge u v) : ∃ r,
    u ∈ rep.manager.resourceManager.getResourceWaitingQueue r ∧
      v ∈ rep.manager.resourceManager.getResourceHolders r := by
  have hlocal : (LockTable.buildLocalWaitForGraph rep.hash rep.manager).Edge u v := by
    unfold Report.graph at h
    cases hactive : rep.active with
    | none => rw [hactive] at h; exact h
    | some active => rw [hactive] at h; exact (LockTable.edge_buildAndPruneLocalWaitForGraph.1 h).1
  obtain ⟨r, -, hfront, -, hholder, -⟩ := LockTable.edge_buildLocalWaitForGraph.1 hlocal
  exact ⟨r, List.mem_of_mem_head? hfront, hholder⟩

/-- the history accounts for the lock tables and for the reports -/
structure Inv (s : Cluster) : Prop where
  managers : ∀ n, TransactionManager.Inv n (s.managers n)
  holders : ∀ n r t, t ∈ (s.managers n).resourceManager.getResourceHolders r → ⟨n, t, true⟩ ∈ s.history
  queued : ∀ n r t, t ∈ (s.managers n).resourceManager.getResourceWaitingQueue r → ⟨n, t, false⟩ ∈ s.history
  reports : ∀ rep ∈ s.reports, ∀ u v, rep.graph.Edge u v →
    ⟨rep.manager.nodeId, u, false⟩ ∈ s.history ∧ ⟨rep.manager.nodeId, v, true⟩ ∈ s.history

theorem inv_init : Inv Cluster.init where
  managers := TransactionManager.inv_init
  holders n r t ht := by
    simp [Cluster.init, TransactionManager.init, ResourceManager.init, ResourceManager.getResourceHolders] at ht
  queued n r t ht := by
    simp [Cluster.init, TransactionManager.init, ResourceManager.init, ResourceManager.getResourceWaitingQueue] at ht
  reports rep hrep := absurd hrep List.not_mem_nil

theorem step_inv {s s' : Cluster} {ev : Event} (hinv : Inv s) (h : s.step ev = some s') : Inv s' := by
  cases ev with
  | build n H active =>
    cases h
    refine ⟨hinv.managers, hinv.holders, hinv.queued, ?_⟩
    intro rep hrep u v huv
    rcases List.mem_cons.1 hrep with rfl | hrep
    · obtain ⟨r, hu, hv⟩ := edge_report huv
      simp only [(hinv.managers n).node]
      exact ⟨hinv.queued n r u hu, hinv.holders n r v hv⟩
    · exact hinv.reports rep hrep u v huv
  | operate n o hkeeps =>
    obtain ⟨tm, htm, rfl⟩ := Option.map_eq_some_iff.1 h
    refine ⟨?_, ?_, ?_, ?_⟩
    · intro k
      by_cases hk : k = n
      · subst hk
        simp only [Function.update_self]
        exact TransactionManager.step_inv hkeeps (hinv.managers k) htm
      · simp only [Function.update_of_ne hk]
        exact hinv.managers k
    · intro k r t ht
      apply List.mem_append.2
      by_cases hk : k = n
      · subst hk
        simp only [Function.update_self] at ht
        rcases TransactionManager.mem_holders_of_step htm ht with ht | ⟨m, hreq, hgranted⟩
        · exact Or.inr (hinv.holders k r t ht)
        · exact Or.inl (mem_requestOf.2 ⟨t, r, m, hreq, by rw [hgranted]⟩)
      · simp only [Function.update_of_ne hk] at ht
        exact Or.inr (hinv.holders k r t ht)
    · intro k r t ht
      apply List.mem_append.2
      by_cases hk : k = n
      · subst hk
        simp only [Function.update_self] at ht
        rcases TransactionManager.mem_queue_of_step htm ht with ht | ⟨m, hreq, hrefused⟩
        · exact Or.inr (hinv.queued k r t ht)
        · exact Or.inl (mem_requestOf.2 ⟨t, r, m, hreq, by rw [hrefused]⟩)
      · simp only [Function.update_of_ne hk] at ht
        exact Or.inr (hinv.queued k r t ht)
    · intro rep hrep u v huv
      obtain ⟨hu, hv⟩ := hinv.reports rep hrep u v huv
      exact ⟨List.mem_append_right _ hu, List.mem_append_right _ hv⟩

theorem inv_of_reaches {ok : Cluster → Event → Prop} {s : Cluster} (h : ReachesBy Cluster.step ok Cluster.init s) :
    Inv s :=
  h.invariant inv_init fun _ _ _ hinv _ hst => step_inv hinv hst

/-- node and id name a transaction: the table of a node records that node as the home of its transactions -/
theorem home_eq_node {ok : Cluster → Event → Prop} {s : Cluster} (h : ReachesBy Cluster.step ok Cluster.init s)
    {n : NodeId} {t : TransactionId} (ht : t ∈ (s.managers n).activeTransactions) :
    (s.managers n).getTransactionHomeNode t = n := by
  obtain ⟨txn, htxn⟩ := mem_iff_lookup.1 ht
  simp only [TransactionManager.getTransactionHomeNode, htxn]
  exact (((inv_of_reaches h).managers n).homed t txn htxn).2

/-! ## Merging -/

/-- no id was made to wait at one node and granted a lock at another one -/
def Apart (s : Cluster) : Prop := ∀ a ∈ s.history, ∀ b ∈ s.history, a.Apart b

theorem Request.Apart.symm {a b : Request} (h : a.Apart b) : b.Apart a :=
  fun htrans hgranted => (h htrans.symm hgranted.symm).symm

theorem step_apart {s s' : Cluster} {ev : Event} (hapart : Apart s) (hok : NamesApart s ev)
    (h : s.step ev = some s') : Apart s' := by
  cases ev with
  | build n H active => cases h; exact hapart
  | operate n o hkeeps =>
    obtain ⟨tm, -, rfl⟩ := Option.map_eq_some_iff.1 h
    intro a ha b hb
    rcases List.mem_append.1 ha with ha | ha <;> rcases List.mem_append.1 hb with hb | hb
    · -- both are the request of this step
      obtain ⟨t, r, m, -, rfl⟩ := mem_requestOf.1 ha
      obtain ⟨t', r', m', -, rfl⟩ := mem_requestOf.1 hb
      exact fun _ _ => rfl
    · exact hok a ha b hb
    · exact (hok b hb a ha).symm
    · exact hapart a ha b hb

theorem apart_of_reaches {s : Cluster} (h : ReachesBy Cluster.step NamesApart Cluster.init s) : Apart s :=
  h.invariant (fun _ ha => absurd ha List.not_mem_nil) fun _ _ _ hapart hok hst => step_apart hapart hok hst

/-- the edges of the graph merged from a family of reports -/
theorem edge_merged {family : List Report} {u v : TransactionId} :
    (WaitForGraph.mergeReports (family.map Report.data)).Edge u v ↔ ∃ rep ∈ family, rep.graph.Edge u v := by
  rw [WaitForGraph.edge_mergeReports]
  refine ⟨?_, ?_⟩
  · intro hmerged
    obtain ⟨data, hdata, hedge⟩ := hmerged
    obtain ⟨rep, hrep, rfl⟩ := List.mem_map.1 hdata
    exact ⟨rep, hrep, WaitForGraph.edge_convert.1 hedge⟩
  · intro hreport
    obtain ⟨rep, hrep, hedge⟩ := hreport
    exact ⟨rep.data, List.mem_map_of_mem hrep, WaitForGraph.edge_convert.2 hedge⟩

/-- an edge of a report of node n in the family -/
def NodeEdge (family : List Report) (n : NodeId) (u v : TransactionId) : Prop :=
  ∃ rep ∈ family, rep.manager.nodeId = n ∧ rep.graph.Edge u v

theorem acyclic_merged {s : Cluster} {family : List Report} (hinv : Inv s) (hapart : Apart s)
    (hfamily : ∀ rep ∈ family, rep ∈ s.reports) (hacyclic : Acyclic (UnionEdge family)) :
    Acyclic (WaitForGraph.mergeReports (family.map Report.data)).Edge := by
  have hnode : ∀ u v, (WaitForGraph.mergeReports (family.map Report.data)).Edge u v →
      ∃ n, NodeEdge family n u v := by
    intro u v huv
    obtain ⟨rep, hrep, hedge⟩ := edge_merged.1 huv
    exact ⟨rep.manager.nodeId, rep, hrep, rfl, hedge⟩
  have hsame : ∀ i j u v w, NodeEdge family i u v → NodeEdge family j v w → i = j := by
    intro i j u v w hfirst hsecond
    obtain ⟨rep, hrep, rfl, huv⟩ := hfirst
    obtain ⟨rep', hrep', rfl, hvw⟩ := hsecond
    exact hapart _ (hinv.reports rep (hfamily rep hrep) u v huv).2 _
      (hinv.reports rep' (hfamily rep' hrep') v w hvw).1 rfl Bool.noConfusion
  -- a closed walk stays at one node, and there its ids name the same transactions
  intro x hx
  obtain ⟨n, hn⟩ := transGen_of_apart hsame (TransGen.mono hnode _ _ hx)
  refine hacyclic (n, x) (hn.lift (fun t => (n, t)) ?_)
  intro u v hedge
  obtain ⟨rep, hrep, hrepn, huv⟩ := hedge
  exact ⟨rep, hrep, hrepn, hrepn, huv⟩

/-- **No phantom deadlocks.** In every run in which no id is made to wait at one node and granted a lock at another
one: if the union of a family of reports is acyclic over transactions named by node and id, so is the graph merged from
them under ids alone, and no node that resolves the merged graph signals a transaction. -/
theorem no_phantom_deadlock {s : Cluster} (h : ReachesBy Cluster.step NamesApart Cluster.init s)
    {family : List Report} (hfamily : ∀ rep ∈ family, rep ∈ s.reports) (hacyclic : Acyclic (UnionEdge family)) :
    Acyclic (WaitForGraph.mergeReports (family.map Report.data)).Edge ∧
    ∀ E (nd : DistributedDBNode) leader res, nd.nodeId ≠ 0 → nd.transactionManager = s.managers nd.nodeId →
      (DistributedDBNode.checkAndResolveDeadlocks E nd (WaitForGraph.mergeReports (family.map Report.data)) = some res ∨
        DistributedDBNode.checkAndResolveDeadlocksForZone E nd leader
          (WaitForGraph.mergeReports (family.map Report.data)) = some res) →
      ∀ v n, ¬ Resolution.Signals res.1 v n := by
  have hinv : Inv s := inv_of_reaches h
  have hmerged := acyclic_merged hinv (apart_of_reaches h) hfamily hacyclic
  refine ⟨hmerged, ?_⟩
  intro E nd leader res hne htm hres v n hsig
  have hhome : nd.transactionManager.Homed fun _ => nd.nodeId := by
    rw [htm]
    exact fun t txn htxn => ⟨((hinv.managers nd.nodeId).homed t txn htxn).1,
      ((hinv.managers nd.nodeId).homed t txn htxn).2, hne⟩
  have hresolves : Resolution.Resolves nd (WaitForGraph.mergeReports (family.map Report.data))
      (fun _ => nd.nodeId) res.1 := by
    rcases hres with hres | hres
    · exact Resolution.resolves_checkAndResolveDeadlocks hhome hres
    · exact Resolution.resolves_checkAndResolveDeadlocksForZone hhome hres
  obtain ⟨c, hc, -⟩ := hresolves.sound v n hsig
  exact (hc.mono fun _ _ huv => huv.1).not_acyclic hmerged

/-- where no id both waited and was granted a lock at one node, no two edges follow each other -/
theorem acyclic_union {s : Cluster} {family : List Report} (hinv : Inv s) (hfamily : ∀ rep ∈ family, rep ∈ s.reports)
    (h : ∀ a ∈ s.history, ∀ b ∈ s.history, a.node = b.node → a.trans = b.trans → a.granted = b.granted) :
    Acyclic (UnionEdge family) := by
  apply acyclic_of_no_path
  intro x y z hfirst hsecond
  obtain ⟨rep, hrep, -, hxy, huv⟩ := hfirst
  obtain ⟨rep', hrep', hyz, -, hvw⟩ := hsecond
  have hholds := (hinv.reports rep (hfamily rep hrep) _ _ huv).2
  have hwaits := (hinv.reports rep' (hfamily rep' hrep') _ _ hvw).1
  exact Bool.noConfusion (h _ hholds _ hwaits (hxy.trans hyz.symm) rfl)

theorem keepsHomes_quiet : TransactionManager.KeepsHomes .quiet := fun _ _ _ _ txn h => ⟨txn, h, rfl⟩

/-- node n begins two transactions that want its resource r -/
def beginTwo (n : NodeId) (r : ResourceId) : List Event :=
  [.operate n (.beginControlledTransaction .quiet [⟨1, n, [r], .exclusive⟩]) keepsHomes_quiet,
    .operate n (.beginControlledTransaction .quiet [⟨2, n, [r], .exclusive⟩]) keepsHomes_quiet]

/-- at node n the transactions t and u ask for their locks, in this order, and the node reports -/
def askAndReport (n : NodeId) (t u : TransactionId) : List Event :=
  [.operate n (.tryExecuteNextSQLStatement .quiet t) keepsHomes_quiet,
    .operate n (.tryExecuteNextSQLStatement .quiet u) keepsHomes_quiet, .build n .stored none]

/-- at both nodes transaction 2 waits for transaction 1 -/
def sameOrder : Cluster :=
  (runBy Cluster.step NamesApart Cluster.init
    (beginTwo 1 5 ++ beginTwo 2 1005 ++ askAndReport 1 1 2 ++ askAndReport 2 1 2)).get rfl

/-- at node 1 transaction 1 waits for transaction 2, at node 2 its own transaction 2 for its own transaction 1 -/
def crossed : Cluster :=
  (run Cluster.step Cluster.init (beginTwo 1 5 ++ beginTwo 2 1005 ++ askAndReport 1 2 1 ++ askAndReport 2 1 2)).get rfl

theorem no_phantom_deadlock_sameOrder :
    Acyclic (WaitForGraph.mergeReports (sameOrder.reports.map Report.data)).Edge :=
  have hreaches : ReachesBy Cluster.step NamesApart Cluster.init sameOrder := .of_run (Option.some_get _).symm
  (no_phantom_deadlock hreaches (fun _ hrep => hrep)
    (acyclic_union (inv_of_reaches hreaches) (fun _ hrep => hrep) (by decide))).1

theorem crossed_phantom : ¬ ∀ s, Reaches Cluster.step Cluster.init s → ∀ family : List Report,
    (∀ rep ∈ family, rep ∈ s.reports) → Acyclic (UnionEdge family) →
    Acyclic (WaitForGraph.mergeReports (family.map Report.data)).Edge := by
  intro hall
  have hreaches : Reaches Cluster.step Cluster.init crossed := .of_run (Option.some_get _).symm
  have hmerged := hall crossed hreaches crossed.reports (fun _ hrep => hrep)
    (acyclic_union (inv_of_reaches hreaches) (fun _ hrep => hrep) (by decide))
  have hlocal1 : 5 ∈ (crossed.managers 1).resourceManager.getLocalResources :=
    ResourceManager.mem_getLocalResources.2 (by decide)
  have hlocal2 : 1005 ∈ (crossed.managers 2).resourceManager.getLocalResources :=
    ResourceManager.mem_getLocalResources.2 (by decide)
  have hat1 : (⟨.stored, crossed.managers 1, none⟩ : Report).graph.Edge 1 2 :=
    LockTable.edge_buildLocalWaitForGraph.2 ⟨5, hlocal1, by decide, by decide, by decide, by decide⟩
  have hat2 : (⟨.stored, crossed.managers 2, none⟩ : Report).graph.Edge 2 1 :=
    LockTable.edge_buildLocalWaitForGraph.2 ⟨1005, hlocal2, by decide, by decide, by decide, by decide⟩
  have h12 : (WaitForGraph.mergeReports (crossed.reports.map Report.data)).Edge 1 2 :=
    edge_merged.2 ⟨_, List.mem_cons_of_mem _ List.mem_cons_self, hat1⟩
  have h21 : (WaitForGraph.mergeReports (crossed.reports.map Report.data)).Edge 2 1 :=
    edge_merged.2 ⟨_, List.mem_cons_self, hat2⟩
  exact hmerged 1 (.tail (.single h12) h21)

end Naming

end HawkTxn
