/-
What a resolver sends for the graph it is given.

Both resolvers prune the graph to the transactions active at the node itself before they search it. A cycle is seen
exactly when all its members are active there, and the signal for a victim goes to the home node the table records.

Results:
- `resolves_checkAndResolveDeadlocks`, `resolves_checkAndResolveDeadlocksForZone`: a resolver signals members of cycles
  among its own active transactions only, and one in every component of them that has a cycle;
- `resolved_iff`: the central node resolves every deadlock exactly when every component with a deadlock has a cycle
  among the central node's own transactions;
- `rounds_resolve`: what a round of resolution at one node leaves of a graph, and what repeated rounds leave.
-/
import HawkTxn.DistributedDBNode

namespace HawkTxn

open HawkTxn.Core UnorderedMap Relation

namespace Resolution

open DistributedDBNode

/-- an edge between two transactions active at the node -/
def ActiveEdge (nd : DistributedDBNode) (graph : WaitForGraph) (u v : TransactionId) : Prop :=
  graph.Edge u v ∧ u ∈ nd.transactionManager.activeTransactions ∧ v ∈ nd.transactionManager.activeTransactions

/-- an ABORT_TRANSACTION_SIGNAL naming v goes to node n -/
def Signals (sent : List NetworkMessage) (v : TransactionId) (n : NodeId) : Prop :=
  ∃ m ∈ sent, m.type = .abortTransactionSignal ∧ v ∈ m.deadlockedTransactions ∧ m.receiverId = n

theorem signals_append {l l' : List NetworkMessage} {v : TransactionId} {n : NodeId} :
    Signals (l ++ l') v n ↔ Signals l v n ∨ Signals l' v n := by
  simp only [Signals, List.mem_append, or_and_right, exists_or]

/-- messages of other types signal nobody -/
theorem not_signals_of_types {types : List NetworkMessageType} {sent : List NetworkMessage} (h : OfTypes types sent)
    (hno : .abortTransactionSignal ∉ types) (v : TransactionId) (n : NodeId) : ¬ Signals sent v n := by
  intro hsignal
  obtain ⟨m, hm, htype, -⟩ := hsignal
  exact hno (htype ▸ h m hm)

/-- the signals of `abortSignals` -/
theorem signals_abortSignals {E : Env} {nd : DistributedDBNode} {victimId v : TransactionId} {n : NodeId} :
    Signals (abortSignals E nd victimId) v n ↔
      v = victimId ∧ n = nd.transactionManager.getTransactionHomeNode victimId ∧ n ≠ 0 := by
  unfold abortSignals
  split_ifs with h
  · simp only [Signals, List.mem_singleton, exists_eq_left, abortMsg, true_and]
    refine ⟨?_, ?_⟩
    · rintro ⟨hv, rfl⟩; exact ⟨hv, rfl, h⟩
    · rintro ⟨hv, hn, -⟩; exact ⟨hv, hn.symm⟩
  · simp only [Signals, List.not_mem_nil, false_and, exists_false, false_iff]
    intro hv
    obtain ⟨-, rfl, hn⟩ := hv
    exact h hn

/-- with a victim for every cycle the loop does not throw, and signals exactly the victims -/
theorem resolveCycles_spec {E : Env} {nd : DistributedDBNode} {frequency : UnorderedMap TransactionId ℤ}
    {cycles : List (List TransactionId)}
    (h : ∀ c ∈ cycles, ∃ victimId, DeadlockDetector.selectVictim c frequency = some victimId) :
    (resolveCycles E nd frequency cycles).2 = false ∧
    ∀ v n, Signals (resolveCycles E nd frequency cycles).1 v n ↔
      (∃ c ∈ cycles, DeadlockDetector.selectVictim c frequency = some v) ∧
        n = nd.transactionManager.getTransactionHomeNode v ∧ n ≠ 0 := by
  induction cycles with
  | nil => exact ⟨rfl, fun v n => by simp [resolveCycles, Signals]⟩
  | cons cycle cycles ih =>
    obtain ⟨victimId, hvictim⟩ := h cycle List.mem_cons_self
    obtain ⟨hthrew, hsignals⟩ := ih fun c hc => h c (List.mem_cons_of_mem cycle hc)
    unfold resolveCycles
    simp only [hvictim]
    refine ⟨hthrew, ?_⟩
    intro v n
    rw [signals_append, hsignals, signals_abortSignals]
    refine ⟨?_, ?_⟩
    · intro hsignal
      rcases hsignal with ⟨rfl, hn⟩ | ⟨⟨c, hc, hv⟩, hn⟩
      · exact ⟨⟨cycle, List.mem_cons_self, hvictim⟩, hn⟩
      · exact ⟨⟨c, List.mem_cons_of_mem cycle hc, hv⟩, hn⟩
    · intro hvictim
      obtain ⟨⟨c, hc, hv⟩, hn⟩ := hvictim
      rcases List.mem_cons.1 hc with rfl | hc
      · rw [hvictim] at hv
        cases hv
        exact Or.inl ⟨rfl, hn⟩
      · exact Or.inr ⟨⟨c, hc, hv⟩, hn⟩

/-- a resolver signals members of cycles among its own active transactions only, to the home node of the member, and
one in every component of these that has a cycle -/
structure Resolves (nd : DistributedDBNode) (graph : WaitForGraph) (home : TransactionId → NodeId)
    (sent : List NetworkMessage) : Prop where
  sound : ∀ v n, Signals sent v n → ∃ c, IsCycle (ActiveEdge nd graph) c ∧ v ∈ c
  complete : ∀ x, TransGen (ActiveEdge nd graph) x x →
    ∃ c, IsCycle (ActiveEdge nd graph) c ∧ ∃ v ∈ c, SameComponent (ActiveEdge nd graph) x v ∧ Signals sent v (home v)

section Resolver

variable {E : Env} {nd : DistributedDBNode} {graph : WaitForGraph} {home : TransactionId → NodeId}
  {onEmpty : List NetworkMessage} {report : WaitForGraph → List (List TransactionId) → List NetworkMessage}
  {res : List NetworkMessage × Bool}

/-- a resolver that returns does not throw; it sends `onEmpty`, or signals for the cycles found and the report -/
theorem pruneAndResolve_cases (h : pruneAndResolve E nd graph onEmpty report = some res) :
    let pruned := WaitForGraph.pruneActive E.hash (nd.transactionManager.getActiveTransactions E.hash) graph
    res.2 = false ∧ ((pruned.entries = [] ∧ res.1 = onEmpty) ∨
      ∃ cycles frequency, DeadlockDetector.findCycles E.hash E.fuel pruned = some (cycles, frequency) ∧
        res.1 = (resolveCycles E nd frequency cycles).1 ++ report pruned cycles) := by
  intro pruned
  unfold pruneAndResolve at h
  by_cases hp : pruned.entries = []
  · rw [if_pos hp] at h
    cases h
    exact ⟨rfl, Or.inl ⟨hp, rfl⟩⟩
  · rw [if_neg hp] at h
    obtain ⟨⟨cycles, frequency⟩, hfound, h⟩ := Option.bind_eq_some_iff.1 h
    have hthrew : (resolveCycles E nd frequency cycles).2 = false :=
      (resolveCycles_spec (DeadlockDetector.findCycles_victim hfound)).1
    simp only [hthrew, Bool.false_eq_true, if_false] at h
    cases h
    exact ⟨rfl, Or.inr ⟨cycles, frequency, hfound, rfl⟩⟩

theorem checkAndResolveDeadlocks_threw (h : checkAndResolveDeadlocks E nd graph = some res) : res.2 = false :=
  (pruneAndResolve_cases h).1

theorem checkAndResolveDeadlocksForZone_threw {leader : NodeId}
    (h : checkAndResolveDeadlocksForZone E nd leader graph = some res) : res.2 = false := by
  unfold checkAndResolveDeadlocksForZone at h
  exact (pruneAndResolve_cases h).1

theorem edge_pruned :
    (WaitForGraph.pruneActive E.hash (nd.transactionManager.getActiveTransactions E.hash) graph).Edge =
      ActiveEdge nd graph := by
  funext u v
  rw [WaitForGraph.edge_pruneActive, TransactionManager.mem_getActiveTransactions,
    TransactionManager.mem_getActiveTransactions]
  rfl

/-- between transactions active at the node there are positive ids only -/
theorem pos_pruned (hhome : nd.transactionManager.Homed home) (u v : TransactionId)
    (huv : (WaitForGraph.pruneActive E.hash (nd.transactionManager.getActiveTransactions E.hash) graph).Edge u v) :
    0 < v := by
  rw [edge_pruned] at huv
  exact hhome.pos huv.2.2

/-- the cycles reported are cycles among the transactions active at the node -/
theorem isCycle_reported (hhome : nd.transactionManager.Homed home) {cycles : List (List TransactionId)}
    {frequency : UnorderedMap TransactionId ℤ} (hfound : DeadlockDetector.findCycles E.hash E.fuel
      (WaitForGraph.pruneActive E.hash (nd.transactionManager.getActiveTransactions E.hash) graph) =
        some (cycles, frequency)) : ∀ c ∈ cycles, IsCycle (ActiveEdge nd graph) c := by
  have hsound := DeadlockDetector.findCycles_sound (pos_pruned hhome) hfound
  rw [edge_pruned] at hsound
  exact hsound

/-- the members of a cycle among active transactions are active -/
theorem active_of_isCycle {c : List TransactionId} (h : IsCycle (ActiveEdge nd graph) c) :
    ∀ y ∈ c, y ∈ nd.transactionManager.activeTransactions := by
  intro y hy
  obtain ⟨z, -, hyz⟩ := h.exists_succ hy
  exact hyz.2.1

/-- who is signalled: the victims of the reported cycles -/
theorem signals_pruneAndResolve (hhome : nd.transactionManager.Homed home)
    (h : pruneAndResolve E nd graph onEmpty report = some res)
    (hempty : OfTypes [.centralWfgReportFromZone, .deadlockReportToClient] onEmpty)
    (hreport : ∀ pruned cycles, OfTypes [.centralWfgReportFromZone, .deadlockReportToClient] (report pruned cycles))
    {cycles : List (List TransactionId)} {frequency : UnorderedMap TransactionId ℤ}
    (hfound : DeadlockDetector.findCycles E.hash E.fuel
      (WaitForGraph.pruneActive E.hash (nd.transactionManager.getActiveTransactions E.hash) graph) =
        some (cycles, frequency)) (v : TransactionId) (n : NodeId) :
    Signals res.1 v n ↔ (∃ c ∈ cycles, DeadlockDetector.selectVictim c frequency = some v) ∧ n = home v := by
  -- a victim is active here, so the table knows its home node
  have hvictim : ∀ c ∈ cycles, DeadlockDetector.selectVictim c frequency = some v →
      nd.transactionManager.getTransactionHomeNode v = home v ∧ home v ≠ 0 := by
    intro c hc hv
    have hactive := active_of_isCycle (isCycle_reported hhome hfound c hc) v (DeadlockDetector.selectVictim_mem hv)
    exact hhome.getTransactionHomeNode hactive
  obtain ⟨-, ⟨hnil, hsent⟩ | ⟨cycles', frequency', hfound', hsent⟩⟩ := pruneAndResolve_cases h
  · rw [hsent]
    apply iff_of_false (not_signals_of_types hempty (by decide) v n)
    intro h
    obtain ⟨⟨c, hc, -⟩, -⟩ := h
    obtain ⟨x, hx⟩ := (isCycle_reported hhome hfound c hc).exists_mem
    obtain ⟨y, -, hxy⟩ := (isCycle_reported hhome hfound c hc).exists_succ hx
    rw [← edge_pruned (E := E)] at hxy
    exact WaitForGraph.not_edge_of_entries_nil hnil x y hxy
  · obtain ⟨rfl, rfl⟩ : cycles' = cycles ∧ frequency' = frequency :=
      Prod.ext_iff.1 (Option.some.inj (hfound'.symm.trans hfound))
    rw [hsent, signals_append, or_iff_left (not_signals_of_types (hreport _ _) (by decide) v n),
      (resolveCycles_spec (DeadlockDetector.findCycles_victim hfound)).2]
    refine ⟨?_, ?_⟩
    · intro hsignal
      obtain ⟨⟨c, hc, hv⟩, hn, -⟩ := hsignal
      exact ⟨⟨c, hc, hv⟩, hn.trans (hvictim c hc hv).1⟩
    · intro hselected
      obtain ⟨⟨c, hc, hv⟩, rfl⟩ := hselected
      exact ⟨⟨c, hc, hv⟩, (hvictim c hc hv).1.symm, (hvictim c hc hv).2⟩

theorem resolves_pruneAndResolve (hhome : nd.transactionManager.Homed home)
    (h : pruneAndResolve E nd graph onEmpty report = some res)
    (hempty : OfTypes [.centralWfgReportFromZone, .deadlockReportToClient] onEmpty)
    (hreport : ∀ pruned cycles, OfTypes [.centralWfgReportFromZone, .deadlockReportToClient] (report pruned cycles)) :
    Resolves nd graph home res.1 := by
  obtain ⟨-, ⟨hnil, hsent⟩ | ⟨cycles, frequency, hfound, -⟩⟩ := pruneAndResolve_cases h
  · rw [hsent]
    refine ⟨fun v n hsig => absurd hsig (not_signals_of_types hempty (by decide) v n), ?_⟩
    intro x hx
    obtain ⟨y, hxy, -⟩ := exists_edge_sameComponent hx
    rw [← edge_pruned (E := E)] at hxy
    exact absurd hxy (WaitForGraph.not_edge_of_entries_nil hnil x y)
  · have hsignals := signals_pruneAndResolve hhome h hempty hreport hfound
    have hsound := isCycle_reported hhome hfound
    refine ⟨?_, ?_⟩
    · intro v n hsig
      obtain ⟨⟨c, hc, hv⟩, -⟩ := (hsignals v n).1 hsig
      exact ⟨c, hsound c hc, DeadlockDetector.selectVictim_mem hv⟩
    · intro x hx
      rw [← edge_pruned (E := E)] at hx
      obtain ⟨c, hc, hcomp⟩ := DeadlockDetector.findCycles_component (pos_pruned hhome) hfound hx
      rw [edge_pruned] at hcomp
      obtain ⟨v, hv⟩ := DeadlockDetector.findCycles_victim hfound c hc
      have hvc : v ∈ c := DeadlockDetector.selectVictim_mem hv
      exact ⟨c, hsound c hc, v, hvc, hcomp v hvc, (hsignals v (home v)).2 ⟨⟨c, hc, hv⟩, rfl⟩⟩

/-- the report to the client signals nobody -/
theorem ofTypes_clientReport (E : Env) (nd : DistributedDBNode) (cycles : List (List TransactionId)) :
    OfTypes [.centralWfgReportFromZone, .deadlockReportToClient]
      (if nd.isCentralizedNode then [reportToClientMsg E nd 0 cycles cycles.length] else []) := by
  split_ifs
  · exact ofTypes_reportToClientMsg _ _ (by decide) _ _ _
  · exact ofTypes_nil

theorem resolves_checkAndResolveDeadlocks (hhome : nd.transactionManager.Homed home)
    (h : checkAndResolveDeadlocks E nd graph = some res) : Resolves nd graph home res.1 :=
  resolves_pruneAndResolve hhome h ofTypes_nil fun _ cycles => ofTypes_clientReport E nd cycles

theorem resolves_checkAndResolveDeadlocksForZone {leader : NodeId} (hhome : nd.transactionManager.Homed home)
    (h : checkAndResolveDeadlocksForZone E nd leader graph = some res) : Resolves nd graph home res.1 := by
  unfold checkAndResolveDeadlocksForZone at h
  refine resolves_pruneAndResolve hhome h ?_ fun pruned cycles => ?_ <;> split_ifs
  · exact ofTypes_singleton.2 (by simp [requestMsg])
  · exact ofTypes_nil
  · exact ofTypes_singleton.2 (by simp [requestMsg])
  · exact ofTypes_nil

end Resolver

/-- who is signalled is a member of a cycle among the resolver's active transactions -/
theorem Resolves.exists_cycle {nd : DistributedDBNode} {graph : WaitForGraph} {home : TransactionId → NodeId}
    {sent : List NetworkMessage} (hres : Resolves nd graph home sent) {v : TransactionId} {n : NodeId}
    (hsig : Signals sent v n) :
    ∃ c, IsCycle graph.Edge c ∧ v ∈ c ∧ ∀ y ∈ c, y ∈ nd.transactionManager.activeTransactions := by
  obtain ⟨c, hc, hv⟩ := hres.sound v n hsig
  exact ⟨c, hc.mono fun _ _ huv => huv.1, hv, active_of_isCycle hc⟩

/-- a cycle among the resolver's active transactions has a member signalled of a cycle in its component -/
theorem Resolves.exists_signal {nd : DistributedDBNode} {graph : WaitForGraph} {home : TransactionId → NodeId}
    {sent : List NetworkMessage} (hres : Resolves nd graph home sent) {c : List TransactionId}
    (hc : IsCycle graph.Edge c) (hactive : ∀ y ∈ c, y ∈ nd.transactionManager.activeTransactions)
    {x : TransactionId} (hx : x ∈ c) :
    ∃ c', IsCycle graph.Edge c' ∧ ∃ v ∈ c', SameComponent graph.Edge x v ∧ Signals sent v (home v) := by
  have hsub : ∀ u v, ActiveEdge nd graph u v → graph.Edge u v := fun _ _ huv => huv.1
  obtain ⟨c', hc', v, hv, hxv, hsig⟩ := hres.complete x ((hc.restrict hactive).transGen hx hx)
  exact ⟨c', hc'.mono hsub, v, hv, hxv.mono hsub, hsig⟩

/-! ## The central node -/

/-- a signal names a member of a cycle in c's component and goes to that member's home node -/
def Resolved (graph : WaitForGraph) (home : TransactionId → NodeId) (sent : List NetworkMessage)
    (c : List TransactionId) : Prop :=
  ∃ c', IsCycle graph.Edge c' ∧ (∀ x ∈ c, ∀ y ∈ c', SameComponent graph.Edge x y) ∧ ∃ v ∈ c', Signals sent v (home v)

/-- **Global resolution.** Let `home` assign home nodes, `tms` be the managers of the nodes, and the resolver of `nd`
return. It resolves every cycle whose members are active at their home nodes exactly when every such cycle has in its
component a cycle whose members are all active at `nd` itself. -/
theorem resolved_iff {E : Env} {nd : DistributedDBNode} {graph : WaitForGraph} {home : TransactionId → NodeId}
    {res : List NetworkMessage × Bool} (tms : NodeId → TransactionManager)
    (hhome : nd.transactionManager.Homed home) (h : checkAndResolveDeadlocks E nd graph = some res) :
    (∀ c, IsCycle graph.Edge c → (∀ t ∈ c, t ∈ (tms (home t)).activeTransactions) → Resolved graph home res.1 c) ↔
    ∀ c, IsCycle graph.Edge c → (∀ t ∈ c, t ∈ (tms (home t)).activeTransactions) →
      ∃ c', IsCycle graph.Edge c' ∧ (∀ x ∈ c, ∀ y ∈ c', SameComponent graph.Edge x y) ∧
        ∀ y ∈ c', y ∈ nd.transactionManager.activeTransactions := by
  have hres : Resolves nd graph home res.1 := resolves_checkAndResolveDeadlocks hhome h
  refine forall_congr' fun c => imp_congr_right fun _ => imp_congr_right fun _ => ⟨?_, ?_⟩
  · intro hresolved
    obtain ⟨c', -, hcomp, v, hv, hsig⟩ := hresolved
    obtain ⟨c'', hc'', hv', hactive⟩ := hres.exists_cycle hsig
    have hsame : ∀ x ∈ c, ∀ y ∈ c'', SameComponent graph.Edge x y := by
      intro x hx y hy
      calc
        SameComponent graph.Edge x v := hcomp x hx v hv
        SameComponent graph.Edge v y := hc''.sameComponent hv' hy
    exact ⟨c'', hc'', hsame, hactive⟩
  · intro hcycle
    obtain ⟨c', hc', hcomp, hactive⟩ := hcycle
    obtain ⟨x', hx'⟩ := hc'.exists_mem
    obtain ⟨c'', hc'', v, hv, hxv, hsig⟩ := hres.exists_signal hc' hactive hx'
    have hsame : ∀ x ∈ c, ∀ y ∈ c'', SameComponent graph.Edge x y := by
      intro x hx y hy
      calc
        SameComponent graph.Edge x x' := hcomp x hx x' hx'
        SameComponent graph.Edge x' v := hxv
        SameComponent graph.Edge v y := hc''.sameComponent hv hy
    exact ⟨c'', hc'', hsame, v, hv, hsig⟩

/-- two transactions that wait for each other -/
def mutualWait : WaitForGraph := pushAll ∅ [(1, 2), (2, 1)]

/-- a manager that has begun `count` transactions -/
def begun (n : NodeId) : ℕ → TransactionManager
  | 0 => TransactionManager.init n
  | count + 1 => (begun n count).beginControlledTransaction .quiet []

theorem homed_begun {n : NodeId} (hn : n ≠ 0) (count : ℕ) : (begun n count).Homed fun _ => n := by
  have hquiet : TransactionManager.KeepsHomes .quiet := fun _ _ _ _ txn h => ⟨txn, h, rfl⟩
  apply TransactionManager.homed_of_reaches hn
  induction count with
  | zero => exact .start
  | succ count ih => exact ih.next (a := .beginControlledTransaction .quiet []) hquiet rfl

/-- node 1 of a cluster of two, after it has begun `count` transactions -/
def central (count : ℕ) : DistributedDBNode :=
  { DistributedDBNode.init 1 2 0 with transactionManager := begun 1 count }

theorem isCycle_mutualWait : IsCycle mutualWait.Edge [1, 2] := ⟨by decide, by decide, by simp; decide, by decide⟩

theorem resolved_bothAtCentral :
    Resolved mutualWait (fun _ => 1) ((checkAndResolveDeadlocks .quiet (central 2) mutualWait).get rfl).1 [1, 2] :=
  (resolved_iff (fun _ => begun 1 2) (homed_begun (by decide) 2) (Option.some_get _).symm).2
    (fun c hc hactive => ⟨c, hc, fun _ hx _ hy => hc.sameComponent hx hy, hactive⟩) [1, 2] isCycle_mutualWait
    (by decide)

theorem mutualWait_unresolved : ¬ ∀ E (nd : DistributedDBNode) graph home res (tms : NodeId → TransactionManager),
    nd.isCentralizedNode = true → nd.transactionManager.Homed home → checkAndResolveDeadlocks E nd graph = some res →
    ∀ c, IsCycle graph.Edge c → (∀ t ∈ c, t ∈ (tms (home t)).activeTransactions) → Resolved graph home res.1 c := by
  intro hall
  -- the second transaction of the cycle runs at node 2
  have hhome : (central 1).transactionManager.Homed fun t => if t = 2 then 2 else 1 := by
    intro t txn ht
    by_cases h2 : t = 2
    · subst h2; cases ht
    · simp only [if_neg h2]; exact homed_begun (by decide) 1 t txn ht
  obtain ⟨c, -, -, v, -, m, hm, -⟩ := hall .quiet (central 1) mutualWait _ ([], false)
    (fun n => begun n (if n = 2 then 2 else 1)) rfl hhome rfl [1, 2] isCycle_mutualWait (by decide)
  cases hm

/-! ## Rounds of resolution -/

/-- a signal of the resolver names v -/
def Victim (sent : List NetworkMessage) (v : TransactionId) : Prop := ∃ n, Signals sent v n

/-- an edge between transactions that are no victims -/
def LeftEdge (graph : WaitForGraph) (sent : List NetworkMessage) (u v : TransactionId) : Prop :=
  graph.Edge u v ∧ ¬ Victim sent u ∧ ¬ Victim sent v

/-- every transaction of the graph is active at the node -/
def AllActive (nd : DistributedDBNode) (graph : WaitForGraph) : Prop :=
  ∀ u v, graph.Edge u v → u ∈ nd.transactionManager.activeTransactions ∧ v ∈ nd.transactionManager.activeTransactions

/-- a resolver at which every transaction of `graph` is active takes its victims out and leaves `graph'` -/
def Round (graph graph' : WaitForGraph) : Prop :=
  ∃ E nd home res, TransactionManager.Homed (DistributedDBNode.transactionManager nd) home ∧ AllActive nd graph ∧
    checkAndResolveDeadlocks E nd graph = some res ∧ ∀ u v, graph'.Edge u v ↔ LeftEdge graph res.1 u v

section Round

variable {E : Env} {nd : DistributedDBNode} {graph : WaitForGraph} {home : TransactionId → NodeId}
  {res : List NetworkMessage × Bool}

theorem activeEdge_of_allActive (hactive : AllActive nd graph) : ActiveEdge nd graph = graph.Edge := by
  funext u v
  exact propext ⟨fun h => h.1, fun h => ⟨h, hactive u v h⟩⟩

/-- no victim is on a closed walk of what is left -/
theorem not_transGen_leftEdge {sent : List NetworkMessage} {v : TransactionId} (hv : Victim sent v) :
    ¬ TransGen (LeftEdge graph sent) v v := by
  intro hwalk
  obtain ⟨w, hvw, -⟩ := TransGen.head'_iff.1 hwalk
  exact hvw.2.1 hv

/-- a component with a closed walk has a victim -/
theorem exists_victim (hhome : nd.transactionManager.Homed home) (hactive : AllActive nd graph)
    (h : checkAndResolveDeadlocks E nd graph = some res) {x : TransactionId} (hx : TransGen graph.Edge x x) :
    ∃ v, SameComponent graph.Edge x v ∧ Victim res.1 v := by
  have hres := resolves_checkAndResolveDeadlocks hhome h
  rw [← activeEdge_of_allActive hactive] at hx ⊢
  obtain ⟨c, -, v, -, hxv, hsig⟩ := hres.complete x hx
  exact ⟨v, hxv, _, hsig⟩

/-- the victims are those selected for the reported cycles, one for each -/
theorem victim_iff (hhome : nd.transactionManager.Homed home) (h : checkAndResolveDeadlocks E nd graph = some res)
    {cycles : List (List TransactionId)} {frequency : UnorderedMap TransactionId ℤ}
    (hfound : DeadlockDetector.findCycles E.hash E.fuel
      (WaitForGraph.pruneActive E.hash (nd.transactionManager.getActiveTransactions E.hash) graph) =
        some (cycles, frequency)) (v : TransactionId) :
    Victim res.1 v ↔ ∃ c ∈ cycles, DeadlockDetector.selectVictim c frequency = some v := by
  have hsignals := signals_pruneAndResolve hhome h ofTypes_nil (fun _ cycles => ofTypes_clientReport E nd cycles) hfound
  refine ⟨?_, ?_⟩
  · intro hvictim
    obtain ⟨n, hsig⟩ := hvictim
    exact ((hsignals v n).1 hsig).1
  · exact fun hselected => ⟨home v, (hsignals v (home v)).2 ⟨hselected, rfl⟩⟩

/-- rounds repeated on what is left: after as many as there are transactions on cycles none is left -/
theorem acyclic_of_rounds {k : ℕ} {g : ℕ → WaitForGraph} (h : ∀ i < k, Round (g i) (g (i + 1)))
    {S : Finset TransactionId} (hS : ∀ x, TransGen (g 0).Edge x x → x ∈ S) (hcard : S.card ≤ k) :
    Acyclic (g k).Edge := by
  refine acyclic_of_shrinking (r := fun i => (g i).Edge) hS hcard ?_ ?_
  · intro i hi u v huv
    obtain ⟨E, nd, home, res, -, -, -, hleft⟩ := h i hi
    exact ((hleft u v).1 huv).1
  · intro i hi x hx
    obtain ⟨E, nd, home, res, hhome, hactive, hres, hleft⟩ := h i hi
    obtain ⟨v, hxv, hv⟩ := exists_victim hhome hactive hres hx
    refine ⟨v, hxv.transGen hx, ?_⟩
    have hedge : (g (i + 1)).Edge = LeftEdge (g i) res.1 := funext fun u => funext fun w => propext (hleft u w)
    rw [hedge]
    exact not_transGen_leftEdge hv

/-- **Rounds of resolution.** A round takes out one victim for each reported cycle, and so breaks every cycle it
reports. It takes one out of every component with a cycle, and leaves no closed walk in a component that is a single
cycle. Rounds repeated on what is left leave an acyclic graph after as many rounds as there are transactions on closed
walks at the start. -/
theorem rounds_resolve (hhome : nd.transactionManager.Homed home) (hactive : AllActive nd graph)
    (h : checkAndResolveDeadlocks E nd graph = some res) :
    (∀ cycles frequency, DeadlockDetector.findCycles E.hash E.fuel
      (WaitForGraph.pruneActive E.hash (nd.transactionManager.getActiveTransactions E.hash) graph) =
        some (cycles, frequency) →
      (∀ v, Victim res.1 v ↔ ∃ c ∈ cycles, DeadlockDetector.selectVictim c frequency = some v) ∧
        ∀ c ∈ cycles, ∃ v ∈ c, Victim res.1 v) ∧
    (∀ x, TransGen graph.Edge x x → ∃ v, SameComponent graph.Edge x v ∧ Victim res.1 v) ∧
    (∀ x, (∀ u v w, SameComponent graph.Edge x u → SameComponent graph.Edge x v → SameComponent graph.Edge x w →
      graph.Edge u v → graph.Edge u w → v = w) → ¬ TransGen (LeftEdge graph res.1) x x) ∧
    ∀ (k : ℕ) (g : ℕ → WaitForGraph), g 0 = graph → (∀ i < k, Round (g i) (g (i + 1))) →
      ∀ S : Finset TransactionId, (∀ x, TransGen graph.Edge x x → x ∈ S) → S.card ≤ k → Acyclic (g k).Edge := by
  refine ⟨?_, fun x => exists_victim hhome hactive h, ?_, ?_⟩
  · intro cycles frequency hfound
    refine ⟨victim_iff hhome h hfound, fun c hc => ?_⟩
    obtain ⟨v, hv⟩ := DeadlockDetector.findCycles_victim hfound c hc
    exact ⟨v, DeadlockDetector.selectVictim_mem hv, (victim_iff hhome h hfound v).2 ⟨c, hc, hv⟩⟩
  · intro x huniq hleft
    have hsub : ∀ u v, LeftEdge graph res.1 u v → graph.Edge u v := fun u v huv => huv.1
    obtain ⟨v, hxv, hv⟩ := exists_victim hhome hactive h (TransGen.mono hsub _ _ hleft)
    exact not_transGen_leftEdge hv (transGen_of_unique_succ hsub huniq hleft hxv)
  · rintro k g rfl hrounds S hS hcard
    exact acyclic_of_rounds hrounds hS hcard

end Round

/-- 1 waits for 2 and 3, 2 for 1 and 3, and 3 for 2 -/
def sharedWaits : WaitForGraph := pushAll ∅ [(3, 2), (1, 2), (1, 3), (2, 1), (2, 3)]

/-- what the central node sends for it: the cycles (2 1) and (2 1 3) are reported, and 1 is the victim of both -/
def sharedSent : List NetworkMessage × Bool := (checkAndResolveDeadlocks .quiet (central 3) sharedWaits).get rfl

theorem checkAndResolveDeadlocks_sharedWaits :
    checkAndResolveDeadlocks .quiet (central 3) sharedWaits = some sharedSent :=
  (Option.some_get _).symm

theorem allActive_sharedWaits : AllActive (central 3) sharedWaits := by
  intro u v huv
  have hmem : (u, v) ∈ [(3, 2), (1, 2), (1, 3), (2, 1), ((2 : ℤ), (3 : ℤ))] :=
    (mem_getD_pushAll.1 huv).resolve_left (WaitForGraph.not_edge_empty u v)
  have hall : ∀ p ∈ [(3, 2), (1, 2), (1, 3), (2, 1), ((2 : ℤ), (3 : ℤ))],
      p.1 ∈ (central 3).transactionManager.activeTransactions ∧
        p.2 ∈ (central 3).transactionManager.activeTransactions := by decide
  exact hall (u, v) hmem

theorem rounds_resolve_sharedWaits :
    ∃ v, SameComponent sharedWaits.Edge 1 v ∧ Victim sharedSent.1 v := by
  have hcycle : IsCycle sharedWaits.Edge [1, 2] := ⟨by decide, by decide, by simp; decide, by decide⟩
  exact (rounds_resolve (homed_begun (by decide) 3) allActive_sharedWaits checkAndResolveDeadlocks_sharedWaits).2.1 1
    (hcycle.transGen (by decide) (by decide))

end Resolution

end HawkTxn
