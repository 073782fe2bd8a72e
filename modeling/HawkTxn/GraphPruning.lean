/-
Pruning wait-for graphs (`buildAndPruneLocalWaitForGraph`, `checkAndResolveDeadlocks`,
`checkAndResolveDeadlocksForZone`, `mergeWFG`).

A graph is restricted to a set of transactions in three places: while a node builds it, in a report, and after the
reports have been merged. Each of the graphs is a `pushAll` of a list of edges and each restriction filters that list,
which makes them the same restriction, before or after a merge.

Results:
- `RestrictedTo.lookup_eq`: a graph has one restriction;
- `restrictedTo_pruneActive`, `restrictedTo_mergeReports`, `restrictedTo_buildAndPrune`: the three places;
- `targets_nodup`: a waiter waits for one resource, so nobody is named twice;
- `pruning_agrees`: the builder restricts the local graph, and pruning commutes with merging.
-/
import HawkTxn.Core.Loops
import HawkTxn.LockTable

namespace HawkTxn

open HawkTxn.Core UnorderedMap

namespace WaitForGraph

/-! ## Restrictions -/

/-- g' has the edges of g with both ends in S, in the order of g, and no entry without edges -/
structure RestrictedTo (S : List TransactionId) (g g' : WaitForGraph) : Prop where
  edges : ∀ u, getD g' u [] = if u ∈ S then (getD g u []).filter fun v => decide (v ∈ S) else []
  nonempty : NonemptyEntries g'

theorem RestrictedTo.lookup_eq {S : List TransactionId} {g g₁ g₂ : WaitForGraph} (h₁ : RestrictedTo S g g₁)
    (h₂ : RestrictedTo S g g₂) (u : TransactionId) : g₁.lookup u = g₂.lookup u :=
  h₁.nonempty.lookup_ext h₂.nonempty (fun k => (h₁.edges k).trans (h₂.edges k).symm) u

/-- a restriction reads the graph through `operator[]` only -/
theorem RestrictedTo.congr {S : List TransactionId} {g₁ g₂ g' : WaitForGraph} (h : RestrictedTo S g₁ g')
    (heq : ∀ u, getD g₁ u [] = getD g₂ u []) : RestrictedTo S g₂ g' :=
  ⟨fun u => by rw [h.edges, heq], h.nonempty⟩

/-- the test of the pruning loops on one edge -/
def bothIn (S : List TransactionId) (e : TransactionId × TransactionId) : Bool := decide (e.1 ∈ S) && decide (e.2 ∈ S)

/-- filtering the edges that are pushed restricts the graph -/
theorem restrictedTo_pushAll (S : List TransactionId) (es : List (TransactionId × TransactionId)) :
    RestrictedTo S (pushAll ∅ es) (pushAll ∅ (es.filter (bothIn S))) where
  edges u := by
    have hfilter := getD_pushAll_filter (fun u => decide (u ∈ S)) (fun v => decide (v ∈ S)) es u
    simp only [decide_eq_true_eq] at hfilter
    exact hfilter
  nonempty := nonemptyEntries_pushAll _

/-! ## Merged graphs -/

/-- the edges of a report, in the order `mergeWFG` pushes them -/
def reportEdges (data : WfgDataPairs) : List (TransactionId × TransactionId) :=
  data.flatMap fun pair => pair.2.map fun v => (pair.1, v)

theorem mergeReports_eq_pushAll (reports : List WfgDataPairs) :
    mergeReports reports = pushAll ∅ (reports.flatMap reportEdges) := by
  unfold mergeReports
  rw [← foldl_pushAll]
  exact congrArg (fun f => List.foldl f ∅ reports) (funext fun g => funext fun data => mergeWFG_eq_pushAll g data)

/-- the pairs of a report with both ends in S -/
def pruneReport (S : List TransactionId) (data : WfgDataPairs) : WfgDataPairs :=
  (data.filter fun pair => decide (pair.1 ∈ S)).map fun pair => (pair.1, pair.2.filter fun v => decide (v ∈ S))

theorem reportEdges_pruneReport (S : List TransactionId) (data : WfgDataPairs) :
    reportEdges (pruneReport S data) = (reportEdges data).filter (bothIn S) := by
  induction data with
  | nil => rfl
  | cons pair data ih =>
    have htargets : (pair.2.map fun v => (pair.1, v)).filter (bothIn S) =
        if pair.1 ∈ S then (pair.2.filter fun v => decide (v ∈ S)).map fun v => (pair.1, v) else [] := by
      rw [List.filter_map]
      split_ifs with hu
      · simp [Function.comp_def, bothIn, hu]
      · simp [Function.comp_def, bothIn, hu]
    have hcons : reportEdges (pair :: data) = (pair.2.map fun v => (pair.1, v)) ++ reportEdges data := rfl
    rw [hcons, List.filter_append, htargets, ← ih]
    by_cases hu : pair.1 ∈ S
    · simp [pruneReport, reportEdges, hu]
    · simp [pruneReport, hu]

theorem flatMap_reportEdges_pruneReport (S : List TransactionId) (reports : List WfgDataPairs) :
    (reports.map (pruneReport S)).flatMap reportEdges = (reports.flatMap reportEdges).filter (bothIn S) := by
  induction reports with
  | nil => rfl
  | cons data reports ih =>
    rw [List.map_cons, List.flatMap_cons, ih, reportEdges_pruneReport, List.flatMap_cons, List.filter_append]

/-- reports that are pruned before the merge restrict the merged graph -/
theorem restrictedTo_mergeReports (S : List TransactionId) (reports : List WfgDataPairs) :
    RestrictedTo S (mergeReports reports) (mergeReports (reports.map (pruneReport S))) := by
  rw [mergeReports_eq_pushAll, mergeReports_eq_pushAll, flatMap_reportEdges_pruneReport]
  exact restrictedTo_pushAll S _

/-- so does the pruning loop of the resolvers after the merge -/
theorem restrictedTo_pruneActive (H : HashOrder) (S : List TransactionId) (g : WaitForGraph) :
    RestrictedTo S g (pruneActive H S g) := by
  have hprune : pruneActive H S g = pushAll ∅ ((reportEdges (iter H g)).filter (bothIn S)) := by
    rw [pruneActive_eq_pushAll, ← reportEdges_pruneReport]
    congr 1
    induction iter H g with
    | nil => rfl
    | cons pair data ih =>
      rw [List.flatMap_cons, ih]
      by_cases hu : pair.1 ∈ S
      · simp [pruneReport, reportEdges, hu]
      · simp [pruneReport, hu]
  rw [hprune]
  exact (restrictedTo_pushAll S _).congr (getD_pushAll_iter H g)

/-- the report of a graph adds its edges to a merge -/
theorem getD_mergeWFG_convert (H : HashOrder) (g wfg : WaitForGraph) (u : TransactionId) :
    getD (mergeWFG g (convertWFGToMessageFormat H wfg)) u [] = getD g u [] ++ getD wfg u [] := by
  have hcopy := getD_pushAll_iter H wfg u
  rw [getD_pushAll, getD_empty, List.nil_append] at hcopy
  rw [mergeWFG_eq_pushAll, getD_pushAll, convertWFGToMessageFormat, hcopy]

theorem getD_mergeReports_convert (H : HashOrder) (graphs : List WaitForGraph) (u : TransactionId) :
    getD (mergeReports (graphs.map (convertWFGToMessageFormat H))) u [] = graphs.flatMap fun g => getD g u [] := by
  have hfold : ∀ g, getD ((graphs.map (convertWFGToMessageFormat H)).foldl mergeWFG g) u [] =
      getD g u [] ++ graphs.flatMap fun g => getD g u [] := by
    induction graphs with
    | nil => simp
    | cons g' graphs ih =>
      intro g
      rw [List.map_cons, List.foldl_cons, ih, getD_mergeWFG_convert, List.flatMap_cons, List.append_assoc]
  exact (hfold ∅).trans (List.nil_append _)

end WaitForGraph

namespace LockTable

open WaitForGraph

/-! ## The builders -/

theorem buildLocalWaitForGraph_eq_pushAll (H : HashOrder) (keep : TransactionId → Bool) (tm : TransactionManager) :
    tm.resourceManager.getLocalResources.foldl (addWaitEdges H keep tm) ∅ =
      pushAll ∅ (tm.resourceManager.getLocalResources.flatMap (waitEdges H keep tm)) := by
  rw [← foldl_pushAll]
  exact congrArg (fun f => List.foldl f ∅ _) (funext fun g => funext fun r => addWaitEdges_eq_pushAll H keep tm g r)

theorem waitEdges_active (H : HashOrder) (S : List TransactionId) (tm : TransactionManager) (r : ResourceId) :
    waitEdges H (fun t => decide (t ∈ S)) tm r = (waitEdges H (fun _ => true) tm r).filter (bothIn S) := by
  unfold waitEdges
  cases frontWaiter tm r with
  | none => rfl
  | some w =>
    by_cases hw : w ∈ S
    · simp only [hw, decide_true, Bool.true_eq_false, if_false, List.filter_map (p := bothIn S), List.filter_filter]
      refine congrArg (List.map _) (List.filter_congr ?_)
      intro h _
      by_cases hh : h ∈ S <;> simp [bothIn, hw, hh]
    · simp [hw, bothIn, List.filter_map, Function.comp_def]

theorem restrictedTo_buildAndPrune (H : HashOrder) (tm : TransactionManager) (S : List TransactionId) :
    RestrictedTo S (buildLocalWaitForGraph H tm) (buildAndPruneLocalWaitForGraph H tm S) := by
  have hedges : tm.resourceManager.getLocalResources.flatMap (waitEdges H (fun t => decide (t ∈ S)) tm) =
      (tm.resourceManager.getLocalResources.flatMap (waitEdges H (fun _ => true) tm)).filter (bothIn S) := by
    induction tm.resourceManager.getLocalResources with
    | nil => rfl
    | cons r rs ih => rw [List.flatMap_cons, List.flatMap_cons, List.filter_append, ih, waitEdges_active]
  rw [buildLocalWaitForGraph, buildAndPruneLocalWaitForGraph, buildLocalWaitForGraph_eq_pushAll,
    buildLocalWaitForGraph_eq_pushAll, hedges]
  exact restrictedTo_pushAll S _

/-! ## Simple graphs -/

theorem waitEdges_nodup (H : HashOrder) (keep : TransactionId → Bool) (tm : TransactionManager) (r : ResourceId) :
    (waitEdges H keep tm r).Nodup := by
  unfold waitEdges
  cases frontWaiter tm r with
  | none => exact List.nodup_nil
  | some w =>
    simp only
    split_ifs
    · exact List.nodup_nil
    · exact ((iter_keys_nodup H _).filter _).map fun h h' heq => congrArg Prod.snd heq

/-- the edges of a waiter come from the one resource it waits for -/
theorem targets_nodup (H : HashOrder) (tm : TransactionManager) (u : TransactionId) :
    (getD (buildLocalWaitForGraph H tm) u []).Nodup := by
  have hall : (tm.resourceManager.getLocalResources.flatMap (waitEdges H (fun _ => true) tm)).Nodup := by
    refine nodup_flatMap_of_key (k := fun e => tm.getTransactionWaitingFor e.1) (nodup_intRange _ _)
      (fun r _ => waitEdges_nodup H _ tm r) ?_
    intro r _ e he
    exact (frontWaiter_eq_some.1 (mem_waitEdges.1 he).1).2.2
  rw [buildLocalWaitForGraph, buildLocalWaitForGraph_eq_pushAll, getD_pushAll, getD_empty, List.nil_append]
  refine (hall.filter _).map_on ?_
  intro e he e' he' heq
  have hfst : e.1 = e'.1 := by
    have h1 := (List.mem_filter.1 he).2
    have h2 := (List.mem_filter.1 he').2
    simp only [decide_eq_true_eq] at h1 h2
    rw [h1, h2]
  exact Prod.ext hfst heq

theorem not_self_edge (H : HashOrder) (tm : TransactionManager) (u : TransactionId) :
    ¬ Edge (buildLocalWaitForGraph H tm) u u := by
  intro hself
  obtain ⟨r, -, -, -, -, hne⟩ := edge_buildLocalWaitForGraph.1 hself
  exact hne rfl

/-- no transaction waits for itself, and none is named twice by another -/
def Simple (g : WaitForGraph) : Prop := ∀ u, u ∉ getD g u [] ∧ (getD g u []).Nodup

theorem simple_buildLocalWaitForGraph (H : HashOrder) (tm : TransactionManager) :
    Simple (buildLocalWaitForGraph H tm) := fun u => ⟨not_self_edge H tm u, targets_nodup H tm u⟩

theorem Simple.restrict {S : List TransactionId} {g g' : WaitForGraph} (hg : Simple g) (h : RestrictedTo S g g') :
    Simple g' := by
  intro u
  rw [h.edges]
  split_ifs
  · exact ⟨fun hmem => (hg u).1 (List.mem_filter.1 hmem).1, (hg u).2.filter _⟩
  · exact ⟨List.not_mem_nil, List.nodup_nil⟩

/-! ## Pruning and merging -/

/-- reports of pruned local graphs restrict the merge of the reports of the local graphs -/
theorem restrictedTo_localReports (H : HashOrder) (tms : List TransactionManager) (S : List TransactionId) :
    RestrictedTo S (mergeReports ((tms.map (buildLocalWaitForGraph H)).map (convertWFGToMessageFormat H)))
      (mergeReports ((tms.map fun tm => buildAndPruneLocalWaitForGraph H tm S).map
        (convertWFGToMessageFormat H))) where
  edges u := by
    rw [getD_mergeReports_convert, getD_mergeReports_convert]
    simp only [List.flatMap_map, (restrictedTo_buildAndPrune H _ S).edges, List.filter_flatMap]
    split_ifs
    · rfl
    · simp
  nonempty := by rw [mergeReports_eq_pushAll]; exact nonemptyEntries_pushAll _

/-- **Pruning agrees.** For every state of a node and every set S, the pruning builder gives the local graph restricted
to S, without self-edges and repeated edges; and reports that are pruned by S, or come from pruned local graphs, merge
into the graph that the resolvers get by merging the reports as they are and pruning by S. -/
theorem pruning_agrees (H : HashOrder) (S : List TransactionId) :
    (∀ tm, RestrictedTo S (buildLocalWaitForGraph H tm) (buildAndPruneLocalWaitForGraph H tm S) ∧
      Simple (buildAndPruneLocalWaitForGraph H tm S)) ∧
    (∀ (H' : HashOrder) (reports : List WfgDataPairs) (u : TransactionId),
      (mergeReports (reports.map (pruneReport S))).lookup u = (pruneActive H' S (mergeReports reports)).lookup u) ∧
    ∀ (H' : HashOrder) (tms : List TransactionManager) (u : TransactionId),
      (mergeReports ((tms.map fun tm => buildAndPruneLocalWaitForGraph H tm S).map
        (convertWFGToMessageFormat H))).lookup u =
      (pruneActive H' S (mergeReports
        ((tms.map (buildLocalWaitForGraph H)).map (convertWFGToMessageFormat H)))).lookup u := by
  refine ⟨?_, ?_, ?_⟩
  · intro tm
    have hrestricted := restrictedTo_buildAndPrune H tm S
    exact ⟨hrestricted, (simple_buildLocalWaitForGraph H tm).restrict hrestricted⟩
  · intro H' reports u
    exact (restrictedTo_mergeReports S reports).lookup_eq (restrictedTo_pruneActive H' S _) u
  · intro H' tms u
    exact (restrictedTo_localReports H tms S).lookup_eq (restrictedTo_pruneActive H' S _) u

end LockTable

end HawkTxn
