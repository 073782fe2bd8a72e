/-
Wait-for graphs: edges, and the loops of `DistributedDBNode.cpp` that convert, merge and prune them.

`Edge g u v`: u waits for v in g. The three loops push edges one at a time; each is a `pushAll` of a list of edges,
which gives its edge set:
- `edge_mergeWFG`, `edge_mergeReports`: a merged graph has the edges of all its parts;
- `edge_pruneActive`: the pruned graph has the edges with both ends active.
-/
import HawkTxn.Commons
import HawkTxn.Core.Digraph

namespace HawkTxn

open HawkTxn.Core UnorderedMap

namespace WaitForGraph

/-- u waits for v -/
def Edge (g : WaitForGraph) (u v : TransactionId) : Prop := v ∈ getD g u []

instance (g : WaitForGraph) (u v : TransactionId) : Decidable (Edge g u v) :=
  inferInstanceAs (Decidable (v ∈ getD g u []))

theorem edge_iff_lookup {g : WaitForGraph} {u v : TransactionId} :
    Edge g u v ↔ ∃ vs, g.lookup u = some vs ∧ v ∈ vs := by
  unfold Edge getD
  cases g.lookup u <;> simp

theorem not_edge_empty (u v : TransactionId) : ¬ Edge ∅ u v := by simp [Edge]

/-- a graph whose entries are positive is a graph over positive ids -/
theorem pos_of_entries {g : WaitForGraph} (h : ∀ e ∈ g.entries, 0 < e.1 ∧ ∀ v ∈ e.2, 0 < v) (u v : TransactionId)
    (huv : Edge g u v) : 0 < u ∧ 0 < v := by
  obtain ⟨vs, hvs, hv⟩ := edge_iff_lookup.1 huv
  have hentry := h ⟨u, vs⟩ (AList.mem_lookup_iff.1 hvs)
  exact ⟨hentry.1, hentry.2 v hv⟩

/-- no entry names a transaction twice -/
theorem nodup_of_entries {g : WaitForGraph} (h : ∀ e ∈ g.entries, e.2.Nodup) (u : TransactionId) :
    (getD g u []).Nodup := by
  unfold getD
  cases hu : g.lookup u with
  | none => exact List.nodup_nil
  | some vs => exact h ⟨u, vs⟩ (AList.mem_lookup_iff.1 hu)

/-! ## Model -/

/-- `targetWfg[key].push_back(target)` for every edge of the report -/
def mergeWFG (targetWfg : WaitForGraph) (sourceData : WfgDataPairs) : WaitForGraph :=
  sourceData.foldl (fun g pair => pair.2.foldl (fun g target => pushBack g pair.1 target) g) targetWfg

/-- the graph after the reports have been merged in order -/
def mergeReports (reports : List WfgDataPairs) : WaitForGraph := reports.foldl mergeWFG ∅

def convertWFGToMessageFormat (H : HashOrder) (wfg : WaitForGraph) : WfgDataPairs := iter H wfg

/-- the pruning loop of both resolvers: edges with both ends in the set of active transactions -/
def pruneActive (H : HashOrder) (activeTxns : List TransactionId) (graph : WaitForGraph) : WaitForGraph :=
  (iter H graph).foldl (fun g pair =>
    if pair.1 ∈ activeTxns then
      pair.2.foldl (fun g target => if target ∈ activeTxns then pushBack g pair.1 target else g) g
    else g) ∅

/-! ## Edges -/

theorem mergeWFG_eq_pushAll (g : WaitForGraph) (data : WfgDataPairs) :
    mergeWFG g data = pushAll g (data.flatMap fun pair => pair.2.map fun v => (pair.1, v)) := by
  rw [← foldl_pushAll]
  unfold mergeWFG pushAll
  simp only [List.foldl_map]

theorem edge_mergeWFG {g : WaitForGraph} {data : WfgDataPairs} {u v : TransactionId} :
    Edge (mergeWFG g data) u v ↔ Edge g u v ∨ ∃ vs, (u, vs) ∈ data ∧ v ∈ vs := by
  rw [mergeWFG_eq_pushAll, Edge, mem_getD_pushAll, List.mem_flatMap]
  refine or_congr Iff.rfl ⟨?_, ?_⟩
  · intro hmem
    obtain ⟨⟨u', vs⟩, hm, hv⟩ := hmem
    obtain ⟨v', hv', heq⟩ := List.mem_map.1 hv
    cases heq
    exact ⟨vs, hm, hv'⟩
  · intro hentry
    obtain ⟨vs, hm, hv⟩ := hentry
    exact ⟨(u, vs), hm, List.mem_map.2 ⟨v, hv, rfl⟩⟩

theorem edge_mergeReports {reports : List WfgDataPairs} {u v : TransactionId} :
    Edge (mergeReports reports) u v ↔ ∃ data ∈ reports, ∃ vs, (u, vs) ∈ data ∧ v ∈ vs := by
  have hfold : ∀ g, Edge (reports.foldl mergeWFG g) u v ↔
      Edge g u v ∨ ∃ data ∈ reports, ∃ vs, (u, vs) ∈ data ∧ v ∈ vs := by
    induction reports with
    | nil => simp
    | cons data reports ih =>
      intro g
      rw [List.foldl_cons, ih, edge_mergeWFG]
      simp [or_assoc]
  rw [mergeReports, hfold, or_iff_right (not_edge_empty u v)]

theorem edge_convert {H : HashOrder} {g : WaitForGraph} {u v : TransactionId} :
    (∃ vs, (u, vs) ∈ convertWFGToMessageFormat H g ∧ v ∈ vs) ↔ Edge g u v := by
  rw [edge_iff_lookup]
  simp only [convertWFGToMessageFormat, mem_iter]

theorem pruneActive_eq_pushAll (H : HashOrder) (activeTxns : List TransactionId) (g : WaitForGraph) :
    pruneActive H activeTxns g = pushAll ∅ ((iter H g).flatMap fun pair =>
      if pair.1 ∈ activeTxns then (pair.2.filter fun v => decide (v ∈ activeTxns)).map fun v => (pair.1, v)
      else []) := by
  rw [← foldl_pushAll]
  unfold pruneActive
  congr 1
  funext g' pair
  split_ifs
  · rw [← foldl_pushBack_if]; simp
  · rfl

theorem edge_pruneActive {H : HashOrder} {activeTxns : List TransactionId} {g : WaitForGraph} {u v : TransactionId} :
    Edge (pruneActive H activeTxns g) u v ↔ Edge g u v ∧ u ∈ activeTxns ∧ v ∈ activeTxns := by
  rw [pruneActive_eq_pushAll, Edge, mem_getD_pushAll, List.mem_flatMap, edge_iff_lookup]
  refine ⟨?_, ?_⟩
  · intro hmem
    rcases hmem with h | ⟨⟨u', vs⟩, hm, hv⟩
    · simp at h
    · split_ifs at hv with hu
      · obtain ⟨v', hv', heq⟩ := List.mem_map.1 hv
        cases heq
        obtain ⟨h1, h2⟩ := List.mem_filter.1 hv'
        exact ⟨⟨vs, mem_iter.1 hm, h1⟩, hu, by simpa using h2⟩
      · simp at hv
  · intro hedge
    obtain ⟨⟨vs, hm, hv⟩, hu, hva⟩ := hedge
    refine Or.inr ⟨(u, vs), mem_iter.2 hm, ?_⟩
    rw [if_pos hu]
    exact List.mem_map.2 ⟨v, List.mem_filter.2 ⟨hv, by simpa using hva⟩, rfl⟩

/-- a graph without entries has no edges -/
theorem not_edge_of_entries_nil {g : WaitForGraph} (h : g.entries = []) (u v : TransactionId) : ¬ Edge g u v := by
  rw [eq_empty h]; exact not_edge_empty u v

end WaitForGraph

end HawkTxn
