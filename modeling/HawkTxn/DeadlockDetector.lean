/-
Cycle search in a wait-for graph (`DeadlockDetector.h`, `DeadlockDetector.cpp`).

The search enters a node as long as its visit count is positive, so a node may be entered several times, also while an
earlier visit of it is still open; the return of any visit clears the node's stack mark. A cycle is read off the parent
pointers when an edge leads to a marked node whose visits are used up.

Recursion and the walk along parent pointers take fuel; `none` is a search that does not return within it.
`findCycles_mono`: more fuel does not change a result.

Results:
- `findCycles_correct`: every reported list is a simple cycle, every component with a cycle has a reported one;
- `findCycles_sound`, `findCycles_component`: the form the resolvers use;
- `findCycles_victim`, `selectVictim_mem`: every reported cycle has a victim, and it is a member.
-/
import HawkTxn.WaitForGraph
import HawkTxn.Core.Runs

namespace HawkTxn

open HawkTxn.Core UnorderedMap

namespace DeadlockDetector

/-! ## Model -/

/-- the tables the recursion of `dfs` passes by reference -/
structure Search where
  visitedCount : UnorderedMap TransactionId ℤ
  recursionStack : UnorderedMap TransactionId Bool
  parent : UnorderedMap TransactionId TransactionId
  cycles : List (List TransactionId)
  frequency : UnorderedMap TransactionId ℤ

/-- `m[k]++` -/
def increment (m : UnorderedMap TransactionId ℤ) (k : TransactionId) : UnorderedMap TransactionId ℤ :=
  m.insert k (getD m k 0 + 1)

/-- `visitedCount[u]--; recursionStack[u] = true` -/
def enter (u : TransactionId) (s : Search) : Search :=
  { s with
    visitedCount := s.visitedCount.insert u (getD s.visitedCount u 0 - 1)
    recursionStack := s.recursionStack.insert u true }

/-- `recursionStack[u] = false` -/
def leave (u : TransactionId) (s : Search) : Search :=
  { s with recursionStack := s.recursionStack.insert u false }

/-- the loop `while (curr != v)` along the parent pointers: the nodes met and the frequencies after -/
def walkBack (parent : UnorderedMap TransactionId TransactionId) (v : TransactionId) :
    ℕ → TransactionId → List TransactionId → UnorderedMap TransactionId ℤ →
      Option (List TransactionId × UnorderedMap TransactionId ℤ)
  | fuel, curr, cycle, frequency =>
    if curr = v then some (cycle, frequency)
    else match fuel with
      | 0 => none
      | fuel + 1 => walkBack parent v fuel (getD parent curr 0) (cycle ++ [curr]) (increment frequency curr)

/-- the branch for an edge (u, v) to a node on the stack -/
def recordCycle (fuel : ℕ) (u v : TransactionId) (s : Search) : Option Search := do
  let (cycle, frequency) ← walkBack s.parent v fuel u [] s.frequency
  some { s with
    cycles := s.cycles ++ [(cycle ++ [v]).reverse]
    frequency := increment frequency v }

/-- one round of the loop over the edges (u, v); `enterNode` is the recursive call -/
def followEdge (enterNode : TransactionId → Search → Option Search) (fuel : ℕ) (u : TransactionId) (s : Search)
    (v : TransactionId) : Option Search :=
  if getD s.visitedCount v 0 > 0 then enterNode v { s with parent := s.parent.insert v u }
  else if getD s.recursionStack v false then recordCycle fuel u v s
  else some s

def dfs (graph : WaitForGraph) : ℕ → TransactionId → Search → Option Search
  | 0, _, _ => none
  | fuel + 1, u, s => do
    let s ← (getD graph u []).foldlM (followEdge (dfs graph fuel) fuel u) (enter u s)
    some (leave u s)

/-- out- and in-degrees -/
def degrees (H : HashOrder) (graph : WaitForGraph) :
    UnorderedMap TransactionId ℤ × UnorderedMap TransactionId ℤ :=
  (iter H graph).foldl (fun d pair => (d.1.insert pair.1 pair.2.length, pair.2.foldl increment d.2)) (∅, ∅)

/-- the first values of one transaction -/
def initTxn (d : UnorderedMap TransactionId ℤ × UnorderedMap TransactionId ℤ) (s : Search)
    (txnId : TransactionId) : Search :=
  { s with
    visitedCount := s.visitedCount.insert txnId (|getD d.1 txnId 0 - getD d.2 txnId 0| + 1)
    recursionStack := s.recursionStack.insert txnId false
    parent := s.parent.insert txnId 0
    frequency := s.frequency.insert txnId 0 }

/-- the two initialisation loops: waiting transactions, then the targets that are not among them -/
def initSearch (H : HashOrder) (graph : WaitForGraph) : Search :=
  let d := degrees H graph
  let s := (iter H graph).foldl (fun s pair => initTxn d s pair.1) ⟨∅, ∅, ∅, [], ∅⟩
  (iter H graph).foldl (fun s pair =>
    pair.2.foldl (fun s target => if target ∈ s.visitedCount then s else initTxn d s target) s) s

def findCycles (H : HashOrder) (fuel : ℕ) (graph : WaitForGraph) :
    Option (List (List TransactionId) × UnorderedMap TransactionId ℤ) := do
  let s ← (iter H graph).foldlM (fun s pair => dfs graph fuel pair.1 s) (initSearch H graph)
  some (s.cycles, s.frequency)

/-- more frequent first, then the smaller id -/
def compareTransactionPriority (a b : TransactionId × ℤ) : Bool :=
  if a.2 ≠ b.2 then a.2 > b.2 else a.1 < b.1

/-- `DistributedDBNode::selectVictim`; `none`: `at` throws on a member without a frequency, or there is no member -/
def selectVictim (cycle : List TransactionId) (transactionFrequencies : UnorderedMap TransactionId ℤ) :
    Option TransactionId :=
  if ∀ tid ∈ cycle, tid ∈ transactionFrequencies then
    let candidates := cycle.map fun tid => (tid, getD transactionFrequencies tid 0)
    (candidates.insertionSort fun a b => compareTransactionPriority b a = false).head?.map Prod.fst
  else none

/-! ## The state before the search -/

/-- no node is marked or has a parent, and every node that has a visit count has a positive one -/
structure Fresh (s : Search) : Prop where
  unmarked : ∀ x, getD s.recursionStack x false = false
  orphan : ∀ x, getD s.parent x 0 = 0
  cycles : s.cycles = []
  counted : ∀ x ∈ s.visitedCount, 0 < getD s.visitedCount x 0

theorem Fresh.initTxn {s : Search} (h : Fresh s) (d : UnorderedMap TransactionId ℤ × UnorderedMap TransactionId ℤ)
    (x : TransactionId) : Fresh (initTxn d s x) := by
  refine ⟨?_, ?_, h.cycles, ?_⟩
  · intro y
    simp only [DeadlockDetector.initTxn, getD_insert, h.unmarked, ite_self]
  · intro y
    simp only [DeadlockDetector.initTxn, getD_insert, h.orphan, ite_self]
  · intro y hy
    simp only [DeadlockDetector.initTxn, AList.mem_insert, getD_insert] at hy ⊢
    split_ifs with hyx
    · have := abs_nonneg (getD d.1 x 0 - getD d.2 x 0)
      omega
    · exact h.counted y (hy.resolve_left hyx)

theorem mem_foldl_initTxn (d : UnorderedMap TransactionId ℤ × UnorderedMap TransactionId ℤ)
    (l : List (TransactionId × List TransactionId)) {s : Search} {x : TransactionId} :
    x ∈ (l.foldl (fun s pair => initTxn d s pair.1) s).visitedCount ↔
      x ∈ l.map Prod.fst ∨ x ∈ s.visitedCount := by
  induction l generalizing s with
  | nil => simp
  | cons pair l ih =>
    rw [List.foldl_cons, ih, List.map_cons, List.mem_cons, initTxn, AList.mem_insert]
    tauto

/-- what the first values of one transaction keep, the two initialisation loops keep -/
theorem initSearch_invariant {H : HashOrder} {graph : WaitForGraph} {P : Search → Prop} (hempty : P ⟨∅, ∅, ∅, [], ∅⟩)
    (h : ∀ s x, P s → P (initTxn (degrees H graph) s x)) : P (initSearch H graph) := by
  have hfirst := List.foldlRecOn (motive := P) (iter H graph) (fun s pair => initTxn (degrees H graph) s pair.1) hempty
    fun s hs pair _ => h s pair.1 hs
  refine List.foldlRecOn (motive := P) _ _ hfirst fun s hs pair _ => ?_
  refine List.foldlRecOn (motive := P) _ _ hs fun s hs target _ => ?_
  split_ifs
  · exact hs
  · exact h s target hs

theorem fresh_initSearch (H : HashOrder) (graph : WaitForGraph) : Fresh (initSearch H graph) := by
  apply initSearch_invariant
  · exact ⟨fun _ => rfl, fun _ => rfl, rfl, fun x hx => absurd hx (AList.notMem_empty x)⟩
  · exact fun s x hs => hs.initTxn _ x

/-- every waiting transaction has a visit count -/
theorem mem_initSearch {H : HashOrder} {graph : WaitForGraph} {x : TransactionId} (hx : x ∈ graph) :
    x ∈ (initSearch H graph).visitedCount := by
  have hfirst : x ∈ ((iter H graph).foldl (fun s pair => initTxn (degrees H graph) s pair.1)
      ⟨∅, ∅, ∅, [], ∅⟩).visitedCount :=
    (mem_foldl_initTxn _ _).2 (Or.inl ((iter_keys_perm H graph).mem_iff.2 (AList.mem_keys.2 hx)))
  refine List.foldlRecOn (motive := fun s : Search => x ∈ s.visitedCount) _ _ hfirst fun s hs pair _ => ?_
  refine List.foldlRecOn (motive := fun s : Search => x ∈ s.visitedCount) _ _ hs fun s hs target _ => ?_
  split_ifs
  · exact hs
  · exact (AList.mem_insert _).2 (Or.inr hs)

/-! ## What the search keeps -/

/-- the loop along the parent pointers follows a trail and gives its nodes a frequency -/
theorem walkBack_spec {parent : UnorderedMap TransactionId TransactionId} {v : TransactionId} {fuel : ℕ}
    {curr : TransactionId} {cycle : List TransactionId} {frequency : UnorderedMap TransactionId ℤ}
    {res : List TransactionId × UnorderedMap TransactionId ℤ}
    (h : walkBack parent v fuel curr cycle frequency = some res) :
    ∃ l, Trail (fun x => getD parent x 0) v curr l ∧ res.1 = cycle ++ l ∧
      ∀ x, x ∈ frequency ∨ x ∈ l → x ∈ res.2 := by
  induction fuel generalizing curr cycle frequency with
  | zero =>
    unfold walkBack at h
    split_ifs at h with hv
    cases h; subst hv
    exact ⟨[], .arrived, by simp, by simp⟩
  | succ fuel ih =>
    unfold walkBack at h
    split_ifs at h with hv
    · cases h; subst hv
      exact ⟨[], .arrived, by simp, by simp⟩
    · obtain ⟨l, htrail, hcycle, hfreq⟩ := ih h
      refine ⟨curr :: l, .follow hv htrail, by rw [hcycle]; simp, fun x hx => hfreq x ?_⟩
      rw [increment, AList.mem_insert]
      rcases hx with hx | hx
      · exact Or.inl (Or.inr hx)
      · exact (List.mem_cons.1 hx).imp Or.inl id

/-- what `recordCycle` adds: the trail from u back to v, read backwards -/
theorem recordCycle_spec {fuel : ℕ} {u v : TransactionId} {s s' : Search}
    (h : recordCycle fuel u v s = some s') :
    ∃ l, Trail (fun x => getD s.parent x 0) v u l ∧
      s' = { s with cycles := s.cycles ++ [v :: l.reverse], frequency := s'.frequency } ∧
      ∀ x, x ∈ s.frequency ∨ x ∈ v :: l.reverse → x ∈ s'.frequency := by
  obtain ⟨res, hres, h⟩ := Option.bind_eq_some_iff.1 h
  obtain ⟨l, htrail, hcycle, hfreq⟩ := walkBack_spec hres
  cases h
  refine ⟨l, htrail, by simp [hcycle], ?_⟩
  intro x hx
  simp only [increment, AList.mem_insert]
  rcases hx with hx | hx
  · exact Or.inr (hfreq x (Or.inl hx))
  · exact (List.mem_cons.1 hx).imp id fun hx => hfreq x (Or.inr (List.mem_reverse.1 hx))

/-- **The rule for invariants of the search.** -/
theorem dfs_invariant {graph : WaitForGraph} {P : Search → Prop} (henter : ∀ u s, P s → P (enter u s))
    (hleave : ∀ u s, P s → P (leave u s))
    (hparent : ∀ u v s, graph.Edge u v → P s → P { s with parent := s.parent.insert v u })
    (hrecord : ∀ fuel u v s s', graph.Edge u v → P s → recordCycle fuel u v s = some s' → P s')
    {fuel : ℕ} {u : TransactionId} {s s' : Search} (h : dfs graph fuel u s = some s') (hs : P s) : P s' := by
  induction fuel generalizing u s s' with
  | zero => cases h
  | succ fuel ih =>
    obtain ⟨t, ht, h⟩ := Option.bind_eq_some_iff.1 h
    cases h
    refine hleave u t (foldlM_invariant (fun s v s' hv hs hfollow => ?_) ht (henter u s hs))
    unfold followEdge at hfollow
    split_ifs at hfollow
    · exact ih hfollow (hparent u v s hv hs)
    · exact hrecord fuel u v s s' hv hs hfollow
    · cases hfollow; exact hs

/-! ## Soundness -/

/-- parent pointers go against edges and lead from node 0 nowhere; reported lists are cycles -/
structure Sound (graph : WaitForGraph) (s : Search) : Prop where
  parent : ∀ x, getD s.parent x 0 = 0 ∨ graph.Edge (getD s.parent x 0) x
  root : getD s.parent 0 0 = 0
  cycles : ∀ c ∈ s.cycles, IsCycle graph.Edge c

theorem Sound.recordCycle {graph : WaitForGraph} {fuel : ℕ} {u v : TransactionId} {s s' : Search}
    (hs : Sound graph s) (huv : graph.Edge u v) (hv : 0 < v) (h : recordCycle fuel u v s = some s') :
    Sound graph s' := by
  obtain ⟨l, htrail, hs', -⟩ := recordCycle_spec h
  -- a pointer to node 0 on the way to v would never arrive
  have hedges : ∀ x ∈ l, graph.Edge (getD s.parent x 0) x := by
    intro x hx
    apply (hs.parent x).resolve_left
    intro h0
    obtain ⟨rest, -, hsuf⟩ := htrail.suffix hx
    cases hsuf with
    | follow _ hrest => exact hrest.ne_of_fixed hs.root hv.ne h0
  rw [hs']
  refine ⟨hs.parent, hs.root, ?_⟩
  intro c hc
  rcases List.mem_append.1 hc with hc | hc
  · exact hs.cycles c hc
  · rw [List.mem_singleton.1 hc]; exact htrail.isCycle hedges huv

theorem Sound.dfs {graph : WaitForGraph} (hpos : ∀ u v, graph.Edge u v → 0 < v) {fuel : ℕ} {u : TransactionId}
    {s s' : Search} (hs : Sound graph s) (h : dfs graph fuel u s = some s') : Sound graph s' := by
  refine dfs_invariant (P := Sound graph) (fun _ _ hs => ⟨hs.parent, hs.root, hs.cycles⟩)
    (fun _ _ hs => ⟨hs.parent, hs.root, hs.cycles⟩) (fun u v s huv hs => ?_)
    (fun fuel u v s s' huv hs h => hs.recordCycle huv (hpos u v huv) h) h hs
  refine ⟨?_, ?_, hs.cycles⟩
  · intro x
    rw [getD_insert]
    split_ifs with hx
    · exact Or.inr (hx ▸ huv)
    · exact hs.parent x
  · rw [getD_insert, if_neg (hpos u v huv).ne]
    exact hs.root

/-! ## Completeness -/

/-- some reported cycle meets C -/
def Hits (C : Set TransactionId) (s : Search) : Prop := ∃ c ∈ s.cycles, ∃ x ∈ c, x ∈ C

/-- the members of C whose visits are used up are marked -/
def Marked (C : Set TransactionId) (s : Search) : Prop :=
  ∀ x ∈ C, getD s.visitedCount x 0 ≤ 0 → getD s.recursionStack x false = true

theorem Hits.recordCycle {C : Set TransactionId} {fuel : ℕ} {u v : TransactionId} {s s' : Search} (hs : Hits C s)
    (h : recordCycle fuel u v s = some s') : Hits C s' := by
  obtain ⟨l, -, hs', -⟩ := recordCycle_spec h
  obtain ⟨c, hc, hx⟩ := hs
  rw [hs']
  exact ⟨c, List.mem_append_left _ hc, hx⟩

theorem Hits.dfs {C : Set TransactionId} {graph : WaitForGraph} {fuel : ℕ} {u : TransactionId} {s s' : Search}
    (hs : Hits C s) (h : dfs graph fuel u s = some s') : Hits C s' :=
  dfs_invariant (P := Hits C) (fun _ _ hs => hs) (fun _ _ hs => hs) (fun _ _ _ _ hs => hs)
    (fun _ _ _ _ _ _ hs h => hs.recordCycle h) h hs

theorem hits_followEdge {C : Set TransactionId} {graph : WaitForGraph} {fuel : ℕ} {u v : TransactionId}
    {s s' : Search} (hs : Hits C s) (h : followEdge (dfs graph fuel) fuel u s v = some s') : Hits C s' := by
  unfold followEdge at h
  split_ifs at h
  · exact Hits.dfs (s := { s with parent := s.parent.insert v u }) hs h
  · exact hs.recordCycle h
  · cases h; exact hs

/-- a cycle recorded for an edge into C meets C -/
theorem hits_of_recordCycle {C : Set TransactionId} {fuel : ℕ} {u v : TransactionId} {s s' : Search} (hv : v ∈ C)
    (h : recordCycle fuel u v s = some s') : Hits C s' := by
  obtain ⟨l, -, hs', -⟩ := recordCycle_spec h
  rw [hs']
  exact ⟨v :: l.reverse, by simp, v, List.mem_cons_self, hv⟩

/-- **A visit to C reports a cycle through C.** Let every member of C have a successor in C. The first visit to a
member that ends has looked at an edge into C: the search entered it, which cannot end before, or recorded a cycle,
or passed over it, which `Marked` excludes. A visit elsewhere reports such a cycle or leaves `Marked` as it was. -/
theorem dfs_hits {C : Set TransactionId} {graph : WaitForGraph} (hC : ∀ x ∈ C, ∃ y ∈ C, graph.Edge x y)
    {fuel : ℕ} {u : TransactionId} {s s' : Search} (h : dfs graph fuel u s = some s') (hs : Marked C s) :
    Hits C s' ∨ (Marked C s' ∧ u ∉ C) := by
  induction fuel generalizing u s s' with
  | zero => cases h
  | succ fuel ih =>
    obtain ⟨t, ht, h⟩ := Option.bind_eq_some_iff.1 h
    cases h
    have henter : Hits C (enter u s) ∨ Marked C (enter u s) := by
      apply Or.inr
      intro x hx hcount
      simp only [enter, getD_insert] at hcount ⊢
      split_ifs at hcount ⊢ with hxu
      · rfl
      · exact hs x hx hcount
    have hkeep : ∀ s v s', Hits C s ∨ Marked C s → followEdge (dfs graph fuel) fuel u s v = some s' →
        Hits C s' ∨ Marked C s' := by
      intro s v s' hcase hfollow
      rcases hcase with hs | hs
      · exact Or.inl (hits_followEdge hs hfollow)
      · unfold followEdge at hfollow
        split_ifs at hfollow
        · exact (ih hfollow hs).imp id And.left
        · obtain ⟨l, -, hs', -⟩ := recordCycle_spec hfollow
          rw [hs']; exact Or.inr hs
        · cases hfollow; exact Or.inr hs
    by_cases hu : u ∈ C
    · left
      obtain ⟨v, hv, huv⟩ := hC u hu
      have hfound : ∀ s s', Hits C s ∨ Marked C s → followEdge (dfs graph fuel) fuel u s v = some s' →
          Hits C s' := by
        intro s s' hcase hfollow
        rcases hcase with hs | hs
        · exact hits_followEdge hs hfollow
        · unfold followEdge at hfollow
          split_ifs at hfollow with hcount hmark
          · exact (ih hfollow hs).resolve_right fun h => h.2 hv
          · exact hits_of_recordCycle hv hfollow
          · exact absurd (hs v hv (not_lt.1 hcount)) hmark
      have hend : Hits C t := foldlM_of_mem (P := fun s => Hits C s ∨ Marked C s) huv
        (fun s v s' _ => hkeep s v s') (fun _ _ _ => hits_followEdge) hfound ht henter
      exact hend
    · refine (foldlM_invariant (fun s v s' _ => hkeep s v s') ht henter).imp id fun ht => ⟨?_, hu⟩
      intro x hx hcount
      have hxu : x ≠ u := fun hxu => hu (hxu ▸ hx)
      simpa only [leave, getD_insert, if_neg hxu] using ht x hx hcount

/-! ## Results -/

section Results

variable {H : HashOrder} {fuel : ℕ} {graph : WaitForGraph} {cycles : List (List TransactionId)}
  {frequency : UnorderedMap TransactionId ℤ}

theorem findCycles_search (h : findCycles H fuel graph = some (cycles, frequency)) :
    ∃ s, (iter H graph).foldlM (fun s pair => dfs graph fuel pair.1 s) (initSearch H graph) = some s ∧
      s.cycles = cycles ∧ s.frequency = frequency := by
  obtain ⟨s, hs, h⟩ := Option.bind_eq_some_iff.1 h
  cases h
  exact ⟨s, hs, rfl, rfl⟩

theorem findCycles_sound (hpos : ∀ u v, graph.Edge u v → 0 < v)
    (h : findCycles H fuel graph = some (cycles, frequency)) :
    ∀ c ∈ cycles, IsCycle graph.Edge c := by
  obtain ⟨s, hs, rfl, rfl⟩ := findCycles_search h
  have hfresh := fresh_initSearch H graph
  have h0 : Sound graph (initSearch H graph) :=
    ⟨fun x => Or.inl (hfresh.orphan x), hfresh.orphan 0, by simp [hfresh.cycles]⟩
  have hsound : Sound graph s := foldlM_invariant (fun _ _ _ _ hs h => hs.dfs hpos h) hs h0
  exact hsound.cycles

/-- every set that each of its members leads back into is met by a reported cycle -/
theorem findCycles_hits {C : Set TransactionId} (hC : ∀ x ∈ C, ∃ y ∈ C, graph.Edge x y) {x : TransactionId}
    (hx : x ∈ C) (h : findCycles H fuel graph = some (cycles, frequency)) : ∃ c ∈ cycles, ∃ y ∈ c, y ∈ C := by
  obtain ⟨s, hs, rfl, rfl⟩ := findCycles_search h
  have hfresh := fresh_initSearch H graph
  have hkey : ∀ y ∈ C, ∃ vs, graph.lookup y = some vs := by
    intro y hy
    obtain ⟨z, -, hyz⟩ := hC y hy
    obtain ⟨vs, hvs, -⟩ := WaitForGraph.edge_iff_lookup.1 hyz
    exact ⟨vs, hvs⟩
  have h0 : Marked C (initSearch H graph) := by
    intro y hy hcount
    have := hfresh.counted y (mem_initSearch (mem_iff_lookup.2 (hkey y hy)))
    omega
  obtain ⟨vs, hvs⟩ := hkey x hx
  refine foldlM_of_mem (P := fun s => Hits C s ∨ Marked C s) (Q := Hits C) (mem_iter.2 hvs) ?_ ?_ ?_ hs (Or.inr h0)
  · intro s pair s' _ hcase hdfs
    rcases hcase with hs | hs
    · exact Or.inl (hs.dfs hdfs)
    · exact (dfs_hits hC hdfs hs).imp id And.left
  · exact fun s pair s' hs hdfs => hs.dfs hdfs
  · intro s s' hcase hdfs
    rcases hcase with hs | hs
    · exact hs.dfs hdfs
    · exact (dfs_hits hC hdfs hs).resolve_right fun h => h.2 hx

/-- every component with a cycle contains a reported cycle -/
theorem findCycles_component (hpos : ∀ u v, graph.Edge u v → 0 < v)
    (h : findCycles H fuel graph = some (cycles, frequency)) {x : TransactionId}
    (hx : Relation.TransGen graph.Edge x x) : ∃ c ∈ cycles, ∀ y ∈ c, SameComponent graph.Edge x y := by
  have hC : ∀ y ∈ {y | SameComponent graph.Edge x y}, ∃ z ∈ {z | SameComponent graph.Edge x z}, graph.Edge y z := by
    intro y hy
    obtain ⟨z, hyz, hz⟩ := exists_edge_sameComponent (SameComponent.transGen hy hx)
    exact ⟨z, SameComponent.trans hy hz, hyz⟩
  obtain ⟨c, hc, y, hyc, hy⟩ := findCycles_hits hC (SameComponent.refl x) h
  have hcycle : IsCycle graph.Edge c := findCycles_sound hpos h c hc
  refine ⟨c, hc, ?_⟩
  intro z hz
  calc
    SameComponent graph.Edge x y := hy
    SameComponent graph.Edge y z := hcycle.sameComponent hyc hz

/-- **Correctness of the cycle search.** On a graph over positive ids, whatever the iteration order, a search that
returns reports simple cycles of the graph only, reports one in every component that contains a cycle, and reports
nothing exactly when the graph is acyclic. -/
theorem findCycles_correct (hpos : ∀ u v, graph.Edge u v → 0 < u ∧ 0 < v)
    (h : findCycles H fuel graph = some (cycles, frequency)) :
    (∀ c ∈ cycles, IsCycle graph.Edge c) ∧
    (∀ c, IsCycle graph.Edge c → ∃ c' ∈ cycles, ∀ x ∈ c, ∀ y ∈ c', SameComponent graph.Edge x y) ∧
    (cycles = [] ↔ Acyclic graph.Edge) := by
  have hpos' : ∀ u v, graph.Edge u v → 0 < v := fun u v huv => (hpos u v huv).2
  refine ⟨findCycles_sound hpos' h, ?_, ?_⟩
  · intro c hc
    obtain ⟨x, hx⟩ := hc.exists_mem
    obtain ⟨c', hc', hcomp⟩ := findCycles_component hpos' h (hc.transGen hx hx)
    have hsame : ∀ z ∈ c, ∀ y ∈ c', SameComponent graph.Edge z y := by
      intro z hz y hy
      calc
        SameComponent graph.Edge z x := hc.sameComponent hz hx
        SameComponent graph.Edge x y := hcomp y hy
    exact ⟨c', hc', hsame⟩
  · refine ⟨?_, ?_⟩
    · rintro rfl x hx
      obtain ⟨c, hc, -⟩ := findCycles_component hpos' h hx
      exact absurd hc List.not_mem_nil
    · intro hac
      apply List.eq_nil_iff_forall_not_mem.2
      intro c hc
      exact (findCycles_sound hpos' h c hc).not_acyclic hac

/-- three transactions in a cycle, one behind it, one that waits for itself -/
def triangleGraph : WaitForGraph := pushAll ∅ [(1, 2), (2, 3), (3, 1), (3, 4), (5, 5)]

theorem findCycles_correct_triangle :
    (∀ c ∈ [[5], [1, 2, 3]], IsCycle triangleGraph.Edge c) ∧
    (∀ c, IsCycle triangleGraph.Edge c →
      ∃ c' ∈ [[5], [1, 2, 3]], ∀ x ∈ c, ∀ y ∈ c', SameComponent triangleGraph.Edge x y) ∧
    (([[5], [1, 2, 3]] : List (List TransactionId)) = [] ↔ Acyclic triangleGraph.Edge) :=
  have hfound : findCycles .stored 20 triangleGraph =
      some ([[5], [1, 2, 3]], ((findCycles .stored 20 triangleGraph).get rfl).2) := rfl
  findCycles_correct (WaitForGraph.pos_of_entries (by decide)) hfound

end Results

/-! ## Fuel -/

theorem walkBack_mono {parent : UnorderedMap TransactionId TransactionId} {v curr : TransactionId} {fuel : ℕ}
    {cycle : List TransactionId} {frequency : UnorderedMap TransactionId ℤ}
    {res : List TransactionId × UnorderedMap TransactionId ℤ}
    (h : walkBack parent v fuel curr cycle frequency = some res) :
    walkBack parent v (fuel + 1) curr cycle frequency = some res := by
  induction fuel generalizing curr cycle frequency with
  | zero =>
    unfold walkBack at h ⊢
    split_ifs at h ⊢
    exact h
  | succ fuel ih =>
    unfold walkBack at h ⊢
    split_ifs at h ⊢
    · exact h
    · exact ih h

theorem dfs_mono {graph : WaitForGraph} {fuel : ℕ} {u : TransactionId} {s s' : Search}
    (h : dfs graph fuel u s = some s') : dfs graph (fuel + 1) u s = some s' := by
  induction fuel generalizing u s s' with
  | zero => cases h
  | succ fuel ih =>
    obtain ⟨t, ht, h⟩ := Option.bind_eq_some_iff.1 h
    refine Option.bind_eq_some_iff.2 ⟨t, foldlM_mono (fun s v s' hfollow => ?_) ht, h⟩
    unfold followEdge at hfollow ⊢
    split_ifs at hfollow ⊢
    · exact ih hfollow
    · obtain ⟨res, hres, hfollow⟩ := Option.bind_eq_some_iff.1 hfollow
      exact Option.bind_eq_some_iff.2 ⟨res, walkBack_mono hres, hfollow⟩
    · exact hfollow

/-- more fuel does not change the result of a search -/
theorem findCycles_mono {H : HashOrder} {fuel fuel' : ℕ} {graph : WaitForGraph}
    {res : List (List TransactionId) × UnorderedMap TransactionId ℤ} (hle : fuel ≤ fuel')
    (h : findCycles H fuel graph = some res) : findCycles H fuel' graph = some res := by
  induction hle with
  | refl => exact h
  | step _ ih =>
    obtain ⟨s, hs, ih⟩ := Option.bind_eq_some_iff.1 ih
    exact Option.bind_eq_some_iff.2 ⟨s, foldlM_mono (fun _ _ _ h => dfs_mono h) hs, ih⟩

/-! ## The victim -/

theorem selectVictim_mem {cycle : List TransactionId} {frequency : UnorderedMap TransactionId ℤ}
    {victimId : TransactionId} (h : selectVictim cycle frequency = some victimId) : victimId ∈ cycle := by
  unfold selectVictim at h
  split_ifs at h
  obtain ⟨first, hfirst, rfl⟩ := Option.map_eq_some_iff.1 h
  have hmem := (List.perm_insertionSort _ _).mem_iff.1 (List.mem_of_mem_head? hfirst)
  obtain ⟨tid, htid, rfl⟩ := List.mem_map.1 hmem
  exact htid

/-- a nonempty cycle whose members have a frequency has a victim -/
theorem exists_selectVictim {cycle : List TransactionId} {frequency : UnorderedMap TransactionId ℤ}
    (hne : cycle ≠ []) (hfreq : ∀ x ∈ cycle, x ∈ frequency) :
    ∃ victimId, selectVictim cycle frequency = some victimId := by
  unfold selectVictim
  rw [if_pos hfreq]
  cases hsort : (cycle.map fun tid => (tid, getD frequency tid 0)).insertionSort
      fun a b => compareTransactionPriority b a = false with
  | nil =>
    have hlen := (List.perm_insertionSort (fun a b => compareTransactionPriority b a = false)
      (cycle.map fun tid => (tid, getD frequency tid 0))).length_eq
    rw [hsort, List.length_map, List.length_nil] at hlen
    exact absurd (List.length_eq_zero_iff.1 hlen.symm) hne
  | cons first rest => exact ⟨first.1, by simp only [hsort, List.head?_cons, Option.map_some]⟩

/-- reported lists are nonempty and their members have a frequency -/
def Counted (s : Search) : Prop := ∀ c ∈ s.cycles, c ≠ [] ∧ ∀ x ∈ c, x ∈ s.frequency

theorem Counted.recordCycle {fuel : ℕ} {u v : TransactionId} {s s' : Search} (hs : Counted s)
    (h : recordCycle fuel u v s = some s') : Counted s' := by
  obtain ⟨l, -, hs', hfreq⟩ := recordCycle_spec h
  intro c hc
  rw [hs'] at hc
  rcases List.mem_append.1 hc with hc | hc
  · exact ⟨(hs c hc).1, fun x hx => hfreq x (Or.inl ((hs c hc).2 x hx))⟩
  · rw [List.mem_singleton.1 hc]
    exact ⟨List.cons_ne_nil _ _, fun x hx => hfreq x (Or.inr hx)⟩

/-- `selectVictim` does not throw on a reported cycle -/
theorem findCycles_victim {H : HashOrder} {fuel : ℕ} {graph : WaitForGraph} {cycles : List (List TransactionId)}
    {frequency : UnorderedMap TransactionId ℤ} (h : findCycles H fuel graph = some (cycles, frequency)) :
    ∀ c ∈ cycles, ∃ victimId, selectVictim c frequency = some victimId := by
  obtain ⟨s, hs, rfl, rfl⟩ := findCycles_search h
  have h0 : Counted (initSearch H graph) := by
    intro c hc
    rw [(fresh_initSearch H graph).cycles] at hc
    exact absurd hc List.not_mem_nil
  have hcounted : Counted s := foldlM_invariant (P := Counted) (fun _ _ _ _ hs h =>
    dfs_invariant (P := Counted) (fun _ _ hs => hs) (fun _ _ hs => hs) (fun _ _ _ _ hs => hs)
      (fun _ _ _ _ _ _ hs h => hs.recordCycle h) h hs) hs h0
  exact fun c hc => exists_selectVictim (hcounted c hc).1 (hcounted c hc).2

end DeadlockDetector

end HawkTxn
