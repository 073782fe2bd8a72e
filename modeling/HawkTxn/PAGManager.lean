/-
The predicted access graph and its cut into detection zones (`PAGManager.h`, `PAGManager.cpp`).

Vertices are nodes of the cluster; an edge says that a transaction of one waits for a transaction of the other. The
cut runs Tarjan's search, whose recursion and stack loop take fuel; `none` is a search that does not return within it
or reads the top of an empty stack.

The initialisation puts every vertex into the table of discovery times, and the search enters only neighbours that are
not in the table, so it enters none.

Results:
- `greedySCCcut_eq`: every zone of a cut is a single node that waits for another one.
-/
import HawkTxn.Commons
import HawkTxn.Core.Runs

namespace HawkTxn

open HawkTxn.Core UnorderedMap

abbrev PAG := UnorderedMap NodeId (List NodeId)

namespace PAGManager

/-! ## Model -/

/-- the tables the recursion of `findSCCsDFS` passes by reference -/
structure Search where
  disc : UnorderedMap NodeId ℤ
  low : UnorderedMap NodeId ℤ
  /-- top first -/
  st : List NodeId
  onStack : UnorderedMap NodeId Bool
  sccs : List (List NodeId)
  time : ℤ

/-- pop up to and including u -/
def popComponent (u : NodeId) : List NodeId → UnorderedMap NodeId Bool → List NodeId →
    Option (List NodeId × UnorderedMap NodeId Bool × List NodeId)
  | [], _, _ => none
  | node :: st, onStack, scc =>
    if node = u then some (st, onStack.insert node false, scc ++ [node])
    else popComponent u st (onStack.insert node false) (scc ++ [node])

/-- one round of the loop over the edges (u, v); `enterNode` is the recursive call -/
def followEdge (enterNode : NodeId → Search → Option Search) (u : NodeId) (s : Search) (v : NodeId) : Option Search :=
  if v ∉ s.disc then do
    let s ← enterNode v s
    some { s with low := s.low.insert u (min (getD s.low u 0) (getD s.low v 0)) }
  else if getD s.onStack v false then
    some { s with low := s.low.insert u (min (getD s.low u 0) (getD s.disc v 0)) }
  else some s

def findSCCsDFS (graph : PAG) : ℕ → NodeId → Search → Option Search
  | 0, _, _ => none
  | fuel + 1, u, s => do
    let s ← (getD graph u []).foldlM (followEdge (findSCCsDFS graph fuel) u)
      { s with
        time := s.time + 1
        disc := s.disc.insert u (s.time + 1)
        low := s.low.insert u (s.time + 1)
        st := u :: s.st
        onStack := s.onStack.insert u true }
    if getD s.low u 0 = getD s.disc u 0 then do
      let (st, onStack, scc) ← popComponent u s.st s.onStack []
      some { s with st := st, onStack := onStack, sccs := s.sccs ++ [scc.reverse] }
    else some s

def generatePAG (sampledPagEdges : List WFDEdge) : PAG :=
  sampledPagEdges.foldl (fun pag edge =>
    if edge.waitingNodeId ≠ edge.holdingNodeId then pushBack pag edge.waitingNodeId edge.holdingNodeId else pag) ∅

/-- the initialisation loop: every node is undiscovered, that is, has discovery time -1 -/
def initSearch (H : HashOrder) (pag : PAG) : Search :=
  (iter H pag).foldl (fun s pair =>
    pair.2.foldl (fun s neighbor =>
      if neighbor ∉ s.disc then
        { s with disc := s.disc.insert neighbor (-1), onStack := s.onStack.insert neighbor false }
      else s)
      { s with disc := s.disc.insert pair.1 (-1), onStack := s.onStack.insert pair.1 false }) ⟨∅, ∅, [], ∅, [], 0⟩

/-- the smallest member of a component -/
def zoneLeader (scc : List NodeId) : NodeId :=
  scc.tail.foldl (fun leader node => if node < leader then node else leader) (scc.headD 0)

/-- the zones and, at the same indices, their leaders -/
def greedySCCcut (H : HashOrder) (fuel : ℕ) (pag : PAG) (threshold : ℕ) :
    Option (List (List NodeId) × List NodeId) := do
  let s ← (iter H pag).foldlM (fun s pair =>
    if getD s.disc pair.1 0 = -1 then findSCCsDFS pag fuel pair.1 s else some s) (initSearch H pag)
  let detectionZones := s.sccs.filter fun scc => decide (threshold ≤ scc.length)
  let covered_nodes := detectionZones.flatten
  -- the keys of the graph are distinct, so a node made its own zone is not met again
  let isolated := ((iter H pag).map Prod.fst).filter fun node => decide (node ∉ covered_nodes)
  some (detectionZones ++ isolated.map (fun node => [node]), detectionZones.map zoneLeader ++ isolated)

/-! ## Initialisation -/

/-- nothing is on the stack -/
structure Idle (s : Search) : Prop where
  st : s.st = []
  onStack : ∀ v, getD s.onStack v false = false

/-- no search has started -/
structure Fresh (s : Search) : Prop extends Idle s where
  sccs : s.sccs = []
  disc : ∀ v, v ∈ s.disc → getD s.disc v 0 = -1

/-- one vertex is undiscovered -/
def mark (s : Search) (v : NodeId) : Search :=
  { s with disc := s.disc.insert v (-1), onStack := s.onStack.insert v false }

/-- the inner loop of the initialisation -/
def markNeighbors (s : Search) (neighbors : List NodeId) : Search :=
  neighbors.foldl (fun s neighbor => if neighbor ∉ s.disc then mark s neighbor else s) s

theorem initSearch_eq (H : HashOrder) (pag : PAG) : initSearch H pag =
    (iter H pag).foldl (fun s pair => markNeighbors (mark s pair.1) pair.2) ⟨∅, ∅, [], ∅, [], 0⟩ := rfl

theorem Fresh.mark {s : Search} (h : Fresh s) (v : NodeId) : Fresh (mark s v) where
  st := h.st
  onStack w := by
    simp only [PAGManager.mark, getD_insert]
    split_ifs
    · rfl
    · exact h.onStack w
  sccs := h.sccs
  disc w hw := by
    simp only [PAGManager.mark, getD_insert] at hw ⊢
    split_ifs with hwv
    · rfl
    · rcases (AList.mem_insert _).1 hw with hw | hw
      · exact absurd hw hwv
      · exact h.disc w hw

theorem Fresh.markNeighbors {s : Search} (h : Fresh s) (neighbors : List NodeId) :
    Fresh (markNeighbors s neighbors) := by
  apply List.foldlRecOn (motive := Fresh) _ _ h
  intro s hs v _
  split_ifs
  · exact hs
  · exact hs.mark v

theorem mem_disc_markNeighbors {s : Search} {neighbors : List NodeId} {v : NodeId} (h : v ∈ s.disc ∨ v ∈ neighbors) :
    v ∈ (markNeighbors s neighbors).disc := by
  induction neighbors generalizing s with
  | nil => simpa [markNeighbors] using h
  | cons w neighbors ih =>
    apply ih
    show v ∈ (if w ∉ s.disc then mark s w else s).disc ∨ v ∈ neighbors
    by_cases hvw : v = w
    · subst hvw
      left
      split_ifs with hmem
      · exact hmem
      · simp [mark]
    · rcases h with h | h
      · left
        split_ifs
        · exact h
        · exact (AList.mem_insert _).2 (Or.inr h)
      · exact Or.inr ((List.mem_cons.1 h).resolve_left hvw)

theorem fresh_initSearch (H : HashOrder) (pag : PAG) : Fresh (initSearch H pag) := by
  rw [initSearch_eq]
  refine List.foldlRecOn (motive := Fresh) _ _ ⟨⟨rfl, fun _ => rfl⟩, rfl, fun v hv => ?_⟩ ?_
  · exact absurd hv (AList.notMem_empty v)
  · exact fun s hs pair _ => (hs.mark pair.1).markNeighbors pair.2

/-- every vertex is in the table of discovery times -/
theorem mem_disc_initSearch {H : HashOrder} {pag : PAG} {k v : NodeId} {neighbors : List NodeId}
    (h : (k, neighbors) ∈ iter H pag) (hv : v = k ∨ v ∈ neighbors) : v ∈ (initSearch H pag).disc := by
  have hloop : ∀ (l : List (NodeId × List NodeId)) (s : Search), v ∈ s.disc ∨ (k, neighbors) ∈ l →
      v ∈ (l.foldl (fun s pair => markNeighbors (mark s pair.1) pair.2) s).disc := by
    intro l
    induction l with
    | nil => exact fun s hs => hs.resolve_right List.not_mem_nil
    | cons pair l ih =>
      intro s hs
      apply ih
      rcases hs with hs | hs
      · exact Or.inl (mem_disc_markNeighbors (Or.inl ((AList.mem_insert _).2 (Or.inr hs))))
      · rcases List.mem_cons.1 hs with rfl | hs
        · refine Or.inl (mem_disc_markNeighbors (hv.imp (fun hvk => ?_) id))
          subst hvk; simp [mark]
        · exact Or.inr hs
  rw [initSearch_eq]
  exact hloop _ _ (Or.inr h)

/-! ## Searches -/

/-- with every neighbour in the table the search enters none, and u is a component of its own -/
theorem findSCCsDFS_alone {graph : PAG} {u : NodeId} {s : Search} (fuel : ℕ)
    (hdisc : ∀ v ∈ getD graph u [], v ∈ s.disc) (hs : Idle s) :
    ∃ s', findSCCsDFS graph (fuel + 1) u s = some s' ∧ Idle s' ∧ s'.disc = s.disc.insert u (s.time + 1) ∧
      s'.sccs = s.sccs ++ [[u]] := by
  -- u alone is on the stack while its edges are followed, and its low link stays its discovery time
  obtain ⟨s₁, hloop, hst, hstack, hdisc₁, hsccs, hlow⟩ := foldlM_total
    (f := followEdge (findSCCsDFS graph fuel) u) (l := getD graph u [])
    (P := fun s₁ => s₁.st = [u] ∧ s₁.onStack = s.onStack.insert u true ∧ s₁.disc = s.disc.insert u (s.time + 1) ∧
      s₁.sccs = s.sccs ∧ getD s₁.low u 0 = getD s₁.disc u 0)
    (s := { s with
        time := s.time + 1
        disc := s.disc.insert u (s.time + 1)
        low := s.low.insert u (s.time + 1)
        st := u :: s.st
        onStack := s.onStack.insert u true })
    (by
      intro s₁ v hv hP
      obtain ⟨hst, hstack, hdisc₁, hsccs, hlow⟩ := hP
      have hmem : v ∈ s₁.disc := by rw [hdisc₁]; exact (AList.mem_insert _).2 (Or.inr (hdisc v hv))
      unfold followEdge
      rw [if_neg (not_not_intro hmem)]
      split_ifs with hon
      · refine ⟨_, rfl, hst, hstack, hdisc₁, hsccs, ?_⟩
        have hvu : v = u := by
          by_contra hne
          rw [hstack, getD_insert, if_neg hne, hs.onStack v] at hon
          cases hon
        subst hvu
        simp [hlow]
      · exact ⟨s₁, rfl, hst, hstack, hdisc₁, hsccs, hlow⟩)
    ⟨by rw [hs.st], rfl, rfl, rfl, by simp⟩
  refine ⟨{ s₁ with st := [], onStack := s₁.onStack.insert u false, sccs := s₁.sccs ++ [[u]] }, ?_, ⟨rfl, ?_⟩,
    hdisc₁, ?_⟩
  · unfold findSCCsDFS
    rw [hloop]
    simp only [Option.bind_eq_bind, Option.bind_some, if_pos hlow, hst, popComponent, if_true]
    rfl
  · intro v
    simp only [hstack, getD_insert]
    split_ifs
    · rfl
    · exact hs.onStack v
  · rw [← hsccs]

/-- searches from undiscovered vertices, one after the other -/
theorem foldlM_findSCCsDFS {pag : PAG} (fuel : ℕ) {l : List (NodeId × List NodeId)} {s : Search} (hs : Idle s)
    (hdisc : ∀ p ∈ l, ∀ v ∈ getD pag p.1 [], v ∈ s.disc) (hnew : ∀ p ∈ l, getD s.disc p.1 0 = -1)
    (hnd : (l.map Prod.fst).Nodup) :
    ∃ s', l.foldlM (fun s pair =>
        if getD s.disc pair.1 0 = -1 then findSCCsDFS pag (fuel + 1) pair.1 s else some s) s = some s' ∧
      s'.sccs = s.sccs ++ l.map fun p => [p.1] := by
  induction l generalizing s with
  | nil => exact ⟨s, rfl, by simp⟩
  | cons p l ih =>
    obtain ⟨hp, hnd⟩ := List.nodup_cons.1 hnd
    obtain ⟨s₁, hs₁, hidle, hdisc₁, hsccs⟩ := findSCCsDFS_alone fuel (hdisc p List.mem_cons_self) hs
    obtain ⟨s', hs', hsccs'⟩ := ih hidle
      (fun q hq v hv => by
        rw [hdisc₁]; exact (AList.mem_insert _).2 (Or.inr (hdisc q (List.mem_cons_of_mem p hq) v hv)))
      (fun q hq => by
        have hne : q.1 ≠ p.1 := fun heq => hp (heq ▸ List.mem_map_of_mem hq)
        rw [hdisc₁, getD_insert, if_neg hne]; exact hnew q (List.mem_cons_of_mem p hq))
      hnd
    refine ⟨s', ?_, by rw [hsccs', hsccs]; simp⟩
    rw [List.foldlM_cons, if_pos (hnew p List.mem_cons_self), hs₁]
    exact hs'

/-- **Singleton zones.** Whatever the graph and the threshold, a cut that returns makes every key of the graph a zone
of its own, led by itself. -/
theorem greedySCCcut_eq {H : HashOrder} {fuel : ℕ} {pag : PAG} {threshold : ℕ}
    {cut : List (List NodeId) × List NodeId} (h : greedySCCcut H fuel pag threshold = some cut) :
    cut = (((iter H pag).map Prod.fst).map (fun node => [node]), (iter H pag).map Prod.fst) := by
  obtain ⟨s, hs, hcut⟩ := Option.bind_eq_some_iff.1 h
  have hsccs : s.sccs = ((iter H pag).map Prod.fst).map fun node => [node] := by
    have hfresh := fresh_initSearch H pag
    cases fuel with
    | zero =>
      -- without fuel there was nothing to search
      cases hl : iter H pag with
      | nil => rw [hl] at hs; cases hs; exact hfresh.sccs
      | cons p l =>
        have hmem : (p.1, p.2) ∈ iter H pag := by rw [hl]; exact List.mem_cons_self
        have hp : p.1 ∈ (initSearch H pag).disc := mem_disc_initSearch hmem (Or.inl rfl)
        rw [hl, List.foldlM_cons, if_pos (hfresh.disc p.1 hp)] at hs
        cases hs
    | succ fuel =>
      have hkey : ∀ p ∈ iter H pag, p.1 ∈ (initSearch H pag).disc := fun p hp => mem_disc_initSearch hp (Or.inl rfl)
      obtain ⟨s', hs', hsccs'⟩ := foldlM_findSCCsDFS fuel hfresh.toIdle
        (fun p hp v hv => by
          rw [getD_of_lookup (mem_iter.1 hp)] at hv
          exact mem_disc_initSearch hp (Or.inr hv))
        (fun p hp => hfresh.disc p.1 (hkey p hp)) (iter_keys_nodup H pag)
      obtain rfl : s = s' := Option.some.inj (hs.symm.trans hs')
      rw [hsccs', hfresh.sccs]; simp
  cases hcut
  rw [hsccs]
  generalize (iter H pag).map Prod.fst = keys
  by_cases hthreshold : threshold ≤ 1
  · have hzones : (keys.map fun node => [node]).filter (fun scc => decide (threshold ≤ scc.length)) =
        keys.map fun node => [node] := by simp [List.filter_map, Function.comp_def, hthreshold]
    rw [hzones]
    simp [zoneLeader, Function.comp_def]
  · have hzones : (keys.map fun node => [node]).filter (fun scc => decide (threshold ≤ scc.length)) = [] := by
      simp [List.filter_map, Function.comp_def, hthreshold]
    rw [hzones]
    simp

end PAGManager

end HawkTxn
