/-
The zones of a cut against the graph it cuts (`greedySCCcut`).

A cut is meant to keep the large strongly connected components of the predicted access graph as zones and to put every
other node into a zone of its own. `ExactZones` and `Covers` state this. By `greedySCCcut_eq` the zones are the
waiting nodes, one by one, so each holds only for the graphs that leave nothing else to do.

Results:
- `exactZones_iff`: the large zones are the large components exactly when there is no large component;
- `covers_iff`: the zones partition the nodes exactly when every held node also waits.
-/
import HawkTxn.Core.Digraph
import HawkTxn.ZoneAssignment

namespace HawkTxn

open HawkTxn.Core UnorderedMap

namespace PAGManager

/-! ## Components and zones -/

/-- a transaction of node u waits for a transaction of node v -/
def Edge (pag : PAG) (u v : NodeId) : Prop := v ∈ getD pag u []

/-- x occurs in the graph as a waiting node or as a held node -/
def Vertex (pag : PAG) (x : NodeId) : Prop := x ∈ pag ∨ ∃ u, Edge pag u x

/-- C is a strongly connected component -/
def IsComponent (pag : PAG) (C : Set NodeId) : Prop :=
  ∃ x, Vertex pag x ∧ C = {y | SameComponent (Edge pag) x y}

/-- C has `threshold` members or more -/
def Large (threshold : ℕ) (C : Set NodeId) : Prop := (threshold : ℕ∞) ≤ C.encard

/-- the zones with `threshold` members or more are the large components, each listed once -/
structure ExactZones (pag : PAG) (threshold : ℕ) (zones : List (List NodeId)) : Prop where
  components : ∀ z ∈ zones, threshold ≤ z.length → z.Nodup ∧ IsComponent pag {x | x ∈ z}
  listed : ∀ C, IsComponent pag C → Large threshold C → ∃ z ∈ zones, {x | x ∈ z} = C
  once : (zones.filter fun z => decide (threshold ≤ z.length)).Pairwise fun z z' => {x | x ∈ z} ≠ {x | x ∈ z'}

/-- every node of the graph is in exactly one zone, every other node in none -/
def Covers (pag : PAG) (zones : List (List NodeId)) : Prop :=
  ∀ x, (Vertex pag x → zones.countP (fun z => decide (x ∈ z)) = 1) ∧ (¬ Vertex pag x → ∀ z ∈ zones, x ∉ z)

/-- the zones of a cut -/
theorem greedySCCcut_zones (H : HashOrder) (fuel : ℕ) (pag : PAG) (threshold : ℕ) :
    ∃ cut, greedySCCcut H (fuel + 1) pag threshold = some cut ∧
      cut.1 = ((iter H pag).map Prod.fst).map fun node => [node] := by
  obtain ⟨cut, hcut⟩ := greedySCCcut_returns H fuel pag threshold
  exact ⟨cut, hcut, congrArg Prod.fst (greedySCCcut_eq hcut)⟩

theorem mem_iter_keys {H : HashOrder} {pag : PAG} {x : NodeId} : x ∈ (iter H pag).map Prod.fst ↔ x ∈ pag :=
  (iter_keys_perm H pag).mem_iff.trans AList.mem_keys

/-! ## Large components -/

/-- a zone of a cut is not a large component -/
theorem not_large_zone {H : HashOrder} {pag : PAG} {zones : List (List NodeId)}
    (hzones : zones = ((iter H pag).map Prod.fst).map fun node => [node]) {threshold : ℕ} (hthreshold : 2 ≤ threshold)
    {z : List NodeId} (hz : z ∈ zones) : ¬ Large threshold {x | x ∈ z} := by
  rw [hzones] at hz
  obtain ⟨node, -, rfl⟩ := List.mem_map.1 hz
  have hsingle : {x : NodeId | x ∈ [node]} = {node} := by ext x; simp
  rw [Large, hsingle, Set.encard_singleton]
  intro hlarge
  have : threshold ≤ 1 := by exact_mod_cast hlarge
  omega

/-- **The cut keeps no component.** For a threshold of at least two, the zones of that size are the strongly connected
components of that size exactly when the graph has none: every zone is a single node. -/
theorem exactZones_iff (H : HashOrder) (fuel : ℕ) (pag : PAG) {threshold : ℕ} (hthreshold : 2 ≤ threshold) :
    ∃ cut, greedySCCcut H (fuel + 1) pag threshold = some cut ∧
      (ExactZones pag threshold cut.1 ↔ ∀ C, IsComponent pag C → ¬ Large threshold C) := by
  obtain ⟨cut, hcut, hzones⟩ := greedySCCcut_zones H fuel pag threshold
  have hsmall : ∀ z ∈ cut.1, z.length = 1 := by
    intro z hz
    rw [hzones] at hz
    obtain ⟨node, -, rfl⟩ := List.mem_map.1 hz
    rfl
  refine ⟨cut, hcut, ?_, ?_⟩
  · intro hexact C hC hlarge
    obtain ⟨z, hz, rfl⟩ := hexact.listed C hC hlarge
    exact not_large_zone hzones hthreshold hz hlarge
  · intro hnone
    refine ⟨?_, fun C hC hlarge => absurd hlarge (hnone C hC), ?_⟩
    · intro z hz hlen
      have := hsmall z hz
      omega
    · have hempty : cut.1.filter (fun z => decide (threshold ≤ z.length)) = [] := by
        apply List.filter_eq_nil_iff.2
        intro z hz
        have := hsmall z hz
        simp only [decide_eq_true_eq]
        omega
      rw [hempty]
      exact .nil

/-- nodes 1 and 2 wait for each other -/
def mutualWait : PAG := pushAll ∅ [(1, 2), (2, 1)]

/-- nodes 1 and 2 wait in a chain, so that no component is large -/
theorem exactZones_iff_chain :
    2 ≤ 2 ∧ ∃ cut, greedySCCcut .stored 1 (pushAll ∅ [(1, 2)]) 2 = some cut ∧
      (ExactZones (pushAll ∅ [(1, 2)]) 2 cut.1 ↔
        ∀ C, IsComponent (pushAll ∅ [(1, 2)]) C → ¬ Large 2 C) :=
  ⟨le_rfl, exactZones_iff .stored 0 _ le_rfl⟩

theorem isComponent_mutualWait : IsComponent mutualWait {y | SameComponent (Edge mutualWait) 1 y} :=
  ⟨1, Or.inl (by decide), rfl⟩

theorem large_mutualWait : Large 2 {y | SameComponent (Edge mutualWait) 1 y} := by
  have hpair : ({1, 2} : Set NodeId) ⊆ {y | SameComponent (Edge mutualWait) 1 y} := by
    have h12 : Edge mutualWait 1 2 := by unfold Edge; decide
    have h21 : Edge mutualWait 2 1 := by unfold Edge; decide
    rintro y (rfl | rfl)
    · exact SameComponent.refl _
    · exact ⟨.single h12, .single h21⟩
  calc
    ((2 : ℕ) : ℕ∞) = ({1, 2} : Set NodeId).encard := by rw [Set.encard_pair (by decide)]; rfl
    _ ≤ _ := Set.encard_le_encard hpair

/-- the cut makes two zones of the two nodes that wait for each other -/
theorem not_exactZones_mutualWait :
    ∃ cut, greedySCCcut .stored 1 mutualWait 2 = some cut ∧ ¬ ExactZones mutualWait 2 cut.1 := by
  obtain ⟨cut, hcut, hzones⟩ := greedySCCcut_zones .stored 0 mutualWait 2
  refine ⟨cut, hcut, fun hexact => ?_⟩
  obtain ⟨z, hz, hz'⟩ := hexact.listed _ isComponent_mutualWait large_mutualWait
  exact not_large_zone hzones le_rfl hz (hz' ▸ large_mutualWait)

/-! ## Every node in a zone -/

/-- **Only waiting nodes are in a zone.** Whatever the threshold, the zones of the graph of any sampled edges partition
its nodes exactly when every held node also waits. -/
theorem covers_iff (H : HashOrder) (fuel : ℕ) (sampledPagEdges : List WFDEdge) (threshold : ℕ) :
    ∃ cut, greedySCCcut H (fuel + 1) (generatePAG sampledPagEdges) threshold = some cut ∧
      (Covers (generatePAG sampledPagEdges) cut.1 ↔
        ∀ u v, Edge (generatePAG sampledPagEdges) u v → v ∈ generatePAG sampledPagEdges) := by
  generalize generatePAG sampledPagEdges = pag
  obtain ⟨cut, hcut, hzones⟩ := greedySCCcut_zones H fuel pag threshold
  have hmem : ∀ x, (∃ z ∈ cut.1, x ∈ z) ↔ x ∈ pag := by
    intro x
    rw [hzones, ← mem_iter_keys (H := H)]
    simp
  have hcount : ∀ x, cut.1.countP (fun z => decide (x ∈ z)) = if x ∈ pag then 1 else 0 := by
    intro x
    have hpred : (fun z => decide (x ∈ z)) ∘ (fun node : NodeId => [node]) = fun node => node == x := by
      funext node
      rw [Function.comp_apply, Bool.eq_iff_iff, decide_eq_true_eq, beq_iff_eq, List.mem_singleton]
      exact eq_comm
    rw [hzones, List.countP_map, hpred]
    have hkeys : ((iter H pag).map Prod.fst).count x = if x ∈ (iter H pag).map Prod.fst then 1 else 0 :=
      List.Nodup.count (iter_keys_nodup H pag)
    simpa only [mem_iter_keys, List.count] using hkeys
  refine ⟨cut, hcut, ?_, ?_⟩
  · intro hcovers u v huv
    have hone := (hcovers v).1 (Or.inr ⟨u, huv⟩)
    rw [hcount] at hone
    by_contra hv
    rw [if_neg hv] at hone
    cases hone
  · intro hheld x
    refine ⟨?_, fun hx z hz hxz => hx (Or.inl ((hmem x).1 ⟨z, hz, hxz⟩))⟩
    rintro (hx | ⟨u, hux⟩)
    · rw [hcount, if_pos hx]
    · rw [hcount, if_pos (hheld u x hux)]

/-- a transaction of node 1 waits for one of node 2 -/
def oneEdge : List WFDEdge := [⟨11, 12, 1, 2⟩]

/-- node 2 is in no zone -/
theorem not_covers_oneEdge :
    greedySCCcut .stored 1 (generatePAG oneEdge) 1 = some ([[1]], [1]) ∧ ¬ Covers (generatePAG oneEdge) [[1]] := by
  have hvertex : Vertex (generatePAG oneEdge) 2 := Or.inr ⟨1, by unfold Edge; decide⟩
  exact ⟨rfl, fun hcovers => absurd ((hcovers 2).1 hvertex) (by decide)⟩

end PAGManager

end HawkTxn
