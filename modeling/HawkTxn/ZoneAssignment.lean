/-
A cut adopted on every node (`greedySCCcut`, then `updateDetectionZones`).

`PAGManager` cuts the predicted access graph into zones, `DetectionZoneManager` records the zone of its node. Here the
two meet: one manager for every node, all given the zones and leaders of one cut.

Results:
- `greedySCCcut_returns`: the cut always returns, whatever the fuel past the first call;
- `updateDetectionZones_outside`: a node in no zone records no leader and no members;
- `cut_adopted`: the zones of a cut are nonempty, duplicate-free, disjoint and led by their smallest member, every
  member records its zone and leader, one member of each zone leads it, and a node in no zone leads nothing.
-/
import HawkTxn.DetectionZoneManager
import HawkTxn.PAGManager

namespace HawkTxn

open HawkTxn.Core UnorderedMap
open DetectionZoneManager (addZone updateDetectionZones_adopted updateDetectionZones_nodeId)

namespace PAGManager

/-! ## The cut returns -/

/-- no search enters another one, so one level of recursion is enough -/
theorem greedySCCcut_returns (H : HashOrder) (fuel : ℕ) (pag : PAG) (threshold : ℕ) :
    ∃ cut, greedySCCcut H (fuel + 1) pag threshold = some cut := by
  have hfresh := fresh_initSearch H pag
  have hkey : ∀ p ∈ iter H pag, p.1 ∈ (initSearch H pag).disc := fun p hp => mem_disc_initSearch hp (Or.inl rfl)
  obtain ⟨s, hs, -⟩ := foldlM_findSCCsDFS fuel hfresh.toIdle
    (fun p hp v hv => by
      rw [getD_of_lookup (mem_iter.1 hp)] at hv
      exact mem_disc_initSearch hp (Or.inr hv))
    (fun p hp => hfresh.disc p.1 (hkey p hp)) (iter_keys_nodup H pag)
  exact ⟨_, Option.bind_eq_some_iff.2 ⟨s, hs, rfl⟩⟩

end PAGManager

namespace DetectionZoneManager

/-! ## Nodes in no zone -/

/-- no zone is recorded for the node itself -/
def Unassigned (dz : DetectionZoneManager) : Prop := dz.myZoneLeaderId = 0 ∧ dz.myDetectionZoneMembers = []

theorem addZone_outside {newLeaders : List NodeId} {dz dz' : DetectionZoneManager} {entry : List NodeId × ℕ}
    (hout : dz.nodeId ∉ entry.1) (hdz : Unassigned dz) (h : addZone newLeaders dz entry = some dz') :
    Unassigned dz' := by
  obtain ⟨leader, -, h⟩ := Option.bind_eq_some_iff.1 h
  rw [if_neg hout] at h
  split_ifs at h <;> cases h <;> exact hdz

/-- **Outside.** Whatever the state before, a node in no zone records none. -/
theorem updateDetectionZones_outside {dz dz' : DetectionZoneManager} {newZones : List (List NodeId)}
    {newLeaders : List NodeId} (hout : ∀ zone ∈ newZones, dz.nodeId ∉ zone)
    (h : dz.updateDetectionZones newZones newLeaders = some dz') : Unassigned dz' := by
  have hloop := foldlM_invariant (P := fun s : DetectionZoneManager => s.nodeId = dz.nodeId ∧ Unassigned s)
    (fun s entry s' hentry hs hst => ⟨(addZone_nodeId hst).trans hs.1, ?_⟩) h ⟨rfl, rfl, rfl⟩
  · exact hloop.2
  · refine addZone_outside ?_ hs.2 hst
    rw [hs.1]
    exact hout entry.1 (List.fst_mem_of_mem_zipIdx hentry)

end DetectionZoneManager

namespace ZoneAssignment

/-! ## Cuts -/

/-- equally many zones and leaders; the zones are nonempty, duplicate-free and disjoint, and each leader is the smallest
member of the zone at its index -/
structure WellCut (zones : List (List NodeId)) (leaders : List NodeId) : Prop where
  aligned : zones.length = leaders.length
  nonempty : ∀ zone ∈ zones, zone ≠ []
  nodup : ∀ zone ∈ zones, zone.Nodup
  disjoint : zones.Pairwise List.Disjoint
  smallest : ∀ p ∈ zones.zip leaders, p.2 ∈ p.1 ∧ ∀ n ∈ p.1, p.2 ≤ n

theorem WellCut.partition {zones : List (List NodeId)} {leaders : List NodeId} (h : WellCut zones leaders) :
    DetectionZoneManager.Partition zones leaders where
  aligned := h.aligned
  zip := {
    disjoint := by
      have hfst : (zones.zip leaders).map Prod.fst = zones := List.map_fst_zip h.aligned.le
      have hpairs := h.disjoint
      rw [← hfst, List.pairwise_map] at hpairs
      exact hpairs
    leads := fun p hp => (h.smallest p hp).1 }

/-- distinct nodes, each a zone of its own -/
theorem wellCut_singletons {l : List NodeId} (h : l.Nodup) : WellCut (l.map fun node => [node]) l where
  aligned := by simp
  nonempty zone hzone := by
    obtain ⟨node, -, rfl⟩ := List.mem_map.1 hzone
    exact List.cons_ne_nil node []
  nodup zone hzone := by
    obtain ⟨node, -, rfl⟩ := List.mem_map.1 hzone
    exact List.nodup_singleton node
  disjoint := by
    rw [List.pairwise_map]
    exact h.imp fun hne => by simpa [eq_comm] using hne
  smallest p hp := by
    have hzip : (l.map fun node => [node]).zip l = l.map fun node => ([node], node) := by
      simpa using List.zip_map' (f := fun node : NodeId => [node]) (g := id) (l := l)
    rw [hzip] at hp
    obtain ⟨node, -, rfl⟩ := List.mem_map.1 hp
    exact ⟨List.mem_singleton_self node, fun n hn => (List.mem_singleton.1 hn).ge⟩

/-! ## Every node at once -/

/-- the zone managers of all nodes, in any state -/
structure Managers where
  manager : NodeId → DetectionZoneManager
  nodeId : ∀ n, (manager n).nodeId = n

/-- what the managers know after adopting zones and leaders: the members of a zone record it and its leader, and one of
them leads it; a node in no zone (ids start at 1) leads nothing and has no members -/
structure Assigned (zones : List (List NodeId)) (leaders : List NodeId) (after : NodeId → DetectionZoneManager) :
    Prop where
  members : ∀ p ∈ zones.zip leaders, ∀ n ∈ p.1,
    (after n).myZoneLeaderId = p.2 ∧ (after n).myDetectionZoneMembers = p.1
  leads : ∀ p ∈ zones.zip leaders, ∃! n, n ∈ p.1 ∧ (after n).isZoneLeader = true
  outside : ∀ n, 1 ≤ n → (∀ zone ∈ zones, n ∉ zone) →
    (after n).isZoneLeader = false ∧ (after n).myDetectionZoneMembers = []

theorem isZoneLeader_iff {dz : DetectionZoneManager} : dz.isZoneLeader = true ↔ dz.nodeId = dz.myZoneLeaderId := by
  simp [DetectionZoneManager.isZoneLeader]

/-- zones that are well cut are adopted by every manager -/
theorem WellCut.assigned {zones : List (List NodeId)} {leaders : List NodeId} (h : WellCut zones leaders)
    (ms : Managers) : ∃ after : NodeId → DetectionZoneManager,
      (∀ n, (ms.manager n).updateDetectionZones zones leaders = some (after n)) ∧ Assigned zones leaders after := by
  choose after hupdate hadopted using fun n => updateDetectionZones_adopted h.partition (ms.manager n)
  have hid : ∀ n, (after n).nodeId = n := fun n => (updateDetectionZones_nodeId (hupdate n)).trans (ms.nodeId n)
  have hmember : ∀ p ∈ zones.zip leaders, ∀ n ∈ p.1,
      (after n).myZoneLeaderId = p.2 ∧ (after n).myDetectionZoneMembers = p.1 := by
    intro p hp n hn
    exact (hadopted n).member p hp (by rw [hid]; exact hn)
  refine ⟨after, hupdate, hmember, ?_, ?_⟩
  · intro p hp
    have hleader : p.2 ∈ p.1 := (h.smallest p hp).1
    refine ⟨p.2, ⟨hleader, ?_⟩, ?_⟩
    · rw [isZoneLeader_iff, hid, (hmember p hp p.2 hleader).1]
    · -- another member that leads would have the leader's id
      intro n h
      obtain ⟨hn, hleads⟩ := h
      rw [isZoneLeader_iff, hid, (hmember p hp n hn).1] at hleads
      exact hleads
  · intro n hpos hout
    obtain ⟨hleader, hmembers⟩ := DetectionZoneManager.updateDetectionZones_outside
      (by rw [ms.nodeId]; exact hout) (hupdate n)
    refine ⟨?_, hmembers⟩
    rw [← Bool.not_eq_true, isZoneLeader_iff, hid, hleader]
    intro hzero
    rw [hzero] at hpos
    exact absurd hpos (by decide)

/-- **The cut on every node.** For every graph, iteration order and threshold the cut returns, its zones are well cut,
and once every manager has adopted them each zone is known to its members and led by one of them. -/
theorem cut_adopted (H : HashOrder) (pag : PAG) (threshold : ℕ) (ms : Managers) :
    ∃ zones leaders, (∀ fuel, PAGManager.greedySCCcut H (fuel + 1) pag threshold = some (zones, leaders)) ∧
      WellCut zones leaders ∧ ∃ after : NodeId → DetectionZoneManager,
        (∀ n, (ms.manager n).updateDetectionZones zones leaders = some (after n)) ∧ Assigned zones leaders after := by
  have hcut : WellCut (((iter H pag).map Prod.fst).map fun node => [node]) ((iter H pag).map Prod.fst) :=
    wellCut_singletons (iter_keys_nodup H pag)
  refine ⟨_, _, fun fuel => ?_, hcut, hcut.assigned ms⟩
  obtain ⟨cut, hreturns⟩ := PAGManager.greedySCCcut_returns H fuel pag threshold
  rw [hreturns, PAGManager.greedySCCcut_eq hreturns]

end ZoneAssignment

end HawkTxn
