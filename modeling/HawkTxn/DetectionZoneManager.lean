/-
Detection zones as one node knows them (`DetectionZoneManager.h`, `DetectionZoneManager.cpp`).

- `init`: a node starts as the leader of a zone of its own;
- `updateDetectionZones`: the loop over new zones reads the leader at the same index, which is undefined (`none`) where
  there are fewer leaders than zones.

Results:
- `updateDetectionZones_adopted`: a partition of nodes into zones with leaders is adopted, whatever the state before.
-/
import HawkTxn.Commons
import HawkTxn.Core.Runs

namespace HawkTxn

open HawkTxn.Core UnorderedMap

structure DetectionZoneManager where
  nodeId : NodeId
  detectionZones : UnorderedMap NodeId (List NodeId)
  myZoneLeaderId : NodeId
  myDetectionZoneMembers : List NodeId
deriving DecidableEq

namespace DetectionZoneManager

/-! ## Model -/

def init (nodeId : NodeId) : DetectionZoneManager := ⟨nodeId, pushBack ∅ nodeId nodeId, nodeId, [nodeId]⟩

/-- one round of the loop over the new zones -/
def addZone (newLeaders : List NodeId) (dz : DetectionZoneManager) (entry : List NodeId × ℕ) :
    Option DetectionZoneManager := do
  let leader ← newLeaders[entry.2]?
  if entry.1 = [] then some dz
  else if dz.nodeId ∈ entry.1 then
    some { dz with
      detectionZones := dz.detectionZones.insert leader entry.1
      myZoneLeaderId := leader
      myDetectionZoneMembers := entry.1 }
  else some { dz with detectionZones := dz.detectionZones.insert leader entry.1 }

def updateDetectionZones (dz : DetectionZoneManager) (newZones : List (List NodeId)) (newLeaders : List NodeId) :
    Option DetectionZoneManager :=
  newZones.zipIdx.foldlM (addZone newLeaders)
    { dz with detectionZones := ∅, myZoneLeaderId := 0, myDetectionZoneMembers := [] }

def isZoneLeader (dz : DetectionZoneManager) : Bool := dz.nodeId = dz.myZoneLeaderId

theorem addZone_nodeId {newLeaders : List NodeId} {dz dz' : DetectionZoneManager} {entry : List NodeId × ℕ}
    (h : addZone newLeaders dz entry = some dz') : dz'.nodeId = dz.nodeId := by
  obtain ⟨leader, -, h⟩ := Option.bind_eq_some_iff.1 h
  split_ifs at h <;> cases h <;> rfl

theorem updateDetectionZones_nodeId {dz dz' : DetectionZoneManager} {newZones : List (List NodeId)}
    {newLeaders : List NodeId} (h : dz.updateDetectionZones newZones newLeaders = some dz') :
    dz'.nodeId = dz.nodeId :=
  foldlM_invariant (P := fun s : DetectionZoneManager => s.nodeId = dz.nodeId)
    (fun _ _ _ _ hs hst => (addZone_nodeId hst).trans hs) h rfl

/-! ## Partitions -/

/-- zones, each with its leader, that share no node; a leader is a member of its zone -/
structure Apart (config : List (List NodeId × NodeId)) : Prop where
  disjoint : config.Pairwise fun p q => p.1.Disjoint q.1
  leads : ∀ p ∈ config, p.2 ∈ p.1

/-- zones that share no node and, at the same indices, their leaders -/
structure Partition (zones : List (List NodeId)) (leaders : List NodeId) : Prop where
  aligned : zones.length = leaders.length
  zip : Apart (zones.zip leaders)

/-- the manager's table is the configuration, and a member of a zone of it records that zone's leader and members -/
structure Adopted (config : List (List NodeId × NodeId)) (dz : DetectionZoneManager) : Prop where
  zones : ∀ leader zone, dz.detectionZones.lookup leader = some zone ↔ (zone, leader) ∈ config
  member : ∀ p ∈ config, dz.nodeId ∈ p.1 → dz.myZoneLeaderId = p.2 ∧ dz.myDetectionZoneMembers = p.1

theorem addZone_adopted {newLeaders : List NodeId} {dz : DetectionZoneManager} {config : List (List NodeId × NodeId)}
    {zone : List NodeId} {leader : NodeId} {i : ℕ} (hread : newLeaders[i]? = some leader)
    (hapart : Apart (config ++ [(zone, leader)])) (hdz : Adopted config dz) :
    ∃ dz', addZone newLeaders dz (zone, i) = some dz' ∧ Adopted (config ++ [(zone, leader)]) dz' := by
  have hleads : leader ∈ zone := hapart.leads (zone, leader) (by simp)
  have hne : zone ≠ [] := List.ne_nil_of_mem hleads
  have hother : ∀ q ∈ config, ∀ n ∈ q.1, n ∉ zone := by
    intro q hq n hn hmem
    have hpair := (List.pairwise_append.1 hapart.disjoint).2.2 q hq (zone, leader) List.mem_cons_self
    exact hpair hn hmem
  have htable : ∀ k z, (dz.detectionZones.insert leader zone).lookup k = some z ↔
      (z, k) ∈ config ++ [(zone, leader)] := by
    intro k z
    rw [lookup_insert_eq, List.mem_append, List.mem_singleton]
    split_ifs with hk
    · -- no earlier zone has this leader
      subst hk
      have hnew : (z, k) ∉ config :=
        fun hq => hother (z, k) hq k (hapart.leads (z, k) (List.mem_append_left _ hq)) hleads
      simp [hnew, eq_comm]
    · rw [hdz.zones]
      simp [hk]
  unfold addZone
  simp only [hread, Option.bind_eq_bind, Option.bind_some, if_neg hne]
  by_cases hmine : dz.nodeId ∈ zone
  · rw [if_pos hmine]
    refine ⟨_, rfl, htable, ?_⟩
    intro q hq hmem
    rcases List.mem_append.1 hq with hq | hq
    · exact absurd hmine (hother q hq _ hmem)
    · rw [List.mem_singleton.1 hq]; exact ⟨rfl, rfl⟩
  · rw [if_neg hmine]
    refine ⟨_, rfl, htable, ?_⟩
    intro q hq hmem
    rcases List.mem_append.1 hq with hq | hq
    · exact hdz.member q hq hmem
    · rw [List.mem_singleton.1 hq] at hmem; exact absurd hmem hmine

/-- the loop from index i on, with `config` adopted so far -/
theorem foldlM_addZone_adopted {newLeaders : List NodeId} {zones : List (List NodeId)} {leaders : List NodeId} {i : ℕ}
    {config : List (List NodeId × NodeId)} {dz : DetectionZoneManager} (hdrop : newLeaders.drop i = leaders)
    (haligned : zones.length = leaders.length) (hapart : Apart (config ++ zones.zip leaders))
    (hdz : Adopted config dz) : ∃ dz', (zones.zipIdx i).foldlM (addZone newLeaders) dz = some dz' ∧
      Adopted (config ++ zones.zip leaders) dz' := by
  induction zones generalizing leaders i config dz with
  | nil => exact ⟨dz, rfl, by simpa using hdz⟩
  | cons zone zones ih =>
    cases leaders with
    | nil => cases haligned
    | cons leader leaders =>
      have hsplit : config ++ (zone :: zones).zip (leader :: leaders) =
          config ++ [(zone, leader)] ++ zones.zip leaders := by simp
      have hread : newLeaders[i]? = some leader := by
        rw [← List.head?_drop, hdrop, List.head?_cons]
      have hrest : newLeaders.drop (i + 1) = leaders := by
        rw [← List.tail_drop, hdrop, List.tail_cons]
      rw [hsplit] at hapart ⊢
      have hfirst : Apart (config ++ [(zone, leader)]) :=
        ⟨(List.pairwise_append.1 hapart.disjoint).1, fun p hp => hapart.leads p (List.mem_append_left _ hp)⟩
      obtain ⟨dz₁, hdz₁, hadopted⟩ := addZone_adopted hread hfirst hdz
      obtain ⟨dz', hdz', hfinal⟩ := ih hrest (Nat.succ.inj haligned) hapart hadopted
      refine ⟨dz', ?_, hfinal⟩
      rw [List.zipIdx_cons, List.foldlM_cons, hdz₁]
      exact hdz'

/-- **Adoption.** Whatever the state before, a partition is adopted. -/
theorem updateDetectionZones_adopted {zones : List (List NodeId)} {leaders : List NodeId} (h : Partition zones leaders)
    (dz : DetectionZoneManager) : ∃ dz', dz.updateDetectionZones zones leaders = some dz' ∧
      Adopted (zones.zip leaders) dz' := by
  rw [← List.nil_append (zones.zip leaders)]
  refine foldlM_addZone_adopted List.drop_zero h.aligned h.zip ⟨?_, ?_⟩
  · intro k z; simp
  · intro p hp; cases hp

/-- distinct nodes, each a zone of its own -/
theorem partition_singletons {l : List NodeId} (h : l.Nodup) : Partition (l.map fun node => [node]) l where
  aligned := by simp
  zip := by
    have hzip : (l.map fun node => [node]).zip l = l.map fun node => ([node], node) := by
      simpa using List.zip_map' (f := fun node : NodeId => [node]) (g := id) (l := l)
    rw [hzip]
    refine ⟨?_, ?_⟩
    · rw [List.pairwise_map]
      exact h.imp fun hne => by simpa [eq_comm] using hne
    · intro p hp
      obtain ⟨node, -, rfl⟩ := List.mem_map.1 hp
      exact List.mem_singleton_self node

end DetectionZoneManager

end HawkTxn
