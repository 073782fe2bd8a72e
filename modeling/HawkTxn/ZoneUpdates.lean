/-
Zones from the wire (`updateDetectionZones`, `convertProtoDetectionZonesToInternal`, `broadcastTreeAdjustment`).

The decoder fills the zones and the leaders independently, and `broadcastTreeAdjustment` leaves the leaders out unless
it is given some. The loop over the zones reads the leader at the index of every zone, of an empty one as well.

Results:
- `foldlM_addZone_isSome`: the loop is defined where no zone lies beyond the leaders;
- `foldlM_addZone_recorded`: the last zone that contains the node is the one it records;
- `updatesSafely_iff`: when an update reads in range and leaves no node leading a zone it is not in.
-/
import HawkTxn.DetectionZoneManager
import HawkTxn.Network.Transport

namespace HawkTxn

open HawkTxn.Core UnorderedMap

namespace DetectionZoneManager

/-! ## Reads of the leaders -/

theorem addZone_isSome (newLeaders : List NodeId) (dz : DetectionZoneManager) (zone : List NodeId) (i : ℕ) :
    (addZone newLeaders dz (zone, i)).isSome ↔ i < newLeaders.length := by
  unfold addZone
  by_cases hi : i < newLeaders.length
  · simp only [List.getElem?_eq_getElem hi, Option.bind_eq_bind, Option.bind_some, hi, iff_true]
    split_ifs <;> rfl
  · simp [hi]

/-- the loop from index i on reads a leader for every zone -/
theorem foldlM_addZone_isSome {newLeaders : List NodeId} {zones : List (List NodeId)} {i : ℕ}
    {dz : DetectionZoneManager} : ((zones.zipIdx i).foldlM (addZone newLeaders) dz).isSome ↔
      ∀ j < zones.length, i + j < newLeaders.length := by
  induction zones generalizing i dz with
  | nil => simp
  | cons zone zones ih =>
    rw [List.zipIdx_cons, List.foldlM_cons]
    have hread := addZone_isSome newLeaders dz zone i
    cases hfirst : addZone newLeaders dz (zone, i) with
    | none =>
      have hout : ¬ i < newLeaders.length := by rw [← hread, hfirst]; simp
      simp only [Option.bind_eq_bind, Option.bind_none, Option.isSome_none, Bool.false_eq_true, false_iff]
      exact fun hall => hout (hall 0 (by simp))
    | some dz₁ =>
      have hin : i < newLeaders.length := by rw [← hread, hfirst]; rfl
      simp only [Option.bind_eq_bind, Option.bind_some, ih, List.length_cons]
      refine ⟨?_, ?_⟩
      · intro hrest j hj
        cases j with
        | zero => exact hin
        | succ j =>
          have := hrest j (by omega)
          omega
      · intro hall j hj
        have := hall (j + 1) (by omega)
        omega

theorem updateDetectionZones_isSome (dz : DetectionZoneManager) (newZones : List (List NodeId))
    (newLeaders : List NodeId) :
    (dz.updateDetectionZones newZones newLeaders).isSome ↔ newZones.length ≤ newLeaders.length := by
  rw [updateDetectionZones, foldlM_addZone_isSome]
  refine ⟨?_, fun h j hj => by omega⟩
  intro h
  by_contra hlt
  exact absurd (h newLeaders.length (not_le.1 hlt)) (by omega)

/-! ## The recorded zone -/

/-- what the node records after some zones: one that contains it, or no leader and no members -/
inductive Recorded (zones : List (List NodeId)) (dz : DetectionZoneManager) : Prop where
  | member (zone : List NodeId) (mem : zone ∈ zones) (mine : dz.nodeId ∈ zone)
      (recorded : dz.myDetectionZoneMembers = zone)
  | outside (none : ∀ zone ∈ zones, dz.nodeId ∉ zone) (leader : dz.myZoneLeaderId = 0)
      (members : dz.myDetectionZoneMembers = [])

theorem addZone_recorded {newLeaders : List NodeId} {dz dz' : DetectionZoneManager} {zones : List (List NodeId)}
    {zone : List NodeId} {i : ℕ} (hdz : Recorded zones dz) (h : addZone newLeaders dz (zone, i) = some dz') :
    Recorded (zones ++ [zone]) dz' := by
  have hkeeps : dz.nodeId ∉ zone → dz'.nodeId = dz.nodeId → dz'.myZoneLeaderId = dz.myZoneLeaderId →
      dz'.myDetectionZoneMembers = dz.myDetectionZoneMembers → Recorded (zones ++ [zone]) dz' := by
    intro hnot hnode hleader hmembers
    cases hdz with
    | member z mem mine recorded =>
      exact .member z (List.mem_append_left _ mem) (by rwa [hnode]) (hmembers.trans recorded)
    | outside none leader members =>
      refine .outside ?_ (hleader.trans leader) (hmembers.trans members)
      intro z hz
      rw [hnode]
      rcases List.mem_append.1 hz with hz | hz
      · exact none z hz
      · rw [List.mem_singleton.1 hz]; exact hnot
  obtain ⟨leader, -, h⟩ := Option.bind_eq_some_iff.1 h
  split_ifs at h with hempty hmine
  · cases h
    have hnil : zone = [] := hempty
    exact hkeeps (by simp [hnil]) rfl rfl rfl
  · cases h
    exact .member zone (by simp) hmine rfl
  · cases h
    exact hkeeps hmine rfl rfl rfl

theorem foldlM_addZone_recorded {newLeaders : List NodeId} {zones seen : List (List NodeId)} {i : ℕ}
    {dz dz' : DetectionZoneManager} (hdz : Recorded seen dz)
    (h : (zones.zipIdx i).foldlM (addZone newLeaders) dz = some dz') : Recorded (seen ++ zones) dz' := by
  induction zones generalizing seen i dz with
  | nil => cases h; simpa using hdz
  | cons zone zones ih =>
    rw [List.zipIdx_cons, List.foldlM_cons] at h
    obtain ⟨dz₁, hfirst, h⟩ := Option.bind_eq_some_iff.1 h
    have hrest := ih (addZone_recorded hdz hfirst) h
    rwa [List.append_assoc, List.singleton_append] at hrest

theorem updateDetectionZones_recorded {dz dz' : DetectionZoneManager} {newZones : List (List NodeId)}
    {newLeaders : List NodeId} (h : dz.updateDetectionZones newZones newLeaders = some dz') :
    Recorded newZones dz' := by
  rw [← List.nil_append newZones]
  exact foldlM_addZone_recorded (.outside (fun _ hz => absurd hz (by simp)) rfl rfl) h

/-- a node leads a zone it is not in exactly if its id is 0 and it is in no zone -/
theorem Recorded.leads_iff {zones : List (List NodeId)} {dz : DetectionZoneManager} (h : Recorded zones dz) :
    (dz.isZoneLeader = true → dz.nodeId ∈ dz.myDetectionZoneMembers) ↔
      dz.nodeId ≠ 0 ∨ ∃ zone ∈ zones, dz.nodeId ∈ zone := by
  cases h with
  | member zone mem mine recorded =>
    simp only [recorded, mine, implies_true, true_iff]
    exact Or.inr ⟨zone, mem, mine⟩
  | outside none leader members =>
    have hnowhere : ¬ ∃ zone ∈ zones, dz.nodeId ∈ zone := by
      intro hsome
      obtain ⟨zone, hz, hmem⟩ := hsome
      exact none zone hz hmem
    simp [isZoneLeader, leader, members, hnowhere]

/-! ## Updates from messages -/

/-- the update reads the leaders in range, and the node then leads no zone it is not in -/
def UpdatesSafely (dz : DetectionZoneManager) (newZones : List (List NodeId)) (newLeaders : List NodeId) : Prop :=
  ∃ dz', dz.updateDetectionZones newZones newLeaders = some dz' ∧
    (dz'.isZoneLeader = true → dz'.nodeId ∈ dz'.myDetectionZoneMembers)

/-- **Safe updates.** The update a decoded message brings is safe exactly if the message has a leader for every zone and
the node, if its id is 0, is in one of the zones. -/
theorem updatesSafely_iff {m : ProtoMessage} (hm : m.type = .distributedDetectionInit) (raw : RawScalars)
    (dz : DetectionZoneManager) :
    UpdatesSafely dz (Network.convertFromProtoMessage raw m).detectionZones
      (Network.convertFromProtoMessage raw m).detectionZoneLeaders ↔
    m.detectionZoneInitData.detectionZones.length ≤ m.detectionZoneInitData.detectionZoneLeaders.length ∧
      (dz.nodeId ≠ 0 ∨ ∃ zone ∈ m.detectionZoneInitData.detectionZones, dz.nodeId ∈ zone.nodes) := by
  have hdecoded : (Network.convertFromProtoMessage raw m).detectionZones =
        m.detectionZoneInitData.detectionZones.map (fun list => list.nodes) ∧
      (Network.convertFromProtoMessage raw m).detectionZoneLeaders =
        m.detectionZoneInitData.detectionZoneLeaders := by
    simp [Network.convertFromProtoMessage, hm, Network.convertProtoDetectionZonesToInternal]
  rw [hdecoded.1, hdecoded.2]
  have hzones : (∃ zone ∈ m.detectionZoneInitData.detectionZones.map fun list => list.nodes, dz.nodeId ∈ zone) ↔
      ∃ zone ∈ m.detectionZoneInitData.detectionZones, dz.nodeId ∈ zone.nodes := by simp
  have hleads : ∀ dz', dz.updateDetectionZones (m.detectionZoneInitData.detectionZones.map fun list => list.nodes)
      m.detectionZoneInitData.detectionZoneLeaders = some dz' →
      ((dz'.isZoneLeader = true → dz'.nodeId ∈ dz'.myDetectionZoneMembers) ↔
        dz.nodeId ≠ 0 ∨ ∃ zone ∈ m.detectionZoneInitData.detectionZones, dz.nodeId ∈ zone.nodes) := by
    intro dz' h
    rw [(updateDetectionZones_recorded h).leads_iff, updateDetectionZones_nodeId h, hzones]
  refine ⟨?_, ?_⟩
  · intro hsafe
    obtain ⟨dz', h, hleader⟩ := hsafe
    have hsome := (updateDetectionZones_isSome dz _ _).1 (Option.isSome_iff_exists.2 ⟨dz', h⟩)
    exact ⟨by simpa using hsome, (hleads dz' h).1 hleader⟩
  · intro hcond
    obtain ⟨hlen, hmine⟩ := hcond
    obtain ⟨dz', h⟩ := Option.isSome_iff_exists.1 ((updateDetectionZones_isSome dz
      (m.detectionZoneInitData.detectionZones.map fun list => list.nodes) _).2 (by simpa using hlen))
    exact ⟨dz', h, (hleads dz' h).2 hmine⟩

/-- two zones that overlap, an empty one, and a leader for each -/
def overlapping : ProtoMessage where
  type := .distributedDetectionInit
  payload := .detectionZoneInitData ⟨[⟨[1, 2]⟩, ⟨[]⟩, ⟨[2, 3]⟩], [1, 5, 3]⟩

/-- what `broadcastTreeAdjustment` sends for a zone of node 1 when it is given no leaders -/
def leaderless (raw : RawScalars) : ProtoMessage :=
  Network.convertToProtoMessage .stored (Network.adjustmentMsg raw 1 [[1]] [])

theorem updatesSafely_overlapping :
    UpdatesSafely (init 2) [[1, 2], [], [2, 3]] [1, 5, 3] :=
  (updatesSafely_iff (m := overlapping) rfl ⟨.unknown, 0, 0, 0, 0, .shared, false, 0, 0, 0⟩ (init 2)).2
    ⟨by decide, Or.inl (by decide)⟩

theorem leaderless_reads_out_of_range : ¬ ∀ (m : ProtoMessage) (raw : RawScalars) (dz : DetectionZoneManager),
    m.type = .distributedDetectionInit →
      UpdatesSafely dz (Network.convertFromProtoMessage raw m).detectionZones
        (Network.convertFromProtoMessage raw m).detectionZoneLeaders := by
  intro hall
  obtain ⟨dz', h, -⟩ := hall (leaderless ⟨.unknown, 0, 0, 0, 0, .shared, false, 0, 0, 0⟩)
    ⟨.unknown, 0, 0, 0, 0, .shared, false, 0, 0, 0⟩ (init 1) rfl
  have hout : (init 1).updateDetectionZones [[1]] [] = none := rfl
  cases hout.symm.trans h

end DetectionZoneManager

end HawkTxn
