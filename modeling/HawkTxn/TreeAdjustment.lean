/-
Tree adjustments across the cluster (`handlePAGResponse`, `broadcastTreeAdjustment`, `updateDetectionZones`).

The central node cuts new zones and broadcasts them to its peers. A peer that handles the message adopts the zones,
whatever it stored before. The broadcast leaves its sender out and the central node does not adopt the zones it cut, so
it keeps what it stored before.

Between the broadcast and the last DISTRIBUTED_DETECTION_INIT anything may happen but another adjustment.

Results:
- `spreading_of_adjust`, `step_spreading`: who has adopted the zones, and whose message is on its way;
- `agreement_iff`: all nodes agree in the end exactly when the central node had the new zones before.
-/
import HawkTxn.Cluster

namespace HawkTxn

open HawkTxn.Core UnorderedMap
open DistributedDBNode (Event)
open DetectionZoneManager (Adopted Partition)

namespace Cluster

/-! ## Adjustments -/

/-- the zones and leaders a step broadcasts -/
def adjustments (cl : Cluster) (a : Act) : List (List (List NodeId) × List NodeId) :=
  match cl.event? a with
  | none => []
  | some (n, ev) => ((cl.nodes n).step ev).elim [] Outcome.adjustments

/-- no message with new zones is in flight -/
def Settled (cl : Cluster) : Prop := ∀ p ∈ cl.inFlight, p.2.type ≠ .distributedDetectionInit

instance (cl : Cluster) : Decidable (Settled cl) := inferInstanceAs (Decidable (∀ p ∈ cl.inFlight, _))

/-- the zones node n stores -/
def zonesOf (cl : Cluster) (n : NodeId) : DetectionZoneManager := (cl.nodes n).detectionZoneManager

/-- all nodes store the same zones, and every member of a zone of the configuration records its leader and members -/
structure Agreement (cl : Cluster) (config : List (List NodeId × NodeId)) : Prop where
  same : ∀ i ∈ intRange 1 cl.numNodes, ∀ j ∈ intRange 1 cl.numNodes, ∀ leader,
    (cl.zonesOf i).detectionZones.lookup leader = (cl.zonesOf j).detectionZones.lookup leader
  member : ∀ p ∈ config, ∀ i ∈ intRange 1 cl.numNodes, i ∈ p.1 →
    (cl.zonesOf i).myZoneLeaderId = p.2 ∧ (cl.zonesOf i).myDetectionZoneMembers = p.1

/-- the central node has the configuration already: it stores the zones, unless it has no peer, and records the zone it
is in -/
structure CentralHas (cl : Cluster) (config : List (List NodeId × NodeId)) : Prop where
  zones : cl.numNodes = 1 ∨ ∀ leader zone,
    (cl.zonesOf centralizedNodeId).detectionZones.lookup leader = some zone ↔ (zone, leader) ∈ config
  member : ∀ p ∈ config, centralizedNodeId ∈ p.1 → (cl.zonesOf centralizedNodeId).myZoneLeaderId = p.2 ∧
    (cl.zonesOf centralizedNodeId).myDetectionZoneMembers = p.1

theorem zonesOf_after (cl : Cluster) (E : Env) (n i : NodeId) (o : Outcome) :
    (cl.after E n o).zonesOf i = if i = n then o.node.detectionZoneManager else cl.zonesOf i := by
  rw [zonesOf, nodes_after]
  split_ifs <;> rfl

/-! ## What is in flight -/

theorem inFlight_after_of_effects_nil {cl : Cluster} {o : Outcome} (h : o.effects = []) (E : Env) (n : NodeId) :
    (cl.after E n o).inFlight = cl.inFlight := by
  simp [after, h]

/-- a message that an event without an adjustment pushes has no new zones -/
theorem type_of_pushes {E : Env} {nd : DistributedDBNode} {ev : Event} {o : Outcome} (h : nd.step ev = some o)
    (hadj : o.adjustments = []) (hlocal : ∀ msg, .pushLocal msg ∈ o.effects → msg.type = .pathPushingProbe) :
    ∀ p ∈ o.effects.flatMap (pushes E nd), p.2.type ≠ .distributedDetectionInit := by
  intro p hp
  obtain ⟨effect, heffect, hp⟩ := List.mem_flatMap.1 hp
  cases effect with
  | send msg =>
    have hsent : msg ∈ o.sent := List.mem_filterMap.2 ⟨_, heffect, rfl⟩
    have htype : msg.type ∈ DistributedDBNode.sentTypes := DistributedDBNode.step_types h msg hsent
    rw [(Network.mem_pushed hp).1, Network.transmit_type]
    split_ifs
    · decide
    · exact fun heq => absurd (heq ▸ htype) (by decide)
  | broadcastTreeAdjustment zones leaders =>
    have hmem : (zones, leaders) ∈ o.adjustments := List.mem_filterMap.2 ⟨_, heffect, rfl⟩
    rw [hadj] at hmem
    cases hmem
  | pushLocal msg =>
    rw [List.mem_singleton.1 hp, hlocal msg heffect]
    decide

/-- a client's message has no new zones -/
theorem type_of_clientRequest {H : HashOrder} {raw : RawScalars} {net : Network} {msg : NetworkMessage}
    (hclient : net.isClient = true) :
    ∀ p ∈ Network.pushed .listed H raw net msg, p.2.type ≠ .distributedDetectionInit := by
  intro p hp htype
  obtain ⟨hmsg, hrpc⟩ := Network.mem_pushed hp
  rw [hmsg, Network.transmit_type] at htype
  apply hrpc hclient
  rw [Delivery.convertToProtoMessage_type, htype]
  rfl

/-- the messages a step does not handle stay in flight -/
theorem Chosen.mem_rest {cl : Cluster} {n : NodeId} {ev : Event} {rest : List (NodeId × NetworkMessage)}
    {p : NodeId × NetworkMessage} (h : Chosen cl n ev rest) (hp : p ∈ cl.inFlight)
    (hne : ∀ msg ∈ ev.handles, p ≠ (n, msg)) : p ∈ rest := by
  cases h with
  | round _ => exact hp
  | handle E hmsg =>
    obtain ⟨j, hj⟩ := List.mem_iff_getElem?.1 hp
    refine List.mem_eraseIdx_iff_getElem?.2 ⟨j, ?_, hj⟩
    rintro rfl
    exact hne _ rfl (Option.some.inj (hj.symm.trans hmsg))

theorem Chosen.mem_inFlight {cl : Cluster} {n : NodeId} {ev : Event} {rest : List (NodeId × NetworkMessage)}
    {p : NodeId × NetworkMessage} (h : Chosen cl n ev rest) (hp : p ∈ rest) : p ∈ cl.inFlight := by
  cases h with
  | round _ => exact hp
  | handle E hmsg => exact List.mem_of_mem_eraseIdx hp

/-! ## Spreading -/

/-- the zones the central node of `cl₀` broadcasts have reached some peers and are on their way to the others -/
structure Spreading (cl₀ : Cluster) (zones : List (List NodeId)) (leaders : List NodeId) (cl : Cluster) : Prop where
  numNodes : cl.numNodes = cl₀.numNodes
  wellFormed : WellFormed cl
  central : cl.zonesOf centralizedNodeId = cl₀.zonesOf centralizedNodeId
  inFlight : ∀ p ∈ cl.inFlight, p.2.type = .distributedDetectionInit →
    p.1 ≠ centralizedNodeId ∧ p.2.detectionZones = zones ∧ p.2.detectionZoneLeaders = leaders
  peers : ∀ i ∈ intRange 1 cl.numNodes, i ≠ centralizedNodeId → Adopted (zones.zip leaders) (cl.zonesOf i) ∨
    ∃ msg, (i, msg) ∈ cl.inFlight ∧ msg.type = .distributedDetectionInit

section Spreading

variable {cl₀ cl cl' : Cluster} {zones : List (List NodeId)} {leaders : List NodeId} {a : Act}

/-- a step that leaves the stored zones and the messages with new zones as they are -/
theorem Spreading.of_zones_eq (hs : Spreading cl₀ zones leaders cl) (hst : cl.step a = some cl')
    (hzones : ∀ i, cl'.zonesOf i = cl.zonesOf i)
    (hkept : ∀ p ∈ cl.inFlight, p.2.type = .distributedDetectionInit → p ∈ cl'.inFlight)
    (hold : ∀ p ∈ cl'.inFlight, p.2.type = .distributedDetectionInit → p ∈ cl.inFlight) :
    Spreading cl₀ zones leaders cl' where
  numNodes := (step_numNodes hst).trans hs.numNodes
  wellFormed := step_wellFormed hs.wellFormed hst
  central := (hzones _).trans hs.central
  inFlight p hp htype := hs.inFlight p (hold p hp htype) htype
  peers i hi hne := by
    rw [step_numNodes hst] at hi
    rw [hzones]
    apply (hs.peers i hi hne).imp id
    intro hmsg
    obtain ⟨msg, hmem, htype⟩ := hmsg
    exact ⟨msg, hkept _ hmem htype, htype⟩

/-- a peer that handles the message adopts the zones -/
theorem Spreading.handled (hs : Spreading cl₀ zones leaders cl) (hp : Partition zones leaders) {n : NodeId}
    {msg : NetworkMessage} {o : Outcome} (hmem : (n, msg) ∈ cl.inFlight) (htype : msg.type = .distributedDetectionInit)
    (ho : (cl.nodes n).handleDistributedDetectionInit msg.detectionZones msg.detectionZoneLeaders = some o) :
    n ≠ centralizedNodeId ∧ o.effects = [] ∧ Adopted (zones.zip leaders) o.node.detectionZoneManager := by
  obtain ⟨hn, hzones, hleaders⟩ := hs.inFlight _ hmem htype
  obtain ⟨dz', hdz', hadopted⟩ := DetectionZoneManager.updateDetectionZones_adopted hp (cl.zonesOf n)
  obtain ⟨dz, hdz, rfl⟩ := Option.map_eq_some_iff.1 ho
  rw [hzones, hleaders] at hdz
  obtain rfl : dz = dz' := Option.some.inj (hdz.symm.trans hdz')
  exact ⟨hn, rfl, hadopted⟩

/-- node n adopts the zones, and the messages of the other peers stay in flight -/
theorem Spreading.of_handled (hs : Spreading cl₀ zones leaders cl) (hp : Partition zones leaders) {E : Env} {n : NodeId}
    {i : ℕ} {msg : NetworkMessage} {o : Outcome}
    (hst : cl.step a = some ({ cl with inFlight := cl.inFlight.eraseIdx i }.after E n o))
    (hmsg : cl.inFlight[i]? = some (n, msg)) (htype : msg.type = .distributedDetectionInit)
    (ho : (cl.nodes n).handleDistributedDetectionInit msg.detectionZones msg.detectionZoneLeaders = some o) :
    Spreading cl₀ zones leaders ({ cl with inFlight := cl.inFlight.eraseIdx i }.after E n o) := by
  obtain ⟨hn, heffects, hadopted⟩ := hs.handled hp (List.mem_of_getElem? hmsg) htype ho
  refine ⟨(step_numNodes hst).trans hs.numNodes, step_wellFormed hs.wellFormed hst, ?_, ?_, ?_⟩
  · rw [zonesOf_after, if_neg (Ne.symm hn)]; exact hs.central
  · intro p hmem htype
    rw [inFlight_after_of_effects_nil heffects] at hmem
    exact hs.inFlight p (List.mem_of_mem_eraseIdx hmem) htype
  · intro k hk hne
    rw [zonesOf_after, inFlight_after_of_effects_nil heffects]
    split_ifs with hkn
    · exact Or.inl hadopted
    · apply (hs.peers k hk hne).imp id
      intro hmsg'
      obtain ⟨msg', hmem', htype'⟩ := hmsg'
      refine ⟨msg', (Chosen.handle E hmsg).mem_rest hmem' ?_, htype'⟩
      rintro _ _ heq
      exact hkn (congrArg Prod.fst heq)

theorem step_spreading (hp : Partition zones leaders) (hs : Spreading cl₀ zones leaders cl)
    (hquiet : cl.adjustments a = []) (hst : cl.step a = some cl') : Spreading cl₀ zones leaders cl' := by
  rcases step_cases hst with ⟨n, ev, o, rest, hev, henv, hchosen, ho, rfl⟩ | ⟨E, server, msg, rfl, rfl⟩
  · have hadj : o.adjustments = [] := by simpa [adjustments, hev, ho] using hquiet
    rcases DistributedDBNode.step_cases ho with ⟨hhandles, hkept⟩ | ⟨E, msg, rfl, htype, hinit⟩ |
      ⟨E, msg, rfl, htype, hpag⟩
    · refine hs.of_zones_eq hst ?_ ?_ ?_
      · intro i
        rw [zonesOf_after]
        split_ifs with hi
        · subst hi; exact hkept.detectionZoneManager
        · rfl
      · intro p hmem htype
        refine List.mem_append_left _ (hchosen.mem_rest hmem ?_)
        rintro msg hmsg rfl
        exact hhandles msg hmsg htype
      · intro p hmem htype
        rcases List.mem_append.1 hmem with hmem | hmem
        · exact hchosen.mem_inFlight hmem
        · exact absurd htype (type_of_pushes ho hadj hkept.pushLocal p hmem)
    · cases hchosen with
      | round hround => cases hround
      | handle _ hmsg => exact hs.of_handled hp hst hmsg htype hinit
    · -- a response that cuts no zones
      obtain ⟨-, hdz, heffects⟩ := DistributedDBNode.handlePAGResponse_cases hpag
      have hnone : o.effects = [] := by
        rcases heffects with hnone | ⟨-, cut, hcut, -⟩
        · exact hnone
        · simp [Outcome.adjustments, hcut] at hadj
      refine hs.of_zones_eq hst ?_ ?_ ?_
      · intro i
        rw [zonesOf_after]
        split_ifs with hi
        · subst hi; exact hdz
        · rfl
      · intro p hmem hinit
        refine List.mem_append_left _ (hchosen.mem_rest hmem ?_)
        rintro msg' hmsg' rfl
        cases hmsg'
        exact absurd (htype.symm.trans hinit) (by decide)
      · intro p hmem _
        rw [inFlight_after_of_effects_nil hnone] at hmem
        exact hchosen.mem_inFlight hmem
  · refine hs.of_zones_eq hst (fun _ => rfl) (fun p hmem _ => List.mem_append_left _ hmem) ?_
    intro p hmem htype
    rcases List.mem_append.1 hmem with hmem | hmem
    · exact hmem
    · exact absurd htype (type_of_clientRequest rfl p hmem)

/-- the step that cuts new zones sends them to every peer, and the central node keeps its own -/
theorem spreading_of_adjust (hcl : WellFormed cl) (hsettled : Settled cl) (hst : cl.step a = some cl')
    (hadj : (zones, leaders) ∈ cl.adjustments a) : Partition zones leaders ∧ Spreading cl zones leaders cl' := by
  rcases step_cases hst with ⟨n, ev, o, rest, hev, henv, hchosen, ho, rfl⟩ | ⟨E, server, msg, rfl, rfl⟩
  · have hout : (zones, leaders) ∈ o.adjustments := by simpa [adjustments, hev, ho] using hadj
    rcases DistributedDBNode.step_cases ho with ⟨-, hkept⟩ | ⟨E, msg, rfl, -, hinit⟩ | ⟨E, msg, rfl, -, hpag⟩
    · rw [hkept.adjustments] at hout; cases hout
    · obtain ⟨dz, -, rfl⟩ := Option.map_eq_some_iff.1 hinit
      cases hout
    · obtain ⟨-, hdz, heffects⟩ := DistributedDBNode.handlePAGResponse_cases hpag
      rcases heffects with hnone | ⟨hcentral, cut, hcut, hgreedy⟩
      · simp [Outcome.adjustments, hnone] at hout
      · obtain rfl : (zones, leaders) = cut := by simpa [Outcome.adjustments, hcut] using hout
        obtain rfl : n = centralizedNodeId := by
          rw [← hcl.nodeId n]; simpa [DistributedDBNode.isCentralizedNode] using hcentral
        have hkeys := PAGManager.greedySCCcut_eq hgreedy
        have hpart : Partition zones leaders := by
          cases hkeys
          exact DetectionZoneManager.partition_singletons (UnorderedMap.iter_keys_nodup _ _)
        have hpushes : ∀ p, p ∈ o.effects.flatMap (pushes E (cl.nodes centralizedNodeId)) ↔
            p.1 ∈ intRange 1 cl.numNodes ∧ p.1 ≠ centralizedNodeId ∧ p.2 = Network.transmit E.hash E.raw
              (Network.adjustmentMsg E.raw centralizedNodeId zones leaders) := by
          intro p
          rw [hcut, List.flatMap_singleton, pushes, Delivery.connected, hcl.nodeId, hcl.numNodes]
          exact Network.mem_broadcastTreeAdjustment
        have hmsg := Network.transmit_adjustmentMsg E.hash E.raw centralizedNodeId zones leaders
        refine ⟨hpart, step_numNodes hst, step_wellFormed hcl hst, ?_, ?_, ?_⟩
        · rw [zonesOf_after, if_pos rfl]; exact hdz
        · intro p hp htype
          rcases List.mem_append.1 hp with hp | hp
          · exact absurd htype (hsettled p (hchosen.mem_inFlight hp))
          · obtain ⟨-, hne, hp⟩ := (hpushes p).1 hp
            rw [hp]
            exact ⟨hne, hmsg.2⟩
        · intro i hi hne
          exact Or.inr ⟨_, List.mem_append_right _ ((hpushes (i, _)).2 ⟨hi, hne, rfl⟩), hmsg.1⟩
  · cases hadj

/-- a message with new zones can be handled, and then there is one less -/
theorem Spreading.exists_step (hp : Partition zones leaders) (hs : Spreading cl₀ zones leaders cl)
    {n : NodeId} {msg : NetworkMessage} (hmem : (n, msg) ∈ cl.inFlight)
    (htype : msg.type = .distributedDetectionInit) : ∃ b cl', cl.step b = some cl' ∧
      cl.adjustments b = [] ∧ cl.inFlight.countP (fun p => p.2.type = .distributedDetectionInit) =
        cl'.inFlight.countP (fun p => p.2.type = .distributedDetectionInit) + 1 := by
  obtain ⟨k, hk, hmsg⟩ := List.getElem_of_mem hmem
  obtain ⟨-, hzones, hleaders⟩ : _ ∧ msg.detectionZones = zones ∧ msg.detectionZoneLeaders = leaders :=
    hs.inFlight _ hmem htype
  obtain ⟨dz, hdz, -⟩ := DetectionZoneManager.updateDetectionZones_adopted hp (cl.zonesOf n)
  have hnext : (cl.nodes n).step (.processMessage .quiet msg) =
      some (DistributedDBNode.idle { cl.nodes n with detectionZoneManager := dz }) := by
    simp only [DistributedDBNode.step, DistributedDBNode.processMessage, htype]
    rw [DistributedDBNode.handleDistributedDetectionInit, hzones, hleaders, ← zonesOf, hdz]
    rfl
  have hread : cl.inFlight[k]? = some (n, msg) := by rw [List.getElem?_eq_getElem hk, hmsg]
  refine ⟨.handle .quiet k, _, by simp only [step, hread, Option.bind_eq_bind, Option.bind_some, hnext]; rfl, ?_, ?_⟩
  · simp only [adjustments, event?, hread, Option.map_some, hnext]
    rfl
  · rw [inFlight_after_of_effects_nil rfl, ← (List.getElem_cons_eraseIdx_perm hk).countP_eq, hmsg,
      List.countP_cons_of_pos (by simpa using htype)]

/-- the messages with new zones can all be handled -/
theorem Spreading.exists_settled (hp : Partition zones leaders) (hs : Spreading cl₀ zones leaders cl) :
    ∃ cl', ReachesBy step (fun s b => s.adjustments b = []) cl cl' ∧ Settled cl' := by
  induction hcount : cl.inFlight.countP (fun p => p.2.type = .distributedDetectionInit) generalizing cl with
  | zero =>
    refine ⟨cl, .start, ?_⟩
    intro p hmem
    simpa using List.countP_eq_zero.1 hcount p hmem
  | succ count ih =>
    obtain ⟨p, hmem, htype⟩ := List.countP_pos_iff.1 (by rw [hcount]; exact Nat.succ_pos count)
    obtain ⟨b, cl', hst, hquiet, hless⟩ := hs.exists_step hp hmem (by simpa using htype)
    have hcount' := Nat.succ.inj (hless.symm.trans hcount)
    obtain ⟨cl₂, hrun, hdone⟩ := ih (step_spreading hp hs hquiet hst) hcount'
    have hfirst : ReachesBy step (fun s b => s.adjustments b = []) cl cl' := .next .start hquiet hst
    exact ⟨cl₂, hfirst.trans hrun, hdone⟩

/-- when no message is left, every peer has adopted the zones -/
theorem Spreading.adopted (hs : Spreading cl₀ zones leaders cl) (hsettled : Settled cl) {i : NodeId}
    (hi : i ∈ intRange 1 cl.numNodes) (hne : i ≠ centralizedNodeId) : Adopted (zones.zip leaders) (cl.zonesOf i) := by
  rcases hs.peers i hi hne with hadopted | ⟨msg, hmsg, htype⟩
  · exact hadopted
  · exact absurd htype (hsettled _ hmsg)

theorem Spreading.agreement_of_settled (hs : Spreading cl₀ zones leaders cl) (hsettled : Settled cl)
    (hcentral : centralizedNodeId ∈ intRange 1 cl₀.numNodes) :
    Agreement cl (zones.zip leaders) ↔ CentralHas cl₀ (zones.zip leaders) := by
  have hid : ∀ i, (cl.zonesOf i).nodeId = i := hs.wellFormed.zonesNodeId
  rw [← hs.numNodes] at hcentral
  refine ⟨?_, ?_⟩
  · intro hagree
    refine ⟨?_, ?_⟩
    · by_cases hone : cl₀.numNodes = 1
      · exact Or.inl hone
      · -- node 2 has the zones, and the central node stores the same ones
        have htwo : (2 : ℤ) ∈ intRange 1 cl.numNodes := by
          have hpos := (mem_intRange.1 hcentral).2
          rw [hs.numNodes] at hpos ⊢
          rw [mem_intRange]
          unfold centralizedNodeId at hpos
          omega
        refine Or.inr fun leader zone => ?_
        rw [← hs.central, hagree.same _ hcentral 2 htwo leader]
        exact (hs.adopted hsettled htwo (by decide)).zones leader zone
    · intro p hp hmem
      rw [← hs.central]
      exact hagree.member p hp _ hcentral hmem
  · intro hhas
    refine ⟨?_, ?_⟩
    · intro i hi j hj leader
      rcases hhas.zones with hone | hzones
      · have hlast : ∀ k ∈ intRange 1 cl.numNodes, k = 1 := by
          intro k hk
          have hk := mem_intRange.1 hk
          rw [hs.numNodes, hone] at hk
          exact le_antisymm hk.2 hk.1
        rw [hlast i hi, hlast j hj]
      · have hall : ∀ k ∈ intRange 1 cl.numNodes, ∀ zone,
            (cl.zonesOf k).detectionZones.lookup leader = some zone ↔ (zone, leader) ∈ zones.zip leaders := by
          intro k hk zone
          by_cases hkc : k = centralizedNodeId
          · rw [hkc, hs.central]; exact hzones leader zone
          · exact (hs.adopted hsettled hk hkc).zones leader zone
        exact Option.ext fun zone => (hall i hi zone).trans (hall j hj zone).symm
    · intro p hp i hi hmem
      by_cases hic : i = centralizedNodeId
      · subst hic; rw [hs.central]; exact hhas.member p hp hmem
      · exact (hs.adopted hsettled hi hic).member p hp (by rw [hid]; exact hmem)

end Spreading

/-- **Agreement.** Let the central node broadcast new zones while none are in flight. There is a run without another
adjustment in which all messages with the zones are handled; and after every such run all nodes store the same zones
and the members of the new zones record them, exactly when the central node had the new configuration before. -/
theorem agreement_iff {cl cl₁ : Cluster} {zones : List (List NodeId)} {leaders : List NodeId} {a : Act}
    (hcl : WellFormed cl) (hcentral : centralizedNodeId ∈ intRange 1 cl.numNodes) (hsettled : Settled cl)
    (hst : cl.step a = some cl₁) (hadj : (zones, leaders) ∈ cl.adjustments a) :
    (∃ cl₂, ReachesBy step (fun s b => s.adjustments b = []) cl₁ cl₂ ∧ Settled cl₂) ∧
    ∀ cl₂, ReachesBy step (fun s b => s.adjustments b = []) cl₁ cl₂ → Settled cl₂ →
      (Agreement cl₂ (zones.zip leaders) ↔ CentralHas cl (zones.zip leaders)) := by
  obtain ⟨hp, hstart⟩ := spreading_of_adjust hcl hsettled hst hadj
  refine ⟨hstart.exists_settled hp, ?_⟩
  intro cl₂ hrun hdone
  have hs : Spreading cl zones leaders cl₂ :=
    hrun.invariant hstart fun _ _ _ hs hquiet hst => step_spreading hp hs hquiet hst
  exact hs.agreement_of_settled hdone hcentral

/-- five seconds after the start -/
def fiveSeconds : Env := { Env.quiet with now := 5000000000 }

/-- a cluster of two whose central node has found a deadlock of its own, and a sample on its way to it -/
def deadlockSeen (edge : WFDEdge) : Cluster :=
  { init 2 0 with
    nodes := Function.update (init 2 0).nodes 1 { DistributedDBNode.init 1 2 0 with totalDeadlocksFromCentral := 1 }
    inFlight := [(1, { NetworkMessage.declare Env.quiet.raw with
      type := .pagResponse, senderId := 2, receiverId := 1, pagEdges := [edge] })] }

theorem wellFormed_deadlockSeen (edge : WFDEdge) : WellFormed (deadlockSeen edge) := by
  have hnode : ∀ n, (deadlockSeen edge).nodes n = { DistributedDBNode.init n 2 0 with
      totalDeadlocksFromCentral := if n = 1 then 1 else 0 } := by
    intro n
    by_cases hn : n = 1
    · subst hn; rfl
    · simp [deadlockSeen, init, hn, DistributedDBNode.init]
  exact ⟨fun n => by rw [hnode]; rfl, fun n => by rw [hnode]; rfl, fun n => by rw [hnode]; rfl⟩

/-- node 1 waits for node 2, or node 2 for node 1 -/
def centralWaits : WFDEdge := ⟨1, 1, 1, 2⟩
def peerWaits : WFDEdge := ⟨1, 1, 2, 1⟩

/-- the sample is handled, and then the broadcast -/
def cutZones (edge : WFDEdge) : Option Cluster := (deadlockSeen edge).step (.handle fiveSeconds 0)
def spreadZones (edge : WFDEdge) : Option Cluster := (cutZones edge).bind fun cl => cl.step (.handle .quiet 0)

theorem agreement_centralWaits : Agreement ((spreadZones centralWaits).get rfl) [([1], 1)] := by
  have hhas : CentralHas (deadlockSeen centralWaits) [([1], 1)] := by
    refine ⟨Or.inr fun leader zone => ?_, by decide⟩
    have htable : ((deadlockSeen centralWaits).zonesOf centralizedNodeId).detectionZones =
        pushBack ∅ (1 : NodeId) (1 : NodeId) := rfl
    rw [htable, pushBack, lookup_insert_eq]
    split_ifs with hleader <;> simp [hleader, eq_comm]
  have hadj : ([[1]], [1]) ∈ (deadlockSeen centralWaits).adjustments (.handle fiveSeconds 0) := List.mem_cons_self
  have hrun : ReachesBy step (fun s b => s.adjustments b = []) ((cutZones centralWaits).get rfl)
      ((spreadZones centralWaits).get rfl) := .next .start (a := .handle .quiet 0) rfl rfl
  exact ((agreement_iff (wellFormed_deadlockSeen centralWaits) (by decide) (by decide) (Option.some_get rfl).symm
    hadj).2 _ hrun (by decide)).2 hhas

theorem peerWaits_disagree : ¬ ∀ cl cl₁ cl₂ zones leaders a, WellFormed cl →
    centralizedNodeId ∈ intRange 1 cl.numNodes → Settled cl → cl.step a = some cl₁ →
    (zones, leaders) ∈ cl.adjustments a → ReachesBy step (fun s b => s.adjustments b = []) cl₁ cl₂ → Settled cl₂ →
    Agreement cl₂ (zones.zip leaders) := by
  intro hall
  have hadj : ([[2]], [2]) ∈ (deadlockSeen peerWaits).adjustments (.handle fiveSeconds 0) := List.mem_cons_self
  have hrun : ReachesBy step (fun s b => s.adjustments b = []) ((cutZones peerWaits).get rfl)
      ((spreadZones peerWaits).get rfl) := .next .start (a := .handle .quiet 0) rfl rfl
  have hagree := hall (deadlockSeen peerWaits) _ _ _ _ _ (wellFormed_deadlockSeen peerWaits) (by decide) (by decide)
    (Option.some_get rfl).symm hadj hrun (by decide)
  -- node 1 stores a zone of its own, node 2 does not know it
  exact absurd (hagree.same 1 (by decide) 2 (by decide) 1) (by decide)

end Cluster

end HawkTxn
