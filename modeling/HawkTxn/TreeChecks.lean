/-
The decision to adjust the tree (`handlePAGResponse`).

The central node keeps two totals of deadlocks found, those the zones report and those it finds itself. When a round of
responses is complete it subtracts the totals at the round before, and takes the totals and the time of this round for
the next. It evaluates the decision only if the round comes 5000 ms after the round before. A round that comes earlier
moves the totals and decides nothing, so what was counted before it is in the differences of no decision.

A `Check` is what a complete round reads. The machine is the node with the checks made so far.

Results:
- `shouldAdjustTree_iff`, `evaluated_of_adjustments`: what an evaluated decision depends on, and that no other check has
  an effect;
- `step_readings`: an event makes a check and takes the totals over, or leaves the readings open where they were;
- `counted_once_iff`: every deadlock counted before an evaluated decision is in the differences of exactly one evaluated
  decision, precisely if no deadlock was counted before a check that was too early and had an evaluated one after it.
-/
import HawkTxn.Rounds
import HawkTxn.Core.Readings
import HawkTxn.Core.Traces

namespace HawkTxn

open HawkTxn.Core UnorderedMap

namespace TreeChecks

open DistributedDBNode Rounds

/-! ## Model -/

/-- what a complete round of responses reads: the milliseconds since the round before, and either total then and now -/
structure Check where
  duration : ℤ
  zones : Reading ℤ
  central : Reading ℤ
deriving DecidableEq

/-- the decision is evaluated -/
def Check.Evaluated (c : Check) : Prop := 5000 ≤ c.duration

instance : DecidablePred Check.Evaluated := fun c => inferInstanceAs (Decidable (5000 ≤ c.duration))

/-- the difference since the check before -/
def diff (r : Reading ℤ) : ℤ := r.cur - r.prev

/-- more deadlocks are new to the central node than to the zones -/
def Check.WorthAdjusting (c : Check) : Prop :=
  if 0 < diff c.zones then diff c.zones < diff c.central else 0 < diff c.central

def zonesReading (nd : DistributedDBNode) : Reading ℤ :=
  ⟨nd.prevTotalDeadlocksFromZones, nd.totalDeadlocksFromZones⟩

def centralReading (nd : DistributedDBNode) : Reading ℤ :=
  ⟨nd.prevTotalDeadlocksFromCentral, nd.totalDeadlocksFromCentral⟩

def checkOf (E : Env) (nd : DistributedDBNode) : Check :=
  ⟨(E.now - nd.lastTreeAdjustTime).tdiv 1000000, zonesReading nd, centralReading nd⟩

/-- the message completes a round of responses -/
def Completes (nd : DistributedDBNode) (msg : NetworkMessage) : Prop :=
  msg.type = .pagResponse ∧ nd.isCentralizedNode ∧ PagThreshold nd msg.pagEdges

instance (nd : DistributedDBNode) (msg : NetworkMessage) : Decidable (Completes nd msg) :=
  inferInstanceAs (Decidable (_ ∧ _ ∧ _))

/-- the check an event makes, if any -/
def checks (nd : DistributedDBNode) : Event → List (DistributedDBNode × Check)
  | .processMessage E msg => if Completes nd msg then [(nd, checkOf E nd)] else []
  | _ => []

/-- the node after an event -/
def stepNode (nd : DistributedDBNode) (ev : Event) : Option DistributedDBNode := (nd.step ev).map (·.node)

/-- the totals grow: no zone reports a negative number of deadlocks -/
def Grows : Event → Prop
  | .processMessage _ msg => msg.type = .centralWfgReportFromZone → 0 ≤ msg.deadlockCount
  | _ => True

instance : DecidablePred Grows := fun ev => by
  cases ev <;> unfold Grows <;> infer_instance

/-- every deadlock counted before an evaluated decision is in the differences of exactly one evaluated decision; the
deadlocks of a total are told apart by the value they raised it from -/
def CountedOnce (reading : Check → Reading ℤ) (log : List Check) : Prop :=
  ∀ c ∈ log, c.Evaluated → ∀ k, 0 ≤ k → k < (reading c).cur →
    log.countP (fun d => d.Evaluated ∧ (reading d).Covers k) = 1

/-- a check that is too early, and has an evaluated one after it, finds the totals of the check before it -/
def EarlyChecksIdle (log : List Check) : Prop :=
  log.Pairwise fun c d => ¬ c.Evaluated → d.Evaluated → c.zones.prev = c.zones.cur ∧ c.central.prev = c.central.cur

instance (log : List Check) : Decidable (EarlyChecksIdle log) := inferInstanceAs (Decidable (List.Pairwise _ _))

/-! ## What a check decides -/

/-- an evaluated decision depends on the differences of the totals only -/
theorem shouldAdjustTree_iff (E : Env) (nd : DistributedDBNode) : nd.shouldAdjustTree E = true ↔
    (checkOf E nd).Evaluated ∧ (checkOf E nd).WorthAdjusting := by
  have hworth : (checkOf E nd).WorthAdjusting ↔
      if 0 < nd.totalDeadlocksFromZones - nd.prevTotalDeadlocksFromZones then
        nd.totalDeadlocksFromZones - nd.prevTotalDeadlocksFromZones <
          nd.totalDeadlocksFromCentral - nd.prevTotalDeadlocksFromCentral
      else 0 < nd.totalDeadlocksFromCentral - nd.prevTotalDeadlocksFromCentral := Iff.rfl
  have hevaluated : (checkOf E nd).Evaluated ↔ 5000 ≤ (E.now - nd.lastTreeAdjustTime).tdiv 1000000 := Iff.rfl
  rw [hworth, hevaluated]
  unfold shouldAdjustTree
  by_cases htime : 5000 ≤ (E.now - nd.lastTreeAdjustTime).tdiv 1000000
  · rw [if_pos htime, and_iff_right htime]
    split_ifs <;> exact decide_eq_true_iff
  · rw [if_neg htime]
    exact iff_of_false Bool.false_ne_true fun hc => htime hc.1

/-- zones are broadcast only by an evaluated decision -/
theorem evaluated_of_adjustments {E : Env} {nd : DistributedDBNode} {edges : List WFDEdge} {o : Outcome}
    (h : nd.handlePAGResponse E edges = some o) (hne : o.adjustments ≠ []) : (checkOf E nd).Evaluated := by
  unfold handlePAGResponse at h
  simp only at h
  split_ifs at h
  · obtain ⟨effects, heffects, rfl⟩ := Option.map_eq_some_iff.1 h
    unfold adjustTree at heffects
    by_cases hadjust : (nd.addPagResponse edges).shouldAdjustTree E = true
    · exact ((shouldAdjustTree_iff E (nd.addPagResponse edges)).1 hadjust).1
    · rw [if_neg hadjust] at heffects
      cases heffects
      exact absurd rfl hne
  all_goals cases h; exact absurd rfl hne

/-! ## What an event does to the readings -/

/-- a reading that has not been taken: it starts where it did and has not gone back -/
def Open (r r' : Reading ℤ) : Prop := r'.prev = r.prev ∧ r.cur ≤ r'.cur

theorem open_refl (r : Reading ℤ) : Open r r := ⟨rfl, le_rfl⟩

/-- the readings of both totals are open still -/
def BothOpen (nd nd' : DistributedDBNode) : Prop :=
  Open (zonesReading nd) (zonesReading nd') ∧ Open (centralReading nd) (centralReading nd')

theorem bothOpen_refl (nd : DistributedDBNode) : BothOpen nd nd := ⟨open_refl _, open_refl _⟩

theorem bothOpen_collectWfgReport {resolve : DistributedDBNode → WaitForGraph → Option (List NetworkMessage × Bool)}
    {nd : DistributedDBNode} {data : WfgDataPairs} {o : Outcome} (h : collectWfgReport resolve nd data = some o) :
    BothOpen nd o.node := by
  rcases collectWfgReport_node h with hnode | hnode <;> rw [hnode] <;> exact bothOpen_refl nd

/-- a zone report raises the total of the zones by what it reports, and the last of a round the other total by the
number of cycles found -/
theorem bothOpen_handleCentralWFGReportFromZone {E : Env} {nd : DistributedDBNode} {data : WfgDataPairs}
    {cycles : List (List TransactionId)} {count : ℤ} {o : Outcome} (hcount : 0 ≤ count)
    (h : nd.handleCentralWFGReportFromZone E data cycles count = some o) : BothOpen nd o.node := by
  have hzones : nd.totalDeadlocksFromZones ≤ nd.totalDeadlocksFromZones + count := le_add_of_nonneg_right hcount
  rcases handleCentralWFGReportFromZone_node h with hnode | hnode | ⟨found, hnode⟩
  · rw [hnode]
    exact bothOpen_refl nd
  · rw [hnode]
    exact ⟨⟨rfl, hzones⟩, open_refl _⟩
  · rw [hnode]
    exact ⟨⟨rfl, hzones⟩, rfl, le_add_of_nonneg_right (Int.natCast_nonneg found)⟩

/-- a message other than a response leaves the readings open -/
theorem bothOpen_processMessage {E : Env} {nd : DistributedDBNode} {msg : NetworkMessage} {o : Outcome}
    (h : nd.processMessage E msg = some o) (hpag : msg.type ≠ .pagResponse)
    (hcount : msg.type = .centralWfgReportFromZone → 0 ≤ msg.deadlockCount) : BothOpen nd o.node := by
  by_cases hwfg : msg.type = .wfgReport
  · simp only [processMessage, hwfg, handleWFGReport] at h
    split_ifs at h
    · exact bothOpen_collectWfgReport h
    · cases h; exact bothOpen_refl nd
  by_cases hzone : msg.type = .zoneWfgReport
  · simp only [processMessage, hzone, handleZoneWFGReport] at h
    split_ifs at h
    · exact bothOpen_collectWfgReport h
    · cases h; exact bothOpen_refl nd
  by_cases hcentral : msg.type = .centralWfgReportFromZone
  · simp only [processMessage, hcentral] at h
    exact bothOpen_handleCentralWFGReportFromZone (hcount hcentral) h
  by_cases hinit : msg.type = .distributedDetectionInit
  · simp only [processMessage, hinit] at h
    obtain ⟨dz, -, rfl⟩ := Option.map_eq_some_iff.1 h
    exact bothOpen_refl nd
  · obtain ⟨tm, hnode⟩ := processMessage_manager h (by simp [collectedTypes, hwfg, hzone, hpag, hinit, hcentral])
    rw [hnode]
    exact bothOpen_refl nd

/-- the totals of a check are where the next one starts -/
structure Taken (nd nd' : DistributedDBNode) : Prop where
  zones : zonesReading nd' = ⟨(zonesReading nd).cur, (zonesReading nd).cur⟩
  central : centralReading nd' = ⟨(centralReading nd).cur, (centralReading nd).cur⟩

/-- a response completes a round and takes both readings, or leaves them open -/
theorem handlePAGResponse_readings {E : Env} {nd : DistributedDBNode} {edges : List WFDEdge} {o : Outcome}
    (h : nd.handlePAGResponse E edges = some o) :
    if nd.isCentralizedNode ∧ PagThreshold nd edges then Taken nd o.node else BothOpen nd o.node := by
  unfold handlePAGResponse at h
  by_cases hcentral : nd.isCentralizedNode = true
  · simp only [if_pos hcentral] at h
    by_cases hthreshold : PagThreshold nd edges
    · rw [if_pos ⟨hcentral, hthreshold⟩]
      unfold PagThreshold at hthreshold
      rw [if_pos hthreshold] at h
      obtain ⟨effects, -, rfl⟩ := Option.map_eq_some_iff.1 h
      exact ⟨rfl, rfl⟩
    · rw [if_neg fun hc => hthreshold hc.2]
      unfold PagThreshold at hthreshold
      rw [if_neg hthreshold] at h
      cases h
      exact bothOpen_refl nd
  · rw [if_neg fun hc => hcentral hc.1]
    rw [if_neg hcentral] at h
    cases h
    exact bothOpen_refl nd

/-- **One event.** It makes a check and takes the readings, or makes none and leaves them open. -/
theorem step_readings {nd : DistributedDBNode} {ev : Event} {o : Outcome} (h : nd.step ev = some o)
    (hgrows : Grows ev) : (∃ E, checks nd ev = [(nd, checkOf E nd)] ∧ Taken nd o.node) ∨
      (checks nd ev = [] ∧ BothOpen nd o.node) := by
  cases ev with
  | processMessage E msg =>
    simp only [checks]
    by_cases hpag : msg.type = .pagResponse
    · have hstep : nd.handlePAGResponse E msg.pagEdges = some o := by
        simpa only [step, processMessage, hpag] using h
      have hreadings := handlePAGResponse_readings hstep
      by_cases hcompletes : nd.isCentralizedNode ∧ PagThreshold nd msg.pagEdges
      · rw [if_pos hcompletes] at hreadings
        exact Or.inl ⟨E, if_pos ⟨hpag, hcompletes⟩, hreadings⟩
      · rw [if_neg hcompletes] at hreadings
        exact Or.inr ⟨if_neg fun hc => hcompletes hc.2, hreadings⟩
    · exact Or.inr ⟨if_neg fun hc => hpag hc.1, bothOpen_processMessage h hpag hgrows⟩
  | tryExecuteNextSQLStatement E t =>
    obtain ⟨res, -, rfl⟩ := Option.map_eq_some_iff.1 h
    exact Or.inr ⟨rfl, bothOpen_refl nd⟩
  | centralizedDetect E =>
    cases h
    refine Or.inr ⟨rfl, ?_⟩
    unfold centralizedDetect
    split_ifs <;> exact bothOpen_refl nd
  | distributedDetectCoordinator E =>
    cases h
    refine Or.inr ⟨rfl, ?_⟩
    unfold distributedDetectCoordinator
    split_ifs <;> exact bothOpen_refl nd
  | pagSampling E =>
    cases h
    refine Or.inr ⟨rfl, ?_⟩
    unfold pagSampling
    split_ifs <;> exact bothOpen_refl nd
  | beginTransaction E draws => cases h; exact Or.inr ⟨rfl, bothOpen_refl nd⟩
  | tpccArrival E => cases h; exact Or.inr ⟨rfl, bothOpen_refl nd⟩
  | initiatePathPushingProbes E => cases h; exact Or.inr ⟨rfl, bothOpen_refl nd⟩

/-! ## Runs -/

/-- the checks made so far lead from 0 to where the open reading starts -/
structure Audited (reading : Check → Reading ℤ) (log : List Check) (r : Reading ℤ) : Prop where
  chained : Chained reading 0 log r.prev
  le : r.prev ≤ r.cur

theorem Audited.of_open {reading : Check → Reading ℤ} {log : List Check} {r r' : Reading ℤ}
    (h : Audited reading log r) (hopen : Open r r') : Audited reading log r' := by
  obtain ⟨hprev, hcur⟩ := hopen
  exact ⟨hprev ▸ h.chained, hprev ▸ h.le.trans hcur⟩

theorem Audited.taken {reading : Check → Reading ℤ} {log : List Check} {c : Check} {r' : Reading ℤ}
    (h : Audited reading log (reading c)) (htaken : r' = ⟨(reading c).cur, (reading c).cur⟩) :
    Audited reading (log ++ [c]) r' := by
  subst htaken
  exact ⟨h.chained.concat rfl h.le, le_rfl⟩

theorem countedOnce_iff {reading : Check → Reading ℤ} {log : List Check} {r : Reading ℤ}
    (h : Audited reading log r) : CountedOnce reading log ↔
      log.Pairwise fun c d => ¬ c.Evaluated → d.Evaluated → (reading c).prev = (reading c).cur :=
  h.chained.used_once_iff

/-- the machine that carries the checks made so far -/
abbrev Reached (id : NodeId) (numNodes now : ℤ) (nd : DistributedDBNode) (log : List Check) : Prop :=
  ReachesBy (logged stepNode checks) (fun _ ev => Grows ev) (DistributedDBNode.init id numNodes now, []) (nd, log)

theorem audited_of_reaches {id : NodeId} {numNodes now : ℤ} {nd : DistributedDBNode} {log : List Check}
    (h : Reached id numNodes now nd log) :
    Audited Check.zones log (zonesReading nd) ∧ Audited Check.central log (centralReading nd) := by
  refine h.invariant (P := fun s => Audited Check.zones s.2 (zonesReading s.1) ∧
    Audited Check.central s.2 (centralReading s.1)) ⟨⟨.nil, le_rfl⟩, ⟨.nil, le_rfl⟩⟩ ?_
  intro s ev s' hs hgrows hst
  obtain ⟨nd', hnd', rfl⟩ := Option.map_eq_some_iff.1 hst
  obtain ⟨o, ho, rfl⟩ := Option.map_eq_some_iff.1 hnd'
  obtain ⟨hzones, hcentral⟩ := hs
  rcases step_readings ho hgrows with ⟨E, hchecks, htaken⟩ | ⟨hchecks, hopen⟩
  · simp only [hchecks, List.map_cons, List.map_nil]
    exact ⟨hzones.taken (c := checkOf E s.1) htaken.zones, hcentral.taken (c := checkOf E s.1) htaken.central⟩
  · simp only [hchecks, List.map_nil, List.append_nil]
    exact ⟨hzones.of_open hopen.1, hcentral.of_open hopen.2⟩

/-- **Every deadlock once.** In every run with growing totals, every deadlock counted before an evaluated decision is
in the differences of exactly one evaluated decision, precisely if every check that was too early and had an evaluated
one after it found the totals of the check before it. -/
theorem counted_once_iff {id : NodeId} {numNodes now : ℤ} {nd : DistributedDBNode} {log : List Check}
    (h : Reached id numNodes now nd log) :
    (CountedOnce Check.zones log ∧ CountedOnce Check.central log) ↔ EarlyChecksIdle log := by
  obtain ⟨hzones, hcentral⟩ := audited_of_reaches h
  calc (CountedOnce Check.zones log ∧ CountedOnce Check.central log)
      ↔ (log.Pairwise fun c d => ¬ c.Evaluated → d.Evaluated → c.zones.prev = c.zones.cur) ∧
          log.Pairwise fun c d => ¬ c.Evaluated → d.Evaluated → c.central.prev = c.central.cur :=
        and_congr (countedOnce_iff hzones) (countedOnce_iff hcentral)
    _ ↔ EarlyChecksIdle log := by
        unfold EarlyChecksIdle
        rw [← List.pairwise_and_iff]
        simp only [← imp_and]

/-- a time in milliseconds -/
def atMs (t : ℤ) : Env := { Env.quiet with now := t * 1000000 }

/-- node 2 reports a number of deadlocks of its zone -/
def zoneReports (count : ℤ) : Event := .processMessage .quiet { NetworkMessage.declare Env.quiet.raw with
  type := .centralWfgReportFromZone, senderId := 2, receiverId := 1, deadlockCount := count }

/-- a round of responses in a cluster of two, complete at the time t -/
def pagRound (t : ℤ) : List Event :=
  let response (sender : NodeId) : NetworkMessage := { NetworkMessage.declare Env.quiet.raw with
    type := .pagResponse, senderId := sender, receiverId := 1 }
  [.pagSampling (atMs t), .processMessage (atMs t) (response 1), .processMessage (atMs t) (response 2)]

/-- the central node of a cluster of two and its checks, after the events -/
def checked (events : List Event) : Option (DistributedDBNode × List Check) :=
  runBy (logged stepNode checks) (fun _ ev => Grows ev) (DistributedDBNode.init 1 2 0, []) events

theorem reached_of_checked {events : List Event} {s : DistributedDBNode × List Check} (h : checked events = some s) :
    Reached 1 2 0 s.1 s.2 := .of_run h

/-- a check that was too early and found nothing, and one in time -/
def idleThenDue : DistributedDBNode × List Check :=
  (checked (pagRound 4000 ++ [zoneReports 2] ++ pagRound 9000)).get rfl

theorem counted_once_idleThenDue :
    CountedOnce Check.zones idleThenDue.2 ∧ CountedOnce Check.central idleThenDue.2 :=
  (counted_once_iff (reached_of_checked (s := idleThenDue) (Option.some_get _).symm)).2 (by decide)

/-- a check that was too early and found two deadlocks, and one in time -/
def earlyThenDue : DistributedDBNode × List Check :=
  (checked ([zoneReports 2] ++ pagRound 4999 ++ pagRound 10000)).get rfl

/-- the two deadlocks reported before a round complete at 4999 ms are in no decision, the next round is in time -/
theorem early_check_drops : ¬ ∀ id numNodes now nd log, Reached id numNodes now nd log →
    CountedOnce Check.zones log ∧ CountedOnce Check.central log := by
  intro hall
  have hrun : checked ([zoneReports 2] ++ pagRound 4999 ++ pagRound 10000) = some earlyThenDue :=
    (Option.some_get _).symm
  have honce := (hall _ _ _ _ _ (reached_of_checked hrun)).1 ⟨5001, ⟨2, 2⟩, ⟨0, 0⟩⟩ (by decide) (by decide) 0 le_rfl
    (by decide)
  exact absurd honce (by decide)

end TreeChecks

end HawkTxn
