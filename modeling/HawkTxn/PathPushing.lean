/-
Path pushing (`initiatePathPushingProbes`, `handlePathPushingProbe`).

A round starts with a probe for every active BLOCKED transaction. A probe is handled by going from the last transaction
of its path to the first holder, in iteration order, of what that one waits for: it closes a cycle if the holder is in
the path already, and is pushed on to the holder's home node otherwise. Handling a probe does not change the node, so
a round is run on one node with the probes in flight, which come in any order. A message to the node itself is taken to
arrive; probes for other nodes leave the round.

Results:
- `handlePathPushingProbe_spec`: what becomes of a probe;
- `exists_finished`: a round can always be brought to its end;
- `closes_iff`: some probe closes a cycle exactly if the first holders form one;
- `closes_of_single_holders`: a deadlock over resources with one holder each is found;
- `handlePathPushingProbe_threw`, `resolvesProbe_iff`: a probe that closes a cycle ends in an exception, whatever the
  cycle, so that no victim is ever aborted.
-/
import HawkTxn.DistributedDBNode
import HawkTxn.Core.Digraph

namespace HawkTxn

open HawkTxn.Core UnorderedMap

namespace PathPushing

open DistributedDBNode

/-! ## Model -/

/-- the messages of an outcome that come to the node itself -/
def toSelf (o : Outcome) : List NetworkMessage :=
  o.effects.filterMap fun
    | .pushLocal msg => some msg
    | .send msg => if msg.receiverId = o.node.nodeId then some msg else none
    | .broadcastTreeAdjustment .. => none

/-- the paths of the probes among them -/
def probes (o : Outcome) : List (List TransactionId) :=
  ((toSelf o).filter fun msg => msg.type = .pathPushingProbe).map (·.path)

/-- the path whose victim is selected, if the handler gets there -/
def closes (E : Env) (nd : DistributedDBNode) (path : List TransactionId) : List (List TransactionId) :=
  match path.getLast?.bind (nd.blockingTransaction E) with
  | none => []
  | some blockingTransId => if blockingTransId ∈ path then [path ++ [blockingTransId]] else []

/-- the probes in flight, and the paths that closed a cycle -/
structure Round where
  inFlight : List (List TransactionId)
  closed : List (List TransactionId)

def start (E : Env) (nd : DistributedDBNode) : Round := ⟨probes (nd.initiatePathPushingProbes E), []⟩

/-- one of the probes is handled -/
def step (nd : DistributedDBNode) (s : Round) (turn : Env × ℕ) : Option Round :=
  s.inFlight[turn.2]?.map fun path =>
    { inFlight := s.inFlight.eraseIdx turn.2 ++ probes (nd.handlePathPushingProbe turn.1 path)
      closed := s.closed ++ closes turn.1 nd path }

/-- t is BLOCKED, and b is the first holder of what it waits for -/
def WaitsFirst (H : HashOrder) (nd : DistributedDBNode) (t b : TransactionId) : Prop :=
  ∃ txn, nd.transactionManager.getTransaction t = some txn ∧ txn.status = .blocked ∧ txn.waitingForResourceId ≠ 0 ∧
    ((iter H (nd.transactionManager.resourceManager.getResourceHolders txn.waitingForResourceId)).map
      Prod.fst).head? = some b

/-- t is BLOCKED, and b is among the holders of what it waits for, a resource of this node -/
def Waits (nd : DistributedDBNode) (t b : TransactionId) : Prop :=
  ∃ txn, nd.transactionManager.getTransaction t = some txn ∧ txn.status = .blocked ∧
    getOwnerNodeId txn.waitingForResourceId = nd.nodeId ∧
    b ∈ nd.transactionManager.resourceManager.getResourceHolders txn.waitingForResourceId

/-- probes for t come to this node -/
def HomedHere (nd : DistributedDBNode) (t : TransactionId) : Prop :=
  nd.transactionManager.getTransactionHomeNode t ≠ 0 ∧ nd.transactionManager.getTransactionHomeNode t = nd.nodeId

/-- first holders that wait for each other, all but one of them homed here -/
def FirstHolderCycle (H : HashOrder) (nd : DistributedDBNode) : Prop :=
  ∃ x l, IsCycle (WaitsFirst H nd) (x :: l) ∧ ∀ y ∈ l, HomedHere nd y

variable {H : HashOrder} {E : Env} {nd : DistributedDBNode} {s : Round} {path : List TransactionId}
  {t b : TransactionId}

/-! ## Handling a probe -/

theorem blockingTransaction_eq_some : nd.blockingTransaction E t = some b ↔ WaitsFirst E.hash nd t b := by
  unfold blockingTransaction WaitsFirst
  cases htxn : nd.transactionManager.getTransaction t with
  | none => simp
  | some txn =>
    simp only [Option.some.injEq, exists_eq_left']
    split_ifs with hidle
    · refine ⟨?_, ?_⟩
      · intro h
        cases h
      · intro h
        rcases hidle with hidle | hidle
        · exact absurd h.1 hidle
        · exact absurd hidle h.2.1
    · rw [not_or, not_not] at hidle
      exact ⟨fun h => ⟨hidle.1, hidle.2, h⟩, fun h => h.2.2⟩

theorem waitsFirst_unique {b' : TransactionId} (h : WaitsFirst H nd t b) (h' : WaitsFirst H nd t b') : b = b' := by
  obtain ⟨txn, htxn, -, -, hhead⟩ := h
  obtain ⟨txn', htxn', -, -, hhead'⟩ := h'
  rw [htxn] at htxn'
  cases htxn'
  exact Option.some.inj (hhead.symm.trans hhead')

@[simp] theorem toSelf_sends (nd : DistributedDBNode) (msgs : List NetworkMessage) (threw : Bool) :
    toSelf (nd.sends msgs threw) = msgs.filter fun msg => msg.receiverId = nd.nodeId := by
  unfold toSelf sends
  rw [List.filterMap_map, ← List.filterMap_eq_filter]
  apply List.filterMap_congr
  intro msg _
  simp only [Function.comp, Option.guard, decide_eq_true_eq]

@[simp] theorem toSelf_pushLocal (nd : DistributedDBNode) (msgs : List NetworkMessage) (threw : Bool) :
    toSelf ⟨nd, msgs.map .pushLocal, threw⟩ = msgs := by
  unfold toSelf
  rw [List.filterMap_map]
  exact List.filterMap_some

theorem probes_sends_of_types {types : List NetworkMessageType} {msgs : List NetworkMessage} {threw : Bool}
    (h : OfTypes types msgs) (hnone : .pathPushingProbe ∉ types) : probes (nd.sends msgs threw) = [] := by
  unfold probes
  rw [toSelf_sends, List.map_eq_nil_iff, List.filter_eq_nil_iff]
  intro msg hmsg
  have htype : msg.type ≠ .pathPushingProbe := fun hprobe => hnone (hprobe ▸ h msg (List.mem_filter.1 hmsg).1)
  simpa using htype

/-- what becomes of a probe -/
theorem handlePathPushingProbe_spec (E : Env) (nd : DistributedDBNode) (path : List TransactionId) :
    (closes E nd path = [] ∧ probes (nd.handlePathPushingProbe E path) = [] ∧
      ∀ t b, path.getLast? = some t → WaitsFirst E.hash nd t b → b ∉ path ∧ ¬ HomedHere nd b) ∨
    ∃ t b, path.getLast? = some t ∧ WaitsFirst E.hash nd t b ∧
      ((b ∈ path ∧ closes E nd path = [path ++ [b]] ∧ probes (nd.handlePathPushingProbe E path) = []) ∨
        (b ∉ path ∧ HomedHere nd b ∧ closes E nd path = [] ∧
          probes (nd.handlePathPushingProbe E path) = [path ++ [b]])) := by
  unfold closes handlePathPushingProbe
  cases hnext : path.getLast?.bind (nd.blockingTransaction E) with
  | none =>
    refine Or.inl ⟨rfl, rfl, ?_⟩
    intro t b ht hb
    rw [ht, Option.bind_some, blockingTransaction_eq_some.2 hb] at hnext
    cases hnext
  | some b =>
    obtain ⟨t, ht, hb⟩ := Option.bind_eq_some_iff.1 hnext
    have hwaits := blockingTransaction_eq_some.1 hb
    simp only
    by_cases hmem : b ∈ path
    · rw [if_pos hmem, if_pos hmem]
      refine Or.inr ⟨t, b, ht, hwaits, Or.inl ⟨hmem, rfl, ?_⟩⟩
      cases DeadlockDetector.selectVictim (path ++ [b]) ∅ with
      | none => rfl
      | some victimId =>
        have htypes : OfTypes [.abortTransactionSignal, .deadlockReportToClient] (abortSignals E nd victimId ++
            if nd.isCentralizedNode then [reportToClientMsg E nd 0 [path ++ [b]] 1] else []) := by
          refine ofTypes_append.2 ⟨ofTypes_abortSignals E nd victimId (by decide), ?_⟩
          split_ifs
          · exact ofTypes_reportToClientMsg E nd (by decide) 0 _ 1
          · exact ofTypes_nil
        exact probes_sends_of_types htypes (by decide)
    · rw [if_neg hmem, if_neg hmem]
      by_cases hhome : HomedHere nd b
      · rw [if_pos hhome.1]
        refine Or.inr ⟨t, b, ht, hwaits, Or.inr ⟨hmem, hhome, rfl, ?_⟩⟩
        simp [probes, requestMsg, hhome.2]
      · refine Or.inl ⟨rfl, ?_, ?_⟩
        · split_ifs with h0
          · have hother : nd.transactionManager.getTransactionHomeNode b ≠ nd.nodeId := fun h => hhome ⟨h0, h⟩
            simp [probes, requestMsg, hother]
          · rfl
        · intro t' b' ht' hb'
          rw [ht] at ht'
          cases ht'
          obtain rfl := waitsFirst_unique hwaits hb'
          exact ⟨hmem, hhome⟩

/-- the last transaction of the probe waits for b first: the probe closes a cycle at b, or goes on to b at b's home -/
theorem handlePathPushingProbe_of_waits {E : Env} {path : List TransactionId} {t b : TransactionId}
    (ht : path.getLast? = some t) (hb : WaitsFirst E.hash nd t b) :
    (b ∈ path → closes E nd path = [path ++ [b]]) ∧
    (b ∉ path → HomedHere nd b → probes (nd.handlePathPushingProbe E path) = [path ++ [b]]) := by
  rcases handlePathPushingProbe_spec E nd path with ⟨-, -, hnone⟩ | ⟨t', b', ht', hb', hfate⟩
  · obtain ⟨hnew, haway⟩ := hnone t b ht hb
    exact ⟨fun hmem => absurd hmem hnew, fun _ hhome => absurd hhome haway⟩
  · rw [ht] at ht'
    cases ht'
    obtain rfl := waitsFirst_unique hb hb'
    rcases hfate with ⟨hmem, hcloses, -⟩ | ⟨hnew, -, -, hprobes⟩
    · exact ⟨fun _ => hcloses, fun hnew => absurd hmem hnew⟩
    · exact ⟨fun hmem => absurd hmem hnew, fun _ _ => hprobes⟩

/-! ## Rounds -/

/-- a path of first holders without repetition; where it was pushed on, it came back here -/
structure Pushed (H : HashOrder) (nd : DistributedDBNode) (path : List TransactionId) : Prop where
  ne_nil : path ≠ []
  nodup : path.Nodup
  chain : path.IsChain (WaitsFirst H nd)
  active : ∀ t ∈ path, t ∈ nd.transactionManager.activeTransactions
  homed : ∀ t ∈ path.tail, HomedHere nd t

theorem mem_active_of_homedHere (h : HomedHere nd t) : t ∈ nd.transactionManager.activeTransactions := by
  have hhome := h.1
  unfold TransactionManager.getTransactionHomeNode at hhome
  cases htxn : nd.transactionManager.activeTransactions.lookup t with
  | none =>
    rw [htxn] at hhome
    exact absurd rfl hhome
  | some txn => exact mem_iff_lookup.2 ⟨txn, htxn⟩

theorem Pushed.push (h : Pushed H nd path) (ht : path.getLast? = some t) (hb : WaitsFirst H nd t b) (hnew : b ∉ path)
    (hhome : HomedHere nd b) : Pushed H nd (path ++ [b]) where
  ne_nil := by simp
  nodup := List.nodup_append.2 ⟨h.nodup, List.nodup_singleton b, by
    intro x hx y hy
    rw [List.mem_singleton.1 hy]
    exact fun hxb => hnew (hxb ▸ hx)⟩
  chain := by
    rw [List.isChain_append]
    refine ⟨h.chain, List.isChain_singleton b, ?_⟩
    intro x hx y hy
    rw [ht] at hx
    cases hx
    cases hy
    exact hb
  active t' ht' := by
    rcases List.mem_append.1 ht' with ht' | ht'
    · exact h.active t' ht'
    · rw [List.mem_singleton.1 ht']
      exact mem_active_of_homedHere hhome
  homed t' ht' := by
    rw [List.tail_append_of_ne_nil h.ne_nil] at ht'
    rcases List.mem_append.1 ht' with ht' | ht'
    · exact h.homed t' ht'
    · rw [List.mem_singleton.1 ht']
      exact hhome

/-- a path that runs into itself contains a cycle of first holders -/
theorem Pushed.cycle (h : Pushed H nd path) (ht : path.getLast? = some t) (hb : WaitsFirst H nd t b)
    (hmem : b ∈ path) : FirstHolderCycle H nd := by
  obtain ⟨pre, suf, rfl⟩ := List.append_of_mem hmem
  have hlast : (b :: suf).getLast? = some t := by
    rw [← ht, List.getLast?_append_cons]
  refine ⟨b, suf, ⟨?_, List.cons_ne_nil b suf, ?_, ?_⟩, ?_⟩
  · exact (List.nodup_append.1 h.nodup).2.1
  · exact (List.isChain_append.1 h.chain).2.1
  · rw [List.getLast?_eq_getLast_of_ne_nil (List.cons_ne_nil b suf)] at hlast
    rw [Option.some.inj hlast]
    exact hb
  · intro y hy
    apply h.homed
    cases pre with
    | nil => exact hy
    | cons z pre => exact List.mem_append_right pre (List.mem_cons_of_mem b hy)

/-- the probes in flight were pushed along first holders, and what has closed a cycle is one -/
structure Inv (H : HashOrder) (nd : DistributedDBNode) (s : Round) : Prop where
  pushed : ∀ path ∈ s.inFlight, Pushed H nd path
  closed : s.closed ≠ [] → FirstHolderCycle H nd

/-- the first probes are for the active BLOCKED transactions -/
theorem mem_start : path ∈ (start E nd).inFlight ↔ ∃ t txn, path = [t] ∧
    nd.transactionManager.getTransaction t = some txn ∧ txn.status = .blocked := by
  have hpushed := toSelf_pushLocal nd (((nd.transactionManager.getActiveTransactions E.hash).filter fun transId =>
    (nd.transactionManager.getTransaction transId).any fun txn => txn.status = .blocked).map fun transId =>
      { requestMsg E nd .pathPushingProbe nd.nodeId with path := [transId] }) false
  rw [List.map_map] at hpushed
  have hstart : probes (nd.initiatePathPushingProbes E) = _ := congrArg (fun msgs =>
    (msgs.filter fun msg => msg.type = .pathPushingProbe).map (·.path)) hpushed
  simp only [start, hstart, List.mem_map, List.mem_filter, TransactionManager.mem_getActiveTransactions]
  refine ⟨?_, ?_⟩
  · intro h
    obtain ⟨msg, ⟨⟨t, ⟨-, hblocked⟩, rfl⟩, -⟩, rfl⟩ := h
    cases htxn : nd.transactionManager.getTransaction t with
    | none =>
      rw [htxn] at hblocked
      cases hblocked
    | some txn =>
      rw [htxn] at hblocked
      exact ⟨t, txn, rfl, htxn, by simpa using hblocked⟩
  · intro h
    obtain ⟨t, txn, rfl, htxn, hblocked⟩ := h
    refine ⟨_, ⟨⟨t, ⟨mem_iff_lookup.2 ⟨txn, htxn⟩, ?_⟩, rfl⟩, by simp [requestMsg]⟩, rfl⟩
    rw [htxn]
    simpa using hblocked

theorem inv_start : Inv H nd (start E nd) where
  pushed path hpath := by
    obtain ⟨t, txn, rfl, htxn, -⟩ := mem_start.1 hpath
    refine ⟨by simp, by simp, List.isChain_singleton t, ?_, by simp⟩
    intro t' ht'
    rw [List.mem_singleton.1 ht']
    exact mem_iff_lookup.2 ⟨txn, htxn⟩
  closed h := absurd rfl h

theorem inv_step {s' : Round} {turn : Env × ℕ} (hinv : Inv H nd s) (hH : turn.1.hash = H)
    (h : step nd s turn = some s') : Inv H nd s' := by
  obtain ⟨path, hpath, rfl⟩ := Option.map_eq_some_iff.1 h
  have hpushed := hinv.pushed path (List.mem_of_getElem? hpath)
  have hrest : ∀ p ∈ s.inFlight.eraseIdx turn.2, Pushed H nd p :=
    fun p hp => hinv.pushed p (List.mem_of_mem_eraseIdx hp)
  rcases handlePathPushingProbe_spec turn.1 nd path with ⟨hcloses, hprobes, -⟩ | ⟨t, b, ht, hb, hfate⟩
  · rw [hcloses, hprobes, List.append_nil, List.append_nil]
    exact ⟨hrest, hinv.closed⟩
  · rw [hH] at hb
    rcases hfate with ⟨hmem, -, hprobes⟩ | ⟨hnew, hhome, hcloses, hprobes⟩
    · rw [hprobes, List.append_nil]
      exact ⟨hrest, fun _ => hpushed.cycle ht hb hmem⟩
    · rw [hcloses, hprobes, List.append_nil]
      refine ⟨?_, hinv.closed⟩
      intro p hp
      rcases List.mem_append.1 hp with hp | hp
      · exact hrest p hp
      · rw [List.mem_singleton.1 hp]
        exact hpushed.push ht hb hnew hhome

/-! ## The end of a round -/

/-- how far the probes in flight can still be pushed, in all -/
def weight (nd : DistributedDBNode) (s : Round) : ℕ :=
  (s.inFlight.map fun path => nd.transactionManager.activeTransactions.keys.length + 1 - path.length).sum

theorem Pushed.length_le (h : Pushed H nd path) :
    path.length ≤ nd.transactionManager.activeTransactions.keys.length := by
  have hsub : path ⊆ nd.transactionManager.activeTransactions.keys := fun t ht => AList.mem_keys.1 (h.active t ht)
  exact (h.nodup.subperm hsub).length_le

/-- a probe that is handled gives way to nothing or to one that is longer -/
theorem weight_step {s' : Round} {turn : Env × ℕ} (hinv : Inv H nd s) (h : step nd s turn = some s') :
    weight nd s' < weight nd s := by
  obtain ⟨path, hpath, rfl⟩ := Option.map_eq_some_iff.1 h
  obtain ⟨hi, rfl⟩ := List.getElem?_eq_some_iff.1 hpath
  have hlen := (hinv.pushed _ (List.getElem_mem hi)).length_le
  have hperm := (List.getElem_cons_eraseIdx_perm hi).map
    fun path => nd.transactionManager.activeTransactions.keys.length + 1 - path.length
  have hsum := hperm.sum_eq
  rw [List.map_cons, List.sum_cons] at hsum
  unfold weight
  rw [← hsum, List.map_append, List.sum_append]
  rcases handlePathPushingProbe_spec turn.1 nd s.inFlight[turn.2] with ⟨-, hprobes, -⟩ | ⟨t, b, -, -, hfate⟩
  · rw [hprobes, List.map_nil, List.sum_nil]
    omega
  · rcases hfate with ⟨-, -, hprobes⟩ | ⟨-, -, -, hprobes⟩
    · rw [hprobes, List.map_nil, List.sum_nil]
      omega
    · rw [hprobes, List.map_singleton, List.sum_singleton, List.length_append, List.length_singleton]
      omega

/-- the environments of a round have one iteration order -/
def SameOrder (H : HashOrder) (_ : Round) (turn : Env × ℕ) : Prop := turn.1.hash = H

theorem inv_of_reaches (h : ReachesBy (step nd) (SameOrder H) (start E nd) s) : Inv H nd s :=
  h.invariant inv_start fun _ _ _ hinv hok hst => inv_step hinv hok hst

theorem exists_finished (h : ReachesBy (step nd) (SameOrder E.hash) (start E nd) s) :
    ∃ s', ReachesBy (step nd) (SameOrder E.hash) s s' ∧ s'.inFlight = [] := by
  induction hw : weight nd s using Nat.strong_induction_on generalizing s with
  | _ w ih =>
    cases hflight : s.inFlight with
    | nil => exact ⟨s, .start, hflight⟩
    | cons path rest =>
      have hsome : (step nd s (E, 0)).isSome := by simp [step, hflight]
      obtain ⟨t, ht⟩ := Option.isSome_iff_exists.1 hsome
      have hlt : weight nd t < w := hw ▸ weight_step (inv_of_reaches h) ht
      have hok : SameOrder E.hash s (E, 0) := rfl
      obtain ⟨s', hs', hdone⟩ := ih (weight nd t) hlt (h.next hok ht) rfl
      exact ⟨s', (ReachesBy.next .start hok ht).trans hs', hdone⟩

/-! ## Which rounds close a cycle -/

/-- a probe has gone some way around the cycle, or one has closed a cycle -/
def Follows (c : List TransactionId) (s : Round) : Prop :=
  s.closed ≠ [] ∨ ∃ pre suf, pre ≠ [] ∧ pre ++ suf = c ∧ pre ∈ s.inFlight

theorem follows_step {s' : Round} {turn : Env × ℕ} {x : TransactionId} {l : List TransactionId}
    (hc : IsCycle (WaitsFirst H nd) (x :: l)) (hhome : ∀ y ∈ l, HomedHere nd y) (hs : Follows (x :: l) s)
    (hH : turn.1.hash = H) (h : step nd s turn = some s') : Follows (x :: l) s' := by
  obtain ⟨path, hpath, rfl⟩ := Option.map_eq_some_iff.1 h
  rcases hs with hclosed | ⟨pre, suf, hne, hcycle, hmem⟩
  · left
    simp [hclosed]
  by_cases hother : pre ∈ s.inFlight.eraseIdx turn.2
  · exact Or.inr ⟨pre, suf, hne, hcycle, List.mem_append_left _ hother⟩
  -- the probe that is handled is the one on its way around the cycle
  obtain rfl : path = pre := by
    obtain ⟨i, hi⟩ := List.getElem?_of_mem hmem
    by_cases hturn : i = turn.2
    · rw [hturn, hpath] at hi
      exact Option.some.inj hi
    · exact absurd (List.mem_eraseIdx_iff_getElem?.2 ⟨i, hturn, hi⟩) hother
  cases suf with
  | nil =>
    rw [List.append_nil] at hcycle
    subst hcycle
    have hlast : (x :: l).getLast? = some ((x :: l).getLast hc.ne_nil) :=
      List.getLast?_eq_getLast_of_ne_nil hc.ne_nil
    have hback : WaitsFirst turn.1.hash nd ((x :: l).getLast hc.ne_nil) x := hH ▸ hc.closes
    have hcloses := (handlePathPushingProbe_of_waits hlast hback).1 List.mem_cons_self
    left
    simp [hcloses]
  | cons z suf =>
    have hchain := hc.chain
    have hnodup := hc.nodup
    rw [← hcycle] at hchain hnodup
    have hlast : path.getLast? = some (path.getLast hne) := List.getLast?_eq_getLast_of_ne_nil hne
    have hnext : WaitsFirst turn.1.hash nd (path.getLast hne) z :=
      hH ▸ (List.isChain_append.1 hchain).2.2 _ hlast z rfl
    have hnew : z ∉ path := fun hz => (List.nodup_append.1 hnodup).2.2 z hz z List.mem_cons_self rfl
    have hzl : z ∈ l := by
      obtain ⟨y, path', rfl⟩ := List.exists_cons_of_ne_nil hne
      rw [List.cons_append, List.cons.injEq] at hcycle
      rw [← hcycle.2]
      exact List.mem_append_right path' List.mem_cons_self
    right
    refine ⟨path ++ [z], suf, by simp, by simpa using hcycle, List.mem_append_right _ ?_⟩
    rw [(handlePathPushingProbe_of_waits hlast hnext).2 hnew (hhome z hzl)]
    exact List.mem_singleton_self _

/-- one of the probes goes around a cycle of first holders -/
theorem closed_of_cycle (h : ReachesBy (step nd) (SameOrder E.hash) (start E nd) s) (hdone : s.inFlight = [])
    (hcycle : FirstHolderCycle E.hash nd) : s.closed ≠ [] := by
  obtain ⟨x, l, hc, hhome⟩ := hcycle
  have hfollows : Follows (x :: l) s := by
    refine h.invariant (P := Follows (x :: l)) ?_ fun s turn s' hs hok hst => follows_step hc hhome hs hok hst
    -- the cycle starts with the probe for x
    obtain ⟨y, -, txn, htxn, hblocked, -⟩ := hc.exists_succ List.mem_cons_self
    exact Or.inr ⟨[x], l, by simp, rfl, mem_start.2 ⟨x, txn, rfl, htxn, hblocked⟩⟩
  rcases hfollows with hclosed | ⟨pre, suf, -, -, hmem⟩
  · exact hclosed
  · rw [hdone] at hmem
    exact absurd hmem List.not_mem_nil

/-- **Path pushing.** In any state of a node, a round of probes comes to an end, and when no probe is in flight any more
some probe has closed a cycle exactly if the first holders of what the BLOCKED transactions wait for form a cycle. -/
theorem closes_iff (E : Env) (nd : DistributedDBNode) :
    (∃ s, ReachesBy (step nd) (SameOrder E.hash) (start E nd) s ∧ s.inFlight = []) ∧
    ∀ s, ReachesBy (step nd) (SameOrder E.hash) (start E nd) s → s.inFlight = [] →
      (s.closed ≠ [] ↔ FirstHolderCycle E.hash nd) := by
  refine ⟨exists_finished .start, ?_⟩
  intro s h hdone
  exact ⟨(inv_of_reaches h).closed, closed_of_cycle h hdone⟩

/-- transactions 1 and 2 wait for each other; 3, which is running, reads 5 too and is its first holder -/
def lateReader : DistributedDBNode :=
  { DistributedDBNode.init 1 1 0 with
    transactionManager := (run TransactionManager.step (TransactionManager.init 1)
      [.beginTransaction .quiet [(6, .exclusive), (5, .exclusive)],
        .beginTransaction .quiet [(5, .shared), (6, .shared)], .beginTransaction .quiet [(5, .shared)],
        .tryExecuteNextSQLStatement .quiet 1, .tryExecuteNextSQLStatement .quiet 2,
        .tryExecuteNextSQLStatement .quiet 3, .tryExecuteNextSQLStatement .quiet 1,
        .tryExecuteNextSQLStatement .quiet 2]).get rfl }

/-- five probes are handled: from 1, from 2, and what they become -/
def lateReaderRound : Round :=
  (run (step lateReader) (start .quiet lateReader) (List.replicate 5 (.quiet, 0))).get rfl

theorem lateReader_waits : IsCycle (Waits lateReader) [1, 2] where
  nodup := by decide
  ne_nil := by decide
  chain := List.isChain_pair.2 ⟨_, rfl, rfl, by decide, by decide⟩
  closes := ⟨_, rfl, rfl, by decide, by decide⟩

/-- the probes of both follow 3 and end there -/
theorem lateReader_missed : ¬ ∀ E nd c s, IsCycle (Waits nd) c →
    ReachesBy (step nd) (SameOrder E.hash) (start E nd) s → s.inFlight = [] → s.closed ≠ [] := by
  intro h
  have hrun : run (step lateReader) (start .quiet lateReader) (List.replicate 5 (.quiet, 0)) =
      some lateReaderRound := rfl
  have horder : ∀ turn ∈ List.replicate 5 ((Env.quiet, 0) : Env × ℕ), (fun turn => turn.1.hash = .stored) turn :=
    fun turn hturn => congrArg (fun turn => turn.1.hash) (List.eq_of_mem_replicate hturn)
  have hreach : ReachesBy (step lateReader) (SameOrder .stored) (start .quiet lateReader) lateReaderRound :=
    (ReachesBy.of_run_of_forall horder hrun).mono fun _ _ hok => hok.1
  exact h .quiet lateReader [1, 2] lateReaderRound lateReader_waits hreach rfl rfl

/-! ## Deadlocks that are found -/

/-- where every active transaction is homed at the node, first holders form a cycle as they wait for each other -/
theorem firstHolderCycle_iff (hhomed : nd.transactionManager.Homed fun _ => nd.nodeId) :
    FirstHolderCycle H nd ↔ ∃ c, IsCycle (WaitsFirst H nd) c := by
  refine ⟨?_, ?_⟩
  · intro h
    obtain ⟨x, l, hc, -⟩ := h
    exact ⟨x :: l, hc⟩
  · intro h
    obtain ⟨c, hc⟩ := h
    obtain ⟨x, l, rfl⟩ := List.exists_cons_of_ne_nil hc.ne_nil
    refine ⟨x, l, hc, ?_⟩
    intro y hy
    -- a member of the cycle is BLOCKED, so it is in the table
    obtain ⟨z, -, txn, htxn, -⟩ := hc.exists_succ (List.mem_cons_of_mem x hy)
    obtain ⟨hhome, hne⟩ := hhomed.getTransactionHomeNode (mem_iff_lookup.2 ⟨txn, htxn⟩)
    exact ⟨hhome ▸ hne, hhome⟩

theorem waitsFirst_of_single_holder (hwaits : Waits nd t b) (hzero : ∀ txn,
      nd.transactionManager.getTransaction t = some txn → txn.waitingForResourceId ≠ 0)
    (hsingle : ∀ b', Waits nd t b' → b' = b) : WaitsFirst H nd t b := by
  obtain ⟨txn, htxn, hblocked, howner, hb⟩ := hwaits
  refine ⟨txn, htxn, hblocked, hzero txn htxn, ?_⟩
  have hkeys := iter_keys_perm H
    (nd.transactionManager.resourceManager.getResourceHolders txn.waitingForResourceId)
  have hmem := hkeys.mem_iff.2 (AList.mem_keys.1 hb)
  obtain ⟨b', rest, hiter⟩ := List.exists_cons_of_ne_nil (List.ne_nil_of_mem hmem)
  have hb' : b' = b := by
    refine hsingle b' ⟨txn, htxn, hblocked, howner, AList.mem_keys.2 (hkeys.mem_iff.1 ?_)⟩
    rw [hiter]
    exact List.mem_cons_self
  rw [hiter, hb']
  rfl

/-- a deadlock over resources that have one holder each is found, in whatever order the probes come -/
theorem closes_of_single_holders {c : List TransactionId} (hhomed : nd.transactionManager.Homed fun _ => nd.nodeId)
    (hc : IsCycle (Waits nd) c) (hzero : ∀ t ∈ c, ∀ txn, nd.transactionManager.getTransaction t = some txn →
      txn.waitingForResourceId ≠ 0)
    (hsingle : ∀ t ∈ c, ∀ b b', Waits nd t b → Waits nd t b' → b = b')
    (h : ReachesBy (step nd) (SameOrder E.hash) (start E nd) s) (hdone : s.inFlight = []) : s.closed ≠ [] := by
  have hfirst : ∀ t ∈ c, ∀ b, Waits nd t b → WaitsFirst E.hash nd t b :=
    fun t ht b hb => waitsFirst_of_single_holder hb (hzero t ht) fun b' hb' => hsingle t ht b' b hb' hb
  have hcycle : IsCycle (WaitsFirst E.hash nd) c :=
    ⟨hc.nodup, hc.ne_nil, hc.chain.imp_of_mem_imp fun t b ht _ hb => hfirst t ht b hb,
      hfirst _ (List.getLast_mem hc.ne_nil) _ hc.closes⟩
  exact closed_of_cycle h hdone ((firstHolderCycle_iff hhomed).2 ⟨c, hcycle⟩)

/-! ## Victims of closed paths -/

/-- the frequency table is empty, and `at` throws on the first member -/
theorem selectVictim_empty {cycle : List TransactionId} (h : cycle ≠ []) :
    DeadlockDetector.selectVictim cycle ∅ = none := by
  obtain ⟨t, ht⟩ := List.exists_mem_of_ne_nil cycle h
  unfold DeadlockDetector.selectVictim
  rw [if_neg]
  intro hall
  exact AList.notMem_empty t (hall t ht)

/-- the path extended by b comes back to b -/
def Revisits (E : Env) (nd : DistributedDBNode) (path : List TransactionId) (b : TransactionId) : Prop :=
  path.getLast?.bind (nd.blockingTransaction E) = some b ∧ b ∈ path

/-- where the path comes back, the node stays as it is, nothing is sent and an exception leaves the handler -/
theorem handlePathPushingProbe_of_revisits (h : Revisits E nd path b) :
    nd.handlePathPushingProbe E path = ⟨nd, [], true⟩ := by
  unfold handlePathPushingProbe
  simp only [h.1, if_pos h.2, selectVictim_empty (List.concat_ne_nil b path)]

theorem handlePathPushingProbe_threw :
    (nd.handlePathPushingProbe E path).threw = true ↔ ∃ b, Revisits E nd path b := by
  refine ⟨?_, ?_⟩
  · intro hthrew
    unfold handlePathPushingProbe at hthrew
    cases hnext : path.getLast?.bind (nd.blockingTransaction E) with
    | none =>
      rw [hnext] at hthrew
      cases hthrew
    | some b =>
      rw [hnext] at hthrew
      simp only at hthrew
      by_cases hmem : b ∈ path
      · exact ⟨b, hnext, hmem⟩
      · rw [if_neg hmem] at hthrew
        split_ifs at hthrew <;> cases hthrew
  · intro hrevisits
    obtain ⟨b, hb⟩ := hrevisits
    rw [handlePathPushingProbe_of_revisits hb]

/-- the closed part of the path: from the first time b is visited to the end -/
def closedPart (path : List TransactionId) (b : TransactionId) : List TransactionId :=
  (path ++ [b]).dropWhile fun t => t ≠ b

/-- where the path comes back no exception is raised, and one abort signal names a member of the closed part if the
victim chosen is active here -/
def ResolvesProbe (E : Env) (nd : DistributedDBNode) (path : List TransactionId) : Prop :=
  ∀ b, Revisits E nd path b → (nd.handlePathPushingProbe E path).threw = false ∧
    ∀ victimId, DeadlockDetector.selectVictim (path ++ [b]) ∅ = some victimId →
      victimId ∈ nd.transactionManager.activeTransactions →
      ∃ msg, (nd.handlePathPushingProbe E path).sent.filter (fun m => m.type = .abortTransactionSignal) = [msg] ∧
        ∃ t ∈ closedPart path b, msg.deadlockedTransactions = [t]

/-- **No victim.** A probe is resolved only where there is nothing to resolve: every path that comes back, at any node,
ends in an exception. -/
theorem resolvesProbe_iff (E : Env) (nd : DistributedDBNode) (path : List TransactionId) :
    ResolvesProbe E nd path ↔ ¬ ∃ b, Revisits E nd path b := by
  refine ⟨?_, ?_⟩
  · intro hresolves hrevisits
    have hthrew := handlePathPushingProbe_threw.2 hrevisits
    obtain ⟨b, hb⟩ := hrevisits
    rw [(hresolves b hb).1] at hthrew
    cases hthrew
  · exact fun hnone b hb => absurd ⟨b, hb⟩ hnone

/-- 1 and 2 wait for each other, and 3 waits for 1 -/
def crossedWriters : DistributedDBNode :=
  { DistributedDBNode.init 1 1 0 with
    transactionManager := (run TransactionManager.step (TransactionManager.init 1)
      [.beginTransaction .quiet [(6, .exclusive), (5, .exclusive)],
        .beginTransaction .quiet [(5, .exclusive), (6, .exclusive)], .beginTransaction .quiet [(6, .exclusive)],
        .tryExecuteNextSQLStatement .quiet 1, .tryExecuteNextSQLStatement .quiet 2,
        .tryExecuteNextSQLStatement .quiet 1, .tryExecuteNextSQLStatement .quiet 2,
        .tryExecuteNextSQLStatement .quiet 3]).get rfl }

/-- the probe that started from 3 comes back to 1 -/
theorem crossedWriters_throws : ¬ ∀ E nd path, ResolvesProbe E nd path := by
  intro hall
  have hrevisits : Revisits .quiet crossedWriters [3, 1, 2] 1 := ⟨rfl, by decide⟩
  have hthrew : (crossedWriters.handlePathPushingProbe .quiet [3, 1, 2]).threw = true := rfl
  rw [(hall .quiet crossedWriters [3, 1, 2] 1 hrevisits).1] at hthrew
  cases hthrew

end PathPushing

end HawkTxn
