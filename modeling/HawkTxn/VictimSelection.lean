/-
Frequencies and victims (`DeadlockDetector.cpp`, `DistributedDBNode::selectVictim`).

The search counts a transaction each time it meets it on the walk along the parent pointers. A walk meets no
transaction twice, so the counter of a transaction is the number of reported cycles that contain it (`Tallied`), and
the first candidate in the order of `compareTransactionPriority` is a member with the greatest number.

Results:
- `selectVictim_spec`: which member `selectVictim` returns;
- `findCycles_frequency`: the counters of a search that returns, and the victim of every reported cycle.
-/
import HawkTxn.DeadlockDetector

namespace HawkTxn

open HawkTxn.Core UnorderedMap

namespace DeadlockDetector

/-! ## The order of candidates -/

/-- `a` may stand before `b` among the sorted candidates -/
def Before (a b : TransactionId × ℤ) : Prop := compareTransactionPriority b a = false

instance (a b : TransactionId × ℤ) : Decidable (Before a b) :=
  inferInstanceAs (Decidable (compareTransactionPriority b a = false))

theorem before_iff {a b : TransactionId × ℤ} : Before a b ↔ b.2 < a.2 ∨ b.2 = a.2 ∧ a.1 ≤ b.1 := by
  unfold Before compareTransactionPriority
  by_cases hfreq : b.2 = a.2
  · simp [hfreq]
  · rw [if_pos hfreq, decide_eq_false_iff_not]
    refine ⟨?_, ?_⟩
    · intro hle
      exact Or.inl (lt_of_le_of_ne (not_lt.1 hle) hfreq)
    · rintro (hlt | ⟨heq, -⟩)
      · exact not_lt.2 hlt.le
      · exact absurd heq hfreq

instance : Std.Total Before where
  total a b := by
    rw [before_iff, before_iff]
    rcases lt_trichotomy b.2 a.2 with hlt | heq | hlt
    · exact Or.inl (Or.inl hlt)
    · exact (le_total a.1 b.1).imp (fun hle => Or.inr ⟨heq, hle⟩) fun hle => Or.inr ⟨heq.symm, hle⟩
    · exact Or.inr (Or.inl hlt)

instance : IsTrans (TransactionId × ℤ) Before where
  trans a b c hab hbc := by
    rw [before_iff] at hab hbc ⊢
    rcases hab with hab | ⟨hab, hab'⟩
    · have hle : c.2 ≤ b.2 := hbc.elim (fun hlt => hlt.le) fun heq => heq.1.le
      exact Or.inl (lt_of_le_of_lt hle hab)
    · rw [← hab]
      exact hbc.imp id fun hbc => ⟨hbc.1, hab'.trans hbc.2⟩

/-- the victim of a list is the member with the greatest frequency, the smallest id among equals -/
theorem selectVictim_spec {cycle : List TransactionId} {frequency : UnorderedMap TransactionId ℤ}
    {victimId : TransactionId} (h : selectVictim cycle frequency = some victimId) :
    victimId ∈ cycle ∧ ∀ t ∈ cycle, getD frequency t 0 < getD frequency victimId 0 ∨
      getD frequency t 0 = getD frequency victimId 0 ∧ victimId ≤ t := by
  refine ⟨selectVictim_mem h, ?_⟩
  intro t ht
  unfold selectVictim at h
  split_ifs at h
  obtain ⟨first, hfirst, rfl⟩ := Option.map_eq_some_iff.1 h
  obtain ⟨rest, hsort⟩ := List.head?_eq_some_iff.1 hfirst
  have hsorted := List.pairwise_insertionSort Before (cycle.map fun tid => (tid, getD frequency tid 0))
  have hmem : ∀ e, e ∈ first :: rest ↔ e ∈ cycle.map fun tid => (tid, getD frequency tid 0) := by
    intro e
    rw [← hsort]
    exact (List.perm_insertionSort _ _).mem_iff
  have hvalue : first.2 = getD frequency first.1 0 := by
    obtain ⟨tid, -, rfl⟩ := List.mem_map.1 ((hmem first).1 List.mem_cons_self)
    rfl
  rw [← hvalue]
  rcases List.mem_cons.1 ((hmem (t, getD frequency t 0)).2 (List.mem_map_of_mem ht)) with heq | hrest
  · rw [← heq]
    exact Or.inr ⟨rfl, le_rfl⟩
  · have hpair : (first :: rest).Pairwise Before := hsort ▸ hsorted
    exact before_iff.1 (List.rel_of_pairwise_cons hpair hrest)

/-! ## The counters -/

theorem getD_increment (m : UnorderedMap TransactionId ℤ) (k x : TransactionId) :
    getD (increment m k) x 0 = getD m x 0 + [k].count x := by
  rw [increment, getD_insert, List.count_singleton]
  by_cases hx : x = k
  · subst hx
    simp
  · simp [hx, Ne.symm hx]

/-- the loop along the parent pointers counts each node it meets once -/
theorem walkBack_frequency {parent : UnorderedMap TransactionId TransactionId} {v : TransactionId} {fuel : ℕ}
    {curr : TransactionId} {cycle : List TransactionId} {frequency : UnorderedMap TransactionId ℤ}
    {res : List TransactionId × UnorderedMap TransactionId ℤ}
    (h : walkBack parent v fuel curr cycle frequency = some res) :
    ∃ l, Trail (fun x => getD parent x 0) v curr l ∧ res.1 = cycle ++ l ∧
      ∀ x, getD res.2 x 0 = getD frequency x 0 + l.count x := by
  induction fuel generalizing curr cycle frequency with
  | zero =>
    unfold walkBack at h
    split_ifs at h with hv
    cases h; subst hv
    exact ⟨[], .arrived, by simp, by simp⟩
  | succ fuel ih =>
    unfold walkBack at h
    split_ifs at h with hv
    · cases h; subst hv
      exact ⟨[], .arrived, by simp, by simp⟩
    · obtain ⟨l, htrail, hcycle, hfreq⟩ := ih h
      refine ⟨curr :: l, .follow hv htrail, by rw [hcycle]; simp, ?_⟩
      intro x
      have hcons : (curr :: l).count x = [curr].count x + l.count x := by
        rw [← List.count_append, List.singleton_append]
      rw [hfreq, getD_increment, hcons]
      push_cast
      ring

/-- a reported cycle adds one for each of its members -/
theorem recordCycle_frequency {fuel : ℕ} {u v : TransactionId} {s s' : Search}
    (h : recordCycle fuel u v s = some s') :
    ∃ c, c.Nodup ∧ s'.cycles = s.cycles ++ [c] ∧
      ∀ x, getD s'.frequency x 0 = getD s.frequency x 0 + c.count x := by
  obtain ⟨res, hres, h⟩ := Option.bind_eq_some_iff.1 h
  obtain ⟨l, htrail, hcycle, hfreq⟩ := walkBack_frequency hres
  cases h
  refine ⟨v :: l.reverse, List.nodup_cons.2 ⟨?_, List.nodup_reverse.2 htrail.nodup⟩, by simp [hcycle], ?_⟩
  · rw [List.mem_reverse]
    exact htrail.notMem_target
  · intro x
    have hcons : (v :: l.reverse).count x = [v].count x + l.count x := by
      rw [← List.singleton_append, List.count_append, List.count_reverse]
    simp only [getD_increment, hfreq, hcons]
    push_cast
    ring

/-- the counter of a transaction is the number of reported cycles that contain it -/
def Tallied (s : Search) : Prop := ∀ x, getD s.frequency x 0 = s.cycles.countP fun c => decide (x ∈ c)

theorem Tallied.recordCycle {fuel : ℕ} {u v : TransactionId} {s s' : Search} (hs : Tallied s)
    (h : recordCycle fuel u v s = some s') : Tallied s' := by
  obtain ⟨c, hnd, hcycles, hfreq⟩ := recordCycle_frequency h
  intro x
  rw [hfreq, hs x, hcycles, List.countP_append, hnd.count]
  by_cases hx : x ∈ c <;> simp [hx]

theorem Tallied.dfs {graph : WaitForGraph} {fuel : ℕ} {u : TransactionId} {s s' : Search} (hs : Tallied s)
    (h : dfs graph fuel u s = some s') : Tallied s' :=
  dfs_invariant (P := Tallied) (fun _ _ hs => hs) (fun _ _ hs => hs) (fun _ _ _ _ hs => hs)
    (fun _ _ _ _ _ _ hs h => hs.recordCycle h) h hs

/-- x has a counter -/
def HasCounter (x : TransactionId) (s : Search) : Prop := x ∈ s.frequency

theorem HasCounter.dfs {x : TransactionId} {graph : WaitForGraph} {fuel : ℕ} {u : TransactionId} {s s' : Search}
    (hs : HasCounter x s) (h : dfs graph fuel u s = some s') : HasCounter x s' := by
  refine dfs_invariant (P := HasCounter x) (fun _ _ hs => hs) (fun _ _ hs => hs) (fun _ _ _ _ hs => hs) ?_ h hs
  intro fuel u v s s' _ hs h
  obtain ⟨l, -, -, hfreq⟩ := recordCycle_spec h
  exact hfreq x (Or.inl hs)

/-! ## The counters before the search -/

/-- the initialisation gives counters to the transactions it gives visit counts to, and they are zero -/
structure Zeroed (s : Search) : Prop where
  counter : ∀ x, x ∈ s.frequency ↔ x ∈ s.visitedCount
  zero : ∀ x, getD s.frequency x 0 = 0

theorem Zeroed.initTxn {s : Search} (h : Zeroed s) (d : UnorderedMap TransactionId ℤ × UnorderedMap TransactionId ℤ)
    (t : TransactionId) : Zeroed (initTxn d s t) where
  counter x := by
    simp only [DeadlockDetector.initTxn, AList.mem_insert]
    rw [h.counter x]
  zero x := by
    simp only [DeadlockDetector.initTxn, getD_insert]
    rw [h.zero x, ite_self]

/-- the second initialisation loop -/
def initTargets (d : UnorderedMap TransactionId ℤ × UnorderedMap TransactionId ℤ) (s : Search)
    (targets : List TransactionId) : Search :=
  targets.foldl (fun s target => if target ∈ s.visitedCount then s else initTxn d s target) s

theorem initSearch_eq (H : HashOrder) (graph : WaitForGraph) : initSearch H graph =
    (iter H graph).foldl (fun s pair => initTargets (degrees H graph) s pair.2)
      ((iter H graph).foldl (fun s pair => initTxn (degrees H graph) s pair.1) ⟨∅, ∅, ∅, [], ∅⟩) := rfl

theorem zeroed_initSearch (H : HashOrder) (graph : WaitForGraph) : Zeroed (initSearch H graph) := by
  apply initSearch_invariant
  · exact ⟨fun _ => Iff.rfl, fun _ => rfl⟩
  · exact fun s x hs => hs.initTxn _ x

theorem mem_initTargets {d : UnorderedMap TransactionId ℤ × UnorderedMap TransactionId ℤ} {s : Search}
    {targets : List TransactionId} {x : TransactionId} (h : x ∈ s.visitedCount ∨ x ∈ targets) :
    x ∈ (initTargets d s targets).visitedCount := by
  induction targets generalizing s with
  | nil => exact h.resolve_right List.not_mem_nil
  | cons target targets ih =>
    apply ih
    show x ∈ (if target ∈ s.visitedCount then s else initTxn d s target).visitedCount ∨ x ∈ targets
    by_cases hx : x = target
    · subst hx
      left
      split_ifs with hmem
      · exact hmem
      · simp [initTxn]
    · rcases h with h | h
      · left
        split_ifs
        · exact h
        · exact (AList.mem_insert _).2 (Or.inr h)
      · exact Or.inr ((List.mem_cons.1 h).resolve_left hx)

/-- every transaction of the graph has a visit count -/
theorem mem_initSearch_vertex {H : HashOrder} {graph : WaitForGraph} {x : TransactionId}
    (hx : x ∈ graph ∨ ∃ u, graph.Edge u x) : x ∈ (initSearch H graph).visitedCount := by
  rcases hx with hx | ⟨u, hux⟩
  · exact mem_initSearch hx
  · obtain ⟨vs, hvs, hxvs⟩ := WaitForGraph.edge_iff_lookup.1 hux
    have hloop : ∀ (l : List (TransactionId × List TransactionId)) (s : Search),
        x ∈ s.visitedCount ∨ (u, vs) ∈ l →
        x ∈ (l.foldl (fun s pair => initTargets (degrees H graph) s pair.2) s).visitedCount := by
      intro l
      induction l with
      | nil => exact fun s hs => hs.resolve_right List.not_mem_nil
      | cons pair l ih =>
        intro s hs
        apply ih
        rcases hs with hs | hs
        · exact Or.inl (mem_initTargets (Or.inl hs))
        · rcases List.mem_cons.1 hs with rfl | hs
          · exact Or.inl (mem_initTargets (Or.inr hxvs))
          · exact Or.inr hs
    rw [initSearch_eq]
    exact hloop _ _ (Or.inr (mem_iter.2 hvs))

/-! ## Results -/

/-- **Frequencies and victims.** If the search returns, the frequency of every transaction of the graph is the number
of reported cycles that contain it, and every reported cycle has a victim: a member with the greatest frequency, the
smallest id among equals. -/
theorem findCycles_frequency {H : HashOrder} {fuel : ℕ} {graph : WaitForGraph} {cycles : List (List TransactionId)}
    {frequency : UnorderedMap TransactionId ℤ} (h : findCycles H fuel graph = some (cycles, frequency)) :
    (∀ t, (t ∈ graph ∨ ∃ u, graph.Edge u t) →
      frequency.lookup t = some (cycles.countP (fun c => decide (t ∈ c)) : ℤ)) ∧
    ∀ c ∈ cycles, ∃ victimId, selectVictim c frequency = some victimId ∧ victimId ∈ c ∧
      ∀ t ∈ c, getD frequency t 0 < getD frequency victimId 0 ∨
        getD frequency t 0 = getD frequency victimId 0 ∧ victimId ≤ t := by
  refine ⟨?_, ?_⟩
  · obtain ⟨s, hs, rfl, rfl⟩ := findCycles_search h
    intro t ht
    have hzero := zeroed_initSearch H graph
    have htallied : Tallied s := by
      refine foldlM_invariant (P := Tallied) (fun _ _ _ _ hs h => hs.dfs h) hs ?_
      intro x
      rw [hzero.zero, (fresh_initSearch H graph).cycles]
      rfl
    have hcounter : HasCounter t s :=
      foldlM_invariant (P := HasCounter t) (fun _ _ _ _ hs h => hs.dfs h) hs
        ((hzero.counter t).2 (mem_initSearch_vertex ht))
    obtain ⟨n, hn⟩ := mem_iff_lookup.1 hcounter
    rw [hn, ← htallied t, getD_of_lookup hn]
  · intro c hc
    obtain ⟨victimId, hvictim⟩ := findCycles_victim h c hc
    exact ⟨victimId, hvictim, selectVictim_spec hvictim⟩

/-- two cycles through transaction 2 -/
def twoCycles : WaitForGraph := pushAll ∅ [(1, 2), (2, 1), (2, 3), (3, 2)]

theorem findCycles_frequency_two :
    ∃ cycles frequency, findCycles .stored 20 twoCycles = some (cycles, frequency) ∧
      (∀ t, (t ∈ twoCycles ∨ ∃ u, twoCycles.Edge u t) →
        frequency.lookup t = some (cycles.countP (fun c => decide (t ∈ c)) : ℤ)) ∧
      ∀ c ∈ cycles, ∃ victimId, selectVictim c frequency = some victimId ∧ victimId ∈ c ∧
        ∀ t ∈ c, getD frequency t 0 < getD frequency victimId 0 ∨
          getD frequency t 0 = getD frequency victimId 0 ∧ victimId ≤ t :=
  have hfound : findCycles .stored 20 twoCycles = some ((findCycles .stored 20 twoCycles).get rfl) :=
    (Option.some_get _).symm
  ⟨_, _, hfound, findCycles_frequency hfound⟩

end DeadlockDetector

end HawkTxn
