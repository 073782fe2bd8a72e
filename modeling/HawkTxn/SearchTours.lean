/-
When the cycle search returns (`DeadlockDetector.cpp`, `dfs`, `findCycles`).

A visit count lets a transaction be entered again while an earlier visit of it is open, which overwrites its parent
pointer. The walk back along the pointers then never arrives, if the transaction lies on the open path. `searchTour` is
the order in which the search visits the transactions: it knows the open visits, and nothing of the pointers.

Results:
- `Tied`: the tables of the search and the open visits of the tour, kept by every step;
- `dfs_settles`: with enough fuel a visit returns what its tour says, or it does not return with any fuel;
- `findCycles_returns_iff`: the search returns exactly if no edge back is tangled;
- `findCycles_returns_of_balanced`: it returns if every transaction waits for as many as wait for it.
-/
import HawkTxn.Core.TourCycles
import HawkTxn.DeadlockDetector

namespace HawkTxn

open HawkTxn.Core UnorderedMap

namespace DeadlockDetector

/-! ## The tour of the search -/

/-- the visit counts `findCycles` starts from, and no open visit -/
def startTour (H : HashOrder) (graph : WaitForGraph) : Tour TransactionId :=
  ⟨fun x => getD (initSearch H graph).visitedCount x 0, [], [], false⟩

/-- no tour goes deeper than there are visits -/
def maxDepth (H : HashOrder) (graph : WaitForGraph) : ℕ :=
  entriesLeft (initSearch H graph).visitedCount.keys.toFinset (startTour H graph) + 1

/-- the tours from some transactions, one after the other -/
def toursFrom (H : HashOrder) (graph : WaitForGraph) (t : Tour TransactionId)
    (roots : List (TransactionId × List TransactionId)) : Tour TransactionId :=
  roots.foldl (fun t pair => tour (fun u => getD graph u []) (maxDepth H graph) pair.1 t) t

/-- the order in which `findCycles` visits the transactions -/
def searchTour (H : HashOrder) (graph : WaitForGraph) : Tour TransactionId :=
  toursFrom H graph (startTour H graph) (iter H graph)

/-- the tables say what the open visits say -/
structure Tied (s : Search) (t : Tour TransactionId) : Prop where
  count : ∀ x, getD s.visitedCount x 0 = t.count x
  mark : ∀ x, getD s.recursionStack x false = (openVisit x t.visits).isSome
  linked : Linked (fun x => getD s.parent x 0) t.visits
  cycles : s.cycles = t.closed.map Prod.snd

/-- with enough fuel the search comes to what the tour says, or with none if the tour is tangled -/
def Settles (x : ℕ → Option Search) (t : Tour TransactionId) : Prop :=
  if t.tangled then ∀ fuel, x fuel = none else ∃ fuel s, x fuel = some s ∧ Tied s t

variable {H : HashOrder} {graph : WaitForGraph} {s s' : Search} {t t' : Tour TransactionId} {u v : TransactionId}
  {w : Visit TransactionId} {ws : List (Visit TransactionId)} {depth fuel : ℕ} {l : List TransactionId}

section Settling

variable {x : ℕ → Option Search}

theorem settles_of_eq_some (fuel : ℕ) (htangled : ¬ t.tangled) (hx : x fuel = some s) (h : Tied s t) : Settles x t := by
  rw [Settles, if_neg htangled]
  exact ⟨fuel, s, hx, h⟩

theorem settles_of_eq_none (htangled : t.tangled) (hx : ∀ fuel, x fuel = none) : Settles x t := by
  rw [Settles, if_pos htangled]
  exact hx

theorem Settles.eq_some (h : Settles x t) (htangled : ¬ t.tangled) : ∃ fuel s, x fuel = some s ∧ Tied s t := by
  rw [Settles, if_neg htangled] at h
  exact h

theorem Settles.eq_none (h : Settles x t) (htangled : t.tangled) (fuel : ℕ) : x fuel = none := by
  rw [Settles, if_pos htangled] at h
  exact h fuel

end Settling

/-! ## Steps -/

/-- a visit begins -/
theorem Tied.enter_with {parent : UnorderedMap TransactionId TransactionId} (h : Tied s t)
    (hv : ∀ w ∈ t.visits.head?, getD parent v 0 = w.vertex)
    (hother : ∀ x, x ≠ v → getD parent x 0 = getD s.parent x 0) :
    Tied (enter v { s with parent := parent }) (t.enter v) where
  count x := by
    simp only [enter, getD_insert, Tour.count_enter, h.count]
  mark x := by
    simp only [enter, getD_insert]
    split_ifs with hx
    · rw [hx, openVisit_enter_self]
      rfl
    · rw [isSome_openVisit_enter hx, h.mark]
  linked := h.linked.enter hv hother
  cycles := h.cycles

/-- a visit that an edge leads to -/
theorem Tied.enter_edge (h : Tied s t) (hvisits : t.visits = w :: ws) :
    Tied (enter v { s with parent := s.parent.insert v w.vertex }) (t.enter v) := by
  refine h.enter_with ?_ ?_
  · rw [hvisits]
    rintro _ ⟨⟩
    rw [getD_insert, if_pos rfl]
  · intro x hx
    rw [getD_insert, if_neg hx]

/-- a visit that the outer loop begins -/
theorem Tied.enter_root (h : Tied s t) (hvisits : t.visits = []) : Tied (enter u s) (t.enter u) := by
  refine h.enter_with ?_ fun _ _ => rfl
  rw [hvisits]
  exact fun _ hw => absurd hw (Option.not_mem_none _)

/-- a visit ends -/
theorem Tied.leave (h : Tied s t) (hvisits : t.visits = w :: ws) : Tied (leave w.vertex s) t.leave where
  count := h.count
  mark x := by
    have hnested := h.linked.nested
    rw [hvisits] at hnested
    simp only [DeadlockDetector.leave, Tour.leave, getD_insert, hvisits, List.tail_cons]
    rw [isSome_openVisit_tail hnested, h.mark, hvisits]
  linked := h.linked.tail
  cycles := h.cycles

/-! ## Edges back -/

/-- the loop along the pointers ends if they lead to v -/
theorem walkBack_of_trail {parent : UnorderedMap TransactionId TransactionId} {curr : TransactionId}
    (h : Trail (fun x => getD parent x 0) v curr l) (cycle : List TransactionId)
    (frequency : UnorderedMap TransactionId ℤ) :
    ∃ frequency', walkBack parent v l.length curr cycle frequency = some (cycle ++ l, frequency') := by
  induction h generalizing cycle frequency with
  | arrived => exact ⟨frequency, by unfold walkBack; simp⟩
  | @follow x l hne _ ih =>
    obtain ⟨frequency', hrest⟩ := ih (cycle ++ [x]) (increment frequency x)
    refine ⟨frequency', ?_⟩
    rw [List.length_cons, walkBack, if_neg hne, hrest, List.append_assoc]
    rfl

/-- an edge back is recorded exactly if it is not tangled -/
theorem recordCycle_settles {inner outer : List (Visit TransactionId)} (h : Tied s t) (hvisits : t.visits = w :: ws)
    (hopen : openVisit v t.visits = some (inner, outer)) (htangled : ¬ t.tangled) :
    Settles (fun fuel => recordCycle fuel w.vertex v s) (if ∀ w ∈ inner, w.vertex ∉ w.entered
      then { t with closed := t.closed ++ [(path outer, v :: path inner)] } else { t with tangled := true }) := by
  obtain ⟨latest, hsplit, rfl, hnot⟩ := openVisit_eq_some hopen
  have hlinked := h.linked
  rw [hsplit] at hlinked hvisits
  split_ifs with hinner
  · have htrail := trail_of_untangled hlinked hnot hinner hvisits
    obtain ⟨frequency, hwalk⟩ := walkBack_of_trail htrail [] s.frequency
    have hrecord : recordCycle (inner.map Visit.vertex).length w.vertex latest.vertex s = some { s with
        cycles := s.cycles ++ [latest.vertex :: path inner]
        frequency := increment frequency latest.vertex } := by
      unfold recordCycle
      rw [hwalk, List.nil_append]
      simp [path]
    refine settles_of_eq_some _ htangled hrecord ⟨h.count, h.mark, h.linked, ?_⟩
    rw [h.cycles, List.map_append]
    rfl
  · apply settles_of_eq_none rfl
    intro fuel
    by_contra hsome
    obtain ⟨s', hs'⟩ := Option.ne_none_iff_exists'.1 hsome
    obtain ⟨l, htrail, -⟩ := recordCycle_spec hs'
    push Not at hinner
    obtain ⟨w', hw', hagain⟩ := hinner
    exact not_trail_of_tangled hlinked hnot hw' hagain hvisits htrail

/-! ## Loops -/

theorem followEdge_mono {fuel' : ℕ} (hle : fuel ≤ fuel') (h : followEdge (dfs graph fuel) fuel u s v = some s') :
    followEdge (dfs graph fuel') fuel' u s v = some s' := by
  induction hle with
  | refl => exact h
  | step _ ih =>
    unfold followEdge at ih ⊢
    split_ifs at ih ⊢
    · exact dfs_mono ih
    · obtain ⟨res, hres, ih⟩ := Option.bind_eq_some_iff.1 ih
      exact Option.bind_eq_some_iff.2 ⟨res, walkBack_mono hres, ih⟩
    · exact ih

/-- a loop settles if its rounds do, as long as the tour is not tangled -/
theorem foldlM_settles {β : Type} {f : ℕ → Search → β → Option Search}
    {g : Tour TransactionId → β → Tour TransactionId} {l : List β}
    (hmono : ∀ fuel fuel' s b s', fuel ≤ fuel' → f fuel s b = some s' → f fuel' s b = some s')
    (hle : ∀ t b, Tour.Le t (g t b)) {P : Tour TransactionId → Prop} (hP : ∀ t b, P t → P (g t b))
    (hround : ∀ s t b, b ∈ l → Tied s t → P t → ¬ t.tangled → Settles (fun fuel => f fuel s b) (g t b))
    (h : Tied s t) (ht : P t) (htangled : ¬ t.tangled) :
    Settles (fun fuel => l.foldlM (f fuel) s) (l.foldl g t) := by
  induction l generalizing s t with
  | nil => exact settles_of_eq_some 0 htangled rfl h
  | cons b l ih =>
    have hfirst := hround s t b List.mem_cons_self h ht htangled
    have hrest : Tour.Le (g t b) ((b :: l).foldl g t) :=
      List.foldlRecOn (motive := Tour.Le (g t b)) l g (Tour.Le.refl _) fun _ hs c _ => hs.trans (hle _ c)
    by_cases hb : (g t b).tangled
    · apply settles_of_eq_none (hrest.tangled hb)
      intro fuel
      simp only [List.foldlM_cons, hfirst.eq_none hb fuel]
      rfl
    · obtain ⟨fuel₁, s₁, hs₁, htied⟩ := hfirst.eq_some hb
      have hlater := ih (fun s t c hc => hround s t c (List.mem_cons_of_mem b hc)) htied (hP t b ht) hb
      by_cases hend : (l.foldl g (g t b)).tangled
      · apply settles_of_eq_none hend
        intro fuel
        rw [List.foldlM_cons]
        cases hs : f fuel s b with
        | none => rfl
        | some s₂ =>
          -- with any fuel the first round has the same result
          have hsame : s₂ = s₁ := Option.some.inj ((hmono _ _ s b s₂ (le_max_left fuel fuel₁) hs).symm.trans
            (hmono _ _ s b s₁ (le_max_right fuel fuel₁) hs₁))
          rw [hsame]
          exact hlater.eq_none hend fuel
      · obtain ⟨fuel₂, s', hs', htied'⟩ := hlater.eq_some hend
        refine settles_of_eq_some (max fuel₁ fuel₂) hend ?_ htied'
        rw [List.foldlM_cons, hmono _ _ s b s₁ (le_max_left _ _) hs₁]
        exact foldlM_mono (fun s c s' hc => hmono _ _ s c s' (le_max_right _ _) hc) hs'

/-! ## Visits -/

variable {S : Finset TransactionId}

/-- **Visits.** The recursion and the tour agree as long as the tour is not tangled; from then on there is no result. -/
theorem dfs_settles (h : Tied (enter u s) (t.enter u)) (hleft : entriesLeft S (t.enter u) < depth)
    (hmem : ∀ x, 0 < t.count x → x ∈ S) (htangled : ¬ t.tangled) :
    Settles (fun fuel => dfs graph fuel u s) (tour (fun u => getD graph u []) depth u t) := by
  induction depth generalizing s t u with
  | zero => exact absurd hleft (Nat.not_lt_zero _)
  | succ depth ih =>
    have hstart : InVisit S depth u (t.enter u) := .enter (Nat.le_of_lt_succ hleft) hmem
    have hround : ∀ s t v, v ∈ getD graph u [] → Tied s t → InVisit S depth u t → ¬ t.tangled →
        Settles (fun fuel => followEdge (dfs graph fuel) fuel u s v)
          (Tour.follow (tour (fun u => getD graph u []) depth) t v) := by
      intro s t v _ hst hvisit htangled
      obtain ⟨w, ws, hvisits, rfl⟩ := hvisit.visits
      unfold followEdge Tour.follow
      simp only [hst.count, hst.mark]
      by_cases hcount : 0 < t.count v
      · simp only [if_pos hcount]
        refine ih (hst.enter_edge hvisits) ?_ hvisit.mem htangled
        calc entriesLeft S (t.enter v) < entriesLeft S t := entriesLeft_enter hcount (hvisit.mem v hcount)
          _ ≤ depth := hvisit.left
      · simp only [if_neg hcount]
        cases hopen : openVisit v t.visits with
        | none => exact settles_of_eq_some 0 htangled rfl hst
        | some p => exact recordCycle_settles hst hvisits hopen htangled
    have hloop := foldlM_settles (l := getD graph u [])
      (f := fun fuel => followEdge (dfs graph fuel) fuel u) (g := Tour.follow (tour (fun u => getD graph u []) depth))
      (fun _ _ _ _ _ hle hs => followEdge_mono hle hs)
      (le_follow (le_tour _ depth)) (fun _ v hvisit => hvisit.follow _ depth v) hround h hstart htangled
    have hend : InVisit S depth u ((getD graph u []).foldl (Tour.follow (tour (fun u => getD graph u []) depth))
        (t.enter u)) :=
      List.foldlRecOn (motive := InVisit S depth u) _ _ hstart fun _ hvisit v _ => hvisit.follow _ depth v
    rw [tour]
    generalize (getD graph u []).foldl (Tour.follow (tour (fun u => getD graph u []) depth)) (t.enter u) = t'
      at hloop hend ⊢
    by_cases htangle : t'.tangled
    · apply settles_of_eq_none (t := t'.leave) htangle
      intro fuel
      cases fuel with
      | zero => rfl
      | succ fuel =>
        simp only [dfs, hloop.eq_none htangle fuel]
        rfl
    · obtain ⟨fuel, s', hs', htied⟩ := hloop.eq_some htangle
      obtain ⟨w, ws, hvisits, rfl⟩ := hend.visits
      have hleave : dfs graph (fuel + 1) w.vertex s = some (leave w.vertex s') := by
        simp only [dfs, hs']
        rfl
      exact settles_of_eq_some _ htangle hleave (htied.leave hvisits)

/-! ## Searches -/

/-- the state before the search is that of a tour without visits -/
theorem tied_initSearch (H : HashOrder) (graph : WaitForGraph) : Tied (initSearch H graph) (startTour H graph) where
  count _ := rfl
  mark x := (fresh_initSearch H graph).unmarked x
  linked := ⟨List.Pairwise.nil, by simp [startTour], List.isChain_nil⟩
  cycles := (fresh_initSearch H graph).cycles

/-- what the outer loop keeps of the tour -/
structure Between (H : HashOrder) (graph : WaitForGraph) (t : Tour TransactionId) : Prop where
  visits : t.visits = []
  le : Tour.Le (startTour H graph) t

theorem Between.tour (h : Between H graph t) (u : TransactionId) :
    Between H graph (tour (fun u => getD graph u []) depth u t) where
  visits := by
    have hgrown := grown_tour (fun u => getD graph u []) depth (u := u) (Or.inr h.visits)
    rw [h.visits] at hgrown
    exact List.forall₂_nil_left_iff.1 hgrown
  le := h.le.trans (le_tour _ depth u t)

/-- only transactions with a visit count are entered -/
theorem mem_of_count (h : Tour.Le (startTour H graph) t) {x : TransactionId} (hx : 0 < t.count x) :
    x ∈ (initSearch H graph).visitedCount.keys.toFinset := by
  have hstart : 0 < getD (initSearch H graph).visitedCount x 0 := lt_of_lt_of_le hx (h.count x)
  rw [List.mem_toFinset, ← AList.mem_keys]
  by_contra hnot
  rw [getD, AList.lookup_eq_none.2 hnot] at hstart
  exact absurd hstart (lt_irrefl _)

/-- the outer loop, over any transactions -/
theorem roots_settle (H : HashOrder) (graph : WaitForGraph) (roots : List (TransactionId × List TransactionId)) :
    Settles (fun fuel => roots.foldlM (fun s pair => dfs graph fuel pair.1 s) (initSearch H graph))
      (toursFrom H graph (startTour H graph) roots) := by
  refine foldlM_settles (P := Between H graph) ?_ ?_ ?_ ?_ (tied_initSearch H graph) ⟨rfl, Tour.Le.refl _⟩
    Bool.false_ne_true
  · intro fuel fuel' s pair s' hle hs
    induction hle with
    | refl => exact hs
    | step _ ih => exact dfs_mono ih
  · exact fun t pair => le_tour _ _ pair.1 t
  · exact fun t pair hbetween => hbetween.tour pair.1
  · intro s t pair _ htied hbetween htangled
    refine dfs_settles (htied.enter_root hbetween.visits) ?_ (fun x hx => mem_of_count hbetween.le hx) htangled
    apply Nat.lt_succ_of_le
    calc entriesLeft _ (t.enter pair.1) ≤ entriesLeft _ t := entriesLeft_le (le_enter pair.1 t)
      _ ≤ entriesLeft _ (startTour H graph) := entriesLeft_le hbetween.le

/-- the result is that of the tour -/
theorem findCycles_settles (h : (searchTour H graph).tangled = false) :
    ∃ fuel frequency, findCycles H fuel graph = some ((searchTour H graph).closed.map Prod.snd, frequency) := by
  obtain ⟨fuel, s, hs, htied⟩ := (roots_settle H graph (iter H graph)).eq_some (Bool.eq_false_iff.1 h)
  refine ⟨fuel, s.frequency, ?_⟩
  rw [searchTour, ← htied.cycles]
  exact Option.bind_eq_some_iff.2 ⟨s, hs, rfl⟩

theorem findCycles_eq_none (h : (searchTour H graph).tangled = true) (fuel : ℕ) : findCycles H fuel graph = none := by
  simp only [findCycles, (roots_settle H graph (iter H graph)).eq_none h fuel]
  rfl

/-- **The search returns exactly if its tour is untangled.** -/
theorem findCycles_returns_iff (H : HashOrder) (graph : WaitForGraph) :
    (∃ fuel, (findCycles H fuel graph).isSome) ↔ (searchTour H graph).tangled = false := by
  refine ⟨?_, ?_⟩
  · intro h
    obtain ⟨fuel, hsome⟩ := h
    by_contra htangled
    rw [findCycles_eq_none (Bool.eq_true_of_not_eq_false htangled) fuel] at hsome
    cases hsome
  · intro h
    obtain ⟨fuel, frequency, hfound⟩ := findCycles_settles h
    exact ⟨fuel, Option.isSome_iff_exists.2 ⟨_, hfound⟩⟩

/-- a transaction may be visited as often as its degrees differ, and once more -/
theorem count_startTour_le (H : HashOrder) (graph : WaitForGraph) (x : TransactionId) :
    (startTour H graph).count x ≤ |getD (degrees H graph).1 x 0 - getD (degrees H graph).2 x 0| + 1 := by
  refine initSearch_invariant (P := fun s => getD s.visitedCount x 0 ≤
    |getD (degrees H graph).1 x 0 - getD (degrees H graph).2 x 0| + 1) ?_ fun s y hs => ?_
  · have habs := abs_nonneg (getD (degrees H graph).1 x 0 - getD (degrees H graph).2 x 0)
    exact le_trans habs (Int.le_add_one le_rfl)
  · simp only [initTxn, getD_insert]
    split_ifs with hx
    · rw [hx]
    · exact hs

/-- **A search that returns.** The search returns if every transaction waits for as many as wait for it. -/
theorem findCycles_returns_of_balanced (h : ∀ x, getD (degrees H graph).1 x 0 = getD (degrees H graph).2 x 0) :
    ∃ fuel, (findCycles H fuel graph).isSome := by
  have hstart : Single (startTour H graph) := by
    refine ⟨fun x => ?_, fun w hw => absurd hw List.not_mem_nil, rfl⟩
    have hcount := count_startTour_le H graph x
    rw [h x, sub_self, abs_zero, zero_add] at hcount
    exact hcount
  have hsearch : Between H graph (searchTour H graph) ∧ Single (searchTour H graph) :=
    List.foldlRecOn (motive := fun t => Between H graph t ∧ Single t) _ _ ⟨⟨rfl, Tour.Le.refl _⟩, hstart⟩
      fun t ht pair _ => ⟨ht.1.tour pair.1, single_tour ht.2 ht.1.visits⟩
  obtain ⟨fuel, frequency, hfound⟩ := findCycles_settles hsearch.2.tangled
  exact ⟨fuel, Option.isSome_iff_exists.2 ⟨_, hfound⟩⟩

/-- transaction 3 is entered again between a visit of it and the edge from 1 -/
def reenteredGraph : WaitForGraph := pushAll ∅ [(1, 2), (1, 3), (3, 1), (2, 3)]

/-- **A search that does not return.** -/
theorem findCycles_reentered : ¬ ∀ (H : HashOrder) (graph : WaitForGraph),
    (∀ u v, graph.Edge u v → 0 < u ∧ 0 < v) → ∃ fuel, (findCycles H fuel graph).isSome := by
  intro h
  obtain ⟨fuel, hsome⟩ := h .stored reenteredGraph (WaitForGraph.pos_of_entries (by decide))
  rw [findCycles_eq_none rfl fuel] at hsome
  cases hsome

end DeadlockDetector

end HawkTxn
