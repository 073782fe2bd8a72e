/-
Which cycles the search reports more than once (`DeadlockDetector.cpp`, `findCycles`).

The outer loop enters every waiting transaction, also one whose visits are used up. Its edges are followed again, and
the cycles through it that were closed when it was exhausted can be closed again.

Result: `findCycles_distinct_iff`: the reported cycles differ up to rotation, exactly if the outer loop never comes to
an exhausted transaction on a cycle whose other members have visits left.
-/
import HawkTxn.Core.TourRepeats
import HawkTxn.SearchTours

namespace HawkTxn

open HawkTxn.Core UnorderedMap

namespace DeadlockDetector

variable {H : HashOrder} {graph : WaitForGraph} {fuel : ℕ} {cycles : List (List TransactionId)}
  {frequency : UnorderedMap TransactionId ℤ}

theorem toursFrom_eq (H : HashOrder) (graph : WaitForGraph) (t : Tour TransactionId)
    (roots : List (TransactionId × List TransactionId)) : toursFrom H graph t roots =
      (roots.map Prod.fst).foldl (fun t u => tour (fun u => getD graph u []) (maxDepth H graph) u t) t := by
  rw [toursFrom, List.foldl_map]

/-- the reported cycles are those of the tour -/
theorem cycles_eq_closed (h : findCycles H fuel graph = some (cycles, frequency)) :
    (searchTour H graph).tangled = false ∧ cycles = (searchTour H graph).closed.map Prod.snd := by
  have huntangled : (searchTour H graph).tangled = false := by
    by_contra htangled
    rw [findCycles_eq_none (Bool.eq_true_of_not_eq_false htangled) fuel] at h
    cases h
  obtain ⟨fuel', frequency', h'⟩ := findCycles_settles huntangled
  have hsame := (findCycles_mono (le_max_left fuel fuel') h).symm.trans (findCycles_mono (le_max_right fuel fuel') h')
  exact ⟨huntangled, congrArg Prod.fst (Option.some.inj hsame)⟩

/-- waiting transactions have visits at the start -/
theorem count_startTour {u : TransactionId} (hu : u ∈ (iter H graph).map Prod.fst) : 0 < (startTour H graph).count u :=
  (fresh_initSearch H graph).counted u
    (mem_initSearch (AList.mem_keys.1 ((iter_keys_perm H graph).mem_iff.1 hu)))

theorem explored_startTour (H : HashOrder) (graph : WaitForGraph) :
    Explored (fun u => getD graph u []) (startTour H graph) (startTour H graph) where
  visits := rfl
  le := Tour.Le.refl _
  heads _ he := absurd he List.not_mem_nil
  complete _ _ hstart hz _ _ := absurd hstart (not_lt.2 hz)

/-- **Reported cycles differ exactly if no exhausted transaction is reopened.** -/
theorem findCycles_distinct_iff (hsimple : ∀ u, (getD graph u []).Nodup)
    (h : findCycles H fuel graph = some (cycles, frequency)) :
    (cycles.Pairwise fun c c' => ¬ c ~r c') ↔
      ∀ pre u vs post, iter H graph = pre ++ (u, vs) :: post →
        ¬ Reopens (fun x => getD graph x []) (toursFrom H graph (startTour H graph) pre) u := by
  obtain ⟨huntangled, rfl⟩ := cycles_eq_closed h
  have hdepth : entriesLeft (initSearch H graph).visitedCount.keys.toFinset (startTour H graph) < maxDepth H graph :=
    Nat.lt_succ_self _
  have hmem : ∀ x, 0 < (startTour H graph).count x → x ∈ (initSearch H graph).visitedCount.keys.toFinset :=
    fun x hx => mem_of_count (Tour.Le.refl _) hx
  rw [searchTour, toursFrom_eq] at huntangled ⊢
  have hiff := distinct_tours_iff hsimple hdepth hmem (fun u hu => count_startTour hu) (explored_startTour H graph)
    huntangled
  rw [List.pairwise_map]
  refine hiff.trans ⟨?_, ?_⟩
  · intro h pre u vs post hsplit
    obtain ⟨-, hnot⟩ := h
    rw [toursFrom_eq]
    exact hnot _ u (post.map Prod.fst) (by rw [hsplit, List.map_append]; rfl)
  · refine fun hnot => ⟨List.Pairwise.nil, ?_⟩
    intro pre u post hsplit
    obtain ⟨pre', rest, hiter, rfl, hrest⟩ := List.map_eq_append_iff.1 hsplit
    obtain ⟨⟨u', vs⟩, post', rfl, rfl, rfl⟩ := List.map_eq_cons_iff.1 hrest
    rw [← toursFrom_eq]
    exact hnot pre' u' vs post' hiter

theorem findCycles_distinct_triangle :
    (([[5], [1, 2, 3]] : List (List TransactionId)).Pairwise fun c c' => ¬ c ~r c') ↔
      ∀ pre u vs post, iter .stored triangleGraph = pre ++ (u, vs) :: post →
        ¬ Reopens (fun x => getD triangleGraph x [])
          (toursFrom .stored triangleGraph (startTour .stored triangleGraph) pre) u :=
  have hfound : findCycles .stored 20 triangleGraph =
      some ([[5], [1, 2, 3]], ((findCycles .stored 20 triangleGraph).get rfl).2) := rfl
  findCycles_distinct_iff (WaitForGraph.nodup_of_entries (by decide)) hfound

/-- transactions 1 and 2 wait for each other, 1 also for two others -/
def repeatedGraph : WaitForGraph := pushAll ∅ [(2, 1), (1, 2), (1, 3), (1, 4)]

/-- **A deadlock that is counted twice.** -/
theorem findCycles_repeated : ¬ ∀ (H : HashOrder) (graph : WaitForGraph) (fuel : ℕ) (cycles : List (List TransactionId))
    (frequency : UnorderedMap TransactionId ℤ), (∀ u v, graph.Edge u v → 0 < u ∧ 0 < v) →
      (∀ u, (getD graph u []).Nodup) → findCycles H fuel graph = some (cycles, frequency) →
        cycles.Pairwise fun c c' => ¬ c ~r c' := by
  intro h
  have huntangled : (searchTour .stored repeatedGraph).tangled = false := rfl
  have hclosed : (searchTour .stored repeatedGraph).closed.map Prod.snd = [[2, 1], [2, 1]] := rfl
  obtain ⟨fuel, frequency, hfound⟩ := findCycles_settles huntangled
  rw [hclosed] at hfound
  have hdistinct := h .stored repeatedGraph fuel _ frequency (WaitForGraph.pos_of_entries (by decide))
    (WaitForGraph.nodup_of_entries (by decide)) hfound
  exact (List.pairwise_cons.1 hdistinct).1 [2, 1] List.mem_cons_self (List.IsRotated.refl _)

end DeadlockDetector

end HawkTxn
