/-
Tarjan's search (`PAGManager::findSCCsDFS`).

The search marks a vertex as met by putting it into the table of discovery times. Between two searches that table lists
exactly the vertices of the components found; a search from a vertex that is not listed then finds the components of all
vertices it reaches that were not listed, and no others. (`greedySCCcut` starts from a table that lists every vertex.)

Results:
- `followEdges_inLoop`: the loop over the edges of a vertex;
- `findSCCsDFS_returned`: what a call leaves, for any vertices the search is in;
- `findSCCsDFS_components`: a search from a vertex that is not listed.
-/
import HawkTxn.PAGManager
import HawkTxn.Core.Components

namespace HawkTxn

open HawkTxn.Core UnorderedMap

namespace PAGManager

open Relation (ReflTransGen)

/-- an edge of the graph -/
def LeadsTo (pag : PAG) (u v : NodeId) : Prop := v ∈ getD pag u []

/-- the discovery time -/
def number (s : Search) (v : NodeId) : ℤ := getD s.disc v 0

/-- what the tables say about the stack and the components -/
structure Tables (s : Search) : Prop where
  listed : ∀ v, v ∈ s.disc ↔ v ∈ s.st ∨ v ∈ s.sccs.flatten
  stacked : ∀ v, getD s.onStack v false = true ↔ v ∈ s.st
  past : ∀ v ∈ s.st, number s v ≤ s.time

/-- s' lists more, and keeps what s says about the vertices it lists -/
structure Extends (s s' : Search) : Prop where
  disc : ∀ v ∈ s.disc, s'.disc.lookup v = s.disc.lookup v
  low : ∀ v ∈ s.disc, s'.low.lookup v = s.low.lookup v
  sccs : s.sccs <+: s'.sccs
  time : s.time ≤ s'.time

variable {pag : PAG} {path : List NodeId} {u w : NodeId} {s s' s₁ s₂ : Search} {met : List NodeId} {V : Finset NodeId}
  {fuel : ℕ}

theorem Extends.refl (s : Search) : Extends s s := ⟨fun _ _ => rfl, fun _ _ => rfl, List.prefix_rfl, le_rfl⟩

theorem Extends.mem (h : Extends s s') {v : NodeId} (hv : v ∈ s.disc) : v ∈ s'.disc := by
  rw [mem_iff_lookup, h.disc v hv, ← mem_iff_lookup]
  exact hv

theorem Extends.trans (h : Extends s s') (h' : Extends s' s₂) : Extends s s₂ :=
  ⟨fun v hv => (h'.disc v (h.mem hv)).trans (h.disc v hv), fun v hv => (h'.low v (h.mem hv)).trans (h.low v hv),
    h.sccs.trans h'.sccs, h.time.trans h'.time⟩

theorem Extends.number_eq (h : Extends s s') {v : NodeId} (hv : v ∈ s.disc) : number s' v = number s v := by
  unfold number getD
  rw [h.disc v hv]

theorem Extends.mem_sccs (h : Extends s s') {v : NodeId} (hv : v ∈ s.sccs.flatten) : v ∈ s'.sccs.flatten := by
  obtain ⟨rest, hrest⟩ := h.sccs
  rw [← hrest, List.flatten_append]
  exact List.mem_append_left _ hv

/-- what a call of `findSCCsDFS` for u leaves -/
structure Searched (pag : PAG) (path : List NodeId) (u : NodeId) (s s' : Search) : Prop where
  tables : Tables s'
  kept : Extends s s'
  found : u ∈ s'.disc
  returned : ∃ above, s'.st = above ++ s.st ∧
    Returned (LeadsTo pag) (number s') path s.st s'.sccs u above (getD s'.low u 0)
  walks : ∀ v ∈ s'.disc, v ∈ s.disc ∨ ReflTransGen (LeadsTo pag) u v

/-- the loop over the edges of u has followed the edges to `met`; s is the state before u was entered -/
structure InLoop (pag : PAG) (path : List NodeId) (u : NodeId) (s : Search) (met : List NodeId) (s₁ : Search) :
    Prop where
  tables : Tables s₁
  kept : Extends s s₁
  found : u ∈ s₁.disc
  following : ∃ above, s₁.st = above ++ u :: s.st ∧
    Following (LeadsTo pag) (number s₁) path s.st s₁.sccs u above (getD s₁.low u 0) met
  walks : ∀ v ∈ s₁.disc, v ∈ s.disc ∨ ReflTransGen (LeadsTo pag) u v

/-- vertices of V that are not listed -/
def unlisted (V : Finset NodeId) (s : Search) : Finset NodeId := V.filter fun v => v ∉ s.disc

/-- listing one vertex more -/
theorem card_unlisted_lt (hu : u ∈ V) (hnew : u ∉ s.disc) (hkept : Extends s s₁) (hfound : u ∈ s₁.disc) :
    (unlisted V s₁).card < (unlisted V s).card := by
  apply Finset.card_lt_card
  refine Finset.ssubset_iff_subset_ne.2 ⟨?_, ?_⟩
  · intro v hv
    obtain ⟨hvV, hv⟩ := Finset.mem_filter.1 hv
    exact Finset.mem_filter.2 ⟨hvV, fun hmem => hv (hkept.mem hmem)⟩
  · intro heq
    have hmem : u ∈ unlisted V s := Finset.mem_filter.2 ⟨hu, hnew⟩
    rw [← heq] at hmem
    exact (Finset.mem_filter.1 hmem).2 hfound

/-- setting the low link of u changes no table but that of the low links -/
theorem Tables.setLow (h : Tables s) (m : ℤ) : Tables { s with low := s.low.insert u m } :=
  ⟨h.listed, h.stacked, h.past⟩

theorem Extends.setLow (h : Extends s s₁) (hu : u ∉ s.disc) (m : ℤ) :
    Extends s { s₁ with low := s₁.low.insert u m } := by
  refine ⟨h.disc, ?_, h.sccs, h.time⟩
  intro v hv
  have hne : v ≠ u := fun heq => hu (heq ▸ hv)
  exact (AList.lookup_insert_ne hne).trans (h.low v hv)

/-! ## The loop over the edges of a vertex -/

/-- the state in which the loop starts -/
def enterVertex (u : NodeId) (s : Search) : Search :=
  { s with
    time := s.time + 1
    disc := s.disc.insert u (s.time + 1)
    low := s.low.insert u (s.time + 1)
    st := u :: s.st
    onStack := s.onStack.insert u true }

theorem inLoop_enterVertex (hs : Searching (LeadsTo pag) (number s) path s.st s.sccs) (ht : Tables s)
    (hu : u ∉ s.disc) (hwalk : ∀ x ∈ path, ReflTransGen (LeadsTo pag) x u) :
    InLoop pag path u s [] (enterVertex u s) := by
  have hne : ∀ v ∈ s.disc, v ≠ u := fun v hv heq => hu (heq ▸ hv)
  have hst : ∀ v ∈ s.st, v ∈ s.disc := fun v hv => (ht.listed v).2 (Or.inl hv)
  have hself : number (enterVertex u s) u = s.time + 1 := by simp [number, enterVertex]
  have hnumber : ∀ v ∈ s.disc, number (enterVertex u s) v = number s v := by
    intro v hv
    simp [number, enterVertex, hne v hv]
  refine ⟨⟨?_, ?_, ?_⟩, ⟨?_, ?_, List.prefix_rfl, Int.le_add_one le_rfl⟩, ?_, ⟨[], rfl, ?_⟩, ?_⟩
  · intro v
    simp only [enterVertex, AList.mem_insert, ht.listed v, List.mem_cons, or_assoc]
  · intro v
    simp only [enterVertex, getD_insert, List.mem_cons]
    split_ifs with hv
    · simp [hv]
    · simp [hv, ht.stacked v]
  · intro v hv
    rcases List.mem_cons.1 hv with rfl | hv
    · exact hself.le
    · rw [hnumber v (hst v hv)]
      exact Int.le_add_one (ht.past v hv)
  · exact fun v hv => AList.lookup_insert_ne (hne v hv)
  · exact fun v hv => AList.lookup_insert_ne (hne v hv)
  · exact (AList.mem_insert _).2 (Or.inl rfl)
  · have hlow : getD (enterVertex u s).low u 0 = number (enterVertex u s) u := by simp [number, enterVertex]
    rw [hlow]
    refine (hs.congr fun v hv => hnumber v (hst v hv)).enter ?_ ?_ hwalk
    · intro v hv
      rw [hself, hnumber v (hst v hv)]
      exact Int.lt_add_one_of_le (ht.past v hv)
    · exact fun hmem => hu ((ht.listed u).2 (Or.inr hmem))
  · intro v hv
    rcases (AList.mem_insert _).1 hv with rfl | hv
    · exact Or.inr .refl
    · exact Or.inl hv

/-- V is closed under edges -/
def Closed (pag : PAG) (V : Finset NodeId) : Prop := ∀ x ∈ V, ∀ y, LeadsTo pag x y → y ∈ V

/-- calls with this fuel return, and leave what they should -/
def Returns (pag : PAG) (V : Finset NodeId) (fuel : ℕ) : Prop :=
  ∀ (path : List NodeId) (u : NodeId) (s : Search), u ∈ V → Searching (LeadsTo pag) (number s) path s.st s.sccs →
    Tables s → u ∉ s.disc → (∀ x ∈ path, ReflTransGen (LeadsTo pag) x u) → (unlisted V s).card ≤ fuel →
    ∃ s', findSCCsDFS pag fuel u s = some s' ∧ Searched pag path u s s'

/-- an edge to a vertex that is listed -/
theorem InLoop.meet (h : InLoop pag path u s met s₁) (hnew : u ∉ s.disc) (huw : LeadsTo pag u w) {m : ℤ}
    (hw : w ∈ s₁.st ∧ m = min (getD s₁.low u 0) (number s₁ w) ∨ w ∈ s₁.sccs.flatten ∧ m = getD s₁.low u 0) :
    InLoop pag path u s (met ++ [w]) { s₁ with low := s₁.low.insert u m } := by
  obtain ⟨above, hst, hfollowing⟩ := h.following
  refine ⟨h.tables.setLow m, h.kept.setLow hnew m, h.found, ⟨above, hst, ?_⟩, h.walks⟩
  rw [getD_insert, if_pos rfl]
  rw [hst] at hw
  exact hfollowing.meet huw hw

/-- an edge to a new vertex -/
theorem InLoop.child (h : InLoop pag path u s met s₁) (hnew : u ∉ s.disc) (huw : LeadsTo pag u w)
    (hret : Searched pag (u :: path) w s₁ s₂) :
    InLoop pag path u s (met ++ [w])
      { s₂ with low := s₂.low.insert u (min (getD s₂.low u 0) (getD s₂.low w 0)) } := by
  obtain ⟨above, hst, hfollowing⟩ := h.following
  obtain ⟨above', hst', hreturned⟩ := hret.returned
  have hlow : getD s₂.low u 0 = getD s₁.low u 0 := by
    unfold getD
    rw [hret.kept.low u h.found]
  refine ⟨hret.tables.setLow _, (h.kept.trans hret.kept).setLow hnew _, hret.kept.mem h.found,
    ⟨above' ++ above, ?_, ?_⟩, ?_⟩
  · rw [hst', hst, List.append_assoc]
  · rw [getD_insert, if_pos rfl, hlow]
    rw [hst] at hreturned
    refine hfollowing.child huw ?_ (fun x => hret.kept.mem_sccs) hreturned
    intro x hx
    exact hret.kept.number_eq ((h.tables.listed x).2 (Or.inl (hst ▸ hx)))
  · intro v hv
    rcases hret.walks v hv with hv | hv
    · exact h.walks v hv
    · exact Or.inr (.head huw hv)

theorem followEdge_inLoop (ih : Returns pag V fuel) (hV : Closed pag V) (huV : u ∈ V) (hnew : u ∉ s.disc)
    (hcard : (unlisted V s).card ≤ fuel + 1) (h : InLoop pag path u s met s₁) (huw : LeadsTo pag u w) :
    ∃ s₂, followEdge (findSCCsDFS pag fuel) u s₁ w = some s₂ ∧ InLoop pag path u s (met ++ [w]) s₂ := by
  obtain ⟨above, hst, hfollowing⟩ := h.following
  unfold followEdge
  by_cases hw : w ∉ s₁.disc
  · have hless : (unlisted V s₁).card ≤ fuel :=
      Nat.le_of_lt_succ ((card_unlisted_lt huV hnew h.kept h.found).trans_le hcard)
    have hwalk : ∀ x ∈ u :: path, ReflTransGen (LeadsTo pag) x w := by
      intro x hx
      refine (hfollowing.searching.down x hx u (by simp) ?_).tail huw
      rcases List.mem_cons.1 hx with rfl | hx
      · exact le_rfl
      · exact (hfollowing.path_lt hx).le
    have hsearching : Searching (LeadsTo pag) (number s₁) (u :: path) s₁.st s₁.sccs := hst ▸ hfollowing.searching
    obtain ⟨s₂, hs₂, hret⟩ := ih (u :: path) w s₁ (hV u huV w huw) hsearching h.tables hw hwalk hless
    rw [if_pos hw, hs₂]
    exact ⟨_, rfl, h.child hnew huw hret⟩
  · rw [if_neg hw]
    by_cases hon : getD s₁.onStack w false = true
    · rw [if_pos hon]
      exact ⟨_, rfl, h.meet hnew huw (Or.inl ⟨(h.tables.stacked w).1 hon, rfl⟩)⟩
    · rw [if_neg hon]
      refine ⟨s₁, rfl, ?_⟩
      have hfinished : w ∈ s₁.sccs.flatten :=
        ((h.tables.listed w).1 (not_not.1 hw)).resolve_left fun hmem => hon ((h.tables.stacked w).2 hmem)
      exact ⟨h.tables, h.kept, h.found, ⟨above, hst, hfollowing.meet huw (Or.inr ⟨hfinished, rfl⟩)⟩, h.walks⟩

theorem followEdges_inLoop (ih : Returns pag V fuel) (hV : Closed pag V) (huV : u ∈ V) (hnew : u ∉ s.disc)
    (hcard : (unlisted V s).card ≤ fuel + 1) (edges : List NodeId) (hedges : ∀ w ∈ edges, LeadsTo pag u w)
    (h : InLoop pag path u s met s₁) :
    ∃ s₂, edges.foldlM (followEdge (findSCCsDFS pag fuel) u) s₁ = some s₂ ∧
      InLoop pag path u s (met ++ edges) s₂ := by
  induction edges generalizing met s₁ with
  | nil => exact ⟨s₁, rfl, by rw [List.append_nil]; exact h⟩
  | cons w edges ihedges =>
    obtain ⟨huw, hrest⟩ := List.forall_mem_cons.1 hedges
    obtain ⟨s₂, hs₂, h₂⟩ := followEdge_inLoop ih hV huV hnew hcard h huw
    obtain ⟨s₃, hs₃, h₃⟩ := ihedges hrest h₂
    refine ⟨s₃, ?_, by rw [← List.append_cons] at h₃; exact h₃⟩
    rw [List.foldlM_cons, hs₂]
    exact hs₃

/-! ## Leaving a vertex -/

/-- the loop pops u and what is above it -/
theorem popComponent_above {above : List NodeId} (hu : u ∉ above) (below scc : List NodeId)
    (onStack : UnorderedMap NodeId Bool) :
    ∃ onStack', popComponent u (above ++ u :: below) onStack scc = some (below, onStack', scc ++ (above ++ [u])) ∧
      ∀ v, getD onStack' v false = if v ∈ above ++ [u] then false else getD onStack v false := by
  induction above generalizing onStack scc with
  | nil =>
    refine ⟨onStack.insert u false, by simp [popComponent], ?_⟩
    intro v
    simp [getD_insert]
  | cons node above ih =>
    obtain ⟨hne, hu⟩ := not_or.1 (mt List.mem_cons.2 hu)
    obtain ⟨onStack', hpop, hget⟩ := ih hu (scc ++ [node]) (onStack.insert node false)
    refine ⟨onStack', ?_, ?_⟩
    · rw [List.cons_append, popComponent, if_neg (Ne.symm hne), hpop]
      simp
    · intro v
      rw [hget, getD_insert]
      by_cases hv : v = node <;> simp [hv]

/-- **A call of the search.** -/
theorem findSCCsDFS_returned (hV : Closed pag V) : ∀ fuel, Returns pag V fuel := by
  intro fuel
  induction fuel with
  | zero =>
    intro path u s huV _ _ hnew _ hcard
    have hmem : u ∈ unlisted V s := Finset.mem_filter.2 ⟨huV, hnew⟩
    exact absurd (Finset.card_pos.2 ⟨u, hmem⟩) (not_lt.2 hcard)
  | succ fuel ih =>
    intro path u s huV hs ht hnew hwalk hcard
    obtain ⟨s₁, hloop, h⟩ := followEdges_inLoop ih hV huV hnew hcard (getD pag u []) (fun _ hw => hw)
      (inLoop_enterVertex hs ht hnew hwalk)
    obtain ⟨above, hst, hfollowing⟩ := h.following
    have hall : ∀ y, LeadsTo pag u y → y ∈ [] ++ getD pag u [] := fun _ hy => hy
    have hlisted : ∀ v, v ∈ s₁.disc ↔ v ∈ above ++ u :: s.st ∨ v ∈ s₁.sccs.flatten := by
      rw [← hst]
      exact h.tables.listed
    have hcall : findSCCsDFS pag (fuel + 1) u s = ((getD pag u []).foldlM (followEdge (findSCCsDFS pag fuel) u)
        (enterVertex u s)).bind fun s₁ => if getD s₁.low u 0 = number s₁ u then
          (popComponent u s₁.st s₁.onStack []).bind fun popped =>
            some { s₁ with st := popped.1, onStack := popped.2.1, sccs := s₁.sccs ++ [popped.2.2.reverse] }
        else some s₁ := rfl
    rw [hcall, hloop, Option.bind_some]
    by_cases hlow : getD s₁.low u 0 = number s₁ u
    · have hclosed := hfollowing.close hall hlow
      have hnotAbove : u ∉ above := fun hmem => lt_irrefl _ (hfollowing.above_lt hmem)
      obtain ⟨onStack', hpop, hget⟩ := popComponent_above hnotAbove s.st [] s₁.onStack
      rw [if_pos hlow, hst, hpop, Option.bind_some]
      refine ⟨_, rfl, ⟨?_, ?_, ?_⟩, ?_, h.found, ⟨[], rfl, hclosed⟩, h.walks⟩
      · intro v
        simp only [hlisted, List.flatten_append, List.flatten_singleton, List.mem_append, List.mem_cons,
          List.mem_reverse, List.nil_append, List.not_mem_nil, or_false]
        tauto
      · intro v
        rw [hget]
        split_ifs with hv
        · exact ⟨fun h => absurd h (by decide), fun hmem => absurd hv (hfollowing.not_above hmem)⟩
        · rw [h.tables.stacked, hst]
          rw [List.mem_append, List.mem_singleton, not_or] at hv
          simp [hv.1, hv.2]
      · intro v hv
        exact h.tables.past v (by rw [hst]; simp [show v ∈ s.st from hv])
      · exact ⟨h.kept.disc, h.kept.low, h.kept.sccs.trans (List.prefix_append _ _), h.kept.time⟩
    · rw [if_neg hlow]
      have hleft := hfollowing.leave hall hlow
      exact ⟨s₁, rfl, h.tables, h.kept, h.found, ⟨above ++ [u], by rw [hst]; simp, hleft⟩, h.walks⟩

/-- between searches: the components found are those of the vertices listed, and nothing is on the stack -/
structure Settled (pag : PAG) (s : Search) : Prop where
  finished : Finished (LeadsTo pag) s.sccs
  listed : ∀ v, v ∈ s.disc ↔ v ∈ s.sccs.flatten
  st : s.st = []
  onStack : ∀ v, getD s.onStack v false = false

/-- tables that list nothing -/
def emptySearch : Search := ⟨∅, ∅, [], ∅, [], 0⟩

theorem settled_empty (pag : PAG) : Settled pag emptySearch :=
  ⟨finished_nil, fun v => ⟨fun hv => absurd hv (AList.notMem_empty v), fun hv => absurd hv List.not_mem_nil⟩, rfl,
    fun _ => rfl⟩

theorem Settled.tables (h : Settled pag s) : Tables s := by
  refine ⟨?_, ?_, ?_⟩
  · intro v
    rw [h.listed, h.st]
    simp
  · intro v
    rw [h.onStack, h.st]
    simp
  · rw [h.st]
    exact fun v hv => absurd hv List.not_mem_nil

/-- **Tarjan's search finds the components.** Let the components found so far be those of the listed vertices, and let u
not be listed. With fuel for every vertex the search from u returns; the components it adds are those of the vertices
that u reaches and that were not listed, each once and after the components it leads to. -/
theorem findSCCsDFS_components (hs : Settled pag s) (hnew : u ∉ s.disc) (hu : u ∈ V)
    (hV : ∀ x ∈ V, ∀ y ∈ getD pag x [], y ∈ V) (hfuel : V.card ≤ fuel) :
    ∃ s', findSCCsDFS pag fuel u s = some s' ∧ s.sccs <+: s'.sccs ∧ Settled pag s' ∧
      ∀ v, v ∈ s'.sccs.flatten ↔ v ∈ s.sccs.flatten ∨ ReflTransGen (LeadsTo pag) u v := by
  have hsearching : Searching (LeadsTo pag) (number s) [] s.st s.sccs := by
    rw [hs.st]
    exact searching_nil hs.finished _
  have hcard : (unlisted V s).card ≤ fuel := (Finset.card_filter_le _ _).trans hfuel
  obtain ⟨s', hs', hsearched⟩ := findSCCsDFS_returned hV fuel [] u s hu hsearching hs.tables hnew
    (fun x hx => absurd hx List.not_mem_nil) hcard
  obtain ⟨above, hst, hreturned⟩ := hsearched.returned
  have hempty : s'.st = [] := hst.trans hreturned.searching.st_eq_nil
  have hlisted : ∀ v, v ∈ s'.disc ↔ v ∈ s'.sccs.flatten := by
    intro v
    rw [hsearched.tables.listed, hempty]
    simp
  have hsettled : Settled pag s' := by
    refine ⟨hreturned.searching.finished, hlisted, hempty, ?_⟩
    intro v
    rw [Bool.eq_false_iff, ne_eq, hsearched.tables.stacked, hempty]
    exact List.not_mem_nil
  refine ⟨s', hs', hsearched.kept.sccs, hsettled, ?_⟩
  intro v
  refine ⟨?_, ?_⟩
  · intro hv
    rw [← hs.listed]
    exact hsearched.walks v ((hlisted v).2 hv)
  · intro hv
    rcases hv with hv | hv
    · exact hsearched.kept.mem_sccs hv
    · exact hsettled.finished.of_walk ((hlisted u).1 hsearched.found) hv

/-- nodes 1 and 2 wait for each other, and node 2 for node 3 -/
def mutualPag : PAG := generatePAG [⟨1, 2, 1, 2⟩, ⟨2, 3, 2, 3⟩, ⟨2, 1, 2, 1⟩]

theorem findSCCsDFS_components_mutualPag : ∃ s', findSCCsDFS mutualPag 3 1 emptySearch = some s' ∧
    s'.sccs = [[3], [1, 2]] ∧ Settled mutualPag s' := by
  have hclosed : ∀ x ∈ ({1, 2, 3} : Finset NodeId), ∀ y ∈ getD mutualPag x [], y ∈ ({1, 2, 3} : Finset NodeId) := by
    decide
  obtain ⟨s', hs', -, hsettled, -⟩ := findSCCsDFS_components (settled_empty mutualPag)
    (AList.notMem_empty (1 : NodeId)) (by decide) hclosed (show Finset.card _ ≤ 3 by decide)
  refine ⟨s', hs', ?_, hsettled⟩
  have hfound : (findSCCsDFS mutualPag 3 1 emptySearch).map Search.sccs = some [[3], [1, 2]] := by decide
  rw [hs'] at hfound
  exact Option.some.inj hfound

end PAGManager

end HawkTxn
