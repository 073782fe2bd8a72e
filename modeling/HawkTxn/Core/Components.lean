/-
Strongly connected components by one depth-first search with a stack.

The search keeps the vertices it has met in two parts: `sccs` are the components it has finished, `st` is the stack of
the others, top first, in the order `num` of their discovery. `path` are the vertices it is in. In a vertex u it follows
the edges of u one after the other and lowers the low link m of u: to the number of a vertex of the stack it meets, or
to the low link that the search of a new vertex brings back. When it is done with u, everything from u upwards is a
component if the low link is still the number of u, and stays on the stack otherwise.

- `Searching`: the invariant, with the facts that make it work: a vertex the search is in reaches all above it (`down`),
  and every vertex of the stack reaches one the search is in that is no higher (`up`);
- `Searching.enter`, `Following.meet`, `Following.child`, `Following.close`, `Following.leave`: the steps.
-/
import HawkTxn.Core.Digraph

namespace HawkTxn.Core

open Relation

variable {α : Type*} {r : α → α → Prop} {num num' : α → ℤ} {path st below above above' met : List α}
  {sccs sccs' : List (List α)} {u w : α} {m n : ℤ}

/-- components, each listed once, every one after those it leads to -/
structure Finished (r : α → α → Prop) (sccs : List (List α)) : Prop where
  component : ∀ c ∈ sccs, ∃ x ∈ c, ∀ y, y ∈ c ↔ SameComponent r x y
  nodup : sccs.flatten.Nodup
  closed : ∀ k, ∀ x ∈ (sccs.take k).flatten, ∀ y, r x y → y ∈ (sccs.take k).flatten

theorem finished_nil : Finished r [] := by
  refine ⟨fun c hc => absurd hc List.not_mem_nil, List.nodup_nil, ?_⟩
  intro k x hx
  simp at hx

theorem Finished.of_edge (h : Finished r sccs) {x y : α} (hx : x ∈ sccs.flatten) (hxy : r x y) : y ∈ sccs.flatten := by
  have hclosed := h.closed sccs.length x
  rw [List.take_length] at hclosed
  exact hclosed hx y hxy

/-- no walk leads out of finished components -/
theorem Finished.of_walk (h : Finished r sccs) {x y : α} (hx : x ∈ sccs.flatten) (hxy : ReflTransGen r x y) :
    y ∈ sccs.flatten := by
  induction hxy with
  | refl => exact hx
  | tail _ hyz ih => exact h.of_edge ih hyz

/-- one more component whose edges lead into it and into the others -/
theorem Finished.append (h : Finished r sccs) {c : List α} (hu : u ∈ c) (hc : ∀ y, y ∈ c ↔ SameComponent r u y)
    (hnodup : c.Nodup) (hapart : ∀ x ∈ c, x ∉ sccs.flatten)
    (hout : ∀ x ∈ c, ∀ y, r x y → y ∈ c ∨ y ∈ sccs.flatten) : Finished r (sccs ++ [c]) := by
  refine ⟨?_, ?_, ?_⟩
  · intro d hd
    rcases List.mem_append.1 hd with hd | hd
    · exact h.component d hd
    · rw [List.mem_singleton.1 hd]
      exact ⟨u, hu, hc⟩
  · rw [List.flatten_append, List.flatten_singleton, List.nodup_append]
    refine ⟨h.nodup, hnodup, ?_⟩
    rintro x hx y hy rfl
    exact hapart x hy hx
  · intro k x hx y hxy
    by_cases hk : k ≤ sccs.length
    · rw [List.take_append_of_le_length hk] at hx ⊢
      exact h.closed k x hx y hxy
    · have hlen : (sccs ++ [c]).length ≤ k := by simpa using not_le.1 hk
      rw [List.take_of_length_le hlen, List.flatten_append, List.flatten_singleton, List.mem_append] at hx ⊢
      rcases hx with hx | hx
      · exact Or.inl (h.of_edge hx hxy)
      · exact (hout x hx y hxy).symm

/-! ## The invariant -/

structure Searching (r : α → α → Prop) (num : α → ℤ) (path st : List α) (sccs : List (List α)) : Prop where
  finished : Finished r sccs
  decreasing : st.Pairwise fun x y => num y < num x
  pathDecreasing : path.Pairwise fun x y => num y < num x
  onStack : ∀ x ∈ path, x ∈ st
  apart : ∀ x ∈ st, x ∉ sccs.flatten
  down : ∀ x ∈ path, ∀ y ∈ st, num x ≤ num y → ReflTransGen r x y
  up : ∀ y ∈ st, ∃ x ∈ path, num x ≤ num y ∧ ReflTransGen r y x
  left : ∀ x ∈ st, x ∉ path → ∀ y, r x y → y ∈ st ∨ y ∈ sccs.flatten

/-- between searches the stack is empty -/
theorem Searching.st_eq_nil (h : Searching r num [] st sccs) : st = [] := by
  rw [List.eq_nil_iff_forall_not_mem]
  intro y hy
  obtain ⟨x, hx, -⟩ := h.up y hy
  exact List.not_mem_nil hx

theorem searching_nil (h : Finished r sccs) (num : α → ℤ) : Searching r num [] [] sccs := by
  refine ⟨h, List.Pairwise.nil, List.Pairwise.nil, ?_, ?_, ?_, ?_, ?_⟩ <;> intro x hx <;> cases hx

/-- only the numbers of the vertices on the stack matter -/
theorem Searching.congr (h : Searching r num path st sccs) (hnum : ∀ x ∈ st, num' x = num x) :
    Searching r num' path st sccs := by
  refine ⟨h.finished, ?_, ?_, h.onStack, h.apart, ?_, ?_, h.left⟩
  · refine h.decreasing.imp_of_mem ?_
    intro x y hx hy hlt
    rw [hnum x hx, hnum y hy]; exact hlt
  · refine h.pathDecreasing.imp_of_mem ?_
    intro x y hx hy hlt
    rw [hnum x (h.onStack x hx), hnum y (h.onStack y hy)]; exact hlt
  · intro x hx y hy hle
    rw [hnum x (h.onStack x hx), hnum y hy] at hle
    exact h.down x hx y hy hle
  · intro y hy
    obtain ⟨x, hx, hle, hwalk⟩ := h.up y hy
    refine ⟨x, hx, ?_, hwalk⟩
    rw [hnum x (h.onStack x hx), hnum y hy]; exact hle

/-- the search is in u and has followed its edges to `met`; `above` is on the stack above u, and m is the low link -/
structure Following (r : α → α → Prop) (num : α → ℤ) (path below : List α) (sccs : List (List α)) (u : α)
    (above : List α) (m : ℤ) (met : List α) : Prop where
  searching : Searching r num (u :: path) (above ++ u :: below) sccs
  le : m ≤ num u
  attained : ∃ y ∈ above ++ u :: below, num y = m ∧ ReflTransGen r u y
  bound : ∀ x ∈ above, ∀ y ∈ below, r x y → m ≤ num y
  known : ∀ y ∈ met, y ∈ above ++ u :: below ∨ y ∈ sccs.flatten
  knownBound : ∀ y ∈ met, y ∈ below → m ≤ num y

/-- the search has left u; `above` is what it put onto the stack, and n the low link it brings back -/
structure Returned (r : α → α → Prop) (num : α → ℤ) (path st : List α) (sccs : List (List α)) (u : α)
    (above : List α) (n : ℤ) : Prop where
  searching : Searching r num path (above ++ st) sccs
  new : ∀ y ∈ st, num y < num u
  known : u ∈ above ∨ u ∈ sccs.flatten
  low : (above = [] ∧ n = num u) ∨ ∃ y ∈ st, num y = n ∧ ReflTransGen r u y
  bound : ∀ x ∈ above, ∀ y ∈ st, r x y → n ≤ num y

/-! ## Entering a vertex and following its edges -/

theorem Searching.enter (h : Searching r num path st sccs) (hnew : ∀ x ∈ st, num x < num u)
    (hout : u ∉ sccs.flatten) (hwalk : ∀ x ∈ path, ReflTransGen r x u) :
    Following r num path st sccs u [] (num u) [] := by
  refine ⟨⟨h.finished, ?_, ?_, ?_, ?_, ?_, ?_, ?_⟩, le_rfl, ⟨u, List.mem_cons_self, rfl, .refl⟩, ?_, ?_, ?_⟩
  · exact List.pairwise_cons.2 ⟨hnew, h.decreasing⟩
  · exact List.pairwise_cons.2 ⟨fun x hx => hnew x (h.onStack x hx), h.pathDecreasing⟩
  · intro x hx
    exact List.mem_cons.2 ((List.mem_cons.1 hx).imp_right (h.onStack x))
  · intro x hx
    rcases List.mem_cons.1 hx with rfl | hx
    · exact hout
    · exact h.apart x hx
  · intro x hx y hy hle
    rcases List.mem_cons.1 hx with rfl | hxpath <;> rcases List.mem_cons.1 hy with rfl | hyst
    · exact .refl
    · exact absurd hle (not_le.2 (hnew y hyst))
    · exact hwalk x hxpath
    · exact h.down x hxpath y hyst hle
  · intro y hy
    rcases List.mem_cons.1 hy with rfl | hy
    · exact ⟨y, List.mem_cons_self, le_rfl, .refl⟩
    · obtain ⟨x, hx, hle, hyx⟩ := h.up y hy
      exact ⟨x, List.mem_cons_of_mem u hx, hle, hyx⟩
  · intro x hx hpath y hxy
    rcases List.mem_cons.1 hx with rfl | hx
    · exact absurd List.mem_cons_self hpath
    · exact (h.left x hx (fun hmem => hpath (List.mem_cons_of_mem u hmem)) y hxy).imp_left (List.mem_cons_of_mem u)
  · exact fun x hx => absurd hx List.not_mem_nil
  · exact fun y hy => absurd hy List.not_mem_nil
  · exact fun y hy => absurd hy List.not_mem_nil

/-- an edge to a vertex that has been met: its number counts if it is on the stack -/
theorem Following.meet (h : Following r num path below sccs u above m met) (huw : r u w)
    (hw : w ∈ above ++ u :: below ∧ n = min m (num w) ∨ w ∈ sccs.flatten ∧ n = m) :
    Following r num path below sccs u above n (met ++ [w]) := by
  have hnm : n ≤ m := by
    rcases hw with ⟨-, rfl⟩ | ⟨-, rfl⟩
    · exact min_le_left m (num w)
    · exact le_rfl
  refine ⟨h.searching, hnm.trans h.le, ?_, fun x hx y hy hxy => hnm.trans (h.bound x hx y hy hxy), ?_, ?_⟩
  · rcases hw with ⟨hmem, rfl⟩ | ⟨-, rfl⟩
    · rcases le_total m (num w) with hle | hle
      · rw [min_eq_left hle]; exact h.attained
      · exact ⟨w, hmem, (min_eq_right hle).symm, .single huw⟩
    · exact h.attained
  · intro y hy
    rcases List.mem_append.1 hy with hy | hy
    · exact h.known y hy
    · rw [List.mem_singleton.1 hy]
      exact hw.imp And.left And.left
  · intro y hy hbelow
    rcases List.mem_append.1 hy with hy | hy
    · exact hnm.trans (h.knownBound y hy hbelow)
    · rw [List.mem_singleton] at hy
      subst hy
      rcases hw with ⟨-, rfl⟩ | ⟨hfin, -⟩
      · exact min_le_right m (num y)
      · exact absurd hfin (h.searching.apart y (by simp [hbelow]))

/-- an edge to a new vertex, whose search has returned -/
theorem Following.child (h : Following r num path below sccs u above m met) (huw : r u w)
    (hnum : ∀ x ∈ above ++ u :: below, num' x = num x) (hsccs : ∀ x ∈ sccs.flatten, x ∈ sccs'.flatten)
    (hret : Returned r num' (u :: path) (above ++ u :: below) sccs' w above' n) :
    Following r num' path below sccs' u (above' ++ above) (min m n) (met ++ [w]) := by
  have hu : u ∈ above ++ u :: below := by simp
  have hbelow : ∀ {y}, y ∈ below → y ∈ above ++ u :: below := fun hy => by simp [hy]
  refine ⟨?_, ?_, ?_, ?_, ?_, ?_⟩
  · rw [List.append_assoc]; exact hret.searching
  · rw [hnum u hu]; exact (min_le_left m n).trans h.le
  · rw [List.append_assoc]
    obtain ⟨y, hy, hm, hwalk⟩ := h.attained
    have hold : ∃ y ∈ above' ++ (above ++ u :: below), num' y = m ∧ ReflTransGen r u y :=
      ⟨y, List.mem_append_right _ hy, (hnum y hy).trans hm, hwalk⟩
    rcases hret.low with ⟨-, hlow⟩ | ⟨y', hy', hlow, hwalk'⟩
    · -- w is finished; its number is higher than that of u
      have hle : m ≤ n := by
        have hlt : num' u < num' w := hret.new u hu
        rw [hlow]
        exact (h.le.trans_eq (hnum u hu).symm).trans hlt.le
      rw [min_eq_left hle]; exact hold
    · rcases le_total m n with hle | hle
      · rw [min_eq_left hle]; exact hold
      · rw [min_eq_right hle]
        exact ⟨y', List.mem_append_right _ hy', hlow, .head huw hwalk'⟩
  · intro x hx y hy hxy
    rcases List.mem_append.1 hx with hx | hx
    · exact (min_le_right m n).trans (hret.bound x hx y (hbelow hy) hxy)
    · rw [hnum y (hbelow hy)]
      exact (min_le_left m n).trans (h.bound x hx y hy hxy)
  · intro y hy
    rw [List.append_assoc]
    rcases List.mem_append.1 hy with hy | hy
    · exact (h.known y hy).imp (List.mem_append_right _) (hsccs y)
    · rw [List.mem_singleton.1 hy]
      exact hret.known.imp_left (List.mem_append_left _)
  · intro y hy hmem
    rw [hnum y (hbelow hmem)]
    rcases List.mem_append.1 hy with hy | hy
    · exact (min_le_left m n).trans (h.knownBound y hy hmem)
    · -- a new vertex is not on the old stack
      rw [List.mem_singleton] at hy
      subst hy
      exact absurd (hret.new y (hbelow hmem)) (lt_irrefl _)

/-! ## Leaving a vertex -/

section Leaving

variable (h : Following r num path below sccs u above m met)

include h

theorem Following.above_lt {x : α} (hx : x ∈ above) : num u < num x :=
  (List.pairwise_append.1 h.searching.decreasing).2.2 x hx u List.mem_cons_self

theorem Following.below_lt {y : α} (hy : y ∈ below) : num y < num u :=
  (List.pairwise_cons.1 (List.pairwise_append.1 h.searching.decreasing).2.1).1 y hy

theorem Following.path_lt {x : α} (hx : x ∈ path) : num x < num u :=
  (List.pairwise_cons.1 h.searching.pathDecreasing).1 x hx

/-- what is numbered below u is on the stack below u -/
theorem Following.mem_below {x : α} (hx : x ∈ above ++ u :: below) (hlt : num x < num u) : x ∈ below := by
  rcases List.mem_append.1 hx with hx | hx
  · exact absurd hlt (h.above_lt hx).not_gt
  · rcases List.mem_cons.1 hx with rfl | hx
    · exact absurd hlt (lt_irrefl _)
    · exact hx

theorem Following.not_above {x : α} (hx : x ∈ below) : x ∉ above ++ [u] := by
  intro hmem
  rcases List.mem_append.1 hmem with hmem | hmem
  · exact (h.below_lt hx).not_gt (h.above_lt hmem)
  · rw [List.mem_singleton.1 hmem] at hx
    exact lt_irrefl _ (h.below_lt hx)

/-- the edges of a vertex that has been left, or of u, when all edges of u have been followed -/
theorem Following.edge_met (hall : ∀ y, r u y → y ∈ met) {x y : α} (hx : x ∈ above ++ u :: below) (hpath : x ∉ path)
    (hxy : r x y) : y ∈ above ++ u :: below ∨ y ∈ sccs.flatten := by
  by_cases hxu : x = u
  · subst hxu
    exact h.known y (hall y hxy)
  · exact h.searching.left x hx (fun hmem => (List.mem_cons.1 hmem).elim hxu hpath) y hxy

/-- the low link bounds the edges from u and above u to vertices below u -/
theorem Following.low_le (hall : ∀ y, r u y → y ∈ met) {x y : α} (hx : x ∈ above ++ [u]) (hy : y ∈ below)
    (hxy : r x y) : m ≤ num y := by
  rcases List.mem_append.1 hx with hx | hx
  · exact h.bound x hx y hy hxy
  · rw [List.mem_singleton] at hx
    subst hx
    exact h.knownBound y (hall y hxy) hy

/-- u and what is above it reach each other when the low link is the number of u -/
theorem Following.sameComponent {x : α} (hx : x ∈ above ++ [u]) : SameComponent r u x := by
  have hmem : x ∈ above ++ u :: below := by
    rcases List.mem_append.1 hx with hx | hx
    · exact List.mem_append_left _ hx
    · rw [List.mem_singleton.1 hx]; simp
  have hle : num u ≤ num x := by
    rcases List.mem_append.1 hx with hx | hx
    · exact (h.above_lt hx).le
    · rw [List.mem_singleton.1 hx]
  refine ⟨h.searching.down u List.mem_cons_self x hmem hle, ?_⟩
  obtain ⟨g, hg, -, hwalk⟩ := h.searching.up x hmem
  rcases List.mem_cons.1 hg with rfl | hg
  · exact hwalk
  · exact hwalk.trans (h.searching.down g (List.mem_cons_of_mem u hg) u (by simp) (h.path_lt hg).le)

/-- the low link is still the number of u: u and what is above it are a component -/
theorem Following.close (hall : ∀ y, r u y → y ∈ met) (hm : m = num u) :
    Returned r num path below (sccs ++ [(above ++ [u]).reverse]) u [] m := by
  have hs := h.searching
  have hpart : ∀ {x}, x ∈ above ++ u :: below ↔ x ∈ above ++ [u] ∨ x ∈ below := by simp [or_assoc]
  -- no edge leads from them to the stack below u
  have hout : ∀ x ∈ above ++ [u], ∀ y, r x y → y ∈ above ++ [u] ∨ y ∈ sccs.flatten := by
    intro x hx y hxy
    have hpath : x ∉ path := by
      intro hmem
      rcases List.mem_append.1 hx with hx | hx
      · exact (h.path_lt hmem).not_gt (h.above_lt hx)
      · rw [List.mem_singleton.1 hx] at hmem
        exact lt_irrefl _ (h.path_lt hmem)
    rcases h.edge_met hall (hpart.2 (Or.inl hx)) hpath hxy with hy | hy
    · rcases hpart.1 hy with hy | hy
      · exact Or.inl hy
      · exact absurd (h.below_lt hy) (not_lt.2 (hm ▸ h.low_le hall hx hy hxy))
    · exact Or.inr hy
  have hwalk : ∀ y, ReflTransGen r u y → y ∈ above ++ [u] ∨ y ∈ sccs.flatten := by
    intro y hreach
    induction hreach with
    | refl => simp
    | tail _ hxy ih =>
      rcases ih with hx | hx
      · exact hout _ hx _ hxy
      · exact Or.inr (hs.finished.of_edge hx hxy)
  have hcomponent : ∀ y, y ∈ above ++ [u] ↔ SameComponent r u y := by
    refine fun y => ⟨h.sameComponent, ?_⟩
    intro hsame
    rcases hwalk y hsame.1 with hy | hy
    · exact hy
    · exact absurd (hs.finished.of_walk hy hsame.2) (hs.apart u (by simp))
  have hnodup : (above ++ u :: below).Nodup := hs.decreasing.imp fun hlt heq => absurd (heq ▸ hlt) (lt_irrefl _)
  have hpath : ∀ x ∈ path, x ∈ below :=
    fun x hx => h.mem_below (hs.onStack x (List.mem_cons_of_mem u hx)) (h.path_lt hx)
  have hflat : ∀ x, x ∈ (sccs ++ [(above ++ [u]).reverse]).flatten ↔ x ∈ sccs.flatten ∨ x ∈ above ++ [u] := by
    intro x
    rw [List.flatten_append, List.flatten_singleton, List.mem_append, List.mem_reverse]
  refine ⟨⟨?_, ?_, ?_, hpath, ?_, ?_, ?_, ?_⟩, fun y => h.below_lt, ?_, Or.inl ⟨rfl, hm⟩, ?_⟩
  · refine hs.finished.append (u := u) (by simp) ?_ ?_ ?_ ?_
    · simpa only [List.mem_reverse] using hcomponent
    · rw [List.nodup_reverse]
      have hstack : above ++ u :: below = (above ++ [u]) ++ below := by simp
      rw [hstack] at hnodup
      exact hnodup.sublist (List.sublist_append_left _ _)
    · intro x hx
      exact hs.apart x (hpart.2 (Or.inl (List.mem_reverse.1 hx)))
    · simpa only [List.mem_reverse] using hout
  · exact (List.pairwise_cons.1 (List.pairwise_append.1 hs.decreasing).2.1).2
  · exact (List.pairwise_cons.1 hs.pathDecreasing).2
  · intro x hx hmem
    rcases (hflat x).1 hmem with hmem | hmem
    · exact hs.apart x (hpart.2 (Or.inr hx)) hmem
    · exact h.not_above hx hmem
  · intro x hx y hy
    exact hs.down x (List.mem_cons_of_mem u hx) y (hpart.2 (Or.inr hy))
  · intro y hy
    obtain ⟨g, hg, hle, hwalk⟩ := hs.up y (hpart.2 (Or.inr hy))
    rcases List.mem_cons.1 hg with rfl | hg
    · exact absurd hle (not_le.2 (h.below_lt hy))
    · exact ⟨g, hg, hle, hwalk⟩
  · intro x hx hnot y hxy
    rw [hflat]
    rcases h.edge_met hall (hpart.2 (Or.inr hx)) hnot hxy with hy | hy
    · rcases hpart.1 hy with hy | hy
      · exact Or.inr (Or.inr hy)
      · exact Or.inl hy
    · exact Or.inr (Or.inl hy)
  · exact Or.inr ((hflat u).2 (Or.inr (by simp)))
  · exact fun x hx => absurd hx List.not_mem_nil

/-- the low link is lower: u stays on the stack -/
theorem Following.leave (hall : ∀ y, r u y → y ∈ met) (hm : m ≠ num u) :
    Returned r num path below sccs u (above ++ [u]) m := by
  have hs := h.searching
  have hstack : (above ++ [u]) ++ below = above ++ u :: below := by simp
  -- the vertex the low link is the number of is below u, and so is the vertex of the path it reaches
  obtain ⟨z, hz, hzm, hwalkz⟩ := h.attained
  have hlt : num z < num u := by rw [hzm]; exact lt_of_le_of_ne h.le hm
  obtain ⟨g, hg, hgz, hwalkg⟩ := hs.up z hz
  have hgpath : g ∈ path := by
    rcases List.mem_cons.1 hg with rfl | hg
    · exact absurd hgz (not_le.2 hlt)
    · exact hg
  refine ⟨⟨hs.finished, ?_, ?_, ?_, ?_, ?_, ?_, ?_⟩, fun y => h.below_lt, Or.inl (by simp),
    Or.inr ⟨z, h.mem_below hz hlt, hzm, hwalkz⟩, fun x hx y hy hxy => h.low_le hall hx hy hxy⟩
  · rw [hstack]; exact hs.decreasing
  · exact (List.pairwise_cons.1 hs.pathDecreasing).2
  · rw [hstack]
    exact fun x hx => hs.onStack x (List.mem_cons_of_mem u hx)
  · rw [hstack]; exact hs.apart
  · rw [hstack]
    exact fun x hx => hs.down x (List.mem_cons_of_mem u hx)
  · rw [hstack]
    intro y hy
    obtain ⟨x, hx, hle, hwalk⟩ := hs.up y hy
    rcases List.mem_cons.1 hx with rfl | hx
    · exact ⟨g, hgpath, (hgz.trans hlt.le).trans hle, hwalk.trans (hwalkz.trans hwalkg)⟩
    · exact ⟨x, hx, hle, hwalk⟩
  · rw [hstack]
    exact fun x hx hnot y hxy => h.edge_met hall hx hnot hxy

end Leaving

end HawkTxn.Core
