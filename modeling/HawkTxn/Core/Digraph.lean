/-
Directed graphs as relations: cycles and strongly connected components.

A graph is an edge relation `r : α → α → Prop`. `IsCycle r c` is a simple directed cycle written as a list;
`SameComponent r x y` says that x and y lie in one strongly connected component; `Acyclic r` that no vertex reaches
itself by a nonempty walk.

- `IsCycle.transGen`: any two members of a cycle reach each other by a nonempty walk;
- `IsCycle.mono`, `SameComponent.mono`: along inclusion of edges;
- `Trail.isCycle`: a trail of parent pointers closed by an edge is a simple cycle;
- `exists_isCycle`: where a nonempty walk comes back there is a cycle;
- `IsCycle.of_edges`: a cycle is one of any graph that has its edges;
- `IsCycle.isRotated`: cycles that meet where no edge leads off are one cycle;
- `transGen_of_apart`: a walk of a union of graphs that do not feed into each other stays in one of them;
- `acyclic_of_no_path`: a graph in which no edge follows another is acyclic;
- `transGen_of_unique_succ`: a closed walk in a component that is a single cycle visits the whole component;
- `acyclic_of_shrinking`: graphs that lose a vertex on a closed walk one after the other end up acyclic.
-/
import Mathlib.Data.List.Chain
import Mathlib.Data.List.Cycle
import Mathlib.Logic.Relation
import Mathlib.Tactic

namespace HawkTxn.Core

open Relation

variable {α : Type*} {r s : α → α → Prop}

/-- no vertex reaches itself by a nonempty walk -/
def Acyclic (r : α → α → Prop) : Prop := ∀ x, ¬ TransGen r x x

/-- x and y reach each other -/
def SameComponent (r : α → α → Prop) (x y : α) : Prop := ReflTransGen r x y ∧ ReflTransGen r y x

/-- a simple directed cycle: distinct members, an edge between neighbours and from the last back to the first -/
structure IsCycle (r : α → α → Prop) (c : List α) : Prop where
  nodup : c.Nodup
  ne_nil : c ≠ []
  chain : c.IsChain r
  closes : r (c.getLast ne_nil) (c.head ne_nil)

theorem SameComponent.refl (x : α) : SameComponent r x x := ⟨.refl, .refl⟩

theorem SameComponent.trans {x y z : α} (h : SameComponent r x y) (k : SameComponent r y z) : SameComponent r x z :=
  ⟨h.1.trans k.1, k.2.trans h.2⟩

instance : Trans (SameComponent r) (SameComponent r) (SameComponent r) := ⟨SameComponent.trans⟩

theorem SameComponent.mono (hrs : ∀ x y, r x y → s x y) {x y : α} (h : SameComponent r x y) : SameComponent s x y :=
  ⟨ReflTransGen.mono hrs _ _ h.1, ReflTransGen.mono hrs _ _ h.2⟩

/-- a vertex on a nonempty closed walk has a successor in its component -/
theorem exists_edge_sameComponent {x : α} (h : TransGen r x x) : ∃ y, r x y ∧ SameComponent r x y := by
  obtain ⟨y, hxy, hyx⟩ := (TransGen.head'_iff).1 h
  exact ⟨y, hxy, .single hxy, hyx⟩

/-- the component of a vertex on a closed walk consists of vertices on closed walks -/
theorem SameComponent.transGen {x y : α} (h : SameComponent r x y) (hx : TransGen r x x) : TransGen r y y :=
  (hx.trans_right h.2).trans_left h.1

theorem IsChain.reflTransGen_head {c : List α} (h : c.IsChain r) (hne : c ≠ []) :
    ∀ y ∈ c, ReflTransGen r (c.head hne) y :=
  h.induction (fun y => ReflTransGen r (c.head hne) y) c (fun _ _ hxy hx => hx.tail hxy) (fun _ => .refl)

theorem IsChain.reflTransGen_getLast {c : List α} (h : c.IsChain r) (hne : c ≠ []) :
    ∀ x ∈ c, ReflTransGen r x (c.getLast hne) :=
  h.backwards_induction (fun x => ReflTransGen r x (c.getLast hne)) c (fun _ _ hxy hy => hy.head hxy) (fun _ => .refl)

namespace IsCycle

variable {c : List α}

/-- any two members of a cycle, equal or not, are joined by a nonempty walk -/
theorem transGen (h : IsCycle r c) {x y : α} (hx : x ∈ c) (hy : y ∈ c) : TransGen r x y := by
  have hlast : ReflTransGen r x (c.getLast h.ne_nil) := IsChain.reflTransGen_getLast h.chain h.ne_nil x hx
  have hhead : ReflTransGen r (c.head h.ne_nil) y := IsChain.reflTransGen_head h.chain h.ne_nil y hy
  exact TransGen.trans_right hlast (TransGen.head' h.closes hhead)

theorem sameComponent (h : IsCycle r c) {x y : α} (hx : x ∈ c) (hy : y ∈ c) : SameComponent r x y :=
  ⟨(h.transGen hx hy).to_reflTransGen, (h.transGen hy hx).to_reflTransGen⟩

theorem mono (hrs : ∀ x y, r x y → s x y) (h : IsCycle r c) : IsCycle s c :=
  ⟨h.nodup, h.ne_nil, h.chain.imp hrs, hrs _ _ h.closes⟩

/-- a cycle all of whose members satisfy p is a cycle of the graph restricted to p -/
theorem restrict {p : α → Prop} (h : IsCycle r c) (hp : ∀ x ∈ c, p x) :
    IsCycle (fun x y => r x y ∧ p x ∧ p y) c where
  nodup := h.nodup
  ne_nil := h.ne_nil
  chain := h.chain.imp_of_mem_imp fun x y hx hy hxy => ⟨hxy, hp x hx, hp y hy⟩
  closes := ⟨h.closes, hp _ (List.getLast_mem h.ne_nil), hp _ (List.head_mem h.ne_nil)⟩

theorem exists_mem (h : IsCycle r c) : ∃ x, x ∈ c := List.exists_mem_of_ne_nil c h.ne_nil

theorem not_acyclic (h : IsCycle r c) : ¬ Acyclic r := by
  obtain ⟨x, hx⟩ := h.exists_mem
  exact fun ha => ha x (h.transGen hx hx)

/-- every member of a cycle has an outgoing edge to a member -/
theorem exists_succ (h : IsCycle r c) {x : α} (hx : x ∈ c) : ∃ y ∈ c, r x y := by
  obtain ⟨pre, suf, rfl⟩ := List.append_of_mem hx
  cases suf with
  | nil => exact ⟨_, List.head_mem h.ne_nil, by simpa using h.closes⟩
  | cons y suf => exact ⟨y, by simp, (List.isChain_append_cons_cons.1 h.chain).2.1⟩

end IsCycle

/-- the vertices met on the way from x to v along the pointers `f`, v excluded -/
inductive Trail (f : α → α) (v : α) : α → List α → Prop where
  | arrived : Trail f v v []
  | follow {x : α} {l : List α} : x ≠ v → Trail f v (f x) l → Trail f v x (x :: l)

namespace Trail

variable {f : α → α} {u v x : α} {l l' : List α}

theorem det (h : Trail f v x l) (h' : Trail f v x l') : l = l' := by
  induction h generalizing l' with
  | arrived =>
    cases h' with
    | arrived => rfl
    | follow hne _ => exact absurd rfl hne
  | follow hne _ ih =>
    cases h' with
    | arrived => exact absurd rfl hne
    | follow _ hrest => rw [ih hrest]

/-- the trail from a vertex it meets is the rest of it -/
theorem suffix (h : Trail f v u l) (hx : x ∈ l) : ∃ rest, x :: rest <:+ l ∧ Trail f v x (x :: rest) := by
  induction h with
  | arrived => simp at hx
  | @follow y rest hne hrest ih =>
    rcases List.mem_cons.1 hx with rfl | hx
    · exact ⟨rest, List.suffix_rfl, .follow hne hrest⟩
    · obtain ⟨rest', hsuf, htrail⟩ := ih hx
      exact ⟨rest', hsuf.trans (List.suffix_cons y rest), htrail⟩

theorem notMem_target (h : Trail f v u l) : v ∉ l := by
  intro hv
  obtain ⟨rest, -, htrail⟩ := h.suffix hv
  exact absurd (htrail.det .arrived) (List.cons_ne_nil _ _)

/-- a trail that arrives meets no vertex twice: from the second visit on it would repeat itself -/
theorem nodup (h : Trail f v u l) : l.Nodup := by
  induction h with
  | arrived => exact List.nodup_nil
  | @follow x rest hne hrest ih =>
    refine List.nodup_cons.2 ⟨?_, ih⟩
    intro hx
    obtain ⟨rest', hsuf, htrail⟩ := hrest.suffix hx
    have hlen := hsuf.length_le
    rw [htrail.det (.follow hne hrest), List.length_cons] at hlen
    omega

/-- a vertex that points to itself leads nowhere else -/
theorem ne_of_fixed {z : α} (h : Trail f v u l) (hz : f z = z) (hzv : z ≠ v) : u ≠ z := by
  induction h with
  | arrived => exact hzv.symm
  | follow _ _ ih => rintro rfl; exact ih hz

/-- a trail does not leave a set that the pointers stay in -/
theorem target_mem {S : Set α} (h : Trail f v u l) (hS : ∀ x ∈ S, f x ∈ S) (hu : u ∈ S) : v ∈ S := by
  induction h with
  | arrived => exact hu
  | follow _ _ ih => exact ih (hS _ hu)

theorem getLast_reverse (h : Trail f v u l) : (v :: l.reverse).getLast (List.cons_ne_nil _ _) = u := by
  cases h with
  | arrived => rfl
  | follow _ _ => simp

/-- read backwards, a trail is a walk from v if every pointer goes against an edge -/
theorem isChain (h : Trail f v u l) (hr : ∀ x ∈ l, r (f x) x) : (v :: l.reverse).IsChain r := by
  induction h with
  | arrived => exact List.isChain_singleton v
  | @follow x rest hne hrest ih =>
    rw [List.reverse_cons, ← List.cons_append, List.isChain_append]
    refine ⟨ih fun y hy => hr y (List.mem_cons_of_mem x hy), List.isChain_singleton x, ?_⟩
    intro y hy z hz
    rw [List.getLast?_eq_getLast_of_ne_nil (List.cons_ne_nil _ _), hrest.getLast_reverse] at hy
    cases hy
    cases hz
    exact hr x List.mem_cons_self

/-- **Back edges close cycles.** A trail from u back to v together with an edge from u to v is a simple cycle. -/
theorem isCycle (h : Trail f v u l) (hr : ∀ x ∈ l, r (f x) x) (huv : r u v) : IsCycle r (v :: l.reverse) where
  nodup := List.nodup_cons.2 ⟨by simpa using h.notMem_target, List.nodup_reverse.2 h.nodup⟩
  ne_nil := List.cons_ne_nil _ _
  chain := h.isChain hr
  closes := by rw [h.getLast_reverse]; exact huv

end Trail

/-! ## Rotations -/

/-- a simple cycle is a nonempty closed walk without repetition -/
theorem isCycle_iff {c : List α} : IsCycle r c ↔ c ≠ [] ∧ c.Nodup ∧ Cycle.Chain r (c : Cycle α) := by
  cases c with
  | nil => exact ⟨fun h => absurd rfl h.ne_nil, fun h => absurd rfl h.1⟩
  | cons x l =>
    have hclosed : (x :: (l ++ [x])).IsChain r ↔
        (x :: l).IsChain r ∧ r ((x :: l).getLast (List.cons_ne_nil x l)) x := by
      rw [← List.cons_append, List.isChain_append, List.getLast?_eq_getLast_of_ne_nil (List.cons_ne_nil x l)]
      simp
    rw [Cycle.chain_coe_cons, hclosed]
    exact ⟨fun h => ⟨h.ne_nil, h.nodup, h.chain, h.closes⟩, fun h => ⟨h.2.1, h.1, h.2.2.1, h.2.2.2⟩⟩

theorem IsCycle.of_isRotated {c c' : List α} (h : IsCycle r c) (hrot : c ~r c') : IsCycle r c' := by
  obtain ⟨hne, hnd, hchain⟩ := isCycle_iff.1 h
  refine isCycle_iff.2 ⟨fun hnil => hne ?_, hrot.nodup_iff.1 hnd, ?_⟩
  · rw [hnil] at hrot
    exact List.isRotated_nil_iff.1 hrot
  · rw [← Cycle.coe_eq_coe.2 hrot]
    exact hchain

/-- a cycle written from one of its members on, with the member again at the end -/
theorem IsCycle.rotate_to {c : List α} (h : IsCycle r c) {x : α} (hx : x ∈ c) :
    ∃ l, c ~r (x :: l) ∧ x ∉ l ∧ (x :: (l ++ [x])).IsChain r := by
  obtain ⟨pre, suf, rfl⟩ := List.append_of_mem hx
  have hrot : (pre ++ x :: suf) ~r (x :: (suf ++ pre)) := List.isRotated_append
  obtain ⟨-, hnd, hchain⟩ := isCycle_iff.1 (h.of_isRotated hrot)
  exact ⟨suf ++ pre, hrot, (List.nodup_cons.1 hnd).1, (Cycle.chain_coe_cons r x _).1 hchain⟩

/-- the edges of a cycle -/
def cycleEdges (c : List α) : List (α × α) := c.zip (c.rotate 1)

/-- a cycle is one of any graph that has its edges -/
theorem IsCycle.of_edges {c : List α} (h : IsCycle r c) (hs : ∀ e ∈ cycleEdges c, r e.1 e.2 → s e.1 e.2) :
    IsCycle s c := by
  have hlen : 0 < c.length := List.length_pos_iff.2 h.ne_nil
  have hedge : ∀ i (hi : i < c.length),
      (c.get ⟨i, hi⟩, c.get ⟨(i + 1) % c.length, Nat.mod_lt _ hlen⟩) ∈ cycleEdges c := by
    intro i hi
    have hzip : i < (cycleEdges c).length := by simpa [cycleEdges] using hi
    have hmem := List.getElem_mem hzip
    simpa [cycleEdges, List.getElem_rotate] using hmem
  refine ⟨h.nodup, h.ne_nil, List.isChain_iff_getElem.2 fun i hi => ?_, ?_⟩
  · have hmem := hedge i (by omega)
    simp only [Nat.mod_eq_of_lt hi] at hmem
    exact hs _ hmem (List.isChain_iff_getElem.1 h.chain i hi)
  · have hmem := hedge (c.length - 1) (by omega)
    have hcloses := h.closes
    rw [List.getLast_eq_getElem, List.head_eq_getElem] at hcloses ⊢
    have hround : (c.length - 1 + 1) % c.length = 0 := by
      rw [Nat.sub_add_cancel hlen, Nat.mod_self]
    simp only [hround] at hmem
    exact hs _ hmem hcloses

/-- a walk that leaves each vertex before y by its only edge is the walk there -/
theorem IsChain.eq_of_unique_succ {x y : α} {l l' : List α} (h : (x :: (l ++ [y])).IsChain r)
    (h' : (x :: (l' ++ [y])).IsChain r) (hy : y ∉ l) (hy' : y ∉ l')
    (huniq : ∀ u ∈ x :: l, ∀ v w, r u v → r u w → v = w) : l = l' := by
  induction l generalizing x l' with
  | nil =>
    cases l' with
    | nil => rfl
    | cons b l' =>
      have hxy : r x y := (List.isChain_cons_cons.1 h).1
      have hxb : r x b := (List.isChain_cons_cons.1 h').1
      have hb : y = b := huniq x List.mem_cons_self y b hxy hxb
      exact absurd (hb ▸ List.mem_cons_self) hy'
  | cons a l ih =>
    have hxa : r x a := (List.isChain_cons_cons.1 h).1
    cases l' with
    | nil =>
      have hxy : r x y := (List.isChain_cons_cons.1 h').1
      have ha : a = y := huniq x List.mem_cons_self a y hxa hxy
      exact absurd (ha ▸ List.mem_cons_self) hy
    | cons b l' =>
      have hxb : r x b := (List.isChain_cons_cons.1 h').1
      obtain rfl : a = b := huniq x List.mem_cons_self a b hxa hxb
      have hrest : l = l' := ih (List.isChain_cons_cons.1 h).2 (List.isChain_cons_cons.1 h').2
        (fun hmem => hy (List.mem_cons_of_mem a hmem)) (fun hmem => hy' (List.mem_cons_of_mem a hmem))
        fun u hu => huniq u (List.mem_cons_of_mem x hu)
      rw [hrest]

/-- **Lone cycles.** If no edge leads off a cycle, a cycle that meets it is a rotation of it. -/
theorem IsCycle.isRotated {c c' : List α} (h : IsCycle r c) (h' : IsCycle r c')
    (huniq : ∀ u ∈ c, ∀ v w, r u v → r u w → v = w) {x : α} (hx : x ∈ c) (hx' : x ∈ c') : c' ~r c := by
  obtain ⟨l, hrot, hxl, hchain⟩ := h.rotate_to hx
  obtain ⟨l', hrot', hxl', hchain'⟩ := h'.rotate_to hx'
  have heq : l = l' := IsChain.eq_of_unique_succ hchain hchain' hxl hxl'
    fun u hu => huniq u (hrot.mem_iff.2 hu)
  rw [← heq] at hrot'
  exact hrot'.trans hrot.symm

/-! ## Unions -/

/-- a walk of the union of graphs that no vertex leads from one into another is a walk of one of them -/
theorem transGen_of_apart {ι : Type*} {r : ι → α → α → Prop} (h : ∀ i j x y z, r i x y → r j y z → i = j) {x y : α}
    (hxy : TransGen (fun x y => ∃ i, r i x y) x y) : ∃ i, TransGen (r i) x y := by
  induction hxy with
  | single hxy =>
    obtain ⟨i, hi⟩ := hxy
    exact ⟨i, .single hi⟩
  | tail _ hyz ih =>
    obtain ⟨i, hi⟩ := ih
    obtain ⟨j, hj⟩ := hyz
    obtain ⟨w, -, hwy⟩ := TransGen.tail'_iff.1 hi
    have hij : i = j := h i j _ _ _ hwy hj
    subst hij
    exact ⟨i, hi.tail hj⟩

/-- a graph in which no edge follows another is acyclic -/
theorem acyclic_of_no_path (h : ∀ x y z, r x y → ¬ r y z) : Acyclic r := by
  intro x hx
  obtain ⟨y, hxy, -⟩ := TransGen.head'_iff.1 hx
  obtain ⟨z, -, hzx⟩ := TransGen.tail'_iff.1 hx
  exact h z x y hzx hxy

/-! ## Taking vertices out -/

/-- if every vertex of x's component has one successor in it only, a closed walk from x in a part of the graph visits
the whole component -/
theorem transGen_of_unique_succ {x y : α} (hsub : ∀ u v, s u v → r u v)
    (huniq : ∀ u v w, SameComponent r x u → SameComponent r x v → SameComponent r x w → r u v → r u w → v = w)
    (hx : TransGen s x x) (hxy : SameComponent r x y) : TransGen s y y := by
  obtain ⟨hreach, hback⟩ := hxy
  induction hreach with
  | refl => exact hx
  | @tail u v hxu huv ih =>
    have hu : SameComponent r x u := ⟨hxu, .head huv hback⟩
    have hv : SameComponent r x v := ⟨hxu.tail huv, hback⟩
    obtain ⟨w, huw, hwu⟩ := TransGen.head'_iff.1 (ih hu.2)
    have hw : SameComponent r x w :=
      ⟨hxu.tail (hsub u w huw), (ReflTransGen.mono hsub _ _ hwu).trans hu.2⟩
    -- the walk leaves u through its only successor
    obtain rfl : v = w := huniq u v w hu hv hw huv (hsub u w huw)
    exact TransGen.tail' hwu huw

/-- **Shrinking graphs.** If each of k graphs with a closed walk loses a vertex that is on one, and S holds the vertices
of the first one that are on closed walks, then after |S| graphs none is left. -/
theorem acyclic_of_shrinking {r : ℕ → α → α → Prop} {k : ℕ} {S : Finset α} (hS : ∀ x, TransGen (r 0) x x → x ∈ S)
    (hcard : S.card ≤ k) (hsub : ∀ i < k, ∀ u v, r (i + 1) u v → r i u v)
    (hhit : ∀ i < k, ∀ x, TransGen (r i) x x → ∃ v, TransGen (r i) v v ∧ ¬ TransGen (r (i + 1)) v v) :
    Acyclic (r k) := by
  classical
  induction k generalizing r S with
  | zero =>
    obtain rfl := Finset.card_eq_zero.1 (Nat.le_zero.1 hcard)
    exact fun x hx => absurd (hS x hx) (Finset.notMem_empty x)
  | succ k ih =>
    have hfirst : ∀ x, TransGen (r 1) x x → TransGen (r 0) x x :=
      fun x hx => TransGen.mono (hsub 0 k.succ_pos) _ _ hx
    have hrest : ∀ S' : Finset α, (∀ x, TransGen (r 1) x x → x ∈ S') → S'.card ≤ k → Acyclic (r (k + 1)) :=
      fun S' hS' hcard' => ih (r := fun i => r (i + 1)) hS' hcard' (fun i hi => hsub (i + 1) (Nat.succ_lt_succ hi))
        fun i hi => hhit (i + 1) (Nat.succ_lt_succ hi)
    by_cases hcyclic : ∃ x, TransGen (r 0) x x
    · obtain ⟨x, hx⟩ := hcyclic
      obtain ⟨v, hv, hgone⟩ := hhit 0 k.succ_pos x hx
      refine hrest (S.erase v) ?_ ?_
      · intro y hy
        refine Finset.mem_erase.2 ⟨?_, hS y (hfirst y hy)⟩
        rintro rfl; exact hgone hy
      · rw [Finset.card_erase_of_mem (hS v hv)]
        omega
    · refine hrest ∅ ?_ (Nat.zero_le k)
      exact fun y hy => absurd ⟨y, hfirst y hy⟩ hcyclic

end HawkTxn.Core
