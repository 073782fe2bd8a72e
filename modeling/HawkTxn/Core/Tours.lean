/-
Depth-first tours that may enter a vertex more than once.

`count` says how often a vertex may still be entered. From the vertex it is at, a tour follows the edges in order: it
enters a target that has entries left; otherwise, if the latest visit of the target is still open, the edge leads back,
and the visits inside that one close a cycle. They do so only if none of their vertices has been entered again since:
the edge is tangled otherwise.

- `Tour.Le`: what a tour cannot take back;
- `grown_tour`: what a tour does to the visits that are open around it;
- `Linked`: pointers to the vertex each vertex was entered from lead back from the innermost visit to the latest visit
  of a vertex exactly if no vertex on the way has been entered again (`trail_of_untangled`, `not_trail_of_tangled`).
-/
import HawkTxn.Core.Digraph
import Mathlib.Data.List.Forall2

namespace HawkTxn.Core

/-- an open visit: its vertex, and the vertices entered since -/
structure Visit (α : Type*) where
  vertex : α
  entered : List α

structure Tour (α : Type*) where
  count : α → ℤ
  /-- the open visits, the innermost first -/
  visits : List (Visit α)
  /-- the cycles closed, each with the open path to it -/
  closed : List (List α × List α)
  /-- some edge back was tangled -/
  tangled : Bool

variable {α : Type*} [DecidableEq α]

/-- the vertices of visits, the outermost first -/
def path (ws : List (Visit α)) : List α := (ws.map Visit.vertex).reverse

/-- the visits inside the latest visit of v and those around it, if that visit is open -/
def openVisit (v : α) : List (Visit α) → Option (List (Visit α) × List (Visit α))
  | [] => none
  | w :: ws =>
    if w.vertex = v then if v ∈ w.entered then none else some ([], ws)
    else (openVisit v ws).map fun p => (w :: p.1, p.2)

namespace Tour

def enter (u : α) (t : Tour α) : Tour α :=
  { t with
    count := Function.update t.count u (t.count u - 1)
    visits := ⟨u, []⟩ :: t.visits.map fun w => { w with entered := u :: w.entered } }

def leave (t : Tour α) : Tour α := { t with visits := t.visits.tail }

/-- an edge to v is followed -/
def follow (visit : α → Tour α → Tour α) (t : Tour α) (v : α) : Tour α :=
  if 0 < t.count v then visit v t
  else match openVisit v t.visits with
    | none => t
    | some (inner, outer) =>
      if ∀ w ∈ inner, w.vertex ∉ w.entered then { t with closed := t.closed ++ [(path outer, v :: path inner)] }
      else { t with tangled := true }

end Tour

open Tour

/-- the tour from u on, with a bound on how deep it goes -/
def tour (succ : α → List α) : ℕ → α → Tour α → Tour α
  | 0, _, t => t
  | depth + 1, u, t => ((succ u).foldl (follow (tour succ depth)) (t.enter u)).leave

variable {succ : α → List α} {depth : ℕ} {u v x : α} {t t' t'' : Tour α} {w w' : Visit α}
  {ws inner outer : List (Visit α)} {l : List α}

/-! ## What a tour cannot take back -/

/-- entries are used up, closed cycles and tangles stay -/
structure Tour.Le (t t' : Tour α) : Prop where
  count : ∀ x, t'.count x ≤ t.count x
  closed : t.closed <+: t'.closed
  tangled : t.tangled = true → t'.tangled = true

omit [DecidableEq α] in
theorem Tour.Le.refl (t : Tour α) : Tour.Le t t := ⟨fun _ => le_rfl, List.prefix_refl _, id⟩

omit [DecidableEq α] in
theorem Tour.Le.trans (h : Tour.Le t t') (k : Tour.Le t' t'') : Tour.Le t t'' :=
  ⟨fun x => (k.count x).trans (h.count x), h.closed.trans k.closed, fun hx => k.tangled (h.tangled hx)⟩

theorem Tour.count_enter : (t.enter u).count x = if x = u then t.count u - 1 else t.count x := by
  simp only [enter, Function.update_apply]

theorem Tour.visits_enter :
    (t.enter u).visits = ⟨u, []⟩ :: t.visits.map fun w => { w with entered := u :: w.entered } := rfl

theorem le_enter (u : α) (t : Tour α) : Tour.Le t (t.enter u) := by
  refine ⟨fun x => ?_, List.prefix_refl _, id⟩
  rw [Tour.count_enter]
  split_ifs with hx
  · subst hx
    omega
  · exact le_rfl

theorem le_follow {visit : α → Tour α → Tour α} (hvisit : ∀ v t, Tour.Le t (visit v t)) (t : Tour α) (v : α) :
    Tour.Le t (follow visit t v) := by
  unfold follow
  split
  · exact hvisit v t
  · split
    · exact Tour.Le.refl t
    · split
      · exact ⟨fun _ => le_rfl, List.prefix_append _ _, id⟩
      · exact ⟨fun _ => le_rfl, List.prefix_refl _, fun _ => rfl⟩

theorem le_foldl_follow {visit : α → Tour α → Tour α} (hvisit : ∀ v t, Tour.Le t (visit v t)) (l : List α)
    (t : Tour α) : Tour.Le t (l.foldl (follow visit) t) :=
  List.foldlRecOn (motive := Tour.Le t) l _ (Tour.Le.refl t) fun _ h v _ => h.trans (le_follow hvisit _ v)

theorem le_tour (succ : α → List α) (depth : ℕ) (u : α) (t : Tour α) : Tour.Le t (tour succ depth u t) := by
  induction depth generalizing u t with
  | zero => exact Tour.Le.refl t
  | succ depth ih =>
    have hloop := (le_enter u t).trans (le_foldl_follow ih (succ u) (t.enter u))
    exact ⟨hloop.count, hloop.closed, hloop.tangled⟩

/-! ## Open visits -/

theorem openVisit_eq_some (h : openVisit v ws = some (inner, outer)) :
    ∃ w, ws = inner ++ w :: outer ∧ w.vertex = v ∧ v ∉ w.entered := by
  induction ws generalizing inner with
  | nil => cases h
  | cons w ws ih =>
    unfold openVisit at h
    split_ifs at h with hw hv
    · cases h
      exact ⟨w, rfl, hw, hv⟩
    · obtain ⟨⟨inner', outer'⟩, hopen, heq⟩ := Option.map_eq_some_iff.1 h
      cases heq
      obtain ⟨w', rfl, hw', hv'⟩ := ih hopen
      exact ⟨w', rfl, hw', hv'⟩

/-- visits that a vertex was entered in are not latest visits of it -/
theorem openVisit_eq_none (h : ∀ w ∈ ws, v ∈ w.entered) : openVisit v ws = none := by
  induction ws with
  | nil => rfl
  | cons w ws ih =>
    unfold openVisit
    rw [ih fun w' hw' => h w' (List.mem_cons_of_mem w hw')]
    split_ifs with hw hv
    · rfl
    · exact absurd (h w List.mem_cons_self) hv
    · rfl

/-- inside a visit lies what was entered in it -/
def Nested (ws : List (Visit α)) : Prop :=
  ws.Pairwise fun w w' => w.vertex ∈ w'.entered ∧ ∀ x ∈ w.entered, x ∈ w'.entered

theorem openVisit_append (hnested : Nested (inner ++ w :: outer)) (hv : w.vertex ∉ w.entered) :
    openVisit w.vertex (inner ++ w :: outer) = some (inner, outer) := by
  induction inner with
  | nil => simp [openVisit, hv]
  | cons w' inner ih =>
    obtain ⟨hw', hrest⟩ := List.pairwise_cons.1 hnested
    have hmem : w ∈ inner ++ w :: outer := List.mem_append_right _ List.mem_cons_self
    have hne : w'.vertex ≠ w.vertex := by
      intro heq
      exact hv (heq ▸ (hw' w hmem).1)
    rw [List.cons_append, openVisit, if_neg hne, ih hrest]
    rfl

/-- the visit of u that is entered changes no other latest visit -/
theorem openVisit_map (hx : x ≠ u) : openVisit x (ws.map fun w => { w with entered := u :: w.entered }) =
    (openVisit x ws).map fun p => (p.1.map fun w => { w with entered := u :: w.entered },
      p.2.map fun w => { w with entered := u :: w.entered }) := by
  induction ws with
  | nil => rfl
  | cons w ws ih =>
    simp only [List.map_cons, openVisit, List.mem_cons, hx, false_or, ih]
    split_ifs
    · rfl
    · rfl
    · rw [Option.map_map, Option.map_map]
      rfl

theorem openVisit_enter_self : openVisit u (t.enter u).visits =
    some ([], t.visits.map fun w => { w with entered := u :: w.entered }) := by
  rw [visits_enter, openVisit, if_pos rfl, if_neg List.not_mem_nil]

theorem isSome_openVisit_enter (hx : x ≠ u) :
    (openVisit x (t.enter u).visits).isSome = (openVisit x t.visits).isSome := by
  rw [visits_enter, openVisit, if_neg (Ne.symm hx), Option.isSome_map, openVisit_map hx, Option.isSome_map]

/-- the latest visit of a vertex ends with it -/
theorem isSome_openVisit_tail (h : Nested (w :: ws)) :
    (openVisit x ws).isSome = if x = w.vertex then false else (openVisit x (w :: ws)).isSome := by
  split_ifs with hx
  · rw [openVisit_eq_none fun w' hw' => hx ▸ ((List.pairwise_cons.1 h).1 w' hw').1]
    rfl
  · rw [openVisit, if_neg (Ne.symm hx), Option.isSome_map]

/-! ## What happens to the visits around a tour -/

/-- vertices that had entries left may have been entered since -/
structure Grown (c : α → ℤ) (w w' : Visit α) : Prop where
  vertex : w'.vertex = w.vertex
  entered : ∀ x ∈ w.entered, x ∈ w'.entered
  counted : ∀ x ∈ w'.entered, x ∈ w.entered ∨ 0 < c x

/-- visits that have grown -/
abbrev AllGrown (c : α → ℤ) : List (Visit α) → List (Visit α) → Prop := List.Forall₂ (Grown c)

omit [DecidableEq α] in
theorem allGrown_refl (c : α → ℤ) (ws : List (Visit α)) : AllGrown c ws ws :=
  List.forall₂_same.2 fun _ _ => ⟨rfl, fun _ hx => hx, fun _ hx => Or.inl hx⟩

omit [DecidableEq α] in
theorem AllGrown.trans {c c' : α → ℤ} {ws ws' ws'' : List (Visit α)} (h : AllGrown c ws ws')
    (k : AllGrown c' ws' ws'') (hc : ∀ x, c' x ≤ c x) : AllGrown c ws ws'' := by
  induction h generalizing ws'' with
  | nil =>
    cases k
    exact .nil
  | cons hw _ ih =>
    cases k with
    | cons hw' k =>
      refine .cons ⟨hw'.vertex.trans hw.vertex, fun x hx => hw'.entered x (hw.entered x hx), ?_⟩ (ih k)
      intro x hx
      rcases hw'.counted x hx with hx | hx
      · exact hw.counted x hx
      · exact Or.inr (lt_of_lt_of_le hx (hc x))

theorem allGrown_enter (hu : 0 < t.count u ∨ t.visits = []) : AllGrown t.count t.visits (t.enter u).visits.tail := by
  refine List.forall₂_map_right_iff.2 (List.forall₂_same.2 fun w hw => ⟨rfl, fun x hx => List.mem_cons_of_mem u hx, ?_⟩)
  intro x hx
  rcases List.mem_cons.1 hx with rfl | hx
  · refine Or.inr (hu.resolve_right ?_)
    exact List.ne_nil_of_mem hw
  · exact Or.inl hx

omit [DecidableEq α] in
theorem AllGrown.tail {c : α → ℤ} {ws ws' : List (Visit α)} (h : AllGrown c ws ws') : AllGrown c ws.tail ws'.tail := by
  cases h with
  | nil => exact .nil
  | cons _ h => exact h

omit [DecidableEq α] in
theorem AllGrown.head {c : α → ℤ} {ws ws' : List (Visit α)} (h : AllGrown c ws ws') :
    ws'.head?.map Visit.vertex = ws.head?.map Visit.vertex := by
  cases h with
  | nil => rfl
  | cons hw _ => exact congrArg some hw.vertex

theorem allGrown_follow {visit : α → Tour α → Tour α}
    (hvisit : ∀ v t, 0 < t.count v → AllGrown t.count t.visits (visit v t).visits) (t : Tour α) (v : α) :
    AllGrown t.count t.visits (follow visit t v).visits := by
  unfold follow
  split
  · exact hvisit v t ‹_›
  · split
    · exact allGrown_refl t.count t.visits
    · split <;> exact allGrown_refl t.count t.visits

theorem allGrown_foldl_follow {visit : α → Tour α → Tour α} (hle : ∀ v t, Tour.Le t (visit v t))
    (hvisit : ∀ v t, 0 < t.count v → AllGrown t.count t.visits (visit v t).visits) (l : List α) (t : Tour α) :
    AllGrown t.count t.visits (l.foldl (follow visit) t).visits := by
  induction l generalizing t with
  | nil => exact allGrown_refl t.count t.visits
  | cons v l ih => exact (allGrown_follow hvisit t v).trans (ih (follow visit t v)) (le_follow hle t v).count

theorem grown_tour (succ : α → List α) (depth : ℕ) (hu : 0 < t.count u ∨ t.visits = []) :
    AllGrown t.count t.visits (tour succ depth u t).visits := by
  induction depth generalizing u t with
  | zero => exact allGrown_refl t.count t.visits
  | succ depth ih =>
    have hloop := allGrown_foldl_follow (le_tour succ depth) (fun v t hv => ih (Or.inl hv)) (succ u) (t.enter u)
    exact (allGrown_enter hu).trans hloop.tail (le_enter u t).count

/-! ## Pointers back -/

/-- f points from each vertex entered to the one it was entered from last -/
structure Linked (f : α → α) (ws : List (Visit α)) : Prop where
  nested : Nested ws
  back : ∀ w ∈ ws, ∀ x ∈ w.entered, f x = w.vertex ∨ f x ∈ w.entered
  chain : ws.IsChain fun w w' => w.vertex ∉ w.entered → f w.vertex = w'.vertex

variable {f f' : α → α}

theorem nested_enter (h : Nested t.visits) (u : α) : Nested (t.enter u).visits := by
  refine List.pairwise_cons.2 ⟨?_, List.pairwise_map.2 (h.imp ?_)⟩
  · intro w hw
    obtain ⟨w', -, rfl⟩ := List.mem_map.1 hw
    exact ⟨List.mem_cons_self, fun x hx => absurd hx List.not_mem_nil⟩
  · intro w w' hww'
    refine ⟨List.mem_cons_of_mem u hww'.1, fun x hx => ?_⟩
    rcases List.mem_cons.1 hx with rfl | hx
    · exact List.mem_cons_self
    · exact List.mem_cons_of_mem u (hww'.2 x hx)

theorem Linked.enter (h : Linked f t.visits) (hv : ∀ w ∈ t.visits.head?, f' v = w.vertex)
    (hother : ∀ x, x ≠ v → f' x = f x) : Linked f' (t.enter v).visits where
  nested := nested_enter h.nested v
  back := by
    intro w hw x hx
    rcases List.mem_cons.1 hw with rfl | hw
    · exact absurd hx List.not_mem_nil
    obtain ⟨w', hold, rfl⟩ := List.mem_map.1 hw
    by_cases hxv : x = v
    · -- the vertex that was entered points to the innermost visit
      obtain ⟨top, rest, hvisits⟩ := List.exists_cons_of_ne_nil (List.ne_nil_of_mem hold)
      have htop : f' x = top.vertex := hxv ▸ hv top (by rw [hvisits]; rfl)
      have hnested := h.nested
      rw [hvisits] at hold hnested
      rw [htop]
      rcases List.mem_cons.1 hold with rfl | hold
      · exact Or.inl rfl
      · exact Or.inr (List.mem_cons_of_mem v ((List.pairwise_cons.1 hnested).1 w' hold).1)
    · rw [hother x hxv]
      exact (h.back w' hold x (List.mem_of_ne_of_mem hxv hx)).imp id (List.mem_cons_of_mem v)
  chain := by
    have hrest : (t.visits.map fun w => { w with entered := v :: w.entered }).IsChain
        fun w w' : Visit α => w.vertex ∉ w.entered → f' w.vertex = w'.vertex := by
      refine (List.isChain_map _).2 (h.chain.imp fun w w' hlink hnot => ?_)
      rw [List.mem_cons, not_or] at hnot
      rw [hother _ hnot.1]
      exact hlink hnot.2
    refine List.isChain_cons.2 ⟨?_, hrest⟩
    intro w hw _
    rw [List.head?_map] at hw
    obtain ⟨top, htop, rfl⟩ := Option.map_eq_some_iff.1 hw
    exact hv top htop

omit [DecidableEq α] in
theorem Linked.tail (h : Linked f ws) : Linked f ws.tail where
  nested := h.nested.tail
  back w hw := h.back w (List.mem_of_mem_tail hw)
  chain := h.chain.tail

omit [DecidableEq α] in
/-- **Untangled edges close cycles.** -/
theorem trail_of_untangled {w₀ : Visit α} {rest : List (Visit α)} (h : Linked f (inner ++ w :: outer))
    (hw : w.vertex ∉ w.entered) (hinner : ∀ w' ∈ inner, w'.vertex ∉ w'.entered)
    (hhead : inner ++ w :: outer = w₀ :: rest) : Trail f w.vertex w₀.vertex (inner.map Visit.vertex) := by
  induction inner generalizing w₀ rest with
  | nil =>
    cases hhead
    exact .arrived
  | cons w₁ inner ih =>
    cases hhead
    have hmem : w ∈ inner ++ w :: outer := List.mem_append_right inner List.mem_cons_self
    have hne : w₁.vertex ≠ w.vertex := by
      intro heq
      exact hw (heq ▸ ((List.pairwise_cons.1 h.nested).1 w hmem).1)
    obtain ⟨w₂, rest', hrest⟩ := List.exists_cons_of_ne_nil (List.ne_nil_of_mem hmem)
    have hnext : w₂ ∈ (inner ++ w :: outer).head? := by
      rw [hrest]
      rfl
    have hlink : f w₁.vertex = w₂.vertex := (List.isChain_cons.1 h.chain).1 w₂ hnext (hinner w₁ List.mem_cons_self)
    refine .follow hne ?_
    rw [hlink]
    exact ih h.tail (fun w' hw' => hinner w' (List.mem_cons_of_mem w₁ hw')) hrest

omit [DecidableEq α] in
/-- **Tangled edges do not.** The pointers stay among the vertices entered since the visit that was entered again. -/
theorem not_trail_of_tangled {w₀ : Visit α} {rest : List (Visit α)} (h : Linked f (inner ++ w :: outer))
    (hw : w.vertex ∉ w.entered) (hinner : w' ∈ inner) (hagain : w'.vertex ∈ w'.entered)
    (hhead : inner ++ w :: outer = w₀ :: rest) : ¬ Trail f w.vertex w₀.vertex l := by
  intro htrail
  have hmem : w' ∈ inner ++ w :: outer := List.mem_append_left _ hinner
  have hclosed : ∀ x ∈ {x | x ∈ w'.entered}, f x ∈ {x | x ∈ w'.entered} := by
    intro x hx
    rcases h.back w' hmem x hx with heq | hx
    · exact heq ▸ hagain
    · exact hx
  have hstart : w₀.vertex ∈ {x | x ∈ w'.entered} := by
    have hnested := h.nested
    rw [hhead] at hmem hnested
    rcases List.mem_cons.1 hmem with rfl | hmem
    · exact hagain
    · exact ((List.pairwise_cons.1 hnested).1 w' hmem).1
  have hinside := (List.pairwise_append.1 h.nested).2.2 w' hinner w List.mem_cons_self
  exact hw (hinside.2 _ (htrail.target_mem hclosed hstart))

/-! ## Depth -/

/-- the number of entries left in S -/
def entriesLeft (S : Finset α) (t : Tour α) : ℕ := ∑ x ∈ S, (t.count x).toNat

variable {S : Finset α}

omit [DecidableEq α] in
theorem entriesLeft_le (h : Tour.Le t t') : entriesLeft S t' ≤ entriesLeft S t :=
  Finset.sum_le_sum fun x _ => Int.toNat_le_toNat (h.count x)

theorem entriesLeft_enter (hv : 0 < t.count v) (hS : v ∈ S) : entriesLeft S (t.enter v) < entriesLeft S t := by
  refine Finset.sum_lt_sum (fun x _ => Int.toNat_le_toNat ((le_enter v t).count x)) ⟨v, hS, ?_⟩
  rw [Tour.count_enter, if_pos rfl]
  omega

/-- the tour is in a visit of u, with so many entries left -/
structure InVisit (S : Finset α) (depth : ℕ) (u : α) (t : Tour α) : Prop where
  left : entriesLeft S t ≤ depth
  mem : ∀ x, 0 < t.count x → x ∈ S
  top : t.visits.head?.map Visit.vertex = some u

theorem InVisit.enter (hleft : entriesLeft S (t.enter u) ≤ depth) (hmem : ∀ x, 0 < t.count x → x ∈ S) :
    InVisit S depth u (t.enter u) :=
  ⟨hleft, fun x hx => hmem x (lt_of_lt_of_le hx ((le_enter u t).count x)), rfl⟩

theorem InVisit.follow (h : InVisit S depth u t) (succ : α → List α) (d : ℕ) (v : α) :
    InVisit S depth u (Tour.follow (tour succ d) t v) where
  left := (entriesLeft_le (le_follow (le_tour succ d) t v)).trans h.left
  mem x hx := h.mem x (lt_of_lt_of_le hx ((le_follow (le_tour succ d) t v).count x))
  top := (allGrown_follow (fun _ _ hv => grown_tour succ d (Or.inl hv)) t v).head.trans h.top

omit [DecidableEq α] in
theorem InVisit.visits (h : InVisit S depth u t) : ∃ w ws, t.visits = w :: ws ∧ w.vertex = u := by
  obtain ⟨w, hw, hu⟩ := Option.map_eq_some_iff.1 h.top
  obtain ⟨ws, hws⟩ := List.head?_eq_some_iff.1 hw
  exact ⟨w, ws, hws, hu⟩

end HawkTxn.Core
