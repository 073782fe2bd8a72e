/-
Chains that depth-first tours follow.

Within the visit of a vertex every edge out of it is followed (`Stage`). An edge is passed over, and nothing comes of
it, if its target has no entry left and its latest visit is not open: it has ended, or a visit inside it has ended that
was of the same vertex. `passedOver` lists these edges in the order of the tour.

Results:
- `closed_of_chain`: in a visit, a chain back to an exhausted vertex whose latest visit is open is followed to its end,
  unless one of its edges is passed over;
- `closed_of_cycle`: a cycle whose vertices have entries at the start is closed by tours from all of them, unless it is
  skipped: the first of its vertices to be exhausted has passed over one of its edges in its last visit.
-/
import HawkTxn.Core.TourCycles

namespace HawkTxn.Core

open Tour

variable {α : Type*} [DecidableEq α] {succ : α → List α} {depth : ℕ} {u v x y z : α} {t t₁ t' : Tour α}
  {w : Visit α} {ws ws' inner outer : List (Visit α)} {S : Finset α} {l ys c roots : List α}

/-! ## Edges that are passed over -/

/-- what the rounds of a loop give -/
def gather {σ β γ : Type*} (f : σ → β → σ) (g : σ → β → List γ) : List β → σ → List γ
  | [], _ => []
  | b :: l, s => g s b ++ gather f g l (f s b)

/-- the edge from u to v is followed; `inside` gives the edges passed over in a visit -/
def Tour.passes (inside : α → Tour α → List (α × α)) (u : α) (t : Tour α) (v : α) : List (α × α) :=
  if 0 < t.count v then inside v t
  else if openVisit v t.visits = none then [(u, v)] else []

/-- the edges that the tour from u on passes over -/
def passedOver (succ : α → List α) : ℕ → α → Tour α → List (α × α)
  | 0, _, _ => []
  | depth + 1, u, t => gather (follow (tour succ depth)) (passes (passedOver succ depth) u) (succ u) (t.enter u)

/-- a visit that uses up the last entry of its vertex -/
structure LastVisit (α : Type*) where
  vertex : α
  /-- the entries left when it begins -/
  count : α → ℤ
  passedOver : List (α × α)

/-- the last visits of the tour from u on, those that begin first in front -/
def lastVisits (succ : α → List α) : ℕ → α → Tour α → List (LastVisit α)
  | 0, _, _ => []
  | depth + 1, u, t =>
    (if 0 < t.count u ∧ (t.enter u).count u ≤ 0 then [⟨u, t.count, passedOver succ (depth + 1) u t⟩] else []) ++
      gather (follow (tour succ depth)) (fun t v => if 0 < t.count v then lastVisits succ depth v t else [])
        (succ u) (t.enter u)

/-- the last visits of tours one after the other -/
def lastVisitsFrom (succ : α → List α) (depth : ℕ) (roots : List α) (t : Tour α) : List (LastVisit α) :=
  gather (fun t u => tour succ depth u t) (fun t u => lastVisits succ depth u t) roots t

/-- a last visit in the cycle, begun when all of the cycle had entries left, passes over an edge of it to another
vertex -/
def Skipped (visits : List (LastVisit α)) (c : List α) : Prop :=
  ∃ p ∈ visits, p.vertex ∈ c ∧ (∀ x ∈ c, 0 < p.count x) ∧ ∃ e ∈ cycleEdges c, e ∈ p.passedOver ∧ e.2 ≠ p.vertex

theorem mem_gather {σ β γ : Type*} {f : σ → β → σ} {g : σ → β → List γ} {l : List β} {s : σ} {e : γ} :
    e ∈ gather f g l s ↔ ∃ l₁ b l₂, l = l₁ ++ b :: l₂ ∧ e ∈ g (l₁.foldl f s) b := by
  induction l generalizing s with
  | nil => simp [gather]
  | cons b l ih =>
    rw [gather, List.mem_append, ih]
    refine ⟨?_, ?_⟩
    · intro h
      rcases h with h | ⟨l₁, b', l₂, rfl, h⟩
      · exact ⟨[], b, l, rfl, h⟩
      · exact ⟨b :: l₁, b', l₂, rfl, h⟩
    · intro h
      obtain ⟨l₁, b', l₂, hsplit, h⟩ := h
      cases l₁ with
      | nil =>
        cases hsplit
        exact Or.inl h
      | cons _ l₁ =>
        cases hsplit
        exact Or.inr ⟨l₁, b', l₂, rfl, h⟩

omit [DecidableEq α] in
theorem Tour.le_leave (t : Tour α) : Tour.Le t t.leave := ⟨fun _ => le_rfl, List.prefix_refl _, id⟩

omit [DecidableEq α] in
theorem Tour.Le.untangled (h : Tour.Le t t') (ht : t'.tangled = false) : t.tangled = false :=
  Bool.eq_false_iff.2 fun htrue => Bool.eq_false_iff.1 ht (h.tangled htrue)

theorem count_of_passes {inside : α → Tour α → List (α × α)} {visit : α → Tour α → Tour α}
    (hinside : ∀ v t, (x, y) ∈ inside v t → (visit v t).count y ≤ 0) (h : (x, y) ∈ passes inside u t v) :
    (follow visit t v).count y ≤ 0 := by
  unfold passes at h
  by_cases hcount : 0 < t.count v
  · rw [if_pos hcount] at h
    rw [follow, if_pos hcount]
    exact hinside v t h
  · rw [if_neg hcount] at h
    split_ifs at h with hopen
    · cases List.mem_singleton.1 h
      rw [follow, if_neg hcount, hopen]
      exact not_lt.1 hcount
    · exact absurd h List.not_mem_nil

/-- an edge is passed over only to a vertex that is exhausted -/
theorem count_of_passedOver (h : (x, y) ∈ passedOver succ depth u t) : (tour succ depth u t).count y ≤ 0 := by
  induction depth generalizing u t with
  | zero => exact absurd h List.not_mem_nil
  | succ depth ih =>
    obtain ⟨l₁, v, l₂, hsplit, h⟩ := mem_gather.1 h
    have hinside : ∀ v t, (x, y) ∈ passedOver succ depth v t → (tour succ depth v t).count y ≤ 0 := fun _ _ => ih
    have hcount := count_of_passes hinside h
    rw [tour, hsplit, List.foldl_append, List.foldl_cons]
    exact ((le_foldl_follow (le_tour succ depth) l₂ _).count y).trans hcount

/-! ## Vertices entered -/

omit [DecidableEq α] in
theorem AllGrown.exists_of_mem {k : α → ℤ} (h : AllGrown k ws ws') {w' : Visit α} (hw' : w' ∈ ws') :
    ∃ w ∈ ws, Grown k w w' := by
  induction h with
  | nil => exact absurd hw' List.not_mem_nil
  | @cons w₁ w₁' ws ws' hw _ ih =>
    rcases List.mem_cons.1 hw' with rfl | hw'
    · exact ⟨w₁, List.mem_cons_self, hw⟩
    · obtain ⟨w, hmem, hgrown⟩ := ih hw'
      exact ⟨w, List.mem_cons_of_mem w₁ hmem, hgrown⟩

/-- a vertex that loses entries has been entered in every open visit -/
def Noted (t t' : Tour α) : Prop := ∀ x, t'.count x < t.count x → ∀ w ∈ t'.visits, x ∈ w.entered

omit [DecidableEq α] in
theorem noted_of_count_eq (h : t'.count = t.count) : Noted t t' := by
  intro x hx
  rw [h] at hx
  exact absurd hx (lt_irrefl _)

omit [DecidableEq α] in
theorem Noted.trans {k : α → ℤ} {t'' : Tour α} (h : Noted t t') (h' : Noted t' t'')
    (hgrown : AllGrown k t'.visits t''.visits) : Noted t t'' := by
  intro x hx w hw
  by_cases hlost : t''.count x < t'.count x
  · exact h' x hlost w hw
  · obtain ⟨w', hw', hgrows⟩ := hgrown.exists_of_mem hw
    exact hgrows.entered x (h x (lt_of_le_of_lt (not_lt.1 hlost) hx) w' hw')

theorem noted_follow {visit : α → Tour α → Tour α} (hvisit : ∀ v t, Noted t (visit v t)) (t : Tour α) (v : α) :
    Noted t (follow visit t v) := by
  unfold follow
  split_ifs
  · exact hvisit v t
  · split
    · exact noted_of_count_eq rfl
    · split <;> exact noted_of_count_eq rfl

theorem noted_foldl_follow (succ : α → List α) (depth : ℕ) (hvisit : ∀ v t, Noted t (tour succ depth v t)) (l : List α)
    (t : Tour α) : Noted t (l.foldl (follow (tour succ depth)) t) := by
  induction l generalizing t with
  | nil => exact noted_of_count_eq rfl
  | cons v l ih =>
    exact (noted_follow hvisit t v).trans (ih (follow (tour succ depth) t v))
      (allGrown_foldl_follow (le_tour succ depth) (fun _ _ hv => grown_tour succ depth (Or.inl hv)) l _)

theorem noted_tour (succ : α → List α) (depth : ℕ) (u : α) (t : Tour α) : Noted t (tour succ depth u t) := by
  induction depth generalizing u t with
  | zero => exact noted_of_count_eq rfl
  | succ depth ih =>
    intro x hx w hw
    by_cases hlost : (tour succ (depth + 1) u t).count x < (t.enter u).count x
    · exact noted_foldl_follow succ depth ih (succ u) (t.enter u) x hlost w (List.mem_of_mem_tail hw)
    · -- the entry that is lost is the one of u itself
      have hxu : x = u := by
        by_contra hne
        rw [Tour.count_enter, if_neg hne] at hlost
        exact hlost hx
      have hgrown := (allGrown_foldl_follow (le_tour succ depth) (fun _ _ hv => grown_tour succ depth (Or.inl hv))
        (succ u) (t.enter u)).tail
      obtain ⟨w', hw', hgrows⟩ := hgrown.exists_of_mem hw
      obtain ⟨w₀, -, rfl⟩ := List.mem_map.1 hw'
      exact hgrows.entered x (hxu ▸ List.mem_cons_self)

/-- the vertex is not exhausted, or its latest visit is not open -/
def Unmarked (t : Tour α) (y : α) : Prop := 0 < t.count y ∨ openVisit y t.visits = none

theorem Unmarked.enter (h : Unmarked t y) (hne : y ≠ v) : Unmarked (t.enter v) y := by
  refine h.imp ?_ ?_
  · intro hcount
    rw [Tour.count_enter, if_neg hne]
    exact hcount
  · intro hnone
    rw [← Option.not_isSome_iff_eq_none, isSome_openVisit_enter hne, hnone]
    exact Bool.false_ne_true

theorem openVisit_none_grown {k : α → ℤ} (h : AllGrown k ws ws') (hnone : openVisit y ws = none) :
    openVisit y ws' = none := by
  induction h with
  | nil => rfl
  | @cons w w' ws ws' hw _ ih =>
    unfold openVisit at hnone ⊢
    rw [hw.vertex]
    by_cases hvertex : w.vertex = y
    · rw [if_pos hvertex] at hnone ⊢
      split_ifs at hnone with hentered
      rw [if_pos (hw.entered y hentered)]
    · rw [if_neg hvertex] at hnone ⊢
      rw [ih (Option.map_eq_none_iff.1 hnone)]
      rfl

theorem Unmarked.grown {k : α → ℤ} (h : Unmarked t y) (hnoted : Noted t t') (hgrown : AllGrown k t.visits t'.visits) :
    Unmarked t' y := by
  rcases h with hcount | hnone
  · by_cases hcount' : 0 < t'.count y
    · exact Or.inl hcount'
    · exact Or.inr (openVisit_eq_none (hnoted y (lt_of_le_of_lt (not_lt.1 hcount') hcount)))
  · exact Or.inr (openVisit_none_grown hgrown hnone)

/-! ## Edges that a visit follows -/

/-- in the visit of u from t on, the edge to v is next -/
structure Stage (succ : α → List α) (S : Finset α) (depth : ℕ) (u : α) (t t₁ : Tour α) (v : α) : Prop where
  split : ∃ l₁ l₂, succ u = l₁ ++ v :: l₂ ∧ l₁.foldl (follow (tour succ depth)) (t.enter u) = t₁
  inVisit : InVisit S depth u t₁
  before : Tour.Le (t.enter u) t₁
  grown : AllGrown (t.enter u).count (t.enter u).visits t₁.visits
  noted : Noted (t.enter u) t₁
  after : Tour.Le (follow (tour succ depth) t₁ v) (tour succ (depth + 1) u t)

theorem stage_of_split {l₁ l₂ : List α} (h : InVisit S depth u (t.enter u)) (hsplit : succ u = l₁ ++ v :: l₂) :
    Stage succ S depth u t (l₁.foldl (follow (tour succ depth)) (t.enter u)) v where
  split := ⟨l₁, l₂, hsplit, rfl⟩
  inVisit := List.foldlRecOn (motive := InVisit S depth u) _ _ h fun _ h v _ => h.follow succ depth v
  before := le_foldl_follow (le_tour succ depth) l₁ _
  grown := allGrown_foldl_follow (le_tour succ depth) (fun _ _ hv => grown_tour succ depth (Or.inl hv)) l₁ _
  after := by
    rw [tour, hsplit, List.foldl_append, List.foldl_cons]
    exact (le_foldl_follow (le_tour succ depth) l₂ _).trans (Tour.le_leave _)
  noted := noted_foldl_follow succ depth (noted_tour succ depth) l₁ _

theorem exists_stage (h : InVisit S depth u (t.enter u)) (hv : v ∈ succ u) : ∃ t₁, Stage succ S depth u t t₁ v := by
  obtain ⟨l₁, l₂, hsplit⟩ := List.append_of_mem hv
  exact ⟨_, stage_of_split h hsplit⟩

/-- what a loop ends, one of its rounds ends -/
theorem exists_round {β σ : Type*} {g : σ → β → σ} {p : σ → Prop} {l : List β} {s : σ} (h : p s)
    (h' : ¬ p (l.foldl g s)) : ∃ l₁ b l₂, l = l₁ ++ b :: l₂ ∧ p (l₁.foldl g s) ∧ ¬ p (g (l₁.foldl g s) b) := by
  induction l generalizing s with
  | nil => exact absurd h h'
  | cons b l ih =>
    by_cases hb : p (g s b)
    · obtain ⟨l₁, c, l₂, rfl, hbefore, hafter⟩ := ih hb h'
      exact ⟨b :: l₁, c, l₂, rfl, hbefore, hafter⟩
    · exact ⟨[], b, l, rfl, h, hb⟩

/-- what the counts of a visit end, the visit itself ends or the visit of a target -/
theorem exists_stage_of_not {p : (α → ℤ) → Prop} (h : InVisit S depth u (t.enter u)) (hbefore : p (t.enter u).count)
    (hafter : ¬ p (tour succ (depth + 1) u t).count) :
    ∃ t₁ v, Stage succ S depth u t t₁ v ∧ 0 < t₁.count v ∧ p t₁.count ∧ ¬ p (tour succ depth v t₁).count := by
  obtain ⟨l₁, v, l₂, hsplit, hstart, hend⟩ := exists_round (g := follow (tour succ depth))
    (p := fun t => p t.count) hbefore hafter
  refine ⟨_, v, stage_of_split h hsplit, ?_⟩
  unfold follow at hend
  split_ifs at hend with hv
  · exact ⟨hv, hstart, hend⟩
  · split at hend
    · exact absurd hstart hend
    · split_ifs at hend
      · exact absurd hstart hend
      · exact absurd hstart hend

/-- a vertex that loses entries in a visit, loses them to the visit itself or in the visit of a target -/
theorem exists_stage_of_lt {k : ℤ} (h : InVisit S depth u (t.enter u)) (hbefore : k ≤ (t.enter u).count x)
    (hafter : (tour succ (depth + 1) u t).count x < k) :
    ∃ t₁ v, Stage succ S depth u t t₁ v ∧ 0 < t₁.count v ∧ k ≤ t₁.count x ∧ (tour succ depth v t₁).count x < k := by
  obtain ⟨t₁, v, hstage, hv, hstart, hend⟩ := exists_stage_of_not (p := fun count => k ≤ count x) h hbefore
    (not_le.2 hafter)
  exact ⟨t₁, v, hstage, hv, hstart, not_le.1 hend⟩

/-- a visit uses up an entry -/
theorem count_tour_lt (succ : α → List α) (hdepth : 0 < depth) : (tour succ depth u t).count u < t.count u := by
  obtain ⟨d, rfl⟩ := Nat.exists_eq_succ_of_ne_zero hdepth.ne'
  have hloop := (le_foldl_follow (le_tour succ d) (succ u) (t.enter u)).count u
  rw [Tour.count_enter, if_pos rfl] at hloop
  rw [tour]
  exact lt_of_le_of_lt hloop (Int.sub_one_lt_of_le le_rfl)

/-- an exhausted vertex is not entered again -/
theorem openVisit_grown {c : α → ℤ} {ws' : List (Visit α)} (h : AllGrown c ws ws') (hz : c z ≤ 0)
    (hopen : openVisit z ws = some (inner, outer)) :
    ∃ inner' outer', openVisit z ws' = some (inner', outer') ∧ path inner' = path inner := by
  induction h generalizing inner with
  | nil => cases hopen
  | @cons w w' ws ws' hw hrest ih =>
    unfold openVisit at hopen ⊢
    rw [hw.vertex]
    split_ifs at hopen with hvertex hentered
    · rw [if_pos hvertex, if_neg]
      · cases hopen
        exact ⟨[], ws', rfl, rfl⟩
      · intro hz'
        exact (hw.counted z hz').elim hentered (not_lt.2 hz)
    · obtain ⟨⟨inner₁, outer₁⟩, hopen₁, heq⟩ := Option.map_eq_some_iff.1 hopen
      cases heq
      obtain ⟨inner', outer', hopen', hpath⟩ := ih hopen₁
      refine ⟨w' :: inner', outer', by rw [if_neg hvertex, hopen']; rfl, ?_⟩
      rw [path, path, List.map_cons, List.map_cons, List.reverse_cons, List.reverse_cons, hw.vertex]
      exact congrArg (· ++ [w.vertex]) hpath

/-! ## Chains -/

/-- entries are left for a visit of u that goes as deep as it wants -/
structure Room (S : Finset α) (depth : ℕ) (u : α) (t : Tour α) : Prop where
  left : entriesLeft S (t.enter u) < depth
  mem : ∀ x, 0 < t.count x → x ∈ S

theorem Room.inVisit (h : Room S (depth + 1) u t) : InVisit S depth u (t.enter u) :=
  .enter (Nat.le_of_lt_succ h.left) h.mem

theorem Stage.room (h : Stage succ S depth u t t₁ v) (hx : 0 < t₁.count x) : Room S depth x t₁ where
  left := by
    calc entriesLeft S (t₁.enter x) < entriesLeft S t₁ := entriesLeft_enter hx (h.inVisit.mem x hx)
      _ ≤ depth := h.inVisit.left
  mem := h.inVisit.mem

theorem Stage.after_visit (h : Stage succ S depth u t t₁ v) (hv : 0 < t₁.count v) :
    Tour.Le (tour succ depth v t₁) (tour succ (depth + 1) u t) := by
  have hafter := h.after
  rw [follow, if_pos hv] at hafter
  exact hafter

/-- the edge back to an exhausted vertex whose latest visit is open closes a cycle -/
theorem Stage.closes (h : Stage succ S depth u t t₁ z) (hz : (t.enter u).count z ≤ 0)
    (hopen : openVisit z (t.enter u).visits = some (inner, outer))
    (htangled : (tour succ (depth + 1) u t).tangled = false) :
    ∃ pre, t₁.closed ++ [(pre, z :: path inner)] <+: (tour succ (depth + 1) u t).closed := by
  obtain ⟨inner', outer', hopen', hpath⟩ := openVisit_grown h.grown hz hopen
  have hcount : ¬ 0 < t₁.count z := not_lt.2 ((h.before.count z).trans hz)
  have hafter := h.after
  rw [follow, if_neg hcount, hopen'] at hafter
  simp only at hafter
  split_ifs at hafter
  · rw [hpath] at hafter
    exact ⟨path outer', hafter.closed⟩
  · have hcontra := hafter.tangled rfl
    rw [htangled] at hcontra
    cases hcontra

theorem Stage.passes (h : Stage succ S depth u t t₁ v) :
    passes (passedOver succ depth) u t₁ v ⊆ passedOver succ (depth + 1) u t := by
  intro e he
  obtain ⟨l₁, l₂, hsplit, rfl⟩ := h.split
  exact mem_gather.2 ⟨l₁, v, l₂, hsplit, he⟩

/-- an edge to a vertex that has neither entries left nor an open latest visit is passed over -/
theorem Stage.passed (h : Stage succ S depth u t t₁ v) (hcount : ¬ 0 < t₁.count v) (hv : Unmarked t₁ v) :
    (u, v) ∈ passedOver succ (depth + 1) u t := by
  refine h.passes ?_
  rw [Tour.passes, if_neg hcount, if_pos (hv.resolve_left hcount)]
  exact List.mem_singleton_self _

/-- what the visit of a target passes over -/
theorem Stage.passed_visit (h : Stage succ S depth u t t₁ v) (hcount : 0 < t₁.count v) :
    passedOver succ depth v t₁ ⊆ passedOver succ (depth + 1) u t := by
  intro e he
  refine h.passes ?_
  rw [Tour.passes, if_pos hcount]
  exact he

/-- **Chains.** In a visit of u, a chain to an exhausted vertex whose latest visit is open is followed to its end, if no
edge before the last is passed over. -/
theorem closed_of_chain (hroom : Room S depth u t) (hz : (t.enter u).count z ≤ 0)
    (hopen : openVisit z (t.enter u).visits = some (inner, outer))
    (hchain : (u :: (ys ++ [z])).IsChain fun x y => Leads succ x y ∧ ((x, y) ∈ passedOver succ depth u t → y = z))
    (hnodup : (u :: ys).Nodup) (hys : ∀ y ∈ ys, Unmarked (t.enter u) y)
    (htangled : (tour succ depth u t).tangled = false) :
    ∃ pre, (pre, z :: (path inner ++ ys)) ∈ (tour succ depth u t).closed := by
  induction ys generalizing u t depth inner outer with
  | nil =>
    cases depth with
    | zero => exact absurd hroom.left (Nat.not_lt_zero _)
    | succ depth =>
      obtain ⟨t₁, hstage⟩ := exists_stage hroom.inVisit (List.isChain_cons_cons.1 hchain).1.1
      obtain ⟨pre, hpre⟩ := hstage.closes hz hopen htangled
      rw [List.append_nil]
      exact ⟨pre, hpre.subset (List.mem_append_right _ List.mem_cons_self)⟩
  | cons y ys ih =>
    cases depth with
    | zero => exact absurd hroom.left (Nat.not_lt_zero _)
    | succ depth =>
      rw [List.cons_append] at hchain
      obtain ⟨⟨huy, hkept⟩, hchain⟩ := List.isChain_cons_cons.1 hchain
      obtain ⟨hu, hnodup⟩ := List.nodup_cons.1 hnodup
      obtain ⟨t₁, hstage⟩ := exists_stage hroom.inVisit huy
      have hz₁ : t₁.count z ≤ 0 := (hstage.before.count z).trans hz
      have hmarked : ¬ Unmarked (t.enter u) z := by
        intro h
        rcases h with h | h
        · exact absurd h (not_lt.2 hz)
        · rw [hopen] at h
          cases h
      have hne : z ≠ y := by
        intro heq
        exact hmarked (heq ▸ hys y List.mem_cons_self)
      have hstay : ∀ y' ∈ y :: ys, Unmarked t₁ y' := fun y' hy' => (hys y' hy').grown hstage.noted hstage.grown
      -- y is entered, or the edge to it would be passed over
      have hy : 0 < t₁.count y := by
        by_contra hcount
        exact hne (hkept (hstage.passed hcount (hstay y List.mem_cons_self))).symm
      have hafter := hstage.after_visit hy
      -- the latest visit of z is still open in the visit of y
      obtain ⟨inner', outer', hopen', hpath⟩ := openVisit_grown hstage.grown hz hopen
      have hopen₁ : openVisit z (t₁.enter y).visits =
          some (⟨y, []⟩ :: inner'.map fun w => { w with entered := y :: w.entered },
            outer'.map fun w => { w with entered := y :: w.entered }) := by
        rw [visits_enter, openVisit, if_neg (Ne.symm hne), openVisit_map hne, hopen']
        rfl
      have hchain₁ : (y :: (ys ++ [z])).IsChain fun x y' =>
          Leads succ x y' ∧ ((x, y') ∈ passedOver succ depth y t₁ → y' = z) :=
        hchain.imp fun x y' hxy => ⟨hxy.1, fun he => hxy.2 (hstage.passed_visit hy he)⟩
      have hys₁ : ∀ y' ∈ ys, Unmarked (t₁.enter y) y' := by
        intro y' hy'
        refine (hstay y' (List.mem_cons_of_mem y hy')).enter ?_
        rintro rfl
        exact (List.nodup_cons.1 hnodup).1 hy'
      obtain ⟨pre, hpre⟩ := ih (hstage.room hy) (((le_enter y t₁).count z).trans hz₁) hopen₁ hchain₁ hnodup hys₁
        (hafter.untangled htangled)
      have hinner : path (⟨y, []⟩ :: inner'.map fun w => { w with entered := y :: w.entered }) = path inner ++ [y] := by
        rw [← hpath]
        simp [path, Function.comp_def]
      rw [hinner, List.append_assoc] at hpre
      exact ⟨pre, hafter.closed.subset hpre⟩

/-! ## Cycles -/

/-- a visit in a set that each of its members leads back into exhausts one of them -/
theorem exists_exhausted {C : Set α} (hC : ∀ x ∈ C, ∃ y ∈ C, y ∈ succ x) (hroom : Room S depth u t) (hu : u ∈ C) :
    ∃ x ∈ C, (tour succ depth u t).count x ≤ 0 := by
  induction depth generalizing u t with
  | zero => exact absurd hroom.left (Nat.not_lt_zero _)
  | succ depth ih =>
    obtain ⟨y, hy, huy⟩ := hC u hu
    obtain ⟨t₁, hstage⟩ := exists_stage hroom.inVisit huy
    by_cases hcount : 0 < t₁.count y
    · obtain ⟨x, hx, hexhausted⟩ := ih (hstage.room hcount) hy
      exact ⟨x, hx, ((hstage.after_visit hcount).count x).trans hexhausted⟩
    · refine ⟨y, hy, ?_⟩
      calc (tour succ (depth + 1) u t).count y ≤ (follow (tour succ depth) t₁ y).count y := hstage.after.count y
        _ ≤ t₁.count y := (le_follow (le_tour succ depth) t₁ y).count y
        _ ≤ 0 := not_lt.1 hcount

omit [DecidableEq α] in
theorem Skipped.mono {visits visits' : List (LastVisit α)} (h : Skipped visits c) (hsub : visits ⊆ visits') :
    Skipped visits' c := by
  obtain ⟨p, hp, hskipped⟩ := h
  exact ⟨p, hsub hp, hskipped⟩

theorem Stage.lastVisits (h : Stage succ S depth u t t₁ v) (hcount : 0 < t₁.count v) :
    lastVisits succ depth v t₁ ⊆ lastVisits succ (depth + 1) u t := by
  intro p hp
  obtain ⟨l₁, l₂, hsplit, rfl⟩ := h.split
  refine List.mem_append_right _ (mem_gather.2 ⟨l₁, v, l₂, hsplit, ?_⟩)
  rw [if_pos hcount]
  exact hp

/-- **Cycles.** A tour that is the first to exhaust a vertex of a cycle closes the cycle, if it does not skip it. -/
theorem closed_of_first (hroom : Room S depth u t) (hcycle : IsCycle (Leads succ) c)
    (hbefore : ∀ x ∈ c, 0 < t.count x) (hafter : ¬ ∀ x ∈ c, 0 < (tour succ depth u t).count x)
    (htangled : (tour succ depth u t).tangled = false) (hnot : ¬ Skipped (lastVisits succ depth u t) c) :
    ∃ e ∈ (tour succ depth u t).closed, e.2 ~r c := by
  induction depth generalizing u t with
  | zero => exact absurd hroom.left (Nat.not_lt_zero _)
  | succ depth ih =>
    by_cases henter : ∀ x ∈ c, 0 < (t.enter u).count x
    · obtain ⟨t₁, v, hstage, hv, hstart, hend⟩ := exists_stage_of_not (p := fun count => ∀ x ∈ c, 0 < count x)
        hroom.inVisit henter hafter
      have hle := hstage.after_visit hv
      obtain ⟨e, he, hrot⟩ := ih (hstage.room hv) hstart hend (hle.untangled htangled)
        fun hskipped => hnot (hskipped.mono (hstage.lastVisits hv))
      exact ⟨e, hle.closed.subset he, hrot⟩
    · -- the visit of u itself is its last, and the others have entries left
      have hothers : ∀ x ∈ c, x ≠ u → 0 < (t.enter u).count x := by
        intro x hx hne
        rw [Tour.count_enter, if_neg hne]
        exact hbefore x hx
      obtain ⟨z, hz, hcount⟩ : ∃ z ∈ c, (t.enter u).count z ≤ 0 := by
        push Not at henter
        exact henter
      obtain rfl : z = u := by
        by_contra hne
        exact absurd (hothers z hz hne) (not_lt.2 hcount)
      have hlast : (⟨z, t.count, passedOver succ (depth + 1) z t⟩ : LastVisit α) ∈ lastVisits succ (depth + 1) z t := by
        rw [lastVisits, if_pos ⟨hbefore z hz, hcount⟩]
        exact List.mem_append_left _ (List.mem_singleton_self _)
      have hkept : IsCycle (fun x y => Leads succ x y ∧ ((x, y) ∈ passedOver succ (depth + 1) z t → y = z)) c := by
        refine hcycle.of_edges fun e he hleads => ⟨hleads, fun hpassed => ?_⟩
        by_contra hne
        exact hnot ⟨_, hlast, hz, hbefore, e, he, hpassed, hne⟩
      obtain ⟨ys, hrot, hzys, hchain⟩ := hkept.rotate_to hz
      have hys : ∀ y ∈ ys, Unmarked (t.enter z) y := by
        intro y hy
        refine Or.inl (hothers y (hrot.mem_iff.2 (List.mem_cons_of_mem z hy)) ?_)
        rintro rfl
        exact hzys hy
      obtain ⟨pre, hpre⟩ := closed_of_chain hroom hcount openVisit_enter_self hchain (hrot.nodup_iff.1 hcycle.nodup)
        hys htangled
      exact ⟨_, hpre, hrot.symm⟩

/-! ## Tours one after the other -/

theorem le_tours (succ : α → List α) (depth : ℕ) (roots : List α) (t : Tour α) :
    Tour.Le t (roots.foldl (fun t u => tour succ depth u t) t) :=
  List.foldlRecOn (motive := Tour.Le t) roots _ (Tour.Le.refl t) fun t' ht' v _ => ht'.trans (le_tour succ depth v t')

theorem Room.of_le (hdepth : entriesLeft S t < depth) (hmem : ∀ x, 0 < t.count x → x ∈ S) (h : Tour.Le t t') :
    Room S depth u t' where
  left := by
    calc entriesLeft S (t'.enter u) ≤ entriesLeft S t' := entriesLeft_le (le_enter u t')
      _ ≤ entriesLeft S t := entriesLeft_le h
      _ < depth := hdepth
  mem x hx := hmem x (lt_of_lt_of_le hx (h.count x))

/-- **Cycles that tours close.** Tours from all vertices of a cycle close it, if they do not skip it. -/
theorem closed_of_cycle (hdepth : entriesLeft S t < depth) (hmem : ∀ x, 0 < t.count x → x ∈ S)
    (hcycle : IsCycle (Leads succ) c) (hstart : ∀ x ∈ c, 0 < t.count x ∧ x ∈ roots)
    (htangled : (roots.foldl (fun t u => tour succ depth u t) t).tangled = false)
    (hnot : ¬ Skipped (lastVisitsFrom succ depth roots t) c) :
    ∃ e ∈ (roots.foldl (fun t u => tour succ depth u t) t).closed, e.2 ~r c := by
  have hleads : ∀ x ∈ {x | x ∈ c}, ∃ y ∈ {x | x ∈ c}, y ∈ succ x := fun x hx => hcycle.exists_succ hx
  have hend : ¬ ∀ x ∈ c, 0 < (roots.foldl (fun t u => tour succ depth u t) t).count x := by
    intro hleft
    obtain ⟨u, hu⟩ := hcycle.exists_mem
    obtain ⟨l₁, l₂, hsplit⟩ := List.append_of_mem (hstart u hu).2
    obtain ⟨x, hx, hexhausted⟩ := exists_exhausted hleads
      (Room.of_le (u := u) hdepth hmem (le_tours succ depth l₁ t)) hu
    rw [hsplit, List.foldl_append, List.foldl_cons] at hleft
    exact absurd (hleft x hx) (not_lt.2 (((le_tours succ depth l₂ _).count x).trans hexhausted))
  -- the first of the tours that exhausts one of them
  obtain ⟨l₁, u, l₂, rfl, hbefore, hafter⟩ := exists_round (p := fun t : Tour α => ∀ x ∈ c, 0 < t.count x)
    (fun x hx => (hstart x hx).1) hend
  have hrest := le_tours succ depth l₂ (tour succ depth u (l₁.foldl (fun t u => tour succ depth u t) t))
  rw [List.foldl_append, List.foldl_cons] at htangled ⊢
  have hvisits : lastVisits succ depth u (l₁.foldl (fun t u => tour succ depth u t) t) ⊆
      lastVisitsFrom succ depth (l₁ ++ u :: l₂) t := fun p hp => mem_gather.2 ⟨l₁, u, l₂, rfl, hp⟩
  obtain ⟨e, he, hrot⟩ := closed_of_first (Room.of_le hdepth hmem (le_tours succ depth l₁ t)) hcycle hbefore hafter
    (hrest.untangled htangled) fun hskipped => hnot (hskipped.mono hvisits)
  exact ⟨e, hrest.closed.subset he, hrot⟩

end HawkTxn.Core
