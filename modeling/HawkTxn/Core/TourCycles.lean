/-
Cycles that depth-first tours close.

The invariant `Rooted` of a tour from r on says what can be told of the cycles it has closed so far: the latest visit of
the head of each, if it is open, still lies where it lay then. So no tour closes a cycle twice, if no vertex has two
edges to one target (`distinct_tour`).

Results:
- `rooted_tour`: every tour from a vertex keeps `Rooted`;
- `single_tour`: no edge back is tangled if no vertex has two entries;
- `branches_tour`: no two edges back are followed along the same open path;
- `distinct_tour`: the cycles of one tour differ, also up to rotation.
-/
import HawkTxn.Core.Tours

namespace HawkTxn.Core

open Tour

variable {α : Type*} [DecidableEq α] {succ : α → List α} {depth : ℕ} {u v r : α} {t t₀ t' : Tour α} {w : Visit α}
  {ws inner outer : List (Visit α)} {new : List (List α × List α)}

/-- the edges of a tour -/
abbrev Leads (succ : α → List α) (x y : α) : Prop := y ∈ succ x

/-! ## Steps of a tour -/

/-- what entering, leaving and closing keep holds after a tour -/
theorem tour_invariant {P : Tour α → Prop}
    (henter : ∀ t w ws v, t.visits = w :: ws → v ∈ succ w.vertex → 0 < t.count v → P t → P (t.enter v))
    (hleave : ∀ t, P t → P t.leave)
    (hclose : ∀ t w ws v inner outer, t.visits = w :: ws → v ∈ succ w.vertex → ¬ 0 < t.count v →
      openVisit v t.visits = some (inner, outer) → (∀ w ∈ inner, w.vertex ∉ w.entered) → P t →
        P { t with closed := t.closed ++ [(path outer, v :: path inner)] })
    (htangle : ∀ t v inner outer, openVisit v t.visits = some (inner, outer) →
      ¬ (∀ w ∈ inner, w.vertex ∉ w.entered) → P t → P { t with tangled := true })
    (ht : P t) (h : P (t.enter u)) : P (tour succ depth u t) := by
  induction depth generalizing u t with
  | zero => exact ht
  | succ depth ih =>
    have hround : ∀ t v, v ∈ succ u → t.visits.head?.map Visit.vertex = some u → P t →
        P (follow (tour succ depth) t v) := by
      intro t v hv htop ht
      obtain ⟨w, hw, rfl⟩ := Option.map_eq_some_iff.1 htop
      obtain ⟨ws, hws⟩ := List.head?_eq_some_iff.1 hw
      unfold follow
      split
      · exact ih ht (henter t w ws v hws hv ‹_› ht)
      · split
        · exact ht
        · split_ifs with hinner
          · exact hclose t w ws v _ _ hws hv ‹_› ‹_› hinner ht
          · exact htangle t v _ _ ‹_› hinner ht
    have hloop : P ((succ u).foldl (follow (tour succ depth)) (t.enter u)) ∧
        ((succ u).foldl (follow (tour succ depth)) (t.enter u)).visits.head?.map Visit.vertex = some u := by
      refine List.foldlRecOn (motive := fun t : Tour α => P t ∧ t.visits.head?.map Visit.vertex = some u) _ _ ⟨h, rfl⟩
        fun t ht v hv => ⟨hround t v hv ht.2 ht.1, ?_⟩
      exact (allGrown_follow (fun _ _ hv => grown_tour succ depth (Or.inl hv)) t v).head.trans ht.2
    exact hleave _ hloop.1

omit [DecidableEq α] in
theorem path_append (inner : List (Visit α)) (w : Visit α) (outer : List (Visit α)) :
    path (inner ++ w :: outer) = path outer ++ w.vertex :: path inner := by
  simp [path]

omit [DecidableEq α] in
theorem mem_path {x : α} : x ∈ path ws ↔ ∃ w ∈ ws, w.vertex = x := by
  simp [path]

/-- the open visits inside an untangled one and the edge back to it are a cycle -/
theorem isCycle_of_openVisit (hnested : Nested t.visits)
    (hchain : t.visits.IsChain fun w w' => Leads succ w'.vertex w.vertex) (hvisits : t.visits = w :: ws)
    (hv : v ∈ succ w.vertex) (hopen : openVisit v t.visits = some (inner, outer))
    (hinner : ∀ w ∈ inner, w.vertex ∉ w.entered) : IsCycle (Leads succ) (v :: path inner) := by
  obtain ⟨latest, hsplit, rfl, hnot⟩ := openVisit_eq_some hopen
  have hpath : latest.vertex :: path inner = ((inner ++ [latest]).map Visit.vertex).reverse := by
    simp [path]
  have hprefix : inner ++ [latest] <+: t.visits := by
    rw [hsplit]
    exact ⟨outer, by simp⟩
  have hhead : (inner ++ [latest]).head (by simp) = w := by
    refine (List.head_eq_iff_head?_eq_some _).2 ?_
    have hsame : t.visits.head? = (inner ++ [latest]).head? := by
      rw [hsplit]
      cases inner <;> rfl
    rw [← hsame, hvisits]
    rfl
  have huntangled : ∀ w' ∈ inner ++ [latest], w'.vertex ∉ w'.entered := by
    intro w' hw'
    rcases List.mem_append.1 hw' with hw' | hw'
    · exact hinner w' hw'
    · rw [List.mem_singleton.1 hw']
      exact hnot
  refine ⟨?_, List.cons_ne_nil _ _, ?_, ?_⟩
  · rw [hpath, List.nodup_reverse]
    refine List.pairwise_map.2 ((hnested.sublist hprefix.sublist).imp_of_mem fun {a b} _ hb hab heq => ?_)
    exact huntangled b hb (heq ▸ hab.1)
  · have hclosed : (inner ++ [latest]).IsChain fun w w' => Leads succ w'.vertex w.vertex :=
      List.IsChain.prefix hchain hprefix
    rw [hpath]
    exact List.isChain_reverse.2 ((List.isChain_map _).2 hclosed)
  · simp only [hpath, List.getLast_reverse, List.head_reverse, List.head_map, hhead]
    simpa using hv

/-! ## Cycles closed in one tour -/

/-- a tour from r that started at t₀ has closed the cycles of `new` -/
structure Rooted (succ : α → List α) (r : α) (t₀ : Tour α) (new : List (List α × List α)) (t : Tour α) : Prop where
  le : Tour.Le t₀ t
  closed : t.closed = t₀.closed ++ new
  nested : Nested t.visits
  chain : t.visits.IsChain fun w w' => Leads succ w'.vertex w.vertex
  /-- only the first visit may have had no entry left before the tour -/
  counted : t.visits.Pairwise fun w _ => 0 < t₀.count w.vertex
  root : ∀ w ∈ t.visits, w.vertex = r ∨ 0 < t₀.count w.vertex
  cycle : ∀ e ∈ new, IsCycle (Leads succ) e.2
  members : ∀ pre v xs, (pre, v :: xs) ∈ new → (v = r ∨ 0 < t₀.count v) ∧ ∀ x ∈ xs, 0 < t₀.count x
  exhausted : ∀ pre v xs, (pre, v :: xs) ∈ new → t.count v ≤ 0
  /-- the latest visit of the head is where it was, and the other members were entered in it -/
  latest : ∀ pre v xs, (pre, v :: xs) ∈ new → ∀ w outer, w :: outer <:+ t.visits → w.vertex = v → v ∉ w.entered →
    pre = path outer ∧ ∀ x ∈ xs, x ∈ w.entered
  once : new.Pairwise fun e e' => e.2 ~r e'.2 → e = e'

theorem Rooted.enter (h : Rooted succ r t₀ new t) (hvisits : t.visits = w :: ws) (hv : v ∈ succ w.vertex)
    (hcount : 0 < t.count v) : Rooted succ r t₀ new (t.enter v) where
  le := h.le.trans (le_enter v t)
  closed := h.closed
  nested := nested_enter h.nested v
  chain := by
    refine List.isChain_cons.2 ⟨?_, (List.isChain_map _).2 h.chain⟩
    intro w' hw'
    rw [hvisits] at hw'
    cases hw'
    exact hv
  counted := List.pairwise_cons.2 ⟨fun _ _ => lt_of_lt_of_le hcount (h.le.count v), List.pairwise_map.2 h.counted⟩
  root := by
    intro w' hw'
    rcases List.mem_cons.1 hw' with rfl | hw'
    · exact Or.inr (lt_of_lt_of_le hcount (h.le.count v))
    · obtain ⟨w'', hw'', rfl⟩ := List.mem_map.1 hw'
      exact h.root w'' hw''
  cycle := h.cycle
  members := h.members
  exhausted pre x xs hmem := ((le_enter v t).count x).trans (h.exhausted pre x xs hmem)
  latest := by
    intro pre x xs hmem w' outer hsuffix hw' hnot
    rcases List.suffix_cons_iff.1 hsuffix with heq | hsuffix
    · -- no head is entered by an edge again
      cases heq
      have hx := h.exhausted pre x xs hmem
      rw [← hw'] at hx
      exact absurd hcount (not_lt_of_ge hx)
    · obtain ⟨l, hl, heq⟩ := List.suffix_map_iff.1 hsuffix
      obtain ⟨w'', outer', rfl, rfl, rfl⟩ := List.map_eq_cons_iff.1 heq.symm
      obtain ⟨hpre, hxs⟩ := h.latest pre x xs hmem w'' outer' hl hw' fun hx => hnot (List.mem_cons_of_mem v hx)
      refine ⟨?_, fun y hy => List.mem_cons_of_mem v (hxs y hy)⟩
      rw [hpre, path, path, List.map_map]
      rfl
  once := h.once

omit [DecidableEq α] in
theorem Rooted.leave (h : Rooted succ r t₀ new t) : Rooted succ r t₀ new t.leave where
  le := ⟨h.le.count, h.le.closed, h.le.tangled⟩
  closed := h.closed
  nested := h.nested.tail
  chain := h.chain.tail
  counted := h.counted.tail
  root w hw := h.root w (List.mem_of_mem_tail hw)
  cycle := h.cycle
  members := h.members
  exhausted := h.exhausted
  latest pre v xs hmem w outer hsuffix := h.latest pre v xs hmem w outer (hsuffix.trans (List.tail_suffix _))
  once := h.once

omit [DecidableEq α] in
/-- rotations with the same head are equal -/
theorem eq_of_isRotated_cons {x : α} {l l' : List α} (h : x :: l ~r x :: l') (hnodup : (x :: l).Nodup) : l = l' := by
  obtain ⟨n, heq⟩ := h
  rw [← List.rotate_mod] at heq
  have hlt : n % (x :: l).length < (x :: l).length := Nat.mod_lt n (Nat.succ_pos _)
  have hhead : (x :: l)[0]? = (x :: l)[n % (x :: l).length]? := by
    rw [← List.head?_rotate hlt, heq]
    rfl
  rw [← (List.getElem?_inj (Nat.succ_pos _) hnodup).1 hhead, List.rotate_zero] at heq
  exact (List.cons.inj heq).2

theorem Rooted.close (h : Rooted succ r t₀ new t) (hvisits : t.visits = w :: ws) (hv : v ∈ succ w.vertex)
    (hcount : ¬ 0 < t.count v) (hopen : openVisit v t.visits = some (inner, outer))
    (hinner : ∀ w ∈ inner, w.vertex ∉ w.entered) :
    Rooted succ r t₀ (new ++ [(path outer, v :: path inner)])
      { t with closed := t.closed ++ [(path outer, v :: path inner)] } := by
  have hcycle := isCycle_of_openVisit h.nested h.chain hvisits hv hopen hinner
  obtain ⟨latest, hsplit, rfl, hnot⟩ := openVisit_eq_some hopen
  have hnested := h.nested
  have hcounted := h.counted
  rw [hsplit] at hnested hcounted
  have hmem : latest ∈ t.visits := by
    rw [hsplit]
    exact List.mem_append_right inner List.mem_cons_self
  -- what was entered inside the latest visit lies in it
  have hinside : ∀ w' ∈ inner, w'.vertex ∈ latest.entered ∧ ∀ x ∈ w'.entered, x ∈ latest.entered := fun w' hw' =>
    (List.pairwise_append.1 hnested).2.2 w' hw' latest List.mem_cons_self
  have hcases : ∀ {pre v xs}, (pre, v :: xs) ∈ new ++ [(path outer, latest.vertex :: path inner)] →
      (pre, v :: xs) ∈ new ∨ pre = path outer ∧ v = latest.vertex ∧ xs = path inner := by
    intro pre v xs he
    rcases List.mem_append.1 he with he | he
    · exact Or.inl he
    · cases List.mem_singleton.1 he
      exact Or.inr ⟨rfl, rfl, rfl⟩
  refine ⟨⟨h.le.count, ?_, h.le.tangled⟩, ?_, h.nested, h.chain, h.counted, h.root, ?_, ?_, ?_, ?_, ?_⟩
  · exact h.le.closed.trans (List.prefix_append _ _)
  · rw [h.closed, List.append_assoc]
  · intro e he
    rcases List.mem_append.1 he with he | he
    · exact h.cycle e he
    · rw [List.mem_singleton.1 he]
      exact hcycle
  · intro pre v xs he
    rcases hcases he with he | ⟨rfl, rfl, rfl⟩
    · exact h.members pre v xs he
    · refine ⟨h.root latest hmem, fun x hx => ?_⟩
      obtain ⟨w', hw', rfl⟩ := mem_path.1 hx
      exact (List.pairwise_append.1 hcounted).2.2 w' hw' latest List.mem_cons_self
  · intro pre v xs he
    rcases hcases he with he | ⟨rfl, rfl, rfl⟩
    · exact h.exhausted pre v xs he
    · exact not_lt.1 hcount
  · intro pre v xs he w' outer' hsuffix hw' hnot'
    rcases hcases he with he | ⟨rfl, rfl, rfl⟩
    · exact h.latest pre v xs he w' outer' hsuffix hw' hnot'
    · -- there is one latest visit
      obtain ⟨inner', hsplit'⟩ := hsuffix
      have hopen' : openVisit w'.vertex (inner' ++ w' :: outer') = some (inner', outer') :=
        openVisit_append (hsplit' ▸ h.nested) (hw' ▸ hnot')
      rw [hw', hsplit', hopen] at hopen'
      cases hopen'
      have hsame : latest = w' := by
        rw [hsplit] at hsplit'
        exact (List.cons.inj (List.append_cancel_left hsplit')).1.symm
      subst hsame
      refine ⟨rfl, fun x hx => ?_⟩
      obtain ⟨w', hw', rfl⟩ := mem_path.1 hx
      exact (hinside w' hw').1
  · refine List.pairwise_append.2 ⟨h.once, List.pairwise_singleton _ _, ?_⟩
    intro h he _ hlast hrot
    obtain ⟨pre, c⟩ := h
    cases List.mem_singleton.1 hlast
    obtain ⟨v, xs, rfl⟩ := List.exists_cons_of_ne_nil (h.cycle _ he).ne_nil
    by_cases hv : v = latest.vertex
    · subst hv
      have hsuffix : latest :: outer <:+ t.visits := ⟨inner, hsplit.symm⟩
      rw [(h.latest pre _ xs he latest outer hsuffix rfl hnot).1, eq_of_isRotated_cons hrot (h.cycle _ he).nodup]
    · -- the head of the old cycle is open inside the new head, and the new head was entered in it
      have hvmem : v ∈ latest.vertex :: path inner := hrot.mem_iff.1 List.mem_cons_self
      obtain ⟨w', hw', rfl⟩ := mem_path.1 (List.mem_of_ne_of_mem hv hvmem)
      obtain ⟨a, b, hab⟩ := List.append_of_mem hw'
      have hsuffix : w' :: (b ++ latest :: outer) <:+ t.visits := ⟨a, by rw [hsplit, hab]; simp⟩
      have hxs := (h.latest pre _ xs he w' _ hsuffix rfl (hinner w' hw')).2
      have hnew : latest.vertex ∈ xs := List.mem_of_ne_of_mem (Ne.symm hv) (hrot.mem_iff.2 List.mem_cons_self)
      exact absurd ((hinside w' hw').2 _ (hxs _ hnew)) hnot

/-- **One tour.** -/
theorem rooted_tour (succ : α → List α) (depth : ℕ) (r : α) (ht : t.visits = []) :
    ∃ new, Rooted succ r t new (tour succ depth r t) := by
  refine tour_invariant (P := fun t' => ∃ new, Rooted succ r t new t') ?_ ?_ ?_ ?_ ⟨[], ?_⟩ ⟨[], ?_⟩
  · intro t' w ws v hvisits hv hcount hrooted
    obtain ⟨new, h⟩ := hrooted
    exact ⟨new, h.enter hvisits hv hcount⟩
  · intro t' hrooted
    obtain ⟨new, h⟩ := hrooted
    exact ⟨new, h.leave⟩
  · intro t' w ws v inner outer hvisits hv hcount hopen hinner hrooted
    obtain ⟨new, h⟩ := hrooted
    exact ⟨_, h.close hvisits hv hcount hopen hinner⟩
  · intro t' v inner outer _ _ hrooted
    obtain ⟨new, h⟩ := hrooted
    exact ⟨new, ⟨h.le.count, h.le.closed, fun _ => rfl⟩, h.closed, h.nested, h.chain, h.counted, h.root, h.cycle,
      h.members, h.exhausted, h.latest, h.once⟩
  · refine ⟨.refl t, by simp, ?_, ?_, ?_, ?_, by simp, by simp, by simp, by simp, List.Pairwise.nil⟩
    all_goals simp [ht, Nested]
  · refine ⟨le_enter r t, by simp [Tour.enter], ?_, ?_, ?_, ?_, by simp, by simp, by simp, by simp, List.Pairwise.nil⟩
    all_goals simp [ht, Nested, Tour.visits_enter]

/-! ## Single entries -/

/-- no vertex with an open visit can be entered again -/
structure Single (t : Tour α) : Prop where
  count : ∀ x, t.count x ≤ 1
  visits : ∀ w ∈ t.visits, t.count w.vertex ≤ 0 ∧ w.vertex ∉ w.entered
  tangled : t.tangled = false

theorem Single.enter (h : Single t) (hv : 0 < t.count v ∨ t.visits = []) : Single (t.enter v) where
  count x := ((le_enter v t).count x).trans (h.count x)
  visits := by
    intro w hw
    rcases List.mem_cons.1 hw with rfl | hw
    · have hcount := h.count v
      rw [Tour.count_enter, if_pos rfl]
      exact ⟨by omega, List.not_mem_nil⟩
    · obtain ⟨w', hw', rfl⟩ := List.mem_map.1 hw
      obtain ⟨hcount, hnot⟩ := h.visits w' hw'
      refine ⟨((le_enter v t).count _).trans hcount, fun hmem => ?_⟩
      rcases List.mem_cons.1 hmem with heq | hmem
      · have hpos := hv.resolve_right (List.ne_nil_of_mem hw')
        exact absurd hpos (not_lt.2 (heq ▸ hcount))
      · exact hnot hmem
  tangled := h.tangled

/-- **Single entries do not tangle.** -/
theorem single_tour (h : Single t) (ht : t.visits = []) : Single (tour succ depth r t) := by
  apply tour_invariant (P := Single) ?_ ?_ ?_ ?_ h (h.enter (Or.inr ht))
  · exact fun t' w ws v _ _ hcount ht' => ht'.enter (Or.inl hcount)
  · exact fun t' ht' => ⟨ht'.count, fun w hw => ht'.visits w (List.mem_of_mem_tail hw), ht'.tangled⟩
  · exact fun t' w ws v inner outer _ _ _ _ _ ht' => ⟨ht'.count, ht'.visits, ht'.tangled⟩
  · intro t' v inner outer hopen htangled ht'
    obtain ⟨latest, hsplit, -, -⟩ := openVisit_eq_some hopen
    refine absurd (fun w hw => (ht'.visits w ?_).2) htangled
    rw [hsplit]
    exact List.mem_append_left _ hw

/-! ## Open paths -/

/-- the open path to an edge back, and its target -/
def route (e : List α × List α) : List α := e.1 ++ e.2 ++ e.2.take 1

/-- the cycles closed between t and t' lie along different open paths, all with the same beginning -/
def Branches (start : List α) (t t' : Tour α) : Prop :=
  ∃ new, t'.closed = t.closed ++ new ∧ (new.map route).Nodup ∧ ∀ e ∈ new, start <+: route e

omit [DecidableEq α] in
theorem Branches.refl (start : List α) (t : Tour α) : Branches start t t := ⟨[], by simp⟩

omit [DecidableEq α] in
theorem eq_of_prefix_snoc {start l : List α} {x y : α} (hx : start ++ [x] <+: l) (hy : start ++ [y] <+: l) : x = y := by
  have hprefix : start ++ [x] <+: start ++ [y] := List.prefix_of_prefix_length_le hx hy (by simp)
  have heq := hprefix.eq_of_length (by simp)
  simpa using heq

omit [DecidableEq α] in
/-- edges to different targets -/
theorem branches_foldl {g : Tour α → α → Tour α} {start : List α} {P : Tour α → Prop} {l : List α}
    (hP : ∀ t v, P t → P (g t v)) (hstep : ∀ t v, P t → Branches (start ++ [v]) t (g t v)) (hl : l.Nodup) (ht : P t) :
    ∃ new, (l.foldl g t).closed = t.closed ++ new ∧ (new.map route).Nodup ∧
      ∀ e ∈ new, ∃ v ∈ l, start ++ [v] <+: route e := by
  induction l generalizing t with
  | nil => exact ⟨[], by simp⟩
  | cons v l ih =>
    obtain ⟨hv, hl⟩ := List.nodup_cons.1 hl
    obtain ⟨first, hfirst, hnodup, hstart⟩ := hstep t v ht
    obtain ⟨rest, hrest, hnodup', hstart'⟩ := ih hl (hP t v ht)
    refine ⟨first ++ rest, by rw [List.foldl_cons, hrest, hfirst, List.append_assoc], ?_, ?_⟩
    · rw [List.map_append, List.nodup_append]
      refine ⟨hnodup, hnodup', fun x hx y hy heq => ?_⟩
      obtain ⟨e, he, rfl⟩ := List.mem_map.1 hx
      obtain ⟨e', he', rfl⟩ := List.mem_map.1 hy
      obtain ⟨v', hv', hprefix⟩ := hstart' e' he'
      rw [eq_of_prefix_snoc (hstart e he) (heq ▸ hprefix)] at hv
      exact hv hv'
    · intro e he
      rcases List.mem_append.1 he with he | he
      · exact ⟨v, List.mem_cons_self, hstart e he⟩
      · obtain ⟨v', hv', hprefix⟩ := hstart' e he
        exact ⟨v', List.mem_cons_of_mem v hv', hprefix⟩

omit [DecidableEq α] in
theorem AllGrown.path {c : α → ℤ} {ws ws' : List (Visit α)} (h : AllGrown c ws ws') : path ws' = path ws := by
  have hmap : ws'.map Visit.vertex = ws.map Visit.vertex := by
    induction h with
    | nil => rfl
    | cons hw _ ih => rw [List.map_cons, List.map_cons, hw.vertex, ih]
  rw [Core.path, hmap, Core.path]

theorem path_enter (u : α) (t : Tour α) : path (t.enter u).visits = path t.visits ++ [u] := by
  simp [path, Tour.visits_enter, Function.comp_def]

/-- **Open paths differ.** -/
theorem branches_tour (hsucc : ∀ u, (succ u).Nodup) (depth : ℕ) (u : α) (t : Tour α) :
    Branches (path t.visits ++ [u]) t (tour succ depth u t) := by
  induction depth generalizing u t with
  | zero => exact .refl _ t
  | succ depth ih =>
    have hround : ∀ t v, Branches (path t.visits ++ [v]) t (follow (tour succ depth) t v) := by
      intro t v
      unfold follow
      split
      · exact ih v t
      · split
        · exact .refl _ t
        · rename_i inner outer hopen
          split_ifs
          · obtain ⟨w, hsplit, rfl, -⟩ := openVisit_eq_some hopen
            refine ⟨_, rfl, by simp, fun e he => ?_⟩
            rw [List.mem_singleton.1 he, hsplit, path_append]
            simp [route]
          · exact .refl _ t
    have hkeep : ∀ t' v, path t'.visits = path t.visits ++ [u] →
        path (follow (tour succ depth) t' v).visits = path t.visits ++ [u] := fun t' v hpath =>
      hpath ▸ (allGrown_follow (fun _ _ hv => grown_tour succ depth (Or.inl hv)) t' v).path
    obtain ⟨new, hclosed, hnodup, hstart⟩ := branches_foldl (g := follow (tour succ depth)) hkeep
      (fun t' v hpath => hpath ▸ hround t' v) (hsucc u) (path_enter u t)
    refine ⟨new, hclosed, hnodup, fun e he => ?_⟩
    obtain ⟨v, -, hprefix⟩ := hstart e he
    exact (List.prefix_append _ _).trans hprefix

/-- **The cycles of one tour differ.** -/
theorem distinct_tour (hsucc : ∀ u, (succ u).Nodup) (h : Rooted succ r t new (tour succ depth r t)) :
    new.Pairwise fun e e' => ¬ e.2 ~r e'.2 := by
  obtain ⟨new', hclosed, hnodup, -⟩ := branches_tour hsucc depth r t
  have hsame : new' = new := List.append_cancel_left (hclosed.symm.trans h.closed)
  subst hsame
  refine (h.once.and (List.Nodup.of_map route hnodup)).imp fun {e e'} he hrot => ?_
  exact he.2 (he.1 hrot)

end HawkTxn.Core
