/-
Cycles that depth-first tours close again.

A tour that goes on until no entry is left does not miss much: when a vertex is exhausted, every cycle through it whose
other vertices have entries left has been closed (`closed_of_exhausted`). Tours from vertices that are exhausted already
close such a cycle again, if there is one (`Reopens`).

Results:
- `closed_of_exhausted`, `closes_back`: cycles that a tour closes;
- `distinct_tours_iff`: tours one after the other close no cycle twice, exactly if none of them reopens.
-/
import HawkTxn.Core.TourChains

namespace HawkTxn.Core

open Tour

variable {α : Type*} [DecidableEq α] {succ : α → List α} {depth : ℕ} {u v r x y z : α} {t t₀ t₁ t' start : Tour α}
  {w : Visit α} {ws inner outer : List (Visit α)} {new : List (List α × List α)} {S : Finset α} {l ys : List α}

/-! ## Cycles that are not missed -/

omit [DecidableEq α] in
/-- a cycle from its head back to it -/
theorem IsCycle.isChain_snoc {r : α → α → Prop} (h : IsCycle r (z :: ys)) : (z :: (ys ++ [z])).IsChain r := by
  rw [← List.cons_append]
  refine List.isChain_append.2 ⟨h.chain, List.isChain_singleton z, ?_⟩
  intro x hx y hy
  rw [List.getLast?_eq_some_getLast (List.cons_ne_nil z ys)] at hx
  cases hx
  cases hy
  exact h.closes

/-- **Exhausted vertices.** A cycle whose other vertices have entries left has been closed. -/
theorem closed_of_exhausted (hroom : Room S depth u t) (hz : 0 < t.count z) (hz' : (tour succ depth u t).count z ≤ 0)
    (hcycle : IsCycle (Leads succ) (z :: ys)) (hleft : ∀ y ∈ ys, 0 < (tour succ depth u t).count y)
    (htangled : (tour succ depth u t).tangled = false) : ∃ pre, (pre, z :: ys) ∈ (tour succ depth u t).closed := by
  induction depth generalizing u t with
  | zero => exact absurd hroom.left (Nat.not_lt_zero _)
  | succ depth ih =>
    by_cases henter : (t.enter u).count z ≤ 0
    · have heq : z = u := by
        by_contra hne
        rw [Tour.count_enter, if_neg hne] at henter
        exact absurd hz (not_lt.2 henter)
      subst heq
      -- no edge to a vertex with entries left is passed over
      have hkept : (z :: (ys ++ [z])).IsChain fun x y =>
          Leads succ x y ∧ ((x, y) ∈ passedOver succ (depth + 1) z t → y = z) := by
        refine hcycle.isChain_snoc.imp_of_mem_imp fun x y _ hy hxy => ⟨hxy, fun hpassed => ?_⟩
        by_contra hne
        have hmem : y ∈ ys := by simpa [hne] using hy
        exact absurd (hleft y hmem) (not_lt.2 (count_of_passedOver hpassed))
      have hys : ∀ y ∈ ys, Unmarked (t.enter z) y := by
        intro y hy
        refine Or.inl ((hleft y hy).trans_le ?_)
        exact (le_foldl_follow (le_tour succ depth) (succ z) (t.enter z)).count y
      exact closed_of_chain hroom henter openVisit_enter_self hkept hcycle.nodup hys htangled
    · obtain ⟨t₁, v, hstage, hv, hbefore, hafter⟩ := exists_stage_of_lt hroom.inVisit
        (Int.add_one_le_of_lt (not_le.1 henter)) (lt_of_le_of_lt hz' Int.zero_lt_one)
      have hle := hstage.after_visit hv
      obtain ⟨pre, hpre⟩ := ih (hstage.room hv) (by omega) (by omega)
        (fun y hy => (hleft y hy).trans_le (hle.count y)) (hle.untangled htangled)
      exact ⟨pre, hle.closed.subset hpre⟩

/-! ## Edges that a tour does not miss -/

/-- the targets of a vertex that was entered have been entered, if they had entries left -/
theorem count_lt_of_leads (hroom : Room S depth u t) (hx : (tour succ depth u t).count x < t.count x) (hy : y ∈ succ x)
    (hcount : 0 < t.count y) : (tour succ depth u t).count y < t.count y := by
  induction depth generalizing u t with
  | zero => exact absurd hroom.left (Nat.not_lt_zero _)
  | succ depth ih =>
    have hbefore : ∀ {t₁ v}, Stage succ S depth u t t₁ v → t₁.count y ≤ t.count y := fun hstage =>
      (hstage.before.count y).trans ((le_enter u t).count y)
    have hafter : ∀ {t₁ v}, Stage succ S depth u t t₁ v → (tour succ (depth + 1) u t).count y ≤ t₁.count y := by
      intro t₁ v hstage
      exact (hstage.after.count y).trans ((le_follow (le_tour succ depth) t₁ v).count y)
    by_cases hxu : x = u
    · subst hxu
      obtain ⟨t₁, hstage⟩ := exists_stage hroom.inVisit hy
      by_cases hy₁ : 0 < t₁.count y
      · have hdepth : 0 < depth := lt_of_le_of_lt (Nat.zero_le _) (hstage.room hy₁).left
        calc (tour succ (depth + 1) x t).count y ≤ (tour succ depth y t₁).count y := (hstage.after_visit hy₁).count y
          _ < t₁.count y := count_tour_lt succ hdepth
          _ ≤ t.count y := hbefore hstage
      · have := hafter hstage
        omega
    · have henter : t.count x ≤ (t.enter u).count x := by
        rw [Tour.count_enter, if_neg hxu]
      obtain ⟨t₁, v, hstage, hv, hx₁, hx₂⟩ := exists_stage_of_lt hroom.inVisit henter hx
      by_cases hy₁ : 0 < t₁.count y
      · calc (tour succ (depth + 1) u t).count y ≤ (tour succ depth v t₁).count y := (hstage.after_visit hv).count y
          _ < t₁.count y := ih (hstage.room hv) (lt_of_lt_of_le hx₂ hx₁) hy₁
          _ ≤ t.count y := hbefore hstage
      · have := hafter hstage
        omega

/-- a vertex that was entered and leads back to an exhausted one whose visit is open has closed a cycle -/
theorem closes_back (hroom : Room S depth u t) (hz : (t.enter u).count z ≤ 0)
    (hopen : (openVisit z (t.enter u).visits).isSome) (hx : (tour succ depth u t).count x < t.count x)
    (hzx : z ∈ succ x) (htangled : (tour succ depth u t).tangled = false) :
    ∃ old e, t.closed <+: old ∧ old ++ [e] <+: (tour succ depth u t).closed ∧ e.2.head? = some z := by
  induction depth generalizing u t with
  | zero => exact absurd hroom.left (Nat.not_lt_zero _)
  | succ depth ih =>
    obtain ⟨⟨inner, outer⟩, hopen⟩ := Option.isSome_iff_exists.1 hopen
    by_cases hxu : x = u
    · subst hxu
      obtain ⟨t₁, hstage⟩ := exists_stage hroom.inVisit hzx
      obtain ⟨pre, hpre⟩ := hstage.closes hz hopen htangled
      exact ⟨t₁.closed, (pre, z :: path inner), hstage.before.closed, hpre, rfl⟩
    · have henter : t.count x ≤ (t.enter u).count x := by
        rw [Tour.count_enter, if_neg hxu]
      obtain ⟨t₁, v, hstage, hv, hx₁, hx₂⟩ := exists_stage_of_lt hroom.inVisit henter hx
      have hz₁ : t₁.count z ≤ 0 := (hstage.before.count z).trans hz
      have hne : z ≠ v := by
        intro heq
        exact absurd hv (not_lt.2 (heq ▸ hz₁))
      obtain ⟨inner', outer', hopen', -⟩ := openVisit_grown hstage.grown hz hopen
      have hopen₁ : (openVisit z (t₁.enter v).visits).isSome := by
        rw [isSome_openVisit_enter hne, hopen']
        rfl
      have hle := hstage.after_visit hv
      obtain ⟨old, e, hold, he, hhead⟩ := ih (hstage.room hv) (((le_enter v t₁).count z).trans hz₁) hopen₁
        (lt_of_lt_of_le hx₂ hx₁) (hle.untangled htangled)
      exact ⟨old, e, (hstage.before.closed).trans hold, he.trans hle.closed, hhead⟩

/-! ## Repeats -/

/-- the vertex is exhausted, and there is a cycle through it whose other vertices have entries left -/
def Reopens (succ : α → List α) (t : Tour α) (u : α) : Prop :=
  t.count u ≤ 0 ∧ ∃ c, IsCycle (Leads succ) (u :: c) ∧ ∀ x ∈ c, 0 < t.count x

/-- no two of the cycles closed are the same up to rotation -/
def Distinct (t : Tour α) : Prop := t.closed.Pairwise fun e e' => ¬ e.2 ~r e'.2

/-- what holds between two tours -/
structure Explored (succ : α → List α) (start t : Tour α) : Prop where
  visits : t.visits = []
  le : Tour.Le start t
  heads : ∀ e ∈ t.closed, ∃ v xs, e.2 = v :: xs ∧ t.count v ≤ 0
  complete : ∀ z ys, 0 < start.count z → t.count z ≤ 0 → IsCycle (Leads succ) (z :: ys) → (∀ y ∈ ys, 0 < t.count y) →
    ∃ pre, (pre, z :: ys) ∈ t.closed

theorem Explored.tour (h : Explored succ start t) (hroom : Room S depth u t)
    (htangled : (tour succ depth u t).tangled = false) : Explored succ start (tour succ depth u t) := by
  have hle := le_tour succ depth u t
  obtain ⟨new, hrooted⟩ := rooted_tour succ depth u h.visits
  refine ⟨?_, h.le.trans hle, ?_, ?_⟩
  · have hgrown := grown_tour succ depth (u := u) (Or.inr h.visits)
    rw [h.visits] at hgrown
    exact List.forall₂_nil_left_iff.1 hgrown
  · intro e he
    rw [hrooted.closed] at he
    rcases List.mem_append.1 he with he | he
    · obtain ⟨v, xs, hv, hcount⟩ := h.heads e he
      exact ⟨v, xs, hv, (hle.count v).trans hcount⟩
    · obtain ⟨pre, c⟩ := e
      obtain ⟨v, xs, rfl⟩ := List.exists_cons_of_ne_nil (hrooted.cycle _ he).ne_nil
      exact ⟨v, xs, rfl, hrooted.exhausted pre v xs he⟩
  · intro z ys hstart hz hcycle hleft
    by_cases hbefore : 0 < t.count z
    · exact closed_of_exhausted hroom hbefore hz hcycle hleft htangled
    · obtain ⟨pre, hpre⟩ := h.complete z ys hstart (not_lt.1 hbefore) hcycle fun y hy =>
        (hleft y hy).trans_le (hle.count y)
      exact ⟨pre, hle.closed.subset hpre⟩

/-- a chain out of an entered vertex, of vertices with entries left, is entered to its end -/
theorem exists_entered_of_chain (hroom : Room S depth u t) (hx : (tour succ depth u t).count x < t.count x)
    (hchain : (x :: (ys ++ [z])).IsChain (Leads succ)) (hleft : ∀ y ∈ ys, 0 < t.count y) :
    ∃ y, (tour succ depth u t).count y < t.count y ∧ z ∈ succ y := by
  induction ys generalizing x with
  | nil => exact ⟨x, hx, (List.isChain_cons_cons.1 hchain).1⟩
  | cons y ys ih =>
    rw [List.cons_append] at hchain
    obtain ⟨hxy, hchain⟩ := List.isChain_cons_cons.1 hchain
    exact ih (count_lt_of_leads hroom hx hxy (hleft y List.mem_cons_self)) hchain
      fun y' hy' => hleft y' (List.mem_cons_of_mem y hy')

/-- **A tour that reopens a vertex closes a cycle again.** -/
theorem repeats_of_reopens (h : Explored succ start t) (hu : 0 < start.count u) (hroom : Room S depth u t)
    (htangled : (tour succ depth u t).tangled = false) (hrooted : Rooted succ u t new (tour succ depth u t))
    (hreopens : Reopens succ t u) : ∃ e ∈ t.closed, ∃ e' ∈ new, e.2 = e'.2 := by
  obtain ⟨hcount, c, hcycle, hleft⟩ := hreopens
  have hdepth : 0 < depth := lt_of_le_of_lt (Nat.zero_le _) hroom.left
  obtain ⟨x, hx, hux⟩ := exists_entered_of_chain hroom (count_tour_lt succ hdepth) hcycle.isChain_snoc hleft
  have hopen : (openVisit u (t.enter u).visits).isSome := by
    rw [openVisit_enter_self]
    rfl
  obtain ⟨old, ⟨pre, c'⟩, ⟨a, rfl⟩, ⟨b, hb⟩, hhead⟩ :=
    closes_back hroom (((le_enter u t).count u).trans hcount) hopen hx hux htangled
  have hnew : (pre, c') ∈ new := by
    rw [hrooted.closed, List.append_assoc, List.append_assoc] at hb
    rw [← List.append_cancel_left hb]
    exact List.mem_append_right _ List.mem_cons_self
  obtain ⟨xs, rfl⟩ := List.head?_eq_some_iff.1 hhead
  obtain ⟨pre', hold⟩ := h.complete u xs hu hcount (hrooted.cycle _ hnew) (hrooted.members pre u xs hnew).2
  exact ⟨_, hold, _, hnew, rfl⟩

/-- **Repeats of one tour.** -/
theorem distinct_tour_iff (hsucc : ∀ u, (succ u).Nodup) (h : Explored succ start t) (hu : 0 < start.count u)
    (hroom : Room S depth u t) (htangled : (tour succ depth u t).tangled = false) :
    Distinct (tour succ depth u t) ↔ Distinct t ∧ ¬ Reopens succ t u := by
  obtain ⟨new, hrooted⟩ := rooted_tour succ depth u h.visits
  rw [Distinct, hrooted.closed, List.pairwise_append]
  refine ⟨?_, ?_⟩
  · intro h
    obtain ⟨hold, -, hcross⟩ := h
    refine ⟨hold, fun hreopens => ?_⟩
    obtain ⟨e, he, e', he', heq⟩ := repeats_of_reopens h hu hroom htangled hrooted hreopens
    exact hcross e he e' he' (heq ▸ List.IsRotated.refl _)
  · intro h
    obtain ⟨hold, hnot⟩ := h
    refine ⟨hold, distinct_tour hsucc hrooted, ?_⟩
    intro e he h he' hrot
    obtain ⟨pre, c⟩ := h
    obtain ⟨v, xs, hv, hcount⟩ := h.heads e he
    obtain ⟨v', xs', rfl⟩ := List.exists_cons_of_ne_nil (hrooted.cycle _ he').ne_nil
    obtain ⟨hhead, hleft⟩ := hrooted.members pre v' xs' he'
    -- the other vertices of the new cycle were not exhausted, so the heads are the same vertex
    have hmem : v ∈ v' :: xs' := by
      apply hrot.mem_iff.1
      rw [hv]
      exact List.mem_cons_self
    have heq : v = v' := by
      rcases List.mem_cons.1 hmem with heq | hmem
      · exact heq
      · exact absurd (hleft v hmem) (not_lt.2 hcount)
    subst heq
    have hroot : v = u := hhead.resolve_right (not_lt.2 hcount)
    subst hroot
    exact hnot ⟨hcount, xs', hrooted.cycle _ he', hleft⟩

/-- **Repeats.** -/
theorem distinct_tours_iff (hsucc : ∀ u, (succ u).Nodup) (hdepth : entriesLeft S start < depth)
    (hmem : ∀ x, 0 < start.count x → x ∈ S) {roots : List α} (hroots : ∀ u ∈ roots, 0 < start.count u)
    (h : Explored succ start t)
    (htangled : (roots.foldl (fun t u => tour succ depth u t) t).tangled = false) :
    Distinct (roots.foldl (fun t u => tour succ depth u t) t) ↔
      Distinct t ∧ ∀ pre u post, roots = pre ++ u :: post →
        ¬ Reopens succ (pre.foldl (fun t u => tour succ depth u t) t) u := by
  induction roots generalizing t with
  | nil => simp
  | cons u roots ih =>
    have hroom : Room S depth u t := .of_le hdepth hmem h.le
    have hrest := le_tours succ depth roots (tour succ depth u t)
    have hfirst := hrest.untangled htangled
    rw [List.foldl_cons, ih (fun v hv => hroots v (List.mem_cons_of_mem u hv)) (h.tour hroom hfirst) htangled,
      distinct_tour_iff hsucc h (hroots u List.mem_cons_self) hroom hfirst]
    refine ⟨?_, ?_⟩
    · intro h
      obtain ⟨⟨hdistinct, hnot⟩, hlater⟩ := h
      refine ⟨hdistinct, fun pre v post hsplit => ?_⟩
      cases pre with
      | nil =>
        cases hsplit
        exact hnot
      | cons _ pre =>
        cases hsplit
        exact hlater pre v post rfl
    · intro h
      obtain ⟨hdistinct, hnot⟩ := h
      refine ⟨⟨hdistinct, hnot [] u roots rfl⟩, fun pre v post hsplit => ?_⟩
      exact hnot (u :: pre) v post (by rw [hsplit]; rfl)

end HawkTxn.Core
