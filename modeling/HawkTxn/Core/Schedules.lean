/-
Schedules of locked accesses, and strict two-phase locking.

A schedule lists accesses to resources and the ends of transactions. Two accesses of one resource by two transactions
conflict unless both only read. In a `Strict` schedule an access comes after the ends of all transactions it conflicts
with, and nothing comes after the end of its own transaction.

`serial h` runs the finished transactions one at a time, in the order of their ends.

- `Strict.acyclic`: no transaction precedes itself;
- `Strict.conflict_equivalent`: conflicting accesses of finished transactions come in the same order as in `serial h`;
- `strict_append_access`, `strict_append_finish`: a strict schedule with one more event.
-/
import HawkTxn.Core.Loops

namespace HawkTxn.Core

/-! ## Order in a list -/

section Before

variable {α β : Type*} {l : List α} {a b e : α}

/-- some occurrence of a comes before some occurrence of b -/
def Before (l : List α) (a b : α) : Prop := ∃ pre suf, l = pre ++ b :: suf ∧ a ∈ pre

theorem Before.left (h : Before l a b) : a ∈ l := by
  obtain ⟨pre, suf, rfl, ha⟩ := h
  exact List.mem_append_left _ ha

theorem Before.right (h : Before l a b) : b ∈ l := by
  obtain ⟨pre, suf, rfl, -⟩ := h
  simp

/-- a split of a list with one more element -/
theorem append_singleton_eq_split {pre suf : List α} (h : l ++ [e] = pre ++ b :: suf) :
    (pre = l ∧ b = e ∧ suf = []) ∨ ∃ suf', suf = suf' ++ [e] ∧ l = pre ++ b :: suf' := by
  rcases List.eq_nil_or_concat suf with rfl | ⟨suf', c, rfl⟩
  · obtain ⟨hpre, hb⟩ := List.append_inj' h rfl
    exact Or.inl ⟨hpre.symm, (List.singleton_inj.1 hb).symm, rfl⟩
  · have hassoc : l ++ [e] = (pre ++ b :: suf') ++ [c] := by simpa using h
    obtain ⟨hl, hc⟩ := List.append_inj' hassoc rfl
    exact Or.inr ⟨suf', by rw [List.singleton_inj.1 hc, List.concat_eq_append], hl⟩

theorem before_cons {c : α} : Before (c :: l) a b ↔ a = c ∧ b ∈ l ∨ Before l a b := by
  refine ⟨?_, ?_⟩
  · intro h
    obtain ⟨pre, suf, heq, ha⟩ := h
    cases pre with
    | nil => exact absurd ha List.not_mem_nil
    | cons c' pre =>
      obtain ⟨rfl, rfl⟩ := List.cons.inj heq
      rcases List.mem_cons.1 ha with rfl | ha
      · exact Or.inl ⟨rfl, by simp⟩
      · exact Or.inr ⟨pre, suf, rfl, ha⟩
  · rintro (⟨rfl, hb⟩ | ⟨pre, suf, rfl, ha⟩)
    · obtain ⟨pre, suf, rfl⟩ := List.append_of_mem hb
      exact ⟨a :: pre, suf, rfl, List.mem_cons_self⟩
    · exact ⟨c :: pre, suf, rfl, List.mem_cons_of_mem c ha⟩

theorem not_before_nil : ¬ Before ([] : List α) a b := by
  intro h
  exact absurd h.left List.not_mem_nil

theorem before_append {l' : List α} :
    Before (l ++ l') a b ↔ Before l a b ∨ (a ∈ l ∧ b ∈ l') ∨ Before l' a b := by
  induction l with
  | nil => simp [not_before_nil]
  | cons c l ih =>
    rw [List.cons_append, before_cons, before_cons, ih, List.mem_append, List.mem_cons]
    tauto

theorem before_or_before (ha : a ∈ l) (hb : b ∈ l) (hne : a ≠ b) : Before l a b ∨ Before l b a := by
  obtain ⟨pre, suf, rfl⟩ := List.append_of_mem hb
  rw [before_append, before_append, before_cons, before_cons]
  rcases List.mem_append.1 ha with ha | ha
  · exact Or.inl (Or.inr (Or.inl ⟨ha, List.mem_cons_self⟩))
  · exact Or.inr (Or.inr (Or.inr (Or.inl ⟨rfl, (List.mem_cons.1 ha).resolve_left hne⟩)))

theorem nodup_of_not_before (h : ∀ a, ¬ Before l a a) : l.Nodup := by
  induction l with
  | nil => exact List.nodup_nil
  | cons c l ih =>
    refine List.nodup_cons.2 ⟨fun hc => h c (before_cons.2 (Or.inl ⟨rfl, hc⟩)), ih fun a ha => ?_⟩
    exact h a (before_cons.2 (Or.inr ha))

theorem Before.trans {c : α} (h : Before l a b) (hb : ¬ Before l b b) (h' : Before l b c) : Before l a c := by
  induction l with
  | nil => exact absurd h not_before_nil
  | cons x l ih =>
    have hhead : b = x → b ∉ l := fun hbx hbl => hb (before_cons.2 (Or.inl ⟨hbx, hbl⟩))
    rw [before_cons] at h h' ⊢
    rcases h with ⟨rfl, hbl⟩ | h
    · rcases h' with ⟨hbx, -⟩ | h'
      · exact absurd hbl (hhead hbx)
      · exact Or.inl ⟨rfl, h'.right⟩
    · rcases h' with ⟨hbx, -⟩ | h'
      · exact absurd h.right (hhead hbx)
      · exact Or.inr (ih h (fun hbb => hb (before_cons.2 (Or.inr hbb))) h')

/-- before b comes a, and c comes nowhere before b, so c comes after a -/
theorem Before.of_not_before {c : α} (h : Before l a b) (hc : c ∈ l) (hcb : ¬ Before l c b) :
    Before l a c := by
  obtain ⟨pre, suf, rfl, ha⟩ := h
  rw [before_append]
  refine Or.inr (Or.inl ⟨ha, ?_⟩)
  rcases List.mem_append.1 hc with hc | hc
  · exact absurd ⟨pre, suf, rfl, hc⟩ hcb
  · exact hc

/-- what comes first in a list made of blocks comes first in its block, or its block comes first -/
theorem before_flatMap {f : β → List α} {k : α → β} {l : List β} (hkey : ∀ c ∈ l, ∀ x ∈ f c, k x = c)
    (h : Before (l.flatMap f) a b) : Before l (k a) (k b) ∨ k a = k b := by
  induction l with
  | nil => exact absurd h not_before_nil
  | cons c l ih =>
    have hrest : ∀ c ∈ l, ∀ x ∈ f c, k x = c := fun c' hc' => hkey c' (List.mem_cons_of_mem c hc')
    have hin : ∀ {x}, x ∈ l.flatMap f → k x ∈ l := by
      intro x hx
      obtain ⟨c', hc', hx⟩ := List.mem_flatMap.1 hx
      rw [hrest c' hc' x hx]; exact hc'
    rw [List.flatMap_cons, before_append] at h
    rw [before_cons]
    rcases h with h | ⟨ha, hb⟩ | h
    · exact Or.inr ((hkey c List.mem_cons_self a h.left).trans (hkey c List.mem_cons_self b h.right).symm)
    · exact Or.inl (Or.inl ⟨hkey c List.mem_cons_self a ha, hin hb⟩)
    · exact (ih hrest h).imp Or.inr id

theorem Before.flatMap {f : β → List α} {l : List β} {c d : β} (h : Before l c d) (ha : a ∈ f c) (hb : b ∈ f d) :
    Before (l.flatMap f) a b := by
  obtain ⟨pre, suf, rfl, hc⟩ := h
  rw [List.flatMap_append, List.flatMap_cons, before_append]
  exact Or.inr (Or.inl ⟨List.mem_flatMap.2 ⟨c, hc, ha⟩, List.mem_append_left _ hb⟩)

end Before

/-! ## Schedules -/

/-- what a schedule lists -/
inductive ScheduleEvent (τ ρ : Type*) where
  | access (t : τ) (r : ρ) (write : Bool)
  | finish (t : τ)
deriving DecidableEq

abbrev Schedule (τ ρ : Type*) := List (ScheduleEvent τ ρ)

variable {τ ρ : Type*} {h : Schedule τ ρ} {t u v : τ} {r : ρ} {w w' : Bool}

/-- whose event it is -/
def ScheduleEvent.owner : ScheduleEvent τ ρ → τ
  | access t _ _ => t
  | finish t => t

/-- t has an access that comes before a conflicting access of u -/
def Precedes (h : Schedule τ ρ) (t u : τ) : Prop :=
  t ≠ u ∧ ∃ r w w', Before h (.access t r w) (.access u r w') ∧ (w = true ∨ w' = true)

/-- **Strict two-phase locking.** A transaction's accesses exclude conflicting ones until it has ended. -/
structure Strict (h : Schedule τ ρ) : Prop where
  excludes : ∀ pre suf t u r w w', h = pre ++ .access u r w' :: suf → .access t r w ∈ pre → t ≠ u →
    w = true ∨ w' = true → .finish t ∈ pre
  closed : ∀ pre suf e, h = pre ++ e :: suf → .finish e.owner ∉ pre

theorem strict_nil : Strict ([] : Schedule τ ρ) where
  excludes := by simp
  closed := by simp

theorem strict_append_finish (hs : Strict h) (hnew : .finish t ∉ h) : Strict (h ++ [.finish t]) where
  excludes pre suf t' u r w w' heq := by
    rcases append_singleton_eq_split heq with ⟨-, hb, -⟩ | ⟨suf', -, hpre⟩
    · cases hb
    · exact hs.excludes pre suf' t' u r w w' hpre
  closed pre suf e heq := by
    rcases append_singleton_eq_split heq with ⟨rfl, rfl, -⟩ | ⟨suf', -, hpre⟩
    · exact hnew
    · exact hs.closed pre suf' e hpre

theorem strict_append_access (hs : Strict h) (hopen : .finish u ∉ h)
    (hfree : ∀ t w, .access t r w ∈ h → t ≠ u → w = true ∨ w' = true → .finish t ∈ h) :
    Strict (h ++ [.access u r w']) where
  excludes pre suf t' u' r' w₁ w₂ heq := by
    rcases append_singleton_eq_split heq with ⟨rfl, hb, -⟩ | ⟨suf', -, hpre⟩
    · cases hb; exact hfree t' w₁
    · exact hs.excludes pre suf' t' u' r' w₁ w₂ hpre
  closed pre suf e heq := by
    rcases append_singleton_eq_split heq with ⟨rfl, rfl, -⟩ | ⟨suf', -, hpre⟩
    · exact hopen
    · exact hs.closed pre suf' e hpre

namespace Strict

/-- nothing of a transaction comes after its end -/
theorem not_before (hs : Strict h) {e : ScheduleEvent τ ρ} : ¬ Before h (.finish e.owner) e := by
  intro hb
  obtain ⟨pre, suf, heq, hmem⟩ := hb
  exact hs.closed pre suf e heq hmem

/-- a transaction that precedes another one has ended before the other one does -/
theorem finish_before (hs : Strict h) (hp : Precedes h t u) :
    .finish t ∈ h ∧ (.finish u ∈ h → Before h (.finish t) (.finish u)) := by
  obtain ⟨hne, r, w, w', ⟨pre, suf, heq, hmem⟩, hconflict⟩ := hp
  have hend : Before h (.finish t) (.access u r w') :=
    ⟨pre, suf, heq, hs.excludes pre suf t u r w w' heq hmem hne hconflict⟩
  exact ⟨hend.left, fun hu => hend.of_not_before hu (hs.not_before (e := .access u r w'))⟩

theorem not_before_self (hs : Strict h) : ¬ Before h (.finish t) (.finish t : ScheduleEvent τ ρ) :=
  hs.not_before (e := .finish t)

/-- **Acyclicity.** -/
theorem acyclic (hs : Strict h) (t : τ) : ¬ Relation.TransGen (Precedes h) t t := by
  -- along the precedence the ends come one after the other
  have hends : ∀ u, Relation.TransGen (Precedes h) t u →
      .finish t ∈ h ∧ (.finish u ∈ h → Before h (.finish t) (.finish u)) := by
    intro u hpath
    induction hpath with
    | single hp => exact hs.finish_before hp
    | tail _ hp ih =>
      obtain ⟨hmid, hlast⟩ := hs.finish_before hp
      exact ⟨ih.1, fun hu => (ih.2 hmid).trans hs.not_before_self (hlast hu)⟩
  intro hcycle
  obtain ⟨hmem, hlast⟩ := hends t hcycle
  exact hs.not_before_self (hlast hmem)

end Strict

/-! ## The serial schedule -/

/-- the finished transactions, in the order of their ends -/
def order (h : Schedule τ ρ) : List τ := h.filterMap fun
  | .finish t => some t
  | .access .. => none

/-- the finished transactions one at a time, each with its events in the order they have in h -/
def serial [DecidableEq τ] (h : Schedule τ ρ) : Schedule τ ρ :=
  (order h).flatMap fun t => h.filter fun e => e.owner = t

theorem mem_order : t ∈ order h ↔ .finish t ∈ h := by
  induction h with
  | nil => simp [order]
  | cons e h ih =>
    unfold order at ih ⊢
    cases e <;> simp [ih]

theorem before_order : Before (order h) t u ↔ Before h (.finish t) (.finish u : ScheduleEvent τ ρ) := by
  induction h with
  | nil => simp [order, not_before_nil]
  | cons e h ih =>
    cases e with
    | access t' r w =>
      have hskip : order (.access t' r w :: h) = order h := rfl
      rw [hskip, before_cons, ih]
      simp
    | finish t' =>
      have hcons : order (.finish t' :: h : Schedule τ ρ) = t' :: order h := rfl
      rw [hcons, before_cons, before_cons, ih, mem_order]
      simp

theorem Strict.nodup_order (hs : Strict h) : (order h).Nodup :=
  nodup_of_not_before fun _ hb => hs.not_before_self (before_order.1 hb)

variable [DecidableEq τ]

/-- **Conflict equivalence.** Conflicting accesses of finished transactions come in the same order as when the
transactions run one at a time. -/
theorem Strict.conflict_equivalent (hs : Strict h) (ht : .finish t ∈ h) (hu : .finish u ∈ h) (hne : t ≠ u)
    (hconflict : w = true ∨ w' = true) :
    Before h (.access t r w) (.access u r w') ↔ Before (serial h) (.access t r w) (.access u r w') := by
  refine ⟨?_, ?_⟩
  · intro hb
    have hends := (hs.finish_before ⟨hne, r, w, w', hb, hconflict⟩).2 hu
    refine (before_order.2 hends).flatMap ?_ ?_
    · exact List.mem_filter.2 ⟨hb.left, by simp [ScheduleEvent.owner]⟩
    · exact List.mem_filter.2 ⟨hb.right, by simp [ScheduleEvent.owner]⟩
  · intro hb
    have hkey : ∀ c ∈ order h, ∀ x ∈ h.filter (fun e => e.owner = c), x.owner = c :=
      fun c _ x hx => of_decide_eq_true (List.mem_filter.1 hx).2
    have hsame : ∀ {e}, e ∈ serial h → e ∈ h := by
      intro e he
      obtain ⟨c, -, he⟩ := List.mem_flatMap.1 he
      exact (List.mem_filter.1 he).1
    have hends : Before h (.finish t) (.finish u) := before_order.1 ((before_flatMap hkey hb).resolve_right hne)
    -- the other way round the ends would be the other way round as well
    refine (before_or_before (hsame hb.left) (hsame hb.right) (by simp [hne])).resolve_right fun hback => ?_
    have hback := (hs.finish_before ⟨hne.symm, r, w', w, hback, hconflict.symm⟩).2 ht
    exact hs.not_before_self (hends.trans hs.not_before_self hback)

/-- the serial schedule has the events of the finished transactions, and no others -/
theorem Strict.serial_perm [DecidableEq ρ] (hs : Strict h) :
    (serial h).Perm (h.filter fun e => .finish e.owner ∈ h) := by
  rw [List.perm_iff_count]
  intro e
  have hkey : ∀ c ∈ order h, ∀ x ∈ h.filter (fun e => e.owner = c), x.owner = c :=
    fun c _ x hx => of_decide_eq_true (List.mem_filter.1 hx).2
  by_cases hfinished : .finish e.owner ∈ h
  · have hown : (serial h).count e = (h.filter fun x => x.owner = e.owner).count e := by
      rw [← filter_flatMap_of_key hs.nodup_order (mem_order.2 hfinished) hkey]
      exact (List.count_filter (by simp)).symm
    rw [hown, List.count_filter (by simp), List.count_filter (by simp [hfinished])]
  · rw [List.count_eq_zero_of_not_mem, List.count_eq_zero_of_not_mem]
    · exact fun he => hfinished (of_decide_eq_true (List.mem_filter.1 he).2)
    · intro he
      obtain ⟨c, hc, he⟩ := List.mem_flatMap.1 he
      exact hfinished (hkey c hc e he ▸ mem_order.1 hc)

end HawkTxn.Core
