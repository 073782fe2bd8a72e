/-
A growing counter that is read from time to time.

The units counted are told apart by the value they raise the counter from: unit k raises it from k. A reading runs from
the value at the reading before it to the value now; the first one runs from the initial value. Of the readings made,
only some are used.

`Chained.used_once_iff`: every unit counted before a used reading is in exactly one used reading, precisely if the
counter stands still at each unused reading that comes before a used one.
-/
import Mathlib.Tactic

namespace HawkTxn.Core

universe u v

structure Reading (α : Type u) where
  prev : α
  cur : α
deriving DecidableEq

variable {α : Type u} {β : Type v} [LinearOrder α]

/-- unit k was counted since the reading before -/
def Reading.Covers (r : Reading α) (k : α) : Prop := r.prev ≤ k ∧ k < r.cur

instance (r : Reading α) (k : α) : Decidable (r.Covers k) := inferInstanceAs (Decidable (_ ∧ _))

/-- the readings of the entries lead from the first value to the last, each from where the one before it ended -/
inductive Chained (reading : β → Reading α) : α → List β → α → Prop where
  | nil {a : α} : Chained reading a [] a
  | cons {x : β} {l : List β} {b : α} : (reading x).prev ≤ (reading x).cur → Chained reading (reading x).cur l b →
      Chained reading (reading x).prev (x :: l) b

variable {reading : β → Reading α} {a b : α} {l : List β}

/-- one more reading -/
theorem Chained.concat {x : β} (h : Chained reading a l b) (hprev : (reading x).prev = b)
    (hle : b ≤ (reading x).cur) : Chained reading a (l ++ [x]) (reading x).cur := by
  induction h with
  | nil =>
    subst hprev
    exact .cons hle .nil
  | cons hstep _ ih => exact .cons hstep (ih hprev hle)

theorem Chained.le_prev {x : β} (h : Chained reading a l b) (hx : x ∈ l) : a ≤ (reading x).prev := by
  induction h with
  | nil => simp at hx
  | cons hstep _ ih =>
    rcases List.mem_cons.1 hx with rfl | hx
    · exact le_rfl
    · exact hstep.trans (ih hx)

theorem Chained.prev_le_cur {x : β} (h : Chained reading a l b) (hx : x ∈ l) : (reading x).prev ≤ (reading x).cur := by
  induction h with
  | nil => simp at hx
  | cons hstep _ ih =>
    rcases List.mem_cons.1 hx with rfl | hx
    · exact hstep
    · exact ih hx

variable {used : β → Prop} [DecidablePred used]

/-- a unit counted before the first of the readings is in none of them -/
theorem Chained.countP_eq_zero {k : α} (h : Chained reading a l b) (hk : k < a) :
    l.countP (fun x => used x ∧ (reading x).Covers k) = 0 := by
  rw [List.countP_eq_zero]
  intro x hx hcovers
  have hprev : (reading x).prev ≤ k := (of_decide_eq_true hcovers).2.1
  exact absurd (hk.trans_le (h.le_prev hx)) hprev.not_gt

/-- a unit counted before the end of the first reading is in that one only -/
theorem countP_cons_of_lt {x : β} {k : α} (h : Chained reading (reading x).cur l b) (hprev : (reading x).prev ≤ k)
    (hcur : k < (reading x).cur) :
    (x :: l).countP (fun y => used y ∧ (reading y).Covers k) = if used x then 1 else 0 := by
  have hcovers : (reading x).Covers k := ⟨hprev, hcur⟩
  rw [List.countP_cons, h.countP_eq_zero hcur]
  simp [hcovers]

/-- a later one is in those after it -/
theorem countP_cons_of_le {x : β} {k : α} (hk : (reading x).cur ≤ k) :
    (x :: l).countP (fun y => used y ∧ (reading y).Covers k) =
      l.countP (fun y => used y ∧ (reading y).Covers k) := by
  apply List.countP_cons_of_neg
  intro hcovers
  exact absurd (of_decide_eq_true hcovers).2.2 hk.not_gt

/-- **Every unit once.** -/
theorem Chained.used_once_iff (h : Chained reading a l b) :
    (∀ x ∈ l, used x → ∀ k, a ≤ k → k < (reading x).cur →
      l.countP (fun y => used y ∧ (reading y).Covers k) = 1) ↔
    l.Pairwise fun x y => ¬ used x → used y → (reading x).prev = (reading x).cur := by
  induction h with
  | nil => simp
  | @cons x l b hstep hrest ih =>
    rw [List.pairwise_cons, ← ih]
    refine ⟨?_, ?_⟩
    · intro hall
      refine ⟨?_, ?_⟩
      · intro y hy hx hused
        by_contra hne
        have hlt : (reading x).prev < (reading x).cur := lt_of_le_of_ne hstep hne
        have hend : (reading x).prev < (reading y).cur := calc
          (reading x).prev < (reading x).cur := hlt
          _ ≤ (reading y).prev := hrest.le_prev hy
          _ ≤ (reading y).cur := hrest.prev_le_cur hy
        have hone := hall y (List.mem_cons_of_mem x hy) hused (reading x).prev le_rfl hend
        rw [countP_cons_of_lt hrest le_rfl hlt, if_neg hx] at hone
        exact absurd hone zero_ne_one
      · intro y hy hused k hk hend
        rw [← countP_cons_of_le hk]
        exact hall y (List.mem_cons_of_mem x hy) hused k (hstep.trans hk) hend
    · intro hall y hy hused k hk hend
      obtain ⟨hstill, hl⟩ := hall
      by_cases hcur : k < (reading x).cur
      · have hx : used x := by
          by_contra hx
          rcases List.mem_cons.1 hy with rfl | hy
          · exact hx hused
          · exact absurd (hk.trans_lt hcur) (hstill y hy hx hused).not_lt
        rw [countP_cons_of_lt hrest hk hcur, if_pos hx]
      · rw [not_lt] at hcur
        rw [countP_cons_of_le hcur]
        rcases List.mem_cons.1 hy with rfl | hy
        · exact absurd hend hcur.not_gt
        · exact hl y hy hused k hcur hend

end HawkTxn.Core
