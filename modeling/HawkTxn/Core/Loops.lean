/-
Loops over a list that always go on.

- `foldl_keeps`: what no round changes, the loop does not change;
- `foldl_project`: a part that each round changes by itself, the loop changes by itself;
- `foldl_flatMap`: a loop whose rounds append to a list appends them all;
- `nodup_flatMap_of_key`: lists that can be told apart by a key of their elements make one list without repetitions;
- `filter_flatMap_of_key`: and the key finds each of them in it.
-/
import Mathlib.Data.List.Nodup
import Mathlib.Tactic

namespace HawkTxn.Core

variable {σ α β γ : Type*} {f : σ → α → σ} {l : List α}

theorem foldl_keeps (proj : σ → γ) (h : ∀ s a, proj (f s a) = proj s) (l : List α) (s : σ) :
    proj (l.foldl f s) = proj s :=
  List.foldlRecOn (motive := fun t => proj t = proj s) l f rfl fun t ht a _ => (h t a).trans ht

theorem foldl_project (proj : σ → γ) {g : γ → α → γ} (h : ∀ s a, proj (f s a) = g (proj s) a) (l : List α) (s : σ) :
    proj (l.foldl f s) = l.foldl g (proj s) :=
  (List.foldl_hom proj fun s a => (h s a).symm).symm

theorem foldl_flatMap (proj : σ → List β) {g : α → List β} (h : ∀ s a, proj (f s a) = proj s ++ g a) (l : List α)
    (s : σ) : proj (l.foldl f s) = proj s ++ l.flatMap g := by
  induction l generalizing s with
  | nil => simp
  | cons a l ih => rw [List.foldl_cons, ih, h, List.append_assoc, List.flatMap_cons]

theorem nodup_flatMap_of_key {g : α → List β} {k : β → α} (hl : l.Nodup) (hg : ∀ a ∈ l, (g a).Nodup)
    (hkey : ∀ a ∈ l, ∀ b ∈ g a, k b = a) : (l.flatMap g).Nodup := by
  refine List.nodup_flatMap.2 ⟨hg, hl.imp_of_mem ?_⟩
  intro a a' ha ha' hne b hb hb'
  exact hne ((hkey a ha b hb).symm.trans (hkey a' ha' b hb'))

theorem filter_flatMap_of_key [DecidableEq α] {g : α → List β} {k : β → α} {a : α} (hl : l.Nodup) (ha : a ∈ l)
    (hkey : ∀ b ∈ l, ∀ x ∈ g b, k x = b) : ((l.flatMap g).filter fun x => k x = a) = g a := by
  induction l with
  | nil => exact absurd ha List.not_mem_nil
  | cons b l ih =>
    obtain ⟨hb, hl⟩ := List.nodup_cons.1 hl
    have hrest : ∀ c ∈ l, ∀ x ∈ g c, k x = c := fun c hc => hkey c (List.mem_cons_of_mem b hc)
    rw [List.flatMap_cons, List.filter_append]
    by_cases hba : b = a
    · subst hba
      have hhere : ((g b).filter fun x => k x = b) = g b := by
        rw [List.filter_eq_self]
        exact fun x hx => decide_eq_true (hkey b List.mem_cons_self x hx)
      have helsewhere : ((l.flatMap g).filter fun x => k x = b) = [] := by
        rw [List.filter_eq_nil_iff]
        intro x hx hxb
        obtain ⟨c, hc, hx⟩ := List.mem_flatMap.1 hx
        have hcb : c = b := (hrest c hc x hx).symm.trans (of_decide_eq_true hxb)
        exact hb (hcb ▸ hc)
      rw [hhere, helsewhere, List.append_nil]
    · have hhere : ((g b).filter fun x => k x = a) = [] := by
        rw [List.filter_eq_nil_iff]
        intro x hx hxa
        exact hba ((hkey b List.mem_cons_self x hx).symm.trans (of_decide_eq_true hxa))
      rw [hhere, List.nil_append]
      exact ih hl ((List.mem_cons.1 ha).resolve_left (Ne.symm hba)) hrest

end HawkTxn.Core
