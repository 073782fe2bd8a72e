/-
Accounts that are kept beside a list of entries.

An entry has a place and an amount; `total` is what the entries of each place come to. Accounts lie one after the other,
and `Holds` says that each has the value that is due at its position. Amounts may be of any commutative group, so that
several columns are kept at once.

- `GrownBy`: a list that has only been appended to;
- `Holds.post`, `Holds.keep`: an amount is posted to one account, or another column is written;
- `total_append`, `total_singleton`, `total_columns`, `GrownBy.total_eq`: how the totals change with the list;
- `total_flatMap_of_place`: the totals of a list that is made place by place.
-/
import Mathlib.Tactic

namespace HawkTxn.Core

variable {ε ρ β κ M : Type*}

/-- each account has the value that is due at its position -/
def Holds (value : ρ → M) (accounts : List ρ) (due : ℤ → M) : Prop :=
  ∀ (i : ℕ) (row : ρ), accounts[i]? = some row → value row = due i

variable {value : ρ → M} {accounts : List ρ} {due due' : ℤ → M} {row new : ρ}

theorem Holds.of_due (h : Holds value accounts due) (hdue : due = due') : Holds value accounts due' := hdue ▸ h

/-- another column is written -/
theorem Holds.keep (h : Holds value accounts due) {j : ℕ} (hrow : accounts[j]? = some row)
    (hnew : value new = value row) : Holds value (accounts.set j new) due := by
  intro j' row' hrow'
  rw [List.getElem?_set] at hrow'
  split_ifs at hrow' with hj
  · obtain rfl : new = row' := Option.some.inj hrow'
    rw [hnew, h j row hrow, hj]
  · exact h j' row' hrow'

/-- the list begins with the old one, and the entries after it have p -/
def GrownBy (p : ε → Prop) (old l : List ε) : Prop := ∃ later, l = old ++ later ∧ ∀ e ∈ later, p e

section

variable {p : ε → Prop} {old l l' : List ε} {e : ε}

theorem GrownBy.refl (p : ε → Prop) (l : List ε) : GrownBy p l l := ⟨[], (List.append_nil l).symm, by simp⟩

theorem GrownBy.concat (h : GrownBy p old l) (he : p e) : GrownBy p old (l ++ [e]) := by
  obtain ⟨later, rfl, hlater⟩ := h
  refine ⟨later ++ [e], List.append_assoc old later [e], ?_⟩
  intro e' he'
  rcases List.mem_append.1 he' with he' | he'
  · exact hlater e' he'
  · rwa [List.mem_singleton.1 he']

theorem GrownBy.of_eq (h : GrownBy p old l) (heq : l' = l) : GrownBy p old l' := heq ▸ h

theorem GrownBy.mem_old (h : GrownBy p old l) (he : e ∈ old) : e ∈ l := by
  obtain ⟨later, rfl, -⟩ := h
  exact List.mem_append_left later he

theorem GrownBy.mem_cases (h : GrownBy p old l) (he : e ∈ l) : e ∈ old ∨ p e := by
  obtain ⟨later, rfl, hlater⟩ := h
  exact (List.mem_append.1 he).imp_right (hlater e)

/-- what is found in the old list is found in the new one, at the same position -/
theorem GrownBy.find?_zipIdx {q : ε × ℕ → Bool} {x : ε × ℕ} (h : GrownBy p old l) (hx : old.zipIdx.find? q = some x) :
    l.zipIdx.find? q = some x := by
  obtain ⟨later, rfl, -⟩ := h
  rw [List.zipIdx_append, List.find?_append, hx, Option.some_or]

end

variable [DecidableEq κ] [AddCommGroup M]

/-- what the entries of each place come to -/
def total (place : ε → κ) (amount : ε → M) (entries : List ε) : κ → M :=
  fun k => ((entries.filter fun e => place e = k).map amount).sum

variable {place : ε → κ} {amount : ε → M} {i : ℤ} {x : M}

/-- an amount is posted to one account -/
theorem Holds.post (h : Holds value accounts due) (hi : 0 ≤ i) (hrow : accounts[i.toNat]? = some row)
    (hnew : value new = value row + x) : Holds value (accounts.set i.toNat new) (due + Pi.single i x) := by
  intro j row' hrow'
  have hlt := (List.getElem?_eq_some_iff.1 hrow).1
  rw [List.getElem?_set] at hrow'
  rw [Pi.add_apply]
  by_cases hj : i.toNat = j
  · subst hj
    rw [if_pos rfl, if_pos hlt] at hrow'
    obtain rfl : new = row' := Option.some.inj hrow'
    rw [hnew, h i.toNat row hrow, Int.toNat_of_nonneg hi, Pi.single_eq_same]
  · rw [if_neg hj] at hrow'
    have hne : (j : ℤ) ≠ i := fun heq => hj (by omega)
    rw [h j row' hrow', Pi.single_eq_of_ne hne, add_zero]

/-! ## Totals -/

theorem total_append (l l' : List ε) : total place amount (l ++ l') = total place amount l + total place amount l' := by
  funext k
  simp only [total, List.filter_append, List.map_append, List.sum_append, Pi.add_apply]

theorem total_singleton (e : ε) : total place amount [e] = Pi.single (place e) (amount e) := by
  funext k
  by_cases hk : k = place e
  · subst hk
    simp [total]
  · simp [total, Ne.symm hk]

/-- the two columns that matter -/
theorem total_columns (place : ε → κ) (amount : ε → M) (l : List ε) :
    total place amount l = total Prod.fst Prod.snd (l.map fun e => (place e, amount e)) := by
  funext k
  rw [total, total, List.filter_map, List.map_map]
  rfl

theorem total_of_columns (place : ε → κ) (amount : ε → M) {l l' : List ε}
    (h : l.map (fun e => (place e, amount e)) = l'.map fun e => (place e, amount e)) :
    total place amount l = total place amount l' := by
  rw [total_columns, h, ← total_columns]

/-- no entry since has the place -/
theorem GrownBy.total_eq {p : ε → Prop} {old l : List ε} {k : κ} (h : GrownBy p old l) (hp : ∀ e, p e → place e ≠ k) :
    total place amount l k = total place amount old k := by
  obtain ⟨later, rfl, hlater⟩ := h
  have hnone : (later.filter fun e => place e = k) = [] := by
    rw [List.filter_eq_nil_iff]
    exact fun e he heq => hp e (hlater e he) (of_decide_eq_true heq)
  have hzero : total place amount later k = 0 := by
    rw [total, hnone]
    rfl
  rw [total_append, Pi.add_apply, hzero, add_zero]

/-- lists for different places one after the other -/
theorem total_flatMap_of_place (place : ε → κ) (amount : ε → M) {g : β → List ε} (pos : β → κ) {l : List β} {b : β}
    (hl : l.Nodup) (hb : b ∈ l) (hinj : ∀ c ∈ l, pos c = pos b → c = b) (hplace : ∀ c ∈ l, ∀ e ∈ g c, place e = pos c) :
    total place amount (l.flatMap g) (pos b) = ((g b).map amount).sum := by
  have hrest : ∀ m : List β, (∀ c ∈ m, c ∈ l) → b ∉ m → total place amount (m.flatMap g) (pos b) = 0 := by
    intro m hm hbm
    have hnone : ((m.flatMap g).filter fun e => place e = pos b) = [] := by
      rw [List.filter_eq_nil_iff]
      intro e he heq
      obtain ⟨c, hc, he⟩ := List.mem_flatMap.1 he
      have hcb : c = b := hinj c (hm c hc) ((hplace c (hm c hc) e he).symm.trans (of_decide_eq_true heq))
      exact hbm (hcb ▸ hc)
    rw [total, hnone]
    rfl
  have hown : total place amount (g b) (pos b) = ((g b).map amount).sum := by
    rw [total, List.filter_eq_self.2 fun e he => decide_eq_true (hplace b hb e he)]
  obtain ⟨pre, suf, rfl⟩ := List.append_of_mem hb
  obtain ⟨hpre, hsuf⟩ : b ∉ pre ∧ b ∉ suf := by
    have hnodup := List.nodup_middle.1 hl
    exact not_or.1 fun hmem => (List.nodup_cons.1 hnodup).1 (List.mem_append.2 hmem)
  have hzero := hrest pre (fun c hc => List.mem_append_left _ hc) hpre
  have hzero' := hrest suf (fun c hc => List.mem_append_right _ (List.mem_cons_of_mem b hc)) hsuf
  rw [List.flatMap_append, List.flatMap_cons, total_append, total_append, Pi.add_apply, Pi.add_apply, hzero, hzero',
    hown, add_zero, zero_add]

end HawkTxn.Core
