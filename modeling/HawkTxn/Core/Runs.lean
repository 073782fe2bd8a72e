/-
Runs of a state machine with partial steps.

`step s a = none` means that action a has no defined outcome in state s (an out-of-range read, a search that does not
return). A run stops there. `ReachesBy step ok s₀ s`: s is reached from s₀ by defined steps, each taken from a state
and by an action that satisfy `ok`; `Reaches` puts no condition on the steps.

- `ReachesBy.invariant`: what holds at the start and is kept by every admitted step holds in every reached state;
- `ReachesBy.of_run`: a computed run is a run;
- `ReachesBy.simulated`: what one machine reaches, a machine that simulates it reaches.
-/
import Mathlib.Tactic

namespace HawkTxn.Core

universe u v

variable {σ : Type u} {α : Type v}

/-- states reached from s₀ by defined steps that all satisfy `ok` -/
inductive ReachesBy (step : σ → α → Option σ) (ok : σ → α → Prop) (s₀ : σ) : σ → Prop where
  | start : ReachesBy step ok s₀ s₀
  | next {s t : σ} {a : α} : ReachesBy step ok s₀ s → ok s a → step s a = some t → ReachesBy step ok s₀ t

/-- states reached from s₀ by any defined steps -/
abbrev Reaches (step : σ → α → Option σ) (s₀ : σ) : σ → Prop := ReachesBy step (fun _ _ => True) s₀

/-- the state after a list of actions, if every one of them is admitted and defined -/
def runBy (step : σ → α → Option σ) (ok : σ → α → Prop) [∀ s a, Decidable (ok s a)] : σ → List α → Option σ
  | s, [] => some s
  | s, a :: as => if ok s a then (step s a).bind fun t => runBy step ok t as else none

/-- the state after a list of actions, if every one of them is defined -/
abbrev run (step : σ → α → Option σ) : σ → List α → Option σ := runBy step fun _ _ => True

variable {step : σ → α → Option σ} {ok : σ → α → Prop} {s₀ s : σ}

/-- **The invariant rule.** -/
theorem ReachesBy.invariant {P : σ → Prop} (h : ReachesBy step ok s₀ s) (h0 : P s₀)
    (hstep : ∀ s a t, P s → ok s a → step s a = some t → P t) : P s := by
  induction h with
  | start => exact h0
  | next _ hok hst ih => exact hstep _ _ _ ih hok hst

theorem ReachesBy.mono {ok' : σ → α → Prop} (hok : ∀ s a, ok s a → ok' s a) (h : ReachesBy step ok s₀ s) :
    ReachesBy step ok' s₀ s := by
  induction h with
  | start => exact .start
  | next _ h1 h2 ih => exact .next ih (hok _ _ h1) h2

theorem ReachesBy.trans {t : σ} (h : ReachesBy step ok s₀ s) (k : ReachesBy step ok s t) :
    ReachesBy step ok s₀ t := by
  induction k with
  | start => exact h
  | next _ h1 h2 ih => exact .next ih h1 h2

/-- a computed run by admitted actions of a given kind -/
theorem ReachesBy.of_run_of_forall [∀ s a, Decidable (ok s a)] {kind : α → Prop} {as : List α}
    (hkind : ∀ a ∈ as, kind a) (h : runBy step ok s as = some s₀) :
    ReachesBy step (fun s a => kind a ∧ ok s a) s s₀ := by
  induction as generalizing s with
  | nil => cases h; exact .start
  | cons a as ih =>
    unfold runBy at h
    split_ifs at h with hok
    obtain ⟨t, hst, ht⟩ := Option.bind_eq_some_iff.1 h
    have hrest := ih (fun b hb => hkind b (List.mem_cons_of_mem a hb)) ht
    exact (ReachesBy.next .start ⟨hkind a List.mem_cons_self, hok⟩ hst).trans hrest

/-- a computed run is a run -/
theorem ReachesBy.of_run [∀ s a, Decidable (ok s a)] {as : List α} (h : runBy step ok s as = some s₀) :
    ReachesBy step ok s s₀ := by
  have hany : ∀ a ∈ as, (fun _ => True) a := fun _ _ => trivial
  exact (of_run_of_forall hany h).mono fun _ _ hok => hok.2

/-- **The simulation rule.** Every admitted step from related states is answered by admitted steps of the other machine
that lead to related states again. -/
theorem ReachesBy.simulated {σ' : Type*} {α' : Type*} {step' : σ' → α' → Option σ'} {ok' : σ' → α' → Prop}
    {R : σ → σ' → Prop} {s₀' : σ'} (h : ReachesBy step ok s₀ s) (h0 : R s₀ s₀')
    (hstep : ∀ s a t s', R s s' → ok s a → step s a = some t → ∃ t', ReachesBy step' ok' s' t' ∧ R t t') :
    ∃ s', ReachesBy step' ok' s₀' s' ∧ R s s' := by
  induction h with
  | start => exact ⟨s₀', .start, h0⟩
  | next _ hok hst ih =>
    obtain ⟨s', hreached, hR⟩ := ih
    obtain ⟨t', hsteps, ht'⟩ := hstep _ _ _ s' hR hok hst
    exact ⟨t', hreached.trans hsteps, ht'⟩

/-! ## Loops whose body may be undefined -/

variable {f g : σ → α → Option σ} {l : List α} {s' : σ}

/-- what the body keeps, the loop keeps -/
theorem foldlM_invariant {P : σ → Prop} (hstep : ∀ s a s', a ∈ l → P s → f s a = some s' → P s')
    (h : l.foldlM f s = some s') (h0 : P s) : P s' := by
  induction l generalizing s with
  | nil => cases h; exact h0
  | cons a l ih =>
    rw [List.foldlM_cons] at h
    obtain ⟨t, ht, h⟩ := Option.bind_eq_some_iff.1 h
    exact ih (fun s b s' hb => hstep s b s' (List.mem_cons_of_mem a hb)) h (hstep s a t List.mem_cons_self h0 ht)

/-- the total rule: where the invariant lets the body go on, the loop ends and the invariant holds -/
theorem foldlM_total {P : σ → Prop} (hstep : ∀ s a, a ∈ l → P s → ∃ s', f s a = some s' ∧ P s') (h0 : P s) :
    ∃ s', l.foldlM f s = some s' ∧ P s' := by
  induction l generalizing s with
  | nil => exact ⟨s, rfl, h0⟩
  | cons a l ih =>
    obtain ⟨t, ht, hP⟩ := hstep s a List.mem_cons_self h0
    rw [List.foldlM_cons, ht]
    exact ih (fun s b hb => hstep s b (List.mem_cons_of_mem a hb)) hP

/-- what the body brings about at one element, and keeps elsewhere, holds after the loop -/
theorem foldlM_of_mem {P Q : σ → Prop} {a : α} (ha : a ∈ l) (hP : ∀ s b s', b ∈ l → P s → f s b = some s' → P s')
    (hQ : ∀ s b s', Q s → f s b = some s' → Q s') (hPQ : ∀ s s', P s → f s a = some s' → Q s')
    (h : l.foldlM f s = some s') (h0 : P s) : Q s' := by
  obtain ⟨pre, suf, rfl⟩ := List.append_of_mem ha
  rw [List.foldlM_append] at h
  obtain ⟨t, ht, h⟩ := Option.bind_eq_some_iff.1 h
  rw [List.foldlM_cons] at h
  obtain ⟨t', ht', h⟩ := Option.bind_eq_some_iff.1 h
  have hpre : P t := foldlM_invariant (fun s b s' hb => hP s b s' (List.mem_append_left _ hb)) ht h0
  exact foldlM_invariant (fun s b s' _ => hQ s b s') h (hPQ t t' hpre ht')

/-- a loop whose body is always defined is defined -/
theorem foldlM_isSome (hf : ∀ s a, a ∈ l → (f s a).isSome) (s : σ) : (l.foldlM f s).isSome := by
  have hbody : ∀ s a, a ∈ l → True → ∃ s', f s a = some s' ∧ True :=
    fun s a ha _ => (Option.isSome_iff_exists.1 (hf s a ha)).imp fun _ h => ⟨h, trivial⟩
  obtain ⟨s', hs', -⟩ := foldlM_total (P := fun _ => True) hbody trivial
  exact Option.isSome_iff_exists.2 ⟨s', hs'⟩

/-- a loop whose body is more often defined is more often defined -/
theorem foldlM_mono (hfg : ∀ s a s', f s a = some s' → g s a = some s') (h : l.foldlM f s = some s') :
    l.foldlM g s = some s' := by
  induction l generalizing s with
  | nil => exact h
  | cons a l ih =>
    rw [List.foldlM_cons] at h ⊢
    obtain ⟨t, ht, h⟩ := Option.bind_eq_some_iff.1 h
    exact Option.bind_eq_some_iff.2 ⟨t, hfg s a t ht, ih h⟩

end HawkTxn.Core
