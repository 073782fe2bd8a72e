/-
Steps made of moves, and runs that remember them.

One step of a state machine may make several moves, each from the state the one before left. `Path move s l t`: the
moves of l, each listed with the state it is made from, lead from s to t. `moves s a` lists the moves of a step, and
`logged` is the machine that carries the moves made so far.

- `Path.keeps`, `Path.invariant`: what every admitted move keeps, a path keeps;
- `moves_invariant`: what every admitted move keeps holds in every reached state;
- `logged_invariant`: the same for what relates the state to the moves made so far;
- `pair_infix_append`: the neighbours in a log after one more entry.
-/
import HawkTxn.Core.Runs

namespace HawkTxn.Core

universe u v w

variable {σ : Type u} {α : Type v} {β : Type w}

/-- the moves lead from the first state to the last one -/
inductive Path (move : σ → β → σ → Prop) : σ → List (σ × β) → σ → Prop where
  | nil {s : σ} : Path move s [] s
  | cons {s t u : σ} {b : β} {l : List (σ × β)} : move s b t → Path move t l u → Path move s ((s, b) :: l) u

variable {move : σ → β → σ → Prop} {moves : σ → α → List (σ × β)} {step : σ → α → Option σ}

theorem Path.single {s t : σ} {b : β} (h : move s b t) : Path move s [(s, b)] t := .cons h .nil

theorem Path.append {s t u : σ} {l l' : List (σ × β)} (h : Path move s l t) (h' : Path move t l' u) :
    Path move s (l ++ l') u := by
  induction h with
  | nil => exact h'
  | cons hst _ ih => exact .cons hst (ih h')

/-- a property of the state and the moves so far -/
theorem Path.invariant {P : List β → σ → Prop} {ok : σ → β → Prop} {s t : σ} {l : List (σ × β)} {log : List β}
    (h : Path move s l t) (hmove : ∀ log s b t, P log s → ok s b → move s b t → P (log ++ [b]) t)
    (hok : ∀ p ∈ l, ok p.1 p.2) (hs : P log s) : P (log ++ l.map Prod.snd) t := by
  induction h generalizing log with
  | nil => simpa using hs
  | @cons s t u b l hst _ ih =>
    have hnext := hmove log s b t hs (hok (s, b) List.mem_cons_self) hst
    have hrest := ih (fun p hp => hok p (List.mem_cons_of_mem _ hp)) hnext
    simpa using hrest

/-- a property of the state alone -/
theorem Path.keeps {P : σ → Prop} {ok : σ → β → Prop} {s t : σ} {l : List (σ × β)} (h : Path move s l t)
    (hmove : ∀ s b t, P s → ok s b → move s b t → P t) (hok : ∀ p ∈ l, ok p.1 p.2) (hs : P s) : P t := by
  induction h with
  | nil => exact hs
  | @cons s t u b l hst _ ih =>
    have hnext := hmove s b t hs (hok (s, b) List.mem_cons_self) hst
    exact ih (fun p hp => hok p (List.mem_cons_of_mem _ hp)) hnext

/-- the state a listed move is made from, with the moves before it -/
theorem Path.invariant_at {P : List β → σ → Prop} {ok : σ → β → Prop} {s t s' : σ} {b : β}
    {pre suf : List (σ × β)} {log : List β} (h : Path move s (pre ++ (s', b) :: suf) t)
    (hmove : ∀ log s b t, P log s → ok s b → move s b t → P (log ++ [b]) t) (hok : ∀ p ∈ pre, ok p.1 p.2)
    (hs : P log s) : P (log ++ pre.map Prod.snd) s' := by
  induction pre generalizing s log with
  | nil =>
    cases h with
    | cons _ _ => simpa using hs
  | cons p pre ih =>
    cases h with
    | @cons _ u _ b' _ hst hrest =>
      have hnext := hmove log s b' u hs (hok (s, b') List.mem_cons_self) hst
      have hlast := ih hrest (fun q hq => hok q (List.mem_cons_of_mem _ hq)) hnext
      simpa using hlast

/-- an action is admitted if each of its moves is, in the state it is made from -/
def Admits (moves : σ → α → List (σ × β)) (ok : σ → β → Prop) (s : σ) (a : α) : Prop := ∀ p ∈ moves s a, ok p.1 p.2

instance (ok : σ → β → Prop) [∀ s b, Decidable (ok s b)] (s : σ) (a : α) : Decidable (Admits moves ok s a) :=
  inferInstanceAs (Decidable (∀ p ∈ moves s a, _))

/-- the machine that carries the moves made so far -/
def logged (step : σ → α → Option σ) (moves : σ → α → List (σ × β)) (s : σ × List β) (a : α) : Option (σ × List β) :=
  (step s.1 a).map fun t => (t, s.2 ++ (moves s.1 a).map Prod.snd)

/-- **The invariant rule for moves.** `quiet` is what a step needs for its moves to be as listed. -/
theorem moves_invariant {P : σ → Prop} {quiet : α → Prop} {ok : σ → β → Prop} {s₀ s : σ}
    (hpath : ∀ s a t, quiet a → step s a = some t → Path move s (moves s a) t)
    (hmove : ∀ s b t, P s → ok s b → move s b t → P t)
    (h : ReachesBy step (fun s a => quiet a ∧ Admits moves ok s a) s₀ s) (h0 : P s₀) : P s := by
  apply h.invariant h0
  intro s a t hs hok hst
  exact (hpath s a t hok.1 hst).keeps hmove hok.2 hs

/-- **The invariant rule for moves with a history.** -/
theorem logged_invariant {P : List β → σ → Prop} {quiet : α → Prop} {ok : σ → β → Prop} {s₀ s : σ} {log : List β}
    (hpath : ∀ s a t, quiet a → step s a = some t → Path move s (moves s a) t)
    (hmove : ∀ log s b t, P log s → ok s b → move s b t → P (log ++ [b]) t)
    (h : ReachesBy (logged step moves) (fun s a => quiet a ∧ Admits moves ok s.1 a) (s₀, []) (s, log))
    (h0 : P [] s₀) : P log s := by
  refine h.invariant (P := fun st => P st.2 st.1) h0 ?_
  intro st a st' hs hok hst
  obtain ⟨t, ht, rfl⟩ := Option.map_eq_some_iff.1 hst
  exact (hpath st.1 a t hok.1 ht).invariant hmove hok.2 hs

/-! ## Neighbours in a log -/

/-- a pair of neighbours of a longer list is one of the shorter list, or its last element and the new one -/
theorem pair_infix_append {α : Type*} {x y a : α} {l : List α} :
    [x, y] <:+: l ++ [a] ↔ [x, y] <:+: l ∨ (l.getLast? = some x ∧ a = y) := by
  rw [List.infix_concat_iff, or_comm]
  apply or_congr Iff.rfl
  rw [List.suffix_concat_iff]
  refine ⟨?_, ?_⟩
  · intro h
    rcases h with h | ⟨l', hl', hsuf⟩
    · exact absurd h (by simp)
    · have hends : [x] ++ [y] = l' ++ [a] := hl'
      obtain ⟨rfl, hy⟩ := List.append_inj' hends rfl
      obtain rfl : y = a := by simpa using hy
      obtain ⟨pre, rfl⟩ := hsuf
      exact ⟨List.getLast?_concat, rfl⟩
  · intro h
    obtain ⟨hlast, rfl⟩ := h
    obtain ⟨pre, rfl⟩ := List.getLast?_eq_some_iff.1 hlast
    exact Or.inr ⟨[x], rfl, List.suffix_append pre [x]⟩

end HawkTxn.Core
