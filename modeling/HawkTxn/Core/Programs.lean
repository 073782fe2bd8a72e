/-
Programs that read and write a state, may stop early, and may be undefined.

A program has no outcome (`none`) where what it models has none. Where it stops, the rest of it is skipped and the state
stays as it is: what was done before is not undone.

`Triple P x Q R` is partial correctness: started in a state with P, the program x can only return with Q or stop
with R. The rules follow the constructs:
- `Triple.pure`, `Triple.bind`, `Triple.ite`: sequences and branches;
- `Triple.fetch`, `Triple.change`, `Triple.stop`: reading, writing, stopping;
- `Triple.foldlM`, `Triple.forM`, `Triple.foldlM_range`: loops, with an invariant over the part that is done;
- `Triple.weaken`, `Triple.of_fact`, `Triple.of_state`, `Triple.and`: consequence.

`TotalTriple P x Q` is total correctness: started in a state with P, the program x returns, with Q. `SafeTriple P x Q R`
lies between the two: the program has an outcome, but may stop. Both have the same rules.

`Below x y`: the program x does what y does, but may be undefined where y is not. All constructs are monotone.
-/
import Mathlib.Tactic

namespace HawkTxn.Core

/-- undefined, or a state after with the value returned, if the program did not stop -/
abbrev Program (σ α : Type) := OptionT (StateT σ Option) α

namespace Program

variable {σ α β : Type}

/-- run from a state -/
def exec (x : Program σ α) (s : σ) : Option (Option α × σ) := (OptionT.run x).run s

/-- read something from the state; undefined where it is not there -/
def fetch (g : σ → Option α) : Program σ α := OptionT.mk fun s => (g s).map fun a => (some a, s)

/-- write the state -/
def change (f : σ → σ) : Program σ Unit := OptionT.mk fun s => some (some (), f s)

def stop : Program σ α := OptionT.mk fun s => some (none, s)

theorem exec_pure (a : α) (s : σ) : exec (pure a : Program σ α) s = some (some a, s) := rfl

theorem exec_bind (x : Program σ α) (f : α → Program σ β) (s : σ) : exec (x >>= f) s =
    (exec x s).bind fun res => match res.1 with
      | some a => exec (f a) res.2
      | none => some (none, res.2) := by
  unfold exec
  rw [OptionT.run_bind, Option.elimM, StateT.run_bind, Option.bind_eq_bind]
  congr 1
  funext res
  obtain ⟨a, s'⟩ := res
  cases a <;> rfl

theorem exec_fetch (g : σ → Option α) (s : σ) : exec (fetch g) s = (g s).map fun a => (some a, s) := rfl

theorem exec_change (f : σ → σ) (s : σ) : exec (change f) s = some (some (), f s) := rfl

theorem exec_stop (s : σ) : exec (stop : Program σ α) s = some (none, s) := rfl

end Program

open Program

variable {σ α β : Type} {P P' : σ → Prop} {R R' : σ → Prop} {Q Q' : α → σ → Prop} {x y : Program σ α}

/-- from a state with P, the program returns with Q or stops with R, if it has an outcome -/
def Triple (P : σ → Prop) (x : Program σ α) (Q : α → σ → Prop) (R : σ → Prop) : Prop :=
  ∀ s, P s → ∀ res s', x.exec s = some (res, s') → match res with
    | some a => Q a s'
    | none => R s'

namespace Triple

/-- what a run of the program ends with -/
theorem returned (h : Triple P x Q R) {s s' : σ} {a : α} (hs : P s) (hrun : x.exec s = some (some a, s')) : Q a s' :=
  h s hs (some a) s' hrun

theorem stopped (h : Triple P x Q R) {s s' : σ} (hs : P s) (hrun : x.exec s = some (none, s')) : R s' :=
  h s hs none s' hrun

theorem weaken (h : Triple P x Q R) (hP : ∀ s, P' s → P s) (hQ : ∀ a s, Q a s → Q' a s) (hR : ∀ s, R s → R' s) :
    Triple P' x Q' R' := by
  intro s hs res s' hrun
  cases res with
  | some a => exact hQ a s' (h.returned (hP s hs) hrun)
  | none => exact hR s' (h.stopped (hP s hs) hrun)

theorem pre (h : Triple P x Q R) (hP : ∀ s, P' s → P s) : Triple P' x Q R := h.weaken hP (fun _ _ => id) fun _ => id

theorem post (h : Triple P x Q R) (hQ : ∀ a s, Q a s → Q' a s) : Triple P x Q' R :=
  h.weaken (fun _ => id) hQ fun _ => id

/-- a fact the precondition gives may be used for the program -/
theorem of_fact {φ : Prop} (hφ : ∀ s, P s → φ) (h : φ → Triple P x Q R) : Triple P x Q R :=
  fun s hs => h (hφ s hs) s hs

/-- from each state there is -/
theorem of_state (h : ∀ s₀, P s₀ → Triple (fun s => s = s₀) x Q R) : Triple P x Q R := fun s hs => h s hs s rfl

/-- what two rules say of one program -/
theorem and (h : Triple P x Q R) (h' : Triple P' x Q' R') :
    Triple (fun s => P s ∧ P' s) x (fun a s => Q a s ∧ Q' a s) fun s => R s ∧ R' s := by
  intro s hs res s' hrun
  cases res with
  | some a => exact ⟨h.returned hs.1 hrun, h'.returned hs.2 hrun⟩
  | none => exact ⟨h.stopped hs.1 hrun, h'.stopped hs.2 hrun⟩

theorem pure {a : α} (h : ∀ s, P s → Q a s) : Triple P (Pure.pure a) Q R := by
  intro s hs res s' hrun
  rw [exec_pure] at hrun
  cases hrun
  exact h s hs

theorem bind {x : Program σ β} {f : β → Program σ α} {M : β → σ → Prop} (hx : Triple P x M R)
    (hf : ∀ b, Triple (M b) (f b) Q R) : Triple P (x >>= f) Q R := by
  intro s hs res s' hrun
  rw [exec_bind] at hrun
  obtain ⟨⟨b, t⟩, ht, hrun⟩ := Option.bind_eq_some_iff.1 hrun
  cases b with
  | none =>
    cases hrun
    exact hx.stopped hs ht
  | some b => exact hf b t (hx.returned hs ht) res s' hrun

theorem ite {c : Prop} [Decidable c] (hx : c → Triple P x Q R) (hy : ¬ c → Triple P y Q R) :
    Triple P (if c then x else y) Q R := by
  split_ifs with hc
  · exact hx hc
  · exact hy hc

theorem fetch {g : σ → Option α} : Triple P (Program.fetch g) (fun a s => P s ∧ g s = some a) R := by
  intro s hs res s' hrun
  rw [exec_fetch] at hrun
  obtain ⟨a, ha, hrun⟩ := Option.map_eq_some_iff.1 hrun
  cases hrun
  exact ⟨hs, ha⟩

theorem change {f : σ → σ} {Q : Unit → σ → Prop} (h : ∀ s, P s → Q () (f s)) : Triple P (Program.change f) Q R := by
  intro s hs res s' hrun
  rw [exec_change] at hrun
  cases hrun
  exact h s hs

theorem stop (h : ∀ s, P s → R s) : Triple P (Program.stop : Program σ α) Q R := by
  intro s hs res s' hrun
  rw [exec_stop] at hrun
  cases hrun
  exact h s hs

/-- the invariant speaks of the elements done so far and of the value carried along -/
theorem foldlM {I : List β → α → σ → Prop} {f : α → β → Program σ α} {l : List β} {a : α}
    (h : ∀ done b rest a, l = done ++ b :: rest → Triple (I done a) (f a b) (I (done ++ [b])) R) :
    Triple (I [] a) (l.foldlM f a) (I l) R := by
  -- from any point of the list on
  have hfrom : ∀ rest done a, l = done ++ rest → Triple (I done a) (rest.foldlM f a) (I l) R := by
    intro rest
    induction rest with
    | nil =>
      intro done a hl
      rw [List.append_nil] at hl
      subst hl
      exact Triple.pure fun _ hs => hs
    | cons b rest ih =>
      intro done a hl
      rw [List.foldlM_cons]
      exact (h done b rest a hl).bind fun a' => ih (done ++ [b]) a' (by simpa using hl)
  exact hfrom l [] a rfl

theorem forM {I : List β → σ → Prop} {f : β → Program σ Unit} {l : List β}
    (h : ∀ done b rest, l = done ++ b :: rest → Triple (I done) (f b) (fun _ => I (done ++ [b])) R) :
    Triple (I []) (l.forM f) (fun _ => I l) R := by
  have hfrom : ∀ rest done, l = done ++ rest → Triple (I done) (rest.forM f) (fun _ => I l) R := by
    intro rest
    induction rest with
    | nil =>
      intro done hl
      rw [List.append_nil] at hl
      subst hl
      exact Triple.pure fun _ hs => hs
    | cons b rest ih =>
      intro done hl
      exact (h done b rest hl).bind fun _ => ih (done ++ [b]) (by simpa using hl)
  exact hfrom l [] rfl

/-- the same for a loop over the positions below n, with an invariant over the position reached -/
theorem foldlM_range {I : ℕ → α → σ → Prop} {f : α → ℕ → Program σ α} {n : ℕ} {a : α}
    (h : ∀ m a, m < n → Triple (I m a) (f a m) (I (m + 1)) R) :
    Triple (I 0 a) ((List.range n).foldlM f a) (I n) R := by
  have hloop : Triple (I 0 a) ((List.range n).foldlM f a) (I (List.range n).length) R := by
    refine foldlM (I := fun done => I done.length) ?_
    intro done m rest a hrange
    -- the position comes after those done
    have hm : (List.range n)[done.length]? = some m := by
      rw [hrange, List.getElem?_append_right le_rfl, Nat.sub_self]
      rfl
    obtain ⟨hlt, hm⟩ := List.getElem?_eq_some_iff.1 hm
    rw [List.getElem_range] at hm
    rw [List.length_range] at hlt
    subst hm
    rw [List.length_append]
    exact h done.length a hlt
  rwa [List.length_range] at hloop

end Triple

/-- from a state with P, the program returns with Q -/
def TotalTriple (P : σ → Prop) (x : Program σ α) (Q : α → σ → Prop) : Prop :=
  ∀ s, P s → ∃ a s', x.exec s = some (some a, s') ∧ Q a s'

namespace TotalTriple

theorem post (h : TotalTriple P x Q) (hQ : ∀ a s, Q a s → Q' a s) : TotalTriple P x Q' := by
  intro s hs
  obtain ⟨a, s', hrun, ha⟩ := h s hs
  exact ⟨a, s', hrun, hQ a s' ha⟩

/-- a fact the precondition gives may be used for the program -/
theorem of_fact {φ : Prop} (hφ : ∀ s, P s → φ) (h : φ → TotalTriple P x Q) : TotalTriple P x Q :=
  fun s hs => h (hφ s hs) s hs

theorem pure {a : α} (h : ∀ s, P s → Q a s) : TotalTriple P (Pure.pure a) Q :=
  fun s hs => ⟨a, s, exec_pure a s, h s hs⟩

theorem bind {x : Program σ β} {f : β → Program σ α} {M : β → σ → Prop} (hx : TotalTriple P x M)
    (hf : ∀ b, TotalTriple (M b) (f b) Q) : TotalTriple P (x >>= f) Q := by
  intro s hs
  obtain ⟨b, t, hb, hM⟩ := hx s hs
  obtain ⟨a, s', ha, hQ⟩ := hf b t hM
  exact ⟨a, s', by rw [exec_bind, hb]; exact ha, hQ⟩

theorem ite {c : Prop} [Decidable c] (hx : c → TotalTriple P x Q) (hy : ¬ c → TotalTriple P y Q) :
    TotalTriple P (if c then x else y) Q := by
  split_ifs with hc
  · exact hx hc
  · exact hy hc

theorem fetch {g : σ → Option α} (h : ∀ s, P s → ∃ a, g s = some a) :
    TotalTriple P (Program.fetch g) (fun a s => P s ∧ g s = some a) := by
  intro s hs
  obtain ⟨a, ha⟩ := h s hs
  exact ⟨a, s, by rw [exec_fetch, ha]; rfl, hs, ha⟩

theorem change {f : σ → σ} {Q : Unit → σ → Prop} (h : ∀ s, P s → Q () (f s)) : TotalTriple P (Program.change f) Q :=
  fun s hs => ⟨(), f s, exec_change f s, h s hs⟩

theorem foldlM {I : α → σ → Prop} {f : α → β → Program σ α} {l : List β}
    (h : ∀ b ∈ l, ∀ a, TotalTriple (I a) (f a b) I) (a : α) : TotalTriple (I a) (l.foldlM f a) I := by
  induction l generalizing a with
  | nil => exact TotalTriple.pure fun _ hs => hs
  | cons b l ih =>
    rw [List.foldlM_cons]
    exact (h b List.mem_cons_self a).bind fun a' => ih (fun c hc => h c (List.mem_cons_of_mem b hc)) a'

theorem forM {I : σ → Prop} {f : β → Program σ Unit} {l : List β}
    (h : ∀ b ∈ l, TotalTriple I (f b) fun _ => I) : TotalTriple I (l.forM f) fun _ => I := by
  induction l with
  | nil => exact TotalTriple.pure fun _ hs => hs
  | cons b l ih =>
    exact (h b List.mem_cons_self).bind fun _ => ih fun c hc => h c (List.mem_cons_of_mem b hc)

end TotalTriple

/-- from a state with P, the program has an outcome: it returns with Q or stops with R -/
structure SafeTriple (P : σ → Prop) (x : Program σ α) (Q : α → σ → Prop) (R : σ → Prop) : Prop where
  defined : ∀ s, P s → ∃ res, x.exec s = some res
  triple : Triple P x Q R

namespace SafeTriple

theorem post (h : SafeTriple P x Q R) (hQ : ∀ a s, Q a s → Q' a s) : SafeTriple P x Q' R :=
  ⟨h.defined, h.triple.post hQ⟩

theorem pre (h : SafeTriple P x Q R) (hP : ∀ s, P' s → P s) : SafeTriple P' x Q R :=
  ⟨fun s hs => h.defined s (hP s hs), h.triple.pre hP⟩

/-- a fact the precondition gives may be used for the program -/
theorem of_fact {φ : Prop} (hφ : ∀ s, P s → φ) (h : φ → SafeTriple P x Q R) : SafeTriple P x Q R :=
  ⟨fun s hs => (h (hφ s hs)).defined s hs, Triple.of_fact hφ fun hc => (h hc).triple⟩

theorem pure {a : α} (h : ∀ s, P s → Q a s) : SafeTriple P (Pure.pure a) Q R :=
  ⟨fun s _ => ⟨_, exec_pure a s⟩, Triple.pure h⟩

theorem bind {x : Program σ β} {f : β → Program σ α} {M : β → σ → Prop} (hx : SafeTriple P x M R)
    (hf : ∀ b, SafeTriple (M b) (f b) Q R) : SafeTriple P (x >>= f) Q R := by
  refine ⟨?_, hx.triple.bind fun b => (hf b).triple⟩
  intro s hs
  obtain ⟨⟨res, t⟩, ht⟩ := hx.defined s hs
  rw [exec_bind, ht]
  cases res with
  | none => exact ⟨_, rfl⟩
  | some b => exact (hf b).defined t (hx.triple.returned hs ht)

theorem ite {c : Prop} [Decidable c] (hx : c → SafeTriple P x Q R) (hy : ¬ c → SafeTriple P y Q R) :
    SafeTriple P (if c then x else y) Q R := by
  split_ifs with hc
  · exact hx hc
  · exact hy hc

theorem fetch {g : σ → Option α} (h : ∀ s, P s → ∃ a, g s = some a) :
    SafeTriple P (Program.fetch g) (fun a s => P s ∧ g s = some a) R := by
  refine ⟨?_, Triple.fetch⟩
  intro s hs
  obtain ⟨a, ha⟩ := h s hs
  exact ⟨(some a, s), by rw [exec_fetch, ha]; rfl⟩

theorem change {f : σ → σ} {Q : Unit → σ → Prop} (h : ∀ s, P s → Q () (f s)) :
    SafeTriple P (Program.change f) Q R :=
  ⟨fun s _ => ⟨_, exec_change f s⟩, Triple.change h⟩

theorem foldlM {I : α → σ → Prop} {f : α → β → Program σ α} {l : List β}
    (h : ∀ b ∈ l, ∀ a, SafeTriple (I a) (f a b) I R) (a : α) : SafeTriple (I a) (l.foldlM f a) I R := by
  induction l generalizing a with
  | nil => exact SafeTriple.pure fun _ hs => hs
  | cons b l ih =>
    rw [List.foldlM_cons]
    exact (h b List.mem_cons_self a).bind fun a' => ih (fun c hc => h c (List.mem_cons_of_mem b hc)) a'

theorem forM {I : σ → Prop} {f : β → Program σ Unit} {l : List β}
    (h : ∀ b ∈ l, SafeTriple I (f b) (fun _ => I) R) : SafeTriple I (l.forM f) (fun _ => I) R := by
  induction l with
  | nil => exact SafeTriple.pure fun _ hs => hs
  | cons b l ih =>
    exact (h b List.mem_cons_self).bind fun _ => ih fun c hc => h c (List.mem_cons_of_mem b hc)

end SafeTriple

/-- where x has an outcome, y has the same -/
def Below (x y : Program σ α) : Prop := ∀ s res, x.exec s = some res → y.exec s = some res

namespace Below

theorem refl (x : Program σ α) : Below x x := fun _ _ h => h

theorem bind {x x' : Program σ β} {f f' : β → Program σ α} (hx : Below x x') (hf : ∀ b, Below (f b) (f' b)) :
    Below (x >>= f) (x' >>= f') := by
  intro s res hrun
  rw [exec_bind] at hrun ⊢
  obtain ⟨⟨b, t⟩, ht, hrun⟩ := Option.bind_eq_some_iff.1 hrun
  rw [hx s (b, t) ht, Option.bind_some]
  cases b with
  | none => exact hrun
  | some b => exact hf b t res hrun

theorem ite {x' y' : Program σ α} {c : Prop} [Decidable c] (hx : Below x x') (hy : Below y y') :
    Below (if c then x else y) (if c then x' else y') := by
  split_ifs with hc
  · exact hx
  · exact hy

theorem fetch {g g' : σ → Option α} (h : ∀ s a, g s = some a → g' s = some a) :
    Below (Program.fetch g) (Program.fetch g') := by
  intro s res hrun
  rw [exec_fetch] at hrun ⊢
  obtain ⟨a, ha, hres⟩ := Option.map_eq_some_iff.1 hrun
  exact Option.map_eq_some_iff.2 ⟨a, h s a ha, hres⟩

theorem foldlM {f f' : α → β → Program σ α} (h : ∀ a b, Below (f a b) (f' a b)) (l : List β) (a : α) :
    Below (l.foldlM f a) (l.foldlM f' a) := by
  induction l generalizing a with
  | nil => exact refl _
  | cons b l ih =>
    rw [List.foldlM_cons, List.foldlM_cons]
    exact (h a b).bind ih

theorem forM {f f' : β → Program σ Unit} (h : ∀ b, Below (f b) (f' b)) (l : List β) :
    Below (l.forM f) (l.forM f') := by
  induction l with
  | nil => exact refl _
  | cons b l ih => exact (h b).bind fun _ => ih

end Below

end HawkTxn.Core
