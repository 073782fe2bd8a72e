/-
The queue shared by threads (`SafeQueue.h`).

Every member function runs under `mutex_`, so each is one step. A thread in `pop` that finds the queue empty waits on
`cond_`: it is `waiting` until a push notifies it or it wakes up by itself, then `woken` until it has the mutex again
and looks at the queue once more. `notify_one` may choose any waiting thread; the choice is an argument.

`Monitor` runs the functions of one queue for any number of threads, and remembers what was pushed and taken. Stopping
the system sets the flag and notifies nobody.

Results:
- `inv_of_reaches`: values are taken once each and in the order they were pushed, whoever takes them;
- `handed_over`: no wake-up is lost: while a thread waits, every value in the queue has a woken thread to take it.
-/
import HawkTxn.Core.Runs

namespace HawkTxn

open HawkTxn.Core

universe u v

/-- the queue, and the threads in the middle of `pop` -/
structure SafeQueue (T : Type u) (τ : Type v) where
  queue_ : List T
  /-- in `cond_.wait` and not notified -/
  waiting : List τ
  /-- notified, or woken spuriously, and not yet back with the mutex -/
  woken : List τ

namespace SafeQueue

variable {T : Type u} {τ : Type v}

/-! ## Model -/

def new : SafeQueue T τ := ⟨[], [], []⟩

/-- one of the waiting threads, if there is any -/
def notify_one (q : SafeQueue T τ) (choice : ℕ) : SafeQueue T τ :=
  match q.waiting[choice % q.waiting.length]? with
  | none => q
  | some t => { q with waiting := q.waiting.eraseIdx (choice % q.waiting.length), woken := q.woken ++ [t] }

def push (q : SafeQueue T τ) (value : T) (choice : ℕ) : SafeQueue T τ :=
  notify_one { q with queue_ := q.queue_ ++ [value] } choice

def empty (q : SafeQueue T τ) : Bool := q.queue_.isEmpty

/-- how far a thread gets in `pop` before it gives the mutex back -/
inductive Popped (T : Type u) where
  | waits
  | threw
  | took (value : T)
deriving DecidableEq

/-- `pop` from the point where thread t has the mutex and reads the condition -/
def pop (q : SafeQueue T τ) (systemRunning : Bool) (t : τ) : SafeQueue T τ × Popped T :=
  if q.empty && systemRunning then ({ q with waiting := q.waiting ++ [t] }, .waits)
  else match q.queue_ with
    | [] => (q, .threw)
    | value :: rest => ({ q with queue_ := rest }, .took value)

def try_pop (q : SafeQueue T τ) : SafeQueue T τ × Option T :=
  match q.queue_ with
  | [] => (q, none)
  | value :: rest => ({ q with queue_ := rest }, some value)

def drain (q : SafeQueue T τ) : SafeQueue T τ × List T := ({ q with queue_ := [] }, q.queue_)

/-- thread t gets the mutex back -/
def wakeUp [DecidableEq τ] (q : SafeQueue T τ) (t : τ) : SafeQueue T τ := { q with woken := q.woken.erase t }

/-- thread t stops waiting without having been notified -/
def wakeSpuriously [DecidableEq τ] (q : SafeQueue T τ) (t : τ) : SafeQueue T τ :=
  { q with waiting := q.waiting.erase t, woken := q.woken ++ [t] }

/-! ## What a function does -/

@[simp] theorem queue_notify_one (q : SafeQueue T τ) (choice : ℕ) : (q.notify_one choice).queue_ = q.queue_ := by
  unfold notify_one
  split <;> rfl

@[simp] theorem queue_push (q : SafeQueue T τ) (value : T) (choice : ℕ) :
    (q.push value choice).queue_ = q.queue_ ++ [value] := by
  simp [push]

/-- a notification moves one thread, if any waits -/
theorem notify_one_cases (q : SafeQueue T τ) (choice : ℕ) :
    (q.waiting = [] ∧ q.notify_one choice = q) ∨
    ∃ pre t suf, q.waiting = pre ++ t :: suf ∧
      q.notify_one choice = { q with waiting := pre ++ suf, woken := q.woken ++ [t] } := by
  rcases hwaiting : q.waiting with _ | ⟨t, rest⟩
  · exact Or.inl ⟨rfl, by simp [notify_one, hwaiting]⟩
  · have hlt : choice % (t :: rest).length < (t :: rest).length := Nat.mod_lt _ (by simp)
    refine Or.inr ⟨_, _, _, (List.take_append_drop _ _).symm.trans (by rw [List.drop_eq_getElem_cons hlt]), ?_⟩
    rw [notify_one, hwaiting, List.getElem?_eq_getElem hlt, List.eraseIdx_eq_take_drop_succ]

/-- the three ends of `pop` -/
theorem pop_cases (q : SafeQueue T τ) (systemRunning : Bool) (t : τ) :
    (q.queue_ = [] ∧ systemRunning = true ∧
      q.pop systemRunning t = ({ q with waiting := q.waiting ++ [t] }, .waits)) ∨
    (q.queue_ = [] ∧ systemRunning = false ∧ q.pop systemRunning t = (q, .threw)) ∨
    ∃ value rest, q.queue_ = value :: rest ∧ q.pop systemRunning t = ({ q with queue_ := rest }, .took value) := by
  rcases hqueue : q.queue_ with _ | ⟨value, rest⟩
  · cases systemRunning
    · exact Or.inr (Or.inl ⟨rfl, rfl, by simp [pop, empty, hqueue]⟩)
    · exact Or.inl ⟨rfl, rfl, by simp [pop, empty, hqueue]⟩
  · exact Or.inr (Or.inr ⟨value, rest, rfl, by simp [pop, empty, hqueue]⟩)

/-! ## Any number of threads -/

/-- a queue, the flag, and what the threads did so far -/
structure Monitor (T : Type u) (τ : Type v) where
  queue : SafeQueue T τ
  systemRunning : Bool
  pushed : List T
  /-- with the thread that took it -/
  taken : List (τ × T)
  /-- the threads whose `pop` threw -/
  threw : List τ

inductive Act (T : Type u) (τ : Type v) where
  | push (value : T) (choice : ℕ)
  | pop (t : τ)
  /-- a woken thread gets the mutex -/
  | resume (t : τ)
  | wakeSpuriously (t : τ)
  | try_pop (t : τ)
  | drain (t : τ)
  | stop

namespace Monitor

def init : Monitor T τ := ⟨.new, true, [], [], []⟩

/-- thread t reads the condition of `pop` -/
def popping (m : Monitor T τ) (t : τ) : Monitor T τ :=
  match m.queue.pop m.systemRunning t with
  | (queue, .waits) => { m with queue := queue }
  | (queue, .threw) => { m with queue := queue, threw := m.threw ++ [t] }
  | (queue, .took value) => { m with queue := queue, taken := m.taken ++ [(t, value)] }

/-- thread t is not in `pop` -/
def Outside (m : Monitor T τ) (t : τ) : Prop := t ∉ m.queue.waiting ++ m.queue.woken

instance [DecidableEq τ] (m : Monitor T τ) (t : τ) : Decidable (m.Outside t) :=
  inferInstanceAs (Decidable (t ∉ _))

def step [DecidableEq τ] (m : Monitor T τ) : Act T τ → Option (Monitor T τ)
  | .push value choice => some { m with queue := m.queue.push value choice, pushed := m.pushed ++ [value] }
  | .pop t => if m.Outside t then some (m.popping t) else none
  | .resume t =>
    if t ∈ m.queue.woken then some (popping { m with queue := m.queue.wakeUp t } t) else none
  | .wakeSpuriously t =>
    if t ∈ m.queue.waiting then some { m with queue := m.queue.wakeSpuriously t } else none
  | .try_pop t =>
    if m.Outside t then
      some { m with
        queue := m.queue.try_pop.1
        taken := m.taken ++ m.queue.try_pop.2.toList.map fun value => (t, value) }
    else none
  | .drain t =>
    if m.Outside t then
      some { m with queue := m.queue.drain.1, taken := m.taken ++ m.queue.drain.2.map fun value => (t, value) }
    else none
  | .stop => some { m with systemRunning := false }

structure Inv (m : Monitor T τ) : Prop where
  /-- nothing is lost, taken twice or overtaken -/
  fifo : m.taken.map Prod.snd ++ m.queue.queue_ = m.pushed
  /-- while a thread waits, there is a woken one for every value -/
  notified : m.queue.waiting ≠ [] → m.queue.queue_.length ≤ m.queue.woken.length
  threw : m.threw ≠ [] → m.systemRunning = false

theorem inv_init : Inv (init : Monitor T τ) where
  fifo := rfl
  notified h := absurd rfl h
  threw h := absurd rfl h

theorem Inv.push {m : Monitor T τ} (h : m.Inv) (value : T) (choice : ℕ) :
    Inv { m with queue := m.queue.push value choice, pushed := m.pushed ++ [value] } := by
  have hfifo : m.taken.map Prod.snd ++ (m.queue.push value choice).queue_ = m.pushed ++ [value] := by
    rw [queue_push, ← List.append_assoc, h.fifo]
  refine ⟨hfifo, ?_, h.threw⟩
  intro hwaiting
  have hcases := notify_one_cases { m.queue with queue_ := m.queue.queue_ ++ [value] } choice
  rcases hcases with ⟨hnone, heq⟩ | ⟨pre, t, suf, hsplit, heq⟩
  · exact absurd (by simpa [SafeQueue.push, heq] using hnone) hwaiting
  · have hbound := h.notified (by
      rw [show m.queue.waiting = pre ++ t :: suf from hsplit]
      simp)
    simpa [SafeQueue.push, heq] using hbound

/-- a thread that reads the condition: one value, one woken thread less -/
theorem Inv.popping {m : Monitor T τ} (hfifo : m.taken.map Prod.snd ++ m.queue.queue_ = m.pushed)
    (hnotified : m.queue.waiting ≠ [] → m.queue.queue_.length ≤ m.queue.woken.length + 1)
    (hthrew : m.threw ≠ [] → m.systemRunning = false) (t : τ) : (m.popping t).Inv := by
  unfold Monitor.popping
  rcases pop_cases m.queue m.systemRunning t with ⟨hqueue, -, hpop⟩ | ⟨hqueue, hstopped, hpop⟩ |
    ⟨value, rest, hqueue, hpop⟩
  · rw [hpop]
    exact ⟨hfifo, fun _ => by simp [hqueue], hthrew⟩
  · rw [hpop]
    exact ⟨hfifo, fun _ => by simp [hqueue], fun _ => hstopped⟩
  · rw [hpop]
    rw [hqueue] at hfifo hnotified
    refine ⟨?_, ?_, hthrew⟩
    · simpa using hfifo
    · intro hwaiting
      have hbound := hnotified hwaiting
      simpa using hbound

theorem step_inv [DecidableEq τ] {m m' : Monitor T τ} {a : Act T τ} (h : m.Inv) (hst : m.step a = some m') :
    m'.Inv := by
  cases a with
  | push value choice =>
    cases hst
    exact h.push value choice
  | pop t =>
    simp only [step] at hst
    split_ifs at hst
    cases hst
    exact .popping h.fifo (fun hwaiting => (h.notified hwaiting).trans (Nat.le_succ _)) h.threw t
  | resume t =>
    simp only [step] at hst
    split_ifs at hst with hwoken
    cases hst
    refine Inv.popping (m := { m with queue := m.queue.wakeUp t }) h.fifo ?_ h.threw t
    intro hwaiting
    have hlength : (m.queue.woken.erase t).length + 1 = m.queue.woken.length := by
      have := List.length_pos_of_mem hwoken
      rw [List.length_erase_of_mem hwoken]
      omega
    calc m.queue.queue_.length ≤ m.queue.woken.length := h.notified hwaiting
      _ = (m.queue.woken.erase t).length + 1 := hlength.symm
  | wakeSpuriously t =>
    simp only [step] at hst
    split_ifs at hst with hwaits
    cases hst
    refine ⟨h.fifo, ?_, h.threw⟩
    intro _
    calc m.queue.queue_.length ≤ m.queue.woken.length := h.notified (List.ne_nil_of_mem hwaits)
      _ ≤ (m.queue.woken ++ [t]).length := by simp
  | try_pop t =>
    simp only [step] at hst
    split_ifs at hst
    cases hst
    rcases hqueue : m.queue.queue_ with _ | ⟨value, rest⟩
    · simpa [SafeQueue.try_pop, hqueue] using h
    · refine ⟨?_, ?_, h.threw⟩
      · have hfifo := h.fifo
        rw [hqueue] at hfifo
        simpa [SafeQueue.try_pop, hqueue] using hfifo
      · intro hwaiting
        have hbound := h.notified (by simpa [SafeQueue.try_pop, hqueue] using hwaiting)
        rw [hqueue, List.length_cons] at hbound
        simpa [SafeQueue.try_pop, hqueue] using Nat.le_of_succ_le hbound
  | drain t =>
    simp only [step] at hst
    split_ifs at hst
    cases hst
    refine ⟨?_, fun _ => Nat.zero_le _, h.threw⟩
    simpa [SafeQueue.drain, Function.comp_def] using h.fifo
  | stop =>
    cases hst
    exact ⟨h.fifo, h.notified, fun _ => rfl⟩

theorem inv_of_reaches [DecidableEq τ] {m : Monitor T τ} (h : Reaches step init m) : m.Inv :=
  h.invariant inv_init fun _ _ _ hinv _ hst => step_inv hinv hst

/-- a woken thread that finds a value takes it -/
theorem step_resume [DecidableEq τ] {m : Monitor T τ} {t : τ} (ht : t ∈ m.queue.woken) {value : T} {rest : List T}
    (hqueue : m.queue.queue_ = value :: rest) :
    ∃ m', m.step (.resume t) = some m' ∧ m'.taken = m.taken ++ [(t, value)] := by
  refine ⟨_, by rw [step, if_pos ht], ?_⟩
  simp [popping, SafeQueue.pop, SafeQueue.empty, wakeUp, hqueue]

/-- **Every value is handed over.** In every run, by any number of threads and whichever of them a push notifies, the
values taken are those pushed first, in the order they were pushed; `pop` throws in a stopped system only; and while a
thread waits there is a woken thread for every value, one of which takes the oldest when it gets the mutex. -/
theorem handed_over [DecidableEq τ] {m : Monitor T τ} (h : Reaches step init m) :
    m.taken.map Prod.snd ++ m.queue.queue_ = m.pushed ∧ (m.threw ≠ [] → m.systemRunning = false) ∧
    ∀ t ∈ m.queue.waiting, m.queue.queue_.length ≤ m.queue.woken.length ∧
      ∀ value rest, m.queue.queue_ = value :: rest → ∃ t' ∈ m.queue.woken, ∃ m',
        m.step (.resume t') = some m' ∧ m'.taken = m.taken ++ [(t', value)] := by
  have hinv := inv_of_reaches h
  refine ⟨hinv.fifo, hinv.threw, ?_⟩
  intro t ht
  have hbound := hinv.notified (List.ne_nil_of_mem ht)
  refine ⟨hbound, ?_⟩
  intro value rest hqueue
  have hpos : 0 < m.queue.woken.length := by
    rw [hqueue, List.length_cons] at hbound
    omega
  obtain ⟨t', ht'⟩ := List.exists_mem_of_length_pos hpos
  exact ⟨t', ht', step_resume ht' hqueue⟩

/-- threads 1 and 2 wait, and one value is pushed -/
def oneForTwo : Monitor ℕ ℕ := (run step init [.pop 1, .pop 2, .push 7 1]).get rfl

theorem handed_over_oneForTwo : oneForTwo.queue.waiting = [1] ∧ oneForTwo.queue.queue_ = [7] ∧
    ∃ t' ∈ oneForTwo.queue.woken, ∃ m', oneForTwo.step (.resume t') = some m' ∧
      m'.taken = oneForTwo.taken ++ [(t', 7)] := by
  have hreached : Reaches step init oneForTwo := .of_run (Option.some_get _).symm
  obtain ⟨-, -, hwaiting⟩ := handed_over hreached
  exact ⟨rfl, rfl, (hwaiting 1 (by decide)).2 7 [] rfl⟩

end Monitor

end SafeQueue

end HawkTxn
