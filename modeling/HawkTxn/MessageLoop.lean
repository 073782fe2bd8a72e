/-
The message processing loop of a node and the queue it reads (`messageProcessingLoop`, `SafeQueue.h`).

One thread takes the messages from the incoming queue of a node: while the system runs it pops a message, which may mean
to wait, and handles it. It catches what a handler throws and goes on; only the exception of `pop` ends it. Stopping the
node sets its flag, as its destructor does before it joins the loop.

Results:
- `served_in_order`: every message is handled once and in the order it was pushed, and the loop never waits at a
  message;
- `stopped`: a stopped node handles one more message at most, and the loop it joins may wait for ever.
-/
import HawkTxn.SafeQueue

namespace HawkTxn

open HawkTxn.Core

universe u

variable {Msg : Type u}

/-- where the message processing loop is -/
inductive MessageLoop (Msg : Type u) where
  /-- before the loop's condition -/
  | top
  | inPop
  | handling (msg : Msg)
  | ended

/-- the message taken and not handled yet -/
def MessageLoop.inHand : MessageLoop Msg → List Msg
  | .handling msg => [msg]
  | _ => []

/-- the incoming queue of a node, whose only reader is the loop -/
structure MessageServer (Msg : Type u) where
  queue : SafeQueue Msg Unit
  loop : MessageLoop Msg
  systemRunning : Bool
  /-- so far -/
  pushed : List Msg
  /-- so far -/
  handled : List Msg

namespace MessageServer

/-! ## Model -/

def init : MessageServer Msg := ⟨.new, .top, true, [], []⟩

inductive Act (Msg : Type u) where
  | receive (msg : Msg)
  /-- the loop reads its condition, and goes on to `pop` -/
  | enterLoop
  /-- the loop, woken, gets the mutex back -/
  | resume
  | wakeSpuriously
  /-- the handler returns or throws -/
  | finish
  | stop

/-- at most one thread waits, so there is nothing to choose -/
def receive (s : MessageServer Msg) (msg : Msg) : MessageServer Msg :=
  { s with queue := s.queue.push msg 0, pushed := s.pushed ++ [msg] }

/-- the loop is in `pop`, with the mutex -/
def popping (s : MessageServer Msg) : MessageServer Msg :=
  match s.queue.pop s.systemRunning () with
  | (queue, .waits) => { s with queue := queue, loop := .inPop }
  | (queue, .threw) => { s with queue := queue, loop := .ended }
  | (queue, .took msg) => { s with queue := queue, loop := .handling msg }

def step (s : MessageServer Msg) : Act Msg → Option (MessageServer Msg)
  | .receive msg => some (s.receive msg)
  | .enterLoop =>
    match s.loop with
    | .top => if s.systemRunning then some s.popping else some { s with loop := .ended }
    | _ => none
  | .resume => if () ∈ s.queue.woken then some (popping { s with queue := s.queue.wakeUp () }) else none
  | .wakeSpuriously =>
    if () ∈ s.queue.waiting then some { s with queue := s.queue.wakeSpuriously () } else none
  | .finish =>
    match s.loop with
    | .handling msg => some { s with loop := .top, handled := s.handled ++ [msg] }
    | _ => none
  | .stop => some { s with systemRunning := false }

/-! ## In order and once -/

variable {s s' : MessageServer Msg} {a : Act Msg}

/-- who is in `pop`: the loop alone, and it waits at an empty queue only -/
def InPop (q : SafeQueue Msg Unit) : MessageLoop Msg → Prop
  | .inPop => (q.waiting = [()] ∧ q.woken = [] ∧ q.queue_ = []) ∨ (q.waiting = [] ∧ q.woken = [()])
  | _ => q.waiting = [] ∧ q.woken = []

structure Inv (s : MessageServer Msg) : Prop where
  order : s.handled ++ s.loop.inHand ++ s.queue.queue_ = s.pushed
  inPop : InPop s.queue s.loop
  ended : s.loop = .ended → s.systemRunning = false

theorem inv_init : Inv (init : MessageServer Msg) where
  order := rfl
  inPop := ⟨rfl, rfl⟩
  ended h := by cases h

theorem InPop.push {q : SafeQueue Msg Unit} {loop : MessageLoop Msg} (msg : Msg)
    (h : InPop q loop) : InPop (q.push msg 0) loop := by
  have hnobody : q.waiting = [] → (q.push msg 0).waiting = q.waiting ∧ (q.push msg 0).woken = q.woken := by
    intro hwaiting
    simp [SafeQueue.push, SafeQueue.notify_one, hwaiting]
  cases loop with
  | inPop =>
    rcases h with ⟨hwaiting, hwoken, -⟩ | ⟨hwaiting, hwoken⟩
    · right
      simp [SafeQueue.push, SafeQueue.notify_one, hwaiting, hwoken]
    · right
      rw [(hnobody hwaiting).1, (hnobody hwaiting).2]
      exact ⟨hwaiting, hwoken⟩
  | _ =>
    obtain ⟨hwaiting, hwoken⟩ := hnobody h.1
    exact ⟨hwaiting.trans h.1, hwoken.trans h.2⟩

/-- the loop goes into `pop`, or back into it -/
theorem Inv.popping (horder : s.handled ++ s.queue.queue_ = s.pushed)
    (hnobody : s.queue.waiting = [] ∧ s.queue.woken = []) : s.popping.Inv := by
  unfold MessageServer.popping
  rcases SafeQueue.pop_cases s.queue s.systemRunning () with ⟨hqueue, -, hpop⟩ | ⟨-, hstopped, hpop⟩ |
    ⟨msg, rest, hqueue, hpop⟩
  · rw [hpop]
    refine ⟨by simpa [MessageLoop.inHand] using horder, Or.inl ⟨?_, hnobody.2, hqueue⟩, fun h => by cases h⟩
    simp [hnobody.1]
  · rw [hpop]
    exact ⟨by simpa [MessageLoop.inHand] using horder, hnobody, fun _ => hstopped⟩
  · rw [hpop]
    rw [hqueue] at horder
    exact ⟨by simpa [MessageLoop.inHand] using horder, hnobody, fun h => by cases h⟩

/-- a thread that waits or is woken is the loop in `pop` -/
theorem Inv.loop_of_mem (h : s.Inv) (hmem : () ∈ s.queue.waiting ++ s.queue.woken) : s.loop = .inPop := by
  have hin := h.inPop
  cases hloop : s.loop with
  | inPop => rfl
  | _ =>
    rw [hloop] at hin
    rw [hin.1, hin.2] at hmem
    cases hmem

/-- nobody is in `pop` but the loop that gets the mutex back -/
theorem Inv.wakeUp (h : s.Inv) (hwoken : () ∈ s.queue.woken) :
    s.queue.waiting = [] ∧ (s.queue.wakeUp ()).woken = [] := by
  have hin := h.inPop
  rw [h.loop_of_mem (List.mem_append_right _ hwoken)] at hin
  rcases hin with ⟨-, hnone, -⟩ | ⟨hwaiting, hone⟩
  · rw [hnone] at hwoken
    cases hwoken
  · exact ⟨hwaiting, by simp [SafeQueue.wakeUp, hone]⟩

theorem step_inv (h : s.Inv) (hst : s.step a = some s') : s'.Inv := by
  cases a with
  | receive msg =>
    cases hst
    refine ⟨?_, h.inPop.push msg, h.ended⟩
    simp [receive, ← h.order]
  | enterLoop =>
    simp only [step] at hst
    split at hst
    · rename_i hloop
      have horder := h.order
      have hin := h.inPop
      rw [hloop] at horder hin
      simp only [MessageLoop.inHand, List.append_nil] at horder
      split_ifs at hst with hrunning
      · cases hst
        exact .popping horder hin
      · cases hst
        exact ⟨by simpa [MessageLoop.inHand] using horder, hin, fun _ => Bool.eq_false_iff.2 hrunning⟩
    · cases hst
  | resume =>
    simp only [step] at hst
    split_ifs at hst with hwoken
    cases hst
    have horder := h.order
    rw [h.loop_of_mem (List.mem_append_right _ hwoken)] at horder
    simp only [MessageLoop.inHand, List.append_nil] at horder
    exact Inv.popping (s := { s with queue := s.queue.wakeUp () }) horder (h.wakeUp hwoken)
  | wakeSpuriously =>
    simp only [step] at hst
    split_ifs at hst with hwaits
    cases hst
    have hloop := h.loop_of_mem (List.mem_append_left _ hwaits)
    have hin := h.inPop
    rw [hloop] at hin
    refine ⟨h.order, ?_, h.ended⟩
    rw [hloop]
    rcases hin with ⟨hwaiting, hwoken, -⟩ | ⟨hwaiting, -⟩
    · exact Or.inr ⟨by simp [SafeQueue.wakeSpuriously, hwaiting], by simp [SafeQueue.wakeSpuriously, hwoken]⟩
    · rw [hwaiting] at hwaits
      cases hwaits
  | finish =>
    simp only [step] at hst
    split at hst
    · rename_i msg hloop
      cases hst
      have horder := h.order
      have hin := h.inPop
      rw [hloop] at horder hin
      exact ⟨by simpa [MessageLoop.inHand] using horder, hin, fun h => by cases h⟩
    · cases hst
  | stop =>
    cases hst
    exact ⟨h.order, h.inPop, fun _ => rfl⟩

theorem inv_of_reaches (h : Reaches step init s) : s.Inv :=
  h.invariant inv_init fun _ _ _ hinv _ hst => step_inv hinv hst

/-- **In order and once.** In every run of the loop, whatever arrives and however it is woken: the messages handled, the
one in hand and those in the queue are the messages pushed, in this order; the loop waits at an empty queue only, and it
ends in a stopped node only. -/
theorem served_in_order (h : Reaches step init s) :
    s.handled ++ s.loop.inHand ++ s.queue.queue_ = s.pushed ∧ (() ∈ s.queue.waiting → s.queue.queue_ = []) ∧
    (s.loop = .ended → s.systemRunning = false) := by
  have hinv := inv_of_reaches h
  refine ⟨hinv.order, ?_, hinv.ended⟩
  intro hwaits
  have hin := hinv.inPop
  rw [hinv.loop_of_mem (List.mem_append_left _ hwaits)] at hin
  rcases hin with ⟨-, -, hqueue⟩ | ⟨hwaiting, -⟩
  · exact hqueue
  · rw [hwaiting] at hwaits
    cases hwaits

/-! ## A stopped node -/

/-- the messages a loop may still handle once its node is stopped -/
def owing : MessageLoop Msg → ℕ
  | .inPop => 1
  | .handling _ => 1
  | _ => 0

theorem owing_le (loop : MessageLoop Msg) : owing loop ≤ 1 := by
  cases loop <;> simp [owing]

/-- in a stopped node `pop` never waits -/
theorem popping_stopped (hstopped : s.systemRunning = false) :
    s.popping.systemRunning = false ∧ s.popping.handled = s.handled ∧ owing s.popping.loop ≤ 1 := by
  unfold popping
  split
  · exact ⟨hstopped, rfl, owing_le _⟩
  · exact ⟨hstopped, rfl, owing_le _⟩
  · exact ⟨hstopped, rfl, owing_le _⟩

theorem step_stopped (hinv : s.Inv) (hst : s.step a = some s') (hstopped : s.systemRunning = false) :
    s'.systemRunning = false ∧ s'.handled.length + owing s'.loop ≤ s.handled.length + owing s.loop := by
  cases a with
  | receive msg =>
    cases hst
    exact ⟨hstopped, le_rfl⟩
  | enterLoop =>
    simp only [step] at hst
    split at hst
    · rw [if_neg (by simp [hstopped])] at hst
      cases hst
      exact ⟨hstopped, by simp [owing]⟩
    · cases hst
  | resume =>
    simp only [step] at hst
    split_ifs at hst with hwoken
    cases hst
    have hloop := hinv.loop_of_mem (List.mem_append_right _ hwoken)
    obtain ⟨hstill, hhandled, howing⟩ := popping_stopped (s := { s with queue := s.queue.wakeUp () }) hstopped
    refine ⟨hstill, ?_⟩
    rw [hhandled, hloop]
    exact Nat.add_le_add_left howing _
  | wakeSpuriously =>
    simp only [step] at hst
    split_ifs at hst
    cases hst
    exact ⟨hstopped, le_rfl⟩
  | finish =>
    simp only [step] at hst
    split at hst
    · rename_i msg hloop
      cases hst
      exact ⟨hstopped, by simp [hloop, owing]⟩
    · cases hst
  | stop =>
    cases hst
    exact ⟨rfl, le_rfl⟩

/-- more has been pushed than p, or nothing and the loop waits -/
structure Stranded (p : List Msg) (s : MessageServer Msg) : Prop where
  pushed : p <+: s.pushed
  waits : s.pushed = p → s.loop = .inPop ∧ s.queue.waiting = [()] ∧ s.queue.woken = []

theorem Stranded.step {p : List Msg} (h : Stranded p s) (ha : a ≠ .wakeSpuriously)
    (hst : s.step a = some s') : Stranded p s' := by
  -- what pushes nothing leaves a waiting loop as it is
  have hsame : s'.pushed = s.pushed →
      (s.loop = .inPop → s.queue.waiting = [()] → s.queue.woken = [] → s'.loop = .inPop ∧ s'.queue = s.queue) →
      Stranded p s' := by
    intro hpushed hwaits
    refine ⟨by rw [hpushed]; exact h.pushed, ?_⟩
    intro hp
    obtain ⟨hloop, hwaiting, hwoken⟩ := h.waits (hpushed.symm.trans hp)
    obtain ⟨hloop', hqueue⟩ := hwaits hloop hwaiting hwoken
    rw [hqueue]
    exact ⟨hloop', hwaiting, hwoken⟩
  cases a with
  | receive msg =>
    cases hst
    refine ⟨h.pushed.trans (List.prefix_append _ _), ?_⟩
    intro hp
    have hlength := h.pushed.length_le
    rw [← hp] at hlength
    simp [receive] at hlength
  | enterLoop =>
    simp only [MessageServer.step] at hst
    split at hst
    · rename_i htop
      have hpopping : s.popping.pushed = s.pushed := by
        unfold popping
        split <;> rfl
      split_ifs at hst
      · cases hst
        exact hsame hpopping fun hloop => by rw [htop] at hloop; cases hloop
      · cases hst
        exact hsame rfl fun hloop => by rw [htop] at hloop; cases hloop
    · cases hst
  | resume =>
    simp only [MessageServer.step] at hst
    split_ifs at hst with hmem
    cases hst
    refine hsame ?_ fun _ _ hwoken => by rw [hwoken] at hmem; cases hmem
    unfold popping
    split <;> rfl
  | wakeSpuriously => exact absurd rfl ha
  | finish =>
    simp only [MessageServer.step] at hst
    split at hst
    · rename_i msg hhandling
      cases hst
      exact hsame rfl fun hloop => by rw [hhandling] at hloop; cases hloop
    · cases hst
  | stop =>
    cases hst
    exact hsame rfl fun hloop _ _ => ⟨hloop, rfl⟩

/-- **A stopped node.** Once a node is stopped its loop handles one more message at most, whatever is in the queue; and
if the loop was waiting, it still waits in every later state unless a message has arrived or it woke up by itself, so
that joining it may take for ever. -/
theorem stopped (h : Reaches step init s) (hstopped : s.systemRunning = false) :
    (∀ s', Reaches step s s' → s'.handled.length ≤ s.handled.length + 1) ∧
    (() ∈ s.queue.waiting → ∀ s', ReachesBy step (fun _ a => a ≠ .wakeSpuriously) s s' → s'.pushed = s.pushed →
      s'.loop = .inPop) := by
  have hinv := inv_of_reaches h
  refine ⟨?_, ?_⟩
  · intro s' hrun
    have hlast : s'.Inv ∧ s'.systemRunning = false ∧
        s'.handled.length + owing s'.loop ≤ s.handled.length + owing s.loop := by
      refine hrun.invariant (P := fun t => t.Inv ∧ t.systemRunning = false ∧
        t.handled.length + owing t.loop ≤ s.handled.length + owing s.loop) ⟨hinv, hstopped, le_rfl⟩ ?_
      intro t a t' ht _ hst
      obtain ⟨hstill, hle⟩ := step_stopped ht.1 hst ht.2.1
      exact ⟨step_inv ht.1 hst, hstill, hle.trans ht.2.2⟩
    calc s'.handled.length ≤ s'.handled.length + owing s'.loop := Nat.le_add_right _ _
      _ ≤ s.handled.length + owing s.loop := hlast.2.2
      _ ≤ s.handled.length + 1 := Nat.add_le_add_left (owing_le _) _
  · intro hwaits s' hrun hpushed
    have hloop := hinv.loop_of_mem (List.mem_append_left _ hwaits)
    have hin := hinv.inPop
    rw [hloop] at hin
    have hstart : Stranded s.pushed s := by
      refine ⟨List.prefix_rfl, fun _ => ⟨hloop, ?_⟩⟩
      rcases hin with ⟨hwaiting, hwoken, -⟩ | ⟨hwaiting, -⟩
      · exact ⟨hwaiting, hwoken⟩
      · rw [hwaiting] at hwaits
        cases hwaits
    have hend := hrun.invariant hstart fun _ _ _ ht ha hst => ht.step ha hst
    exact (hend.waits hpushed).1

end MessageServer

end HawkTxn
