/-
The schedules of a node (`TransactionManager.cpp`, `ResourceManager.cpp`).

A grant of the lock manager is an access of its resource, and a transaction is finished when it is committed or aborted.
Locks are taken statement by statement and given back all at once at the end, so the grants of a node make a strict
schedule, whatever is polled, answered and aborted in between.

A transaction that asks again for a resource it holds gets it in the mode it holds it in, or not at all: no lock changes
its mode while it is held.

Results:
- `strict_history`: the schedule of every run is strict;
- `history_serializable`: so it is equivalent to running the finished transactions in the order of their ends.
-/
import HawkTxn.Actions
import HawkTxn.Core.Schedules

namespace HawkTxn

open HawkTxn.Core UnorderedMap

namespace TransactionManager

variable {n : NodeId} {tm tm' : TransactionManager} {a : Action} {log : List Action} {t : TransactionId}
  {r : ResourceId} {m : LockMode}

/-! ## Schedules -/

/-- does the holder keep readers out? -/
def writes (mode : LockMode) : Bool := mode = .exclusive

theorem writes_injective : Function.Injective writes := by
  intro m m'
  cases m <;> cases m' <;> simp [writes]

def Action.scheduled : Action → Option (ScheduleEvent TransactionId ResourceId)
  | .granted t r m => some (.access t r (writes m))
  | .ended t _ => some (.finish t)
  | _ => none

/-- the grants and the ends of a run -/
def history (log : List Action) : Schedule TransactionId ResourceId := log.filterMap Action.scheduled

theorem history_append (log : List Action) (a : Action) : history (log ++ [a]) =
    history log ++ a.scheduled.toList := by
  unfold history
  rw [List.filterMap_append]
  cases h : a.scheduled <;> simp [h]

/-- what the grants and the ends so far say about the state -/
structure HistoryInv (log : List Action) (tm : TransactionManager) : Prop where
  numbered : Numbered tm
  strict : Strict (history log)
  /-- the locks of a transaction that has not ended -/
  held : ∀ t r m, .access t r (writes m) ∈ history log → .finish t ∉ history log →
    (tm.resourceManager.getResourceHolders r).lookup t = some m
  /-- an ended transaction does not come back -/
  gone : ∀ t, .finish t ∈ history log → t ∉ tm.activeTransactions ∧ t < tm.nextTransactionId

theorem historyInv_init (n : NodeId) : HistoryInv [] (init n) :=
  ⟨numbered_init n, strict_nil, fun _ _ _ h => absurd h List.not_mem_nil, fun _ h => absurd h List.not_mem_nil⟩

/-- the locks of other transactions, and those an action leaves its own -/
theorem HistoryInv.of_move (hinv : HistoryInv log tm) (h : Move tm a tm')
    (hstrict : Strict (history (log ++ [a])))
    (hheld : ∀ t r m, .access t r (writes m) ∈ history (log ++ [a]) → .finish t ∉ history (log ++ [a]) →
      (tm'.resourceManager.getResourceHolders r).lookup t = some m)
    (hend : ∀ t status, a = .ended t status → t ∉ tm'.activeTransactions) : HistoryInv (log ++ [a]) tm' := by
  refine ⟨h.numbered hinv.numbered, hstrict, hheld, ?_⟩
  intro t ht
  rw [history_append, List.mem_append, Option.mem_toList] at ht
  rcases ht with ht | ht
  · obtain ⟨hgone, hlt⟩ := hinv.gone t ht
    exact ⟨h.stays_gone hgone hlt, hlt.trans_le h.next_le⟩
  · cases a with
    | ended t' status =>
      obtain rfl : t' = t := by simpa [Action.scheduled] using ht
      exact ⟨hend _ _ rfl, h.transId_lt hinv.numbered⟩
    | _ => simp [Action.scheduled] at ht

/-- an action that is no grant and no end changes no lock -/
theorem HistoryInv.of_unscheduled (hinv : HistoryInv log tm) (h : Move tm a tm') (ha : a.scheduled = none) :
    HistoryInv (log ++ [a]) tm' := by
  have hsame : history (log ++ [a]) = history log := by rw [history_append, ha]; simp
  refine hinv.of_move h (hsame ▸ hinv.strict) ?_ ?_
  · intro t r m
    rw [hsame, h.lock]
    intro haccess hopen
    have hlock := hinv.held t r m haccess hopen
    cases a <;> first | exact hlock | cases ha
  · rintro t status rfl
    cases ha

theorem move_historyInv (hinv : HistoryInv log tm) (h : Move tm a tm') : HistoryInv (log ++ [a]) tm' := by
  cases a with
  | granted t r m =>
    have happ : history (log ++ [.granted t r m]) = history log ++ [.access t r (writes m)] := history_append log _
    have hlock := h.lock
    cases h with
    | @granted _ txn sql _ here owner acquired =>
      have hopen : .finish t ∉ history log :=
        fun hend => (hinv.gone t hend).1 (mem_iff_lookup.2 ⟨txn, here.lookup⟩)
      refine hinv.of_move (.granted here owner acquired) ?_ ?_ (by simp)
      · -- a holder that has not ended would not let the lock be granted
        rw [happ]
        refine strict_append_access hinv.strict hopen fun t' w haccess _ hconflict => ?_
        by_contra hopen'
        obtain ⟨m', rfl⟩ : ∃ m', writes m' = w := by
          cases w
          · exact ⟨.shared, rfl⟩
          · exact ⟨.exclusive, rfl⟩
        obtain ⟨hm, hm'⟩ := ResourceManager.shared_of_granted acquired (hinv.held t' r m' haccess hopen')
        rw [hm, hm'] at hconflict
        simp [writes] at hconflict
      · intro t' r' m' haccess hopen'
        rw [happ, List.mem_append] at haccess hopen'
        rw [hlock]
        simp only [Action.lockAfter]
        rcases haccess with haccess | haccess
        · have hold := hinv.held t' r' m' haccess fun hend => hopen' (Or.inl hend)
          split_ifs with hsame
          · -- the lock is taken again, in the same mode
            obtain ⟨rfl, rfl⟩ := hsame
            obtain ⟨hm, hm'⟩ := ResourceManager.shared_of_granted acquired hold
            rw [hm, hm']
          · exact hold
        · obtain ⟨rfl, rfl, hm⟩ : t' = t ∧ r' = r ∧ writes m' = writes sql.lockMode := by simpa using haccess
          rw [if_pos ⟨rfl, rfl⟩, writes_injective hm]
  | ended t status =>
    have happ : history (log ++ [.ended t status]) = history log ++ [.finish t] := history_append log _
    have hlock := h.lock
    cases h with
    | @ended _ txn _ _ H active nodeId next released lookup =>
      have hopen : .finish t ∉ history log :=
        fun hend => (hinv.gone t hend).1 (mem_iff_lookup.2 ⟨txn, active⟩)
      refine hinv.of_move (.ended H active nodeId next released lookup) ?_ ?_ ?_
      · rw [happ]; exact strict_append_finish hinv.strict hopen
      · intro t' r m haccess hopen'
        rw [happ, List.mem_append] at haccess hopen'
        have hne : t' ≠ t := fun heq => hopen' (Or.inr (by simp [heq]))
        rw [hlock]
        simp only [Action.lockAfter, if_neg hne]
        refine hinv.held t' r m (haccess.resolve_right (by simp)) fun hend => hopen' (Or.inl hend)
      · intro t' status' heq
        cases heq
        rw [← AList.lookup_eq_none, lookup, if_pos rfl]
  | began t statements => exact hinv.of_unscheduled h rfl
  | refused t r m => exact hinv.of_unscheduled h rfl
  | asked t r m => exact hinv.of_unscheduled h rfl
  | answered t granted r => exact hinv.of_unscheduled h rfl

/-- **Strict schedules.** -/
theorem strict_history (h : ReachesBy (logged step moves) (fun _ o => Silent o.env) (init n, []) (tm, log)) :
    Strict (history log) := by
  have hadmitted : ReachesBy (logged step moves) (fun s o => Silent o.env ∧ Admits moves (fun _ _ => True) s.1 o)
      (init n, []) (tm, log) := h.mono fun _ _ hE => ⟨hE, fun _ _ => trivial⟩
  have hinv : HistoryInv log tm := by
    refine logged_invariant (P := HistoryInv) (fun _ _ _ => path_of_step) ?_ hadmitted (historyInv_init n)
    exact fun log s a s' hinv _ hmove => move_historyInv hinv hmove
  exact hinv.strict

/-- **Serializability.** In every run of a node no transaction precedes itself by conflicting grants, and the grants and
ends of the finished transactions are those of running them one at a time, in the order of their ends, with conflicting
grants in the same order. -/
theorem history_serializable
    (h : ReachesBy (logged step moves) (fun _ o => Silent o.env) (init n, []) (tm, log)) :
    (∀ t, ¬ Relation.TransGen (Precedes (history log)) t t) ∧
    (serial (history log)).Perm ((history log).filter fun e => .finish e.owner ∈ history log) ∧
    ∀ t u r w w', .finish t ∈ history log → .finish u ∈ history log → t ≠ u → w = true ∨ w' = true →
      (Before (history log) (.access t r w) (.access u r w') ↔
        Before (serial (history log)) (.access t r w) (.access u r w')) :=
  have hstrict := strict_history h
  ⟨hstrict.acyclic, hstrict.serial_perm, fun _ _ _ _ _ ht hu hne => hstrict.conflict_equivalent ht hu hne⟩

/-- two writers of resource 5, the second one begun before the first one commits -/
def writersInTurn : TransactionManager × List Action :=
  (run (logged step moves) (init 1, []) [.beginTransaction .quiet [(5, .exclusive)],
    .tryExecuteNextSQLStatement .quiet 1, .beginTransaction .quiet [(5, .exclusive)],
    .tryExecuteNextSQLStatement .quiet 1, .tryExecuteNextSQLStatement .quiet 2,
    .tryExecuteNextSQLStatement .quiet 2]).get rfl

theorem writersInTurn_reaches :
    ReachesBy (logged step moves) (fun _ o => Silent o.env) (init 1, []) (writersInTurn.1, writersInTurn.2) := by
  have henv : ∀ o ∈ [Op.beginTransaction .quiet [(5, .exclusive)], .tryExecuteNextSQLStatement .quiet 1,
      .beginTransaction .quiet [(5, .exclusive)], .tryExecuteNextSQLStatement .quiet 1,
      .tryExecuteNextSQLStatement .quiet 2, .tryExecuteNextSQLStatement .quiet 2], Silent o.env := by
    simp [Op.env, silent_quiet]
  have hrun : ReachesBy (logged step moves) (fun _ o => Silent o.env ∧ True) (init 1, []) writersInTurn :=
    ReachesBy.of_run_of_forall henv (Option.some_get _).symm
  exact hrun.mono fun _ _ hok => hok.1

theorem history_serializable_writersInTurn :
    history writersInTurn.2 = [.access 1 5 true, .finish 1, .access 2 5 true, .finish 2] ∧
    ¬ Relation.TransGen (Precedes (history writersInTurn.2)) 1 1 :=
  ⟨by decide, (history_serializable writersInTurn_reaches).1 1⟩

end TransactionManager

end HawkTxn
