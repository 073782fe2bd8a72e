/-
Collecting one report from each of several senders by counting to N.

A `Collector` starts a round by addressing a list of senders, merges what it receives and fires at the report that makes
as many as it addressed; then it starts over. It counts only. `round` and `answered` are its history: which round it
is in, and whose reports it has received in it. A `Counter` is what a program keeps: the expected and the received
number, and the merged data.

- `Inv`: what holds while only admitted reports are received, that is reports of the current round, each from an
  addressed sender and the sender's first;
- `Inv.exact`: with admitted reports only, the reports at which it fires are exactly one of the current round from each
  addressed sender;
- `Counter.Refines.receive`, `Counter.Refines.threshold_iff`: a counter keeps what the collector has merged, and reaches
  its threshold when the collector fires.
-/
import Mathlib.Tactic

namespace HawkTxn.Core

variable {ν δ : Type*}

/-- who sent it, the round it answers, what it carries -/
structure Collector.Report (ν δ : Type*) where
  sender : ν
  round : ℕ
  data : δ

/-- a collector in a round -/
structure Collector (ν δ : Type*) where
  /-- rounds started -/
  round : ℕ
  /-- by the last start -/
  addressed : List ν
  /-- since the last start or firing -/
  merged : List (Collector.Report ν δ)
  /-- since the last start -/
  answered : List ν

namespace Collector

/-- no round has been started -/
def init : Collector ν δ := ⟨0, [], [], []⟩

def start (c : Collector ν δ) (addressed : List ν) : Collector ν δ := ⟨c.round + 1, addressed, [], []⟩

/-- does the next report make as many as were addressed? -/
def Fires (c : Collector ν δ) : Prop := c.addressed.length ≤ c.merged.length + 1

instance (c : Collector ν δ) : Decidable c.Fires := inferInstanceAs (Decidable (_ ≤ _))

def receive (c : Collector ν δ) (r : Report ν δ) : Collector ν δ where
  round := c.round
  addressed := c.addressed
  merged := if c.Fires then [] else c.merged ++ [r]
  answered := c.answered ++ [r.sender]

inductive Input (ν δ : Type*) where
  | start (addressed : List ν)
  | receive (r : Report ν δ)

/-- the collector after an input, if there is one -/
def after (c : Collector ν δ) : Option (Input ν δ) → Collector ν δ
  | none => c
  | some (.start addressed) => c.start addressed
  | some (.receive r) => c.receive r

/-- the report answers the current round, comes from an addressed sender and is the sender's first -/
structure Admitted (c : Collector ν δ) (r : Report ν δ) : Prop where
  round : r.round = c.round
  addressed : r.sender ∈ c.addressed
  first : r.sender ∉ c.answered

/-- a report among the inputs is admitted -/
def Accepts (c : Collector ν δ) : Option (Input ν δ) → Prop
  | some (.receive r) => c.Admitted r
  | _ => True

instance [DecidableEq ν] (c : Collector ν δ) (r : Report ν δ) : Decidable (c.Admitted r) :=
  decidable_of_iff (r.round = c.round ∧ r.sender ∈ c.addressed ∧ r.sender ∉ c.answered)
    ⟨fun h => ⟨h.1, h.2.1, h.2.2⟩, fun h => ⟨h.round, h.addressed, h.first⟩⟩

instance [DecidableEq ν] (c : Collector ν δ) (i : Option (Input ν δ)) : Decidable (c.Accepts i) :=
  match i with
  | some (.receive r) => inferInstanceAs (Decidable (c.Admitted r))
  | some (.start _) => inferInstanceAs (Decidable True)
  | none => inferInstanceAs (Decidable True)

/-- with r, the merged reports are exactly one of the current round from each addressed sender -/
structure Exact (c : Collector ν δ) (r : Report ν δ) : Prop where
  senders : ((c.merged ++ [r]).map Report.sender).Perm c.addressed
  round : ∀ q ∈ c.merged ++ [r], q.round = c.round

/-- either everybody who answered is merged, or everybody has answered -/
structure Inv (c : Collector ν δ) : Prop where
  nodup : c.answered.Nodup
  subset : c.answered ⊆ c.addressed
  pending : c.merged.map Report.sender = c.answered ∨ c.merged = [] ∧ c.answered.Perm c.addressed
  round : ∀ q ∈ c.merged, q.round = c.round

theorem inv_init : Inv (init : Collector ν δ) :=
  ⟨List.nodup_nil, List.Subset.refl _, Or.inl rfl, fun _ hq => absurd hq List.not_mem_nil⟩

theorem inv_start (c : Collector ν δ) (addressed : List ν) : Inv (c.start addressed) :=
  ⟨List.nodup_nil, List.nil_subset _, Or.inl rfl, fun _ hq => absurd hq List.not_mem_nil⟩

variable {c : Collector ν δ} {r : Report ν δ}

/-- while somebody who was addressed has not answered, everybody who answered is merged -/
theorem Inv.merged_senders (hinv : Inv c) (hadm : Admitted c r) : c.merged.map Report.sender = c.answered :=
  hinv.pending.resolve_right fun h => hadm.first (h.2.mem_iff.2 hadm.addressed)

theorem Inv.nodup_senders (hinv : Inv c) (hadm : Admitted c r) : (c.answered ++ [r.sender]).Nodup :=
  List.nodup_append.2 ⟨hinv.nodup, List.nodup_singleton _, fun _ ha _ hb hab =>
    hadm.first (List.mem_singleton.1 hb ▸ hab ▸ ha)⟩

theorem Inv.subset_addressed (hinv : Inv c) (hadm : Admitted c r) : c.answered ++ [r.sender] ⊆ c.addressed :=
  List.append_subset.2 ⟨hinv.subset, List.cons_subset.2 ⟨hadm.addressed, List.nil_subset _⟩⟩

/-- **Counting to N.** With admitted reports only, the reports at which the collector fires are exactly one of the
current round from each addressed sender. -/
theorem Inv.exact (hinv : Inv c) (hadm : Admitted c r) (hfires : c.Fires) : Exact c r where
  senders := by
    have hsub : (c.answered ++ [r.sender]).Subperm c.addressed :=
      List.subperm_of_subset (hinv.nodup_senders hadm) (hinv.subset_addressed hadm)
    have hlen : c.addressed.length ≤ (c.answered ++ [r.sender]).length := by
      rw [← hinv.merged_senders hadm]; simpa [Fires] using hfires
    rw [List.map_append, hinv.merged_senders hadm]
    exact hsub.perm_of_length_le hlen
  round q hq := by
    rcases List.mem_append.1 hq with hq | hq
    · exact hinv.round q hq
    · rw [List.mem_singleton.1 hq]; exact hadm.round

theorem Inv.receive (hinv : Inv c) (hadm : Admitted c r) : Inv (c.receive r) where
  nodup := hinv.nodup_senders hadm
  subset := hinv.subset_addressed hadm
  pending := by
    by_cases hfires : c.Fires
    · refine Or.inr ⟨if_pos hfires, ?_⟩
      have hsenders := (hinv.exact hadm hfires).senders
      rwa [List.map_append, hinv.merged_senders hadm] at hsenders
    · apply Or.inl
      simp only [Collector.receive, if_neg hfires, List.map_append, hinv.merged_senders hadm]
      rfl
  round q hq := by
    simp only [Collector.receive] at hq
    split_ifs at hq with hfires
    · exact absurd hq List.not_mem_nil
    · rcases List.mem_append.1 hq with hq | hq
      · exact hinv.round q hq
      · rw [List.mem_singleton.1 hq]; exact hadm.round

theorem Inv.after (hinv : Inv c) {i : Option (Input ν δ)} (hi : c.Accepts i) : Inv (c.after i) := by
  cases i with
  | none => exact hinv
  | some i =>
    cases i with
    | start addressed => exact inv_start c addressed
    | receive r => exact hinv.receive hi

end Collector

/-! ## Counting -/

/-- how received data is merged -/
structure Merging (δ σ : Type*) where
  empty : σ
  add : σ → δ → σ

variable {σ : Type*}

/-- what has been merged after a list of data -/
def Merging.all (M : Merging δ σ) (l : List δ) : σ := l.foldl M.add M.empty

theorem Merging.all_append (M : Merging δ σ) (l : List δ) (d : δ) : M.all (l ++ [d]) = M.add (M.all l) d :=
  List.foldl_append

/-- what a program keeps of a collector: two numbers and the merged data -/
structure Counter (σ : Type*) where
  expected : ℤ
  received : ℤ
  aggregated : σ

namespace Counter

open Collector

/-- nothing has been merged -/
def start (M : Merging δ σ) (expected : ℤ) : Counter σ := ⟨expected, 0, M.empty⟩

/-- the data is merged and counted -/
def add (M : Merging δ σ) (k : Counter σ) (data : δ) : Counter σ :=
  ⟨k.expected, k.received + 1, M.add k.aggregated data⟩

/-- has the expected number been received? -/
def Threshold (k : Counter σ) : Prop := k.expected ≤ k.received

instance (k : Counter σ) : Decidable k.Threshold := inferInstanceAs (Decidable (_ ≤ _))

/-- the data is merged and counted, and at the threshold counting starts over -/
def receive (M : Merging δ σ) (k : Counter σ) (data : δ) : Counter σ :=
  if (k.add M data).Threshold then start M k.expected else k.add M data

/-- the counter keeps what the collector has merged -/
structure Refines (M : Merging δ σ) (k : Counter σ) (c : Collector ν δ) : Prop where
  expected : k.expected.toNat = c.addressed.length
  received : k.received = c.merged.length
  aggregated : k.aggregated = M.all (c.merged.map Report.data)

variable {M : Merging δ σ} {k : Counter σ} {c : Collector ν δ}

theorem refines_init : Refines M (start M 0) (init : Collector ν δ) := ⟨rfl, rfl, rfl⟩

theorem refines_start (c : Collector ν δ) {expected : ℤ} {addressed : List ν}
    (h : expected.toNat = addressed.length) : Refines M (start M expected) (c.start addressed) := ⟨h, rfl, rfl⟩

/-- counter and collector reach the threshold together -/
theorem Refines.threshold_iff (h : Refines M k c) (data : δ) : (k.add M data).Threshold ↔ c.Fires :=
  calc (k.add M data).Threshold ↔ k.expected ≤ k.received + 1 := Iff.rfl
    _ ↔ k.expected ≤ ((c.merged.length + 1 : ℕ) : ℤ) := by rw [h.received, Nat.cast_succ]
    _ ↔ k.expected.toNat ≤ c.merged.length + 1 := Int.toNat_le.symm
    _ ↔ c.Fires := by rw [h.expected]; rfl

theorem Refines.add_aggregated (h : Refines M k c) (r : Report ν δ) :
    (k.add M r.data).aggregated = M.all ((c.merged ++ [r]).map Report.data) :=
  calc (k.add M r.data).aggregated
      = M.add (M.all (c.merged.map Report.data)) r.data := by rw [← h.aggregated]; rfl
    _ = M.all (c.merged.map Report.data ++ [r.data]) := (M.all_append _ _).symm
    _ = M.all ((c.merged ++ [r]).map Report.data) := by rw [List.map_append]; rfl

/-- **Refinement.** Counting keeps what the collector has merged. -/
theorem Refines.receive (h : Refines M k c) (r : Report ν δ) : Refines M (k.receive M r.data) (c.receive r) := by
  by_cases hfires : c.Fires
  · have hthreshold : (k.add M r.data).Threshold := (h.threshold_iff r.data).2 hfires
    simp only [Counter.receive, Collector.receive, if_pos hthreshold, if_pos hfires]
    exact ⟨h.expected, rfl, rfl⟩
  · have hthreshold : ¬ (k.add M r.data).Threshold := fun ht => hfires ((h.threshold_iff r.data).1 ht)
    have hreceived : k.received + 1 = ((c.merged ++ [r]).length : ℤ) := by
      rw [h.received, List.length_append, List.length_singleton, Nat.cast_succ]
    simp only [Counter.receive, Collector.receive, if_neg hthreshold, if_neg hfires]
    exact ⟨h.expected, hreceived, h.add_aggregated r⟩

end Counter

end HawkTxn.Core
