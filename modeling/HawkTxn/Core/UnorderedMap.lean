/-
Hash tables (`std::unordered_map`), over Mathlib's association lists with distinct keys.

An `UnorderedMap` is an `AList`: a list of entries whose keys are distinct, so a table with two values for one key
cannot be built. What a hash table does not fix is the order in which a range loop visits its entries. That order is
a parameter: a `HashOrder` rearranges any list of entries, and every loop over a table takes one. A theorem for every
`HashOrder` holds for every iteration order.

- `getD`: the value `operator[]` reads (the default where the key is absent);
- `pushBack`: `m[k].push_back(v)` on a table of vectors; such tables are equal if `operator[]` reads the same
  (`NonemptyEntries.lookup_ext`);
- `iter`: the entries in iteration order.
-/
import Mathlib.Data.List.AList
import Mathlib.Tactic

namespace HawkTxn.Core

/-- a hash table: entries with distinct keys -/
abbrev UnorderedMap (κ ν : Type) := AList (fun _ : κ => ν)

/-- the order in which range loops visit the entries of a table: some rearrangement of them -/
structure HashOrder where
  order : {α : Type} → List α → List α
  perm : ∀ {α : Type} (l : List α), (order l).Perm l

/-- entries in the order they are stored -/
def HashOrder.stored : HashOrder := ⟨fun l => l, fun l => List.Perm.refl l⟩

@[simp] theorem HashOrder.mem_order (H : HashOrder) {α : Type} {l : List α} {x : α} : x ∈ H.order l ↔ x ∈ l :=
  (H.perm l).mem_iff

namespace UnorderedMap

variable {κ ν : Type} [DecidableEq κ]

theorem lookup_insert_eq (m : UnorderedMap κ ν) (k k' : κ) (v : ν) :
    (m.insert k v).lookup k' = if k' = k then some v else m.lookup k' := by
  split_ifs with h
  · subst h; exact AList.lookup_insert m
  · exact AList.lookup_insert_ne h

theorem lookup_erase_eq (m : UnorderedMap κ ν) (k k' : κ) :
    (m.erase k).lookup k' = if k' = k then none else m.lookup k' := by
  split_ifs with h
  · subst h; exact AList.lookup_erase k' m
  · exact AList.lookup_erase_ne h

theorem mem_iff_lookup {m : UnorderedMap κ ν} {k : κ} : k ∈ m ↔ ∃ v, m.lookup k = some v := by
  rw [← AList.lookup_isSome, Option.isSome_iff_exists]

omit [DecidableEq κ] in
theorem eq_empty {m : UnorderedMap κ ν} (h : m.entries = []) : m = ∅ := AList.ext h

omit [DecidableEq κ] in
theorem notMem_of_entries_nil {m : UnorderedMap κ ν} (h : m.entries = []) (k : κ) : k ∉ m := by
  rw [eq_empty h]; exact AList.notMem_empty k

theorem exists_lookup_of_entries_ne_nil {m : UnorderedMap κ ν} (h : m.entries ≠ []) : ∃ k v, m.lookup k = some v := by
  obtain ⟨⟨k, v⟩, rest, hentries⟩ := List.exists_cons_of_ne_nil h
  exact ⟨k, v, AList.mem_lookup_iff.2 (by rw [hentries]; exact List.mem_cons_self)⟩

theorem erase_of_notMem {m : UnorderedMap κ ν} {k : κ} (h : k ∉ m) : m.erase k = m :=
  AList.ext (List.kerase_of_notMem_keys h)

/-- the value `m[k]` reads: the default where `k` is absent -/
def getD (m : UnorderedMap κ ν) (k : κ) (d : ν) : ν := (m.lookup k).getD d

@[simp] theorem getD_empty (k : κ) (d : ν) : getD (∅ : UnorderedMap κ ν) k d = d := rfl

@[simp] theorem getD_insert (m : UnorderedMap κ ν) (k k' : κ) (v d : ν) :
    getD (m.insert k v) k' d = if k' = k then v else getD m k' d := by
  unfold getD
  rw [lookup_insert_eq]
  split_ifs <;> rfl

theorem getD_of_lookup {m : UnorderedMap κ ν} {k : κ} {v : ν} (h : m.lookup k = some v) (d : ν) : getD m k d = v := by
  simp [getD, h]

theorem getD_of_notMem {m : UnorderedMap κ ν} {k : κ} (h : k ∉ m) (d : ν) : getD m k d = d := by
  simp [getD, AList.lookup_eq_none.2 h]

/-- the entries in iteration order -/
def iter (H : HashOrder) (m : UnorderedMap κ ν) : List (κ × ν) := H.order (m.entries.map fun e => (e.1, e.2))

@[simp] theorem mem_iter {H : HashOrder} {m : UnorderedMap κ ν} {k : κ} {v : ν} :
    (k, v) ∈ iter H m ↔ m.lookup k = some v := by
  rw [iter, HashOrder.mem_order]
  have h : m.lookup k = some v ↔ (⟨k, v⟩ : Sigma fun _ : κ => ν) ∈ m.entries := AList.mem_lookup_iff
  rw [h, List.mem_map]
  refine ⟨?_, ?_⟩
  · intro hmem
    obtain ⟨⟨k', v'⟩, hm, he⟩ := hmem
    cases he; exact hm
  · exact fun hm => ⟨⟨k, v⟩, hm, rfl⟩

omit [DecidableEq κ] in
theorem iter_keys_perm (H : HashOrder) (m : UnorderedMap κ ν) : ((iter H m).map Prod.fst).Perm m.keys := by
  refine ((H.perm (m.entries.map fun e => ((e.1, e.2) : κ × ν))).map Prod.fst).trans ?_
  rw [List.map_map]
  exact List.Perm.refl _

omit [DecidableEq κ] in
theorem iter_keys_nodup (H : HashOrder) (m : UnorderedMap κ ν) : ((iter H m).map Prod.fst).Nodup :=
  (iter_keys_perm H m).nodup_iff.2 m.keys_nodup

/-- a table filled by `m[k] = v` for each pair (k, v) of a list, in order -/
def assignAll (m : UnorderedMap κ ν) (l : List (κ × ν)) : UnorderedMap κ ν :=
  l.foldl (fun m e => m.insert e.1 e.2) m

theorem lookup_assignAll (m : UnorderedMap κ ν) {l : List (κ × ν)} (hnd : (l.map Prod.fst).Nodup) {k : κ} {v : ν} :
    (assignAll m l).lookup k = some v ↔ (k, v) ∈ l ∨ k ∉ l.map Prod.fst ∧ m.lookup k = some v := by
  induction l generalizing m with
  | nil => simp [assignAll]
  | cons e l ih =>
    obtain ⟨hfst, hl⟩ := List.nodup_cons.1 hnd
    have hstep : assignAll m (e :: l) = assignAll (m.insert e.1 e.2) l := rfl
    rw [hstep, ih _ hl, lookup_insert_eq]
    obtain ⟨k', v'⟩ := e
    by_cases hk : k = k'
    · subst hk
      have hnot : ∀ w, (k, w) ∉ l := fun w hw => hfst (List.mem_map.2 ⟨(k, w), hw, rfl⟩)
      have hkl : k ∉ l.map Prod.fst := hfst
      simp [hnot, hkl, eq_comm]
    · simp [hk]

/-- copying a table entry by entry, in any order, copies every value -/
theorem lookup_assignAll_iter (H : HashOrder) (m : UnorderedMap κ ν) (k : κ) :
    (assignAll ∅ (iter H m)).lookup k = m.lookup k := by
  apply Option.ext
  intro v
  rw [lookup_assignAll ∅ (iter_keys_nodup H m), mem_iter]
  simp

/-- `m[k].push_back(v)` on a table of vectors -/
def pushBack (m : UnorderedMap κ (List ν)) (k : κ) (v : ν) : UnorderedMap κ (List ν) :=
  m.insert k (getD m k [] ++ [v])

theorem getD_pushBack (m : UnorderedMap κ (List ν)) (k k' : κ) (v : ν) :
    getD (pushBack m k v) k' [] = if k' = k then getD m k [] ++ [v] else getD m k' [] := by
  rw [pushBack, getD_insert]

/-- `m[k].push_back(v)` for each pair (k, v) of a list, in order -/
def pushAll (m : UnorderedMap κ (List ν)) (l : List (κ × ν)) : UnorderedMap κ (List ν) :=
  l.foldl (fun m e => pushBack m e.1 e.2) m

@[simp] theorem pushAll_nil (m : UnorderedMap κ (List ν)) : pushAll m [] = m := rfl

theorem pushAll_append (m : UnorderedMap κ (List ν)) (l₁ l₂ : List (κ × ν)) :
    pushAll m (l₁ ++ l₂) = pushAll (pushAll m l₁) l₂ := List.foldl_append

/-- the vector at k grows by the values pushed at k, in order -/
theorem getD_pushAll (m : UnorderedMap κ (List ν)) (l : List (κ × ν)) (k : κ) :
    getD (pushAll m l) k [] = getD m k [] ++ (l.filter fun e => e.1 = k).map Prod.snd := by
  induction l generalizing m with
  | nil => simp
  | cons e l ih =>
    have hstep : pushAll m (e :: l) = pushAll (pushBack m e.1 e.2) l := rfl
    rw [hstep, ih, getD_pushBack]
    by_cases h : e.1 = k
    · subst h; simp
    · simp [h, Ne.symm h]

theorem mem_getD_pushAll {m : UnorderedMap κ (List ν)} {l : List (κ × ν)} {k : κ} {v : ν} :
    v ∈ getD (pushAll m l) k [] ↔ v ∈ getD m k [] ∨ (k, v) ∈ l := by
  rw [getD_pushAll, List.mem_append, List.mem_map]
  refine ⟨?_, ?_⟩
  · intro hmem
    rcases hmem with h | ⟨⟨k', v'⟩, h, rfl⟩
    · exact Or.inl h
    · obtain ⟨hm, hk⟩ := List.mem_filter.1 h
      exact Or.inr (by simpa [show k' = k by simpa using hk] using hm)
  · intro hmem
    rcases hmem with h | h
    · exact Or.inl h
    · exact Or.inr ⟨(k, v), List.mem_filter.2 ⟨h, by simp⟩, rfl⟩

/-- a loop over rows that pushes a list of pairs for each row -/
theorem foldl_pushAll {ρ : Type} (f : ρ → List (κ × ν)) (rows : List ρ) (m : UnorderedMap κ (List ν)) :
    rows.foldl (fun m row => pushAll m (f row)) m = pushAll m (rows.flatMap f) := by
  induction rows generalizing m with
  | nil => rfl
  | cons row rows ih => rw [List.foldl_cons, ih, List.flatMap_cons, pushAll_append]

/-- an inner loop that pushes the values passing a test under one key -/
theorem foldl_pushBack_if (p : ν → Bool) (k : κ) (l : List ν) (m : UnorderedMap κ (List ν)) :
    l.foldl (fun m v => if p v then pushBack m k v else m) m = pushAll m ((l.filter p).map fun v => (k, v)) := by
  induction l generalizing m with
  | nil => rfl
  | cons v l ih =>
    rw [List.foldl_cons, ih]
    by_cases h : p v
    · simp only [h, if_true, List.filter_cons_of_pos, List.map_cons]; rfl
    · simp [h]

/-- no vector of the table is empty -/
def NonemptyEntries (m : UnorderedMap κ (List ν)) : Prop := ∀ k vs, m.lookup k = some vs → vs ≠ []

theorem nonemptyEntries_pushAll (l : List (κ × ν)) : NonemptyEntries (pushAll ∅ l) := by
  refine List.foldlRecOn (motive := NonemptyEntries) l _ ?_ ?_
  · exact fun k vs h => absurd h (by simp)
  · intro m hm e _ k vs h
    rw [pushBack, lookup_insert_eq] at h
    split_ifs at h with hk
    · cases h; simp
    · exact hm k vs h

/-- tables without empty vectors are told apart by what `operator[]` reads -/
theorem NonemptyEntries.lookup_ext {m m' : UnorderedMap κ (List ν)} (h : NonemptyEntries m) (h' : NonemptyEntries m')
    (heq : ∀ k, getD m k [] = getD m' k []) (k : κ) : m.lookup k = m'.lookup k := by
  have hread : ∀ {m : UnorderedMap κ (List ν)}, NonemptyEntries m →
      m.lookup k = if getD m k [] = [] then none else some (getD m k []) := by
    intro m hm
    unfold getD
    cases hk : m.lookup k with
    | none => rfl
    | some vs => simp [hm k vs hk]
  rw [hread h, hread h', heq]

/-- pushing only the pairs that pass a test at both ends filters the vectors -/
theorem getD_pushAll_filter (p : κ → Bool) (q : ν → Bool) (l : List (κ × ν)) (k : κ) :
    getD (pushAll ∅ (l.filter fun e => p e.1 && q e.2)) k [] =
      if p k then (getD (pushAll ∅ l) k []).filter q else [] := by
  simp only [getD_pushAll, getD_empty, List.nil_append, List.filter_map, List.filter_filter]
  split_ifs with hk
  · refine congrArg (List.map Prod.snd) (List.filter_congr ?_)
    intro e _
    by_cases he : e.1 = k
    · simp [he, hk]
    · simp [he]
  · rw [List.map_eq_nil_iff, List.filter_eq_nil_iff]
    intro e _
    by_cases he : e.1 = k
    · simp [he, hk]
    · simp [he]

/-- a range loop that pushes every value of every entry copies the vectors -/
theorem getD_pushAll_iter (H : HashOrder) (m : UnorderedMap κ (List ν)) (k : κ) :
    getD (pushAll ∅ ((iter H m).flatMap fun e => e.2.map fun v => (e.1, v))) k [] = getD m k [] := by
  have hkey : ∀ l : List (κ × List ν), (l.map Prod.fst).Nodup → (∀ vs, (k, vs) ∈ l → vs = getD m k []) →
      ((l.flatMap fun e => e.2.map fun v => (e.1, v)).filter fun e => e.1 = k).map Prod.snd =
        if k ∈ l.map Prod.fst then getD m k [] else [] := by
    intro l hnd hl
    induction l with
    | nil => rfl
    | cons e l ih =>
      obtain ⟨hfst, hnd⟩ := List.nodup_cons.1 hnd
      have hrest := ih hnd fun vs hvs => hl vs (List.mem_cons_of_mem e hvs)
      rw [List.flatMap_cons, List.filter_append, List.map_append, hrest]
      by_cases he : e.1 = k
      · subst he
        have hvs : e.2 = getD m e.1 [] := hl e.2 List.mem_cons_self
        rw [if_neg hfst, if_pos (by simp), ← hvs]
        simp [List.filter_map, Function.comp_def]
      · have hmem : k ∈ (e :: l).map Prod.fst ↔ k ∈ l.map Prod.fst := by
          rw [List.map_cons, List.mem_cons, or_iff_right (Ne.symm he)]
        simp only [hmem, List.filter_map, Function.comp_def, he, decide_false, List.filter_false, List.map_nil,
          List.nil_append]
  have hentries : ∀ vs, (k, vs) ∈ iter H m → vs = getD m k [] :=
    fun vs hvs => (getD_of_lookup (mem_iter.1 hvs) []).symm
  rw [getD_pushAll, getD_empty, List.nil_append, hkey _ (iter_keys_nodup H m) hentries]
  split_ifs with hk
  · rfl
  · have hnot : k ∉ m := fun hmem => hk ((iter_keys_perm H m).mem_iff.2 (AList.mem_keys.1 hmem))
    exact (getD_of_notMem hnot []).symm

end UnorderedMap

end HawkTxn.Core
