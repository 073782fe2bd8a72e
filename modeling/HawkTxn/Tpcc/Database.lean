/-
The tables of the TPC-C database (`tpcc.h`).

Warehouses, districts, customers, items and stocks lie at the position their ids say, and the accessors of
`TPCCDatabase` go there; an accessor has no result where the position is outside the vector. Orders, new orders, order
lines and history rows are appended and found by a scan. Columns of these tables that no transaction reads or writes
(names, addresses, taxes, credits) are left out. Amounts are rational numbers.
-/
import HawkTxn.Tpcc.ResourceIds

namespace HawkTxn

namespace Tpcc

structure Warehouse where
  w_id : ℤ
  w_ytd : ℚ
deriving DecidableEq

structure District where
  d_id : ℤ
  d_w_id : ℤ
  d_ytd : ℚ
  d_next_o_id : ℤ
deriving DecidableEq

structure Customer where
  c_id : ℤ
  c_d_id : ℤ
  c_w_id : ℤ
  c_balance : ℚ
  c_ytd_payment : ℚ
  c_payment_cnt : ℤ
  c_delivery_cnt : ℤ
deriving DecidableEq

structure History where
  h_c_id : ℤ
  h_c_d_id : ℤ
  h_c_w_id : ℤ
  h_d_id : ℤ
  h_w_id : ℤ
  h_date : ℤ
  h_amount : ℚ
  h_data : String
deriving DecidableEq

structure Order where
  o_id : ℤ
  o_d_id : ℤ
  o_w_id : ℤ
  o_c_id : ℤ
  o_entry_d : ℤ
  o_carrier_id : ℤ
  o_ol_cnt : ℤ
  o_all_local : ℤ
deriving DecidableEq

structure NewOrder where
  no_o_id : ℤ
  no_d_id : ℤ
  no_w_id : ℤ
deriving DecidableEq

structure OrderLine where
  ol_o_id : ℤ
  ol_d_id : ℤ
  ol_w_id : ℤ
  ol_number : ℤ
  ol_i_id : ℤ
  ol_supply_w_id : ℤ
  ol_quantity : ℤ
  ol_amount : ℚ
  ol_delivery_d : ℤ
  ol_dist_info : String
deriving DecidableEq

structure Item where
  i_id : ℤ
  i_im_id : ℤ
  i_name : String
  i_price : ℚ
  i_data : String
deriving DecidableEq

structure Stock where
  s_i_id : ℤ
  s_w_id : ℤ
  s_quantity : ℤ
  s_ytd : ℤ
  s_order_cnt : ℤ
deriving DecidableEq

structure TPCCDatabase where
  warehouses : List Warehouse
  districts : List District
  customers : List Customer
  histories : List History
  orders : List Order
  new_orders : List NewOrder
  order_lines : List OrderLine
  items : List Item
  stocks : List Stock
deriving DecidableEq

/-- `rows[i]` -/
def rowAt {ρ : Type} (rows : List ρ) (i : ℤ) : Option ρ := if 0 ≤ i then rows[i.toNat]? else none

def warehousePosition (w_id : ℤ) : ℤ := w_id - 1

def districtPosition (d_id w_id : ℤ) : ℤ := (w_id - 1) * 10 + (d_id - 1)

def customerPosition (c_id d_id w_id : ℤ) : ℤ := (w_id - 1) * 10 * 3000 + (d_id - 1) * 3000 + (c_id - 1)

def itemPosition (i_id : ℤ) : ℤ := i_id - 1

def stockPosition (i_id w_id : ℤ) : ℤ := (w_id - 1) * 100000 + (i_id - 1)

theorem districtPosition_inj {d d' w w' : ℤ} (hd : 1 ≤ d ∧ d ≤ 10) (hd' : 1 ≤ d' ∧ d' ≤ 10)
    (h : districtPosition d w = districtPosition d' w') : d = d' ∧ w = w' := by
  unfold districtPosition at h
  omega

theorem customerPosition_inj {c c' d d' w w' : ℤ} (hc : 1 ≤ c ∧ c ≤ 3000) (hc' : 1 ≤ c' ∧ c' ≤ 3000)
    (hd : 1 ≤ d ∧ d ≤ 10) (hd' : 1 ≤ d' ∧ d' ≤ 10) (h : customerPosition c d w = customerPosition c' d' w') :
    c = c' ∧ d = d' ∧ w = w' := by
  have hdistrict : districtPosition d w = districtPosition d' w' := by
    unfold customerPosition at h
    unfold districtPosition
    omega
  have hcustomer : c = c' := by
    unfold customerPosition at h
    unfold districtPosition at hdistrict
    omega
  exact ⟨hcustomer, districtPosition_inj hd hd' hdistrict⟩

theorem stockPosition_inj {i i' w w' : ℤ} (hi : 1 ≤ i ∧ i ≤ 100000) (hi' : 1 ≤ i' ∧ i' ≤ 100000)
    (h : stockPosition i w = stockPosition i' w') : i = i' ∧ w = w' := by
  unfold stockPosition at h
  omega

/-- every row of a table is the one some ids are for -/
theorem exists_warehousePosition {n k : ℕ} (hk : k < n) : ∃ w ∈ intRange 1 n, warehousePosition w = k :=
  ⟨k + 1, mem_intRange.2 ⟨by omega, by omega⟩, add_sub_cancel_right (k : ℤ) 1⟩

theorem exists_districtPosition {n k : ℕ} (hk : k < n * 10) :
    ∃ w ∈ intRange 1 n, ∃ d ∈ intRange 1 10, districtPosition d w = k := by
  refine ⟨k / 10 + 1, mem_intRange.2 ⟨by omega, by omega⟩, k % 10 + 1, mem_intRange.2 ⟨by omega, by omega⟩, ?_⟩
  unfold districtPosition
  omega

theorem exists_customerPosition {n k : ℕ} (hk : k < n * 10 * 3000) :
    ∃ w ∈ intRange 1 n, ∃ d ∈ intRange 1 10, ∃ c ∈ intRange 1 3000, customerPosition c d w = k := by
  obtain ⟨w, hw, d, hd, hpos⟩ := exists_districtPosition (n := n) (k := k / 3000) (by omega)
  refine ⟨w, hw, d, hd, k % 3000 + 1, mem_intRange.2 ⟨by omega, by omega⟩, ?_⟩
  unfold districtPosition at hpos
  unfold customerPosition
  omega

theorem exists_stockPosition {n k : ℕ} (hk : k < n * 100000) :
    ∃ w ∈ intRange 1 n, ∃ i ∈ intRange 1 100000, stockPosition i w = k := by
  refine ⟨k / 100000 + 1, mem_intRange.2 ⟨by omega, by omega⟩, k % 100000 + 1,
    mem_intRange.2 ⟨by omega, by omega⟩, ?_⟩
  unfold stockPosition
  omega

namespace TPCCDatabase

def getWarehouse (db : TPCCDatabase) (w_id : ℤ) : Option Warehouse := rowAt db.warehouses (warehousePosition w_id)

def getDistrict (db : TPCCDatabase) (d_id w_id : ℤ) : Option District :=
  rowAt db.districts (districtPosition d_id w_id)

def getCustomer (db : TPCCDatabase) (c_id d_id w_id : ℤ) : Option Customer :=
  rowAt db.customers (customerPosition c_id d_id w_id)

def getItem (db : TPCCDatabase) (i_id : ℤ) : Option Item := rowAt db.items (itemPosition i_id)

def getStock (db : TPCCDatabase) (i_id w_id : ℤ) : Option Stock := rowAt db.stocks (stockPosition i_id w_id)

end TPCCDatabase

variable {ρ : Type} {rows : List ρ} {row : ρ} {i j : ℤ}

theorem rowAt_eq_some : rowAt rows i = some row ↔ 0 ≤ i ∧ rows[i.toNat]? = some row := by
  unfold rowAt
  split_ifs with hi <;> simp [hi]

/-- the row at the position an accessor goes to -/
theorem rowAt_natCast {k : ℕ} (hj : j = k) (hrow : rows[k]? = some row) : rowAt rows j = some row := by
  subst hj
  exact rowAt_eq_some.2 ⟨Int.natCast_nonneg k, hrow⟩

/-- the row at a position after a row has been written -/
theorem rowAt_set (hi : 0 ≤ i) (hlt : i.toNat < rows.length) :
    rowAt (rows.set i.toNat row) j = if j = i then some row else rowAt rows j := by
  unfold rowAt
  by_cases hj : 0 ≤ j
  · rw [if_pos hj, if_pos hj, List.getElem?_set]
    by_cases hji : j = i
    · subst hji
      simp [hlt]
    · rw [if_neg fun h => hji (by omega), if_neg hji]
  · have hji : j ≠ i := fun h => hj (h.symm ▸ hi)
    rw [if_neg hj, if_neg hj, if_neg hji]

/-- a loop that writes the row of each key at the key's position leaves it there -/
theorem rowAt_foldl_set {κ : Type} (rows : List ρ) (pos : κ → ℤ) (row : κ → ρ) {keys : List κ} {k : κ}
    (hpos : ∀ k' ∈ keys, 0 ≤ pos k' ∧ (pos k').toNat < rows.length)
    (hsame : ∀ k' ∈ keys, pos k' = pos k → row k' = row k) (hk : k ∈ keys ∨ rowAt rows (pos k) = some (row k)) :
    rowAt (keys.foldl (fun rows k => rows.set (pos k).toNat (row k)) rows) (pos k) = some (row k) := by
  induction keys generalizing rows with
  | nil => exact hk.resolve_left List.not_mem_nil
  | cons k' keys ih =>
    obtain ⟨hpos', hlt'⟩ := hpos k' List.mem_cons_self
    rw [List.foldl_cons]
    apply ih
    · intro k'' hk''
      rw [List.length_set]
      exact hpos k'' (List.mem_cons_of_mem k' hk'')
    · exact fun k'' hk'' => hsame k'' (List.mem_cons_of_mem k' hk'')
    · rw [rowAt_set hpos' hlt']
      by_cases heq : pos k = pos k'
      · rw [if_pos heq, hsame k' List.mem_cons_self heq.symm]
        exact Or.inr rfl
      · rw [if_neg heq]
        rcases hk with hk | hk
        · rcases List.mem_cons.1 hk with rfl | hk
          · exact absurd rfl heq
          · exact Or.inl hk
        · exact Or.inr hk

/-- a row that is written is the only one to change -/
theorem eq_of_rowAt_set_ne (h : rowAt rows j ≠ rowAt (rows.set i.toNat row) j) (hi : 0 ≤ i) : j = i := by
  unfold rowAt at h
  split_ifs at h with hj
  · by_contra hne
    have hother : i.toNat ≠ j.toNat := by omega
    exact h (List.getElem?_set_ne hother).symm
  · exact absurd rfl h

end Tpcc

end HawkTxn
