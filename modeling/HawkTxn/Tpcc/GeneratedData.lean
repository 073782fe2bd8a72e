/-
Consistency of the generated data (`tpcc_data_generator.cpp`).

The tables with accessors are filled by position, the others by appending, district by district. So the rows of one
district lie together, in the order of their numbers, whatever the draws.

Results:
- `rowsKeyed_fillTables`: an accessor finds the row whose keys it is asked for;
- `filter_table`: the part of an appended table that belongs to a district;
- `consistent_generateData_iff`: for which numbers of warehouses there is data, and that its tables agree.
-/
import HawkTxn.Tpcc.OrderKeys
import HawkTxn.Tpcc.YearToDate

namespace HawkTxn

open HawkTxn.Core

namespace Tpcc

/-! ## Consistency -/

/-- the accessors find every row of n warehouses, with the keys that were asked for -/
structure RowsKeyed (n : ℕ) (db : TPCCDatabase) : Prop where
  warehouse : ∀ w ∈ intRange 1 n, ∃ row, db.getWarehouse w = some row ∧ row.w_id = w
  district : ∀ w ∈ intRange 1 n, ∀ d ∈ intRange 1 10,
    ∃ row, db.getDistrict d w = some row ∧ row.d_id = d ∧ row.d_w_id = w
  customer : ∀ w ∈ intRange 1 n, ∀ d ∈ intRange 1 10, ∀ c ∈ intRange 1 3000,
    ∃ row, db.getCustomer c d w = some row ∧ row.c_id = c ∧ row.c_d_id = d ∧ row.c_w_id = w
  stock : ∀ w ∈ intRange 1 n, ∀ i ∈ intRange 1 100000,
    ∃ row, db.getStock i w = some row ∧ row.s_i_id = i ∧ row.s_w_id = w

def TPCCDatabase.districtOrders (db : TPCCDatabase) (d_id w_id : ℤ) : List Order :=
  db.orders.filter fun order => order.o_w_id = w_id ∧ order.o_d_id = d_id

def TPCCDatabase.districtNewOrders (db : TPCCDatabase) (d_id w_id : ℤ) : List NewOrder :=
  db.new_orders.filter fun no => no.no_w_id = w_id ∧ no.no_d_id = d_id

def TPCCDatabase.linesOf (db : TPCCDatabase) (order : Order) : List OrderLine :=
  db.order_lines.filter fun ol => ol.Of order.o_id order.o_d_id order.o_w_id

/-- the tables agree on one district -/
structure DistrictConsistent (db : TPCCDatabase) (d_id w_id : ℤ) : Prop where
  order_ids : (db.districtOrders d_id w_id).map (·.o_id) = intRange 1 3000
  customer_ids : ((db.districtOrders d_id w_id).map (·.o_c_id)).Perm (intRange 1 3000)
  /-- the next number comes after the greatest one -/
  next_o_id : ∃ row, db.getDistrict d_id w_id = some row ∧
    IsGreatest {o_id | ∃ order ∈ db.districtOrders d_id w_id, order.o_id = o_id} (row.d_next_o_id - 1)
  new_orders : (db.districtNewOrders d_id w_id).map (·.no_o_id) =
    ((db.districtOrders d_id w_id).filter fun order => order.o_carrier_id = 0).map (·.o_id)
  undelivered : ∀ order ∈ db.districtOrders d_id w_id, order.o_carrier_id = 0 ↔ 2100 < order.o_id
  line_numbers : ∀ order ∈ db.districtOrders d_id w_id,
    (db.linesOf order).map (·.ol_number) = intRange 1 order.o_ol_cnt
  line_count : ∀ order ∈ db.districtOrders d_id w_id, ((db.linesOf order).length : ℤ) = order.o_ol_cnt

/-- the tables of n warehouses agree -/
structure Consistent (n : ℕ) (db : TPCCDatabase) : Prop where
  rows : RowsKeyed n db
  items : ∀ i ∈ intRange 1 100000, ∃ row, db.getItem i = some row ∧ row.i_id = i
  districts : ∀ w ∈ intRange 1 n, ∀ d ∈ intRange 1 10, DistrictConsistent db d w
  ytd : Balanced n db

namespace TPCCDataGenerator

variable {n : ℕ} {draws : Draws} {w d : ℤ}

/-! ## Rows of one district -/

theorem rowsKeyed_fillTables (draws : Draws) (n : ℕ) : RowsKeyed n (fillTables draws n) where
  warehouse w hw := by
    obtain ⟨hw1, hwn⟩ := mem_intRange.1 hw
    exact ⟨_, getWarehouse_fillTables draws hw1 hwn, rfl⟩
  district w hw d hd := by
    obtain ⟨hw1, hwn⟩ := mem_intRange.1 hw
    exact ⟨_, getDistrict_fillTables draws hw1 hwn hd, rfl, rfl⟩
  customer w hw d hd c hc := ⟨_, getCustomer_fillTables draws hw hd hc, rfl, rfl, rfl⟩
  stock w hw i hi := ⟨_, getStock_fillTables draws hw hi, rfl, rfl⟩

/-- a table that is filled warehouse by warehouse and district by district holds each district's rows together -/
theorem filter_table {ρ : Type} (rows : ℤ → ℤ → List ρ) (warehouse district : ρ → ℤ)
    (hwarehouse : ∀ w d, ∀ row ∈ rows w d, warehouse row = w) (hdistrict : ∀ w d, ∀ row ∈ rows w d, district row = d)
    (hw : w ∈ intRange 1 n) (hd : d ∈ intRange 1 10) :
    (((intRange 1 n).flatMap fun w => (intRange 1 10).flatMap (rows w)).filter fun row =>
      warehouse row = w ∧ district row = d) = rows w d := by
  have hkey : ∀ w' ∈ intRange 1 (n : ℤ), ∀ row ∈ (intRange 1 10).flatMap (rows w'), warehouse row = w' := by
    intro w' _ row hrow
    obtain ⟨d', -, hrow⟩ := List.mem_flatMap.1 hrow
    exact hwarehouse w' d' row hrow
  simp only [Bool.decide_and, ← List.filter_filter (p := fun row => decide (warehouse row = w))]
  rw [List.filter_comm, filter_flatMap_of_key (k := warehouse) (nodup_intRange 1 n) hw hkey]
  exact filter_flatMap_of_key (k := district) (nodup_intRange 1 10) hd fun d' _ row hrow => hdistrict w d' row hrow

theorem districtOrders_fillTables (hw : w ∈ intRange 1 n) (hd : d ∈ intRange 1 10) :
    (fillTables draws n).districtOrders d w = (intRange 1 3000).map (order draws w d) := by
  rw [TPCCDatabase.districtOrders, orders_fillTables]
  refine filter_table (fun w d => (intRange 1 3000).map (order draws w d)) Order.o_w_id Order.o_d_id ?_ ?_ hw hd
  · intro w' d' row hrow
    obtain ⟨o, -, rfl⟩ := List.mem_map.1 hrow
    rfl
  · intro w' d' row hrow
    obtain ⟨o, -, rfl⟩ := List.mem_map.1 hrow
    rfl

theorem districtNewOrders_fillTables (hw : w ∈ intRange 1 n) (hd : d ∈ intRange 1 10) :
    (fillTables draws n).districtNewOrders d w = (intRange 1 3000).flatMap (newOrders w d) := by
  have hrow : ∀ w' d', ∀ row ∈ (intRange 1 3000).flatMap (newOrders w' d'), row.no_w_id = w' ∧ row.no_d_id = d' := by
    intro w' d' row hrow
    obtain ⟨o, -, hrow⟩ := List.mem_flatMap.1 hrow
    have hkey := eq_of_mem_newOrders_keys (List.mem_map_of_mem hrow)
    exact ⟨congrArg (fun k => k.1) hkey, congrArg (fun k => k.2.1) hkey⟩
  rw [TPCCDatabase.districtNewOrders, new_orders_fillTables]
  exact filter_table _ NewOrder.no_w_id NewOrder.no_d_id (fun w' d' row h => (hrow w' d' row h).1)
    (fun w' d' row h => (hrow w' d' row h).2) hw hd

theorem linesOf_fillTables {o : ℤ} (hw : w ∈ intRange 1 n) (hd : d ∈ intRange 1 10) (ho : o ∈ intRange 1 3000) :
    (fillTables draws n).linesOf (order draws w d o) =
      (intRange 1 (draws.o_ol_cnt w d o)).map (orderLine draws w d o) := by
  have hrow : ∀ w' d', ∀ row ∈ (intRange 1 3000).flatMap fun o_id =>
      (intRange 1 (draws.o_ol_cnt w' d' o_id)).map (orderLine draws w' d' o_id),
      row.ol_w_id = w' ∧ row.ol_d_id = d' := by
    intro w' d' row hrow
    obtain ⟨o', -, hrow⟩ := List.mem_flatMap.1 hrow
    obtain ⟨i, -, rfl⟩ := List.mem_map.1 hrow
    exact ⟨rfl, rfl⟩
  have hsplit : ∀ ol : OrderLine, decide (ol.Of o d w) =
      (decide (ol.ol_o_id = o) && decide (ol.ol_w_id = w ∧ ol.ol_d_id = d)) := by
    intro ol
    rw [← Bool.decide_and]
    exact decide_eq_decide.2 (and_congr_right fun _ => and_comm)
  have hof : (fillTables draws n).linesOf (order draws w d o) =
      ((fillTables draws n).order_lines.filter fun ol => ol.ol_w_id = w ∧ ol.ol_d_id = d).filter fun ol =>
        ol.ol_o_id = o := by
    rw [List.filter_filter]
    exact List.filter_congr fun ol _ => hsplit ol
  rw [hof, order_lines_fillTables, filter_table _ OrderLine.ol_w_id OrderLine.ol_d_id
    (fun w' d' row h => (hrow w' d' row h).1) (fun w' d' row h => (hrow w' d' row h).2) hw hd]
  refine filter_flatMap_of_key (k := OrderLine.ol_o_id) (nodup_intRange 1 3000) ho ?_
  intro o' _ row hrow
  obtain ⟨i, -, rfl⟩ := List.mem_map.1 hrow
  rfl

/-! ## The tables of one district -/

/-- the customers of the orders are the shuffled ones -/
theorem map_o_c_id (draws : Draws) (w d : ℤ) :
    ((intRange 1 3000).map (order draws w d)).map (·.o_c_id) = draws.c_ids w d := by
  have hlen : (draws.c_ids w d).length = 3000 := by
    rw [(draws.c_ids_perm w d).length_eq, length_intRange]
    rfl
  rw [List.map_map]
  apply List.ext_getElem
  · rw [List.length_map, length_intRange, hlen]
    rfl
  · intro i hi hi'
    have hgetD : (draws.c_ids w d).getD i 0 = (draws.c_ids w d)[i] := by
      rw [List.getD_eq_getElem?_getD, List.getElem?_eq_getElem hi', Option.getD_some]
    simp only [List.getElem_map, Function.comp_apply, order, intRange, List.getElem_range]
    rw [← hgetD]
    congr 1
    omega

theorem carrier_eq_zero_iff (draws : Draws) (w d o : ℤ) : (order draws w d o).o_carrier_id = 0 ↔ 2100 < o := by
  have hcarrier := draws.o_carrier_id_mem w d o
  simp only [order]
  split_ifs <;> omega

theorem map_newOrders (draws : Draws) (w d : ℤ) (l : List ℤ) : (l.flatMap (newOrders w d)).map (·.no_o_id) =
    ((l.map (order draws w d)).filter fun order => order.o_carrier_id = 0).map (·.o_id) := by
  induction l with
  | nil => rfl
  | cons o l ih =>
    rw [List.flatMap_cons, List.map_append, ih, List.map_cons, List.filter_cons]
    by_cases ho : 2100 < o
    · have hnew : newOrders w d o = [⟨o, d, w⟩] := if_neg (not_le.2 ho)
      rw [hnew, if_pos (decide_eq_true ((carrier_eq_zero_iff draws w d o).2 ho))]
      rfl
    · have hold : newOrders w d o = [] := if_pos (not_lt.1 ho)
      rw [hold, if_neg fun hzero => ho ((carrier_eq_zero_iff draws w d o).1 (of_decide_eq_true hzero))]
      rfl

theorem districtConsistent_fillTables (draws : Draws) (hw : w ∈ intRange 1 n) (hd : d ∈ intRange 1 10) :
    DistrictConsistent (fillTables draws n) d w := by
  have horders : (fillTables draws n).districtOrders d w = (intRange 1 3000).map (order draws w d) :=
    districtOrders_fillTables hw hd
  have hids : ((intRange 1 3000).map (order draws w d)).map (·.o_id) = intRange 1 3000 := by
    rw [List.map_map]
    exact List.map_id _
  have hlines : ∀ order ∈ (fillTables draws n).districtOrders d w, ∃ o ∈ intRange 1 3000,
      order = TPCCDataGenerator.order draws w d o ∧ (fillTables draws n).linesOf order =
        (intRange 1 (draws.o_ol_cnt w d o)).map (orderLine draws w d o) := by
    intro order horder
    rw [horders] at horder
    obtain ⟨o, ho, rfl⟩ := List.mem_map.1 horder
    exact ⟨o, ho, rfl, linesOf_fillTables hw hd ho⟩
  refine ⟨by rw [horders, hids], ?_, ?_, ?_, ?_, ?_, ?_⟩
  · rw [horders, map_o_c_id]
    exact draws.c_ids_perm w d
  · obtain ⟨hw1, hwn⟩ := mem_intRange.1 hw
    refine ⟨_, getDistrict_fillTables draws hw1 hwn hd, ?_, ?_⟩
    · rw [horders]
      exact ⟨order draws w d 3000, List.mem_map_of_mem (mem_intRange.2 ⟨by norm_num, le_rfl⟩), rfl⟩
    · intro o_id ho_id
      obtain ⟨order, horder, rfl⟩ := ho_id
      obtain ⟨o, ho, rfl, -⟩ := hlines order horder
      exact (mem_intRange.1 ho).2
  · rw [districtNewOrders_fillTables hw hd, horders]
    exact map_newOrders draws w d _
  · intro order horder
    obtain ⟨o, -, rfl, -⟩ := hlines order horder
    exact carrier_eq_zero_iff draws w d o
  · intro order horder
    obtain ⟨o, -, rfl, hof⟩ := hlines order horder
    rw [hof, List.map_map]
    exact List.map_id _
  · intro order horder
    obtain ⟨o, -, rfl, hof⟩ := hlines order horder
    have hcnt := (draws.o_ol_cnt_mem w d o).1
    rw [hof, List.length_map, length_intRange]
    simp only [TPCCDataGenerator.order]
    omega

theorem consistent_fillTables (draws : Draws) (n : ℕ) : Consistent n (fillTables draws n) where
  rows := rowsKeyed_fillTables draws n
  items _ hi := ⟨_, getItem_fillTables draws hi, rfl⟩
  districts _ hw _ hd := districtConsistent_fillTables draws hw hd
  ytd := balanced_fillTables draws n

/-- **Consistency.** For all draws there is generated data up to 4772 warehouses, and its tables agree. -/
theorem consistent_generateData_iff (draws : Draws) (n : ℕ) :
    (∃ db, generateData draws n = some db ∧ Consistent n db) ↔ n ≤ 4772 := by
  refine ⟨?_, ?_⟩
  · intro h
    obtain ⟨db, hdb, -⟩ := h
    exact (generateData_eq_some_iff.1 hdb).1
  · intro hn
    exact ⟨fillTables draws n, generateData_eq_some_iff.2 ⟨hn, rfl⟩, consistent_fillTables draws n⟩

/-- there is no data for 4773 warehouses -/
theorem not_consistent_overflow : ¬ ∀ (draws : Draws) (n : ℕ), 1 ≤ n →
    ∃ db, generateData draws n = some db ∧ Consistent n db := by
  intro hall
  obtain ⟨db, hdb, -⟩ := hall .plain 4773 (by norm_num)
  exact absurd (generateData_eq_some_iff.1 hdb).1 (by norm_num)

end TPCCDataGenerator

end Tpcc

end HawkTxn
