/-
Year-to-date totals (`tpcc_transaction.cpp`, `tpcc_data_generator.cpp`).

A warehouse's total and those of its ten districts start in balance. A Payment adds its amount to a warehouse and to one
district. A New-Order adds what its lines cost to the warehouse only: the code has no such update of the district it
orders in, although it has the district's row at hand.

Results:
- `TPCCNewOrderTransaction.execute_added`, `TPCCPaymentTransaction.execute_added`: what the two add;
- `added_balanced_iff`: which additions keep the balance;
- `ytd_balanced_iff`: the balance holds in every run of calls that return true whose New-Orders are empty and whose
  Payments go to a district of their warehouse, and the first other call breaks it.
-/
import HawkTxn.Tpcc.Calls

namespace HawkTxn

open HawkTxn.Core

namespace Tpcc

open TPCCDatabase

/-! ## Totals -/

def TPCCDatabase.w_ytd (db : TPCCDatabase) (w_id : ℤ) : Option ℚ := (db.getWarehouse w_id).map Warehouse.w_ytd

def TPCCDatabase.d_ytd (db : TPCCDatabase) (d_id w_id : ℤ) : Option ℚ := (db.getDistrict d_id w_id).map District.d_ytd

/-- each of n warehouses has the sum of its ten districts -/
def Balanced (n : ℕ) (db : TPCCDatabase) : Prop :=
  ∀ w_id : ℤ, 1 ≤ w_id → w_id ≤ n → db.w_ytd w_id = some (∑ d_id ∈ Finset.Icc 1 10, (db.d_ytd d_id w_id).getD 0)

/-- the call has nothing to add to a warehouse, or adds it to one of the warehouse's districts as well -/
def TPCCTransaction.KeepsYtd : TPCCTransaction → Prop
  | newOrder tx => tx.item_info = []
  | payment tx => tx.h_amount = 0 ∨ 1 ≤ tx.d_id ∧ tx.d_id ≤ 10
  | orderStatus _ | delivery _ | stockLevel _ => True

/-- an amount has been added to a warehouse, and a share to the district at a position -/
structure AddedYtd (db₀ : TPCCDatabase) (w_id : ℤ) (amount : ℚ) (i : ℤ) (share : ℚ) (db : TPCCDatabase) : Prop where
  warehouse : ∀ w, db.w_ytd w = (db₀.w_ytd w).map (· + if w = w_id then amount else 0)
  district : ∀ d w, db.d_ytd d w = (db₀.d_ytd d w).map (· + if districtPosition d w = i then share else 0)

variable {db db₀ db' : TPCCDatabase} {out : Outside} {n : ℕ} {w_id d_id i : ℤ} {amount share x : ℚ} {draws : Draws}

theorem addedYtd_self (db : TPCCDatabase) (w_id i : ℤ) : AddedYtd db w_id 0 i 0 db where
  warehouse w := by simp
  district d w := by simp

/-- other tables do not matter -/
theorem AddedYtd.of_rows (h : AddedYtd db₀ w_id amount i share db) (hw : db'.warehouses = db.warehouses)
    (hd : db'.districts = db.districts) : AddedYtd db₀ w_id amount i share db' where
  warehouse w := by
    rw [← h.warehouse w, w_ytd, getWarehouse, hw]
    rfl
  district d w := by
    rw [← h.district d w, d_ytd, getDistrict, hd]
    rfl

theorem AddedYtd.add_warehouse {row : Warehouse} (h : AddedYtd db₀ w_id amount i share db)
    (hpos : 0 ≤ warehousePosition w_id) (hrow : db.warehouses[(warehousePosition w_id).toNat]? = some row) :
    AddedYtd db₀ w_id (amount + x) i share { db with
      warehouses := db.warehouses.set (warehousePosition w_id).toNat { row with w_ytd := row.w_ytd + x } } where
  warehouse w := by
    have hlen := (List.getElem?_eq_some_iff.1 hrow).1
    have hw := h.warehouse w
    rw [w_ytd, getWarehouse, rowAt_set hpos hlen]
    by_cases heq : w = w_id
    · subst heq
      have hget : db.w_ytd w = some row.w_ytd := by rw [w_ytd, getWarehouse, rowAt_eq_some.2 ⟨hpos, hrow⟩]; rfl
      rw [hget, if_pos rfl] at hw
      obtain ⟨ytd, hytd, hsum⟩ := Option.map_eq_some_iff.1 hw.symm
      rw [if_pos rfl, if_pos rfl, hytd, Option.map_some, Option.map_some, ← hsum, add_assoc]
    · have hne : warehousePosition w ≠ warehousePosition w_id := by
        unfold warehousePosition
        omega
      rw [if_neg hne, if_neg heq]
      rw [if_neg heq] at hw
      exact hw
  district := h.district

theorem AddedYtd.add_district {row : District} (new : District) (h : AddedYtd db₀ w_id amount i share db) (hpos : 0 ≤ i)
    (hrow : db.districts[i.toNat]? = some row) (hnew : new.d_ytd = row.d_ytd + x) :
    AddedYtd db₀ w_id amount i (share + x) { db with districts := db.districts.set i.toNat new } where
  warehouse := h.warehouse
  district d w := by
    have hlen := (List.getElem?_eq_some_iff.1 hrow).1
    have hd := h.district d w
    rw [d_ytd, getDistrict, rowAt_set hpos hlen]
    by_cases heq : districtPosition d w = i
    · have hget : db.d_ytd d w = some row.d_ytd := by rw [d_ytd, getDistrict, heq, rowAt_eq_some.2 ⟨hpos, hrow⟩]; rfl
      rw [hget, if_pos heq] at hd
      obtain ⟨ytd, hytd, hsum⟩ := Option.map_eq_some_iff.1 hd.symm
      rw [if_pos heq, if_pos heq, hytd, Option.map_some, Option.map_some, hnew, ← hsum, add_assoc]
    · rw [if_neg heq, if_neg heq]
      rw [if_neg heq] at hd
      exact hd

/-- a warehouse that has been updated is there -/
theorem isSome_getWarehouse_set {row row' : Warehouse} (hpos : 0 ≤ warehousePosition w_id)
    (hrow : db.warehouses[(warehousePosition w_id).toNat]? = some row) :
    (getWarehouse { db with warehouses := db.warehouses.set (warehousePosition w_id).toNat row' } w_id).isSome := by
  rw [getWarehouse, rowAt_set hpos (List.getElem?_eq_some_iff.1 hrow).1, if_pos rfl]
  rfl

/-! ## What the calls add -/

/-- each item adds ten to the amount, and nothing to the totals -/
theorem TPCCNewOrderTransaction.orderItem_added (tx : TPCCNewOrderTransaction) (o_id : ℤ) (total : ℚ)
    (item : (ℤ × ℤ) × ℕ) :
    Triple (On (AddedYtd db₀ w_id amount i share)) (tx.orderItem .plain out o_id total item)
      (fun total' s => total' = total + 10 ∧ On (AddedYtd db₀ w_id amount i share) s) (fun _ => True) := by
  unfold orderItem
  refine Triple.bind (acquire_on fun _ _ => trivial) fun _ => ?_
  refine Triple.bind (acquire_on fun _ _ => trivial) fun _ => ?_
  refine Triple.bind (updateRow_on (G := fun _ => AddedYtd db₀ w_id amount i share) ?_) fun stock => ?_
  · exact fun db row h _ _ => h.of_rows rfl rfl
  refine Triple.bind (acquire_on fun _ _ => trivial) fun _ => ?_
  refine Triple.bind (write_on (G := AddedYtd db₀ w_id amount i share) fun db h => h.of_rows rfl rfl) fun _ => ?_
  exact Triple.pure fun s hs => ⟨rfl, hs⟩

/-- the warehouse gets ten for each item, the district nothing -/
theorem TPCCNewOrderTransaction.execute_added (tx : TPCCNewOrderTransaction) :
    Triple (On fun db => db = db₀) (tx.execute out)
      (fun _ => On fun db => AddedYtd db₀ tx.w_id (10 * tx.item_info.length) (districtPosition tx.d_id tx.w_id) 0 db ∧
        (db.getWarehouse tx.w_id).isSome) (fun _ => True) := by
  unfold execute executeWith
  refine Triple.bind (acquire_on fun _ _ => trivial) fun _ => ?_
  refine Triple.bind (acquire_on fun _ _ => trivial) fun _ => ?_
  rw [RowAccess.plain_updateDistrict]
  refine Triple.bind (updateRow_on (G := fun _ =>
    AddedYtd db₀ tx.w_id 0 (districtPosition tx.d_id tx.w_id) 0) ?_) fun district => ?_
  · rintro db row rfl hpos hrow
    have hadd := (addedYtd_self db tx.w_id (districtPosition tx.d_id tx.w_id)).add_district (x := 0)
      { row with d_next_o_id := row.d_next_o_id + 1 } hpos hrow (add_zero row.d_ytd).symm
    rwa [add_zero] at hadd
  refine Triple.bind (acquire_on fun _ _ => trivial) fun _ => ?_
  refine Triple.bind getCurrentTimestamp_on fun o_entry_d => ?_
  refine Triple.bind (acquire_on fun _ _ => trivial) fun _ => ?_
  refine Triple.bind (acquire_on fun _ _ => trivial) fun _ => ?_
  refine Triple.bind (write_on (G := AddedYtd db₀ tx.w_id 0 (districtPosition tx.d_id tx.w_id) 0) ?_) fun _ => ?_
  · exact fun db h => h.of_rows rfl rfl
  refine Triple.bind (write_on (G := AddedYtd db₀ tx.w_id 0 (districtPosition tx.d_id tx.w_id) 0) ?_) fun _ => ?_
  · exact fun db h => h.of_rows rfl rfl
  refine Triple.bind (M := fun total s => total = 10 * tx.item_info.length ∧
    On (AddedYtd db₀ tx.w_id 0 (districtPosition tx.d_id tx.w_id) 0) s) ?_ fun total => ?_
  · have hloop := Triple.foldlM (R := fun _ => True) (I := fun done total s => total = 10 * (done.length : ℚ) ∧
      On (AddedYtd db₀ tx.w_id 0 (districtPosition tx.d_id tx.w_id) 0) s) (a := (0 : ℚ))
      (f := tx.orderItem .plain out district.d_next_o_id) (l := tx.item_info.zipIdx) ?_
    · rw [List.length_zipIdx] at hloop
      exact hloop.pre fun s hs => ⟨by simp, hs⟩
    · intro done item rest total _
      refine Triple.of_fact (φ := total = 10 * (done.length : ℚ)) (fun _ hs => hs.1) fun htotal => ?_
      refine ((tx.orderItem_added district.d_next_o_id total item).pre fun _ hs => hs.2).post ?_
      intro total' s h
      obtain ⟨htotal', hs⟩ := h
      refine ⟨?_, hs⟩
      rw [htotal', htotal, List.length_append, List.length_singleton]
      push_cast
      ring
  · refine Triple.of_fact (fun _ hs => hs.1) fun htotal => ?_
    refine Triple.pre ?_ fun _ hs => hs.2
    rw [RowAccess.plain_updateWarehouse]
    refine Triple.bind (updateRow_on (G := fun _ db =>
      AddedYtd db₀ tx.w_id (10 * tx.item_info.length) (districtPosition tx.d_id tx.w_id) 0 db ∧
        (db.getWarehouse tx.w_id).isSome) ?_) fun _ => releaseAllLocks_on
    intro db row h hpos hrow
    refine ⟨?_, ?_⟩
    · have hadd := h.add_warehouse hpos hrow (x := total)
      rw [zero_add] at hadd
      exact htotal ▸ hadd
    · exact isSome_getWarehouse_set hpos hrow

/-- the warehouse and the district get the amount -/
theorem TPCCPaymentTransaction.execute_added (tx : TPCCPaymentTransaction) :
    Triple (On fun db => db = db₀) (tx.execute out)
      (fun _ => On fun db => AddedYtd db₀ tx.w_id tx.h_amount (districtPosition tx.d_id tx.w_id) tx.h_amount db ∧
        (db.getWarehouse tx.w_id).isSome) (fun _ => True) := by
  unfold execute executeWith
  refine Triple.bind (acquire_on fun _ _ => trivial) fun _ => ?_
  rw [RowAccess.plain_updateWarehouse]
  refine Triple.bind (updateRow_on (G := fun _ db =>
    AddedYtd db₀ tx.w_id tx.h_amount (districtPosition tx.d_id tx.w_id) 0 db ∧
      (db.getWarehouse tx.w_id).isSome) ?_) fun warehouse => ?_
  · rintro db row rfl hpos hrow
    refine ⟨?_, ?_⟩
    · have hadd := (addedYtd_self db tx.w_id (districtPosition tx.d_id tx.w_id)).add_warehouse hpos hrow
        (x := tx.h_amount)
      rwa [zero_add] at hadd
    · exact isSome_getWarehouse_set hpos hrow
  refine Triple.bind (acquire_on fun _ _ => trivial) fun _ => ?_
  rw [RowAccess.plain_updateDistrict]
  refine Triple.bind (updateRow_on (G := fun _ db =>
    AddedYtd db₀ tx.w_id tx.h_amount (districtPosition tx.d_id tx.w_id) tx.h_amount db ∧
      (db.getWarehouse tx.w_id).isSome) ?_) fun district => ?_
  · intro db row hall hpos hrow
    obtain ⟨h, hw⟩ := hall
    have hadd := h.add_district { row with d_ytd := row.d_ytd + tx.h_amount } hpos hrow rfl
    rw [zero_add] at hadd
    exact ⟨hadd, hw⟩
  refine Triple.bind (acquire_on fun _ _ => trivial) fun _ => ?_
  rw [RowAccess.plain_updateCustomer]
  refine Triple.bind (updateRow_on (G := fun _ db =>
    AddedYtd db₀ tx.w_id tx.h_amount (districtPosition tx.d_id tx.w_id) tx.h_amount db ∧
      (db.getWarehouse tx.w_id).isSome) ?_) fun customer => ?_
  · exact fun db row h _ _ => ⟨h.1.of_rows rfl rfl, h.2⟩
  refine Triple.bind getCurrentTimestamp_on fun h_date => ?_
  refine Triple.bind (acquire_on fun _ _ => trivial) fun _ => ?_
  refine Triple.bind (write_on ?_) fun _ => releaseAllLocks_on
  exact fun db h => ⟨h.1.of_rows rfl rfl, h.2⟩

/-! ## Balance -/

theorem d_ytd_isSome (h : Sized n db) (hw1 : 1 ≤ w_id) (hwn : w_id ≤ n) (hd : d_id ∈ Finset.Icc 1 10) :
    (db.d_ytd d_id w_id).isSome := by
  obtain ⟨hd1, hd10⟩ := Finset.mem_Icc.1 hd
  have hpos : 0 ≤ districtPosition d_id w_id := by unfold districtPosition; omega
  have hlt : districtPosition d_id w_id < db.districts.length := by
    rw [h.districts]
    unfold districtPosition
    omega
  obtain ⟨district, hdistrict⟩ := rowAt_isSome hpos hlt
  rw [d_ytd, getDistrict, hdistrict]
  rfl

/-- an addition keeps the balance exactly if each warehouse gets what its districts get -/
theorem added_balanced_iff (hsized : Sized n db₀) (hbalanced : Balanced n db₀)
    (h : AddedYtd db₀ w_id amount i share db) : Balanced n db ↔ ∀ w : ℤ, 1 ≤ w → w ≤ n →
      (if w = w_id then amount else 0) = ∑ d ∈ Finset.Icc 1 10, if districtPosition d w = i then share else 0 := by
  refine forall_congr' fun w => forall_congr' fun hw1 => forall_congr' fun hwn => ?_
  have hsum : ∑ d ∈ Finset.Icc 1 10, (db.d_ytd d w).getD 0 = ∑ d ∈ Finset.Icc 1 10, (db₀.d_ytd d w).getD 0 +
      ∑ d ∈ Finset.Icc 1 10, if districtPosition d w = i then share else 0 := by
    rw [← Finset.sum_add_distrib]
    refine Finset.sum_congr rfl fun d hd => ?_
    obtain ⟨ytd, hytd⟩ := Option.isSome_iff_exists.1 (d_ytd_isSome hsized hw1 hwn hd)
    rw [h.district, hytd]
    rfl
  rw [h.warehouse, hbalanced w hw1 hwn, hsum, Option.map_some, Option.some_inj, add_right_inj]

theorem balanced_fillTables (draws : Draws) (n : ℕ) : Balanced n (TPCCDataGenerator.fillTables draws n) := by
  intro w hw1 hwn
  have hd : ∀ d ∈ Finset.Icc (1 : ℤ) 10, ((TPCCDataGenerator.fillTables draws n).d_ytd d w).getD 0 = 30000 := by
    intro d hd
    rw [d_ytd, TPCCDataGenerator.getDistrict_fillTables draws hw1 hwn (mem_intRange.2 (Finset.mem_Icc.1 hd))]
    rfl
  rw [w_ytd, TPCCDataGenerator.getWarehouse_fillTables draws hw1 hwn, Finset.sum_congr rfl hd]
  have hcard : (Finset.Icc (1 : ℤ) 10).card = 10 := rfl
  rw [Finset.sum_const, hcard]
  norm_num

theorem position_of_getWarehouse (hsized : Sized n db) (h : (db.getWarehouse w_id).isSome) : 1 ≤ w_id ∧ w_id ≤ n := by
  obtain ⟨row, hrow⟩ := Option.isSome_iff_exists.1 h
  obtain ⟨hpos, hrow⟩ := rowAt_eq_some.1 hrow
  have hlen := (List.getElem?_eq_some_iff.1 hrow).1
  rw [hsized.warehouses] at hlen
  unfold warehousePosition at hpos hlen
  omega

theorem TPCCNewOrderTransaction.balanced_iff {tx : TPCCNewOrderTransaction} {txn : Transaction} {s : Session}
    (hsized : Sized n db) (hbalanced : Balanced n db)
    (hrun : (TPCCTransaction.newOrder tx).execute out db txn = some (true, s)) :
    Balanced n s.db ↔ tx.item_info = [] := by
  obtain ⟨hadded, hthere⟩ := execute_returned (F := fun db' => db' = db) tx.execute_added hrun rfl
  obtain ⟨hw1, hwn⟩ := position_of_getWarehouse (execute_on tx.execute_sized hrun hsized) hthere
  rw [added_balanced_iff hsized hbalanced hadded]
  refine ⟨?_, ?_⟩
  · intro h
    have hzero := h tx.w_id hw1 hwn
    simpa using hzero
  · intro hnone w _ _
    simp [hnone]

/-- districts of one warehouse lie at different positions -/
theorem sum_district (w_id d_id : ℤ) (x : ℚ) : (∑ d ∈ Finset.Icc 1 10,
    if districtPosition d w_id = districtPosition d_id w_id then x else 0) =
      if 1 ≤ d_id ∧ d_id ≤ 10 then x else 0 := by
  have hiff : ∀ d, districtPosition d w_id = districtPosition d_id w_id ↔ d = d_id := by
    intro d
    unfold districtPosition
    omega
  simp only [hiff, Finset.sum_ite_eq', Finset.mem_Icc]

theorem TPCCPaymentTransaction.balanced_iff {tx : TPCCPaymentTransaction} {txn : Transaction} {s : Session}
    (hsized : Sized n db) (hbalanced : Balanced n db)
    (hrun : (TPCCTransaction.payment tx).execute out db txn = some (true, s)) :
    Balanced n s.db ↔ tx.h_amount = 0 ∨ 1 ≤ tx.d_id ∧ tx.d_id ≤ 10 := by
  obtain ⟨hadded, hthere⟩ := execute_returned (F := fun db' => db' = db) tx.execute_added hrun rfl
  obtain ⟨hw1, hwn⟩ := position_of_getWarehouse
    (execute_on (tx.execute_keeps keptByPayment_sized) hrun hsized) hthere
  rw [added_balanced_iff hsized hbalanced hadded]
  refine ⟨?_, ?_⟩
  · intro h
    have hown := h tx.w_id hw1 hwn
    rw [if_pos rfl, sum_district] at hown
    by_cases hd : 1 ≤ tx.d_id ∧ tx.d_id ≤ 10
    · exact Or.inr hd
    · rw [if_neg hd] at hown
      exact Or.inl hown
  · rintro (hzero | hd) w _ _
    · simp [hzero]
    · by_cases hw : w = tx.w_id
      · rw [if_pos hw, hw, sum_district, if_pos hd]
      · -- the district belongs to another warehouse
        rw [if_neg hw]
        refine (Finset.sum_eq_zero fun d hd' => if_neg ?_).symm
        obtain ⟨hd1, hd10⟩ := Finset.mem_Icc.1 hd'
        unfold districtPosition
        omega

/-- a call that leaves the two tables as they are -/
theorem balanced_of_rows (hbalanced : Balanced n db) (hw : db'.warehouses = db.warehouses)
    (hd : db'.districts = db.districts) : Balanced n db' := by
  intro w hw1 hwn
  have hsame := hbalanced w hw1 hwn
  unfold w_ytd d_ytd getWarehouse getDistrict at *
  rw [hw, hd]
  exact hsame

theorem keptByDelivery_rows (db₀ : TPCCDatabase) :
    KeptByDelivery fun db => db.warehouses = db₀.warehouses ∧ db.districts = db₀.districts where
  carrier _ _ _ _ h _ := h
  date _ _ _ _ h _ := h
  customers _ _ h _ := h

/-- a call that returns true keeps the balance exactly if `KeepsYtd` holds of it -/
theorem callStep_balanced_iff {c : Call} (hsized : Sized n db) (hbalanced : Balanced n db) (hc : c.Succeeds db)
    (hst : callStep db c = some db') : Balanced n db' ↔ c.tx.KeepsYtd := by
  obtain ⟨s, hrun⟩ := hc
  obtain rfl : s.db = db' := by
    rw [callStep, hrun] at hst
    exact Option.some.inj hst
  obtain ⟨tx, out, txn⟩ := c
  cases tx with
  | newOrder tx => exact tx.balanced_iff hsized hbalanced hrun
  | payment tx => exact tx.balanced_iff hsized hbalanced hrun
  | orderStatus tx =>
    have hsame : s.db = db := execute_returned (F := fun db' => db' = db) (G := fun db' => db' = db)
      tx.execute_keeps hrun rfl
    exact iff_of_true (hsame ▸ hbalanced) trivial
  | stockLevel tx =>
    have hsame : s.db = db := execute_returned (F := fun db' => db' = db) (G := fun db' => db' = db)
      tx.execute_keeps hrun rfl
    exact iff_of_true (hsame ▸ hbalanced) trivial
  | delivery tx =>
    obtain ⟨hw, hd⟩ := execute_returned (tx.execute_keeps (keptByDelivery_rows db)) hrun ⟨rfl, rfl⟩
    exact iff_of_true (balanced_of_rows hbalanced hw hd) trivial

/-- **Year-to-date totals.** In every run of calls on the generated data that return true, with New-Orders for no items
and Payments of nothing or to a district of their warehouse, each warehouse has the sum of its ten districts; the next
call that returns true keeps this exactly if it is of that kind as well. -/
theorem ytd_balanced_iff (h : ReachesBy callStep (fun db c => c.Succeeds db ∧ c.tx.KeepsYtd)
    (TPCCDataGenerator.fillTables draws n) db) :
    Balanced n db ∧ ∀ c db', c.Succeeds db → callStep db c = some db' → (Balanced n db' ↔ c.tx.KeepsYtd) := by
  have hinv : Sized n db ∧ Balanced n db := by
    refine h.invariant (P := fun db => Sized n db ∧ Balanced n db)
      ⟨TPCCDataGenerator.sized_fillTables draws n, balanced_fillTables draws n⟩ ?_
    rintro db c db' ⟨hsized, hbalanced⟩ ⟨hc, hkeeps⟩ hst
    exact ⟨callStep_sized hsized hst, (callStep_balanced_iff hsized hbalanced hc hst).2 hkeeps⟩
  exact ⟨hinv.2, fun c db' hc hst => callStep_balanced_iff hinv.1 hinv.2 hc hst⟩

theorem ytd_balanced_iff_orderNothing : ∃ db,
    callStep (TPCCDataGenerator.fillTables .plain 1) (granted (orderItems [])) = some db ∧ Balanced 1 db ∧
    ∀ c db', c.Succeeds db → callStep db c = some db' → (Balanced 1 db' ↔ c.tx.KeepsYtd) := by
  have hc := orderItems_succeeds [] (TPCCDataGenerator.sized_fillTables .plain 1) (by simp)
  obtain ⟨db, hst⟩ := callStep_of_succeeds hc
  have hrun := ytd_balanced_iff (n := 1) (.next .start ⟨hc, rfl⟩ hst)
  exact ⟨db, hst, hrun⟩

/-- a New-Order for one item breaks the balance -/
theorem not_balanced_orderOne : ∃ db,
    (granted (orderItems [(1, 5)])).Succeeds (TPCCDataGenerator.fillTables .plain 1) ∧
    callStep (TPCCDataGenerator.fillTables .plain 1) (granted (orderItems [(1, 5)])) = some db ∧
    ¬ Balanced 1 db := by
  have hsized := TPCCDataGenerator.sized_fillTables .plain 1
  have hc := orderItems_succeeds [(1, 5)] hsized (by simp)
  obtain ⟨db, hst⟩ := callStep_of_succeeds hc
  refine ⟨db, hc, hst, ?_⟩
  rw [callStep_balanced_iff hsized (balanced_fillTables .plain 1) hc hst]
  exact List.cons_ne_nil (1, 5) []

end Tpcc

end HawkTxn
