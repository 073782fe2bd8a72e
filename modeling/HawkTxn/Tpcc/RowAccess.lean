/-
Exact row accessors (`tpcc.h`, `tpcc_transaction.cpp`).

`executeWith` is the body of a transaction over any accessors, and `execute` the body over those of the database. The
exact accessors have no result where the row they find does not carry the keys they were asked for, so a call all of
whose accesses are exact is one that has an outcome with them.

Results:
- `TPCCTransaction.bodyWith_mono`: accessors that find fewer rows leave more undefined and change nothing else;
- `Call.RowsExact.callStep`: a call whose accesses are exact ends as it does with the exact accessors.
-/
import HawkTxn.Tpcc.Calls

namespace HawkTxn

open HawkTxn.Core Program

namespace Tpcc

/-! ## Accessors -/

def Warehouse.Keyed (row : Warehouse) (w_id : ℤ) : Prop := row.w_id = w_id

def District.Keyed (row : District) (d_id w_id : ℤ) : Prop := row.d_id = d_id ∧ row.d_w_id = w_id

def Customer.Keyed (row : Customer) (c_id d_id w_id : ℤ) : Prop :=
  row.c_id = c_id ∧ row.c_d_id = d_id ∧ row.c_w_id = w_id

def Stock.Keyed (row : Stock) (i_id w_id : ℤ) : Prop := row.s_i_id = i_id ∧ row.s_w_id = w_id

instance (row : Warehouse) (w_id : ℤ) : Decidable (row.Keyed w_id) := inferInstanceAs (Decidable (_ = _))

instance (row : District) (d_id w_id : ℤ) : Decidable (row.Keyed d_id w_id) := inferInstanceAs (Decidable (_ ∧ _))

instance (row : Customer) (c_id d_id w_id : ℤ) : Decidable (row.Keyed c_id d_id w_id) :=
  inferInstanceAs (Decidable (_ ∧ _ ∧ _))

instance (row : Stock) (i_id w_id : ℤ) : Decidable (row.Keyed i_id w_id) := inferInstanceAs (Decidable (_ ∧ _))

/-- `updateRow` where the row found is one of those asked for -/
def updateRowOf {ρ : Type} (keyed : ρ → Prop) [DecidablePred keyed] (rows : TPCCDatabase → List ρ)
    (withRows : TPCCDatabase → List ρ → TPCCDatabase) (i : ℤ) (f : ρ → ρ) : Program Session ρ := do
  let row ← readDb fun db => (rowAt (rows db) i).filter keyed
  write fun db => withRows db ((rows db).set i.toNat (f row))
  return row

/-- the accessors of the database, with a result only where the row has the keys of the arguments -/
def RowAccess.exact : RowAccess where
  updateWarehouse w_id f := updateRowOf (Warehouse.Keyed · w_id) (·.warehouses)
    (fun db rows => { db with warehouses := rows }) (warehousePosition w_id) f
  updateDistrict d_id w_id f := updateRowOf (District.Keyed · d_id w_id) (·.districts)
    (fun db rows => { db with districts := rows }) (districtPosition d_id w_id) f
  updateCustomer c_id d_id w_id f := updateRowOf (Customer.Keyed · c_id d_id w_id) (·.customers)
    (fun db rows => { db with customers := rows }) (customerPosition c_id d_id w_id) f
  updateStock i_id w_id f := updateRowOf (Stock.Keyed · i_id w_id) (·.stocks)
    (fun db rows => { db with stocks := rows }) (stockPosition i_id w_id) f
  getDistrict d_id w_id := readDb fun db => (db.getDistrict d_id w_id).filter (District.Keyed · d_id w_id)
  getStock i_id w_id := readDb fun db => (db.getStock i_id w_id).filter (Stock.Keyed · i_id w_id)

/-! ## Fewer rows -/

variable {acc : RowAccess}

/-- where acc finds a row, acc' finds the same -/
structure RowAccess.Below (acc acc' : RowAccess) : Prop where
  updateWarehouse : ∀ w_id f, Core.Below (acc.updateWarehouse w_id f) (acc'.updateWarehouse w_id f)
  updateDistrict : ∀ d_id w_id f, Core.Below (acc.updateDistrict d_id w_id f) (acc'.updateDistrict d_id w_id f)
  updateCustomer : ∀ c_id d_id w_id f,
    Core.Below (acc.updateCustomer c_id d_id w_id f) (acc'.updateCustomer c_id d_id w_id f)
  updateStock : ∀ i_id w_id f, Core.Below (acc.updateStock i_id w_id f) (acc'.updateStock i_id w_id f)
  getDistrict : ∀ d_id w_id, Core.Below (acc.getDistrict d_id w_id) (acc'.getDistrict d_id w_id)
  getStock : ∀ i_id w_id, Core.Below (acc.getStock i_id w_id) (acc'.getStock i_id w_id)

theorem readDb_filter_below {ρ : Type} (g : TPCCDatabase → Option ρ) (keyed : ρ → Bool) :
    Core.Below (readDb fun db => (g db).filter keyed) (readDb g) :=
  Below.fetch fun _ _ h => (Option.filter_eq_some_iff.1 h).1

theorem updateRowOf_below {ρ : Type} (keyed : ρ → Prop) [DecidablePred keyed] (rows : TPCCDatabase → List ρ)
    (withRows : TPCCDatabase → List ρ → TPCCDatabase) (i : ℤ) (f : ρ → ρ) :
    Core.Below (updateRowOf keyed rows withRows i f) (updateRow rows withRows i f) :=
  (readDb_filter_below _ _).bind fun _ => Below.refl _

theorem exact_below_plain : RowAccess.Below .exact .plain where
  updateWarehouse w_id f := by
    dsimp only [RowAccess.exact, RowAccess.plain, updateWarehouse]
    apply updateRowOf_below
  updateDistrict d_id w_id f := by
    dsimp only [RowAccess.exact, RowAccess.plain, updateDistrict]
    apply updateRowOf_below
  updateCustomer c_id d_id w_id f := by
    dsimp only [RowAccess.exact, RowAccess.plain, updateCustomer]
    apply updateRowOf_below
  updateStock i_id w_id f := by
    dsimp only [RowAccess.exact, RowAccess.plain, updateStock]
    apply updateRowOf_below
  getDistrict d_id w_id := readDb_filter_below (fun db => db.getDistrict d_id w_id) fun row => row.Keyed d_id w_id
  getStock i_id w_id := readDb_filter_below (fun db => db.getStock i_id w_id) fun row => row.Keyed i_id w_id

variable {acc' : RowAccess}

theorem TPCCNewOrderTransaction.executeWith_mono (h : acc.Below acc') (tx : TPCCNewOrderTransaction) (out : Outside) :
    Core.Below (tx.executeWith acc out) (tx.executeWith acc' out) := by
  unfold executeWith
  refine (Below.refl _).bind fun _ => (Below.refl _).bind fun _ => ?_
  refine (h.updateDistrict _ _ _).bind fun district => ?_
  refine (Below.refl _).bind fun _ => (Below.refl _).bind fun o_entry_d => ?_
  refine (Below.refl _).bind fun _ => (Below.refl _).bind fun _ => ?_
  refine (Below.refl _).bind fun _ => (Below.refl _).bind fun _ => ?_
  refine (Below.foldlM (fun total item => ?_) _ 0).bind fun total => ?_
  · unfold orderItem
    refine (Below.refl _).bind fun _ => (Below.refl _).bind fun _ => ?_
    exact (h.updateStock _ _ _).bind fun _ => Below.refl _
  · exact (h.updateWarehouse _ _).bind fun _ => Below.refl _

theorem TPCCPaymentTransaction.executeWith_mono (h : acc.Below acc') (tx : TPCCPaymentTransaction) (out : Outside) :
    Core.Below (tx.executeWith acc out) (tx.executeWith acc' out) := by
  unfold executeWith
  refine (Below.refl _).bind fun _ => (h.updateWarehouse _ _).bind fun _ => ?_
  refine (Below.refl _).bind fun _ => (h.updateDistrict _ _ _).bind fun _ => ?_
  exact (Below.refl _).bind fun _ => (h.updateCustomer _ _ _ _).bind fun _ => Below.refl _

theorem TPCCDeliveryTransaction.executeWith_mono (h : acc.Below acc') (tx : TPCCDeliveryTransaction) (out : Outside) :
    Core.Below (tx.executeWith acc out) (tx.executeWith acc' out) := by
  unfold executeWith
  refine (Below.forM (fun d_id => ?_) _).bind fun _ => Below.refl _
  unfold deliverDistrict
  refine (Below.refl _).bind fun oldest_new_order => ?_
  cases oldest_new_order with
  | none => exact Below.refl _
  | some no =>
    unfold deliver
    refine (Below.refl _).bind fun _ => (Below.refl _).bind fun _ => ?_
    refine (Below.refl _).bind fun order => (Below.refl _).bind fun _ => ?_
    refine (Below.refl _).bind fun lines => (Below.refl _).bind fun total_amount => ?_
    cases order with
    | none => exact Below.refl _
    | some order => exact (Below.refl _).bind fun _ => (h.updateCustomer _ _ _ _).bind fun _ => Below.refl _

theorem TPCCStockLevelTransaction.executeWith_mono (h : acc.Below acc') (tx : TPCCStockLevelTransaction)
    (out : Outside) : Core.Below (tx.executeWith acc out) (tx.executeWith acc' out) := by
  unfold executeWith
  refine (Below.refl _).bind fun _ => (h.getDistrict _ _).bind fun _ => ?_
  refine (Below.refl _).bind fun last_20_o_ids => ?_
  refine (Below.foldlM (fun low o_id => ?_) _ ∅).bind fun _ => Below.refl _
  unfold checkOrder
  refine (Below.refl _).bind fun order_lines => Below.foldlM (fun low ol => ?_) _ _
  unfold checkStock
  refine Below.ite ?_ (Below.refl _)
  exact (Below.refl _).bind fun _ => (h.getStock _ _).bind fun _ => Below.refl _

/-- **Fewer rows.** -/
theorem TPCCTransaction.bodyWith_mono (h : acc.Below acc') (tx : TPCCTransaction) (out : Outside) :
    Core.Below (tx.bodyWith acc out) (tx.bodyWith acc' out) := by
  cases tx with
  | newOrder tx => exact tx.executeWith_mono h out
  | payment tx => exact tx.executeWith_mono h out
  | orderStatus tx => exact Below.refl _
  | delivery tx => exact tx.executeWith_mono h out
  | stockLevel tx => exact tx.executeWith_mono h out

/-! ## Calls -/

/-- every `getWarehouse`, `getDistrict`, `getCustomer` and `getStock` the call makes indexes inside its vector and
returns the row whose keys are the arguments -/
def Call.RowsExact (db : TPCCDatabase) (c : Call) : Prop :=
  ∃ res, (c.tx.bodyWith .exact c.out).exec (.start db c.txn) = some res

/-- such a call ends as it does with the exact accessors -/
theorem Call.RowsExact.callStep {db : TPCCDatabase} {c : Call} (h : c.RowsExact db) :
    ∃ res, (c.tx.bodyWith .exact c.out).exec (.start db c.txn) = some res ∧ callStep db c = some res.2.db := by
  obtain ⟨res, hexact⟩ := h
  have hplain : (c.tx.body c.out).exec (.start db c.txn) = some res :=
    TPCCTransaction.bodyWith_mono exact_below_plain c.tx c.out _ res hexact
  refine ⟨res, hexact, ?_⟩
  unfold Tpcc.callStep TPCCTransaction.execute
  rw [hplain]
  rfl

end Tpcc

end HawkTxn
