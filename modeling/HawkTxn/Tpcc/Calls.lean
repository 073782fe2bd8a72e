/-
Calls of `execute()` one after the other (`tpcc_transaction.cpp`).

A run of calls is a run over the database.

Results:
- `execute_on`, `callStep_kept`: what the body of a transaction keeps, a call keeps;
- `callStep_sized`: no call changes how many rows there are for the accessors;
- `newOrder_returns`: a New-Order returns true if every lock is granted and the rows it looks up are there.
-/
import HawkTxn.Tpcc.DataGenerator
import HawkTxn.Tpcc.Charges

namespace HawkTxn

open HawkTxn.Core Program

namespace Tpcc

/-! ## Calls -/

structure Call where
  tx : TPCCTransaction
  out : Outside
  /-- the transaction object -/
  txn : Transaction

/-- the database after a call -/
def callStep (db : TPCCDatabase) (c : Call) : Option TPCCDatabase := (c.tx.execute c.out db c.txn).map (·.2.db)

/-- `execute()` returns true -/
def Call.Succeeds (db : TPCCDatabase) (c : Call) : Prop := ∃ s, c.tx.execute c.out db c.txn = some (true, s)

variable {F G S : TPCCDatabase → Prop} {out : Outside} {r : ResourceId} {m : LockMode} {R : Session → Prop} {α ρ : Type}
  {rows : TPCCDatabase → List ρ} {withRows : TPCCDatabase → List ρ → TPCCDatabase} {i : ℤ} {f : ρ → ρ}

/-- what the body keeps, returning or stopping, holds after the call -/
theorem execute_on {tx : TPCCTransaction} {db : TPCCDatabase} {txn : Transaction} {returned : Bool} {s : Session}
    (hbody : Triple (On F) (tx.body out) (fun _ => On G) (On G)) (h : tx.execute out db txn = some (returned, s))
    (hdb : F db) : G s.db := by
  obtain ⟨⟨res, s'⟩, hrun, heq⟩ := Option.map_eq_some_iff.1 h
  obtain rfl : s' = s := congrArg Prod.snd heq
  have hstart : On F (.start db txn) := hdb
  cases res with
  | none => exact hbody.stopped hstart hrun
  | some _ => exact hbody.returned hstart hrun

/-- what holds when the body returns holds after a call that returns true -/
theorem execute_returned {tx : TPCCTransaction} {db : TPCCDatabase} {txn : Transaction} {s : Session}
    (hbody : Triple (On F) (tx.body out) (fun _ => On G) R) (h : tx.execute out db txn = some (true, s))
    (hdb : F db) : G s.db := by
  obtain ⟨⟨res, s'⟩, hrun, heq⟩ := Option.map_eq_some_iff.1 h
  obtain rfl : s' = s := congrArg Prod.snd heq
  have hstart : On F (.start db txn) := hdb
  cases res with
  | none => cases congrArg Prod.fst heq
  | some _ => exact hbody.returned hstart hrun

/-- what the body keeps when it returns, a call that returns true keeps -/
theorem callStep_returned {c : Call} {db db' : TPCCDatabase}
    (hbody : Triple (On F) (c.tx.body c.out) (fun _ => On F) (fun _ => True)) (hc : c.Succeeds db)
    (hst : callStep db c = some db') (h : F db) : F db' := by
  obtain ⟨s, hrun⟩ := hc
  obtain rfl : s.db = db' := by
    rw [callStep, hrun] at hst
    exact Option.some.inj hst
  exact execute_returned hbody hrun h

/-- what the body keeps, returning or stopping, every call keeps -/
theorem callStep_kept {c : Call} {db db' : TPCCDatabase}
    (hbody : Triple (On F) (c.tx.body c.out) (fun _ => On F) (On F)) (hst : callStep db c = some db') (h : F db) :
    F db' := by
  obtain ⟨⟨returned, s⟩, hrun, rfl⟩ := Option.map_eq_some_iff.1 hst
  exact execute_on hbody hrun h

/-! ## Transactions that write nothing -/

theorem TPCCOrderStatusTransaction.execute_keeps (tx : TPCCOrderStatusTransaction) :
    Triple (On F) (tx.execute out) (fun _ => On F) (On F) := by
  unfold execute
  refine Triple.bind (acquire_on fun _ h => h) fun _ => ?_
  refine Triple.bind (readSome_on.post fun _ _ hs => hs.1) fun last_order => ?_
  cases last_order with
  | none => exact releaseAllLocks_on
  | some last_order =>
    refine Triple.bind (acquire_on fun _ h => h) fun _ => ?_
    refine Triple.bind (readSome_on.post fun _ _ hs => hs.1) fun order_lines => ?_
    refine Triple.bind (Triple.forM (I := fun _ => On F) fun _ ol _ _ => ?_) fun _ => releaseAllLocks_on
    exact Triple.ite (fun _ => acquire_on fun _ h => h) fun _ => Triple.pure fun _ hs => hs

theorem TPCCStockLevelTransaction.execute_keeps (tx : TPCCStockLevelTransaction) :
    Triple (On F) (tx.execute out) (fun _ => On F) (On F) := by
  unfold execute executeWith
  refine Triple.bind (acquire_on fun _ h => h) fun _ => ?_
  rw [RowAccess.plain_getDistrict]
  refine Triple.bind (readDb_on.post fun _ _ hs => hs.1) fun _ => ?_
  refine Triple.bind (readSome_on.post fun _ _ hs => hs.1) fun last_20_o_ids => ?_
  refine Triple.bind (Triple.foldlM (I := fun _ _ => On F) fun _ o_id _ _ _ => ?_) fun _ => releaseAllLocks_on
  unfold checkOrder
  refine Triple.bind (readSome_on.post fun _ _ hs => hs.1) fun order_lines => ?_
  refine Triple.foldlM (I := fun _ _ => On F) fun _ ol _ _ _ => ?_
  unfold checkStock
  refine Triple.ite (fun _ => ?_) fun _ => Triple.pure fun _ hs => hs
  refine Triple.bind (acquire_on fun _ h => h) fun _ => ?_
  rw [RowAccess.plain_getStock]
  exact Triple.bind (readDb_on.post fun _ _ hs => hs.1) fun _ => Triple.pure fun _ hs => hs

/-! ## Sizes -/

variable {n : ℕ} {db : TPCCDatabase} {c : Call}

theorem TPCCNewOrderTransaction.execute_sized (tx : TPCCNewOrderTransaction) :
    Triple (On (Sized n)) (tx.execute out) (fun _ => On (Sized n)) (On (Sized n)) := by
  unfold execute executeWith
  refine Triple.bind (acquire_on fun _ h => h) fun _ => ?_
  refine Triple.bind (acquire_on fun _ h => h) fun _ => ?_
  rw [RowAccess.plain_updateDistrict]
  refine Triple.bind (updateRow_on (G := fun _ => Sized n) ?_) fun district => ?_
  · exact fun db row h _ _ => ⟨h.warehouses, List.length_set.trans h.districts, h.customers, h.stocks⟩
  refine Triple.bind (acquire_on fun _ h => h) fun _ => ?_
  refine Triple.bind getCurrentTimestamp_on fun o_entry_d => ?_
  refine Triple.bind (acquire_on fun _ h => h) fun _ => ?_
  refine Triple.bind (acquire_on fun _ h => h) fun _ => ?_
  refine Triple.bind
    (write_on (G := Sized n) fun db h => ⟨h.warehouses, h.districts, h.customers, h.stocks⟩) fun _ => ?_
  refine Triple.bind
    (write_on (G := Sized n) fun db h => ⟨h.warehouses, h.districts, h.customers, h.stocks⟩) fun _ => ?_
  refine Triple.bind (Triple.foldlM (I := fun _ _ => On (Sized n)) fun _ item _ total _ => ?_) fun total => ?_
  · unfold orderItem
    refine Triple.bind (acquire_on fun _ h => h) fun _ => ?_
    refine Triple.bind (acquire_on fun _ h => h) fun _ => ?_
    refine Triple.bind (updateRow_on (G := fun _ => Sized n) ?_) fun stock => ?_
    · exact fun db row h _ _ => ⟨h.warehouses, h.districts, h.customers, List.length_set.trans h.stocks⟩
    refine Triple.bind (acquire_on fun _ h => h) fun _ => ?_
    refine Triple.bind (write_on (G := Sized n) ?_) fun _ => Triple.pure fun _ hs => hs
    exact fun db h => ⟨h.warehouses, h.districts, h.customers, h.stocks⟩
  · rw [RowAccess.plain_updateWarehouse]
    refine Triple.bind (updateRow_on (G := fun _ => Sized n) ?_) fun _ => releaseAllLocks_on
    exact fun db row h _ _ => ⟨List.length_set.trans h.warehouses, h.districts, h.customers, h.stocks⟩

theorem keptByPayment_sized : KeptByPayment (Sized n) where
  warehouse _ _ _ _ h _ _ := ⟨List.length_set.trans h.warehouses, h.districts, h.customers, h.stocks⟩
  district _ _ _ _ h _ _ := ⟨h.warehouses, List.length_set.trans h.districts, h.customers, h.stocks⟩
  customer _ _ _ _ _ _ h _ _ := ⟨h.warehouses, h.districts, List.length_set.trans h.customers, h.stocks⟩
  history _ _ h := ⟨h.warehouses, h.districts, h.customers, h.stocks⟩

theorem keptByDelivery_sized : KeptByDelivery (Sized n) where
  carrier _ _ _ _ h _ := ⟨h.warehouses, h.districts, h.customers, h.stocks⟩
  date _ _ _ _ h _ := ⟨h.warehouses, h.districts, h.customers, h.stocks⟩
  customers _ _ h hlen := ⟨h.warehouses, h.districts, hlen.trans h.customers, h.stocks⟩

theorem TPCCTransaction.body_sized (tx : TPCCTransaction) :
    Triple (On (Sized n)) (tx.body out) (fun _ => On (Sized n)) (On (Sized n)) := by
  cases tx with
  | newOrder tx => exact tx.execute_sized
  | payment tx => exact tx.execute_keeps keptByPayment_sized
  | orderStatus tx => exact tx.execute_keeps
  | delivery tx => exact TPCCDeliveryTransaction.execute_keeps keptByDelivery_sized tx
  | stockLevel tx => exact tx.execute_keeps

theorem callStep_sized {db' : TPCCDatabase} (hdb : Sized n db) (hst : callStep db c = some db') : Sized n db' := by
  obtain ⟨⟨returned, s⟩, hrun, rfl⟩ := Option.map_eq_some_iff.1 hst
  exact execute_on c.tx.body_sized hrun hdb

/-! ## Calls that return true -/

theorem rowAt_isSome {j : ℤ} {l : List ρ} (hj : 0 ≤ j) (hlt : j < l.length) : ∃ row, rowAt l j = some row :=
  have hlt : j.toNat < l.length := by omega
  ⟨l[j.toNat], rowAt_eq_some.2 ⟨hj, List.getElem?_eq_getElem hlt⟩⟩

theorem acquire_total (hgranted : ∀ k, out.answer k = true) :
    TotalTriple (On F) (acquireOrAbort out r m) fun _ => On F := by
  intro s hs
  refine ⟨(), s.answered r m true, ?_, hs⟩
  unfold acquireOrAbort acquireLock
  simp [exec_bind, exec_fetch, exec_change, exec_pure, hgranted]

theorem readDb_total {g : TPCCDatabase → Option α} (h : ∀ db, F db → ∃ a, g db = some a) :
    TotalTriple (On F) (readDb g) fun a => On fun db => F db ∧ g db = some a := TotalTriple.fetch fun s hs => h s.db hs

theorem readSome_total {g : TPCCDatabase → α} :
    TotalTriple (On F) (readDb fun db => some (g db)) fun a => On fun db => F db ∧ g db = a :=
  (readDb_total fun db _ => ⟨g db, rfl⟩).post fun _ _ hs => ⟨hs.1, Option.some.inj hs.2⟩

theorem getCurrentTimestamp_total : TotalTriple (On F) (getCurrentTimestamp out) fun _ => On F :=
  (TotalTriple.fetch fun s _ => ⟨out.timestamp s.requests, rfl⟩).post fun _ _ hs => hs.1

theorem write_total {f : TPCCDatabase → TPCCDatabase} (h : ∀ db, F db → G (f db)) :
    TotalTriple (On F) (write f) fun _ => On G := TotalTriple.change fun s hs => h s.db hs

theorem updateRow_total (hrow : ∀ db, F db → 0 ≤ i ∧ i < (rows db).length)
    (h : ∀ db row, F db → G (withRows db ((rows db).set i.toNat (f row)))) :
    TotalTriple (On F) (updateRow rows withRows i f) fun _ => On G := by
  unfold updateRow
  refine TotalTriple.bind (readDb_total fun db hdb => rowAt_isSome (hrow db hdb).1 (hrow db hdb).2) fun row => ?_
  refine TotalTriple.bind (M := fun _ => On G) (write_total ?_) fun _ => TotalTriple.pure fun _ hs => hs
  exact fun db hdb => h db row hdb.1

theorem releaseAllLocks_total : TotalTriple (On F) releaseAllLocks fun _ => On F := TotalTriple.change fun _ hs => hs

theorem succeeds_of_total (h : TotalTriple (On F) (c.tx.body c.out) fun _ => On G) (hdb : F db) : c.Succeeds db := by
  have hstart : On F (.start db c.txn) := hdb
  obtain ⟨u, s, hrun, -⟩ := h _ hstart
  exact ⟨s, by rw [TPCCTransaction.execute, hrun]; rfl⟩

/-- A New-Order returns true if every lock is granted and its warehouses, its district and its items are there. -/
theorem newOrder_returns {tx : TPCCNewOrderTransaction} (hgranted : ∀ k, out.answer k = true) (hw1 : 1 ≤ tx.w_id)
    (hwn : tx.w_id ≤ n) (hd1 : 1 ≤ tx.d_id) (hd10 : tx.d_id ≤ 10)
    (hitems : ∀ item ∈ tx.item_info.zipIdx, (1 ≤ item.1.1 ∧ item.1.1 ≤ 100000) ∧
      1 ≤ tx.supplyWarehouse out item.2 ∧ tx.supplyWarehouse out item.2 ≤ n) :
    TotalTriple (On (Sized n)) (tx.execute out) fun _ => On (Sized n) := by
  unfold TPCCNewOrderTransaction.execute TPCCNewOrderTransaction.executeWith
  refine TotalTriple.bind (acquire_total hgranted) fun _ => ?_
  refine TotalTriple.bind (acquire_total hgranted) fun _ => ?_
  rw [RowAccess.plain_updateDistrict]
  refine TotalTriple.bind (updateRow_total (G := Sized n) ?_ ?_) fun district => ?_
  · intro db h
    rw [h.districts]
    unfold districtPosition
    omega
  · exact fun db row h => ⟨h.warehouses, List.length_set.trans h.districts, h.customers, h.stocks⟩
  refine TotalTriple.bind (acquire_total hgranted) fun _ => ?_
  refine TotalTriple.bind getCurrentTimestamp_total fun o_entry_d => ?_
  refine TotalTriple.bind (acquire_total hgranted) fun _ => ?_
  refine TotalTriple.bind (acquire_total hgranted) fun _ => ?_
  refine TotalTriple.bind (write_total (G := Sized n) ?_) fun _ => ?_
  · exact fun db h => ⟨h.warehouses, h.districts, h.customers, h.stocks⟩
  refine TotalTriple.bind (write_total (G := Sized n) ?_) fun _ => ?_
  · exact fun db h => ⟨h.warehouses, h.districts, h.customers, h.stocks⟩
  refine TotalTriple.bind
    (TotalTriple.foldlM (I := fun _ => On (Sized n)) (fun item hitem total => ?_) 0) fun total => ?_
  · obtain ⟨hitem, hsupply⟩ := hitems item hitem
    unfold TPCCNewOrderTransaction.orderItem
    refine TotalTriple.bind (acquire_total hgranted) fun _ => ?_
    refine TotalTriple.bind (acquire_total hgranted) fun _ => ?_
    refine TotalTriple.bind (updateRow_total (G := Sized n) ?_ ?_) fun stock => ?_
    · intro db h
      rw [h.stocks]
      simp only [stockPosition, TPCCNewOrderTransaction.orderLine]
      omega
    · exact fun db row h => ⟨h.warehouses, h.districts, h.customers, List.length_set.trans h.stocks⟩
    refine TotalTriple.bind (acquire_total hgranted) fun _ => ?_
    refine TotalTriple.bind (write_total (G := Sized n) ?_) fun _ => TotalTriple.pure fun _ hs => hs
    exact fun db h => ⟨h.warehouses, h.districts, h.customers, h.stocks⟩
  · rw [RowAccess.plain_updateWarehouse]
    refine TotalTriple.bind (updateRow_total (G := Sized n) ?_ ?_) fun _ => releaseAllLocks_total
    · intro db h
      rw [h.warehouses]
      unfold warehousePosition
      omega
    · exact fun db row h => ⟨List.length_set.trans h.warehouses, h.districts, h.customers, h.stocks⟩

/-- a call with every request granted -/
def granted (tx : TPCCTransaction) : Call := ⟨tx, answering [], tpccObject⟩

/-- customer 1 orders items -/
def orderItems (items : List (ℤ × ℤ)) : TPCCTransaction := .newOrder ⟨1, 1, 1, items⟩

theorem orderItems_succeeds (items : List (ℤ × ℤ)) (hdb : Sized 1 db)
    (hitems : ∀ item ∈ items, 1 ≤ item.1 ∧ item.1 ≤ 100000) : (granted (orderItems items)).Succeeds db := by
  refine succeeds_of_total (G := Sized 1) (newOrder_returns (n := 1) (fun _ => rfl) (Int.le_refl 1)
    (Int.le_refl 1) (Int.le_refl 1) (Int.le_add_of_nonneg_right (by decide : (0 : ℤ) ≤ 9)) ?_) hdb
  intro item hitem
  refine ⟨hitems item.1 (List.fst_mem_of_mem_zipIdx hitem), ?_⟩
  simp [TPCCNewOrderTransaction.supplyWarehouse, granted, answering]

theorem callStep_of_succeeds (h : c.Succeeds db) : ∃ db', callStep db c = some db' := by
  obtain ⟨s, hrun⟩ := h
  exact ⟨s.db, by rw [callStep, hrun]; rfl⟩

end Tpcc

end HawkTxn
