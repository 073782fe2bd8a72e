/-
Exact row access (`tpcc.h`, `tpcc_transaction.cpp`, `tpccWorkloadLoop`).

An accessor computes a position from its arguments and does not check them; an id outside its range leads outside the
vector or to another row. The keys of the rows never change, and the ids that a transaction brings, draws or finds in
the rows it scans are in range, with one exception. The workload stands for a customer to be chosen by last name with
the id 0, and a Payment looks that id up: one place before the first customer of a district is the last customer of the
district before, or nothing.

Results:
- `keysInRange_of_reaches`: what holds of the keys after every sequence of calls of the workload;
- `body_safe`: with ids in range every access of a call is exact;
- `lastName_exact_iff`: a Payment for the customer 0 is exact only if it is denied one of its first three locks;
- `rowsExact_iff`: the calls of the workload whose accesses are all exact.
-/
import HawkTxn.Tpcc.RowAccess
import HawkTxn.Tpcc.Workload
import HawkTxn.Tpcc.GeneratedData

namespace HawkTxn

open HawkTxn.Core Program

namespace Tpcc

open TPCCDatabase

/-! ## Keys -/

/-- the rows of n warehouses have their keys, and the orders and order lines have the ids of such rows -/
structure KeysInRange (n : ℕ) (db : TPCCDatabase) : Prop where
  rows : RowsKeyed n db
  orders : ∀ order ∈ db.orders,
    order.o_w_id ∈ intRange 1 n ∧ order.o_d_id ∈ intRange 1 10 ∧ order.o_c_id ∈ intRange 1 3000
  order_lines : ∀ ol ∈ db.order_lines, ol.ol_i_id ∈ intRange 1 100000 ∧ ol.ol_supply_w_id ∈ intRange 1 n

/-- a Payment for a customer chosen by last name that is granted the locks of warehouse, district and customer -/
def Call.LastNameGranted (c : Call) : Prop :=
  match c.tx with
  | .payment tx => tx.c_id = 0 ∧ c.out.answer 0 ∧ c.out.answer 1 ∧ c.out.answer 2
  | _ => False

variable {n : ℕ} {db db' : TPCCDatabase} {out : Outside} {c : Call} {r : ResourceId} {m : LockMode}
  {F G : TPCCDatabase → Prop} {R : Session → Prop} {α ρ : Type}

section Writes

variable {rows : List ρ} {old new : ρ} {i j : ℤ}

/-- a row is replaced by one with the same keys -/
theorem rowAt_set_keyed {K : ρ → Prop} (hpos : 0 ≤ i) (hold : rows[i.toNat]? = some old) (hkeys : K old → K new)
    (h : ∃ row, rowAt rows j = some row ∧ K row) : ∃ row, rowAt (rows.set i.toNat new) j = some row ∧ K row := by
  obtain ⟨row, hrow, hK⟩ := h
  rw [rowAt_set hpos (List.getElem?_eq_some_iff.1 hold).1]
  by_cases hji : j = i
  · subst hji
    obtain rfl : old = row := Option.some.inj (hold.symm.trans (rowAt_eq_some.1 hrow).2)
    exact ⟨new, if_pos rfl, hkeys hK⟩
  · exact ⟨row, by rw [if_neg hji, hrow], hK⟩

theorem KeysInRange.set_warehouses {old new : Warehouse} (h : KeysInRange n db) (hpos : 0 ≤ i)
    (hold : db.warehouses[i.toNat]? = some old) (hkeys : new.w_id = old.w_id) :
    KeysInRange n { db with warehouses := db.warehouses.set i.toNat new } := by
  refine ⟨⟨?_, h.rows.district, h.rows.customer, h.rows.stock⟩, h.orders, h.order_lines⟩
  exact fun w hw => rowAt_set_keyed hpos hold (fun hK => hkeys.trans hK) (h.rows.warehouse w hw)

theorem KeysInRange.set_districts {old new : District} (h : KeysInRange n db) (hpos : 0 ≤ i)
    (hold : db.districts[i.toNat]? = some old) (hd : new.d_id = old.d_id) (hw : new.d_w_id = old.d_w_id) :
    KeysInRange n { db with districts := db.districts.set i.toNat new } := by
  refine ⟨⟨h.rows.warehouse, ?_, h.rows.customer, h.rows.stock⟩, h.orders, h.order_lines⟩
  intro w hwn d hd10
  exact rowAt_set_keyed hpos hold (fun hK => ⟨hd.trans hK.1, hw.trans hK.2⟩) (h.rows.district w hwn d hd10)

theorem KeysInRange.set_customers {old new : Customer} (h : KeysInRange n db) (hpos : 0 ≤ i)
    (hold : db.customers[i.toNat]? = some old) (hc : new.c_id = old.c_id) (hd : new.c_d_id = old.c_d_id)
    (hw : new.c_w_id = old.c_w_id) : KeysInRange n { db with customers := db.customers.set i.toNat new } := by
  refine ⟨⟨h.rows.warehouse, h.rows.district, ?_, h.rows.stock⟩, h.orders, h.order_lines⟩
  intro w hwn d hd10 c hc3000
  exact rowAt_set_keyed hpos hold (fun hK => ⟨hc.trans hK.1, hd.trans hK.2.1, hw.trans hK.2.2⟩)
    (h.rows.customer w hwn d hd10 c hc3000)

theorem KeysInRange.set_stocks {old new : Stock} (h : KeysInRange n db) (hpos : 0 ≤ i)
    (hold : db.stocks[i.toNat]? = some old) (hi : new.s_i_id = old.s_i_id) (hw : new.s_w_id = old.s_w_id) :
    KeysInRange n { db with stocks := db.stocks.set i.toNat new } := by
  refine ⟨⟨h.rows.warehouse, h.rows.district, h.rows.customer, ?_⟩, h.orders, h.order_lines⟩
  intro w hwn i' hi'
  exact rowAt_set_keyed hpos hold (fun hK => ⟨hi.trans hK.1, hw.trans hK.2⟩) (h.rows.stock w hwn i' hi')

end Writes

/-- the generated data -/
theorem keysInRange_fillTables (draws : Draws) (n : ℕ) : KeysInRange n (TPCCDataGenerator.fillTables draws n) where
  rows := TPCCDataGenerator.rowsKeyed_fillTables draws n
  orders := by
    intro order horder
    rw [TPCCDataGenerator.orders_fillTables] at horder
    obtain ⟨w, hw, horder⟩ := List.mem_flatMap.1 horder
    obtain ⟨d, hd, horder⟩ := List.mem_flatMap.1 horder
    have hcustomer : order.o_c_id ∈ draws.c_ids w d := by
      rw [← TPCCDataGenerator.map_o_c_id]
      exact List.mem_map_of_mem horder
    obtain ⟨o, -, rfl⟩ := List.mem_map.1 horder
    exact ⟨hw, hd, (draws.c_ids_perm w d).mem_iff.1 hcustomer⟩
  order_lines := by
    intro ol hol
    rw [TPCCDataGenerator.order_lines_fillTables] at hol
    obtain ⟨w, hw, hol⟩ := List.mem_flatMap.1 hol
    obtain ⟨d, -, hol⟩ := List.mem_flatMap.1 hol
    obtain ⟨o, -, hol⟩ := List.mem_flatMap.1 hol
    obtain ⟨i, -, rfl⟩ := List.mem_map.1 hol
    exact ⟨mem_intRange.2 (draws.ol_i_id_mem w d o i), hw⟩

/-! ## Rules -/

theorem exec_acquireOrAbort (s : Session) : (acquireOrAbort out r m).exec s =
    some (if out.answer s.requests then (some (), s.answered r m true)
      else (none, (s.answered r m false).released .aborted)) := by
  unfold acquireOrAbort acquireLock
  cases h : out.answer s.requests <;>
    simp [exec_bind, exec_fetch, exec_change, exec_pure, exec_stop, abort, h]

theorem acquire_safe (hdenied : ∀ db, F db → G db) :
    SafeTriple (On F) (acquireOrAbort out r m) (fun _ => On F) (On G) :=
  ⟨fun s _ => ⟨_, exec_acquireOrAbort s⟩, acquire_on hdenied⟩

theorem readDb_safe {g : TPCCDatabase → Option α} (h : ∀ db, F db → ∃ a, g db = some a) :
    SafeTriple (On F) (readDb g) (fun a => On fun db => F db ∧ g db = some a) R :=
  SafeTriple.fetch fun s hs => h s.db hs

theorem readSome_safe {g : TPCCDatabase → α} :
    SafeTriple (On F) (readDb fun db => some (g db)) (fun a => On fun db => F db ∧ g db = a) R :=
  (readDb_safe fun db _ => ⟨g db, rfl⟩).post fun _ _ hs => ⟨hs.1, Option.some.inj hs.2⟩

theorem getCurrentTimestamp_safe : SafeTriple (On F) (getCurrentTimestamp out) (fun _ => On F) R :=
  (SafeTriple.fetch fun s _ => ⟨out.timestamp s.requests, rfl⟩).post fun _ _ hs => hs.1

theorem write_safe {f : TPCCDatabase → TPCCDatabase} (h : ∀ db, F db → G (f db)) :
    SafeTriple (On F) (write f) (fun _ => On G) R := SafeTriple.change fun s hs => h s.db hs

theorem releaseAllLocks_safe : SafeTriple (On F) releaseAllLocks (fun _ => On F) R := SafeTriple.change fun _ hs => hs

theorem updateRowOf_safe {keyed : ρ → Prop} [DecidablePred keyed] {rows : TPCCDatabase → List ρ}
    {withRows : TPCCDatabase → List ρ → TPCCDatabase} {i : ℤ} {f : ρ → ρ}
    (hrow : ∀ db, F db → ∃ row, rowAt (rows db) i = some row ∧ keyed row)
    (h : ∀ db row, F db → 0 ≤ i → (rows db)[i.toNat]? = some row → G (withRows db ((rows db).set i.toNat (f row)))) :
    SafeTriple (On F) (updateRowOf keyed rows withRows i f) (fun _ => On G) R := by
  unfold updateRowOf
  refine SafeTriple.bind (readDb_safe ?_) fun row => ?_
  · intro db hdb
    obtain ⟨row, hrow, hkeyed⟩ := hrow db hdb
    exact ⟨row, Option.filter_eq_some_iff.2 ⟨hrow, decide_eq_true hkeyed⟩⟩
  · refine SafeTriple.bind (M := fun _ => On G) (write_safe ?_) fun _ => SafeTriple.pure fun _ hs => hs
    intro db hdb
    obtain ⟨hpos, hrow⟩ := rowAt_eq_some.1 (Option.filter_eq_some_iff.1 hdb.2).1
    exact h db row hdb.1 hpos hrow

section Accessors

variable {w d c_id i : ℤ}

theorem updateWarehouse_safe {f : Warehouse → Warehouse} (hw : w ∈ intRange 1 n) (hf : ∀ row, (f row).w_id = row.w_id) :
    SafeTriple (On (KeysInRange n)) (RowAccess.exact.updateWarehouse w f) (fun _ => On (KeysInRange n)) R := by
  dsimp only [RowAccess.exact]
  apply updateRowOf_safe
  · exact fun _ h => h.rows.warehouse w hw
  · exact fun _ row h hpos hold => h.set_warehouses hpos hold (hf row)

theorem updateDistrict_safe {f : District → District} (hw : w ∈ intRange 1 n) (hd : d ∈ intRange 1 10)
    (hf : ∀ row, (f row).d_id = row.d_id ∧ (f row).d_w_id = row.d_w_id) :
    SafeTriple (On (KeysInRange n)) (RowAccess.exact.updateDistrict d w f) (fun _ => On (KeysInRange n)) R := by
  dsimp only [RowAccess.exact]
  apply updateRowOf_safe
  · exact fun _ h => h.rows.district w hw d hd
  · exact fun _ row h hpos hold => h.set_districts hpos hold (hf row).1 (hf row).2

theorem updateCustomer_safe {f : Customer → Customer} (hw : w ∈ intRange 1 n) (hd : d ∈ intRange 1 10)
    (hc : c_id ∈ intRange 1 3000)
    (hf : ∀ row, (f row).c_id = row.c_id ∧ (f row).c_d_id = row.c_d_id ∧ (f row).c_w_id = row.c_w_id) :
    SafeTriple (On (KeysInRange n)) (RowAccess.exact.updateCustomer c_id d w f) (fun _ => On (KeysInRange n)) R := by
  dsimp only [RowAccess.exact]
  apply updateRowOf_safe
  · exact fun _ h => h.rows.customer w hw d hd c_id hc
  · exact fun _ row h hpos hold => h.set_customers hpos hold (hf row).1 (hf row).2.1 (hf row).2.2

theorem updateStock_safe {f : Stock → Stock} (hw : w ∈ intRange 1 n) (hi : i ∈ intRange 1 100000)
    (hf : ∀ row, (f row).s_i_id = row.s_i_id ∧ (f row).s_w_id = row.s_w_id) :
    SafeTriple (On (KeysInRange n)) (RowAccess.exact.updateStock i w f) (fun _ => On (KeysInRange n)) R := by
  dsimp only [RowAccess.exact]
  apply updateRowOf_safe
  · exact fun _ h => h.rows.stock w hw i hi
  · exact fun _ row h hpos hold => h.set_stocks hpos hold (hf row).1 (hf row).2

/-- the row was asked for by its keys and read -/
theorem getDistrict_safe (hw : w ∈ intRange 1 n) (hd : d ∈ intRange 1 10) :
    SafeTriple (On (KeysInRange n)) (RowAccess.exact.getDistrict d w) (fun _ => On (KeysInRange n)) R := by
  dsimp only [RowAccess.exact]
  refine SafeTriple.post (readDb_safe ?_) fun _ _ hs => hs.1
  intro db h
  obtain ⟨row, hrow, hkeyed⟩ := h.rows.district w hw d hd
  exact ⟨row, Option.filter_eq_some_iff.2 ⟨hrow, decide_eq_true hkeyed⟩⟩

theorem getStock_safe (hw : w ∈ intRange 1 n) (hi : i ∈ intRange 1 100000) :
    SafeTriple (On (KeysInRange n)) (RowAccess.exact.getStock i w) (fun _ => On (KeysInRange n)) R := by
  dsimp only [RowAccess.exact]
  refine SafeTriple.post (readDb_safe ?_) fun _ _ hs => hs.1
  intro db h
  obtain ⟨row, hrow, hkeyed⟩ := h.rows.stock w hw i hi
  exact ⟨row, Option.filter_eq_some_iff.2 ⟨hrow, decide_eq_true hkeyed⟩⟩

end Accessors

/-! ## Ids in range -/

/-- what is kept whether the call goes on or stops -/
abbrev Safe (n : ℕ) (x : Program Session α) : Prop :=
  SafeTriple (On (KeysInRange n)) x (fun _ => On (KeysInRange n)) (On (KeysInRange n))

namespace TPCCNewOrderTransaction

variable {tx : TPCCNewOrderTransaction}

theorem supplyWarehouse_mem (hw : tx.w_id ∈ intRange 1 n) (hsupply : ∀ i, out.randomWarehouseId i ∈ intRange 1 n)
    (i : ℕ) : tx.supplyWarehouse out i ∈ intRange 1 n := by
  unfold supplyWarehouse
  split_ifs
  · exact hsupply i
  · exact hw

/-- the line that an item adds names the stock it was taken from -/
theorem orderItemWith_safe (hw : tx.w_id ∈ intRange 1 n) (hsupply : ∀ i, out.randomWarehouseId i ∈ intRange 1 n)
    {item : (ℤ × ℤ) × ℕ} (hitem : item.1.1 ∈ intRange 1 100000) (o_id : ℤ) (total : ℚ) :
    Safe n (orderItem .exact tx out o_id total item) := by
  have hsupplied := supplyWarehouse_mem hw hsupply item.2
  unfold orderItem
  refine SafeTriple.bind (acquire_safe fun _ h => h) fun _ => ?_
  refine SafeTriple.bind (acquire_safe fun _ h => h) fun _ => ?_
  refine SafeTriple.bind (updateStock_safe hsupplied hitem fun _ => ⟨rfl, rfl⟩) fun _ => ?_
  refine SafeTriple.bind (acquire_safe fun _ h => h) fun _ => ?_
  refine SafeTriple.bind (write_safe (G := KeysInRange n) ?_) fun _ => SafeTriple.pure fun _ hs => hs
  intro db h
  refine ⟨⟨h.rows.warehouse, h.rows.district, h.rows.customer, h.rows.stock⟩, h.orders, ?_⟩
  intro ol hol
  rcases List.mem_append.1 hol with hol | hol
  · exact h.order_lines ol hol
  · rw [List.mem_singleton.1 hol]
    exact ⟨hitem, hsupplied⟩

theorem executeWith_safe (hw : tx.w_id ∈ intRange 1 n) (hd : tx.d_id ∈ intRange 1 10)
    (hc : tx.c_id ∈ intRange 1 3000) (hitems : ∀ item ∈ tx.item_info, item.1 ∈ intRange 1 100000)
    (hsupply : ∀ i, out.randomWarehouseId i ∈ intRange 1 n) : Safe n (tx.executeWith .exact out) := by
  unfold executeWith
  refine SafeTriple.bind (acquire_safe fun _ h => h) fun _ => ?_
  refine SafeTriple.bind (acquire_safe fun _ h => h) fun _ => ?_
  refine SafeTriple.bind (updateDistrict_safe hw hd fun _ => ⟨rfl, rfl⟩) fun district => ?_
  refine SafeTriple.bind (acquire_safe fun _ h => h) fun _ => ?_
  refine SafeTriple.bind getCurrentTimestamp_safe fun o_entry_d => ?_
  refine SafeTriple.bind (acquire_safe fun _ h => h) fun _ => ?_
  refine SafeTriple.bind (acquire_safe fun _ h => h) fun _ => ?_
  refine SafeTriple.bind (write_safe (G := KeysInRange n) ?_) fun _ => ?_
  · intro db h
    refine ⟨⟨h.rows.warehouse, h.rows.district, h.rows.customer, h.rows.stock⟩, ?_, h.order_lines⟩
    intro order horder
    rcases List.mem_append.1 horder with horder | horder
    · exact h.orders order horder
    · rw [List.mem_singleton.1 horder]
      exact ⟨hw, hd, hc⟩
  refine SafeTriple.bind (write_safe (G := KeysInRange n) ?_) fun _ => ?_
  · exact fun _ h =>
      ⟨⟨h.rows.warehouse, h.rows.district, h.rows.customer, h.rows.stock⟩, h.orders, h.order_lines⟩
  refine SafeTriple.bind (SafeTriple.foldlM (I := fun _ => On (KeysInRange n)) ?_ 0) fun total => ?_
  · intro item hitem total
    exact orderItemWith_safe hw hsupply (hitems item.1 (List.fst_mem_of_mem_zipIdx hitem)) _ total
  · exact SafeTriple.bind (updateWarehouse_safe hw fun _ => rfl) fun _ => releaseAllLocks_safe

end TPCCNewOrderTransaction

theorem TPCCPaymentTransaction.executeWith_safe {tx : TPCCPaymentTransaction} (hw : tx.w_id ∈ intRange 1 n)
    (hd : tx.d_id ∈ intRange 1 10) (hcw : tx.c_w_id ∈ intRange 1 n) (hcd : tx.c_d_id ∈ intRange 1 10)
    (hc : tx.c_id ∈ intRange 1 3000) : Safe n (tx.executeWith .exact out) := by
  unfold executeWith
  refine SafeTriple.bind (acquire_safe fun _ h => h) fun _ => ?_
  refine SafeTriple.bind (updateWarehouse_safe hw fun _ => rfl) fun _ => ?_
  refine SafeTriple.bind (acquire_safe fun _ h => h) fun _ => ?_
  refine SafeTriple.bind (updateDistrict_safe hw hd fun _ => ⟨rfl, rfl⟩) fun _ => ?_
  refine SafeTriple.bind (acquire_safe fun _ h => h) fun _ => ?_
  refine SafeTriple.bind (updateCustomer_safe hcw hcd hc fun _ => ⟨rfl, rfl, rfl⟩) fun _ => ?_
  refine SafeTriple.bind getCurrentTimestamp_safe fun h_date => ?_
  refine SafeTriple.bind (acquire_safe fun _ h => h) fun _ => ?_
  refine SafeTriple.bind (write_safe (G := KeysInRange n) ?_) fun _ => releaseAllLocks_safe
  exact fun _ h => ⟨⟨h.rows.warehouse, h.rows.district, h.rows.customer, h.rows.stock⟩, h.orders, h.order_lines⟩

theorem TPCCOrderStatusTransaction.execute_safe (tx : TPCCOrderStatusTransaction) : Safe n (tx.execute out) := by
  unfold execute
  refine SafeTriple.bind (acquire_safe fun _ h => h) fun _ => ?_
  refine SafeTriple.bind (readSome_safe.post fun _ _ hs => hs.1) fun last_order => ?_
  cases last_order with
  | none => exact releaseAllLocks_safe
  | some last_order =>
    refine SafeTriple.bind (acquire_safe fun _ h => h) fun _ => ?_
    refine SafeTriple.bind (readSome_safe.post fun _ _ hs => hs.1) fun order_lines => ?_
    refine SafeTriple.bind (SafeTriple.forM fun ol _ => ?_) fun _ => releaseAllLocks_safe
    exact SafeTriple.ite (fun _ => acquire_safe fun _ h => h) fun _ => SafeTriple.pure fun _ hs => hs

namespace TPCCDeliveryTransaction

/-- the carrier of an order is set; its customer is still one of the rows -/
theorem deliverOrder_safe (tx : TPCCDeliveryTransaction) {no : NewOrder} (order : Option (Order × ℕ)) :
    SafeTriple (On fun db => KeysInRange n db ∧ findOrder db no = order) (tx.deliverOrder order)
      (fun _ => On (KeysInRange n)) R := by
  cases order with
  | none => exact SafeTriple.pure fun _ hs => hs.1
  | some order =>
    unfold deliverOrder
    refine write_safe ?_
    intro db h
    obtain ⟨h, hfound⟩ := h
    have horder : order.1 ∈ db.orders := List.mem_of_getElem? (findOrder_spec hfound).1
    refine ⟨⟨h.rows.warehouse, h.rows.district, h.rows.customer, h.rows.stock⟩, ?_, h.order_lines⟩
    intro order' horder'
    rcases List.mem_or_eq_of_mem_set horder' with horder' | rfl
    · exact h.orders order' horder'
    · exact h.orders order.1 horder

theorem deliverLine_safe {no : NewOrder} {lines i : ℕ} (hi : i < lines) (total : ℚ) :
    SafeTriple (On fun db => KeysInRange n db ∧ db.order_lines.length = lines) (deliverLine out no total i)
      (fun _ => On fun db => KeysInRange n db ∧ db.order_lines.length = lines) (On (KeysInRange n)) := by
  unfold deliverLine
  refine SafeTriple.bind (readDb_safe ?_) fun ol => ?_
  · intro db h
    exact ⟨_, List.getElem?_eq_getElem (h.2.symm ▸ hi)⟩
  refine SafeTriple.ite (fun _ => ?_) fun _ => SafeTriple.pure fun _ hs => hs.1
  refine SafeTriple.bind (acquire_safe fun _ h => h.1.1) fun _ => ?_
  refine SafeTriple.bind getCurrentTimestamp_safe fun ol_delivery_d => ?_
  refine SafeTriple.bind (M := fun _ => On fun db => KeysInRange n db ∧ db.order_lines.length = lines)
    (write_safe ?_) fun _ => SafeTriple.pure fun _ hs => hs
  intro db h
  obtain ⟨⟨h, hlen⟩, hol⟩ := h
  refine ⟨⟨⟨h.rows.warehouse, h.rows.district, h.rows.customer, h.rows.stock⟩, h.orders, ?_⟩, ?_⟩
  · intro ol' hol'
    rcases List.mem_or_eq_of_mem_set hol' with hol' | rfl
    · exact h.order_lines ol' hol'
    · exact h.order_lines ol (List.mem_of_getElem? hol)
  · exact List.length_set.trans hlen

theorem chargeCustomerWith_safe (total : ℚ) {order : Option (Order × ℕ)}
    (horder : ∀ o ∈ order, o.1.o_w_id ∈ intRange 1 n ∧ o.1.o_d_id ∈ intRange 1 10 ∧ o.1.o_c_id ∈ intRange 1 3000) :
    Safe n (chargeCustomer .exact out total order) := by
  cases order with
  | none => exact SafeTriple.pure fun _ hs => hs
  | some order =>
    obtain ⟨hw, hd, hc⟩ := horder order rfl
    refine SafeTriple.bind (acquire_safe fun _ h => h) fun _ => ?_
    refine SafeTriple.bind (updateCustomer_safe hw hd hc fun _ => ⟨rfl, rfl, rfl⟩) fun _ => ?_
    exact SafeTriple.pure fun _ hs => hs

theorem deliverWith_safe (tx : TPCCDeliveryTransaction) (no : NewOrder) : Safe n (deliver .exact tx out no) := by
  unfold deliver
  refine SafeTriple.bind (acquire_safe fun _ h => h) fun _ => ?_
  refine SafeTriple.bind (acquire_safe fun _ h => h) fun _ => ?_
  refine SafeTriple.bind readSome_safe fun order => ?_
  refine SafeTriple.of_fact (φ := ∀ o ∈ order, o.1.o_w_id ∈ intRange 1 n ∧ o.1.o_d_id ∈ intRange 1 10 ∧
    o.1.o_c_id ∈ intRange 1 3000) ?_ fun horder => ?_
  · intro s hs o ho
    obtain ⟨h, hfound⟩ := hs
    exact h.orders o.1 (List.mem_of_getElem? (findOrder_spec (hfound.trans ho)).1)
  refine SafeTriple.bind (deliverOrder_safe tx order) fun _ => ?_
  refine SafeTriple.bind readSome_safe fun lines => ?_
  refine SafeTriple.bind (SafeTriple.foldlM
    (I := fun _ => On fun db => KeysInRange n db ∧ db.order_lines.length = lines) ?_ 0) fun total => ?_
  · exact fun i hi total => deliverLine_safe (List.mem_range.1 hi) total
  · exact (chargeCustomerWith_safe total horder).pre fun _ hs => hs.1

theorem executeWith_safe (tx : TPCCDeliveryTransaction) : Safe n (tx.executeWith .exact out) := by
  unfold executeWith
  refine SafeTriple.bind (SafeTriple.forM fun d_id _ => ?_) fun _ => releaseAllLocks_safe
  unfold deliverDistrict
  refine SafeTriple.bind (readSome_safe.post fun _ _ hs => hs.1) fun oldest_new_order => ?_
  cases oldest_new_order with
  | none => exact SafeTriple.pure fun _ hs => hs
  | some no => exact deliverWith_safe tx no

end TPCCDeliveryTransaction

theorem TPCCStockLevelTransaction.executeWith_safe {tx : TPCCStockLevelTransaction} (hw : tx.w_id ∈ intRange 1 n)
    (hd : tx.d_id ∈ intRange 1 10) : Safe n (tx.executeWith .exact out) := by
  unfold executeWith
  refine SafeTriple.bind (acquire_safe fun _ h => h) fun _ => ?_
  refine SafeTriple.bind (getDistrict_safe hw hd) fun _ => ?_
  refine SafeTriple.bind (readSome_safe.post fun _ _ hs => hs.1) fun last_20_o_ids => ?_
  refine SafeTriple.bind (SafeTriple.foldlM (I := fun _ => On (KeysInRange n)) ?_ ∅) fun _ => releaseAllLocks_safe
  intro o_id _ low
  unfold checkOrder
  refine SafeTriple.bind readSome_safe fun order_lines => ?_
  -- the order lines are those of the database
  refine SafeTriple.of_fact (φ := ∀ ol ∈ order_lines, ol.ol_i_id ∈ intRange 1 100000 ∧
    ol.ol_supply_w_id ∈ intRange 1 n) (fun s hs => hs.2 ▸ hs.1.order_lines) fun hlines => ?_
  refine SafeTriple.pre (P := On (KeysInRange n)) ?_ fun _ hs => hs.1
  refine SafeTriple.foldlM (I := fun _ => On (KeysInRange n)) ?_ low
  intro ol hol low
  obtain ⟨hi, hsupply⟩ := hlines ol hol
  unfold checkStock
  refine SafeTriple.ite (fun _ => ?_) fun _ => SafeTriple.pure fun _ hs => hs
  refine SafeTriple.bind (acquire_safe fun _ h => h) fun _ => ?_
  exact SafeTriple.bind (getStock_safe hsupply hi) fun _ => SafeTriple.pure fun _ hs => hs

/-- **Ids in range.** Every access of a call is exact if the customer of a Payment is not to be chosen by last name. -/
theorem body_safe {tx : TPCCTransaction} (htx : tx.InRange n) (hsupply : ∀ i, out.randomWarehouseId i ∈ intRange 1 n)
    (hlastName : ∀ p, tx = .payment p → p.c_id ≠ 0) : Safe n (tx.bodyWith .exact out) := by
  cases tx with
  | newOrder tx =>
    obtain ⟨hw, hd, hc, hitems⟩ := htx
    exact TPCCNewOrderTransaction.executeWith_safe hw hd hc hitems hsupply
  | payment tx =>
    obtain ⟨hw, hd, hcw, hcd, hc⟩ := htx
    exact TPCCPaymentTransaction.executeWith_safe hw hd hcw hcd (hc.resolve_left (hlastName tx rfl))
  | orderStatus tx => exact TPCCOrderStatusTransaction.execute_safe tx
  | delivery tx => exact TPCCDeliveryTransaction.executeWith_safe tx
  | stockLevel tx => exact TPCCStockLevelTransaction.executeWith_safe htx.1 htx.2

/-! ## The customer chosen by last name -/

section Requests

variable {keyed : ρ → Prop} [DecidablePred keyed] {rows : TPCCDatabase → List ρ}
  {withRows : TPCCDatabase → List ρ → TPCCDatabase} {i : ℤ} {f : ρ → ρ} {s : Session} {x : ρ → Program Session α}

theorem exec_updateRowOf : (updateRowOf keyed rows withRows i f).exec s =
    ((rowAt (rows s.db) i).filter keyed).map fun row =>
      (some row, s.wrote (withRows s.db ((rows s.db).set i.toNat (f row)))) := by
  unfold updateRowOf readDb write
  rw [exec_bind, exec_fetch]
  beta_reduce
  cases (rowAt (rows s.db) i).filter keyed <;> rfl

/-- a request, then an exact update of a row that is there: the rest matters if the request is granted -/
theorem exists_exec_request_iff (row : ρ) (hrow : rowAt (rows s.db) i = some row) (hkeyed : keyed row) :
    (∃ res, (acquireOrAbort out r m >>= fun _ => updateRowOf keyed rows withRows i f >>= x).exec s = some res) ↔
      (out.answer s.requests = true → ∃ res, (x row).exec
        ((s.answered r m true).wrote (withRows s.db ((rows s.db).set i.toNat (f row)))) = some res) := by
  have hfound : (rowAt (rows s.db) i).filter keyed = some row :=
    Option.filter_eq_some_iff.2 ⟨hrow, decide_eq_true hkeyed⟩
  have hupdate : (updateRowOf keyed rows withRows i f).exec (s.answered r m true) =
      some (some row, (s.answered r m true).wrote (withRows s.db ((rows s.db).set i.toNat (f row)))) :=
    exec_updateRowOf.trans (congrArg (Option.map _) hfound)
  rw [exec_bind, exec_acquireOrAbort, Option.bind_some]
  cases hanswer : out.answer s.requests with
  | false => simp
  | true => simp [exec_bind, hupdate]

/-- a request, then an exact update of a row that is not: the request must be denied -/
theorem exists_exec_request_none_iff (h : ∀ row, rowAt (rows s.db) i = some row → ¬ keyed row) :
    (∃ res, (acquireOrAbort out r m >>= fun _ => updateRowOf keyed rows withRows i f >>= x).exec s = some res) ↔
      ¬ out.answer s.requests = true := by
  have hnone : (rowAt (rows s.db) i).filter keyed = none := by
    rw [Option.filter_eq_none_iff]
    exact fun row hrow hkeyed => h row hrow (of_decide_eq_true hkeyed)
  have hupdate : (updateRowOf keyed rows withRows i f).exec (s.answered r m true) = none :=
    exec_updateRowOf.trans (congrArg (Option.map _) hnone)
  rw [exec_bind, exec_acquireOrAbort, Option.bind_some]
  cases hanswer : out.answer s.requests with
  | false => simp
  | true => simp [exec_bind, hupdate]

end Requests

/-- one place before the first customer of a district is no customer, or the last one of the district before -/
theorem getCustomer_zero {d w : ℤ} {row : Customer} (h : RowsKeyed n db) (hw : w ∈ intRange 1 n)
    (hd : d ∈ intRange 1 10) (hrow : db.getCustomer 0 d w = some row) : row.c_id = 3000 := by
  rw [mem_intRange] at hw hd
  have hbefore : ∀ d' w', d' ∈ intRange 1 10 → w' ∈ intRange 1 n →
      customerPosition 0 d w = customerPosition 3000 d' w' → row.c_id = 3000 := by
    intro d' w' hd' hw' hposition
    obtain ⟨last, hlast, hc, -⟩ := h.customer w' hw' d' hd' 3000 (mem_intRange.2 ⟨by norm_num, le_rfl⟩)
    unfold TPCCDatabase.getCustomer at hrow hlast
    rw [hposition, hlast] at hrow
    obtain rfl : last = row := Option.some.inj hrow
    exact hc
  have hpos : 0 ≤ customerPosition 0 d w := (rowAt_eq_some.1 hrow).1
  by_cases hfirst : d = 1
  · -- the last district of the warehouse before
    refine hbefore 10 (w - 1) (mem_intRange.2 ⟨by norm_num, le_rfl⟩) (mem_intRange.2 ?_) ?_
    all_goals
      unfold customerPosition at *
      omega
  · refine hbefore (d - 1) w (mem_intRange.2 (by omega)) (mem_intRange.2 hw) ?_
    unfold customerPosition
    omega

/-- **By last name.** -/
theorem lastName_exact_iff {tx : TPCCPaymentTransaction} (h : RowsKeyed n db) (hw : tx.w_id ∈ intRange 1 n)
    (hd : tx.d_id ∈ intRange 1 10) (hcw : tx.c_w_id ∈ intRange 1 n) (hcd : tx.c_d_id ∈ intRange 1 10)
    (hc : tx.c_id = 0) (txn : Transaction) : (∃ res, (tx.executeWith .exact out).exec (.start db txn) = some res) ↔
      ¬ (out.answer 0 ∧ out.answer 1 ∧ out.answer 2) := by
  obtain ⟨warehouse, hwarehouse, hwarehouseKeyed⟩ := h.warehouse tx.w_id hw
  obtain ⟨district, hdistrict, hdistrictKeyed⟩ := h.district tx.w_id hw tx.d_id hd
  have hcustomer : ∀ row, db.getCustomer tx.c_id tx.c_d_id tx.c_w_id = some row →
      ¬ row.Keyed tx.c_id tx.c_d_id tx.c_w_id := by
    intro row hrow hkeyed
    rw [hc] at hrow
    have hlast := getCustomer_zero h hcw hcd hrow
    rw [hkeyed.1, hc] at hlast
    exact absurd hlast (by norm_num)
  rw [not_and, not_and]
  unfold TPCCPaymentTransaction.executeWith
  dsimp only [RowAccess.exact]
  refine Iff.trans (exists_exec_request_iff warehouse hwarehouse hwarehouseKeyed) (imp_congr_right fun _ => ?_)
  refine Iff.trans (exists_exec_request_iff district hdistrict hdistrictKeyed) (imp_congr_right fun _ => ?_)
  exact exists_exec_request_none_iff hcustomer

/-! ## The workload -/

/-- a Payment that charges another customer leaves the keys as they are -/
theorem keptByPayment_keysInRange : KeptByPayment (KeysInRange n) where
  warehouse _ _ _ _ h hpos hrow := h.set_warehouses hpos hrow rfl
  district _ _ _ _ h hpos hrow := h.set_districts hpos hrow rfl rfl
  customer _ _ _ _ _ _ h hpos hrow := h.set_customers hpos hrow rfl rfl rfl
  history _ _ h :=
    ⟨⟨h.rows.warehouse, h.rows.district, h.rows.customer, h.rows.stock⟩, h.orders, h.order_lines⟩

theorem WorkloadCall.inRange {nodeId : NodeId} (hnode : nodeId ∈ intRange 1 numNodes) (h : WorkloadCall nodeId c) :
    c.tx.InRange (1280 : ℕ) ∧ ∀ i, c.out.randomWarehouseId i ∈ intRange 1 (1280 : ℕ) := by
  have hwarehouses : numWarehouses = (1280 : ℕ) := rfl
  rw [← hwarehouses]
  refine ⟨?_, ?_⟩
  · obtain ⟨rng, htx⟩ := h.tx
    rw [htx]
    exact tpccWorkloadLoop_inRange hnode
  · intro i
    obtain ⟨rng, hsupply⟩ := h.supply i
    rw [hsupply]
    exact generateRandomWarehouseId_mem hnode

theorem callStep_keysInRange {nodeId : NodeId} (hnode : nodeId ∈ intRange 1 numNodes) (hc : WorkloadCall nodeId c)
    (h : KeysInRange 1280 db) (hst : callStep db c = some db') : KeysInRange 1280 db' := by
  obtain ⟨htx, hsupply⟩ := hc.inRange hnode
  by_cases hpayment : ∃ p, c.tx = .payment p
  · obtain ⟨p, hp⟩ := hpayment
    obtain ⟨⟨returned, s⟩, hrun, rfl⟩ := Option.map_eq_some_iff.1 hst
    have hbody : Triple (On (KeysInRange 1280)) ((TPCCTransaction.payment p).body c.out)
        (fun _ => On (KeysInRange 1280)) (On (KeysInRange 1280)) := p.execute_keeps keptByPayment_keysInRange
    rw [hp] at hrun
    exact execute_on hbody hrun h
  · have hsafe : Safe 1280 (c.tx.bodyWith .exact c.out) :=
      body_safe htx hsupply fun p hp => absurd ⟨p, hp⟩ hpayment
    obtain ⟨⟨res, s⟩, hexact, hcall⟩ := Call.RowsExact.callStep (hsafe.defined (.start db c.txn) h)
    obtain rfl : s.db = db' := Option.some.inj (hcall.symm.trans hst)
    have hstart : On (KeysInRange 1280) (.start db c.txn) := h
    cases res with
    | none => exact hsafe.triple.stopped hstart hexact
    | some _ => exact hsafe.triple.returned hstart hexact

/-- the databases of the workload: calls that the loops of nodes build, one after the other, on the generated data -/
abbrev WorkloadReaches (draws : Draws) (db : TPCCDatabase) : Prop :=
  ReachesBy callStep (fun _ c => ∃ nodeId ∈ intRange 1 numNodes, WorkloadCall nodeId c)
    (TPCCDataGenerator.fillTables draws numWarehouses.toNat) db

theorem keysInRange_of_reaches {draws : Draws} (h : WorkloadReaches draws db) : KeysInRange 1280 db := by
  refine h.invariant (keysInRange_fillTables draws 1280) ?_
  intro db c db' hdb hc hst
  obtain ⟨nodeId, hnode, hc⟩ := hc
  exact callStep_keysInRange hnode hc hdb hst

/-- **Exact rows.** On every database the workload reaches and with every lock outcome, all row accesses of a call that
the loop of a node builds are exact, unless it is a Payment for a customer chosen by last name that is granted the locks
of warehouse, district and customer. -/
theorem rowsExact_iff {draws : Draws} {nodeId : NodeId} (hdb : WorkloadReaches draws db)
    (hnode : nodeId ∈ intRange 1 numNodes) (hc : WorkloadCall nodeId c) : c.RowsExact db ↔ ¬ c.LastNameGranted := by
  have h : KeysInRange 1280 db := keysInRange_of_reaches hdb
  obtain ⟨htx, hsupply⟩ := hc.inRange hnode
  by_cases hlastName : ∃ p, c.tx = .payment p ∧ p.c_id = 0
  · obtain ⟨p, hp, hzero⟩ := hlastName
    rw [hp] at htx
    obtain ⟨hw, hd, hcw, hcd, -⟩ := htx
    have hgranted : c.LastNameGranted ↔ c.out.answer 0 ∧ c.out.answer 1 ∧ c.out.answer 2 := by
      simp [Call.LastNameGranted, hp, hzero]
    rw [hgranted, Call.RowsExact, hp]
    exact lastName_exact_iff h.rows hw hd hcw hcd hzero c.txn
  · have hsafe : Safe 1280 (c.tx.bodyWith .exact c.out) :=
      body_safe htx hsupply fun p hp hzero => hlastName ⟨p, hp, hzero⟩
    refine iff_of_true (hsafe.defined (.start db c.txn) h) ?_
    intro hgranted
    unfold Call.LastNameGranted at hgranted
    cases htx : c.tx with
    | payment p =>
      rw [htx] at hgranted
      exact hlastName ⟨p, htx, hgranted.1⟩
    | _ => simp [htx] at hgranted

/-- a call that the loop of node 1 builds, with every request granted -/
theorem workloadCall_granted (rng : TPCCRandom) : WorkloadCall 1 (granted (tpccWorkloadLoop 1 rng)) := by
  refine ⟨⟨rng, rfl⟩, fun i => ⟨.least 1, ?_⟩⟩
  simp [granted, answering, TPCCRandom.generateRandomWarehouseId, TPCCRandom.least, domainLocalAccessProbability,
    numDomains]

/-- a New-Order of node 1 on the generated data -/
theorem rowsExact_newOrder :
    (granted (tpccWorkloadLoop 1 (.least 1))).RowsExact (TPCCDataGenerator.fillTables .plain 1280) := by
  have hreaches : WorkloadReaches .plain (TPCCDataGenerator.fillTables .plain 1280) := .start
  exact (rowsExact_iff hreaches (mem_intRange.2 (by decide)) (workloadCall_granted _)).2 id

/-- a Payment of node 1 for a customer of its first district, chosen by last name -/
theorem tpccWorkloadLoop_lastName : tpccWorkloadLoop 1 (.least 46) = .payment ⟨1, 1, 1, 1, 0, 1⟩ := by
  simp [tpccWorkloadLoop, TPCCRandom.generateRandomWarehouseId, TPCCRandom.least, domainLocalAccessProbability,
    numDomains]

/-- it looks up the place before the first customer -/
theorem lastName_inexact : ¬ ∀ draws db nodeId c, WorkloadReaches draws db → nodeId ∈ intRange 1 numNodes →
    WorkloadCall nodeId c → c.RowsExact db := by
  intro hall
  have hexact := hall .plain (TPCCDataGenerator.fillTables .plain 1280) 1 (granted (tpccWorkloadLoop 1 (.least 46)))
    .start (mem_intRange.2 (by decide)) (workloadCall_granted _)
  rw [tpccWorkloadLoop_lastName] at hexact
  have hone : (1 : ℤ) ∈ intRange 1 (1280 : ℕ) := mem_intRange.2 (by decide)
  have hone10 : (1 : ℤ) ∈ intRange 1 10 := mem_intRange.2 (by decide)
  exact (lastName_exact_iff (TPCCDataGenerator.rowsKeyed_fillTables .plain 1280) hone hone10 hone hone10 rfl
    tpccObject).1 hexact ⟨rfl, rfl, rfl⟩

end Tpcc

end HawkTxn
