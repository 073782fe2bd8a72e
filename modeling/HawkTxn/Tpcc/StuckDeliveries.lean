/-
Which orders are ever delivered (`tpcc_transaction.cpp`, `tpcc_data_generator.cpp`).

The generated new orders of a district are those from 2101 on, and those a New-Order appends have greater numbers.
Nothing takes a row away from the table. So order 2101 stays the oldest of its district for good: every Delivery finds
it again, adds up the same lines and charges the same customer, and no other order is ever delivered.

Results:
- `execute_grown`: a New-Order only appends, with numbers from 3001 on;
- `oldestNewOrder_stuck`, `findOrder_stuck`, `lineTotal_stuck`: what a Delivery finds in a table that has grown so;
- `delivered_of_reaches`: what every Delivery delivers in every run, whatever the calls return;
- `customers_of_reaches`: the balance of every customer in every run.
-/
import HawkTxn.Tpcc.Books
import HawkTxn.Tpcc.GeneratedData

namespace HawkTxn

open HawkTxn.Core

namespace Tpcc

open TPCCDatabase TPCCDeliveryTransaction TPCCDataGenerator

/-! ## Tables that grow -/

/-- a new order that was appended, with its district in the database -/
def NewOrder.Later (n : ℕ) (no : NewOrder) : Prop :=
  3000 < no.no_o_id ∧ (no.no_d_id ∈ intRange 1 10 → no.no_w_id ∈ intRange 1 n)

/-- orders, new orders and lines have only been appended, with numbers from 3001 on -/
structure Grown (n : ℕ) (db₀ db : TPCCDatabase) : Prop where
  sized : db.districts.length = n * 10
  numbers : ∀ (j : ℕ) (row : District), db.districts[j]? = some row → 3000 < row.d_next_o_id
  new_orders : GrownBy (NewOrder.Later n) db₀.new_orders db.new_orders
  orders : GrownBy (fun o => 3000 < o.1.2.2) (db₀.orders.map orderColumns) (db.orders.map orderColumns)
  order_lines : GrownBy (fun ol => 3000 < ol.1.2.2) (db₀.order_lines.map lineColumns) (db.order_lines.map lineColumns)

variable {db₀ db db' : TPCCDatabase} {out : Outside} {n : ℕ} {draws : Draws} {c : Call} {w d : ℤ}

theorem Grown.of_rows (h : Grown n db₀ db) (hdistricts : db'.districts = db.districts)
    (hnew : db'.new_orders = db.new_orders) (horders : db'.orders.map orderColumns = db.orders.map orderColumns)
    (hlines : db'.order_lines.map lineColumns = db.order_lines.map lineColumns) : Grown n db₀ db' where
  sized := hdistricts ▸ h.sized
  numbers := hdistricts ▸ h.numbers
  new_orders := h.new_orders.of_eq hnew
  orders := h.orders.of_eq horders
  order_lines := h.order_lines.of_eq hlines

theorem Grown.set_district {j : ℕ} {row new : District} (h : Grown n db₀ db) (hrow : db.districts[j]? = some row)
    (hle : row.d_next_o_id ≤ new.d_next_o_id) : Grown n db₀ { db with districts := db.districts.set j new } where
  sized := List.length_set.trans h.sized
  numbers := by
    intro j' row' hrow'
    rw [List.getElem?_set] at hrow'
    split_ifs at hrow'
    · obtain rfl : new = row' := Option.some.inj hrow'
      exact (h.numbers j row hrow).trans_le hle
    · exact h.numbers j' row' hrow'
  new_orders := h.new_orders
  orders := h.orders
  order_lines := h.order_lines

namespace TPCCNewOrderTransaction

theorem orderItem_grown (tx : TPCCNewOrderTransaction) {o_id : ℤ} (ho_id : 3000 < o_id) (total_order_amount : ℚ)
    (item : (ℤ × ℤ) × ℕ) :
    Triple (On (Grown n db₀)) (tx.orderItem .plain out o_id total_order_amount item) (fun _ => On (Grown n db₀))
      (On (Grown n db₀)) := by
  unfold orderItem
  refine Triple.bind (acquire_on fun _ h => h) fun _ => ?_
  refine Triple.bind (acquire_on fun _ h => h) fun _ => ?_
  refine Triple.bind (updateRow_on (G := fun _ => Grown n db₀) ?_) fun stock => ?_
  · exact fun db row h _ _ => h.of_rows rfl rfl rfl rfl
  refine Triple.bind (acquire_on fun _ h => h) fun _ => ?_
  refine Triple.bind (write_on (G := Grown n db₀) ?_) fun _ => Triple.pure fun _ hs => hs
  intro db h
  refine ⟨h.sized, h.numbers, h.new_orders, h.orders, ?_⟩
  rw [List.map_append]
  exact h.order_lines.concat ho_id

/-- the number taken is the district's next, and the district is one of the database -/
theorem execute_grown (tx : TPCCNewOrderTransaction) :
    Triple (On (Grown n db₀)) (tx.execute out) (fun _ => On (Grown n db₀)) (On (Grown n db₀)) := by
  unfold execute executeWith
  refine Triple.bind (acquire_on fun _ h => h) fun _ => ?_
  refine Triple.bind (acquire_on fun _ h => h) fun _ => ?_
  rw [RowAccess.plain_updateDistrict]
  refine Triple.bind (updateRow_on (G := fun district db => Grown n db₀ db ∧
    (⟨district.d_next_o_id, tx.d_id, tx.w_id⟩ : NewOrder).Later n) ?_) fun district => ?_
  · intro db row h hpos hrow
    refine ⟨h.set_district hrow (Int.le_add_one le_rfl), h.numbers _ row hrow, ?_⟩
    intro hd_id
    have hlt := (List.getElem?_eq_some_iff.1 hrow).1
    rw [h.sized] at hlt
    rw [mem_intRange] at hd_id ⊢
    unfold districtPosition at hpos hlt
    dsimp only at hd_id ⊢
    omega
  refine Triple.of_fact (φ := (⟨district.d_next_o_id, tx.d_id, tx.w_id⟩ : NewOrder).Later n)
    (fun _ hs => hs.2) fun hlater => Triple.pre (P := On (Grown n db₀)) ?_ fun _ hs => hs.1
  refine Triple.bind (acquire_on fun _ h => h) fun _ => ?_
  refine Triple.bind getCurrentTimestamp_on fun o_entry_d => ?_
  refine Triple.bind (acquire_on fun _ h => h) fun _ => ?_
  refine Triple.bind (acquire_on fun _ h => h) fun _ => ?_
  refine Triple.bind (write_on (G := Grown n db₀) ?_) fun _ => ?_
  · intro db h
    refine ⟨h.sized, h.numbers, h.new_orders, ?_, h.order_lines⟩
    rw [List.map_append]
    exact h.orders.concat hlater.1
  refine Triple.bind (write_on (G := Grown n db₀) ?_) fun _ => ?_
  · exact fun db h => ⟨h.sized, h.numbers, h.new_orders.concat hlater, h.orders, h.order_lines⟩
  refine Triple.bind (Triple.foldlM (I := fun _ _ => On (Grown n db₀))
    fun _ item _ total_order_amount _ => ?_) fun total_order_amount => ?_
  · exact tx.orderItem_grown hlater.1 total_order_amount item
  rw [RowAccess.plain_updateWarehouse]
  refine Triple.bind (updateRow_on (G := fun _ => Grown n db₀) ?_) fun _ => releaseAllLocks_on
  exact fun db row h _ _ => h.of_rows rfl rfl rfl rfl

end TPCCNewOrderTransaction

theorem keptByPayment_grown : KeptByPayment (Grown n db₀) where
  warehouse _ _ _ _ h _ _ := h.of_rows rfl rfl rfl rfl
  district _ _ _ _ h _ hrow := h.set_district hrow le_rfl
  customer _ _ _ _ _ _ h _ _ := h.of_rows rfl rfl rfl rfl
  history _ _ h := h.of_rows rfl rfl rfl rfl

theorem keptByDelivery_grown : KeptByDelivery (Grown n db₀) where
  carrier _ _ _ _ h hrow := h.of_rows rfl rfl (map_set_of_key hrow rfl) rfl
  date _ _ _ _ h hrow := h.of_rows rfl rfl rfl (map_set_of_key hrow rfl)
  customers _ _ h _ := h.of_rows rfl rfl rfl rfl

theorem callStep_grown (h : Grown n db₀ db) (hst : callStep db c = some db') : Grown n db₀ db' := by
  refine callStep_kept ?_ hst h
  cases c.tx with
  | newOrder tx => exact tx.execute_grown
  | payment tx => exact tx.execute_keeps keptByPayment_grown
  | orderStatus tx => exact tx.execute_keeps
  | delivery tx => exact TPCCDeliveryTransaction.execute_keeps keptByDelivery_grown tx
  | stockLevel tx => exact tx.execute_keeps

theorem grown_fillTables (draws : Draws) (n : ℕ) : Grown n (fillTables draws n) (fillTables draws n) where
  sized := (sized_fillTables draws n).districts
  numbers := by
    intro j row hrow
    have hlen := (List.getElem?_eq_some_iff.1 hrow).1
    rw [(sized_fillTables draws n).districts] at hlen
    obtain ⟨w, hw, d, hd, hpos⟩ := exists_districtPosition hlen
    obtain ⟨hw1, hwn⟩ := mem_intRange.1 hw
    obtain rfl : (⟨d, w, 30000, 3001⟩ : District) = row :=
      Option.some.inj ((getDistrict_fillTables draws hw1 hwn hd).symm.trans (rowAt_natCast hpos hrow))
    exact Int.lt_succ 3000
  new_orders := .refl _ _
  orders := .refl _ _
  order_lines := .refl _ _

theorem grown_of_reaches (h : Reaches callStep (fillTables draws n) db) : Grown n (fillTables draws n) db :=
  h.invariant (grown_fillTables draws n) fun _ _ _ hs _ hst => callStep_grown hs hst

/-! ## What a Delivery finds -/

/-- a Delivery looks for the least number -/
theorem TPCCDeliveryTransaction.oldestNewOrder_eq_argmin (tx : TPCCDeliveryTransaction) (db : TPCCDatabase) (d_id : ℤ) :
    tx.oldestNewOrder db d_id = (db.districtNewOrders d_id tx.w_id).argmin NewOrder.no_o_id := by
  rw [oldestNewOrder, districtNewOrders, List.argmin, List.foldl_filter]
  congr 1
  funext oldest no
  cases oldest <;> simp [List.argAux]

/-- the first of the generated new orders of a district -/
def stuckOrder (w_id d_id : ℤ) : NewOrder := ⟨2101, d_id, w_id⟩

theorem mem_districtNewOrders_fillTables {no : NewOrder} (hw : w ∈ intRange 1 n) (hd : d ∈ intRange 1 10) :
    no ∈ (fillTables draws n).districtNewOrders d w ↔
      no.no_w_id = w ∧ no.no_d_id = d ∧ 2101 ≤ no.no_o_id ∧ no.no_o_id ≤ 3000 := by
  rw [districtNewOrders_fillTables hw hd, List.mem_flatMap]
  refine ⟨?_, ?_⟩
  · intro h
    obtain ⟨o, ho, hno⟩ := h
    obtain ⟨-, ho3000⟩ := mem_intRange.1 ho
    unfold newOrders at hno
    split_ifs at hno with hle
    · exact absurd hno List.not_mem_nil
    · rw [List.mem_singleton.1 hno]
      exact ⟨rfl, rfl, Int.add_one_le_of_lt (not_le.1 hle), ho3000⟩
  · intro h
    obtain ⟨rfl, rfl, hlow, hhigh⟩ := h
    refine ⟨no.no_o_id, mem_intRange.2 ⟨by omega, hhigh⟩, ?_⟩
    rw [newOrders, if_neg (by omega)]
    exact List.mem_singleton_self no

theorem stuckOrder_mem (draws : Draws) (hw : w ∈ intRange 1 n) (hd : d ∈ intRange 1 10) :
    stuckOrder w d ∈ (fillTables draws n).new_orders := by
  have hmem : stuckOrder w d ∈ (fillTables draws n).districtNewOrders d w :=
    (mem_districtNewOrders_fillTables hw hd).2 ⟨rfl, rfl, le_rfl, by norm_num [stuckOrder]⟩
  exact (List.mem_filter.1 hmem).1

/-- the shuffled ids are those of the customers -/
theorem c_ids_getD_mem (draws : Draws) (w d : ℤ) {k : ℕ} (hk : k < 3000) :
    (draws.c_ids w d).getD k 0 ∈ intRange 1 3000 := by
  have hlt : k < (draws.c_ids w d).length := by
    rw [(draws.c_ids_perm w d).length_eq, length_intRange]
    exact hk
  rw [List.getD_eq_getElem?_getD, List.getElem?_eq_getElem hlt]
  exact (draws.c_ids_perm w d).mem_iff.1 (List.getElem_mem hlt)

/-- the columns of a generated order -/
theorem orderColumns_fillTables {order : Order} (horder : order ∈ (fillTables draws n).orders) :
    orderColumns order = (order.key, (draws.c_ids order.o_w_id order.o_d_id).getD (order.o_id - 1).toNat 0) := by
  rw [orders_fillTables] at horder
  obtain ⟨w, -, horder⟩ := List.mem_flatMap.1 horder
  obtain ⟨d, -, horder⟩ := List.mem_flatMap.1 horder
  obtain ⟨o, -, rfl⟩ := List.mem_map.1 horder
  rfl

section Stuck

variable (h : Grown n (fillTables draws n) db)

include h

/-- **The oldest new order.** -/
theorem oldestNewOrder_stuck (tx : TPCCDeliveryTransaction) (hw : tx.w_id ∈ intRange 1 n) (hd : d ∈ intRange 1 10) :
    tx.oldestNewOrder db d = some (stuckOrder tx.w_id d) := by
  have hkeyed : ∀ no, no ∈ db.districtNewOrders d tx.w_id ↔
      no ∈ db.new_orders ∧ no.no_w_id = tx.w_id ∧ no.no_d_id = d := by
    intro no
    rw [districtNewOrders, List.mem_filter, decide_eq_true_iff]
  have hstuck : stuckOrder tx.w_id d ∈ db.districtNewOrders d tx.w_id :=
    (hkeyed _).2 ⟨h.new_orders.mem_old (stuckOrder_mem draws hw hd), rfl, rfl⟩
  have hleast : ∀ no ∈ db.districtNewOrders d tx.w_id, 2101 ≤ no.no_o_id := by
    intro no hno
    obtain ⟨hmem, hw', hd'⟩ := (hkeyed no).1 hno
    rcases h.new_orders.mem_cases hmem with hold | hlater
    · have hgenerated : no ∈ (fillTables draws n).districtNewOrders d tx.w_id :=
        List.mem_filter.2 ⟨hold, decide_eq_true ⟨hw', hd'⟩⟩
      exact ((mem_districtNewOrders_fillTables hw hd).1 hgenerated).2.2.1
    · exact le_of_lt (lt_trans (by decide) hlater.1)
  rw [TPCCDeliveryTransaction.oldestNewOrder_eq_argmin]
  cases hmin : (db.districtNewOrders d tx.w_id).argmin NewOrder.no_o_id with
  | none => exact absurd hstuck (List.argmin_eq_none.1 hmin ▸ List.not_mem_nil)
  | some no =>
    have hno := List.argmin_mem hmin
    obtain ⟨-, hw', hd'⟩ := (hkeyed no).1 hno
    have hnumber : no.no_o_id = 2101 := le_antisymm (List.le_of_mem_argmin hstuck hmin) (hleast no hno)
    obtain ⟨o_id, d_id, w_id⟩ := no
    simp only at hw' hd' hnumber
    rw [hw', hd', hnumber]
    rfl

/-- in a warehouse that is not there, there is nothing to deliver -/
theorem oldestNewOrder_elsewhere (tx : TPCCDeliveryTransaction) (hw : tx.w_id ∉ intRange 1 n)
    (hd : d ∈ intRange 1 10) : tx.oldestNewOrder db d = none := by
  rw [TPCCDeliveryTransaction.oldestNewOrder_eq_argmin, List.argmin_eq_none, districtNewOrders, List.filter_eq_nil_iff]
  intro no hmem hkey
  obtain ⟨hw', hd'⟩ := of_decide_eq_true hkey
  rcases h.new_orders.mem_cases hmem with hold | hlater
  · rw [new_orders_fillTables] at hold
    obtain ⟨w', hmem', hold⟩ := List.mem_flatMap.1 hold
    obtain ⟨d', -, hold⟩ := List.mem_flatMap.1 hold
    obtain ⟨o', -, hold⟩ := List.mem_flatMap.1 hold
    have heq : no.no_w_id = w' := congrArg (fun k => k.1) (eq_of_mem_newOrders_keys (List.mem_map_of_mem hold))
    exact hw (hw' ▸ heq.symm ▸ hmem')
  · exact hw (hw' ▸ hlater.2 (hd'.symm ▸ hd))

/-- the customer of the order, from the shuffled ids -/
theorem findOrder_stuck (hw : w ∈ intRange 1 n) (hd : d ∈ intRange 1 10) :
    ∃ o, findOrder db (stuckOrder w d) = some o ∧
      orderColumns o.1 = ((w, d, 2101), (draws.c_ids w d).getD 2100 0) := by
  obtain ⟨o, ho⟩ := Option.isSome_iff_exists.1
    (findOrder_isSome (orderKeys_fillTables draws n) (stuckOrder_mem draws hw hd))
  have hcolumns : orderColumns o.1 = ((w, d, 2101), (draws.c_ids w d).getD 2100 0) := by
    obtain ⟨hrow, ho_id, hd_id, hw_id⟩ := findOrder_spec ho
    rw [orderColumns_fillTables (List.mem_of_getElem? hrow), Order.key, ho_id, hd_id, hw_id]
    rfl
  have hfound : (db.orders.map orderColumns).zipIdx.find? (fun o => o.1.1 = (stuckOrder w d).key) =
      some (orderColumns o.1, o.2) := by
    refine h.orders.find?_zipIdx ?_
    rw [← findOrder_columns, ho]
    rfl
  rw [← findOrder_columns] at hfound
  obtain ⟨o', ho', heq⟩ := Option.map_eq_some_iff.1 hfound
  exact ⟨o', ho', (congrArg Prod.fst heq).trans hcolumns⟩

theorem lineTotal_stuck : lineTotal (stuckOrder w d) db.order_lines =
    lineTotal (stuckOrder w d) (fillTables draws n).order_lines := by
  have hcolumns : ∀ order_lines : List OrderLine, lineTotal (stuckOrder w d) order_lines =
      total Prod.fst Prod.snd (order_lines.map lineColumns) (stuckOrder w d).key := fun order_lines =>
    congrFun (total_columns OrderLine.orderKey OrderLine.ol_amount order_lines) _
  rw [hcolumns, hcolumns]
  refine h.order_lines.total_eq ?_
  intro ol hlater heq
  rw [heq] at hlater
  exact absurd hlater (by norm_num [stuckOrder, NewOrder.key])

end Stuck

/-- **Every Delivery delivers the same orders.** After every sequence of calls on the generated data, whatever the lock
outcomes, the orders a Delivery delivers are those with number 2101 of the ten districts of its warehouse, and none if
there is no such warehouse. -/
theorem delivered_of_reaches (h : Reaches callStep (fillTables draws n) db) (tx : TPCCDeliveryTransaction) :
    tx.delivered db = if tx.w_id ∈ intRange 1 n then (intRange 1 10).map (stuckOrder tx.w_id) else [] := by
  have hgrown := grown_of_reaches h
  have hkeys := orderKeys_of_reaches h
  split_ifs with hw
  · have hfind : (intRange 1 10).filterMap (tx.oldestNewOrder db) = (intRange 1 10).map (stuckOrder tx.w_id) := by
      rw [← List.filterMap_eq_map]
      exact List.filterMap_congr fun d hd => oldestNewOrder_stuck hgrown tx hw hd
    rw [TPCCDeliveryTransaction.delivered, hfind, List.filter_eq_self]
    intro no hno
    obtain ⟨d, hd, rfl⟩ := List.mem_map.1 hno
    exact findOrder_isSome hkeys (hgrown.new_orders.mem_old (stuckOrder_mem draws hw hd))
  · have hnone : (intRange 1 10).filterMap (tx.oldestNewOrder db) = [] := by
      rw [List.filterMap_eq_nil_iff]
      exact fun d hd => oldestNewOrder_elsewhere hgrown tx hw hd
    rw [TPCCDeliveryTransaction.delivered, hnone]
    rfl

theorem delivered_of_reaches_deliverAll : ∃ db,
    callStep (fillTables .plain 1) deliverAll = some db ∧
    (⟨1, 1⟩ : TPCCDeliveryTransaction).delivered db =
      if (1 : ℤ) ∈ intRange 1 (1 : ℕ) then (intRange 1 10).map (stuckOrder 1) else [] := by
  obtain ⟨-, db, hst, -⟩ := deliverAll_step (chargeable_fillTables .plain 1)
  exact ⟨db, hst, delivered_of_reaches (.next .start trivial hst) ⟨1, 1⟩⟩

/-! ## Customers -/

/-- what a customer owes and has paid, for so many deliveries of the one order -/
structure Account (draws : Draws) (n : ℕ) (w d c : ℤ) (row : Customer) : Prop where
  deliveries : 0 ≤ row.c_delivery_cnt
  balance : row.c_balance + row.c_ytd_payment =
    row.c_delivery_cnt * lineTotal (stuckOrder w d) (fillTables draws n).order_lines
  customer : row.c_delivery_cnt ≠ 0 → (draws.c_ids w d).getD 2100 0 = c

/-- the accounts of all customers -/
def Accounts (draws : Draws) (n : ℕ) (customers : List Customer) : Prop :=
  ∀ w ∈ intRange 1 n, ∀ d ∈ intRange 1 10, ∀ c ∈ intRange 1 3000, ∀ row,
    rowAt customers (customerPosition c d w) = some row → Account draws n w d c row

/-- a row is written in a way that keeps the account of whose row it is -/
theorem Accounts.set {customers : List Customer} {i : ℤ} {row new : Customer} (h : Accounts draws n customers)
    (hi : 0 ≤ i) (hrow : customers[i.toNat]? = some row) (hnew : ∀ w ∈ intRange 1 n, ∀ d ∈ intRange 1 10,
      ∀ c ∈ intRange 1 3000, customerPosition c d w = i → Account draws n w d c row → Account draws n w d c new) :
    Accounts draws n (customers.set i.toNat new) := by
  intro w hw d hd c hc row' hrow'
  rw [rowAt_set hi (List.getElem?_eq_some_iff.1 hrow).1] at hrow'
  split_ifs at hrow' with hpos
  · obtain rfl : new = row' := Option.some.inj hrow'
    exact hnew w hw d hd c hc hpos (h w hw d hd c hc row (hpos ▸ rowAt_eq_some.2 ⟨hi, hrow⟩))
  · exact h w hw d hd c hc row' hrow'

/-- a payment goes from the balance to the payments -/
theorem Account.pay {c : ℤ} {row : Customer} (h : Account draws n w d c row) (h_amount : ℚ) :
    Account draws n w d c { row with
      c_balance := row.c_balance - h_amount
      c_ytd_payment := row.c_ytd_payment + h_amount
      c_payment_cnt := row.c_payment_cnt + 1 } where
  deliveries := h.deliveries
  balance := calc
    row.c_balance - h_amount + (row.c_ytd_payment + h_amount) = row.c_balance + row.c_ytd_payment := by ring
    _ = _ := h.balance
  customer := h.customer

/-- one more delivery -/
theorem Account.charge {c : ℤ} {row : Customer} (h : Account draws n w d c row)
    (hc : (draws.c_ids w d).getD 2100 0 = c) : Account draws n w d c
      (row.charged (lineTotal (stuckOrder w d) (fillTables draws n).order_lines)) where
  deliveries := by
    have hdeliveries := h.deliveries
    simp only [Customer.charged]
    omega
  balance := by
    have hbalance := h.balance
    simp only [Customer.charged]
    push_cast
    linarith
  customer _ := hc

theorem TPCCNewOrderTransaction.execute_customers {P : List Customer → Prop} (tx : TPCCNewOrderTransaction) :
    Triple (On fun db => P db.customers) (tx.execute out) (fun _ => On fun db => P db.customers)
      (On fun db => P db.customers) := by
  unfold execute executeWith
  refine Triple.bind (acquire_on fun _ h => h) fun _ => ?_
  refine Triple.bind (acquire_on fun _ h => h) fun _ => ?_
  rw [RowAccess.plain_updateDistrict]
  refine Triple.bind (updateRow_on (G := fun _ db => P db.customers) fun _ _ h _ _ => h) fun district => ?_
  refine Triple.bind (acquire_on fun _ h => h) fun _ => ?_
  refine Triple.bind getCurrentTimestamp_on fun o_entry_d => ?_
  refine Triple.bind (acquire_on fun _ h => h) fun _ => ?_
  refine Triple.bind (acquire_on fun _ h => h) fun _ => ?_
  refine Triple.bind (write_on (G := fun db => P db.customers) fun _ h => h) fun _ => ?_
  refine Triple.bind (write_on (G := fun db => P db.customers) fun _ h => h) fun _ => ?_
  refine Triple.bind (Triple.foldlM (I := fun _ _ => On fun db => P db.customers)
    fun _ item _ total_order_amount _ => ?_) fun total_order_amount => ?_
  · unfold orderItem
    refine Triple.bind (acquire_on fun _ h => h) fun _ => ?_
    refine Triple.bind (acquire_on fun _ h => h) fun _ => ?_
    refine Triple.bind (updateRow_on (G := fun _ db => P db.customers) fun _ _ h _ _ => h) fun stock => ?_
    refine Triple.bind (acquire_on fun _ h => h) fun _ => ?_
    exact Triple.bind (write_on (G := fun db => P db.customers) fun _ h => h) fun _ => Triple.pure fun _ hs => hs
  rw [RowAccess.plain_updateWarehouse]
  exact Triple.bind (updateRow_on (G := fun _ db => P db.customers) fun _ _ h _ _ => h) fun _ => releaseAllLocks_on

/-- what a run keeps of the accounts -/
structure Billed (draws : Draws) (n : ℕ) (db : TPCCDatabase) : Prop where
  grown : Grown n (fillTables draws n) db
  accounts : Accounts draws n db.customers

theorem keptByPosts_billed : KeptByPosts (Billed draws n) where
  warehouse db i row w_ytd h hi hrow := ⟨keptByPayment_grown.warehouse db i row w_ytd h.grown hi hrow, h.accounts⟩
  district db i row d_ytd h hi hrow := ⟨keptByPayment_grown.district db i row d_ytd h.grown hi hrow, h.accounts⟩
  customer db i row h_amount h hi hrow := ⟨keptByPayment_grown.customer db i row _ _ _ h.grown hi hrow,
    h.accounts.set hi hrow fun _ _ _ _ _ _ _ haccount => haccount.pay h_amount⟩
  history db history h := ⟨keptByPayment_grown.history db history h.grown, h.accounts⟩

/-- only the customer of order 2101 is ever charged -/
theorem keptByCharges_billed : KeptByCharges (Billed draws n) where
  carrier db i order o_carrier_id h hrow :=
    ⟨keptByDelivery_grown.carrier db i order o_carrier_id h.grown hrow, h.accounts⟩
  date db i ol ol_delivery_d h hrow := ⟨keptByDelivery_grown.date db i ol ol_delivery_d h.grown hrow, h.accounts⟩
  charge db tx d_id no order row h hd_id hold hfind hpos hrow := by
    refine ⟨keptByDelivery_grown.customers db _ h.grown List.length_set, h.accounts.set hpos hrow ?_⟩
    have hw_id : tx.w_id ∈ intRange 1 n := by
      by_contra hw
      rw [oldestNewOrder_elsewhere h.grown tx hw hd_id] at hold
      cases hold
    obtain rfl : stuckOrder tx.w_id d_id = no :=
      Option.some.inj ((oldestNewOrder_stuck h.grown tx hw_id hd_id).symm.trans hold)
    obtain ⟨o, ho, hcolumns⟩ := findOrder_stuck h.grown hw_id hd_id
    obtain rfl : order = o := Option.some.inj (hfind.symm.trans ho)
    have hplace : order.1.customerPlace = customerPosition ((draws.c_ids tx.w_id d_id).getD 2100 0) d_id tx.w_id := by
      have hw : order.1.o_w_id = tx.w_id := congrArg (fun k => k.1.1) hcolumns
      have hd : order.1.o_d_id = d_id := congrArg (fun k => k.1.2.1) hcolumns
      have hc : order.1.o_c_id = (draws.c_ids tx.w_id d_id).getD 2100 0 := congrArg (fun k => k.2) hcolumns
      rw [Order.customerPlace, hw, hd, hc]
    intro w hw d hd c hc hsame haccount
    obtain ⟨rfl, rfl, rfl⟩ := customerPosition_inj (mem_intRange.1 hc)
      (mem_intRange.1 (c_ids_getD_mem draws tx.w_id d_id (by decide))) (mem_intRange.1 hd) (mem_intRange.1 hd_id)
      (hsame.trans hplace)
    rw [lineTotal_stuck h.grown]
    exact haccount.charge rfl

theorem TPCCNewOrderTransaction.execute_billed (tx : TPCCNewOrderTransaction) :
    Triple (On (Billed draws n)) (tx.execute out) (fun _ => On (Billed draws n)) (On (Billed draws n)) := by
  have hgrown : Triple (On (Grown n (fillTables draws n))) (tx.execute out)
    (fun _ => On (Grown n (fillTables draws n))) (On (Grown n (fillTables draws n))) := tx.execute_grown
  have hcustomers : Triple (On fun db => Accounts draws n db.customers) (tx.execute out)
    (fun _ => On fun db => Accounts draws n db.customers) (On fun db => Accounts draws n db.customers) :=
    tx.execute_customers
  refine (hgrown.and hcustomers).weaken ?_ ?_ ?_
  · exact fun s hs => ⟨hs.grown, hs.accounts⟩
  · exact fun _ s hs => ⟨hs.1, hs.2⟩
  · exact fun s hs => ⟨hs.1, hs.2⟩

theorem callStep_billed (h : Billed draws n db) (hst : callStep db c = some db') : Billed draws n db' := by
  refine callStep_kept ?_ hst h
  cases c.tx with
  | newOrder tx => exact tx.execute_billed
  | payment tx => exact tx.execute_posts keptByPosts_billed
  | orderStatus tx => exact tx.execute_keeps
  | delivery tx => exact TPCCDeliveryTransaction.execute_charges keptByCharges_billed tx
  | stockLevel tx => exact tx.execute_keeps

theorem billed_fillTables (draws : Draws) (n : ℕ) : Billed draws n (fillTables draws n) where
  grown := grown_fillTables draws n
  accounts := by
    intro w hw d hd c hc row hrow
    obtain rfl : newCustomer w d c = row := Option.some.inj ((getCustomer_fillTables draws hw hd hc).symm.trans hrow)
    exact ⟨le_rfl, by norm_num [newCustomer], fun hne => absurd rfl hne⟩

/-- **Customers in every run.** After every sequence of calls on the generated data, whatever the lock outcomes, what a
customer owes and has paid comes to the number of deliveries times the lines of order 2101 of the district, as
generated; and only the customer of that order has had a delivery. -/
theorem customers_of_reaches {w_id d_id c_id : ℤ} (h : Reaches callStep (fillTables draws n) db)
    (hw_id : w_id ∈ intRange 1 n) (hd_id : d_id ∈ intRange 1 10) (hc_id : c_id ∈ intRange 1 3000) :
    ∃ row, db.getCustomer c_id d_id w_id = some row ∧ Account draws n w_id d_id c_id row := by
  have hinv : Sized n db ∧ Billed draws n db :=
    h.invariant (P := fun db => Sized n db ∧ Billed draws n db) ⟨sized_fillTables draws n, billed_fillTables draws n⟩
      fun _ _ _ hs _ hst => ⟨callStep_sized hs.1 hst, callStep_billed hs.2 hst⟩
  obtain ⟨hsized, hbilled⟩ := hinv
  have hpos : 0 ≤ customerPosition c_id d_id w_id ∧ customerPosition c_id d_id w_id < db.customers.length := by
    obtain ⟨hw1, hwn⟩ := mem_intRange.1 hw_id
    obtain ⟨hd1, hd10⟩ := mem_intRange.1 hd_id
    obtain ⟨hc1, hc3000⟩ := mem_intRange.1 hc_id
    rw [hsized.customers]
    unfold customerPosition
    omega
  obtain ⟨row, hrow⟩ := rowAt_isSome hpos.1 hpos.2
  exact ⟨row, hrow, hbilled.accounts w_id hw_id d_id hd_id c_id hc_id row hrow⟩

theorem customers_of_reaches_deliverAll : ∃ db,
    callStep (fillTables .plain 1) deliverAll = some db ∧
    ∃ row, db.getCustomer 2101 1 1 = some row ∧ Account .plain 1 1 1 2101 row := by
  obtain ⟨-, db, hst, -⟩ := deliverAll_step (chargeable_fillTables .plain 1)
  exact ⟨db, hst, customers_of_reaches (.next .start trivial hst) (by simp) (by simp) (by simp)⟩

end Tpcc

end HawkTxn
