/-
What a Payment and a Delivery keep (`tpcc_transaction.cpp`).

The rules of this module speak of the database alone: `On F` holds of a session whose database satisfies F, and every
write of a transaction keeps what the next one needs.

A Payment takes its amount from the balance and adds it to the payments. A Delivery finds the oldest new order of a
district and its order, dates the lines one at a time while it adds them up, and charges the sum to a customer. By the
time of the charge the carrier and the dates have been written, but the new order that was found is still the oldest,
its order is still found, and the sum is what its lines cost now. So what a Delivery keeps can be read off the tables
just before the charge.

Results:
- `TPCCPaymentTransaction.execute_posts`: what a Payment keeps, returning or stopping, from what its writes keep;
- `deliverLine_charges`: the loop over the lines keeps up with the sum;
- `TPCCDeliveryTransaction.execute_along`: an invariant that follows a Delivery through the districts;
- `TPCCDeliveryTransaction.execute_charges`: what a Delivery keeps, returning or stopping.
-/
import HawkTxn.Core.Ledgers
import HawkTxn.Tpcc.LockCoverage

namespace HawkTxn

open HawkTxn.Core Program

namespace Tpcc

open TPCCDeliveryTransaction

/-! ## Rules -/

/-- the database satisfies F -/
def On (F : TPCCDatabase → Prop) (s : Session) : Prop := F s.db

variable {F G S : TPCCDatabase → Prop} {out : Outside} {r : ResourceId} {m : LockMode} {R : Session → Prop} {α ρ : Type}
  {rows : TPCCDatabase → List ρ} {withRows : TPCCDatabase → List ρ → TPCCDatabase} {i : ℤ} {f : ρ → ρ}

theorem acquire_on (hdenied : ∀ db, F db → S db) :
    Triple (On F) (acquireOrAbort out r m) (fun _ => On F) (On S) :=
  acquireOrAbort_spec (fun _ hs _ => hs) fun s hs _ => hdenied s.db hs

theorem readDb_on {g : TPCCDatabase → Option α} :
    Triple (On F) (readDb g) (fun a => On fun db => F db ∧ g db = some a) R := Triple.fetch

theorem readSome_on {g : TPCCDatabase → α} :
    Triple (On F) (readDb fun db => some (g db)) (fun a => On fun db => F db ∧ g db = a) R :=
  readDb_on.post fun _ _ hs => ⟨hs.1, Option.some.inj hs.2⟩

theorem getCurrentTimestamp_on : Triple (On F) (getCurrentTimestamp out) (fun _ => On F) R :=
  Triple.fetch.post fun _ _ hs => hs.1

theorem write_on {f : TPCCDatabase → TPCCDatabase} (h : ∀ db, F db → G (f db)) :
    Triple (On F) (write f) (fun _ => On G) R := Triple.change fun s hs => h s.db hs

theorem updateRow_on {G : ρ → TPCCDatabase → Prop} (h : ∀ db row, F db → 0 ≤ i → (rows db)[i.toNat]? = some row →
    G row (withRows db ((rows db).set i.toNat (f row)))) :
    Triple (On F) (updateRow rows withRows i f) (fun row => On (G row)) R := by
  unfold updateRow
  refine Triple.bind readDb_on fun row => ?_
  refine Triple.bind (M := fun _ => On (G row)) (write_on ?_) fun _ => Triple.pure fun _ hs => hs
  intro db h
  obtain ⟨hdb, hrow⟩ := h
  obtain ⟨hpos, hrow⟩ := rowAt_eq_some.1 hrow
  exact h db row hdb hpos hrow

theorem releaseAllLocks_on : Triple (On F) releaseAllLocks (fun _ => On F) R := Triple.change fun _ hs => hs

/-! ## Payments -/

/-- F is kept by what a Payment writes besides the customer: year-to-date totals, and a history row -/
structure KeptByTotals (F : TPCCDatabase → Prop) : Prop where
  warehouse : ∀ db (i : ℤ) (row : Warehouse) (w_ytd : ℚ), F db → 0 ≤ i → db.warehouses[i.toNat]? = some row →
    F { db with warehouses := db.warehouses.set i.toNat { row with w_ytd := w_ytd } }
  district : ∀ db (i : ℤ) (row : District) (d_ytd : ℚ), F db → 0 ≤ i → db.districts[i.toNat]? = some row →
    F { db with districts := db.districts.set i.toNat { row with d_ytd := d_ytd } }
  history : ∀ db history, F db → F { db with histories := db.histories ++ [history] }

/-- ... and by what it does to the columns of the customer -/
structure KeptByPosts (F : TPCCDatabase → Prop) : Prop extends KeptByTotals F where
  customer : ∀ db (i : ℤ) (row : Customer) (h_amount : ℚ), F db → 0 ≤ i → db.customers[i.toNat]? = some row →
    F { db with customers := db.customers.set i.toNat { row with
      c_balance := row.c_balance - h_amount
      c_ytd_payment := row.c_ytd_payment + h_amount
      c_payment_cnt := row.c_payment_cnt + 1 } }

/-- ... and by any values of these columns -/
structure KeptByPayment (F : TPCCDatabase → Prop) : Prop extends KeptByTotals F where
  customer : ∀ db (i : ℤ) (row : Customer) (c_balance c_ytd_payment : ℚ) (c_payment_cnt : ℤ), F db → 0 ≤ i →
    db.customers[i.toNat]? = some row →
    F { db with customers := db.customers.set i.toNat { row with
      c_balance := c_balance, c_ytd_payment := c_ytd_payment, c_payment_cnt := c_payment_cnt } }

theorem KeptByPayment.posts (h : KeptByPayment F) : KeptByPosts F where
  toKeptByTotals := h.toKeptByTotals
  customer db i row _ hdb hpos hrow := h.customer db i row _ _ _ hdb hpos hrow

/-- **What a Payment keeps.** -/
theorem TPCCPaymentTransaction.execute_posts (h : KeptByPosts F) (tx : TPCCPaymentTransaction) :
    Triple (On F) (tx.execute out) (fun _ => On F) (On F) := by
  unfold execute executeWith
  refine Triple.bind (acquire_on fun _ hdb => hdb) fun _ => ?_
  rw [RowAccess.plain_updateWarehouse]
  refine Triple.bind (updateRow_on (G := fun _ => F) ?_) fun warehouse => ?_
  · exact fun db row hdb hpos hrow => h.warehouse db _ row _ hdb hpos hrow
  refine Triple.bind (acquire_on fun _ hdb => hdb) fun _ => ?_
  rw [RowAccess.plain_updateDistrict]
  refine Triple.bind (updateRow_on (G := fun _ => F) ?_) fun district => ?_
  · exact fun db row hdb hpos hrow => h.district db _ row _ hdb hpos hrow
  refine Triple.bind (acquire_on fun _ hdb => hdb) fun _ => ?_
  rw [RowAccess.plain_updateCustomer]
  refine Triple.bind (updateRow_on (G := fun _ => F) ?_) fun customer => ?_
  · exact fun db row hdb hpos hrow => h.customer db _ row tx.h_amount hdb hpos hrow
  refine Triple.bind getCurrentTimestamp_on fun h_date => ?_
  refine Triple.bind (acquire_on fun _ hdb => hdb) fun _ => ?_
  exact Triple.bind (write_on fun db hdb => h.history db _ hdb) fun _ => releaseAllLocks_on

theorem TPCCPaymentTransaction.execute_keeps (h : KeptByPayment F) (tx : TPCCPaymentTransaction) :
    Triple (On F) (tx.execute out) (fun _ => On F) (On F) := tx.execute_posts h.posts

/-! ## Deliveries -/

/-- warehouse, district and number -/
def Order.key (order : Order) : ℤ × ℤ × ℤ := (order.o_w_id, order.o_d_id, order.o_id)

def NewOrder.key (no : NewOrder) : ℤ × ℤ × ℤ := (no.no_w_id, no.no_d_id, no.no_o_id)

/-- the key of the order the line is of -/
def OrderLine.orderKey (ol : OrderLine) : ℤ × ℤ × ℤ := (ol.ol_w_id, ol.ol_d_id, ol.ol_o_id)

/-- an update in a row that keeps the key -/
theorem map_set_of_key {ρ κ : Type} {f : ρ → κ} {rows : List ρ} {i : ℕ} {row new : ρ} (hrow : rows[i]? = some row)
    (hkey : f new = f row) : (rows.set i new).map f = rows.map f := by
  obtain ⟨hlt, hget⟩ := List.getElem?_eq_some_iff.1 hrow
  have hlt' : i < (rows.map f).length := by rwa [List.length_map]
  have hsame : f row = (rows.map f)[i] := by rw [List.getElem_map, hget]
  rw [List.map_set, hkey, hsame]
  exact List.set_getElem_self hlt'

/-- a customer's row is charged for an order -/
def Customer.charged (row : Customer) (total_amount : ℚ) : Customer :=
  { row with c_balance := row.c_balance + total_amount, c_delivery_cnt := row.c_delivery_cnt + 1 }

/-- the position of an order's customer -/
def Order.customerPlace (order : Order) : ℤ := customerPosition order.o_c_id order.o_d_id order.o_w_id

namespace TPCCDeliveryTransaction

/-- what the lines of an order cost -/
def lineTotal (no : NewOrder) (order_lines : List OrderLine) : ℚ :=
  ((order_lines.filter fun ol => ol.orderKey = no.key).map OrderLine.ol_amount).sum

/-- the columns of an order that a Delivery goes by -/
def orderColumns (order : Order) : (ℤ × ℤ × ℤ) × ℤ := (order.key, order.o_c_id)

/-- the columns of an order line that a Delivery goes by -/
def lineColumns (ol : OrderLine) : (ℤ × ℤ × ℤ) × ℚ := (ol.orderKey, ol.ol_amount)

/-- a Delivery on db₀ has come to these customers -/
structure Charging (db₀ : TPCCDatabase) (customers : List Customer) (db : TPCCDatabase) : Prop where
  new_orders : db.new_orders = db₀.new_orders
  orders : db.orders.map orderColumns = db₀.orders.map orderColumns
  order_lines : db.order_lines.map lineColumns = db₀.order_lines.map lineColumns
  customers : db.customers = customers

end TPCCDeliveryTransaction

/-- F is kept by what a Delivery writes before it charges a customer: a carrier and dates -/
structure KeptByDates (F : TPCCDatabase → Prop) : Prop where
  carrier : ∀ db i order o_carrier_id, F db → db.orders[i]? = some order →
    F { db with orders := db.orders.set i { order with o_carrier_id := o_carrier_id } }
  date : ∀ db i ol ol_delivery_d, F db → db.order_lines[i]? = some ol →
    F { db with order_lines := db.order_lines.set i { ol with ol_delivery_d := ol_delivery_d } }

/-- ... and by a charge for the oldest new order of a district -/
structure KeptByCharges (F : TPCCDatabase → Prop) : Prop extends KeptByDates F where
  charge : ∀ db (tx : TPCCDeliveryTransaction) d_id no (order : Order × ℕ) row, F db → d_id ∈ intRange 1 10 →
    tx.oldestNewOrder db d_id = some no → findOrder db no = some order → 0 ≤ order.1.customerPlace →
    db.customers[order.1.customerPlace.toNat]? = some row →
    F { db with customers := db.customers.set order.1.customerPlace.toNat (row.charged (lineTotal no db.order_lines)) }

/-- ... and by any customers, as many as before -/
structure KeptByDelivery (F : TPCCDatabase → Prop) : Prop extends KeptByDates F where
  customers : ∀ db customers, F db → customers.length = db.customers.length → F { db with customers := customers }

theorem KeptByDelivery.charges (h : KeptByDelivery F) : KeptByCharges F where
  toKeptByDates := h.toKeptByDates
  charge db _ _ _ _ _ hdb _ _ _ _ _ := h.customers db _ hdb List.length_set

namespace TPCCDeliveryTransaction

/-- I holds along the districts a Delivery has been to -/
structure Along (tx : TPCCDeliveryTransaction) (I : List ℤ → TPCCDatabase → Prop) : Prop where
  dates : ∀ done, KeptByDates (I done)
  /-- a district with no new order, or whose oldest new order has no order -/
  idle : ∀ done d_id db, I done db → (tx.oldestNewOrder db d_id).bind (findOrder db) = none → I (done ++ [d_id]) db
  charge : ∀ done db d_id no (order : Order × ℕ) row, I done db → d_id ∈ intRange 1 10 →
    tx.oldestNewOrder db d_id = some no → findOrder db no = some order → 0 ≤ order.1.customerPlace →
    db.customers[order.1.customerPlace.toNat]? = some row →
    I (done ++ [d_id]) { db with
      customers := db.customers.set order.1.customerPlace.toNat (row.charged (lineTotal no db.order_lines)) }

variable {tx : TPCCDeliveryTransaction} {I : List ℤ → TPCCDatabase → Prop} {db db₀ : TPCCDatabase} {no : NewOrder}
  {d_id : ℤ} {j : ℕ} {total_amount : ℚ} {customers : List Customer} {done : List ℤ}

/-- orders with the same columns have their customer at one position -/
theorem customerPlace_of_columns {order order' : Order} (h : orderColumns order = orderColumns order') :
    order.customerPlace = order'.customerPlace := by
  have hw : order.o_w_id = order'.o_w_id := congrArg (fun k => k.1.1) h
  have hd : order.o_d_id = order'.o_d_id := congrArg (fun k => k.1.2.1) h
  have hc : order.o_c_id = order'.o_c_id := congrArg (fun k => k.2) h
  rw [Order.customerPlace, Order.customerPlace, hw, hd, hc]

theorem findOrder_columns : (findOrder db no).map (Prod.map orderColumns id) =
    (db.orders.map orderColumns).zipIdx.find? fun o => o.1.1 = no.key := by
  have hkey : (fun o : Order × ℕ => decide (o.1.o_id = no.no_o_id ∧ o.1.o_d_id = no.no_d_id ∧
      o.1.o_w_id = no.no_w_id)) = fun o => decide (o.1.key = no.key) := by
    funext o
    simp only [Order.key, NewOrder.key, Prod.mk.injEq, decide_eq_decide]
    tauto
  unfold findOrder
  rw [hkey, List.zipIdx_map, List.find?_map]
  rfl

/-- an order that is found has kept its columns -/
theorem Charging.found (h : Charging db₀ customers db) : (findOrder db no).map (Prod.map orderColumns id) =
    (findOrder db₀ no).map (Prod.map orderColumns id) := by
  rw [findOrder_columns, findOrder_columns, h.orders]

theorem Charging.lines_length (h : Charging db₀ customers db) : db.order_lines.length = db₀.order_lines.length := by
  have hlen := congrArg List.length h.order_lines
  rwa [List.length_map, List.length_map] at hlen

theorem Charging.oldestNewOrder (h : Charging db₀ customers db) :
    tx.oldestNewOrder db d_id = tx.oldestNewOrder db₀ d_id := by
  unfold TPCCDeliveryTransaction.oldestNewOrder
  rw [h.new_orders]

theorem Charging.lineTotal (h : Charging db₀ customers db) :
    lineTotal no db.order_lines = lineTotal no db₀.order_lines :=
  congrFun (total_of_columns OrderLine.orderKey OrderLine.ol_amount h.order_lines) no.key

theorem keptByDates_charging : KeptByDates (Charging db₀ customers) where
  carrier _ _ order o_carrier_id h hrow := by
    have hcolumns : orderColumns { order with o_carrier_id := o_carrier_id } = orderColumns order := rfl
    exact ⟨h.new_orders, (map_set_of_key hrow hcolumns).trans h.orders, h.order_lines, h.customers⟩
  date _ _ ol ol_delivery_d h hrow := by
    have hcolumns : lineColumns { ol with ol_delivery_d := ol_delivery_d } = lineColumns ol := rfl
    exact ⟨h.new_orders, h.orders, (map_set_of_key hrow hcolumns).trans h.order_lines, h.customers⟩

theorem lineTotal_take_succ {ol : OrderLine} (h : Charging db₀ customers db) (hol : db.order_lines[j]? = some ol) :
    lineTotal no (db₀.order_lines.take (j + 1)) =
      lineTotal no (db₀.order_lines.take j) + if ol.orderKey = no.key then ol.ol_amount else 0 := by
  have hcolumns : (db₀.order_lines.map lineColumns)[j]? = some (lineColumns ol) := by
    rw [← h.order_lines, List.getElem?_map, hol]
    rfl
  rw [List.getElem?_map] at hcolumns
  obtain ⟨ol₀, hol₀, heq⟩ := Option.map_eq_some_iff.1 hcolumns
  have hkey : ol₀.orderKey = ol.orderKey := congrArg Prod.fst heq
  have hamount : ol₀.ol_amount = ol.ol_amount := congrArg Prod.snd heq
  unfold lineTotal
  rw [List.take_add_one, hol₀, List.filter_append, List.map_append, List.sum_append, ← hkey, ← hamount]
  congr 1
  by_cases hof : ol₀.orderKey = no.key <;> simp [hof]

/-- F still holds, and nothing has been charged since db₀ -/
structure Uncharged (F : TPCCDatabase → Prop) (db₀ db : TPCCDatabase) : Prop where
  holds : F db
  charging : Charging db₀ db₀.customers db

/-- the loop over the lines keeps up with what they cost -/
theorem deliverLine_charges (h : KeptByDates F) :
    Triple (fun s => total_amount = lineTotal no (db₀.order_lines.take j) ∧ On (Uncharged F db₀) s)
      (deliverLine out no total_amount j)
      (fun total_amount s => total_amount = lineTotal no (db₀.order_lines.take (j + 1)) ∧ On (Uncharged F db₀) s)
      (On F) := by
  refine Triple.of_fact (fun _ hs => hs.1) fun htotal => Triple.pre ?_ fun _ hs => hs.2
  have hof : ∀ ol : OrderLine, ol.Of no.no_o_id no.no_d_id no.no_w_id ↔ ol.orderKey = no.key := by
    intro ol
    simp only [OrderLine.Of, OrderLine.orderKey, NewOrder.key, Prod.mk.injEq]
    tauto
  unfold deliverLine
  refine Triple.bind readDb_on fun ol => Triple.ite (fun hyes => ?_) fun hno => ?_
  · refine Triple.bind (acquire_on fun _ hdb => hdb.1.holds) fun _ => ?_
    refine Triple.bind getCurrentTimestamp_on fun ol_delivery_d => ?_
    refine Triple.bind (M := fun _ s => On (Uncharged F db₀) s ∧ lineTotal no (db₀.order_lines.take (j + 1)) =
      total_amount + ol.ol_amount) (Triple.change ?_) fun _ => Triple.pure fun s hs => ⟨hs.2.symm, hs.1⟩
    intro s hs
    obtain ⟨⟨hF, hcharging⟩, hol⟩ := hs
    refine ⟨⟨h.date s.db j ol ol_delivery_d hF hol, keptByDates_charging.date s.db j ol _ hcharging hol⟩, ?_⟩
    rw [lineTotal_take_succ hcharging hol, if_pos ((hof ol).1 hyes), htotal]
  · apply Triple.pure
    intro s hs
    obtain ⟨hs, hol⟩ := hs
    refine ⟨?_, hs⟩
    rw [lineTotal_take_succ hs.charging hol, if_neg (mt (hof ol).2 hno), add_zero, htotal]

/-- the carrier of the order that was found is written -/
theorem deliverOrder_charges (h : KeptByDates F) (order : Option (Order × ℕ)) :
    Triple (On fun db => Uncharged F db₀ db ∧ findOrder db no = order) (tx.deliverOrder order)
      (fun _ => On (Uncharged F db₀)) (On F) := by
  cases order with
  | none => exact Triple.pure fun _ hs => hs.1
  | some order =>
    unfold deliverOrder
    apply write_on
    intro db hdb
    obtain ⟨⟨hF, hcharging⟩, hfind⟩ := hdb
    have hrow := (findOrder_spec hfind).1
    exact ⟨h.carrier db order.2 order.1 _ hF hrow, keptByDates_charging.carrier db order.2 order.1 _ hcharging hrow⟩

/-- the customer is charged for what is the oldest new order all along -/
theorem chargeCustomer_along (h : tx.Along I) (hd_id : d_id ∈ intRange 1 10)
    (hold : tx.oldestNewOrder db₀ d_id = some no) {order : Option (Order × ℕ)}
    (hfound : order.map (Prod.map orderColumns id) = (findOrder db₀ no).map (Prod.map orderColumns id)) :
    Triple (On (Uncharged (I done) db₀)) (chargeCustomer .plain out (lineTotal no db₀.order_lines) order)
      (fun _ => On (I (done ++ [d_id]))) (On (I done)) := by
  cases order with
  | none =>
    apply Triple.pure
    intro s hs
    have hnone : findOrder s.db no = none := by simpa using hs.charging.found.trans hfound.symm
    apply h.idle done d_id s.db hs.holds
    rw [hs.charging.oldestNewOrder, hold, Option.bind_some, hnone]
  | some order =>
    unfold chargeCustomer
    refine Triple.bind (acquire_on fun _ hdb => hdb.holds) fun _ => ?_
    rw [RowAccess.plain_updateCustomer]
    refine Triple.bind (updateRow_on (G := fun _ => I (done ++ [d_id])) ?_) fun _ => Triple.pure fun _ hs => hs
    intro db row hdb hpos hrow
    obtain ⟨hI, hcharging⟩ := hdb
    have hfind := hcharging.found.trans hfound.symm
    obtain ⟨order', horder', heq⟩ := Option.map_eq_some_iff.1 hfind
    have hplace : order'.1.customerPlace = order.1.customerPlace := customerPlace_of_columns (congrArg Prod.fst heq)
    have hcharge := h.charge done db d_id no order' row hI hd_id (hcharging.oldestNewOrder.trans hold)
      horder' (hplace ▸ hpos) (hplace ▸ hrow)
    rw [hplace, hcharging.lineTotal] at hcharge
    exact hcharge

theorem deliver_along (h : tx.Along I) (hd_id : d_id ∈ intRange 1 10)
    (hold : tx.oldestNewOrder db₀ d_id = some no) :
    Triple (On (Uncharged (I done) db₀)) (tx.deliver .plain out no) (fun _ => On (I (done ++ [d_id])))
      (On (I done)) := by
  unfold deliver
  refine Triple.bind (acquire_on fun _ hdb => hdb.holds) fun _ => ?_
  refine Triple.bind (acquire_on fun _ hdb => hdb.holds) fun _ => ?_
  refine Triple.bind readSome_on fun order => ?_
  refine Triple.of_fact (φ := order.map (Prod.map orderColumns id) =
    (findOrder db₀ no).map (Prod.map orderColumns id)) (fun s hs => hs.2 ▸ hs.1.charging.found) fun hfound => ?_
  refine Triple.bind (deliverOrder_charges (h.dates done) order) fun _ => ?_
  refine Triple.bind readSome_on fun lines => ?_
  refine Triple.of_fact (φ := lines = db₀.order_lines.length)
    (fun s hs => hs.2 ▸ hs.1.charging.lines_length) fun hlines => ?_
  refine Triple.bind (M := fun total_amount s => total_amount = lineTotal no (db₀.order_lines.take lines) ∧
    On (Uncharged (I done) db₀) s) ?_ fun total_amount => ?_
  · refine Triple.pre (Triple.foldlM_range (I := fun i total_amount s =>
      total_amount = lineTotal no (db₀.order_lines.take i) ∧ On (Uncharged (I done) db₀) s)
      fun i total_amount _ => deliverLine_charges (h.dates done)) ?_
    exact fun s hs => ⟨rfl, hs.1⟩
  · refine Triple.of_fact (fun _ hs => hs.1) fun htotal => Triple.pre ?_ fun _ hs => hs.2
    rw [htotal, hlines, List.take_length]
    exact chargeCustomer_along h hd_id hold hfound

theorem deliverDistrict_along (h : tx.Along I) (hd_id : d_id ∈ intRange 1 10) :
    Triple (On (I done)) (tx.deliverDistrict .plain out d_id) (fun _ => On (I (done ++ [d_id]))) (On (I done)) := by
  unfold deliverDistrict
  -- from each database the district may start with
  refine Triple.of_state fun s₀ hs₀ =>
    Triple.pre (P := On fun db => db = s₀.db) ?_ fun s hs => congrArg Session.db hs
  refine Triple.bind readSome_on fun oldest => ?_
  refine Triple.of_fact (φ := tx.oldestNewOrder s₀.db d_id = oldest) (fun s hs => hs.1 ▸ hs.2) fun hold => ?_
  cases oldest with
  | none =>
    apply Triple.pure
    rintro s ⟨hs, -⟩
    have hdb : s.db = s₀.db := hs
    apply h.idle done d_id s.db (hdb ▸ hs₀)
    rw [hdb, hold, Option.bind_none]
  | some no =>
    refine (deliver_along h hd_id hold).pre ?_
    rintro s ⟨hs, -⟩
    exact ⟨hs ▸ hs₀, hs ▸ ⟨rfl, rfl, rfl, rfl⟩⟩

/-- **Along a Delivery.** -/
theorem execute_along (h : tx.Along I) : Triple (On (I [])) (tx.execute out) (fun _ => On (I (intRange 1 10)))
    (On fun db => ∃ done, I done db) := by
  unfold execute executeWith
  refine Triple.bind (Triple.forM (I := fun done => On (I done)) fun done d_id rest hrange => ?_) fun _ =>
    releaseAllLocks_on
  have hd_id : d_id ∈ intRange 1 10 := by
    rw [hrange]
    exact List.mem_append_right done List.mem_cons_self
  exact (deliverDistrict_along h hd_id).weaken (fun _ hs => hs) (fun _ _ hs => hs) fun s hs => ⟨done, hs⟩

/-- **What a Delivery keeps.** -/
theorem execute_charges (h : KeptByCharges F) (tx : TPCCDeliveryTransaction) :
    Triple (On F) (tx.execute out) (fun _ => On F) (On F) := by
  have halong : tx.Along fun _ => F := by
    refine ⟨fun _ => h.toKeptByDates, fun _ _ _ hdb _ => hdb, ?_⟩
    intro _ db d_id no order row hdb hd_id hold horder hpos hrow
    exact h.charge db tx d_id no order row hdb hd_id hold horder hpos hrow
  exact (execute_along halong).weaken (fun _ hs => hs) (fun _ _ hs => hs) fun _ ⟨_, hs⟩ => hs

theorem execute_keeps (h : KeptByDelivery F) (tx : TPCCDeliveryTransaction) :
    Triple (On F) (tx.execute out) (fun _ => On F) (On F) := execute_charges h.charges tx

end TPCCDeliveryTransaction

end Tpcc

end HawkTxn
