/-
The five TPC-C transactions (`tpcc_transaction.h`, `tpcc_transaction.cpp`).

`execute` is a program on a `Session`: the database, the transaction object, and a trace of what the call has done. The
answers of `LockTable::acquireLock`, the clock, the random draws and the columns a new row leaves unset come from
`Outside`. The n-th answer is the one to the n-th request of the call; the clock is read once between two requests at
most, so its readings are numbered by the requests made before. A denied request aborts: the locks are released and the
rest of the call is skipped. Row accessors outside a vector leave a call without an outcome. Nothing called here throws,
so the handlers for exceptions are left out.

Every assignment to columns of a row, and every append, is one `write`. The bodies are written over the row accessors
they call, and `execute` is a body with the accessors of the database.
-/
import HawkTxn.Core.Programs
import HawkTxn.TransactionManager
import HawkTxn.Tpcc.Database

namespace HawkTxn

open HawkTxn.Core UnorderedMap Program

namespace Tpcc

/-! ## Sessions -/

/-- what a call reads from outside -/
structure Outside where
  /-- `LockTable::acquireLock`, by request -/
  answer : ℕ → Bool
  /-- `getCurrentTimestamp()` after a number of requests -/
  timestamp : ℕ → ℤ
  /-- `generateRandomDouble(0.0, 1.0)` for the i-th item -/
  randomDouble : ℕ → ℚ
  /-- `generateRandomWarehouseId(home_node_id_)` for the i-th item -/
  randomWarehouseId : ℕ → ℤ
  /-- `o_carrier_id` of a new order, which is not set -/
  rawCarrierId : ℤ
  /-- `ol_delivery_d` of the i-th order line of a new order, which is not set -/
  rawDeliveryD : ℕ → ℤ

inductive Event where
  | acquired (resId : ResourceId) (mode : LockMode) (success : Bool)
  /-- with the database after -/
  | wrote (db : TPCCDatabase)
  | released
deriving DecidableEq

structure Session where
  db : TPCCDatabase
  txn : Transaction
  /-- the number of lock requests made -/
  requests : ℕ
  trace : List Event

def Session.start (db : TPCCDatabase) (txn : Transaction) : Session := ⟨db, txn, 0, []⟩

/-- the session after a request and its answer -/
def Session.answered (s : Session) (resId : ResourceId) (mode : LockMode) (success : Bool) : Session :=
  { s with
    txn := if success then { s.txn with acquiredLocks := s.txn.acquiredLocks.insert resId mode }
      else { s.txn with status := .blocked, waitingForResourceId := resId }
    requests := s.requests + 1
    trace := s.trace ++ [.acquired resId mode success] }

def Session.wrote (s : Session) (db : TPCCDatabase) : Session := { s with db := db, trace := s.trace ++ [.wrote db] }

def Session.released (s : Session) (status : TransactionStatus) : Session :=
  { s with
    txn := { s.txn with acquiredLocks := ∅, status := status }
    trace := s.trace ++ [.released] }

def acquireLock (out : Outside) (resId : ResourceId) (mode : LockMode) : Program Session Bool := do
  let success ← fetch fun s => some (out.answer s.requests)
  change fun s => s.answered resId mode success
  return success

def releaseAllLocks : Program Session Unit := change fun s => s.released .committed

/-- `releaseAllLocks` and another status -/
def abort : Program Session Unit := change fun s => s.released .aborted

/-- `if (!acquireLock(resId, mode)) { abort(); return false; }` -/
def acquireOrAbort (out : Outside) (resId : ResourceId) (mode : LockMode) : Program Session Unit := do
  let success ← acquireLock out resId mode
  if success then pure () else do
    abort
    stop

theorem acquireOrAbort_spec {out : Outside} {resId : ResourceId} {mode : LockMode} {P Q R : Session → Prop}
    (hgranted : ∀ s, P s → out.answer s.requests = true → Q (s.answered resId mode true))
    (hdenied : ∀ s, P s → out.answer s.requests = false → R ((s.answered resId mode false).released .aborted)) :
    Triple P (acquireOrAbort out resId mode) (fun _ => Q) R := by
  unfold acquireOrAbort acquireLock
  refine Triple.bind (M := fun success s' => ∃ s, P s ∧ out.answer s.requests = success ∧
    s' = s.answered resId mode success) ?_ ?_
  · refine Triple.bind Triple.fetch fun success => ?_
    refine Triple.bind (M := fun _ s' => ∃ s, P s ∧ out.answer s.requests = success ∧
      s' = s.answered resId mode success) ?_ fun _ => Triple.pure fun _ hs => hs
    exact Triple.change fun s hs => ⟨s, hs.1, Option.some.inj hs.2, rfl⟩
  · intro success
    refine Triple.ite ?_ ?_
    · rintro rfl
      apply Triple.pure
      intro _ h
      obtain ⟨s, hs, hanswer, rfl⟩ := h
      exact hgranted s hs hanswer
    · intro hsuccess
      obtain rfl : success = false := Bool.eq_false_of_not_eq_true hsuccess
      refine Triple.bind (M := fun _ => R) (Triple.change ?_) fun _ => Triple.stop fun _ hs => hs
      intro _ h
      obtain ⟨s, hs, hanswer, rfl⟩ := h
      exact hdenied s hs hanswer

def getCurrentTimestamp (out : Outside) : Program Session ℤ := fetch fun s => some (out.timestamp s.requests)

def readDb {α : Type} (g : TPCCDatabase → Option α) : Program Session α := fetch fun s => g s.db

def write (f : TPCCDatabase → TPCCDatabase) : Program Session Unit := change fun s => s.wrote (f s.db)

/-- the row before an assignment to columns of a row found by an accessor -/
def updateRow {ρ : Type} (rows : TPCCDatabase → List ρ) (withRows : TPCCDatabase → List ρ → TPCCDatabase) (i : ℤ)
    (f : ρ → ρ) : Program Session ρ := do
  let row ← readDb fun db => rowAt (rows db) i
  write fun db => withRows db ((rows db).set i.toNat (f row))
  return row

theorem updateRow_spec {ρ : Type} {rows : TPCCDatabase → List ρ} {withRows : TPCCDatabase → List ρ → TPCCDatabase}
    {i : ℤ} {f : ρ → ρ} {P Q R : Session → Prop}
    (h : ∀ s row, P s → 0 ≤ i → (rows s.db)[i.toNat]? = some row →
      Q (s.wrote (withRows s.db ((rows s.db).set i.toNat (f row))))) :
    Triple P (updateRow rows withRows i f) (fun _ => Q) R := by
  unfold updateRow readDb write
  refine Triple.bind Triple.fetch fun row => ?_
  refine Triple.bind (M := fun _ => Q) (Triple.change fun s hs => ?_) fun _ => Triple.pure fun _ hs => hs
  obtain ⟨hpos, hrow⟩ := rowAt_eq_some.1 hs.2
  exact h s row hs.1 hpos hrow

def updateWarehouse (w_id : ℤ) (f : Warehouse → Warehouse) : Program Session Warehouse :=
  updateRow (·.warehouses) (fun db rows => { db with warehouses := rows }) (warehousePosition w_id) f

def updateDistrict (d_id w_id : ℤ) (f : District → District) : Program Session District :=
  updateRow (·.districts) (fun db rows => { db with districts := rows }) (districtPosition d_id w_id) f

def updateCustomer (c_id d_id w_id : ℤ) (f : Customer → Customer) : Program Session Customer :=
  updateRow (·.customers) (fun db rows => { db with customers := rows }) (customerPosition c_id d_id w_id) f

def updateStock (i_id w_id : ℤ) (f : Stock → Stock) : Program Session Stock :=
  updateRow (·.stocks) (fun db rows => { db with stocks := rows }) (stockPosition i_id w_id) f

/-- what a transaction does with a row it looks up: an assignment to columns through the reference, or reading it -/
structure RowAccess where
  updateWarehouse : ℤ → (Warehouse → Warehouse) → Program Session Warehouse
  updateDistrict : ℤ → ℤ → (District → District) → Program Session District
  updateCustomer : ℤ → ℤ → ℤ → (Customer → Customer) → Program Session Customer
  updateStock : ℤ → ℤ → (Stock → Stock) → Program Session Stock
  getDistrict : ℤ → ℤ → Program Session District
  getStock : ℤ → ℤ → Program Session Stock

/-- the accessors of the database -/
def RowAccess.plain : RowAccess where
  updateWarehouse := Tpcc.updateWarehouse
  updateDistrict := Tpcc.updateDistrict
  updateCustomer := Tpcc.updateCustomer
  updateStock := Tpcc.updateStock
  getDistrict d_id w_id := readDb fun db => db.getDistrict d_id w_id
  getStock i_id w_id := readDb fun db => db.getStock i_id w_id

namespace RowAccess

theorem plain_updateWarehouse (w_id : ℤ) (f : Warehouse → Warehouse) :
    plain.updateWarehouse w_id f = Tpcc.updateWarehouse w_id f := rfl

theorem plain_updateDistrict (d_id w_id : ℤ) (f : District → District) :
    plain.updateDistrict d_id w_id f = Tpcc.updateDistrict d_id w_id f := rfl

theorem plain_updateCustomer (c_id d_id w_id : ℤ) (f : Customer → Customer) :
    plain.updateCustomer c_id d_id w_id f = Tpcc.updateCustomer c_id d_id w_id f := rfl

theorem plain_getDistrict (d_id w_id : ℤ) :
    plain.getDistrict d_id w_id = readDb fun db => db.getDistrict d_id w_id := rfl

theorem plain_getStock (i_id w_id : ℤ) : plain.getStock i_id w_id = readDb fun db => db.getStock i_id w_id := rfl

end RowAccess

variable (acc : RowAccess)

/-! ## New-Order -/

structure TPCCNewOrderTransaction where
  w_id : ℤ
  d_id : ℤ
  c_id : ℤ
  item_info : List (ℤ × ℤ)

namespace TPCCNewOrderTransaction

/-- the stock of an item after five of it were ordered -/
def orderStock (stock : Stock) : Stock :=
  { stock with
    s_quantity := if stock.s_quantity - 5 < 10 then stock.s_quantity - 5 + 100 else stock.s_quantity - 5
    s_ytd := stock.s_ytd + 5
    s_order_cnt := stock.s_order_cnt + 1 }

/-- the warehouse that supplies the i-th item: one in five is drawn anew -/
def supplyWarehouse (tx : TPCCNewOrderTransaction) (out : Outside) (i : ℕ) : ℤ :=
  if out.randomDouble i < 1 / 5 then out.randomWarehouseId i else tx.w_id

def newOrderEntry (tx : TPCCNewOrderTransaction) (out : Outside) (o_id o_entry_d : ℤ) : Order where
  o_id := o_id
  o_d_id := tx.d_id
  o_w_id := tx.w_id
  o_c_id := tx.c_id
  o_entry_d := o_entry_d
  o_carrier_id := out.rawCarrierId
  o_ol_cnt := tx.item_info.length
  o_all_local := 1

def orderLine (tx : TPCCNewOrderTransaction) (out : Outside) (o_id ol_i_id : ℤ) (i : ℕ) : OrderLine where
  ol_o_id := o_id
  ol_d_id := tx.d_id
  ol_w_id := tx.w_id
  ol_number := i + 1
  ol_i_id := ol_i_id
  ol_supply_w_id := tx.supplyWarehouse out i
  ol_quantity := 5
  ol_amount := 10
  ol_delivery_d := out.rawDeliveryD i
  ol_dist_info := "some_dist_info"

/-- the body of the loop over the items -/
def orderItem (tx : TPCCNewOrderTransaction) (out : Outside) (o_id : ℤ) (total_order_amount : ℚ)
    (item : (ℤ × ℤ) × ℕ) : Program Session ℚ := do
  let ol := tx.orderLine out o_id item.1.1 item.2
  acquireOrAbort out (getTPCCResourceId .item 0 0 0 ol.ol_i_id 0 0) .shared
  acquireOrAbort out (getTPCCResourceId .stock ol.ol_supply_w_id 0 0 ol.ol_i_id 0 0) .exclusive
  let _ ← acc.updateStock ol.ol_i_id ol.ol_supply_w_id orderStock
  acquireOrAbort out (getTPCCResourceId .orderLine tx.w_id tx.d_id 0 0 o_id ol.ol_number) .exclusive
  write fun db => { db with order_lines := db.order_lines ++ [ol] }
  return total_order_amount + ol.ol_amount

def executeWith (tx : TPCCNewOrderTransaction) (out : Outside) : Program Session Unit := do
  acquireOrAbort out (getTPCCResourceId .warehouse tx.w_id 0 0 0 0 0) .exclusive
  acquireOrAbort out (getTPCCResourceId .district tx.w_id tx.d_id 0 0 0 0) .exclusive
  let district ← acc.updateDistrict tx.d_id tx.w_id fun district =>
    { district with d_next_o_id := district.d_next_o_id + 1 }
  let o_id := district.d_next_o_id
  acquireOrAbort out (getTPCCResourceId .customer tx.w_id tx.d_id tx.c_id 0 0 0) .shared
  let o_entry_d ← getCurrentTimestamp out
  acquireOrAbort out (getTPCCResourceId .order tx.w_id tx.d_id 0 0 o_id 0) .exclusive
  acquireOrAbort out (getTPCCResourceId .newOrder tx.w_id tx.d_id 0 0 o_id 0) .exclusive
  write fun db => { db with orders := db.orders ++ [tx.newOrderEntry out o_id o_entry_d] }
  write fun db => { db with new_orders := db.new_orders ++ [⟨o_id, tx.d_id, tx.w_id⟩] }
  let total_order_amount ← tx.item_info.zipIdx.foldlM (tx.orderItem acc out o_id) 0
  let _ ← acc.updateWarehouse tx.w_id fun warehouse => { warehouse with w_ytd := warehouse.w_ytd + total_order_amount }
  releaseAllLocks

def execute (tx : TPCCNewOrderTransaction) (out : Outside) : Program Session Unit := tx.executeWith .plain out

end TPCCNewOrderTransaction

/-! ## Payment -/

structure TPCCPaymentTransaction where
  w_id : ℤ
  d_id : ℤ
  c_w_id : ℤ
  c_d_id : ℤ
  c_id : ℤ
  h_amount : ℚ

namespace TPCCPaymentTransaction

def history (tx : TPCCPaymentTransaction) (h_date : ℤ) : History where
  h_c_id := tx.c_id
  h_c_d_id := tx.c_d_id
  h_c_w_id := tx.c_w_id
  h_d_id := tx.d_id
  h_w_id := tx.w_id
  h_date := h_date
  h_amount := tx.h_amount
  h_data := "some_history_data"

def executeWith (tx : TPCCPaymentTransaction) (out : Outside) : Program Session Unit := do
  acquireOrAbort out (getTPCCResourceId .warehouse tx.w_id 0 0 0 0 0) .exclusive
  let _ ← acc.updateWarehouse tx.w_id fun warehouse => { warehouse with w_ytd := warehouse.w_ytd + tx.h_amount }
  acquireOrAbort out (getTPCCResourceId .district tx.w_id tx.d_id 0 0 0 0) .exclusive
  let _ ← acc.updateDistrict tx.d_id tx.w_id fun district => { district with d_ytd := district.d_ytd + tx.h_amount }
  acquireOrAbort out (getTPCCResourceId .customer tx.c_w_id tx.c_d_id tx.c_id 0 0 0) .exclusive
  let _ ← acc.updateCustomer tx.c_id tx.c_d_id tx.c_w_id fun customer =>
    { customer with
      c_balance := customer.c_balance - tx.h_amount
      c_ytd_payment := customer.c_ytd_payment + tx.h_amount
      c_payment_cnt := customer.c_payment_cnt + 1 }
  let h_date ← getCurrentTimestamp out
  acquireOrAbort out (getTPCCResourceId .history tx.w_id tx.d_id tx.c_id 0 0 0) .exclusive
  write fun db => { db with histories := db.histories ++ [tx.history h_date] }
  releaseAllLocks

def execute (tx : TPCCPaymentTransaction) (out : Outside) : Program Session Unit := tx.executeWith .plain out

end TPCCPaymentTransaction

/-! ## Order-Status -/

structure TPCCOrderStatusTransaction where
  w_id : ℤ
  d_id : ℤ
  c_id : ℤ

/-- the order line belongs to the order with these ids -/
def OrderLine.Of (ol : OrderLine) (o_id d_id w_id : ℤ) : Prop :=
  ol.ol_o_id = o_id ∧ ol.ol_d_id = d_id ∧ ol.ol_w_id = w_id

instance (ol : OrderLine) (o_id d_id w_id : ℤ) : Decidable (ol.Of o_id d_id w_id) :=
  inferInstanceAs (Decidable (_ ∧ _ ∧ _))

/-- the lock id of an order line, from its own columns -/
def OrderLine.resourceId (ol : OrderLine) : ResourceId :=
  getTPCCResourceId .orderLine ol.ol_w_id ol.ol_d_id 0 0 ol.ol_o_id ol.ol_number

namespace TPCCOrderStatusTransaction

/-- the customer's order with the greatest number, the first of them if there are several -/
def lastOrder (tx : TPCCOrderStatusTransaction) (db : TPCCDatabase) : Option Order :=
  db.orders.foldl (fun last_order order =>
    if order.o_w_id = tx.w_id ∧ order.o_d_id = tx.d_id ∧ order.o_c_id = tx.c_id then
      match last_order with
      | none => some order
      | some last => if last.o_id < order.o_id then some order else some last
    else last_order) none

def execute (tx : TPCCOrderStatusTransaction) (out : Outside) : Program Session Unit := do
  acquireOrAbort out (getTPCCResourceId .customer tx.w_id tx.d_id tx.c_id 0 0 0) .shared
  let last_order ← readDb fun db => some (tx.lastOrder db)
  match last_order with
  | none => releaseAllLocks
  | some last_order => do
    acquireOrAbort out (getTPCCResourceId .order last_order.o_w_id last_order.o_d_id 0 0 last_order.o_id 0) .shared
    let order_lines ← readDb fun db => some db.order_lines
    order_lines.forM fun ol =>
      if ol.Of last_order.o_id last_order.o_d_id last_order.o_w_id then acquireOrAbort out ol.resourceId .shared
      else pure ()
    releaseAllLocks

end TPCCOrderStatusTransaction

/-! ## Delivery -/

structure TPCCDeliveryTransaction where
  w_id : ℤ
  o_carrier_id : ℤ

namespace TPCCDeliveryTransaction

/-- the district's new order with the least number, the first of them if there are several -/
def oldestNewOrder (tx : TPCCDeliveryTransaction) (db : TPCCDatabase) (d_id : ℤ) : Option NewOrder :=
  db.new_orders.foldl (fun oldest_new_order no =>
    if no.no_w_id = tx.w_id ∧ no.no_d_id = d_id then
      match oldest_new_order with
      | none => some no
      | some oldest => if no.no_o_id < oldest.no_o_id then some no else some oldest
    else oldest_new_order) none

/-- the first order of a new order, with its position -/
def findOrder (db : TPCCDatabase) (no : NewOrder) : Option (Order × ℕ) :=
  db.orders.zipIdx.find? fun o => o.1.o_id = no.no_o_id ∧ o.1.o_d_id = no.no_d_id ∧ o.1.o_w_id = no.no_w_id

/-- the body of the loop over the order lines -/
def deliverLine (out : Outside) (no : NewOrder) (total_amount : ℚ) (i : ℕ) : Program Session ℚ := do
  let ol ← readDb fun db => db.order_lines[i]?
  if ol.Of no.no_o_id no.no_d_id no.no_w_id then do
    acquireOrAbort out ol.resourceId .exclusive
    let ol_delivery_d ← getCurrentTimestamp out
    write fun db => { db with order_lines := db.order_lines.set i { ol with ol_delivery_d := ol_delivery_d } }
    return total_amount + ol.ol_amount
  else return total_amount

/-- the carrier of the order is set -/
def deliverOrder (tx : TPCCDeliveryTransaction) : Option (Order × ℕ) → Program Session Unit
  | none => pure ()
  | some order => write fun db =>
    { db with orders := db.orders.set order.2 { order.1 with o_carrier_id := tx.o_carrier_id } }

/-- the customer of the order is charged -/
def chargeCustomer (out : Outside) (total_amount : ℚ) : Option (Order × ℕ) → Program Session Unit
  | none => pure ()
  | some order => do
    acquireOrAbort out (getTPCCResourceId .customer order.1.o_w_id order.1.o_d_id order.1.o_c_id 0 0 0) .exclusive
    let _ ← acc.updateCustomer order.1.o_c_id order.1.o_d_id order.1.o_w_id fun customer =>
      { customer with
        c_balance := customer.c_balance + total_amount
        c_delivery_cnt := customer.c_delivery_cnt + 1 }

/-- the oldest new order of a district is delivered -/
def deliver (tx : TPCCDeliveryTransaction) (out : Outside) (no : NewOrder) : Program Session Unit := do
  acquireOrAbort out (getTPCCResourceId .newOrder no.no_w_id no.no_d_id 0 0 no.no_o_id 0) .exclusive
  acquireOrAbort out (getTPCCResourceId .order no.no_w_id no.no_d_id 0 0 no.no_o_id 0) .exclusive
  let order ← readDb fun db => some (findOrder db no)
  tx.deliverOrder order
  let lines ← readDb fun db => some db.order_lines.length
  let total_amount ← (List.range lines).foldlM (deliverLine out no) 0
  chargeCustomer acc out total_amount order

/-- the body of the loop over the districts -/
def deliverDistrict (tx : TPCCDeliveryTransaction) (out : Outside) (d_id : ℤ) : Program Session Unit := do
  let oldest_new_order ← readDb fun db => some (tx.oldestNewOrder db d_id)
  match oldest_new_order with
  | none => pure ()
  | some no => tx.deliver acc out no

def executeWith (tx : TPCCDeliveryTransaction) (out : Outside) : Program Session Unit := do
  (intRange 1 10).forM (tx.deliverDistrict acc out)
  releaseAllLocks

def execute (tx : TPCCDeliveryTransaction) (out : Outside) : Program Session Unit := tx.executeWith .plain out

end TPCCDeliveryTransaction

/-! ## Stock-Level -/

structure TPCCStockLevelTransaction where
  w_id : ℤ
  d_id : ℤ
  threshold : ℤ

namespace TPCCStockLevelTransaction

/-- the numbers of the last twenty orders of the district, the greatest first -/
def last20OrderIds (tx : TPCCStockLevelTransaction) (db : TPCCDatabase) : List ℤ :=
  let district_orders := db.orders.filter fun order => order.o_w_id = tx.w_id ∧ order.o_d_id = tx.d_id
  (((district_orders.map (·.o_id)).mergeSort (· ≤ ·)).reverse).take 20

/-- the body of the inner loop -/
def checkStock (tx : TPCCStockLevelTransaction) (out : Outside) (o_id : ℤ) (low_stock_items : Finset ℤ)
    (ol : OrderLine) : Program Session (Finset ℤ) := do
  if ol.Of o_id tx.d_id tx.w_id then do
    acquireOrAbort out (getTPCCResourceId .stock ol.ol_supply_w_id 0 0 ol.ol_i_id 0 0) .shared
    let stock ← acc.getStock ol.ol_i_id ol.ol_supply_w_id
    return if stock.s_quantity < tx.threshold then insert ol.ol_i_id low_stock_items else low_stock_items
  else return low_stock_items

/-- the body of the outer loop -/
def checkOrder (tx : TPCCStockLevelTransaction) (out : Outside) (low_stock_items : Finset ℤ) (o_id : ℤ) :
    Program Session (Finset ℤ) := do
  let order_lines ← readDb fun db => some db.order_lines
  order_lines.foldlM (tx.checkStock acc out o_id) low_stock_items

def executeWith (tx : TPCCStockLevelTransaction) (out : Outside) : Program Session Unit := do
  acquireOrAbort out (getTPCCResourceId .district tx.w_id tx.d_id 0 0 0 0) .shared
  let _ ← acc.getDistrict tx.d_id tx.w_id
  let last_20_o_ids ← readDb fun db => some (tx.last20OrderIds db)
  let _ ← last_20_o_ids.foldlM (tx.checkOrder acc out) ∅
  releaseAllLocks

def execute (tx : TPCCStockLevelTransaction) (out : Outside) : Program Session Unit := tx.executeWith .plain out

end TPCCStockLevelTransaction

/-! ## Calls -/

inductive TPCCTransaction where
  | newOrder (tx : TPCCNewOrderTransaction)
  | payment (tx : TPCCPaymentTransaction)
  | orderStatus (tx : TPCCOrderStatusTransaction)
  | delivery (tx : TPCCDeliveryTransaction)
  | stockLevel (tx : TPCCStockLevelTransaction)

/-- an Order-Status looks no row up by its keys -/
def TPCCTransaction.bodyWith : TPCCTransaction → Outside → Program Session Unit
  | newOrder tx => tx.executeWith acc
  | payment tx => tx.executeWith acc
  | orderStatus tx => tx.execute
  | delivery tx => tx.executeWith acc
  | stockLevel tx => tx.executeWith acc

def TPCCTransaction.body (tx : TPCCTransaction) (out : Outside) : Program Session Unit := tx.bodyWith .plain out

/-- the value returned and the session after -/
def TPCCTransaction.execute (tx : TPCCTransaction) (out : Outside) (db : TPCCDatabase) (txn : Transaction) :
    Option (Bool × Session) :=
  ((tx.body out).exec (.start db txn)).map fun res => (res.1.isSome, res.2)

end Tpcc

end HawkTxn
