/-
The books of the TPC-C database (`tpcc_transaction.cpp`, `tpcc_data_generator.cpp`).

What has been paid and ordered is written down twice: in rows that are appended, and in columns of warehouses,
districts, customers and stocks that run along. A Payment adds its amount to the three columns before it appends the
history row; a New-Order takes from a stock before it appends a line, and adds to the warehouse after the last line.
Between two writes of a call the books are off, and `OffBy` says by how much at each position.

Results:
- `OffBy.post_warehouse`, .., `OffBy.enter_line`: what one write does;
- `execute_books`: a Payment, a New-Order or a Delivery that returns true leaves the books as they were;
- `booksAgree_fillTables`, `booksAgree_of_reaches`: they agree on the generated data and in every run from it in which
  no Payment and no New-Order is denied.
-/
import HawkTxn.Tpcc.Deliveries

namespace HawkTxn

open HawkTxn.Core

namespace Tpcc

open TPCCDatabase

/-! ## Books -/

/-- the position of the row of a warehouse that a history row is for -/
def History.warehousePlace (history : History) : ℤ := warehousePosition history.h_w_id

def History.districtPlace (history : History) : ℤ := districtPosition history.h_d_id history.h_w_id

def History.customerPlace (history : History) : ℤ :=
  customerPosition history.h_c_id history.h_c_d_id history.h_c_w_id

def OrderLine.warehousePlace (ol : OrderLine) : ℤ := warehousePosition ol.ol_w_id

def OrderLine.stockPlace (ol : OrderLine) : ℤ := stockPosition ol.ol_i_id ol.ol_supply_w_id

namespace TPCCDatabase

/-- what the history rows of each warehouse come to -/
def paidToWarehouse (db : TPCCDatabase) : ℤ → ℚ := total History.warehousePlace History.h_amount db.histories

def paidToDistrict (db : TPCCDatabase) : ℤ → ℚ := total History.districtPlace History.h_amount db.histories

/-- with the number of payments -/
def paidByCustomer (db : TPCCDatabase) : ℤ → ℚ × ℤ :=
  total History.customerPlace (fun history => (history.h_amount, 1)) db.histories

/-- what the order lines of each warehouse come to -/
def sold (db : TPCCDatabase) : ℤ → ℚ := total OrderLine.warehousePlace OrderLine.ol_amount db.order_lines

/-- the quantity, with the number of lines -/
def taken (db : TPCCDatabase) : ℤ → ℤ × ℤ :=
  total OrderLine.stockPlace (fun ol => (ol.ol_quantity, 1)) db.order_lines

end TPCCDatabase

/-- the columns that run along agree with the rows appended; the lines of db₀ are from before -/
structure BooksAgree (db₀ db : TPCCDatabase) : Prop where
  warehouses : Holds Warehouse.w_ytd db.warehouses (db.paidToWarehouse + (db.sold - db₀.sold))
  districts : Holds District.d_ytd db.districts db.paidToDistrict
  customers : Holds (fun row => (row.c_ytd_payment, row.c_payment_cnt)) db.customers db.paidByCustomer
  stocks : Holds (fun row => (row.s_ytd, row.s_order_cnt)) db.stocks (db.taken - db₀.taken)

/-- by how much the columns are ahead of the rows, at each position -/
structure Ahead where
  warehouses : ℤ → ℚ
  districts : ℤ → ℚ
  customers : ℤ → ℚ × ℤ
  stocks : ℤ → ℤ × ℤ

/-- in the middle of a call -/
structure OffBy (db₀ : TPCCDatabase) (ahead : Ahead) (db : TPCCDatabase) : Prop where
  warehouses : Holds Warehouse.w_ytd db.warehouses (db.paidToWarehouse + (db.sold - db₀.sold) + ahead.warehouses)
  districts : Holds District.d_ytd db.districts (db.paidToDistrict + ahead.districts)
  customers : Holds (fun row => (row.c_ytd_payment, row.c_payment_cnt)) db.customers
    (db.paidByCustomer + ahead.customers)
  stocks : Holds (fun row => (row.s_ytd, row.s_order_cnt)) db.stocks (db.taken - db₀.taken + ahead.stocks)

variable {db₀ db db' : TPCCDatabase} {ahead ahead' : Ahead} {out : Outside} {n : ℕ} {draws : Draws} {i : ℤ} {c : Call}

theorem offBy_zero : OffBy db₀ ⟨0, 0, 0, 0⟩ db ↔ BooksAgree db₀ db := by
  refine ⟨?_, ?_⟩
  · intro h
    have hw := h.warehouses
    have hd := h.districts
    have hc := h.customers
    have hs := h.stocks
    simp only [add_zero] at hw hd hc hs
    exact ⟨hw, hd, hc, hs⟩
  · intro h
    refine ⟨?_, ?_, ?_, ?_⟩ <;> simp only [add_zero]
    · exact h.warehouses
    · exact h.districts
    · exact h.customers
    · exact h.stocks

/-! ## Single writes -/

namespace OffBy

theorem of_eq (h : OffBy db₀ ahead db) (heq : ahead = ahead') : OffBy db₀ ahead' db := heq ▸ h

theorem post_warehouse {row : Warehouse} {x : ℚ} (h : OffBy db₀ ahead db) (hi : 0 ≤ i)
    (hrow : db.warehouses[i.toNat]? = some row) :
    OffBy db₀ { ahead with warehouses := ahead.warehouses + Pi.single i x }
      { db with warehouses := db.warehouses.set i.toNat { row with w_ytd := row.w_ytd + x } } :=
  ⟨(h.warehouses.post hi hrow rfl).of_due (add_assoc _ _ _), h.districts, h.customers, h.stocks⟩

theorem post_district {row : District} {x : ℚ} (h : OffBy db₀ ahead db) (hi : 0 ≤ i)
    (hrow : db.districts[i.toNat]? = some row) :
    OffBy db₀ { ahead with districts := ahead.districts + Pi.single i x }
      { db with districts := db.districts.set i.toNat { row with d_ytd := row.d_ytd + x } } :=
  ⟨h.warehouses, (h.districts.post hi hrow rfl).of_due (add_assoc _ _ _), h.customers, h.stocks⟩

/-- a column that is no total -/
theorem number_district {row : District} {d_next_o_id : ℤ} (h : OffBy db₀ ahead db)
    (hrow : db.districts[i.toNat]? = some row) :
    OffBy db₀ ahead { db with districts := db.districts.set i.toNat { row with d_next_o_id := d_next_o_id } } :=
  ⟨h.warehouses, h.districts.keep hrow rfl, h.customers, h.stocks⟩

theorem post_customer {row : Customer} {x c_balance : ℚ} (h : OffBy db₀ ahead db) (hi : 0 ≤ i)
    (hrow : db.customers[i.toNat]? = some row) :
    OffBy db₀ { ahead with customers := ahead.customers + Pi.single i (x, 1) }
      { db with customers := db.customers.set i.toNat { row with
        c_balance := c_balance, c_ytd_payment := row.c_ytd_payment + x, c_payment_cnt := row.c_payment_cnt + 1 } } :=
  ⟨h.warehouses, h.districts, (h.customers.post hi hrow rfl).of_due (add_assoc _ _ _), h.stocks⟩

theorem post_stock {row : Stock} (h : OffBy db₀ ahead db) (hi : 0 ≤ i) (hrow : db.stocks[i.toNat]? = some row) :
    OffBy db₀ { ahead with stocks := ahead.stocks + Pi.single i (5, 1) }
      { db with stocks := db.stocks.set i.toNat (TPCCNewOrderTransaction.orderStock row) } :=
  ⟨h.warehouses, h.districts, h.customers, (h.stocks.post hi hrow rfl).of_due (add_assoc _ _ _)⟩

/-- the columns are less far ahead of a history row that is appended -/
theorem enter_history (h : OffBy db₀ ahead db) (history : History) :
    OffBy db₀ ⟨ahead.warehouses - Pi.single history.warehousePlace history.h_amount,
        ahead.districts - Pi.single history.districtPlace history.h_amount,
        ahead.customers - Pi.single history.customerPlace (history.h_amount, 1), ahead.stocks⟩
      { db with histories := db.histories ++ [history] } := by
  refine ⟨h.warehouses.of_due ?_, h.districts.of_due ?_, h.customers.of_due ?_, h.stocks⟩
  · simp only [paidToWarehouse, total_append, total_singleton, sold]
    abel
  · simp only [paidToDistrict, total_append, total_singleton]
    abel
  · simp only [paidByCustomer, total_append, total_singleton]
    abel

/-- and of an order line -/
theorem enter_line (h : OffBy db₀ ahead db) (ol : OrderLine) :
    OffBy db₀ { ahead with
        warehouses := ahead.warehouses - Pi.single ol.warehousePlace ol.ol_amount
        stocks := ahead.stocks - Pi.single ol.stockPlace (ol.ol_quantity, 1) }
      { db with order_lines := db.order_lines ++ [ol] } := by
  refine ⟨h.warehouses.of_due ?_, h.districts, h.customers, h.stocks.of_due ?_⟩
  · simp only [paidToWarehouse, sold, total_append, total_singleton]
    abel
  · simp only [taken, total_append, total_singleton]
    abel

end OffBy

/-! ## Calls -/

/-- what a Payment adds on one side, it adds on the other -/
theorem TPCCPaymentTransaction.execute_books (tx : TPCCPaymentTransaction) :
    Triple (On (BooksAgree db₀)) (tx.execute out) (fun _ => On (BooksAgree db₀)) (fun _ => True) := by
  unfold execute executeWith
  refine Triple.bind (acquire_on fun _ _ => trivial) fun _ => ?_
  rw [RowAccess.plain_updateWarehouse]
  refine Triple.bind (updateRow_on (G := fun _ =>
    OffBy db₀ ⟨Pi.single (warehousePosition tx.w_id) tx.h_amount, 0, 0, 0⟩) ?_) fun warehouse => ?_
  · intro db row h hpos hrow
    exact ((offBy_zero.2 h).post_warehouse hpos hrow).of_eq (by rw [zero_add])
  refine Triple.bind (acquire_on fun _ _ => trivial) fun _ => ?_
  rw [RowAccess.plain_updateDistrict]
  refine Triple.bind (updateRow_on (G := fun _ =>
    OffBy db₀ ⟨Pi.single (warehousePosition tx.w_id) tx.h_amount,
      Pi.single (districtPosition tx.d_id tx.w_id) tx.h_amount, 0, 0⟩) ?_) fun district => ?_
  · exact fun db row h hpos hrow => (h.post_district hpos hrow).of_eq (by rw [zero_add])
  refine Triple.bind (acquire_on fun _ _ => trivial) fun _ => ?_
  rw [RowAccess.plain_updateCustomer]
  refine Triple.bind (updateRow_on (G := fun _ =>
    OffBy db₀ ⟨Pi.single (warehousePosition tx.w_id) tx.h_amount,
      Pi.single (districtPosition tx.d_id tx.w_id) tx.h_amount,
      Pi.single (customerPosition tx.c_id tx.c_d_id tx.c_w_id) (tx.h_amount, 1), 0⟩) ?_) fun customer => ?_
  · exact fun db row h hpos hrow => (h.post_customer hpos hrow).of_eq (by rw [zero_add])
  refine Triple.bind getCurrentTimestamp_on fun h_date => ?_
  refine Triple.bind (acquire_on fun _ _ => trivial) fun _ => ?_
  refine Triple.bind (write_on (G := BooksAgree db₀) ?_) fun _ => releaseAllLocks_on
  intro db h
  -- the history row has the places and the amount of the three columns
  refine offBy_zero.1 ((h.enter_history (tx.history h_date)).of_eq ?_)
  simp only [History.warehousePlace, History.districtPlace, History.customerPlace, history, sub_self]

namespace TPCCNewOrderTransaction

/-- the lines so far are ahead of the warehouse -/
def owing (tx : TPCCNewOrderTransaction) (total_order_amount : ℚ) : Ahead :=
  ⟨Pi.single (warehousePosition tx.w_id) (-total_order_amount), 0, 0, 0⟩

theorem orderItem_books (tx : TPCCNewOrderTransaction) (o_id : ℤ) (total_order_amount : ℚ) (item : (ℤ × ℤ) × ℕ) :
    Triple (On (OffBy db₀ (tx.owing total_order_amount))) (tx.orderItem .plain out o_id total_order_amount item)
      (fun total_order_amount => On (OffBy db₀ (tx.owing total_order_amount))) (fun _ => True) := by
  unfold orderItem
  refine Triple.bind (acquire_on fun _ _ => trivial) fun _ => ?_
  refine Triple.bind (acquire_on fun _ _ => trivial) fun _ => ?_
  refine Triple.bind (updateRow_on (G := fun _ => OffBy db₀ { tx.owing total_order_amount with
    stocks := Pi.single (tx.orderLine out o_id item.1.1 item.2).stockPlace (5, 1) }) ?_) fun stock => ?_
  · exact fun db row h hpos hrow => (h.post_stock hpos hrow).of_eq (by simp only [owing, zero_add]; rfl)
  refine Triple.bind (acquire_on fun _ _ => trivial) fun _ => ?_
  refine Triple.bind (write_on (G := OffBy db₀ (tx.owing
    (total_order_amount + (tx.orderLine out o_id item.1.1 item.2).ol_amount))) ?_) fun _ => Triple.pure fun _ hs => hs
  intro db h
  refine (h.enter_line (tx.orderLine out o_id item.1.1 item.2)).of_eq ?_
  have hquantity : (tx.orderLine out o_id item.1.1 item.2).ol_quantity = 5 := rfl
  have hplace : (tx.orderLine out o_id item.1.1 item.2).warehousePlace = warehousePosition tx.w_id := rfl
  simp only [owing, hquantity, hplace, sub_self, neg_add, Pi.single_add, Pi.single_neg, sub_eq_add_neg]

/-- what the lines take and cost is taken from the stocks and added to the warehouse -/
theorem execute_books (tx : TPCCNewOrderTransaction) :
    Triple (On (BooksAgree db₀)) (tx.execute out) (fun _ => On (BooksAgree db₀)) (fun _ => True) := by
  unfold execute executeWith
  refine Triple.bind (acquire_on fun _ _ => trivial) fun _ => ?_
  refine Triple.bind (acquire_on fun _ _ => trivial) fun _ => ?_
  rw [RowAccess.plain_updateDistrict]
  refine Triple.bind (updateRow_on (G := fun _ => OffBy db₀ (tx.owing 0)) ?_) fun district => ?_
  · intro db row h hpos hrow
    exact ((offBy_zero.2 h).number_district hrow).of_eq (by simp [owing])
  refine Triple.bind (acquire_on fun _ _ => trivial) fun _ => ?_
  refine Triple.bind getCurrentTimestamp_on fun o_entry_d => ?_
  refine Triple.bind (acquire_on fun _ _ => trivial) fun _ => ?_
  refine Triple.bind (acquire_on fun _ _ => trivial) fun _ => ?_
  refine Triple.bind (write_on (G := OffBy db₀ (tx.owing 0)) ?_) fun _ => ?_
  · exact fun db h => ⟨h.warehouses, h.districts, h.customers, h.stocks⟩
  refine Triple.bind (write_on (G := OffBy db₀ (tx.owing 0)) ?_) fun _ => ?_
  · exact fun db h => ⟨h.warehouses, h.districts, h.customers, h.stocks⟩
  refine Triple.bind (Triple.foldlM (I := fun _ total_order_amount => On (OffBy db₀ (tx.owing total_order_amount)))
    fun _ item _ total_order_amount _ => ?_) fun total_order_amount => ?_
  · exact tx.orderItem_books district.d_next_o_id total_order_amount item
  rw [RowAccess.plain_updateWarehouse]
  refine Triple.bind (updateRow_on (G := fun _ => BooksAgree db₀) ?_) fun _ => releaseAllLocks_on
  intro db row h hpos hrow
  refine offBy_zero.1 ((h.post_warehouse hpos hrow).of_eq ?_)
  simp only [owing, Pi.single_neg, neg_add_cancel]

end TPCCNewOrderTransaction

/-- dates and charges are in no total -/
theorem keptByCharges_booksAgree : KeptByCharges (BooksAgree db₀) where
  carrier _ _ _ _ h _ := ⟨h.warehouses, h.districts, h.customers, h.stocks⟩
  date db j ol ol_delivery_d h hrow := by
    have hsold : sold { db with order_lines := db.order_lines.set j { ol with ol_delivery_d := ol_delivery_d } } =
        db.sold := total_of_columns _ _ (map_set_of_key hrow rfl)
    have htaken : taken { db with order_lines := db.order_lines.set j { ol with ol_delivery_d := ol_delivery_d } } =
        db.taken := total_of_columns _ _ (map_set_of_key hrow rfl)
    exact ⟨h.warehouses.of_due (by rw [hsold]; rfl), h.districts, h.customers, h.stocks.of_due (by rw [htaken])⟩
  charge _ _ _ _ _ _ h _ _ _ _ hrow := ⟨h.warehouses, h.districts, h.customers.keep hrow rfl, h.stocks⟩

/-- a call that is not a Payment or a New-Order that is denied -/
def Settles (db : TPCCDatabase) (c : Call) : Prop :=
  match c.tx with
  | .newOrder _ | .payment _ => c.Succeeds db
  | .orderStatus _ | .delivery _ | .stockLevel _ => True

theorem callStep_booksAgree (h : BooksAgree db₀ db) (hc : Settles db c) (hst : callStep db c = some db') :
    BooksAgree db₀ db' := by
  obtain ⟨tx, out, txn⟩ := c
  cases tx with
  | newOrder tx => exact callStep_returned tx.execute_books hc hst h
  | payment tx => exact callStep_returned tx.execute_books hc hst h
  | orderStatus tx => exact callStep_kept tx.execute_keeps hst h
  | stockLevel tx => exact callStep_kept tx.execute_keeps hst h
  | delivery tx =>
    exact callStep_kept (TPCCDeliveryTransaction.execute_charges keptByCharges_booksAgree tx) hst h

/-! ## Generated data -/

namespace TPCCDataGenerator

/-- a payment of ten for each row of a list -/
theorem sum_newHistory {l : List History} (hl : ∀ history ∈ l, history.h_amount = 10) :
    (l.map History.h_amount).sum = l.length * 10 := by
  have hsum := List.sum_eq_card_nsmul (l.map History.h_amount) 10 ?_
  · rwa [List.length_map, nsmul_eq_mul] at hsum
  · intro amount hamount
    obtain ⟨history, hhistory, rfl⟩ := List.mem_map.1 hamount
    exact hl history hhistory

theorem paidToWarehouse_fillTables {w : ℤ} (hw : w ∈ intRange 1 n) :
    (fillTables draws n).paidToWarehouse (warehousePosition w) = 300000 := by
  have hrow : ∀ w', ∀ history ∈ (intRange 1 10).flatMap fun d => (intRange 1 3000).map (newHistory draws w' d),
      ∃ d c, history = newHistory draws w' d c := by
    intro w' history hhistory
    obtain ⟨d, -, hhistory⟩ := List.mem_flatMap.1 hhistory
    obtain ⟨c, -, rfl⟩ := List.mem_map.1 hhistory
    exact ⟨d, c, rfl⟩
  rw [paidToWarehouse, histories_fillTables,
    total_flatMap_of_place History.warehousePlace History.h_amount warehousePosition (nodup_intRange 1 n) hw,
    sum_newHistory]
  · simp [length_intRange]
    norm_num
  · intro history hhistory
    obtain ⟨d, c, rfl⟩ := hrow w history hhistory
    rfl
  · intro w' _ hpos
    unfold warehousePosition at hpos
    omega
  · intro w' _ history hhistory
    obtain ⟨d, c, rfl⟩ := hrow w' history hhistory
    rfl

theorem nodup_districtKeys : (districtKeys n).Nodup := by
  refine nodup_flatMap_of_key (k := Prod.fst) (nodup_intRange 1 n) ?_ ?_
  · exact fun w _ => (nodup_intRange 1 10).map fun d d' h => congrArg Prod.snd h
  · intro w _ k hk
    obtain ⟨d, -, rfl⟩ := List.mem_map.1 hk
    rfl

theorem paidToDistrict_fillTables {w d : ℤ} (hw : w ∈ intRange 1 n) (hd : d ∈ intRange 1 10) :
    (fillTables draws n).paidToDistrict (districtPosition d w) = 30000 := by
  have hkeys : (fillTables draws n).histories = (districtKeys n).flatMap fun k =>
      (intRange 1 3000).map (newHistory draws k.1 k.2) := by
    rw [histories_fillTables]
    simp only [districtKeys, List.flatMap_assoc, List.flatMap_map]
  have hkey : (w, d) ∈ districtKeys n := mem_districtKeys.2 ⟨mem_intRange.1 hw, mem_intRange.1 hd⟩
  have htotal := total_flatMap_of_place History.districtPlace History.h_amount
    (g := fun k : ℤ × ℤ => (intRange 1 3000).map (newHistory draws k.1 k.2))
    (fun k => districtPosition k.2 k.1) nodup_districtKeys hkey ?_ ?_
  · rw [paidToDistrict, hkeys, htotal, sum_newHistory]
    · simp [length_intRange]
      norm_num
    · intro history hhistory
      obtain ⟨c, -, rfl⟩ := List.mem_map.1 hhistory
      rfl
  · intro k hk hpos
    obtain ⟨hd', hw'⟩ := districtPosition_inj (mem_districtKeys.1 hk).2 (mem_intRange.1 hd) hpos
    exact Prod.ext hw' hd'
  · intro k _ history hhistory
    obtain ⟨c, -, rfl⟩ := List.mem_map.1 hhistory
    rfl

theorem nodup_customerKeys : (customerKeys n).Nodup := by
  refine nodup_table (fun k => k.1) (fun k => k.2.1) (fun w d => ?_) ?_ ?_
  · exact (nodup_intRange 1 3000).map fun c c' h => congrArg (fun k => k.2.2) h
  · simp +contextual
  · simp +contextual

theorem paidByCustomer_fillTables {w d c : ℤ} (hw : w ∈ intRange 1 n) (hd : d ∈ intRange 1 10)
    (hc : c ∈ intRange 1 3000) : (fillTables draws n).paidByCustomer (customerPosition c d w) = (10, 1) := by
  have hkeys : (fillTables draws n).histories = (customerKeys n).flatMap fun k =>
      [newHistory draws k.1 k.2.1 k.2.2] := by
    rw [histories_fillTables]
    simp only [customerKeys, List.flatMap_assoc, List.flatMap_map]
    simp only [List.map_eq_flatMap]
  have hkey : (w, d, c) ∈ customerKeys n :=
    mem_customerKeys.2 ⟨mem_intRange.1 hw, mem_intRange.1 hd, mem_intRange.1 hc⟩
  have htotal := total_flatMap_of_place History.customerPlace
    (fun history : History => (history.h_amount, (1 : ℤ)))
    (g := fun k : ℤ × ℤ × ℤ => [newHistory draws k.1 k.2.1 k.2.2])
    (fun k => customerPosition k.2.2 k.2.1 k.1) nodup_customerKeys hkey ?_ ?_
  · rw [paidByCustomer, hkeys, htotal]
    simp [newHistory]
  · intro k hk hpos
    obtain ⟨-, hkd, hkc⟩ := mem_customerKeys.1 hk
    obtain ⟨hc', hd', hw'⟩ := customerPosition_inj hkc (mem_intRange.1 hc) hkd (mem_intRange.1 hd) hpos
    exact Prod.ext hw' (Prod.ext hd' hc')
  · intro k _ history hhistory
    rw [List.mem_singleton.1 hhistory]
    rfl

/-- **The generated books.** -/
theorem booksAgree_fillTables (draws : Draws) (n : ℕ) :
    BooksAgree (fillTables draws n) (fillTables draws n) where
  warehouses := by
    intro k row hrow
    have hlen := (List.getElem?_eq_some_iff.1 hrow).1
    rw [(sized_fillTables draws n).warehouses] at hlen
    obtain ⟨w, hw, hpos⟩ := exists_warehousePosition hlen
    obtain ⟨hw1, hwn⟩ := mem_intRange.1 hw
    obtain rfl : (⟨w, 300000⟩ : Warehouse) = row :=
      Option.some.inj ((getWarehouse_fillTables draws hw1 hwn).symm.trans (rowAt_natCast hpos hrow))
    rw [sub_self, add_zero, ← hpos, paidToWarehouse_fillTables hw]
  districts := by
    intro k row hrow
    have hlen := (List.getElem?_eq_some_iff.1 hrow).1
    rw [(sized_fillTables draws n).districts] at hlen
    obtain ⟨w, hw, d, hd, hpos⟩ := exists_districtPosition hlen
    obtain ⟨hw1, hwn⟩ := mem_intRange.1 hw
    obtain rfl : (⟨d, w, 30000, 3001⟩ : District) = row :=
      Option.some.inj ((getDistrict_fillTables draws hw1 hwn hd).symm.trans (rowAt_natCast hpos hrow))
    rw [← hpos, paidToDistrict_fillTables hw hd]
  customers := by
    intro k row hrow
    have hlen := (List.getElem?_eq_some_iff.1 hrow).1
    rw [(sized_fillTables draws n).customers] at hlen
    obtain ⟨w, hw, d, hd, c, hc, hpos⟩ := exists_customerPosition hlen
    obtain rfl : newCustomer w d c = row :=
      Option.some.inj ((getCustomer_fillTables draws hw hd hc).symm.trans (rowAt_natCast hpos hrow))
    rw [← hpos, paidByCustomer_fillTables hw hd hc]
    rfl
  stocks := by
    intro k row hrow
    have hlen := (List.getElem?_eq_some_iff.1 hrow).1
    rw [(sized_fillTables draws n).stocks] at hlen
    obtain ⟨w, hw, i, hi, hpos⟩ := exists_stockPosition hlen
    obtain rfl : newStock draws w i = row :=
      Option.some.inj ((getStock_fillTables draws hw hi).symm.trans (rowAt_natCast hpos hrow))
    rw [sub_self]
    rfl

end TPCCDataGenerator

/-! ## Runs -/

/-- **The books agree.** In every run of calls on the generated data in which no Payment and no New-Order is denied,
each warehouse has been paid what its history rows come to and what its lines have cost since, each district and each
customer what their history rows come to, and each stock has given what the lines since have taken from it.
Order-Status, Stock-Level and Delivery calls may be denied anywhere. -/
theorem booksAgree_of_reaches (h : ReachesBy callStep Settles (TPCCDataGenerator.fillTables draws n) db) :
    BooksAgree (TPCCDataGenerator.fillTables draws n) db :=
  h.invariant (TPCCDataGenerator.booksAgree_fillTables draws n) fun _ _ _ hs hc hst =>
    callStep_booksAgree hs hc hst

theorem booksAgree_of_reaches_orderOne : ∃ db,
    callStep (TPCCDataGenerator.fillTables .plain 1) (granted (orderItems [(1, 5)])) = some db ∧
    BooksAgree (TPCCDataGenerator.fillTables .plain 1) db := by
  have hc := orderItems_succeeds [(1, 5)] (TPCCDataGenerator.sized_fillTables .plain 1) (by simp)
  obtain ⟨db, hst⟩ := callStep_of_succeeds hc
  have hsettles : Settles (TPCCDataGenerator.fillTables .plain 1) (granted (orderItems [(1, 5)])) := hc
  exact ⟨db, hst, booksAgree_of_reaches (.next .start hsettles hst)⟩

end Tpcc

end HawkTxn
