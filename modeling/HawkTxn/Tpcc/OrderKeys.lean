/-
The keys of orders, new orders and order lines (`tpcc_transaction.cpp`, `tpcc_data_generator.cpp`).

A New-Order takes the district's next number in its first write. A denial later on leaves the number taken: it may have
no order, an order without a new-order row, or an order with some of its lines. None of this breaks the keys.

Results:
- `orderKeys_fillTables`: the generated data satisfies `OrderKeys`;
- `callStep_orderKeys`: every call keeps it, whatever it returns;
- `orderKeys_of_reaches`: it holds after every sequence of calls.
-/
import HawkTxn.Tpcc.Calls

namespace HawkTxn

open HawkTxn.Core

namespace Tpcc

open TPCCDatabase

/-! ## Keys -/

def OrderLine.key (ol : OrderLine) : (ℤ × ℤ × ℤ) × ℤ := (ol.orderKey, ol.ol_number)

def TPCCDatabase.orderKeys (db : TPCCDatabase) : List (ℤ × ℤ × ℤ) := db.orders.map Order.key

/-- the district's next number is greater -/
def TPCCDatabase.Taken (db : TPCCDatabase) (k : ℤ × ℤ × ℤ) : Prop :=
  ∃ district, db.getDistrict k.2.1 k.1 = some district ∧ k.2.2 < district.d_next_o_id

/-- no key occurs twice, and rows belong to orders -/
structure OrderKeys (db : TPCCDatabase) : Prop where
  taken : ∀ k ∈ db.orderKeys, db.Taken k
  orders : db.orderKeys.Nodup
  new_orders : (db.new_orders.map NewOrder.key).Nodup
  order_lines : (db.order_lines.map OrderLine.key).Nodup
  new_order_of : ∀ no ∈ db.new_orders, no.key ∈ db.orderKeys
  order_line_of : ∀ ol ∈ db.order_lines, ol.orderKey ∈ db.orderKeys

variable {db db' : TPCCDatabase} {out : Outside} {k : ℤ × ℤ × ℤ} {m : ℕ} {n : ℕ} {draws : Draws}

/-- what `OrderKeys` depends on -/
theorem OrderKeys.of_same (h : OrderKeys db) (htaken : ∀ k, db.Taken k → db'.Taken k)
    (horders : db'.orderKeys = db.orderKeys) (hnew : db'.new_orders = db.new_orders)
    (hlines : db'.order_lines.map OrderLine.key = db.order_lines.map OrderLine.key) : OrderKeys db' where
  taken := by
    rw [horders]
    exact fun k hk => htaken k (h.taken k hk)
  orders := horders ▸ h.orders
  new_orders := hnew ▸ h.new_orders
  order_lines := hlines ▸ h.order_lines
  new_order_of := by
    rw [hnew, horders]
    exact h.new_order_of
  order_line_of := by
    intro ol hol
    have hkey : ol.key ∈ db.order_lines.map OrderLine.key := hlines ▸ List.mem_map_of_mem hol
    obtain ⟨ol', hol', heq⟩ := List.mem_map.1 hkey
    have horder : ol'.orderKey = ol.orderKey := congrArg Prod.fst heq
    rw [horders, ← horder]
    exact h.order_line_of ol' hol'

/-- a district row is replaced by one whose next number is not smaller -/
theorem taken_set {i : ℤ} {row new : District} (hpos : 0 ≤ i) (hrow : db.districts[i.toNat]? = some row)
    (hle : row.d_next_o_id ≤ new.d_next_o_id) (h : db.Taken k) :
    ({ db with districts := db.districts.set i.toNat new } : TPCCDatabase).Taken k := by
  obtain ⟨district, hdistrict, hlt⟩ := h
  have hlen : i.toNat < db.districts.length := (List.getElem?_eq_some_iff.1 hrow).1
  unfold Taken getDistrict at *
  rw [rowAt_set hpos hlen]
  split_ifs with heq
  · refine ⟨new, rfl, ?_⟩
    rw [heq] at hdistrict
    have hsame : district = row := Option.some.inj ((rowAt_eq_some.1 hdistrict).2.symm.trans hrow)
    exact lt_of_lt_of_le hlt (hsame ▸ hle)
  · exact ⟨district, hdistrict, hlt⟩

/-! ## Generated data -/

/-- a table that is filled warehouse by warehouse and district by district -/
theorem nodup_table {ρ : Type} {rows : ℤ → ℤ → List ρ} (warehouse district : ρ → ℤ) (hrows : ∀ w d, (rows w d).Nodup)
    (hwarehouse : ∀ w d, ∀ row ∈ rows w d, warehouse row = w) (hdistrict : ∀ w d, ∀ row ∈ rows w d, district row = d) :
    ((intRange 1 n).flatMap fun w => (intRange 1 10).flatMap (rows w)).Nodup := by
  refine nodup_flatMap_of_key (k := warehouse) (nodup_intRange 1 n) ?_ ?_
  · intro w _
    refine nodup_flatMap_of_key (k := district) (nodup_intRange 1 10) (fun d _ => hrows w d) ?_
    exact fun d _ row hrow => hdistrict w d row hrow
  · intro w _ row hrow
    obtain ⟨d, -, hrow⟩ := List.mem_flatMap.1 hrow
    exact hwarehouse w d row hrow

namespace TPCCDataGenerator

theorem orderKeys_fillTables_eq : (fillTables draws n).orderKeys =
    (intRange 1 n).flatMap fun w => (intRange 1 10).flatMap fun d => (intRange 1 3000).map fun o => (w, d, o) := by
  rw [TPCCDatabase.orderKeys, orders_fillTables]
  simp only [List.map_flatMap, List.map_map]
  rfl

theorem mem_orderKeys_fillTables {w d o : ℤ} : (w, d, o) ∈ (fillTables draws n).orderKeys ↔
    w ∈ intRange 1 n ∧ d ∈ intRange 1 10 ∧ o ∈ intRange 1 3000 := by
  rw [orderKeys_fillTables_eq]
  simp only [List.mem_flatMap, List.mem_map, Prod.mk.injEq]
  refine ⟨?_, ?_⟩
  · intro h
    obtain ⟨w', hw, d', hd, o', ho, rfl, rfl, rfl⟩ := h
    exact ⟨hw, hd, ho⟩
  · intro h
    obtain ⟨hw, hd, ho⟩ := h
    exact ⟨w, hw, d, hd, o, ho, rfl, rfl, rfl⟩

theorem eq_of_mem_newOrders_keys {w d o : ℤ} (h : k ∈ (newOrders w d o).map NewOrder.key) : k = (w, d, o) := by
  unfold newOrders at h
  split_ifs at h
  · simp at h
  · exact List.mem_singleton.1 h

/-- **The generated data.** -/
theorem orderKeys_fillTables (draws : Draws) (n : ℕ) : OrderKeys (fillTables draws n) where
  taken := by
    intro h hk
    obtain ⟨w, d, o⟩ := h
    obtain ⟨hw, hd, ho⟩ := mem_orderKeys_fillTables.1 hk
    rw [mem_intRange] at hw ho
    exact ⟨_, getDistrict_fillTables draws hw.1 hw.2 hd, Int.lt_add_one_of_le ho.2⟩
  orders := by
    rw [orderKeys_fillTables_eq]
    refine nodup_table (fun k => k.1) (fun k => k.2.1) (fun w d => ?_) ?_ ?_
    · exact (nodup_intRange 1 3000).map fun o o' h => congrArg (fun k => k.2.2) h
    · simp +contextual
    · simp +contextual
  new_orders := by
    rw [new_orders_fillTables]
    simp only [List.map_flatMap]
    refine nodup_table (fun k => k.1) (fun k => k.2.1) (fun w d => ?_) ?_ ?_
    · refine nodup_flatMap_of_key (k := fun k => k.2.2) (nodup_intRange 1 3000) ?_ ?_
      · intro o _
        unfold newOrders
        split_ifs <;> simp
      · intro o _ k hk
        rw [eq_of_mem_newOrders_keys hk]
    · intro w d k hk
      obtain ⟨o, -, hk⟩ := List.mem_flatMap.1 hk
      rw [eq_of_mem_newOrders_keys hk]
    · intro w d k hk
      obtain ⟨o, -, hk⟩ := List.mem_flatMap.1 hk
      rw [eq_of_mem_newOrders_keys hk]
  order_lines := by
    rw [order_lines_fillTables]
    simp only [List.map_flatMap, List.map_map]
    refine nodup_table (fun k => k.1.1) (fun k => k.1.2.1) (fun w d => ?_) ?_ ?_
    · refine nodup_flatMap_of_key (k := fun k => k.1.2.2) (nodup_intRange 1 3000) ?_ ?_
      · exact fun o _ => (nodup_intRange 1 _).map fun i i' h => congrArg Prod.snd h
      · intro o _ k hk
        obtain ⟨i, -, rfl⟩ := List.mem_map.1 hk
        rfl
    · intro w d k hk
      obtain ⟨o, -, hk⟩ := List.mem_flatMap.1 hk
      obtain ⟨i, -, rfl⟩ := List.mem_map.1 hk
      rfl
    · intro w d k hk
      obtain ⟨o, -, hk⟩ := List.mem_flatMap.1 hk
      obtain ⟨i, -, rfl⟩ := List.mem_map.1 hk
      rfl
  new_order_of := by
    intro no hno
    rw [new_orders_fillTables] at hno
    obtain ⟨w, hw, hno⟩ := List.mem_flatMap.1 hno
    obtain ⟨d, hd, hno⟩ := List.mem_flatMap.1 hno
    obtain ⟨o, ho, hno⟩ := List.mem_flatMap.1 hno
    rw [eq_of_mem_newOrders_keys (List.mem_map_of_mem hno)]
    exact mem_orderKeys_fillTables.2 ⟨hw, hd, ho⟩
  order_line_of := by
    intro ol hol
    rw [order_lines_fillTables] at hol
    obtain ⟨w, hw, hol⟩ := List.mem_flatMap.1 hol
    obtain ⟨d, hd, hol⟩ := List.mem_flatMap.1 hol
    obtain ⟨o, ho, hol⟩ := List.mem_flatMap.1 hol
    obtain ⟨i, -, rfl⟩ := List.mem_map.1 hol
    exact mem_orderKeys_fillTables.2 ⟨hw, hd, ho⟩

end TPCCDataGenerator

/-! ## New-Order -/

/-- the number has been taken, and no order has it yet -/
structure Reserved (k : ℤ × ℤ × ℤ) (db : TPCCDatabase) : Prop where
  keys : OrderKeys db
  taken : db.Taken k
  fresh : k ∉ db.orderKeys

/-- the order is there, its new-order row and its lines are not -/
structure Appended (k : ℤ × ℤ × ℤ) (db : TPCCDatabase) : Prop where
  keys : OrderKeys db
  order : k ∈ db.orderKeys
  new_order : k ∉ db.new_orders.map NewOrder.key
  lines : ∀ ol ∈ db.order_lines, ol.orderKey ≠ k

/-- the order is there, with m lines at most -/
structure Lined (k : ℤ × ℤ × ℤ) (m : ℕ) (db : TPCCDatabase) : Prop where
  keys : OrderKeys db
  order : k ∈ db.orderKeys
  lines : ∀ ol ∈ db.order_lines, ol.orderKey = k → ol.ol_number ≤ m

/-- tables that no key is in -/
theorem OrderKeys.of_rows (h : OrderKeys db) (hdistricts : db'.districts = db.districts)
    (horders : db'.orders = db.orders) (hnew : db'.new_orders = db.new_orders)
    (hlines : db'.order_lines = db.order_lines) : OrderKeys db' := by
  refine h.of_same ?_ (by rw [orderKeys, horders, orderKeys]) hnew (by rw [hlines])
  intro k hk
  unfold Taken getDistrict at *
  rwa [hdistricts]

theorem OrderKeys.reserve {d_id w_id : ℤ} {row : District} (h : OrderKeys db) (hpos : 0 ≤ districtPosition d_id w_id)
    (hrow : db.districts[(districtPosition d_id w_id).toNat]? = some row) :
    Reserved (w_id, d_id, row.d_next_o_id) { db with
      districts := db.districts.set (districtPosition d_id w_id).toNat
        { row with d_next_o_id := row.d_next_o_id + 1 } } where
  keys := h.of_same (fun _ hk => taken_set hpos hrow (Int.le_add_one le_rfl) hk) rfl rfl rfl
  taken := by
    have hlen := (List.getElem?_eq_some_iff.1 hrow).1
    refine ⟨{ row with d_next_o_id := row.d_next_o_id + 1 }, ?_, Int.lt_succ row.d_next_o_id⟩
    rw [getDistrict, rowAt_set hpos hlen, if_pos rfl]
  fresh := by
    intro hmem
    obtain ⟨district, hdistrict, hlt⟩ := h.taken _ hmem
    have hsame : district = row := Option.some.inj ((rowAt_eq_some.1 hdistrict).2.symm.trans hrow)
    rw [hsame] at hlt
    exact lt_irrefl _ hlt

theorem Reserved.append {order : Order} (h : Reserved k db) (hkey : order.key = k) :
    Appended k { db with orders := db.orders ++ [order] } where
  keys := by
    have heq : ({ db with orders := db.orders ++ [order] } : TPCCDatabase).orderKeys = db.orderKeys ++ [k] := by
      simp [orderKeys, hkey]
    refine ⟨?_, ?_, h.keys.new_orders, h.keys.order_lines, ?_, ?_⟩
    · intro k' hk'
      rw [heq] at hk'
      rcases List.mem_append.1 hk' with hk' | hk'
      · exact h.keys.taken k' hk'
      · rw [List.mem_singleton.1 hk']
        exact h.taken
    · rw [heq]
      exact List.nodup_append.2 ⟨h.keys.orders, List.nodup_singleton k, fun a ha b hb heq =>
        h.fresh (List.mem_singleton.1 hb ▸ heq ▸ ha)⟩
    · intro no hno
      rw [heq]
      exact List.mem_append_left _ (h.keys.new_order_of no hno)
    · intro ol hol
      rw [heq]
      exact List.mem_append_left _ (h.keys.order_line_of ol hol)
  order := List.mem_map.2 ⟨order, List.mem_append_right _ (List.mem_singleton_self order), hkey⟩
  new_order := by
    intro hmem
    obtain ⟨no, hno, rfl⟩ := List.mem_map.1 hmem
    exact h.fresh (h.keys.new_order_of no hno)
  lines := by
    rintro ol hol rfl
    exact h.fresh (h.keys.order_line_of ol hol)

theorem Appended.append {no : NewOrder} (h : Appended k db) (hkey : no.key = k) :
    Lined k 0 { db with new_orders := db.new_orders ++ [no] } where
  keys := by
    refine ⟨h.keys.taken, h.keys.orders, ?_, h.keys.order_lines, ?_, h.keys.order_line_of⟩
    · rw [List.map_append]
      refine List.nodup_append.2 ⟨h.keys.new_orders, List.nodup_singleton no.key, ?_⟩
      intro a ha b hb heq
      exact h.new_order (hkey ▸ List.mem_singleton.1 hb ▸ heq ▸ ha)
    · intro no' hno'
      rcases List.mem_append.1 hno' with hno' | hno'
      · exact h.keys.new_order_of no' hno'
      · rw [List.mem_singleton.1 hno', hkey]
        exact h.order
  order := h.order
  lines ol hol heq := absurd heq (h.lines ol hol)

theorem Lined.append {ol : OrderLine} (h : Lined k m db) (hkey : ol.orderKey = k) (hnumber : ol.ol_number = m + 1) :
    Lined k (m + 1) { db with order_lines := db.order_lines ++ [ol] } where
  keys := by
    refine ⟨h.keys.taken, h.keys.orders, h.keys.new_orders, ?_, h.keys.new_order_of, ?_⟩
    · rw [List.map_append]
      refine List.nodup_append.2 ⟨h.keys.order_lines, List.nodup_singleton ol.key, ?_⟩
      rintro _ ha b hb rfl
      obtain ⟨ol', hol', heq⟩ := List.mem_map.1 ha
      have hsame : ol'.key = ol.key := heq.trans (List.mem_singleton.1 hb)
      have hle := h.lines ol' hol' ((congrArg Prod.fst hsame).trans hkey)
      have hnumber' : ol'.ol_number = ol.ol_number := congrArg Prod.snd hsame
      omega
    · intro ol' hol'
      rcases List.mem_append.1 hol' with hol' | hol'
      · exact h.keys.order_line_of ol' hol'
      · rw [List.mem_singleton.1 hol', hkey]
        exact h.order
  order := h.order
  lines := by
    intro ol' hol' heq
    rcases List.mem_append.1 hol' with hol' | hol'
    · have hle := h.lines ol' hol' heq
      push_cast
      omega
    · rw [List.mem_singleton.1 hol', hnumber]
      push_cast
      exact le_rfl

theorem zipIdx_position {α : Type} {l : List α} {done rest : List (α × ℕ)} {a : α × ℕ}
    (h : l.zipIdx = done ++ a :: rest) : a.2 = done.length := by
  have hget : l.zipIdx[done.length]? = some a := by rw [h, List.getElem?_append_right le_rfl, Nat.sub_self]; rfl
  rw [List.getElem?_zipIdx] at hget
  obtain ⟨b, -, rfl⟩ := Option.map_eq_some_iff.1 hget
  exact zero_add _

namespace TPCCNewOrderTransaction

/-- the i-th item adds the line with number i + 1 -/
theorem orderItem_lined (tx : TPCCNewOrderTransaction) (o_id : ℤ) (total : ℚ) (item : (ℤ × ℤ) × ℕ) :
    Triple (On (Lined (tx.w_id, tx.d_id, o_id) item.2)) (tx.orderItem .plain out o_id total item)
      (fun _ => On (Lined (tx.w_id, tx.d_id, o_id) (item.2 + 1))) (On OrderKeys) := by
  unfold orderItem
  refine Triple.bind (acquire_on fun _ h => h.keys) fun _ => ?_
  refine Triple.bind (acquire_on fun _ h => h.keys) fun _ => ?_
  refine Triple.bind (updateRow_on (G := fun _ => Lined (tx.w_id, tx.d_id, o_id) item.2) ?_) fun _ => ?_
  · exact fun db row h _ _ => ⟨h.keys.of_rows rfl rfl rfl rfl, h.order, h.lines⟩
  refine Triple.bind (acquire_on fun _ h => h.keys) fun _ => ?_
  refine Triple.bind (write_on (G := Lined (tx.w_id, tx.d_id, o_id) (item.2 + 1)) ?_) fun _ => ?_
  · exact fun db h => h.append rfl rfl
  · exact Triple.pure fun _ hs => hs

theorem execute_orderKeys (tx : TPCCNewOrderTransaction) :
    Triple (On OrderKeys) (tx.execute out) (fun _ => On OrderKeys) (On OrderKeys) := by
  unfold execute executeWith
  refine Triple.bind (acquire_on fun _ h => h) fun _ => ?_
  refine Triple.bind (acquire_on fun _ h => h) fun _ => ?_
  rw [RowAccess.plain_updateDistrict]
  refine Triple.bind (updateRow_on (G := fun row => Reserved (tx.w_id, tx.d_id, row.d_next_o_id)) ?_)
    fun district => ?_
  · exact fun db row h hpos hrow => h.reserve hpos hrow
  refine Triple.bind (acquire_on fun _ h => h.keys) fun _ => ?_
  refine Triple.bind getCurrentTimestamp_on fun o_entry_d => ?_
  refine Triple.bind (acquire_on fun _ h => h.keys) fun _ => ?_
  refine Triple.bind (acquire_on fun _ h => h.keys) fun _ => ?_
  refine Triple.bind (write_on (G := Appended (tx.w_id, tx.d_id, district.d_next_o_id)) ?_) fun _ => ?_
  · exact fun db h => h.append rfl
  refine Triple.bind (write_on (G := Lined (tx.w_id, tx.d_id, district.d_next_o_id) 0) ?_) fun _ => ?_
  · exact fun db h => h.append rfl
  refine Triple.bind (Triple.foldlM
    (I := fun done _ => On (Lined (tx.w_id, tx.d_id, district.d_next_o_id) done.length)) ?_) fun total => ?_
  · intro done item rest total hitems
    rw [← zipIdx_position hitems, List.length_append, ← zipIdx_position hitems]
    exact tx.orderItem_lined district.d_next_o_id total item
  rw [RowAccess.plain_updateWarehouse]
  refine Triple.bind (updateRow_on (G := fun _ => OrderKeys) ?_) fun _ => releaseAllLocks_on
  exact fun db row h _ _ => h.keys.of_rows rfl rfl rfl rfl

end TPCCNewOrderTransaction

/-! ## Calls -/

theorem keptByPayment_orderKeys : KeptByPayment OrderKeys where
  warehouse _ _ _ _ h _ _ := h.of_rows rfl rfl rfl rfl
  district _ _ row _ h hpos hrow :=
    h.of_same (fun _ hk => taken_set hpos hrow (Int.le_refl row.d_next_o_id) hk) rfl rfl rfl
  customer _ _ _ _ _ _ h _ _ := h.of_rows rfl rfl rfl rfl
  history _ _ h := h.of_rows rfl rfl rfl rfl

theorem keptByDelivery_orderKeys : KeptByDelivery OrderKeys where
  carrier _ _ _ _ h hrow :=
    h.of_same (fun _ hk => hk) (map_set_of_key (f := Order.key) hrow rfl) rfl rfl
  date _ _ _ _ h hrow := h.of_same (fun _ hk => hk) rfl rfl (map_set_of_key hrow rfl)
  customers _ _ h _ := h.of_rows rfl rfl rfl rfl

theorem TPCCTransaction.body_orderKeys (tx : TPCCTransaction) :
    Triple (On OrderKeys) (tx.body out) (fun _ => On OrderKeys) (On OrderKeys) := by
  cases tx with
  | newOrder tx => exact tx.execute_orderKeys
  | payment tx => exact tx.execute_keeps keptByPayment_orderKeys
  | orderStatus tx => exact tx.execute_keeps
  | delivery tx => exact TPCCDeliveryTransaction.execute_keeps keptByDelivery_orderKeys tx
  | stockLevel tx => exact tx.execute_keeps

/-- every call keeps the keys, whatever it returns -/
theorem callStep_orderKeys {c : Call} (h : OrderKeys db) (hst : callStep db c = some db') : OrderKeys db' := by
  obtain ⟨⟨returned, s⟩, hrun, rfl⟩ := Option.map_eq_some_iff.1 hst
  exact execute_on c.tx.body_orderKeys hrun h

/-- **Order keys stay unique.** After every sequence of calls on the generated data, whatever the lock outcomes: no two
orders, new orders or order lines have the same key, the number of an order is smaller than its district's next, and
every new order and order line belongs to an order. -/
theorem orderKeys_of_reaches (h : Reaches callStep (TPCCDataGenerator.fillTables draws n) db) : OrderKeys db :=
  h.invariant (TPCCDataGenerator.orderKeys_fillTables draws n) fun _ _ _ hs _ hst => callStep_orderKeys hs hst

/-- a New-Order for one item is run on the generated data -/
theorem orderKeys_of_reaches_orderOne : ∃ db,
    callStep (TPCCDataGenerator.fillTables .plain 1) (granted (orderItems [(1, 5)])) = some db ∧ OrderKeys db := by
  have hc := orderItems_succeeds [(1, 5)] (TPCCDataGenerator.sized_fillTables .plain 1) (by simp)
  obtain ⟨db, hst⟩ := callStep_of_succeeds hc
  exact ⟨db, hst, orderKeys_of_reaches (.next .start trivial hst)⟩

end Tpcc

end HawkTxn
