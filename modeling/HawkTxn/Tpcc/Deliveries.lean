/-
Delivered orders (`tpcc_transaction.cpp`, `TPCCDeliveryTransaction::execute`).

A Delivery picks the oldest new order of each district, dates its lines, and adds their total to the balance of the
customer. The code does not take the new order away: nothing removes a row of that table.

Results:
- `delivery_charges`: a Delivery that returns true charges the customers of exactly the orders in `delivered`;
- `callStep_deliveredOnce_iff`: a Delivery with anything to deliver leaves a delivered order among the new ones;
- `delivered_once_iff`: orders are delivered once, and are then no longer new, exactly in the runs in which no Delivery
  finds a new order in its warehouse.
-/
import HawkTxn.Tpcc.OrderKeys

namespace HawkTxn

open HawkTxn.Core Program

namespace Tpcc

open TPCCDeliveryTransaction

/-! ## Model -/

/-- the new orders of one Delivery whose orders are found -/
def TPCCDeliveryTransaction.delivered (tx : TPCCDeliveryTransaction) (db : TPCCDatabase) : List NewOrder :=
  ((intRange 1 10).filterMap (tx.oldestNewOrder db)).filter fun no =>
    (TPCCDeliveryTransaction.findOrder db no).isSome

/-- the new orders that a call delivers -/
def Call.delivered (c : Call) (db : TPCCDatabase) : List NewOrder :=
  match c.tx with
  | .delivery tx => tx.delivered db
  | _ => []

/-- a call together with a log of what has been delivered -/
def deliveryStep (st : TPCCDatabase × List NewOrder) (c : Call) : Option (TPCCDatabase × List NewOrder) :=
  (callStep st.1 c).map fun db => (db, st.2 ++ c.delivered st.1)

/-- nothing was delivered twice, and nothing delivered is new -/
structure DeliveredOnce (st : TPCCDatabase × List NewOrder) : Prop where
  once : st.2.Nodup
  retired : ∀ no ∈ st.2, no ∉ st.1.new_orders

/-- a Delivery to a warehouse that has a new order -/
def FindsNewOrder (db : TPCCDatabase) : TPCCTransaction → Prop
  | .delivery tx => ∃ no ∈ db.new_orders, no.no_w_id = tx.w_id ∧ 1 ≤ no.no_d_id ∧ no.no_d_id ≤ 10
  | _ => False

variable {db db₀ db' : TPCCDatabase} {out : Outside} {n : ℕ} {no : NewOrder} {d_id : ℤ} {tx : TPCCDeliveryTransaction}

namespace TPCCDeliveryTransaction

/-! ## What a Delivery finds -/

theorem oldestNewOrder_isSome (hno : no ∈ db.new_orders) (hw : no.no_w_id = tx.w_id) (hd : no.no_d_id = d_id) :
    (tx.oldestNewOrder db d_id).isSome := by
  unfold oldestNewOrder
  obtain ⟨pre, suf, hsplit⟩ := List.append_of_mem hno
  rw [hsplit, List.foldl_append, List.foldl_cons]
  -- once there is one, there always is
  refine List.foldlRecOn (motive := fun oldest : Option NewOrder => oldest.isSome) suf _ ?_ ?_
  · rw [if_pos ⟨hw, hd⟩]
    split
    · rfl
    · split_ifs <;> rfl
  · intro oldest holdest new _
    split_ifs
    · split
      · rfl
      · split_ifs <;> rfl
    · exact holdest

theorem findOrder_isSome (h : OrderKeys db) (hno : no ∈ db.new_orders) : (findOrder db no).isSome := by
  obtain ⟨order, horder, hkey⟩ := List.mem_map.1 (h.new_order_of no hno)
  obtain ⟨i, hi⟩ := List.getElem?_of_mem horder
  unfold findOrder
  rw [List.find?_isSome]
  refine ⟨(order, i), List.mem_zipIdx_iff_getElem?.2 hi, ?_⟩
  have hw : order.o_w_id = no.no_w_id := congrArg (fun k => k.1) hkey
  have hd : order.o_d_id = no.no_d_id := congrArg (fun k => k.2.1) hkey
  have ho : order.o_id = no.no_o_id := congrArg (fun k => k.2.2) hkey
  simp [hw, hd, ho]

theorem mem_delivered : no ∈ tx.delivered db ↔
    (∃ d_id ∈ intRange 1 10, tx.oldestNewOrder db d_id = some no) ∧ (findOrder db no).isSome := by
  unfold delivered
  rw [List.mem_filter, List.mem_filterMap]

/-- something is delivered exactly if there is a new order -/
theorem delivered_ne_nil_iff (h : OrderKeys db) : tx.delivered db ≠ [] ↔ FindsNewOrder db (.delivery tx) := by
  refine ⟨?_, ?_⟩
  · intro hne
    obtain ⟨no, hno⟩ := List.exists_mem_of_ne_nil _ hne
    obtain ⟨⟨d_id, hd_id, hold⟩, -⟩ := mem_delivered.1 hno
    obtain ⟨hmem, hw, rfl⟩ := oldestNewOrder_mem hold
    exact ⟨no, hmem, hw, mem_intRange.1 hd_id⟩
  · intro h
    obtain ⟨no, hno, hw, hd⟩ := h
    obtain ⟨oldest, hold⟩ := Option.isSome_iff_exists.1 (oldestNewOrder_isSome hno hw rfl)
    have hmem : oldest ∈ tx.delivered db :=
      mem_delivered.2 ⟨⟨no.no_d_id, mem_intRange.2 hd, hold⟩, findOrder_isSome h (oldestNewOrder_mem hold).1⟩
    exact List.ne_nil_of_mem hmem

/-! ## What a Delivery charges -/

/-- the customer of a new order is charged what its lines cost -/
def charge (db : TPCCDatabase) (customers : List Customer) (no : NewOrder) : List Customer :=
  match findOrder db no with
  | none => customers
  | some order =>
    customers.modify (customerPosition order.1.o_c_id order.1.o_d_id order.1.o_w_id).toNat fun customer =>
      { customer with
        c_balance := customer.c_balance + lineTotal no db.order_lines
        c_delivery_cnt := customer.c_delivery_cnt + 1 }

variable {customers : List Customer}

/-- the customers follow the districts the Delivery has been to -/
theorem along_charging (tx : TPCCDeliveryTransaction) (db₀ : TPCCDatabase) : tx.Along fun done =>
    Charging db₀ ((done.filterMap (tx.oldestNewOrder db₀)).foldl (charge db₀) db₀.customers) where
  dates _ := keptByDates_charging
  idle done d_id db h hidle := by
    rw [h.oldestNewOrder] at hidle
    rw [List.filterMap_append, List.foldl_append]
    cases hold : tx.oldestNewOrder db₀ d_id with
    | none =>
      rw [List.filterMap_cons_none hold]
      exact h
    | some no =>
      rw [hold, Option.bind_some] at hidle
      have hfound : (findOrder db no).map (Prod.map orderColumns id) =
          (findOrder db₀ no).map (Prod.map orderColumns id) := h.found
      have hnone : findOrder db₀ no = none := by simpa [hidle] using hfound
      rw [List.filterMap_cons_some hold]
      simp only [List.filterMap_nil, List.foldl_cons, List.foldl_nil, charge, hnone]
      exact h
  charge done db d_id no order row h _ hold horder _ hrow := by
    rw [h.oldestNewOrder] at hold
    refine ⟨h.new_orders, h.orders, h.order_lines, ?_⟩
    obtain ⟨order₀, horder₀, heq⟩ := Option.map_eq_some_iff.1 (h.found.symm.trans (congrArg _ horder))
    have hplace : order₀.1.customerPlace = order.1.customerPlace := customerPlace_of_columns (congrArg Prod.fst heq)
    rw [List.filterMap_append, List.foldl_append, List.filterMap_cons_some hold, ← h.customers]
    simp only [List.filterMap_nil, List.foldl_cons, List.foldl_nil, charge, horder₀]
    rw [← Order.customerPlace, hplace, List.modify_eq_set_getElem?, hrow, h.lineTotal]
    rfl

theorem execute_charging : Triple (On fun db => db = db₀) (tx.execute out)
    (fun _ => On (Charging db₀ (((intRange 1 10).filterMap (tx.oldestNewOrder db₀)).foldl (charge db₀) db₀.customers)))
    (fun _ => True) := by
  refine (execute_along (along_charging tx db₀)).weaken ?_ (fun _ _ hs => hs) fun _ _ => trivial
  rintro s rfl
  exact ⟨rfl, rfl, rfl, rfl⟩

end TPCCDeliveryTransaction

/-- **What a Delivery charges.** A Delivery that returns true adds, for every order in `delivered` and no other, what
its lines cost to the balance of its customer. -/
theorem delivery_charges {txn : Transaction} {s : Session}
    (h : (TPCCTransaction.delivery tx).execute out db txn = some (true, s)) :
    s.db.customers = (tx.delivered db).foldl (charge db) db.customers := by
  have hcharged := (execute_returned (F := fun db' => db' = db) tx.execute_charging h rfl).customers
  rw [hcharged, delivered, List.foldl_filter]
  congr 1
  funext customers no
  unfold charge
  split <;> simp_all

/-! ## Deliveries that return true -/

/-- the customers of all orders are there -/
structure Chargeable (n : ℕ) (db : TPCCDatabase) : Prop where
  sized : Sized n db
  customers : ∀ order ∈ db.orders, 0 ≤ customerPosition order.o_c_id order.o_d_id order.o_w_id ∧
    customerPosition order.o_c_id order.o_d_id order.o_w_id < n * 10 * 3000

theorem keptByDelivery_chargeable : KeptByDelivery (Chargeable n) where
  carrier db i order o_carrier_id h hrow := by
    refine ⟨keptByDelivery_sized.carrier db i order o_carrier_id h.sized hrow, ?_⟩
    intro order' horder'
    rcases List.mem_or_eq_of_mem_set horder' with horder' | rfl
    · exact h.customers order' horder'
    · exact h.customers order (List.mem_of_getElem? hrow)
  date db i ol ol_delivery_d h hrow := ⟨keptByDelivery_sized.date db i ol ol_delivery_d h.sized hrow, h.customers⟩
  customers db rows h hlen := ⟨keptByDelivery_sized.customers db rows h.sized hlen, h.customers⟩

/-- A Delivery returns true if every lock is granted and the customers of all orders are there. -/
theorem delivery_returns (hgranted : ∀ k, out.answer k = true) :
    TotalTriple (On (Chargeable n)) (tx.execute out) fun _ => On (Chargeable n) := by
  have hkept : KeptByDelivery (Chargeable n) := keptByDelivery_chargeable
  unfold execute executeWith
  refine TotalTriple.bind (TotalTriple.forM fun d_id _ => ?_) fun _ => releaseAllLocks_total
  unfold deliverDistrict
  refine TotalTriple.bind (readSome_total.post fun _ _ hs => hs.1) fun oldest => ?_
  cases oldest with
  | none => exact TotalTriple.pure fun _ hs => hs
  | some no =>
    unfold deliver
    refine TotalTriple.bind (acquire_total hgranted) fun _ => ?_
    refine TotalTriple.bind (acquire_total hgranted) fun _ => ?_
    refine TotalTriple.bind readSome_total fun order => ?_
    refine TotalTriple.of_fact (φ := ∀ o ∈ order, 0 ≤ customerPosition o.1.o_c_id o.1.o_d_id o.1.o_w_id ∧
      customerPosition o.1.o_c_id o.1.o_d_id o.1.o_w_id < n * 10 * 3000) ?_ fun hcustomer => ?_
    · rintro s ⟨hs, hfind⟩ o rfl
      exact hs.customers o.1 (List.mem_of_getElem? (findOrder_spec hfind).1)
    refine TotalTriple.bind (M := fun _ => On (Chargeable n)) ?_ fun _ => ?_
    · cases order with
      | none => exact TotalTriple.pure fun _ hs => hs.1
      | some order =>
        unfold deliverOrder
        apply write_total
        intro db hall
        obtain ⟨h, hfind⟩ := hall
        exact hkept.carrier db order.2 order.1 tx.o_carrier_id h (findOrder_spec hfind).1
    refine TotalTriple.bind readSome_total fun lines => ?_
    refine TotalTriple.bind (TotalTriple.foldlM (I := fun _ => On fun db => Chargeable n db ∧
      db.order_lines.length = lines) (fun i hi total => ?_) 0) fun total => ?_
    · unfold deliverLine
      refine TotalTriple.bind (readDb_total ?_) fun ol => TotalTriple.ite (fun _ => ?_) fun _ => ?_
      · intro db h
        obtain ⟨-, hlines⟩ := h
        have hlt : i < db.order_lines.length := hlines ▸ List.mem_range.1 hi
        exact ⟨_, List.getElem?_eq_getElem hlt⟩
      · refine TotalTriple.bind (acquire_total hgranted) fun _ => ?_
        refine TotalTriple.bind getCurrentTimestamp_total fun ol_delivery_d => ?_
        refine TotalTriple.bind (write_total (G := fun db => Chargeable n db ∧ db.order_lines.length = lines) ?_)
          fun _ => TotalTriple.pure fun _ hs => hs
        intro db hall
        obtain ⟨⟨h, hlines⟩, hol⟩ := hall
        exact ⟨hkept.date db i ol ol_delivery_d h hol, List.length_set.trans hlines⟩
      · exact TotalTriple.pure fun _ hs => hs.1
    · cases order with
      | none => exact TotalTriple.pure fun _ hs => hs.1
      | some order =>
        unfold chargeCustomer
        refine TotalTriple.bind (acquire_total hgranted) fun _ => ?_
        rw [RowAccess.plain_updateCustomer]
        refine TotalTriple.bind (updateRow_total (G := Chargeable n) ?_ ?_) fun _ => TotalTriple.pure fun _ hs => hs
        · intro db hall
          obtain ⟨h, -⟩ := hall
          rw [h.sized.customers]
          exact_mod_cast hcustomer order rfl
        · exact fun db row h => hkept.customers db _ h.1 List.length_set

theorem chargeable_fillTables (draws : Draws) (n : ℕ) : Chargeable n (TPCCDataGenerator.fillTables draws n) where
  sized := TPCCDataGenerator.sized_fillTables draws n
  customers := by
    intro order horder
    rw [TPCCDataGenerator.orders_fillTables] at horder
    obtain ⟨w, hw, horder⟩ := List.mem_flatMap.1 horder
    obtain ⟨d, hd, horder⟩ := List.mem_flatMap.1 horder
    obtain ⟨o, ho, rfl⟩ := List.mem_map.1 horder
    -- the order has a customer id from the shuffled ones
    have hlen : (draws.c_ids w d).length = 3000 := by
      rw [(draws.c_ids_perm w d).length_eq, length_intRange]
      rfl
    rw [mem_intRange] at hw hd ho
    have hlt : (o - 1).toNat < (draws.c_ids w d).length := by omega
    have hc : (draws.c_ids w d).getD (o - 1).toNat 0 ∈ intRange 1 3000 := by
      rw [List.getD_eq_getElem?_getD, List.getElem?_eq_getElem hlt]
      exact (draws.c_ids_perm w d).mem_iff.1 (List.getElem_mem hlt)
    rw [mem_intRange] at hc
    simp only [customerPosition, TPCCDataGenerator.order]
    omega

/-! ## Runs -/

theorem keptByDelivery_new_orders (new_orders : List NewOrder) :
    KeptByDelivery fun db => db.new_orders = new_orders where
  carrier _ _ _ _ h _ := h
  date _ _ _ _ h _ := h
  customers _ _ h _ := h

/-- **Delivered orders stay new.** A call after which nothing that was delivered is new has found nothing to deliver. -/
theorem callStep_deliveredOnce_iff {st st' : TPCCDatabase × List NewOrder} {c : Call} (hkeys : OrderKeys st.1)
    (hlog : st.2 = []) (hst : deliveryStep st c = some st') : DeliveredOnce st' ↔ ¬ FindsNewOrder st.1 c.tx := by
  obtain ⟨db', hcall, rfl⟩ := Option.map_eq_some_iff.1 hst
  rw [hlog, List.nil_append]
  obtain ⟨tx, out, txn⟩ := c
  have hnothing : DeliveredOnce (db', []) := ⟨List.nodup_nil, fun _ hno => absurd hno List.not_mem_nil⟩
  cases tx with
  | delivery tx =>
    rw [← delivered_ne_nil_iff hkeys, not_not]
    refine ⟨?_, ?_⟩
    · intro honce
      by_contra hne
      obtain ⟨no, hno⟩ := List.exists_mem_of_ne_nil _ hne
      obtain ⟨⟨d_id, -, hold⟩, -⟩ := mem_delivered.1 hno
      have hnew := (oldestNewOrder_mem hold).1
      -- no row of the table has gone
      obtain ⟨⟨returned, s⟩, hrun, rfl⟩ := Option.map_eq_some_iff.1 hcall
      have hsame : s.db.new_orders = st.1.new_orders :=
        execute_on (G := fun db => db.new_orders = st.1.new_orders)
          (tx.execute_keeps (keptByDelivery_new_orders st.1.new_orders)) hrun (Eq.refl st.1.new_orders)
      rw [← hsame] at hnew
      exact honce.retired no hno hnew
    · intro hnil
      have hcalled : Call.delivered ⟨.delivery tx, out, txn⟩ st.1 = [] := hnil
      rw [hcalled]
      exact hnothing
  | newOrder tx => exact iff_of_true hnothing id
  | payment tx => exact iff_of_true hnothing id
  | orderStatus tx => exact iff_of_true hnothing id
  | stockLevel tx => exact iff_of_true hnothing id

/-- **Orders are delivered once.** In every run of calls on the generated data that return true and in which no Delivery
finds a new order in its warehouse, no order is delivered twice and no delivered order is new; the next call that
returns true keeps this exactly if it is no Delivery that finds one. -/
theorem delivered_once_iff {draws : Draws} {st : TPCCDatabase × List NewOrder}
    (h : ReachesBy deliveryStep (fun st c => c.Succeeds st.1 ∧ ¬ FindsNewOrder st.1 c.tx)
      (TPCCDataGenerator.fillTables draws n, []) st) :
    DeliveredOnce st ∧ ∀ c st', c.Succeeds st.1 → deliveryStep st c = some st' →
      (DeliveredOnce st' ↔ ¬ FindsNewOrder st.1 c.tx) := by
  have hinv : OrderKeys st.1 ∧ st.2 = [] := by
    refine h.invariant (P := fun st => OrderKeys st.1 ∧ st.2 = [])
      ⟨TPCCDataGenerator.orderKeys_fillTables draws n, rfl⟩ ?_
    rintro st c st' ⟨hkeys, hlog⟩ ⟨-, hfinds⟩ hst
    obtain ⟨db', hcall, rfl⟩ := Option.map_eq_some_iff.1 hst
    refine ⟨callStep_orderKeys hkeys hcall, ?_⟩
    rw [hlog, List.nil_append]
    obtain ⟨tx, out, txn⟩ := c
    cases tx with
    | delivery tx => exact not_not.1 (mt (delivered_ne_nil_iff hkeys).1 hfinds)
    | _ => rfl
  have honce : DeliveredOnce st := by
    rw [← Prod.mk.eta (p := st), hinv.2]
    exact ⟨List.nodup_nil, fun _ hno => absurd hno List.not_mem_nil⟩
  exact ⟨honce, fun c st' _ hst => callStep_deliveredOnce_iff hinv.1 hinv.2 hst⟩

/-- a Delivery in warehouse 1 -/
def deliverAll : Call := granted (.delivery ⟨1, 1⟩)

/-- a run of one call -/
theorem reaches_deliveryStep {c : Call} {st : TPCCDatabase × List NewOrder} (hc : c.Succeeds db)
    (hfinds : ¬ FindsNewOrder db c.tx) (hst : deliveryStep (db, []) c = some st) :
    ReachesBy deliveryStep (fun st c => c.Succeeds st.1 ∧ ¬ FindsNewOrder st.1 c.tx) (db, []) st :=
  .next .start ⟨hc, hfinds⟩ hst

theorem delivered_once_iff_orderOne : ∃ st,
    deliveryStep (TPCCDataGenerator.fillTables .plain 1, []) (granted (orderItems [(1, 5)])) = some st ∧
    DeliveredOnce st ∧ ∀ c st', c.Succeeds st.1 → deliveryStep st c = some st' →
      (DeliveredOnce st' ↔ ¬ FindsNewOrder st.1 c.tx) := by
  have hc := orderItems_succeeds [(1, 5)] (TPCCDataGenerator.sized_fillTables .plain 1) (by simp)
  obtain ⟨db, hst⟩ := callStep_of_succeeds hc
  have hstep : deliveryStep (TPCCDataGenerator.fillTables .plain 1, []) (granted (orderItems [(1, 5)])) =
      some (db, []) := by
    rw [deliveryStep, hst]
    rfl
  have hother : ∀ db, ¬ FindsNewOrder db (orderItems [(1, 5)]) := fun _ => id
  exact ⟨_, hstep, delivered_once_iff (reaches_deliveryStep hc (hother _) hstep)⟩

theorem deliverAll_step (h : Chargeable 1 db) : deliverAll.Succeeds db ∧
    ∃ db', callStep db deliverAll = some db' ∧ Chargeable 1 db' ∧ db'.new_orders = db.new_orders := by
  have hc : deliverAll.Succeeds db := succeeds_of_total (G := Chargeable 1) (delivery_returns fun _ => rfl) h
  obtain ⟨db', hst⟩ := callStep_of_succeeds hc
  refine ⟨hc, db', hst, ?_⟩
  obtain ⟨⟨returned, s⟩, hrun, rfl⟩ := Option.map_eq_some_iff.1 hst
  refine ⟨execute_on (F := Chargeable 1) (G := Chargeable 1)
    (execute_keeps keptByDelivery_chargeable _) hrun h, ?_⟩
  exact execute_on (G := fun db' => db'.new_orders = db.new_orders)
    (execute_keeps (keptByDelivery_new_orders db.new_orders) _) hrun (Eq.refl db.new_orders)

/-- a New-Order of district 1 is delivered by two Deliveries -/
theorem twice_delivered (hkeys : OrderKeys db) (hdb : Chargeable 1 db) (hno : no ∈ db.new_orders)
    (hw : no.no_w_id = 1) (hd : 1 ≤ no.no_d_id ∧ no.no_d_id ≤ 10) : ∃ st st', deliverAll.Succeeds db ∧
      deliveryStep (db, []) deliverAll = some st ∧ ¬ DeliveredOnce st ∧
      deliverAll.Succeeds st.1 ∧ deliveryStep st deliverAll = some st' ∧ ¬ st'.2.Nodup := by
  obtain ⟨hc, db₁, hst, hdb₁, hnew⟩ := deliverAll_step hdb
  obtain ⟨hc₁, db₂, hst₁, -, -⟩ := deliverAll_step hdb₁
  have hstep : deliveryStep (db, []) deliverAll = some (db₁, deliverAll.delivered db) := by
    rw [deliveryStep, hst]
    rfl
  have hstep₁ : deliveryStep (db₁, deliverAll.delivered db) deliverAll =
      some (db₂, deliverAll.delivered db ++ deliverAll.delivered db₁) := by
    rw [deliveryStep, hst₁]
    rfl
  have hfinds : FindsNewOrder db deliverAll.tx := ⟨no, hno, hw, hd⟩
  refine ⟨_, _, hc, hstep, ?_, hc₁, hstep₁, ?_⟩
  · rw [callStep_deliveredOnce_iff hkeys rfl hstep]
    exact not_not.2 hfinds
  · -- the oldest new order is the same again
    have hold : ∀ d_id, oldestNewOrder ⟨1, 1⟩ db₁ d_id = oldestNewOrder ⟨1, 1⟩ db d_id := by
      intro d_id
      unfold oldestNewOrder
      rw [hnew]
    obtain ⟨oldest, hmem⟩ := List.exists_mem_of_ne_nil _ ((delivered_ne_nil_iff hkeys).2 hfinds)
    obtain ⟨⟨d_id, hd_id, holdest⟩, -⟩ := mem_delivered.1 hmem
    have hmem₁ : oldest ∈ deliverAll.delivered db₁ := by
      refine mem_delivered.2 ⟨⟨d_id, hd_id, (hold d_id).trans holdest⟩, ?_⟩
      exact findOrder_isSome (callStep_orderKeys hkeys hst) (hnew ▸ (oldestNewOrder_mem holdest).1)
    exact fun hnodup => List.disjoint_of_nodup_append hnodup hmem hmem₁

/-- orders of the generated data are delivered twice -/
theorem not_deliveredOnce_deliverAll : ∃ st st', deliverAll.Succeeds (TPCCDataGenerator.fillTables .plain 1) ∧
    deliveryStep (TPCCDataGenerator.fillTables .plain 1, []) deliverAll = some st ∧ ¬ DeliveredOnce st ∧
    deliverAll.Succeeds st.1 ∧ deliveryStep st deliverAll = some st' ∧ ¬ st'.2.Nodup := by
  have hmem : (⟨3000, 1, 1⟩ : NewOrder) ∈ (TPCCDataGenerator.fillTables .plain 1).new_orders := by
    rw [TPCCDataGenerator.new_orders_fillTables]
    refine List.mem_flatMap.2 ⟨1, mem_intRange.2 (by decide), List.mem_flatMap.2 ⟨1, mem_intRange.2 (by decide), ?_⟩⟩
    exact List.mem_flatMap.2 ⟨3000, mem_intRange.2 (by decide), by decide⟩
  exact twice_delivered (TPCCDataGenerator.orderKeys_fillTables .plain 1) (chargeable_fillTables .plain 1) hmem rfl
    (by decide)

end Tpcc

end HawkTxn
