/-
What a denied TPC-C call leaves behind (`tpcc_transaction.cpp`).

`abort` releases the locks and sets the status. The code keeps no old values, so what was written before the denied
request stays in the database.

Results:
- `denied_keeps_iff`: a call that returns false leaves the database as it was exactly if every write before the denied
  request assigned what was there (`Harmless`). For a New-Order, that is a denial of one of its first two requests; for
  a Payment, of the first, or of the next two if nothing is paid; an Order-Status and a Stock-Level never write. A
  Delivery has to find the carrier and the date it would set in every order and order line before the denial, and must
  not have charged a customer.
- `deniedPayment_writes`: a Payment that is denied the district has been added to the warehouse.
-/
import HawkTxn.Tpcc.LockCoverage

namespace HawkTxn

open HawkTxn.Core

namespace Tpcc

/-! ## Harmless denials -/

/-- what a request of a Delivery is for -/
inductive DeliveryStep where
  | newOrder
  /-- the carrier of the order, if it is found -/
  | order (order : Option (Order × ℕ))
  /-- the date of the order line -/
  | line (ol : OrderLine)
  /-- the balance of the customer -/
  | customer

namespace TPCCDeliveryTransaction

/-- the requests for the order lines of a new order -/
def lineSteps (no : NewOrder) (order_lines : List OrderLine) : List DeliveryStep :=
  (order_lines.filter fun ol => ol.Of no.no_o_id no.no_d_id no.no_w_id).map .line

def customerSteps (order : Option (Order × ℕ)) : List DeliveryStep := if order.isSome then [.customer] else []

/-- the requests for the oldest new order of a district -/
def districtSteps (tx : TPCCDeliveryTransaction) (db : TPCCDatabase) (d_id : ℤ) : List DeliveryStep :=
  match tx.oldestNewOrder db d_id with
  | none => []
  | some no => .newOrder :: .order (findOrder db no) :: (lineSteps no db.order_lines ++ customerSteps (findOrder db no))

/-- the requests of a Delivery, as long as they are granted -/
def steps (tx : TPCCDeliveryTransaction) (db : TPCCDatabase) : List DeliveryStep :=
  (intRange 1 10).flatMap (tx.districtSteps db)

/-- the write after the j-th request, if there is one, assigns what is there -/
def Idle (tx : TPCCDeliveryTransaction) (out : Outside) (j : ℕ) : DeliveryStep → Prop
  | .newOrder => True
  | .order order => ∀ o ∈ order, o.1.o_carrier_id = tx.o_carrier_id
  | .line ol => ol.ol_delivery_d = out.timestamp (j + 1)
  | .customer => False

end TPCCDeliveryTransaction

/-- the writes before the first denied request assign what is there -/
def Harmless (out : Outside) (db : TPCCDatabase) : TPCCTransaction → Prop
  | .newOrder _ => out.answer 0 = false ∨ out.answer 1 = false
  | .payment tx => out.answer 0 = false ∨ tx.h_amount = 0 ∧ (out.answer 1 = false ∨ out.answer 2 = false)
  | .orderStatus _ => True
  | .delivery tx => ∀ j, (∀ i ≤ j, out.answer i = true) → ∀ step ∈ (tx.steps db)[j]?, tx.Idle out j step
  | .stockLevel _ => True

variable {ρ : Type} {rows : List ρ} {row new : ρ} {i : ℕ}

theorem set_eq_self_iff (hrow : rows[i]? = some row) : rows.set i new = rows ↔ new = row := by
  obtain ⟨hlt, hget⟩ := List.getElem?_eq_some_iff.1 hrow
  refine ⟨?_, ?_⟩
  · intro h
    have hnew : (rows.set i new)[i]? = some new := List.getElem?_set_self hlt
    rw [h, hrow] at hnew
    exact (Option.some.inj hnew).symm
  · rintro rfl
    rw [← hget]
    exact List.set_getElem_self hlt

/-! ## Operations -/

/-- the number of requests made and the database satisfy F -/
def At (F : ℕ → TPCCDatabase → Prop) (s : Session) : Prop := F s.requests s.db

/-- the database is as it was exactly if φ -/
def KeptIff (db₀ : TPCCDatabase) (φ : Prop) (s : Session) : Prop := s.db = db₀ ↔ φ

variable {out : Outside} {r : ResourceId} {m : LockMode} {F G : ℕ → TPCCDatabase → Prop} {R : Session → Prop}
  {db₀ : TPCCDatabase} {φ : Prop} {α : Type}

theorem acquire_at (hgranted : ∀ n db, F n db → out.answer n = true → G (n + 1) db)
    (hdenied : ∀ n db, F n db → out.answer n = false → (db = db₀ ↔ φ)) :
    Triple (At F) (acquireOrAbort out r m) (fun _ => At G) (KeptIff db₀ φ) :=
  acquireOrAbort_spec (fun s hs => hgranted s.requests s.db hs) fun s hs => hdenied s.requests s.db hs

theorem readDb_eq {g : TPCCDatabase → Option α} :
    Triple (At F) (readDb g) (fun a => At fun n db => F n db ∧ g db = some a) R := Triple.fetch

theorem readDb_at {g : TPCCDatabase → Option α} : Triple (At F) (readDb g) (fun _ => At F) R :=
  readDb_eq.post fun _ _ hs => hs.1

theorem getCurrentTimestamp_eq :
    Triple (At F) (getCurrentTimestamp out) (fun t => At fun n db => F n db ∧ out.timestamp n = t) R :=
  Triple.fetch.post fun _ _ hs => ⟨hs.1, Option.some.inj hs.2⟩

theorem getCurrentTimestamp_at : Triple (At F) (getCurrentTimestamp out) (fun _ => At F) R :=
  getCurrentTimestamp_eq.post fun _ _ hs => hs.1

theorem write_at {f : TPCCDatabase → TPCCDatabase} (h : ∀ n db, F n db → G n (f db)) :
    Triple (At F) (write f) (fun _ => At G) R := Triple.change fun s hs => h s.requests s.db hs

theorem updateRow_at {rows : TPCCDatabase → List ρ} {withRows : TPCCDatabase → List ρ → TPCCDatabase} {i : ℤ}
    {f : ρ → ρ} (h : ∀ n db row, F n db → (rows db)[i.toNat]? = some row →
      G n (withRows db ((rows db).set i.toNat (f row)))) :
    Triple (At F) (updateRow rows withRows i f) (fun _ => At G) R :=
  updateRow_spec fun s row hs _ hrow => h s.requests s.db row hs hrow

theorem releaseAllLocks_at : Triple (At F) releaseAllLocks (fun _ _ => True) R := Triple.change fun _ _ => trivial

/-! ## New-Order -/

/-- the first two requests are granted, and the district has another next order number -/
def Numbered (out : Outside) (db₀ : TPCCDatabase) (_ : ℕ) (db : TPCCDatabase) : Prop :=
  out.answer 0 = true ∧ out.answer 1 = true ∧ db.districts ≠ db₀.districts

theorem Numbered.denied {n : ℕ} {db : TPCCDatabase} (h : Numbered out db₀ n db) :
    db = db₀ ↔ out.answer 0 = false ∨ out.answer 1 = false := by
  obtain ⟨h0, h1, hne⟩ := h
  rw [h0, h1]
  simp only [Bool.true_eq_false, or_self, iff_false]
  rintro rfl
  exact hne rfl

theorem acquire_numbered : Triple (At (Numbered out db₀)) (acquireOrAbort out r m) (fun _ => At (Numbered out db₀))
    (KeptIff db₀ (out.answer 0 = false ∨ out.answer 1 = false)) :=
  acquire_at (fun _ _ h _ => h) fun _ _ h _ => h.denied

theorem TPCCNewOrderTransaction.orderItem_numbered (tx : TPCCNewOrderTransaction) (o_id : ℤ) (total : ℚ)
    (item : (ℤ × ℤ) × ℕ) :
    Triple (At (Numbered out db₀)) (tx.orderItem .plain out o_id total item) (fun _ => At (Numbered out db₀))
      (KeptIff db₀ (out.answer 0 = false ∨ out.answer 1 = false)) := by
  unfold orderItem
  refine Triple.bind acquire_numbered fun _ => ?_
  refine Triple.bind acquire_numbered fun _ => ?_
  refine Triple.bind (updateRow_at (G := Numbered out db₀) fun _ _ _ h _ => h) fun _ => ?_
  refine Triple.bind acquire_numbered fun _ => ?_
  refine Triple.bind (write_at (G := Numbered out db₀) fun _ _ h => h) fun _ => ?_
  exact Triple.pure fun _ hs => hs

theorem TPCCNewOrderTransaction.execute_denied (tx : TPCCNewOrderTransaction) :
    Triple (At fun n db => n = 0 ∧ db = db₀) (tx.execute out) (fun _ _ => True)
      (KeptIff db₀ (out.answer 0 = false ∨ out.answer 1 = false)) := by
  unfold execute executeWith
  refine Triple.bind (acquire_at (G := fun n db => n = 1 ∧ out.answer 0 = true ∧ db = db₀) ?_ ?_) fun _ => ?_
  · intro _ db h h0
    obtain ⟨rfl, hdb⟩ := h
    exact ⟨rfl, h0, hdb⟩
  · intro _ db h h0
    obtain ⟨rfl, hdb⟩ := h
    exact iff_of_true hdb (Or.inl h0)
  refine Triple.bind (acquire_at (G := fun n db => (out.answer 0 = true ∧ out.answer 1 = true) ∧ db = db₀) ?_ ?_)
    fun _ => ?_
  · intro _ db h h1
    obtain ⟨rfl, h0, hdb⟩ := h
    exact ⟨⟨h0, h1⟩, hdb⟩
  · intro _ db h h1
    obtain ⟨rfl, h0, hdb⟩ := h
    exact iff_of_true hdb (Or.inr h1)
  rw [RowAccess.plain_updateDistrict]
  refine Triple.bind (updateRow_at (G := Numbered out db₀) ?_) fun district => ?_
  · intro _ db row h hrow
    obtain ⟨⟨h0, h1⟩, rfl⟩ := h
    refine ⟨h0, h1, ?_⟩
    rw [Ne, set_eq_self_iff hrow]
    intro hsame
    have hnext : row.d_next_o_id + 1 = row.d_next_o_id := congrArg District.d_next_o_id hsame
    omega
  refine Triple.bind acquire_numbered fun _ => ?_
  refine Triple.bind getCurrentTimestamp_at fun o_entry_d => ?_
  refine Triple.bind acquire_numbered fun _ => ?_
  refine Triple.bind acquire_numbered fun _ => ?_
  refine Triple.bind (write_at (G := Numbered out db₀) fun _ _ h => h) fun _ => ?_
  refine Triple.bind (write_at (G := Numbered out db₀) fun _ _ h => h) fun _ => ?_
  refine Triple.bind (Triple.foldlM fun _ item _ total _ => tx.orderItem_numbered _ total item) fun total => ?_
  rw [RowAccess.plain_updateWarehouse]
  exact Triple.bind (updateRow_at (G := Numbered out db₀) fun _ _ _ h _ => h) fun _ => releaseAllLocks_at

/-! ## Payment -/

/-- the amount has been added to the warehouse, and perhaps to the district -/
structure Added (tx : TPCCPaymentTransaction) (db₀ db : TPCCDatabase) : Prop where
  nothing : tx.h_amount = 0 → db = db₀
  something : tx.h_amount ≠ 0 → db.warehouses ≠ db₀.warehouses
  customers : db.customers = db₀.customers

theorem Added.kept_iff {tx : TPCCPaymentTransaction} {db : TPCCDatabase} (h : Added tx db₀ db) :
    db = db₀ ↔ tx.h_amount = 0 := by
  refine ⟨?_, h.nothing⟩
  rintro rfl
  by_contra hne
  exact h.something hne rfl

theorem added_warehouse {tx : TPCCPaymentTransaction} {row : Warehouse} {i : ℕ} (hrow : db₀.warehouses[i]? = some row) :
    Added tx db₀ { db₀ with
      warehouses := db₀.warehouses.set i { row with w_ytd := row.w_ytd + tx.h_amount } } where
  nothing hzero := by
    have hsame : ({ row with w_ytd := row.w_ytd + tx.h_amount } : Warehouse) = row := by rw [hzero, add_zero]
    rw [(set_eq_self_iff hrow).2 hsame]
  something hne := by
    rw [Ne, set_eq_self_iff hrow]
    intro hsame
    have hytd : row.w_ytd + tx.h_amount = row.w_ytd := congrArg Warehouse.w_ytd hsame
    exact hne (add_eq_left.1 hytd)
  customers := rfl

theorem Added.district {tx : TPCCPaymentTransaction} {db : TPCCDatabase} {row : District} {i : ℕ}
    (h : Added tx db₀ db) (hrow : db.districts[i]? = some row) :
    Added tx db₀ { db with districts := db.districts.set i { row with d_ytd := row.d_ytd + tx.h_amount } } where
  nothing hzero := by
    have hsame : ({ row with d_ytd := row.d_ytd + tx.h_amount } : District) = row := by rw [hzero, add_zero]
    rw [(set_eq_self_iff hrow).2 hsame]
    exact h.nothing hzero
  something := h.something
  customers := h.customers

theorem TPCCPaymentTransaction.execute_denied (tx : TPCCPaymentTransaction) :
    Triple (At fun n db => n = 0 ∧ db = db₀) (tx.execute out) (fun _ _ => True)
      (KeptIff db₀ (out.answer 0 = false ∨ tx.h_amount = 0 ∧ (out.answer 1 = false ∨ out.answer 2 = false))) := by
  unfold execute executeWith
  refine Triple.bind (acquire_at (G := fun n db => n = 1 ∧ out.answer 0 = true ∧ db = db₀) ?_ ?_) fun _ => ?_
  · intro _ db h h0
    obtain ⟨rfl, hdb⟩ := h
    exact ⟨rfl, h0, hdb⟩
  · intro _ db h h0
    obtain ⟨rfl, hdb⟩ := h
    exact iff_of_true hdb (Or.inl h0)
  rw [RowAccess.plain_updateWarehouse]
  refine Triple.bind (updateRow_at (G := fun n db => n = 1 ∧ out.answer 0 = true ∧ Added tx db₀ db) ?_) fun _ => ?_
  · intro _ db row h hrow
    obtain ⟨rfl, h0, rfl⟩ := h
    exact ⟨rfl, h0, added_warehouse hrow⟩
  refine Triple.bind (acquire_at (G := fun n db => n = 2 ∧ (out.answer 0 = true ∧ out.answer 1 = true) ∧
    Added tx db₀ db) ?_ ?_) fun _ => ?_
  · intro _ db h h1
    obtain ⟨rfl, h0, hadded⟩ := h
    exact ⟨rfl, ⟨h0, h1⟩, hadded⟩
  · intro _ db h h1
    obtain ⟨rfl, h0, hadded⟩ := h
    simp [hadded.kept_iff, h0, h1]
  rw [RowAccess.plain_updateDistrict]
  refine Triple.bind (updateRow_at (G := fun n db => n = 2 ∧ (out.answer 0 = true ∧ out.answer 1 = true) ∧
    Added tx db₀ db) ?_) fun _ => ?_
  · intro _ db row h hrow
    obtain ⟨rfl, hanswers, hadded⟩ := h
    exact ⟨rfl, hanswers, hadded.district hrow⟩
  refine Triple.bind (acquire_at (G := fun _ db => (out.answer 0 = true ∧ out.answer 1 = true ∧ out.answer 2 = true) ∧
    db.customers = db₀.customers) ?_ ?_) fun _ => ?_
  · intro _ db h h2
    obtain ⟨rfl, ⟨h0, h1⟩, hadded⟩ := h
    exact ⟨⟨h0, h1, h2⟩, hadded.customers⟩
  · intro _ db h h2
    obtain ⟨rfl, ⟨h0, h1⟩, hadded⟩ := h
    simp [hadded.kept_iff, h0, h2]
  -- from here on the customer has one payment more
  rw [RowAccess.plain_updateCustomer]
  refine Triple.bind (updateRow_at (G := fun _ db => (out.answer 0 = true ∧ out.answer 1 = true ∧
    out.answer 2 = true) ∧ db.customers ≠ db₀.customers) ?_) fun _ => ?_
  · intro _ db row h hrow
    obtain ⟨hanswers, hcustomers⟩ := h
    refine ⟨hanswers, ?_⟩
    rw [← hcustomers, Ne, set_eq_self_iff hrow]
    intro hsame
    have hcount : row.c_payment_cnt + 1 = row.c_payment_cnt := congrArg Customer.c_payment_cnt hsame
    omega
  refine Triple.bind getCurrentTimestamp_at fun h_date => ?_
  refine Triple.bind (acquire_at (G := fun _ _ => True) (fun _ _ _ _ => trivial) ?_) fun _ => ?_
  · intro _ db h _
    obtain ⟨⟨h0, h1, h2⟩, hne⟩ := h
    have hchanged : db ≠ db₀ := by
      rintro rfl
      exact hne rfl
    simp [hchanged, h0, h1, h2]
  exact Triple.bind (write_at (G := fun _ _ => True) fun _ _ _ => trivial) fun _ => releaseAllLocks_at

/-! ## Order-Status and Stock-Level -/

theorem acquire_kept : Triple (At fun _ db => db = db₀) (acquireOrAbort out r m) (fun _ => At fun _ db => db = db₀)
    (KeptIff db₀ True) :=
  acquire_at (fun _ _ h _ => h) fun _ _ h _ => iff_of_true h trivial

theorem TPCCOrderStatusTransaction.execute_denied (tx : TPCCOrderStatusTransaction) :
    Triple (At fun _ db => db = db₀) (tx.execute out) (fun _ _ => True) (KeptIff db₀ True) := by
  unfold execute
  refine Triple.bind acquire_kept fun _ => ?_
  refine Triple.bind readDb_at fun last_order => ?_
  cases last_order with
  | none => exact releaseAllLocks_at
  | some last_order =>
    refine Triple.bind acquire_kept fun _ => ?_
    refine Triple.bind readDb_at fun order_lines => ?_
    refine Triple.bind (Triple.forM (I := fun _ => At fun _ db => db = db₀) fun _ ol _ _ => ?_) fun _ =>
      releaseAllLocks_at
    exact Triple.ite (fun _ => acquire_kept) fun _ => Triple.pure fun _ hs => hs

theorem TPCCStockLevelTransaction.execute_denied (tx : TPCCStockLevelTransaction) :
    Triple (At fun _ db => db = db₀) (tx.execute out) (fun _ _ => True) (KeptIff db₀ True) := by
  unfold execute executeWith
  refine Triple.bind acquire_kept fun _ => ?_
  rw [RowAccess.plain_getDistrict]
  refine Triple.bind readDb_at fun _ => ?_
  refine Triple.bind readDb_at fun last_20_o_ids => ?_
  refine Triple.bind (Triple.foldlM (I := fun _ _ => At fun _ db => db = db₀) fun _ o_id _ low _ => ?_) fun _ =>
    releaseAllLocks_at
  unfold checkOrder
  refine Triple.bind readDb_at fun order_lines => ?_
  refine Triple.foldlM (I := fun _ _ => At fun _ db => db = db₀) fun _ ol _ low _ => ?_
  unfold checkStock
  refine Triple.ite (fun _ => ?_) fun _ => Triple.pure fun _ hs => hs
  refine Triple.bind acquire_kept fun _ => ?_
  rw [RowAccess.plain_getStock]
  exact Triple.bind readDb_at fun _ => Triple.pure fun _ hs => hs

/-! ## Delivery -/

namespace TPCCDeliveryTransaction

variable {tx : TPCCDeliveryTransaction} {past past' : OrderLine → ℕ → Prop} {rest rest' : List DeliveryStep}
  {step step' : DeliveryStep} {n : ℕ} {db db' : TPCCDatabase} {no : NewOrder} {d_id : ℤ}

/-- a column that is not as it was, and will not be again: a line that is past is not assigned to any more -/
inductive Differs (tx : TPCCDeliveryTransaction) (past : OrderLine → ℕ → Prop) (db₀ db : TPCCDatabase) : Prop where
  | carrier {i : ℕ} {before after : Order} (hbefore : db₀.orders[i]? = some before)
      (hafter : db.orders[i]? = some after) (hne : before.o_carrier_id ≠ tx.o_carrier_id)
      (hset : after.o_carrier_id = tx.o_carrier_id)
  | date {i : ℕ} {before after : OrderLine} (hbefore : db₀.order_lines[i]? = some before)
      (hafter : db.order_lines[i]? = some after) (hne : before.ol_delivery_d ≠ after.ol_delivery_d)
      (hpast : past after i)
  | count {i : ℕ} {before after : Customer} (hbefore : db₀.customers[i]? = some before)
      (hafter : db.customers[i]? = some after) (hlt : before.c_delivery_cnt < after.c_delivery_cnt)

theorem Differs.ne (h : tx.Differs past db₀ db) : db ≠ db₀ := by
  rintro rfl
  cases h with
  | carrier hbefore hafter hne hset =>
    obtain rfl := Option.some.inj (hbefore.symm.trans hafter)
    exact hne hset
  | date hbefore hafter hne _ =>
    obtain rfl := Option.some.inj (hbefore.symm.trans hafter)
    exact hne rfl
  | count hbefore hafter hlt =>
    obtain rfl := Option.some.inj (hbefore.symm.trans hafter)
    exact lt_irrefl _ hlt

theorem Differs.mono (h : tx.Differs past db₀ db) (hpast : ∀ ol i, past ol i → past' ol i) :
    tx.Differs past' db₀ db := by
  cases h with
  | carrier hbefore hafter hne hset => exact .carrier hbefore hafter hne hset
  | date hbefore hafter hne hp => exact .date hbefore hafter hne (hpast _ _ hp)
  | count hbefore hafter hlt => exact .count hbefore hafter hlt

/-- every order that is assigned to gets the same carrier -/
theorem Differs.orders_set (h : tx.Differs past db₀ db) (j : ℕ) (old : Order) :
    tx.Differs past db₀ { db with
      orders := db.orders.set j { old with o_carrier_id := tx.o_carrier_id } } := by
  cases h with
  | @carrier i _ after hbefore hafter hne hset =>
    obtain ⟨hlt, -⟩ := List.getElem?_eq_some_iff.1 hafter
    rcases eq_or_ne j i with rfl | hji
    · exact .carrier hbefore (List.getElem?_set_self hlt) hne rfl
    · exact .carrier hbefore ((List.getElem?_set_ne hji).trans hafter) hne hset
  | date hbefore hafter hne hpast => exact .date hbefore hafter hne hpast
  | count hbefore hafter hlt => exact .count hbefore hafter hlt

theorem Differs.order_lines_set {j : ℕ} {old new : OrderLine} (h : tx.Differs past db₀ db)
    (hold : db.order_lines[j]? = some old) (hpast : ¬ past old j) :
    tx.Differs past db₀ { db with order_lines := db.order_lines.set j new } := by
  cases h with
  | carrier hbefore hafter hne hset => exact .carrier hbefore hafter hne hset
  | @date i _ after hbefore hafter hne hp =>
    have hji : j ≠ i := by
      rintro rfl
      obtain rfl := Option.some.inj (hold.symm.trans hafter)
      exact hpast hp
    exact .date hbefore ((List.getElem?_set_ne hji).trans hafter) hne hp
  | count hbefore hafter hlt => exact .count hbefore hafter hlt

theorem Differs.customers_set {j : ℕ} {old new : Customer} (h : tx.Differs past db₀ db)
    (hold : db.customers[j]? = some old) (hnew : old.c_delivery_cnt < new.c_delivery_cnt) :
    tx.Differs past db₀ { db with customers := db.customers.set j new } := by
  cases h with
  | carrier hbefore hafter hne hset => exact .carrier hbefore hafter hne hset
  | date hbefore hafter hne hpast => exact .date hbefore hafter hne hpast
  | @count i _ after hbefore hafter hlt =>
    obtain ⟨hi, -⟩ := List.getElem?_eq_some_iff.1 hafter
    rcases eq_or_ne j i with rfl | hji
    · obtain rfl := Option.some.inj (hold.symm.trans hafter)
      exact .count hbefore (List.getElem?_set_self hi) (hlt.trans hnew)
    · exact .count hbefore ((List.getElem?_set_ne hji).trans hafter) hlt

/-- the writes after the first n requests assign what is there -/
def IdleBefore (tx : TPCCDeliveryTransaction) (out : Outside) (db₀ : TPCCDatabase) (n : ℕ) : Prop :=
  ∀ j < n, ∀ step ∈ (tx.steps db₀)[j]?, tx.Idle out j step

/-- after n requests: nothing has changed and these steps are left, or something has changed for good -/
inductive Delivering (tx : TPCCDeliveryTransaction) (out : Outside) (db₀ : TPCCDatabase)
    (past : OrderLine → ℕ → Prop) (rest : List DeliveryStep) (n : ℕ) (db : TPCCDatabase) : Prop where
  | same (hdb : db = db₀) (hrest : (tx.steps db₀).drop n = rest) (hidle : tx.IdleBefore out db₀ n)
  | differs (hdiffers : tx.Differs past db₀ db) (hidle : ¬ tx.IdleBefore out db₀ n)

theorem idleBefore_succ (hrest : (tx.steps db₀).drop n = step :: rest) :
    tx.IdleBefore out db₀ (n + 1) ↔ tx.IdleBefore out db₀ n ∧ tx.Idle out n step := by
  have hstep : (tx.steps db₀)[n]? = some step := by
    rw [← Nat.add_zero n, ← List.getElem?_drop, hrest]
    rfl
  refine ⟨?_, ?_⟩
  · intro h
    exact ⟨fun j hj => h j (Nat.lt_succ_of_lt hj), h n n.lt_succ_self step hstep⟩
  · intro hall j hj other hother
    obtain ⟨h, hidle⟩ := hall
    rcases Nat.lt_succ_iff_lt_or_eq.1 hj with hj | rfl
    · exact h j hj other hother
    · obtain rfl := Option.some.inj (hstep.symm.trans hother)
      exact hidle

theorem Delivering.mono (h : tx.Delivering out db₀ past rest n db) (hpast : ∀ ol i, past ol i → past' ol i) :
    tx.Delivering out db₀ past' rest n db := by
  cases h with
  | same hdb hrest hidle => exact .same hdb hrest hidle
  | differs hdiffers hidle => exact .differs (hdiffers.mono hpast) hidle

/-- the steps left matter only as long as nothing has changed -/
theorem Delivering.of_rest (h : tx.Delivering out db₀ past rest n db) (hrest' : db = db₀ → rest = rest') :
    tx.Delivering out db₀ past rest' n db := by
  cases h with
  | same hdb hrest hidle => exact .same hdb (hrest.trans (hrest' hdb)) hidle
  | differs hdiffers hidle => exact .differs hdiffers hidle

/-- a request and the write after it -/
theorem Delivering.wrote (h : tx.Delivering out db₀ past (step :: rest) n db)
    (hsame : db = db₀ → tx.Idle out n step ∧ db' = db₀ ∨ ¬ tx.Idle out n step ∧ tx.Differs past' db₀ db')
    (hdiffers' : tx.Differs past db₀ db → tx.Differs past' db₀ db') :
    tx.Delivering out db₀ past' rest (n + 1) db' := by
  cases h with
  | same hdb hrest hidle =>
    rcases hsame hdb with ⟨hstep, hdb'⟩ | ⟨hstep, hchanged⟩
    · refine .same hdb' ?_ ((idleBefore_succ hrest).2 ⟨hidle, hstep⟩)
      rw [← List.drop_drop, hrest]
      rfl
    · exact .differs hchanged fun h => hstep ((idleBefore_succ hrest).1 h).2
  | differs hdiffers hidle =>
    exact .differs (hdiffers' hdiffers) fun h => hidle fun j hj => h j (Nat.lt_succ_of_lt hj)

/-- no request is denied so far -/
def Running (tx : TPCCDeliveryTransaction) (out : Outside) (db₀ : TPCCDatabase) (past : OrderLine → ℕ → Prop)
    (rest : List DeliveryStep) (n : ℕ) (db : TPCCDatabase) : Prop :=
  (∀ j < n, out.answer j = true) ∧ tx.Delivering out db₀ past rest n db

/-- the request of this step was granted, and its write is still to come -/
def Granted (tx : TPCCDeliveryTransaction) (out : Outside) (db₀ : TPCCDatabase) (past : OrderLine → ℕ → Prop)
    (step : DeliveryStep) (rest : List DeliveryStep) (n : ℕ) (db : TPCCDatabase) : Prop :=
  ∃ k, n = k + 1 ∧ (∀ j < n, out.answer j = true) ∧ tx.Delivering out db₀ past (step :: rest) k db

theorem Running.mono (h : tx.Running out db₀ past rest n db) (hpast : ∀ ol i, past ol i → past' ol i) :
    tx.Running out db₀ past' rest n db := ⟨h.1, h.2.mono hpast⟩

theorem Running.of_rest (h : tx.Running out db₀ past rest n db) (hrest : db = db₀ → rest = rest') :
    tx.Running out db₀ past rest' n db := ⟨h.1, h.2.of_rest hrest⟩

theorem Running.denied (h : tx.Running out db₀ past rest n db) (hdenied : out.answer n = false) :
    db = db₀ ↔ Harmless out db₀ (.delivery tx) := by
  obtain ⟨hgranted, hdelivering⟩ := h
  cases hdelivering with
  | same hdb _ hidle =>
    apply iff_of_true hdb
    intro j hj
    have hjn : j < n := by
      by_contra hle
      have htrue : out.answer n = true := hj n (not_lt.1 hle)
      rw [hdenied] at htrue
      cases htrue
    exact hidle j hjn
  | differs hdiffers hidle =>
    refine iff_of_false hdiffers.ne fun hharmless => hidle ?_
    intro j hj
    exact hharmless j fun i hi => hgranted i (hi.trans_lt hj)

theorem Granted.of_rest (h : tx.Granted out db₀ past step rest n db)
    (hrest : db = db₀ → step :: rest = step' :: rest') : tx.Granted out db₀ past step' rest' n db := by
  obtain ⟨k, hk, hgranted, hdelivering⟩ := h
  exact ⟨k, hk, hgranted, hdelivering.of_rest hrest⟩

/-- a write that assigns what is there, or makes a difference that stays -/
theorem Granted.wrote (h : tx.Granted out db₀ past step rest n db)
    (hsame : ∀ k, n = k + 1 → db = db₀ →
      tx.Idle out k step ∧ db' = db₀ ∨ ¬ tx.Idle out k step ∧ tx.Differs past' db₀ db')
    (hdiffers : tx.Differs past db₀ db → tx.Differs past' db₀ db') : tx.Running out db₀ past' rest n db' := by
  obtain ⟨k, rfl, hgranted, hdelivering⟩ := h
  exact ⟨hgranted, hdelivering.wrote (hsame k rfl) hdiffers⟩

/-- no write -/
theorem Granted.idle (h : tx.Granted out db₀ past step rest n db) (hidle : db = db₀ → ∀ k, tx.Idle out k step) :
    tx.Running out db₀ past rest n db :=
  h.wrote (fun k _ hdb => Or.inl ⟨hidle hdb k, hdb⟩) id

theorem Running.granted (h : tx.Running out db₀ past (step :: rest) n db) (hanswer : out.answer n = true) :
    tx.Granted out db₀ past step rest (n + 1) db := by
  refine ⟨n, rfl, ?_, h.2⟩
  intro j hj
  rcases Nat.lt_succ_iff_lt_or_eq.1 hj with hj | rfl
  · exact h.1 j hj
  · exact hanswer

theorem acquire_granted : Triple (At (tx.Running out db₀ past (step :: rest))) (acquireOrAbort out r m)
    (fun _ => At (tx.Granted out db₀ past step rest)) (KeptIff db₀ (Harmless out db₀ (.delivery tx))) :=
  acquire_at (fun _ _ h hanswer => h.granted hanswer) fun _ _ h hanswer => h.denied hanswer

/-- the lines of the districts that are done -/
def Done (done : List ℤ) (ol : OrderLine) (_ : ℕ) : Prop := ol.ol_d_id ∈ done

/-- and those of this district below a position -/
def Past (done : List ℤ) (d_id : ℤ) (m : ℕ) (ol : OrderLine) (i : ℕ) : Prop :=
  Done done ol i ∨ ol.ol_d_id = d_id ∧ i < m

/-- the carrier of the order, if there is one -/
theorem deliverOrder_running (no : NewOrder) (order : Option (Order × ℕ)) :
    Triple (At fun n db => tx.Granted out db₀ past (.order order) rest n db ∧ findOrder db no = order)
      (tx.deliverOrder order) (fun _ => At (tx.Running out db₀ past rest)) R := by
  cases order with
  | none => exact Triple.pure fun _ hs => hs.1.idle fun _ _ _ h => by cases h
  | some order =>
    unfold deliverOrder
    apply write_at
    intro n db h
    obtain ⟨hgranted, hfind⟩ := h
    obtain ⟨hrow, -⟩ := findOrder_spec hfind
    refine hgranted.wrote ?_ fun h => h.orders_set order.2 order.1
    rintro k - rfl
    by_cases hcarrier : order.1.o_carrier_id = tx.o_carrier_id
    · refine Or.inl ⟨?_, ?_⟩
      · rintro _ ⟨⟩
        exact hcarrier
      · have hsame : ({ order.1 with o_carrier_id := tx.o_carrier_id } : Order) = order.1 := by rw [← hcarrier]
        rw [(set_eq_self_iff hrow).2 hsame]
    · refine Or.inr ⟨fun h => hcarrier (h order rfl), ?_⟩
      obtain ⟨hlt, -⟩ := List.getElem?_eq_some_iff.1 hrow
      exact .carrier hrow (List.getElem?_set_self hlt) hcarrier rfl

theorem lineSteps_nil : lineSteps no [] = [] := rfl

theorem lineSteps_cons_of (ol : OrderLine) (l : List OrderLine) (h : ol.Of no.no_o_id no.no_d_id no.no_w_id) :
    lineSteps no (ol :: l) = .line ol :: lineSteps no l := by simp [lineSteps, h]

theorem lineSteps_cons_not_of (ol : OrderLine) (l : List OrderLine) (h : ¬ ol.Of no.no_o_id no.no_d_id no.no_w_id) :
    lineSteps no (ol :: l) = lineSteps no l := by simp [lineSteps, h]

/-- the next line of those a loop of this length goes over -/
theorem drop_take_eq_cons {l : List OrderLine} {m lines : ℕ} {ol : OrderLine} (hm : m < lines)
    (hget : l[m]? = some ol) : (l.take lines).drop m = ol :: (l.take lines).drop (m + 1) := by
  have htake : (l.take lines)[m]? = some ol := by rw [List.getElem?_take_of_lt hm, hget]
  obtain ⟨hlt, hget⟩ := List.getElem?_eq_some_iff.1 htake
  rw [List.drop_eq_getElem_cons hlt, hget]

theorem Past.succ {done : List ℤ} {m i : ℕ} {ol : OrderLine} (h : Past done d_id m ol i) :
    Past done d_id (m + 1) ol i := by
  rcases h with hd | ⟨hd, hi⟩
  · exact Or.inl hd
  · exact Or.inr ⟨hd, Nat.lt_succ_of_lt hi⟩

/-- the date of the line at this position, which is past from now on -/
theorem Granted.deliverLine {done : List ℤ} {m : ℕ} {ol : OrderLine}
    (h : tx.Granted out db₀ (Past done d_id m) (.line ol) rest n db) (hget : db.order_lines[m]? = some ol)
    (hhere : ol.ol_d_id = d_id) (hdone : d_id ∉ done) :
    tx.Running out db₀ (Past done d_id (m + 1)) rest n { db with
      order_lines := db.order_lines.set m { ol with ol_delivery_d := out.timestamp n } } := by
  have hlater : ¬ Past done d_id m ol m := by
    rintro (hd | ⟨-, hlt⟩)
    · exact hdone (hhere ▸ hd)
    · exact lt_irrefl m hlt
  refine h.wrote ?_ fun hdiffers => (hdiffers.order_lines_set hget hlater).mono fun _ _ => Past.succ
  rintro k rfl rfl
  by_cases hdate : ol.ol_delivery_d = out.timestamp (k + 1)
  · refine Or.inl ⟨hdate, ?_⟩
    have hsame : ({ ol with ol_delivery_d := out.timestamp (k + 1) } : OrderLine) = ol := by rw [← hdate]
    rw [(set_eq_self_iff hget).2 hsame]
  · refine Or.inr ⟨hdate, ?_⟩
    obtain ⟨hlt, -⟩ := List.getElem?_eq_some_iff.1 hget
    exact .date hget (List.getElem?_set_self hlt) hdate (Or.inr ⟨hhere, m.lt_succ_self⟩)

theorem deliverLine_running {done : List ℤ} (hdone : no.no_d_id ∉ done) (total : ℚ) {m lines : ℕ} (hm : m < lines) :
    Triple (At (tx.Running out db₀ (Past done no.no_d_id m)
        (lineSteps no ((db₀.order_lines.take lines).drop m) ++ rest)))
      (deliverLine out no total m)
      (fun _ => At (tx.Running out db₀ (Past done no.no_d_id (m + 1))
        (lineSteps no ((db₀.order_lines.take lines).drop (m + 1)) ++ rest)))
      (KeptIff db₀ (Harmless out db₀ (.delivery tx))) := by
  unfold deliverLine
  refine Triple.bind readDb_eq fun ol => ?_
  refine Triple.ite ?_ ?_
  · intro hof
    -- the line that is read is the next step, and is still there when its lock has been granted
    refine Triple.bind (acquire_at (G := fun n db => tx.Granted out db₀ (Past done no.no_d_id m) (.line ol)
      (lineSteps no ((db₀.order_lines.take lines).drop (m + 1)) ++ rest) n db ∧ db.order_lines[m]? = some ol)
      ?_ fun _ _ h hanswer => h.1.denied hanswer) fun _ => ?_
    · intro n db h hanswer
      obtain ⟨hrunning, hget⟩ := h
      refine ⟨(hrunning.of_rest ?_).granted hanswer, hget⟩
      rintro rfl
      rw [drop_take_eq_cons hm hget, lineSteps_cons_of ol _ hof, List.cons_append]
    refine Triple.bind getCurrentTimestamp_eq fun ol_delivery_d => ?_
    refine Triple.bind (write_at ?_) fun _ => Triple.pure fun _ hs => hs
    intro n db h
    obtain ⟨⟨hgranted, hget⟩, rfl⟩ := h
    exact hgranted.deliverLine hget hof.2.1 hdone
  · intro hof
    apply Triple.pure
    intro s h
    obtain ⟨hrunning, hget⟩ := h
    refine (hrunning.of_rest ?_).mono fun _ _ => Past.succ
    intro hdb
    rw [hdb] at hget
    rw [drop_take_eq_cons hm hget, lineSteps_cons_not_of ol _ hof]

theorem chargeCustomer_running (total : ℚ) (order : Option (Order × ℕ)) :
    Triple (At (tx.Running out db₀ past (customerSteps order ++ rest))) (chargeCustomer .plain out total order)
      (fun _ => At (tx.Running out db₀ past rest)) (KeptIff db₀ (Harmless out db₀ (.delivery tx))) := by
  cases order with
  | none => exact Triple.pure fun _ hs => hs
  | some order =>
    refine Triple.bind acquire_granted fun _ => ?_
    rw [RowAccess.plain_updateCustomer]
    refine Triple.bind (updateRow_at ?_) fun _ => Triple.pure fun _ hs => hs
    rintro n db row hgranted hrow
    refine hgranted.wrote ?_ fun h => h.customers_set hrow (lt_add_one row.c_delivery_cnt)
    rintro k - rfl
    obtain ⟨hlt, -⟩ := List.getElem?_eq_some_iff.1 hrow
    exact Or.inr ⟨id, .count hrow (List.getElem?_set_self hlt) (lt_add_one row.c_delivery_cnt)⟩

theorem deliver_running {done : List ℤ} (hdone : d_id ∉ done) (no : NewOrder) :
    Triple (At fun n db => tx.Running out db₀ (Done done) (tx.districtSteps db₀ d_id ++ rest) n db ∧
        tx.oldestNewOrder db d_id = some no)
      (tx.deliver .plain out no) (fun _ => At (tx.Running out db₀ (Done (done ++ [d_id])) rest))
      (KeptIff db₀ (Harmless out db₀ (.delivery tx))) := by
  refine Triple.of_fact (φ := no.no_d_id = d_id) (fun _ hs => (oldestNewOrder_mem hs.2).2.2) ?_
  rintro rfl
  unfold deliver
  refine Triple.bind (acquire_at (G := tx.Running out db₀ (Past done no.no_d_id 0)
    (.order (findOrder db₀ no) :: (lineSteps no db₀.order_lines ++ customerSteps (findOrder db₀ no) ++ rest)))
    ?_ fun _ _ h hanswer => h.1.denied hanswer) fun _ => ?_
  · intro n db h hanswer
    obtain ⟨hrunning, hold⟩ := h
    have hnext : tx.Running out db₀ (Past done no.no_d_id 0) (.newOrder :: .order (findOrder db₀ no) ::
        (lineSteps no db₀.order_lines ++ customerSteps (findOrder db₀ no) ++ rest)) n db := by
      refine (hrunning.of_rest ?_).mono fun _ _ => Or.inl
      rintro rfl
      simp only [districtSteps, hold, List.cons_append]
    exact (hnext.granted hanswer).idle fun _ _ => trivial
  refine Triple.bind acquire_granted fun _ => ?_
  refine Triple.bind readDb_eq fun order => ?_
  -- the order that is found decides on the steps that are left
  refine Triple.bind (M := fun _ => At (tx.Running out db₀ (Past done no.no_d_id 0)
    (lineSteps no db₀.order_lines ++ (customerSteps order ++ rest)))) ((deliverOrder_running no order).pre ?_)
    fun _ => ?_
  · intro s h
    obtain ⟨hgranted, hfind⟩ := h
    obtain rfl := Option.some.inj hfind
    refine ⟨hgranted.of_rest ?_, rfl⟩
    intro hdb
    rw [hdb, List.append_assoc]
  refine Triple.bind readDb_eq fun lines => ?_
  refine Triple.bind ((Triple.foldlM_range (I := fun m _ => At (tx.Running out db₀ (Past done no.no_d_id m)
    (lineSteps no ((db₀.order_lines.take lines).drop m) ++ (customerSteps order ++ rest))))
    fun m total hm => deliverLine_running hdone total hm).pre ?_) fun total => ?_
  · intro s h
    obtain ⟨hrunning, hlines⟩ := h
    apply hrunning.of_rest
    intro hdb
    rw [← Option.some.inj hlines, hdb, List.take_length, List.drop_zero]
  rw [List.drop_take_self, lineSteps_nil, List.nil_append]
  refine (chargeCustomer_running total order).post fun _ s hs => Running.mono hs ?_
  rintro ol i (hd | ⟨hd, -⟩)
  · exact List.mem_append_left _ hd
  · exact List.mem_append_right _ (List.mem_singleton.2 hd)

theorem deliverDistrict_running {done : List ℤ} (hdone : d_id ∉ done) :
    Triple (At (tx.Running out db₀ (Done done) (tx.districtSteps db₀ d_id ++ rest)))
      (tx.deliverDistrict .plain out d_id)
      (fun _ => At (tx.Running out db₀ (Done (done ++ [d_id])) rest))
      (KeptIff db₀ (Harmless out db₀ (.delivery tx))) := by
  unfold deliverDistrict
  refine Triple.bind readDb_eq fun oldest_new_order => ?_
  cases oldest_new_order with
  | none =>
    apply Triple.pure
    intro s h
    obtain ⟨hrunning, hold⟩ := h
    refine (hrunning.of_rest ?_).mono fun _ _ hd => List.mem_append_left _ hd
    intro hdb
    simp only [districtSteps, ← hdb, Option.some.inj hold, List.nil_append]
  | some no => exact (deliver_running hdone no).pre fun _ hs => ⟨hs.1, Option.some.inj hs.2⟩

theorem execute_denied (tx : TPCCDeliveryTransaction) :
    Triple (At fun n db => n = 0 ∧ db = db₀) (tx.execute out) (fun _ _ => True)
      (KeptIff db₀ (Harmless out db₀ (.delivery tx))) := by
  unfold execute executeWith
  refine Triple.bind ((Triple.forM (I := fun done => At (tx.Running out db₀ (Done done)
    (((intRange 1 10).drop done.length).flatMap (tx.districtSteps db₀)))) ?_).pre ?_) fun _ => releaseAllLocks_at
  · intro done d_id rest hdistricts
    have hdone : d_id ∉ done := by
      have hnodup : (intRange 1 10).Nodup := by decide
      rw [hdistricts, List.nodup_middle] at hnodup
      exact fun hd => (List.nodup_cons.1 hnodup).1 (List.mem_append_left rest hd)
    rw [hdistricts, List.drop_left, List.flatMap_cons, List.append_cons done d_id rest, List.drop_left]
    exact deliverDistrict_running hdone
  · intro s h
    obtain ⟨hn, hdb⟩ := h
    refine ⟨fun j hj => ?_, .same hdb ?_ fun j hj => ?_⟩
    · rw [hn] at hj
      exact absurd hj j.not_lt_zero
    · rw [hn]
      rfl
    · rw [hn] at hj
      exact absurd hj j.not_lt_zero

end TPCCDeliveryTransaction

/-! ## Calls -/

theorem TPCCTransaction.body_denied (tx : TPCCTransaction) (out : Outside) (db₀ : TPCCDatabase) :
    Triple (At fun n db => n = 0 ∧ db = db₀) (tx.body out) (fun _ _ => True) (KeptIff db₀ (Harmless out db₀ tx)) := by
  cases tx with
  | newOrder tx => exact tx.execute_denied
  | payment tx => exact tx.execute_denied
  | orderStatus tx => exact tx.execute_denied.pre fun _ hs => hs.2
  | delivery tx => exact tx.execute_denied
  | stockLevel tx => exact tx.execute_denied.pre fun _ hs => hs.2

/-- **What a denied call leaves.** A call that returns false leaves the database as it was exactly if every write before
the denied request assigned what was there. -/
theorem denied_keeps_iff {tx : TPCCTransaction} {out : Outside} {db : TPCCDatabase} {txn : Transaction} {s : Session}
    (h : tx.execute out db txn = some (false, s)) : s.db = db ↔ Harmless out db tx := by
  obtain ⟨⟨res, s'⟩, hrun, heq⟩ := Option.map_eq_some_iff.1 h
  obtain rfl : s' = s := congrArg Prod.snd heq
  cases res with
  | some _ => cases congrArg Prod.fst heq
  | none =>
    have hdenied := (tx.body_denied out db).stopped (s := .start db txn) ⟨rfl, rfl⟩ hrun
    exact hdenied

/-- a Payment is denied the district -/
def deniedPayment : Session := ((payTen.execute (answering [true, false]) smallDatabase tpccObject).get rfl).2

theorem denied_keeps_iff_payment : deniedPayment.requests = 2 ∧
    (deniedPayment.db = smallDatabase ↔ Harmless (answering [true, false]) smallDatabase payTen) := by
  have hrun : payTen.execute (answering [true, false]) smallDatabase tpccObject = some (false, deniedPayment) := rfl
  exact ⟨rfl, denied_keeps_iff hrun⟩

/-- the amount stays in the warehouse -/
theorem deniedPayment_writes : ¬ ∀ (tx : TPCCTransaction) (out : Outside) (db : TPCCDatabase) (txn : Transaction)
    (s : Session), tx.execute out db txn = some (false, s) → s.db = db := by
  intro h
  have hrun : payTen.execute (answering [true, false]) smallDatabase tpccObject = some (false, deniedPayment) := rfl
  have hkept : deniedPayment.db.warehouses = smallDatabase.warehouses :=
    congrArg TPCCDatabase.warehouses (h _ _ _ _ _ hrun)
  have hwritten : deniedPayment.db.warehouses = [⟨1, 0 + 10⟩] := rfl
  rw [hwritten] at hkept
  simp [smallDatabase] at hkept

end Tpcc

end HawkTxn
