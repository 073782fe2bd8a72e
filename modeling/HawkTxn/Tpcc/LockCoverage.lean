/-
TPC-C writes and their locks (`tpcc_transaction.cpp`).

A call is judged by its trace: the requests with their answers, the database after each write, the release. The writes
are compared row by row: a row that an accessor finds goes by every name that leads to it, and an order, a new order, an
order line or a history row by its own columns before and after.

Results:
- `writes_covered`: whenever a write changes a row, the row's lock has been granted in EXCLUSIVE mode earlier in the
  call; the locks are released once, and nothing comes after.
-/
import HawkTxn.Tpcc.Transactions

namespace HawkTxn

open HawkTxn.Core

namespace Tpcc

open TPCCDatabase

/-! ## Changed rows -/

/-- the row is at a position that changes, before or after -/
def RowChanged {ρ : Type} (before after : List ρ) (row : ρ) : Prop :=
  ∃ i : ℕ, before[i]? ≠ after[i]? ∧ (before[i]? = some row ∨ after[i]? = some row)

/-- a row of this key changes between two databases -/
def Changed (before after : TPCCDatabase) : RowKey → Prop
  | .warehouse w_id => before.getWarehouse w_id ≠ after.getWarehouse w_id
  | .district w_id d_id => before.getDistrict d_id w_id ≠ after.getDistrict d_id w_id
  | .customer w_id d_id c_id => before.getCustomer c_id d_id w_id ≠ after.getCustomer c_id d_id w_id
  | .item _ => False
  | .stock w_id i_id => before.getStock i_id w_id ≠ after.getStock i_id w_id
  | .order w_id d_id o_id => ∃ row, RowChanged before.orders after.orders row ∧
      row.o_w_id = w_id ∧ row.o_d_id = d_id ∧ row.o_id = o_id
  | .newOrder w_id d_id o_id => ∃ row, RowChanged before.new_orders after.new_orders row ∧
      row.no_w_id = w_id ∧ row.no_d_id = d_id ∧ row.no_o_id = o_id
  | .orderLine w_id d_id o_id ol_number => ∃ row, RowChanged before.order_lines after.order_lines row ∧
      row.ol_w_id = w_id ∧ row.ol_d_id = d_id ∧ row.ol_o_id = o_id ∧ row.ol_number = ol_number
  | .history w_id d_id c_id => ∃ row, RowChanged before.histories after.histories row ∧
      row.h_w_id = w_id ∧ row.h_d_id = d_id ∧ row.h_c_id = c_id

variable {ρ : Type} {rows : List ρ} {row old new : ρ} {db : TPCCDatabase} {k : RowKey} {i : ℤ}

@[simp] theorem not_rowChanged : ¬ RowChanged rows rows row := by
  intro h
  obtain ⟨i, hne, -⟩ := h
  exact hne rfl

/-- an append changes the row that is appended -/
theorem eq_of_rowChanged_append (h : RowChanged rows (rows ++ [new]) row) : row = new := by
  obtain ⟨i, hne, hrow⟩ := h
  have hi : rows.length ≤ i := by
    by_contra hlt
    exact hne (List.getElem?_append_left (not_le.1 hlt)).symm
  rw [List.getElem?_eq_none hi, List.getElem?_append_right hi] at hrow
  rcases hrow with hrow | hrow
  · cases hrow
  · exact (List.mem_singleton.1 (List.mem_of_getElem? hrow))

/-- an assignment changes the row that is assigned to -/
theorem eq_of_rowChanged_set {n : ℕ} (hold : rows[n]? = some old) (h : RowChanged rows (rows.set n new) row) :
    row = old ∨ row = new := by
  obtain ⟨i, hne, hrow⟩ := h
  have hi : n = i := by
    by_contra hother
    exact hne (List.getElem?_set_ne hother).symm
  subst hi
  obtain ⟨hlt, -⟩ := List.getElem?_eq_some_iff.1 hold
  rw [hold, List.getElem?_set_self hlt] at hrow
  rcases hrow with hrow | hrow
  · exact Or.inl (Option.some.inj hrow).symm
  · exact Or.inr (Option.some.inj hrow).symm

/-! ## Lock ids of the rows that accessors find -/

theorem warehouse_id {w_id w_id' : ℤ} (h : warehousePosition w_id = warehousePosition w_id') :
    (RowKey.warehouse w_id).resourceId = (RowKey.warehouse w_id').resourceId := by
  rw [RowKey.same_id_iff]
  simp only [RowKey.slot, RowKey.tableNumber, warehousePosition] at h ⊢
  omega

theorem district_id {w_id w_id' d_id d_id' : ℤ} (h : districtPosition d_id w_id = districtPosition d_id' w_id') :
    (RowKey.district w_id d_id).resourceId = (RowKey.district w_id' d_id').resourceId := by
  rw [RowKey.same_id_iff]
  simp only [RowKey.slot, RowKey.tableNumber, RowKey.districtIndex, districtPosition] at h ⊢
  omega

theorem customer_id {w_id w_id' d_id d_id' c_id c_id' : ℤ}
    (h : customerPosition c_id d_id w_id = customerPosition c_id' d_id' w_id') :
    (RowKey.customer w_id d_id c_id).resourceId = (RowKey.customer w_id' d_id' c_id').resourceId := by
  rw [RowKey.same_id_iff]
  simp only [RowKey.slot, RowKey.tableNumber, RowKey.districtIndex, customerPosition] at h ⊢
  omega

theorem stock_id {w_id w_id' i_id i_id' : ℤ} (h : stockPosition i_id w_id = stockPosition i_id' w_id') :
    (RowKey.stock w_id i_id).resourceId = (RowKey.stock w_id' i_id').resourceId := by
  rw [RowKey.same_id_iff]
  simp only [RowKey.slot, RowKey.tableNumber, stockPosition] at h ⊢
  omega

/-! ## What a write changes -/

theorem changed_warehouses {w_id : ℤ} {new : Warehouse} (hpos : 0 ≤ warehousePosition w_id)
    (h : Changed db { db with warehouses := db.warehouses.set (warehousePosition w_id).toNat new } k) :
    k.resourceId = (RowKey.warehouse w_id).resourceId := by
  cases k with
  | warehouse => exact warehouse_id (eq_of_rowAt_set_ne h hpos)
  | _ => simp [Changed, getDistrict, getCustomer, getStock] at h

theorem changed_districts {w_id d_id : ℤ} {new : District} (hpos : 0 ≤ districtPosition d_id w_id)
    (h : Changed db { db with districts := db.districts.set (districtPosition d_id w_id).toNat new } k) :
    k.resourceId = (RowKey.district w_id d_id).resourceId := by
  cases k with
  | district => exact district_id (eq_of_rowAt_set_ne h hpos)
  | _ => simp [Changed, getWarehouse, getCustomer, getStock] at h

theorem changed_customers {w_id d_id c_id : ℤ} {new : Customer} (hpos : 0 ≤ customerPosition c_id d_id w_id)
    (h : Changed db { db with customers := db.customers.set (customerPosition c_id d_id w_id).toNat new } k) :
    k.resourceId = (RowKey.customer w_id d_id c_id).resourceId := by
  cases k with
  | customer => exact customer_id (eq_of_rowAt_set_ne h hpos)
  | _ => simp [Changed, getWarehouse, getDistrict, getStock] at h

theorem changed_stocks {w_id i_id : ℤ} {new : Stock} (hpos : 0 ≤ stockPosition i_id w_id)
    (h : Changed db { db with stocks := db.stocks.set (stockPosition i_id w_id).toNat new } k) :
    k.resourceId = (RowKey.stock w_id i_id).resourceId := by
  cases k with
  | stock => exact stock_id (eq_of_rowAt_set_ne h hpos)
  | _ => simp [Changed, getWarehouse, getDistrict, getCustomer] at h

theorem changed_new_orders_append {new : NewOrder} (h : Changed db { db with new_orders := db.new_orders ++ [new] } k) :
    k = .newOrder new.no_w_id new.no_d_id new.no_o_id := by
  cases k with
  | newOrder =>
    obtain ⟨row, hrow, rfl, rfl, rfl⟩ := h
    rw [eq_of_rowChanged_append hrow]
  | _ => simp [Changed, getWarehouse, getDistrict, getCustomer, getStock] at h

theorem changed_histories_append {new : History} (h : Changed db { db with histories := db.histories ++ [new] } k) :
    k = .history new.h_w_id new.h_d_id new.h_c_id := by
  cases k with
  | history =>
    obtain ⟨row, hrow, rfl, rfl, rfl⟩ := h
    rw [eq_of_rowChanged_append hrow]
  | _ => simp [Changed, getWarehouse, getDistrict, getCustomer, getStock] at h

theorem changed_orders_append {new : Order} (h : Changed db { db with orders := db.orders ++ [new] } k) :
    k = .order new.o_w_id new.o_d_id new.o_id := by
  cases k with
  | order =>
    obtain ⟨row, hrow, rfl, rfl, rfl⟩ := h
    rw [eq_of_rowChanged_append hrow]
  | _ => simp [Changed, getWarehouse, getDistrict, getCustomer, getStock] at h

theorem changed_order_lines_append {new : OrderLine}
    (h : Changed db { db with order_lines := db.order_lines ++ [new] } k) :
    k = .orderLine new.ol_w_id new.ol_d_id new.ol_o_id new.ol_number := by
  cases k with
  | orderLine =>
    obtain ⟨row, hrow, rfl, rfl, rfl, rfl⟩ := h
    rw [eq_of_rowChanged_append hrow]
  | _ => simp [Changed, getWarehouse, getDistrict, getCustomer, getStock] at h

/-- the columns that name an order stay as they are -/
theorem changed_orders_set {n : ℕ} {old : Order} {o_carrier_id : ℤ} (hold : db.orders[n]? = some old)
    (h : Changed db { db with orders := db.orders.set n { old with o_carrier_id := o_carrier_id } } k) :
    k = .order old.o_w_id old.o_d_id old.o_id := by
  cases k with
  | order =>
    obtain ⟨row, hrow, rfl, rfl, rfl⟩ := h
    rcases eq_of_rowChanged_set hold hrow with rfl | rfl <;> rfl
  | _ => simp [Changed, getWarehouse, getDistrict, getCustomer, getStock] at h

/-- the columns that name an order line stay as they are -/
theorem changed_order_lines_set {n : ℕ} {old : OrderLine} {ol_delivery_d : ℤ} (hold : db.order_lines[n]? = some old)
    (h : Changed db { db with order_lines := db.order_lines.set n { old with ol_delivery_d := ol_delivery_d } } k) :
    k = .orderLine old.ol_w_id old.ol_d_id old.ol_o_id old.ol_number := by
  cases k with
  | orderLine =>
    obtain ⟨row, hrow, rfl, rfl, rfl, rfl⟩ := h
    rcases eq_of_rowChanged_set hold hrow with rfl | rfl <;> rfl
  | _ => simp [Changed, getWarehouse, getDistrict, getCustomer, getStock] at h

/-! ## Traces -/

/-- the database after a trace that starts from `db` -/
def dbAfter (db : TPCCDatabase) (trace : List Event) : TPCCDatabase :=
  trace.foldl (fun db e => match e with
    | .wrote db' => db'
    | _ => db) db

/-- whenever a write changes a row, the row's lock has been granted in EXCLUSIVE mode before -/
def Covered (db : TPCCDatabase) (trace : List Event) : Prop :=
  ∀ pre after post k, trace = pre ++ .wrote after :: post → Changed (dbAfter db pre) after k →
    .acquired k.resourceId .exclusive true ∈ pre

theorem dbAfter_append (db : TPCCDatabase) (trace : List Event) (e : Event) :
    dbAfter db (trace ++ [e]) = match e with
      | .wrote db' => db'
      | _ => dbAfter db trace := by
  unfold dbAfter
  rw [List.foldl_append]
  rfl

/-- one more event -/
theorem covered_append {trace : List Event} {e : Event} (h : Covered db trace)
    (he : ∀ after k, e = .wrote after → Changed (dbAfter db trace) after k →
      .acquired k.resourceId .exclusive true ∈ trace) : Covered db (trace ++ [e]) := by
  intro pre after post k heq hchanged
  rcases List.eq_nil_or_concat post with rfl | ⟨post, last, rfl⟩
  · obtain ⟨rfl, hlast⟩ := List.append_inj' heq rfl
    exact he after k (List.singleton_inj.1 hlast) hchanged
  · rw [List.concat_eq_append, ← List.cons_append, ← List.append_assoc] at heq
    exact h pre after post k (List.append_inj' heq rfl).1 hchanged

/-- the call goes on: its trace is covered, nothing is released, and these locks are granted in EXCLUSIVE mode -/
structure Open (db : TPCCDatabase) (locks : List ResourceId) (s : Session) : Prop where
  current : s.db = dbAfter db s.trace
  covered : Covered db s.trace
  unreleased : .released ∉ s.trace
  locks : ∀ r ∈ locks, .acquired r .exclusive true ∈ s.trace

/-- the call is over: its trace is covered, and ends with its only release -/
structure Closed (db : TPCCDatabase) (s : Session) : Prop where
  current : s.db = dbAfter db s.trace
  covered : Covered db s.trace
  released : ∃ calls, s.trace = calls ++ [.released] ∧ .released ∉ calls

theorem open_start (db : TPCCDatabase) (txn : Transaction) : Open db [] (.start db txn) where
  current := rfl
  covered pre after post _ h := by simp [Session.start] at h
  unreleased := List.not_mem_nil
  locks _ h := absurd h List.not_mem_nil

variable {locks locks' : List ResourceId} {s : Session} {out : Outside} {r : ResourceId}
  {R : Session → Prop} {α : Type}

theorem Open.mono (h : Open db locks s) (hsub : ∀ r ∈ locks', r ∈ locks) : Open db locks' s :=
  ⟨h.current, h.covered, h.unreleased, fun r hr => h.locks r (hsub r hr)⟩

theorem Open.answered (h : Open db locks s) (r : ResourceId) (m : LockMode) (success : Bool) :
    Open db locks (s.answered r m success) where
  current := by
    rw [Session.answered, dbAfter_append]
    exact h.current
  covered := covered_append h.covered fun _ _ heq => by cases heq
  unreleased := by
    simp only [Session.answered, List.mem_append, List.mem_singleton, not_or]
    exact ⟨h.unreleased, Event.noConfusion⟩
  locks r' hr' := List.mem_append_left _ (h.locks r' hr')

theorem Open.released (h : Open db locks s) (status : TransactionStatus) : Closed db (s.released status) where
  current := by
    rw [Session.released, dbAfter_append]
    exact h.current
  covered := covered_append h.covered fun _ _ heq => by cases heq
  released := ⟨s.trace, rfl, h.unreleased⟩

theorem Open.wrote {after : TPCCDatabase} (h : Open db locks s)
    (hlocks : ∀ k, Changed s.db after k → k.resourceId ∈ locks) : Open db locks (s.wrote after) where
  current := (dbAfter_append db s.trace (.wrote after)).symm
  covered := by
    apply covered_append h.covered
    intro after' k heq hchanged
    cases heq
    exact h.locks _ (hlocks k (h.current ▸ hchanged))
  unreleased := by
    simp only [Session.wrote, List.mem_append, List.mem_singleton, not_or]
    exact ⟨h.unreleased, Event.noConfusion⟩
  locks r' hr' := List.mem_append_left _ (h.locks r' hr')

/-! ## Operations -/

/-- a granted EXCLUSIVE lock is one more to rely on -/
theorem Open.granted (h : Open db locks s) (r : ResourceId) : Open db (r :: locks) (s.answered r .exclusive true) where
  current := (h.answered r .exclusive true).current
  covered := (h.answered r .exclusive true).covered
  unreleased := (h.answered r .exclusive true).unreleased
  locks r' hr' := by
    rcases List.mem_cons.1 hr' with rfl | hr'
    · exact List.mem_append_right _ (List.mem_singleton_self _)
    · exact (h.answered r .exclusive true).locks r' hr'

theorem Open.denied (h : Open db locks s) (r : ResourceId) (m : LockMode) :
    Closed db ((s.answered r m false).released .aborted) := (h.answered r m false).released .aborted

theorem acquire_exclusive : Triple (Open db locks) (acquireOrAbort out r .exclusive) (fun _ => Open db (r :: locks))
    (Closed db) :=
  acquireOrAbort_spec (fun _ hs _ => hs.granted r) fun _ hs _ => hs.denied r .exclusive

theorem acquire_shared : Triple (Open db locks) (acquireOrAbort out r .shared) (fun _ => Open db locks) (Closed db) :=
  acquireOrAbort_spec (fun _ hs _ => hs.answered r .shared true) fun _ hs _ => hs.denied r .shared

theorem releaseAllLocks_closed : Triple (Open db locks) releaseAllLocks (fun _ => Closed db) R :=
  Triple.change fun _ hs => hs.released .committed

theorem readDb_open {g : TPCCDatabase → Option α} :
    Triple (Open db locks) (readDb g) (fun a s => Open db locks s ∧ g s.db = some a) R := Triple.fetch

theorem readSome_open {g : TPCCDatabase → α} :
    Triple (Open db locks) (readDb fun db => some (g db)) (fun a s => Open db locks s ∧ g s.db = a) R :=
  readDb_open.post fun _ _ hs => ⟨hs.1, Option.some.inj hs.2⟩

theorem getCurrentTimestamp_open :
    Triple (Open db locks) (getCurrentTimestamp out) (fun _ => Open db locks) R :=
  Triple.fetch.post fun _ _ hs => hs.1

theorem write_open {P : Session → Prop} {f : TPCCDatabase → TPCCDatabase} (hopen : ∀ s, P s → Open db locks s)
    (hlocks : ∀ s, P s → ∀ k, Changed s.db (f s.db) k → k.resourceId ∈ locks) :
    Triple P (write f) (fun _ => Open db locks) R :=
  Triple.change fun s hs => (hopen s hs).wrote (hlocks s hs)

theorem append_open {f : TPCCDatabase → TPCCDatabase} {key : RowKey} (hf : ∀ db' k, Changed db' (f db') k → k = key)
    (hlocks : key.resourceId ∈ locks) : Triple (Open db locks) (write f) (fun _ => Open db locks) R :=
  write_open (fun _ hs => hs) fun s _ k hk => by rw [hf s.db k hk]; exact hlocks

theorem updateRow_open {rows : TPCCDatabase → List ρ} {withRows : TPCCDatabase → List ρ → TPCCDatabase} {f : ρ → ρ}
    (hlocks : ∀ db' row k, 0 ≤ i → Changed db' (withRows db' ((rows db').set i.toNat (f row))) k →
      k.resourceId ∈ locks) : Triple (Open db locks) (updateRow rows withRows i f) (fun _ => Open db locks) R := by
  apply updateRow_spec
  intro s row hs hpos _
  exact hs.wrote fun k hk => hlocks s.db row k hpos hk

theorem updateWarehouse_open {w_id : ℤ} {f : Warehouse → Warehouse}
    (h : (RowKey.warehouse w_id).resourceId ∈ locks) :
    Triple (Open db locks) (updateWarehouse w_id f) (fun _ => Open db locks) R :=
  updateRow_open fun _ _ _ hpos hk => by rw [changed_warehouses hpos hk]; exact h

theorem updateDistrict_open {d_id w_id : ℤ} {f : District → District}
    (h : (RowKey.district w_id d_id).resourceId ∈ locks) :
    Triple (Open db locks) (updateDistrict d_id w_id f) (fun _ => Open db locks) R :=
  updateRow_open fun _ _ _ hpos hk => by rw [changed_districts hpos hk]; exact h

theorem updateCustomer_open {c_id d_id w_id : ℤ} {f : Customer → Customer}
    (h : (RowKey.customer w_id d_id c_id).resourceId ∈ locks) :
    Triple (Open db locks) (updateCustomer c_id d_id w_id f) (fun _ => Open db locks) R :=
  updateRow_open fun _ _ _ hpos hk => by rw [changed_customers hpos hk]; exact h

theorem updateStock_open {i_id w_id : ℤ} {f : Stock → Stock} (h : (RowKey.stock w_id i_id).resourceId ∈ locks) :
    Triple (Open db locks) (updateStock i_id w_id f) (fun _ => Open db locks) R :=
  updateRow_open fun _ _ _ hpos hk => by rw [changed_stocks hpos hk]; exact h

/-! ## Transactions -/

theorem TPCCNewOrderTransaction.orderItem_open (tx : TPCCNewOrderTransaction) (out : Outside) (o_id : ℤ) (total : ℚ)
    (item : (ℤ × ℤ) × ℕ) :
    Triple (Open db locks) (tx.orderItem .plain out o_id total item) (fun _ => Open db locks) (Closed db) := by
  unfold orderItem
  refine Triple.bind acquire_shared fun _ => ?_
  refine Triple.bind acquire_exclusive fun _ => ?_
  refine Triple.bind (updateStock_open List.mem_cons_self) fun _ => ?_
  refine Triple.bind acquire_exclusive fun _ => ?_
  refine Triple.bind (append_open (fun _ _ => changed_order_lines_append) List.mem_cons_self) fun _ => ?_
  refine Triple.pure fun s hs => hs.mono ?_
  exact fun r hr => List.mem_cons_of_mem _ (List.mem_cons_of_mem _ hr)

theorem TPCCNewOrderTransaction.execute_closed (tx : TPCCNewOrderTransaction) (out : Outside) :
    Triple (Open db []) (tx.execute out) (fun _ => Closed db) (Closed db) := by
  unfold execute executeWith
  refine Triple.bind acquire_exclusive fun _ => ?_
  refine Triple.bind acquire_exclusive fun _ => ?_
  refine Triple.bind (updateDistrict_open List.mem_cons_self) fun district => ?_
  refine Triple.bind acquire_shared fun _ => ?_
  refine Triple.bind getCurrentTimestamp_open fun o_entry_d => ?_
  refine Triple.bind acquire_exclusive fun _ => ?_
  refine Triple.bind acquire_exclusive fun _ => ?_
  refine Triple.bind (append_open (fun _ _ => changed_orders_append) ?_) fun _ => ?_
  · exact List.mem_cons_of_mem _ List.mem_cons_self
  refine Triple.bind (append_open (fun _ _ => changed_new_orders_append) List.mem_cons_self) fun _ => ?_
  refine Triple.bind (Triple.foldlM fun _ item _ total _ => tx.orderItem_open out _ total item) fun total => ?_
  refine Triple.bind (updateWarehouse_open ?_) fun _ => releaseAllLocks_closed
  simp [RowKey.resourceId]

theorem TPCCPaymentTransaction.execute_closed (tx : TPCCPaymentTransaction) (out : Outside) :
    Triple (Open db []) (tx.execute out) (fun _ => Closed db) (Closed db) := by
  unfold execute executeWith
  refine Triple.bind acquire_exclusive fun _ => ?_
  refine Triple.bind (updateWarehouse_open List.mem_cons_self) fun _ => ?_
  refine Triple.bind acquire_exclusive fun _ => ?_
  refine Triple.bind (updateDistrict_open List.mem_cons_self) fun _ => ?_
  refine Triple.bind acquire_exclusive fun _ => ?_
  refine Triple.bind (updateCustomer_open List.mem_cons_self) fun _ => ?_
  refine Triple.bind getCurrentTimestamp_open fun h_date => ?_
  refine Triple.bind acquire_exclusive fun _ => ?_
  refine Triple.bind (append_open (fun _ _ => changed_histories_append) List.mem_cons_self) fun _ => ?_
  exact releaseAllLocks_closed

theorem TPCCOrderStatusTransaction.execute_closed (tx : TPCCOrderStatusTransaction) (out : Outside) :
    Triple (Open db []) (tx.execute out) (fun _ => Closed db) (Closed db) := by
  unfold execute
  refine Triple.bind acquire_shared fun _ => ?_
  refine Triple.bind (readDb_open.post fun _ _ hs => hs.1) fun last_order => ?_
  cases last_order with
  | none => exact releaseAllLocks_closed
  | some last_order =>
    refine Triple.bind acquire_shared fun _ => ?_
    refine Triple.bind (readDb_open.post fun _ _ hs => hs.1) fun order_lines => ?_
    refine Triple.bind (Triple.forM (I := fun _ => Open db []) fun _ ol _ _ => ?_) fun _ => releaseAllLocks_closed
    exact Triple.ite (fun _ => acquire_shared) fun _ => Triple.pure fun _ hs => hs

theorem TPCCDeliveryTransaction.deliverLine_open (out : Outside) (no : NewOrder) (total : ℚ) (i : ℕ) :
    Triple (Open db locks) (deliverLine out no total i) (fun _ => Open db locks) (Closed db) := by
  unfold deliverLine
  refine Triple.bind readDb_open fun ol => ?_
  refine Triple.ite ?_ fun _ => Triple.pure fun _ hs => hs.1
  intro _
  -- the line that is read is still there when its lock has been granted
  refine Triple.bind (M := fun _ s => Open db (ol.resourceId :: locks) s ∧ s.db.order_lines[i]? = some ol)
    (acquireOrAbort_spec (fun _ hs _ => ⟨hs.1.granted ol.resourceId, hs.2⟩) fun _ hs _ => hs.1.denied _ _) fun _ => ?_
  refine Triple.bind (Triple.fetch.post fun _ _ hs => hs.1) fun ol_delivery_d => ?_
  refine Triple.bind (M := fun _ => Open db (ol.resourceId :: locks)) ?_ fun _ => Triple.pure fun s hs => ?_
  · refine write_open (fun _ hs => hs.1) ?_
    intro s hs k hk
    rw [changed_order_lines_set hs.2 hk]
    exact List.mem_cons_self
  · exact hs.mono fun r hr => List.mem_cons_of_mem _ hr

theorem TPCCDeliveryTransaction.findOrder_spec {no : NewOrder} {order : Order × ℕ}
    (h : findOrder db no = some order) : db.orders[order.2]? = some order.1 ∧ order.1.o_id = no.no_o_id ∧
      order.1.o_d_id = no.no_d_id ∧ order.1.o_w_id = no.no_w_id := by
  have hmem := List.mem_of_find?_eq_some h
  have hids := List.find?_some h
  exact ⟨List.mem_zipIdx_iff_getElem?.1 hmem, by simpa using hids⟩

/-- the oldest new order of a district is one of its rows -/
theorem TPCCDeliveryTransaction.oldestNewOrder_mem {tx : TPCCDeliveryTransaction} {no : NewOrder} {d_id : ℤ}
    (h : tx.oldestNewOrder db d_id = some no) :
    no ∈ db.new_orders ∧ no.no_w_id = tx.w_id ∧ no.no_d_id = d_id := by
  have holdest : ∀ no ∈ tx.oldestNewOrder db d_id,
      no ∈ db.new_orders ∧ no.no_w_id = tx.w_id ∧ no.no_d_id = d_id := by
    unfold oldestNewOrder
    refine List.foldlRecOn (motive := fun oldest : Option NewOrder => ∀ no ∈ oldest,
      no ∈ db.new_orders ∧ no.no_w_id = tx.w_id ∧ no.no_d_id = d_id) db.new_orders _ (by simp) ?_
    intro oldest holdest new hmem
    split_ifs with hnew
    · cases oldest with
      | none =>
        rintro _ ⟨⟩
        exact ⟨hmem, hnew⟩
      | some oldest =>
        dsimp only
        split_ifs
        · rintro _ ⟨⟩
          exact ⟨hmem, hnew⟩
        · exact holdest
    · exact holdest
  exact holdest no h

/-- the order that is found goes by the ids of the new order -/
theorem TPCCDeliveryTransaction.deliverOrder_open (tx : TPCCDeliveryTransaction) {no : NewOrder}
    (order : Option (Order × ℕ)) (h : (RowKey.order no.no_w_id no.no_d_id no.no_o_id).resourceId ∈ locks) :
    Triple (fun s => Open db locks s ∧ findOrder s.db no = order) (tx.deliverOrder order) (fun _ => Open db locks)
      R := by
  cases order with
  | none => exact Triple.pure fun _ hs => hs.1
  | some order =>
    unfold deliverOrder
    refine write_open (fun _ hs => hs.1) ?_
    intro s hs k hk
    obtain ⟨hrow, ho, hd, hw⟩ := findOrder_spec hs.2
    rw [changed_orders_set hrow hk, ho, hd, hw]
    exact h

theorem TPCCDeliveryTransaction.chargeCustomer_open (out : Outside) (total : ℚ) (order : Option (Order × ℕ)) :
    Triple (Open db locks) (chargeCustomer .plain out total order) (fun _ => Open db locks) (Closed db) := by
  cases order with
  | none => exact Triple.pure fun _ hs => hs
  | some order =>
    refine Triple.bind acquire_exclusive fun _ => ?_
    refine Triple.bind (updateCustomer_open List.mem_cons_self) fun _ => ?_
    exact Triple.pure fun _ hs => hs.mono fun _ hr => List.mem_cons_of_mem _ hr

theorem TPCCDeliveryTransaction.deliver_open (tx : TPCCDeliveryTransaction) (out : Outside) (no : NewOrder) :
    Triple (Open db []) (tx.deliver .plain out no) (fun _ => Open db []) (Closed db) := by
  unfold deliver
  refine Triple.bind acquire_exclusive fun _ => ?_
  refine Triple.bind acquire_exclusive fun _ => ?_
  refine Triple.bind readSome_open fun order => ?_
  have hlock : (RowKey.order no.no_w_id no.no_d_id no.no_o_id).resourceId ∈
      [getTPCCResourceId .order no.no_w_id no.no_d_id 0 0 no.no_o_id 0,
        getTPCCResourceId .newOrder no.no_w_id no.no_d_id 0 0 no.no_o_id 0] := List.mem_cons_self
  refine Triple.bind (tx.deliverOrder_open order hlock) fun _ => ?_
  refine Triple.bind (readDb_open.post fun _ _ hs => hs.1) fun lines => ?_
  refine Triple.bind (Triple.foldlM fun _ i _ total _ => deliverLine_open out no total i) fun total => ?_
  exact (chargeCustomer_open out total order).post fun _ _ hs => hs.mono fun _ hr => absurd hr List.not_mem_nil

theorem TPCCDeliveryTransaction.execute_closed (tx : TPCCDeliveryTransaction) (out : Outside) :
    Triple (Open db []) (tx.execute out) (fun _ => Closed db) (Closed db) := by
  unfold execute executeWith
  refine Triple.bind (Triple.forM (I := fun _ => Open db []) fun _ d_id _ _ => ?_) fun _ => releaseAllLocks_closed
  unfold deliverDistrict
  refine Triple.bind (readDb_open.post fun _ _ hs => hs.1) fun oldest_new_order => ?_
  cases oldest_new_order with
  | none => exact Triple.pure fun _ hs => hs
  | some no => exact tx.deliver_open out no

theorem TPCCStockLevelTransaction.execute_closed (tx : TPCCStockLevelTransaction) (out : Outside) :
    Triple (Open db []) (tx.execute out) (fun _ => Closed db) (Closed db) := by
  unfold execute executeWith
  rw [RowAccess.plain_getDistrict]
  refine Triple.bind acquire_shared fun _ => ?_
  refine Triple.bind (readDb_open.post fun _ _ hs => hs.1) fun _ => ?_
  refine Triple.bind (readDb_open.post fun _ _ hs => hs.1) fun last_20_o_ids => ?_
  refine Triple.bind (Triple.foldlM (I := fun _ _ => Open db []) fun _ o_id _ low _ => ?_) fun _ =>
    releaseAllLocks_closed
  unfold checkOrder
  refine Triple.bind (readDb_open.post fun _ _ hs => hs.1) fun order_lines => ?_
  refine Triple.foldlM (I := fun _ _ => Open db []) fun _ ol _ low _ => ?_
  unfold checkStock
  rw [RowAccess.plain_getStock]
  refine Triple.ite (fun _ => ?_) fun _ => Triple.pure fun _ hs => hs
  refine Triple.bind acquire_shared fun _ => ?_
  exact Triple.bind (readDb_open.post fun _ _ hs => hs.1) fun _ => Triple.pure fun _ hs => hs

theorem TPCCTransaction.body_closed (tx : TPCCTransaction) (out : Outside) (db : TPCCDatabase) :
    Triple (Open db []) (tx.body out) (fun _ => Closed db) (Closed db) := by
  cases tx with
  | newOrder tx => exact tx.execute_closed out
  | payment tx => exact tx.execute_closed out
  | orderStatus tx => exact tx.execute_closed out
  | delivery tx => exact tx.execute_closed out
  | stockLevel tx => exact tx.execute_closed out

/-- **Writes are covered.** On every path of every transaction, granted or denied whatever it asks for, the trace ends
with the only release of the call, it accounts for the database after, and whenever a write in it changes a row, the
row's lock has been granted in EXCLUSIVE mode before. -/
theorem writes_covered {tx : TPCCTransaction} {out : Outside} {db : TPCCDatabase} {txn : Transaction} {returned : Bool}
    {s : Session} (h : tx.execute out db txn = some (returned, s)) :
    (∃ calls, s.trace = calls ++ [.released] ∧ .released ∉ calls) ∧ s.db = dbAfter db s.trace ∧
    ∀ pre after post k, s.trace = pre ++ .wrote after :: post → Changed (dbAfter db pre) after k →
      .acquired k.resourceId .exclusive true ∈ pre := by
  obtain ⟨⟨res, s'⟩, hrun, heq⟩ := Option.map_eq_some_iff.1 h
  obtain rfl : s' = s := congrArg Prod.snd heq
  have hclosed : Closed db s' := by
    have htriple := tx.body_closed out db
    cases res with
    | none => exact htriple.stopped (open_start db txn) hrun
    | some _ => exact htriple.returned (open_start db txn) hrun
  exact ⟨hclosed.released, hclosed.current, hclosed.covered⟩

/-- one warehouse with one district and one customer -/
def smallDatabase : TPCCDatabase where
  warehouses := [⟨1, 0⟩]
  districts := [⟨1, 1, 0, 1⟩]
  customers := [⟨1, 1, 1, 0, 0, 0, 0⟩]
  histories := []
  orders := []
  new_orders := []
  order_lines := []
  items := []
  stocks := []

/-- these answers come first, and then no request is denied -/
def answering (answers : List Bool) : Outside where
  answer n := answers.getD n true
  timestamp _ := 0
  randomDouble _ := 1
  randomWarehouseId _ := 1
  rawCarrierId := 0
  rawDeliveryD _ := 0

/-- customer 1 pays 10 -/
def payTen : TPCCTransaction := .payment ⟨1, 1, 1, 1, 1, 10⟩

def tpccObject : Transaction := TransactionManager.newTransaction .quiet 1 1 []

def paid : Session := ((payTen.execute (answering []) smallDatabase tpccObject).get rfl).2

/-- a payment writes four rows under four locks -/
theorem writes_covered_paid : paid.trace.length = 9 ∧
    ((∃ calls, paid.trace = calls ++ [.released] ∧ .released ∉ calls) ∧ paid.db = dbAfter smallDatabase paid.trace ∧
      ∀ pre after post k, paid.trace = pre ++ .wrote after :: post → Changed (dbAfter smallDatabase pre) after k →
        .acquired k.resourceId .exclusive true ∈ pre) := by
  refine ⟨rfl, ?_⟩
  have hrun : payTen.execute (answering []) smallDatabase tpccObject = some (true, paid) := rfl
  exact writes_covered hrun

end Tpcc

end HawkTxn
