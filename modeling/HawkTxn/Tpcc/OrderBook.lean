/-
The order book of a district (`tpcc_transaction.cpp`, `tpcc_data_generator.cpp`).

A New-Order takes the district's next number, then appends the order, its new-order row and its lines one at a time. If
none is denied on the way and all are for one of the ten districts of their warehouse, no number is left out: the
orders of a district are 1, 2, .. up to its next number, in the order of the table, and each has all its lines. This is
what Stock-Level goes by: sorting all numbers of the district and taking the last twenty, it looks at the twenty
numbers before the next one.

Results:
- `execute_numbered`: a New-Order takes one number and uses it;
- `execute_complete`: it appends as many lines as the order says;
- `orderBook_of_reaches`: the book of every district;
- `last20OrderIds_of_reaches`: the orders Stock-Level looks at.
-/
import HawkTxn.Tpcc.GeneratedData

namespace HawkTxn

open HawkTxn.Core

namespace Tpcc

open TPCCDatabase TPCCDataGenerator

/-! ## Books -/

/-- the orders, the new orders and the lines of a district whose next number this is -/
structure DistrictBook (db : TPCCDatabase) (d_id w_id next : ℤ) : Prop where
  order_ids : (db.districtOrders d_id w_id).map (·.o_id) = intRange 1 (next - 1)
  new_order_ids : (db.districtNewOrders d_id w_id).map (·.no_o_id) = intRange 2101 (next - 1)
  line_numbers : ∀ order ∈ db.districtOrders d_id w_id,
    (db.linesOf order).map (·.ol_number) = intRange 1 order.o_ol_cnt

/-- a New-Order that is not denied, for one of the ten districts of its warehouse -/
def Orderly (db : TPCCDatabase) (c : Call) : Prop :=
  match c.tx with
  | .newOrder tx => c.Succeeds db ∧ tx.d_id ∈ intRange 1 10
  | .payment _ | .orderStatus _ | .delivery _ | .stockLevel _ => True

variable {db db₀ db' : TPCCDatabase} {out : Outside} {n : ℕ} {draws : Draws} {c : Call} {w d o_id a b : ℤ}

theorem intRange_append {lo m hi : ℤ} (hlo : lo ≤ m) (hhi : m ≤ hi + 1) :
    intRange lo (m - 1) ++ intRange m hi = intRange lo hi := by
  have hlen : (hi - lo + 1).toNat = (m - 1 - lo + 1).toNat + (hi - m + 1).toNat := by omega
  rw [intRange, intRange, intRange, hlen, List.range_add, List.map_append, List.map_map]
  congr 1
  refine List.map_congr_left fun i _ => ?_
  simp only [Function.comp_apply]
  push_cast
  omega

theorem intRange_concat {lo hi : ℤ} (h : lo ≤ hi) : intRange lo (hi - 1) ++ [hi] = intRange lo hi := by
  have hlast : intRange hi hi = [hi] := by simp [intRange]
  rw [← hlast, intRange_append h (Int.le_add_one le_rfl)]

theorem pairwise_intRange (lo hi : ℤ) : (intRange lo hi).Pairwise (· ≤ ·) := by
  rw [intRange, List.pairwise_map]
  exact List.pairwise_le_range.imp fun h => by omega

/-! ## Numbers -/

def TPCCDatabase.nextNumber (db : TPCCDatabase) (d_id w_id : ℤ) : Option ℤ :=
  (db.getDistrict d_id w_id).map District.d_next_o_id

/-- the numbers of a district: its next one, and those of its orders and new orders up to a and b -/
structure Numbers (db : TPCCDatabase) (d_id w_id next a b : ℤ) : Prop where
  next_number : db.nextNumber d_id w_id = some next
  order_ids : (db.districtOrders d_id w_id).map (·.o_id) = intRange 1 a
  new_order_ids : (db.districtNewOrders d_id w_id).map (·.no_o_id) = intRange 2101 b

/-- all numbers up to the next have been used -/
def AllUsed (db : TPCCDatabase) (d_id w_id : ℤ) : Prop :=
  ∃ next, 3000 < next ∧ Numbers db d_id w_id next (next - 1) (next - 1)

/-- all numbers of all districts -/
def AllNumbered (n : ℕ) (db : TPCCDatabase) : Prop := ∀ w ∈ intRange 1 n, ∀ d ∈ intRange 1 10, AllUsed db d w

/-- in the middle of a New-Order of a district -/
structure Using (n : ℕ) (d_id w_id o_id a b : ℤ) (db : TPCCDatabase) : Prop where
  others : ∀ w ∈ intRange 1 n, ∀ d ∈ intRange 1 10, (w, d) ≠ (w_id, d_id) → AllUsed db d w
  after_first : 3000 < o_id
  own : Numbers db d_id w_id (o_id + 1) a b

theorem AllNumbered.of_using (h : Using n d w o_id o_id o_id db) : AllNumbered n db := by
  intro w' hw' d' hd'
  by_cases hkey : (w', d') = (w, d)
  · obtain ⟨rfl, rfl⟩ := Prod.mk.injEq _ _ _ _ ▸ hkey
    have hnext : o_id + 1 - 1 = o_id := add_sub_cancel_right o_id 1
    refine ⟨o_id + 1, h.after_first.trans (Int.lt_succ o_id), ?_⟩
    rw [hnext]
    exact h.own
  · exact h.others w' hw' d' hd' hkey

/-- the ids of a district's orders, from the keys of all -/
theorem districtOrders_ids (db : TPCCDatabase) (d_id w_id : ℤ) : (db.districtOrders d_id w_id).map (·.o_id) =
    (db.orderKeys.filter fun k => k.1 = w_id ∧ k.2.1 = d_id).map fun k => k.2.2 := by
  rw [districtOrders, orderKeys, List.filter_map, List.map_map]
  rfl

/-- what the numbers depend on -/
theorem Numbers.of_same {next : ℤ} (h : Numbers db d w next a b) (hnext : db'.nextNumber d w = db.nextNumber d w)
    (horders : db'.orderKeys = db.orderKeys) (hnew : db'.new_orders = db.new_orders) : Numbers db' d w next a b where
  next_number := hnext.trans h.next_number
  order_ids := by
    rw [districtOrders_ids, horders, ← districtOrders_ids]
    exact h.order_ids
  new_order_ids := by
    rw [districtNewOrders, hnew]
    exact h.new_order_ids

theorem AllUsed.of_same (h : AllUsed db d w) (hnext : db'.nextNumber d w = db.nextNumber d w)
    (horders : db'.orderKeys = db.orderKeys) (hnew : db'.new_orders = db.new_orders) : AllUsed db' d w := by
  obtain ⟨next, hfirst, hnumbers⟩ := h
  exact ⟨next, hfirst, hnumbers.of_same hnext horders hnew⟩

theorem AllNumbered.of_same (h : AllNumbered n db) (hnext : ∀ d w, db'.nextNumber d w = db.nextNumber d w)
    (horders : db'.orderKeys = db.orderKeys) (hnew : db'.new_orders = db.new_orders) : AllNumbered n db' :=
  fun w hw d hd => (h w hw d hd).of_same (hnext d w) horders hnew

theorem Using.of_same (h : Using n d w o_id a b db) (hdistricts : db'.districts = db.districts)
    (horders : db'.orderKeys = db.orderKeys) (hnew : db'.new_orders = db.new_orders) : Using n d w o_id a b db' := by
  have hnext : ∀ d w, db'.nextNumber d w = db.nextNumber d w := by
    intro d w
    rw [nextNumber, getDistrict, hdistricts]
    rfl
  exact ⟨fun w' hw' d' hd' hne => (h.others w' hw' d' hd' hne).of_same (hnext d' w') horders hnew, h.after_first,
    h.own.of_same (hnext d w) horders hnew⟩

theorem nextNumber_set {i : ℤ} {row new : District} (hi : 0 ≤ i) (hrow : db.districts[i.toNat]? = some row) :
    nextNumber { db with districts := db.districts.set i.toNat new } d w =
      if districtPosition d w = i then some new.d_next_o_id else db.nextNumber d w := by
  rw [nextNumber, getDistrict, rowAt_set hi (List.getElem?_eq_some_iff.1 hrow).1]
  split_ifs <;> rfl

/-- the next number is taken -/
theorem AllNumbered.take {row : District} (h : AllNumbered n db) (hw : w ∈ intRange 1 n) (hd : d ∈ intRange 1 10)
    (hpos : 0 ≤ districtPosition d w) (hrow : db.districts[(districtPosition d w).toNat]? = some row) :
    Using n d w row.d_next_o_id (row.d_next_o_id - 1) (row.d_next_o_id - 1) { db with
      districts := db.districts.set (districtPosition d w).toNat
        { row with d_next_o_id := row.d_next_o_id + 1 } } := by
  obtain ⟨next, hfirst, hnumbers⟩ := h w hw d hd
  have hnext : next = row.d_next_o_id := by
    have hget : db.nextNumber d w = some row.d_next_o_id := by
      rw [nextNumber, getDistrict, rowAt_eq_some.2 ⟨hpos, hrow⟩]
      rfl
    exact Option.some.inj (hnumbers.next_number.symm.trans hget)
  subst hnext
  refine ⟨?_, hfirst, ?_, hnumbers.order_ids, hnumbers.new_order_ids⟩
  · intro w' hw' d' hd' hne
    refine (h w' hw' d' hd').of_same ?_ rfl rfl
    rw [nextNumber_set hpos hrow, if_neg]
    intro heq
    obtain ⟨rfl, rfl⟩ := districtPosition_inj (mem_intRange.1 hd') (mem_intRange.1 hd) heq
    exact hne rfl
  · rw [nextNumber_set hpos hrow, if_pos rfl]

theorem districtOrders_concat (db : TPCCDatabase) (order : Order) (d_id w_id : ℤ) :
    districtOrders { db with orders := db.orders ++ [order] } d_id w_id =
      db.districtOrders d_id w_id ++ if order.o_w_id = w_id ∧ order.o_d_id = d_id then [order] else [] := by
  rw [districtOrders, List.filter_append, List.filter_singleton, Bool.cond_decide]
  rfl

theorem districtNewOrders_concat (db : TPCCDatabase) (no : NewOrder) (d_id w_id : ℤ) :
    districtNewOrders { db with new_orders := db.new_orders ++ [no] } d_id w_id =
      db.districtNewOrders d_id w_id ++ if no.no_w_id = w_id ∧ no.no_d_id = d_id then [no] else [] := by
  rw [districtNewOrders, List.filter_append, List.filter_singleton, Bool.cond_decide]
  rfl

/-- the order is appended -/
theorem Using.append_order {order : Order} (h : Using n d w o_id (o_id - 1) b db) (hkey : order.key = (w, d, o_id)) :
    Using n d w o_id o_id b { db with orders := db.orders ++ [order] } := by
  have hw : order.o_w_id = w := congrArg (fun k => k.1) hkey
  have hd : order.o_d_id = d := congrArg (fun k => k.2.1) hkey
  have ho : order.o_id = o_id := congrArg (fun k => k.2.2) hkey
  refine ⟨?_, h.after_first, h.own.next_number, ?_, h.own.new_order_ids⟩
  · intro w' hw' d' hd' hne
    obtain ⟨next, hfirst, hnumbers⟩ := h.others w' hw' d' hd' hne
    refine ⟨next, hfirst, hnumbers.next_number, ?_, hnumbers.new_order_ids⟩
    have helsewhere : ¬ (order.o_w_id = w' ∧ order.o_d_id = d') := by
      rintro ⟨rfl, rfl⟩
      exact hne (by rw [hw, hd])
    rw [districtOrders_concat, if_neg helsewhere, List.append_nil]
    exact hnumbers.order_ids
  · have hown : order.o_w_id = w ∧ order.o_d_id = d := ⟨hw, hd⟩
    have hfirst := h.after_first
    have hconcat : intRange 1 (o_id - 1) ++ [o_id] = intRange 1 o_id := intRange_concat (by omega)
    rw [districtOrders_concat, if_pos hown, List.map_append, h.own.order_ids, List.map_singleton, ho, hconcat]

/-- its new-order row is appended -/
theorem Using.append_new_order {no : NewOrder} (h : Using n d w o_id a (o_id - 1) db) (hkey : no.key = (w, d, o_id)) :
    Using n d w o_id a o_id { db with new_orders := db.new_orders ++ [no] } := by
  have hw : no.no_w_id = w := congrArg (fun k => k.1) hkey
  have hd : no.no_d_id = d := congrArg (fun k => k.2.1) hkey
  have ho : no.no_o_id = o_id := congrArg (fun k => k.2.2) hkey
  refine ⟨?_, h.after_first, h.own.next_number, h.own.order_ids, ?_⟩
  · intro w' hw' d' hd' hne
    obtain ⟨next, hfirst, hnumbers⟩ := h.others w' hw' d' hd' hne
    refine ⟨next, hfirst, hnumbers.next_number, hnumbers.order_ids, ?_⟩
    have helsewhere : ¬ (no.no_w_id = w' ∧ no.no_d_id = d') := by
      rintro ⟨rfl, rfl⟩
      exact hne (by rw [hw, hd])
    rw [districtNewOrders_concat, if_neg helsewhere, List.append_nil]
    exact hnumbers.new_order_ids
  · have hown : no.no_w_id = w ∧ no.no_d_id = d := ⟨hw, hd⟩
    have hfirst := h.after_first
    have hconcat : intRange 2101 (o_id - 1) ++ [o_id] = intRange 2101 o_id := intRange_concat (by omega)
    rw [districtNewOrders_concat, if_pos hown, List.map_append, h.own.new_order_ids, List.map_singleton, ho, hconcat]

/-- a New-Order takes one number and uses it -/
theorem TPCCNewOrderTransaction.execute_numbered (tx : TPCCNewOrderTransaction) (hd_id : tx.d_id ∈ intRange 1 10) :
    Triple (On fun db => Sized n db ∧ AllNumbered n db) (tx.execute out) (fun _ => On (AllNumbered n))
      (fun _ => True) := by
  unfold execute executeWith
  refine Triple.bind (acquire_on fun _ _ => trivial) fun _ => ?_
  refine Triple.bind (acquire_on fun _ _ => trivial) fun _ => ?_
  rw [RowAccess.plain_updateDistrict]
  refine Triple.bind (updateRow_on (G := fun row => Using n tx.d_id tx.w_id row.d_next_o_id (row.d_next_o_id - 1)
    (row.d_next_o_id - 1)) ?_) fun district => ?_
  · intro db row hdb hpos hrow
    obtain ⟨hsized, h⟩ := hdb
    refine h.take ?_ hd_id hpos hrow
    have hlt := (List.getElem?_eq_some_iff.1 hrow).1
    rw [hsized.districts] at hlt
    rw [mem_intRange] at hd_id ⊢
    unfold districtPosition at hpos hlt
    omega
  refine Triple.bind (acquire_on fun _ _ => trivial) fun _ => ?_
  refine Triple.bind getCurrentTimestamp_on fun o_entry_d => ?_
  refine Triple.bind (acquire_on fun _ _ => trivial) fun _ => ?_
  refine Triple.bind (acquire_on fun _ _ => trivial) fun _ => ?_
  refine Triple.bind (write_on fun db h => h.append_order rfl) fun _ => ?_
  refine Triple.bind (write_on fun db h => h.append_new_order rfl) fun _ => ?_
  refine Triple.bind (Triple.foldlM (I := fun _ _ => On (Using n tx.d_id tx.w_id district.d_next_o_id
    district.d_next_o_id district.d_next_o_id)) fun _ item _ total_order_amount _ => ?_) fun total_order_amount => ?_
  · unfold orderItem
    refine Triple.bind (acquire_on fun _ _ => trivial) fun _ => ?_
    refine Triple.bind (acquire_on fun _ _ => trivial) fun _ => ?_
    refine Triple.bind (updateRow_on fun db row h _ _ => h.of_same rfl rfl rfl) fun _ => ?_
    refine Triple.bind (acquire_on fun _ _ => trivial) fun _ => ?_
    exact Triple.bind (write_on fun db h => h.of_same rfl rfl rfl) fun _ => Triple.pure fun _ hs => hs
  rw [RowAccess.plain_updateWarehouse]
  refine Triple.bind (updateRow_on (G := fun _ => AllNumbered n) ?_) fun _ => releaseAllLocks_on
  exact fun db row h _ _ => AllNumbered.of_using (h.of_same rfl rfl rfl)

/-! ## Lines -/

/-- the numbers of the lines of an order -/
def TPCCDatabase.lineNumbers (db : TPCCDatabase) (k : ℤ × ℤ × ℤ) : List ℤ :=
  (db.order_lines.filter fun ol => ol.orderKey = k).map OrderLine.ol_number

/-- the key of an order, and how many lines it says it has -/
def Order.announced (order : Order) : (ℤ × ℤ × ℤ) × ℤ := (order.key, order.o_ol_cnt)

/-- every order has all its lines, apart from one order -/
def CompleteBut (but : ℤ × ℤ × ℤ → Prop) (db : TPCCDatabase) : Prop :=
  ∀ o ∈ db.orders.map Order.announced, ¬ but o.1 → db.lineNumbers o.1 = intRange 1 o.2

/-- every order has all its lines -/
def Complete (db : TPCCDatabase) : Prop := CompleteBut (fun _ => False) db

/-- the order k has m of cnt lines, the others have all of theirs -/
structure Filling (k : ℤ × ℤ × ℤ) (cnt : ℤ) (m : ℕ) (db : TPCCDatabase) : Prop where
  lined : Lined k m db
  others : CompleteBut (fun k' => k' = k) db
  count : ∀ o ∈ db.orders.map Order.announced, o.1 = k → o.2 = cnt
  numbers : db.lineNumbers k = intRange 1 m

/-- its lines are the lines with its key -/
theorem linesOf_numbers (db : TPCCDatabase) (order : Order) :
    (db.linesOf order).map (·.ol_number) = db.lineNumbers order.key := by
  rw [linesOf, lineNumbers]
  congr 1
  refine List.filter_congr fun ol _ => decide_eq_decide.2 ?_
  simp only [OrderLine.Of, OrderLine.orderKey, Order.key, Prod.mk.injEq]
  tauto

theorem CompleteBut.of_same {but : ℤ × ℤ × ℤ → Prop} (h : CompleteBut but db)
    (horders : db'.orders.map Order.announced = db.orders.map Order.announced)
    (hlines : db'.order_lines.map OrderLine.key = db.order_lines.map OrderLine.key) : CompleteBut but db' := by
  have hnumbers : ∀ (db : TPCCDatabase) k, db.lineNumbers k =
      ((db.order_lines.map OrderLine.key).filter fun l => l.1 = k).map Prod.snd := by
    intro db k
    rw [lineNumbers, List.filter_map, List.map_map]
    rfl
  intro o ho hbut
  rw [horders] at ho
  rw [hnumbers, hlines, ← hnumbers]
  exact h o ho hbut

theorem lineNumbers_concat (db : TPCCDatabase) (ol : OrderLine) (k : ℤ × ℤ × ℤ) :
    lineNumbers { db with order_lines := db.order_lines ++ [ol] } k =
      db.lineNumbers k ++ if ol.orderKey = k then [ol.ol_number] else [] := by
  rw [lineNumbers, List.filter_append, List.filter_singleton, Bool.cond_decide, List.map_append]
  split_ifs <;> rfl

/-- an order that was not there is the only one that is not complete -/
theorem CompleteBut.append_order {order : Order} {k : ℤ × ℤ × ℤ} (h : Complete db) (hkey : order.key = k)
    (hfresh : k ∉ db.orderKeys) : CompleteBut (fun k' => k' = k) { db with orders := db.orders ++ [order] } ∧
      ∀ o ∈ (db.orders ++ [order]).map Order.announced, o.1 = k → o.2 = order.o_ol_cnt := by
  refine ⟨?_, ?_⟩
  · intro o ho hne
    rw [List.map_append] at ho
    rcases List.mem_append.1 ho with ho | ho
    · exact h o ho id
    · rw [List.map_singleton, List.mem_singleton] at ho
      subst ho
      exact absurd hkey hne
  · intro o ho heq
    rw [List.map_append] at ho
    rcases List.mem_append.1 ho with ho | ho
    · obtain ⟨order', horder', rfl⟩ := List.mem_map.1 ho
      exact absurd (List.mem_map.2 ⟨order', horder', heq⟩) hfresh
    · rw [List.map_singleton, List.mem_singleton] at ho
      subst ho
      rfl

theorem Filling.append_line {k : ℤ × ℤ × ℤ} {cnt : ℤ} {m : ℕ} {ol : OrderLine} (h : Filling k cnt m db)
    (hkey : ol.orderKey = k) (hnumber : ol.ol_number = m + 1) :
    Filling k cnt (m + 1) { db with order_lines := db.order_lines ++ [ol] } where
  lined := h.lined.append hkey hnumber
  others := by
    intro o ho hne
    have helse : ol.orderKey ≠ o.1 := fun heq => hne (heq.symm.trans hkey)
    rw [lineNumbers_concat, if_neg helse, List.append_nil]
    exact h.others o ho hne
  count := h.count
  numbers := by
    have hconcat : intRange 1 ((m : ℤ) + 1 - 1) ++ [(m : ℤ) + 1] = intRange 1 (m + 1) := intRange_concat (by omega)
    rw [add_sub_cancel_right] at hconcat
    rw [lineNumbers_concat, if_pos hkey, h.numbers, hnumber, hconcat]
    push_cast
    rfl

/-- all of its lines are there -/
theorem Filling.complete {k : ℤ × ℤ × ℤ} {m : ℕ} (h : Filling k m m db) : Complete db := by
  intro o ho _
  by_cases hk : o.1 = k
  · rw [hk, h.numbers, h.count o ho hk]
  · exact h.others o ho hk

/-- a New-Order appends as many lines as the order says -/
theorem TPCCNewOrderTransaction.execute_complete (tx : TPCCNewOrderTransaction) :
    Triple (On fun db => OrderKeys db ∧ Complete db) (tx.execute out) (fun _ => On Complete) (fun _ => True) := by
  unfold execute executeWith
  refine Triple.bind (acquire_on fun _ _ => trivial) fun _ => ?_
  refine Triple.bind (acquire_on fun _ _ => trivial) fun _ => ?_
  rw [RowAccess.plain_updateDistrict]
  refine Triple.bind (updateRow_on (G := fun row db =>
    Reserved (tx.w_id, tx.d_id, row.d_next_o_id) db ∧ Complete db) ?_) fun district => ?_
  · exact fun db row h hpos hrow => ⟨h.1.reserve hpos hrow, h.2.of_same rfl rfl⟩
  refine Triple.bind (acquire_on fun _ _ => trivial) fun _ => ?_
  refine Triple.bind getCurrentTimestamp_on fun o_entry_d => ?_
  refine Triple.bind (acquire_on fun _ _ => trivial) fun _ => ?_
  refine Triple.bind (acquire_on fun _ _ => trivial) fun _ => ?_
  refine Triple.bind (write_on (G := fun db => Appended (tx.w_id, tx.d_id, district.d_next_o_id) db ∧
    CompleteBut (fun k => k = (tx.w_id, tx.d_id, district.d_next_o_id)) db ∧
    ∀ o ∈ db.orders.map Order.announced, o.1 = (tx.w_id, tx.d_id, district.d_next_o_id) →
      o.2 = tx.item_info.length) ?_) fun _ => ?_
  · exact fun db h => ⟨h.1.append rfl, CompleteBut.append_order h.2 rfl h.1.fresh⟩
  refine Triple.bind (write_on (G := Filling (tx.w_id, tx.d_id, district.d_next_o_id) tx.item_info.length 0) ?_)
    fun _ => ?_
  · intro db h
    obtain ⟨happended, hothers, hcount⟩ := h
    refine ⟨happended.append rfl, hothers, hcount, ?_⟩
    have hnone : (db.order_lines.filter fun ol => ol.orderKey = (tx.w_id, tx.d_id, district.d_next_o_id)) = [] := by
      rw [List.filter_eq_nil_iff]
      exact fun ol hol heq => happended.lines ol hol (of_decide_eq_true heq)
    rw [lineNumbers, hnone]
    rfl
  refine Triple.bind (Triple.foldlM (I := fun done _ =>
    On (Filling (tx.w_id, tx.d_id, district.d_next_o_id) tx.item_info.length done.length)) ?_) fun total => ?_
  · intro done item rest total hitems
    rw [List.length_append, ← zipIdx_position hitems]
    unfold orderItem
    refine Triple.bind (acquire_on fun _ _ => trivial) fun _ => ?_
    refine Triple.bind (acquire_on fun _ _ => trivial) fun _ => ?_
    refine Triple.bind (updateRow_on (G := fun _ =>
      Filling (tx.w_id, tx.d_id, district.d_next_o_id) tx.item_info.length item.2) ?_) fun _ => ?_
    · exact fun db row h _ _ => ⟨⟨h.lined.keys.of_rows rfl rfl rfl rfl, h.lined.order, h.lined.lines⟩,
        h.others.of_same rfl rfl, h.count, h.numbers⟩
    refine Triple.bind (acquire_on fun _ _ => trivial) fun _ => ?_
    refine Triple.bind (write_on fun db h => ?_) fun _ => Triple.pure fun _ hs => hs
    exact h.append_line rfl rfl
  rw [RowAccess.plain_updateWarehouse]
  refine Triple.bind (updateRow_on (G := fun _ => Complete) ?_) fun _ => releaseAllLocks_on
  intro db row h _ _
  rw [List.length_zipIdx] at h
  exact h.complete.of_same rfl rfl

/-! ## Other calls -/

theorem keptByPayment_numbered : KeptByPayment (AllNumbered n) where
  warehouse _ _ _ _ h _ _ := h.of_same (fun _ _ => rfl) rfl rfl
  district db i row d_ytd h hi hrow := by
    refine h.of_same (fun d w => ?_) rfl rfl
    rw [nextNumber_set hi hrow]
    split_ifs with hpos
    · rw [nextNumber, getDistrict, hpos, rowAt_eq_some.2 ⟨hi, hrow⟩]
      rfl
    · rfl
  customer _ _ _ _ _ _ h _ _ := h.of_same (fun _ _ => rfl) rfl rfl
  history _ _ h := h.of_same (fun _ _ => rfl) rfl rfl

theorem keptByDelivery_numbered : KeptByDelivery (AllNumbered n) where
  carrier _ _ _ _ h hrow := h.of_same (fun _ _ => rfl) (map_set_of_key (f := Order.key) hrow rfl) rfl
  date _ _ _ _ h _ := h.of_same (fun _ _ => rfl) rfl rfl
  customers _ _ h _ := h.of_same (fun _ _ => rfl) rfl rfl

theorem keptByPayment_complete : KeptByPayment Complete where
  warehouse _ _ _ _ h _ _ := h.of_same rfl rfl
  district _ _ _ _ h _ _ := h.of_same rfl rfl
  customer _ _ _ _ _ _ h _ _ := h.of_same rfl rfl
  history _ _ h := h.of_same rfl rfl

theorem keptByDelivery_complete : KeptByDelivery Complete where
  carrier _ _ _ _ h hrow := h.of_same (map_set_of_key hrow rfl) rfl
  date _ _ _ _ h hrow := h.of_same rfl (map_set_of_key hrow rfl)
  customers _ _ h _ := h.of_same rfl rfl

/-- what an orderly run keeps -/
structure InOrder (n : ℕ) (db : TPCCDatabase) : Prop where
  sized : Sized n db
  keys : OrderKeys db
  numbered : AllNumbered n db
  complete : Complete db

theorem callStep_inOrder (h : InOrder n db) (hc : Orderly db c) (hst : callStep db c = some db') : InOrder n db' := by
  have hkept : AllNumbered n db' ∧ Complete db' := by
    obtain ⟨tx, out, txn⟩ := c
    cases tx with
    | newOrder tx =>
      obtain ⟨⟨s, hrun⟩, hd_id⟩ := hc
      obtain rfl : s.db = db' := by
        rw [callStep, hrun] at hst
        exact Option.some.inj hst
      exact ⟨execute_returned (tx.execute_numbered hd_id) hrun ⟨h.sized, h.numbered⟩,
        execute_returned tx.execute_complete hrun ⟨h.keys, h.complete⟩⟩
    | payment tx => exact ⟨callStep_kept (tx.execute_keeps keptByPayment_numbered) hst h.numbered,
        callStep_kept (c := ⟨.payment tx, out, txn⟩) (tx.execute_keeps keptByPayment_complete) hst h.complete⟩
    | orderStatus tx => exact ⟨callStep_kept tx.execute_keeps hst h.numbered,
        callStep_kept tx.execute_keeps hst h.complete⟩
    | stockLevel tx => exact ⟨callStep_kept tx.execute_keeps hst h.numbered,
        callStep_kept tx.execute_keeps hst h.complete⟩
    | delivery tx => exact ⟨callStep_kept (tx.execute_keeps keptByDelivery_numbered) hst h.numbered,
        callStep_kept (c := ⟨.delivery tx, out, txn⟩) (tx.execute_keeps keptByDelivery_complete) hst h.complete⟩
  exact ⟨callStep_sized h.sized hst, callStep_orderKeys h.keys hst, hkept.1, hkept.2⟩

/-! ## Generated data -/

/-- the orders from 2101 on are the new ones -/
theorem newOrders_ids (w d : ℤ) :
    ((intRange 1 3000).flatMap (newOrders w d)).map (·.no_o_id) = intRange 2101 3000 := by
  have hsplit : intRange 1 (2101 - 1) ++ intRange 2101 3000 = intRange 1 3000 :=
    intRange_append (by decide) (by decide)
  have hold : (intRange 1 (2101 - 1)).flatMap (newOrders w d) = [] := by
    rw [List.flatMap_eq_nil_iff]
    intro o ho
    exact if_pos (mem_intRange.1 ho).2
  have hnew : (intRange 2101 3000).flatMap (newOrders w d) = (intRange 2101 3000).map fun o => ⟨o, d, w⟩ := by
    rw [List.map_eq_flatMap]
    refine List.flatMap_congr fun o ho => if_neg ?_
    have hlow := (mem_intRange.1 ho).1
    omega
  rw [← hsplit, List.flatMap_append, hold, List.nil_append, hnew, List.map_map]
  exact List.map_id _

theorem allNumbered_fillTables (draws : Draws) (n : ℕ) : AllNumbered n (fillTables draws n) := by
  intro w hw d hd
  obtain ⟨hw1, hwn⟩ := mem_intRange.1 hw
  refine ⟨3001, by decide, ?_, ?_, ?_⟩
  · rw [nextNumber, getDistrict_fillTables draws hw1 hwn hd]
    rfl
  · exact (districtConsistent_fillTables draws hw hd).order_ids
  · rw [districtNewOrders_fillTables hw hd]
    exact newOrders_ids w d

theorem complete_fillTables (draws : Draws) (n : ℕ) : Complete (fillTables draws n) := by
  intro o ho _
  obtain ⟨order, horder, rfl⟩ := List.mem_map.1 ho
  have hkey : order.key ∈ (fillTables draws n).orderKeys := List.mem_map_of_mem horder
  obtain ⟨hw, hd, -⟩ := mem_orderKeys_fillTables.1 hkey
  have hmem : order ∈ (fillTables draws n).districtOrders order.o_d_id order.o_w_id :=
    List.mem_filter.2 ⟨horder, decide_eq_true ⟨rfl, rfl⟩⟩
  exact (linesOf_numbers _ order).symm.trans
    ((districtConsistent_fillTables draws hw hd).line_numbers order hmem)

/-! ## Runs -/

theorem inOrder_of_reaches (h : ReachesBy callStep Orderly (fillTables draws n) db) : InOrder n db :=
  h.invariant ⟨sized_fillTables draws n, orderKeys_fillTables draws n, allNumbered_fillTables draws n,
    complete_fillTables draws n⟩ fun _ _ _ hs hc hst => callStep_inOrder hs hc hst

/-- **The order book.** In every run of calls on the generated data in which no New-Order is denied and each is for one
of the ten districts of its warehouse, the orders of a district are, in the order of the table, those numbered from 1 up
to the district's next number, the new orders those from 2101 on, and the lines of every order are numbered from 1 up to
the order's line count. All other calls may be denied anywhere. -/
theorem orderBook_of_reaches (h : ReachesBy callStep Orderly (fillTables draws n) db) (hw : w ∈ intRange 1 n)
    (hd : d ∈ intRange 1 10) : ∃ row, db.getDistrict d w = some row ∧ DistrictBook db d w row.d_next_o_id := by
  have hinv := inOrder_of_reaches h
  obtain ⟨next, -, hnumbers⟩ := hinv.numbered w hw d hd
  obtain ⟨row, hrow, rfl⟩ := Option.map_eq_some_iff.1 hnumbers.next_number
  refine ⟨row, hrow, hnumbers.order_ids, hnumbers.new_order_ids, ?_⟩
  intro order horder
  rw [linesOf_numbers]
  exact hinv.complete order.announced (List.mem_map_of_mem (List.mem_filter.1 horder).1) id

theorem orderly_orderOne (h : Sized 1 db) : Orderly db (granted (orderItems [(1, 5)])) :=
  ⟨orderItems_succeeds [(1, 5)] h (by simp), mem_intRange.2 ⟨le_rfl, by decide⟩⟩

theorem orderBook_of_reaches_orderOne : ∃ db,
    callStep (fillTables .plain 1) (granted (orderItems [(1, 5)])) = some db ∧
    ∃ row, db.getDistrict 1 1 = some row ∧ DistrictBook db 1 1 row.d_next_o_id := by
  have horderly := orderly_orderOne (sized_fillTables .plain 1)
  obtain ⟨db, hst⟩ := callStep_of_succeeds horderly.1
  exact ⟨db, hst, orderBook_of_reaches (.next .start horderly hst) (by simp) (by simp)⟩

/-- **The last twenty orders.** In such a run, the orders a Stock-Level looks at, the greatest first, are the twenty
before the next number of its district. -/
theorem last20OrderIds_of_reaches (h : ReachesBy callStep Orderly (fillTables draws n) db)
    (tx : TPCCStockLevelTransaction) (hw : tx.w_id ∈ intRange 1 n) (hd : tx.d_id ∈ intRange 1 10) :
    ∃ row, db.getDistrict tx.d_id tx.w_id = some row ∧
      tx.last20OrderIds db = (intRange (row.d_next_o_id - 20) (row.d_next_o_id - 1)).reverse := by
  have hinv := inOrder_of_reaches h
  obtain ⟨next, hfirst, hnumbers⟩ := hinv.numbered _ hw _ hd
  obtain ⟨row, hrow, rfl⟩ := Option.map_eq_some_iff.1 hnumbers.next_number
  refine ⟨row, hrow, ?_⟩
  have hids : (db.orders.filter fun order => order.o_w_id = tx.w_id ∧ order.o_d_id = tx.d_id).map (·.o_id) =
      intRange 1 (row.d_next_o_id - 1) := hnumbers.order_ids
  have hsplit : intRange 1 (row.d_next_o_id - 20 - 1) ++ intRange (row.d_next_o_id - 20) (row.d_next_o_id - 1) =
      intRange 1 (row.d_next_o_id - 1) := intRange_append (by omega) (by omega)
  have hlength : (intRange (row.d_next_o_id - 20) (row.d_next_o_id - 1)).reverse.length = 20 := by
    rw [List.length_reverse, length_intRange]
    omega
  -- the numbers are sorted as they are
  have hsorted : (intRange 1 (row.d_next_o_id - 1)).mergeSort (· ≤ ·) = intRange 1 (row.d_next_o_id - 1) :=
    List.mergeSort_eq_self (· ≤ ·) (pairwise_intRange _ _)
  rw [TPCCStockLevelTransaction.last20OrderIds, hids, hsorted, ← hsplit, List.reverse_append,
    List.take_left' hlength]

theorem last20OrderIds_of_reaches_orderOne : ∃ db,
    callStep (fillTables .plain 1) (granted (orderItems [(1, 5)])) = some db ∧
    ∃ row, db.getDistrict 1 1 = some row ∧ (⟨1, 1, 10⟩ : TPCCStockLevelTransaction).last20OrderIds db =
      (intRange (row.d_next_o_id - 20) (row.d_next_o_id - 1)).reverse := by
  have horderly := orderly_orderOne (sized_fillTables .plain 1)
  obtain ⟨db, hst⟩ := callStep_of_succeeds horderly.1
  exact ⟨db, hst, last20OrderIds_of_reaches (.next .start horderly hst) ⟨1, 1, 10⟩ (by simp) (by simp)⟩

end Tpcc

end HawkTxn
