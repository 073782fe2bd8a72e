/-
The initial data of the TPC-C database (`tpcc_data_generator.h`, `tpcc_data_generator.cpp`).

`generateData` computes the sizes of the tables in `int`, sizes the vectors and fills them, the items first and then
warehouse by warehouse (`fillTables`). Every random draw and every reading of the clock comes from `Draws`, by the row
it is for; the structure carries the ranges the draws are made from. A row that an accessor finds is written in place,
the others are appended.

Results:
- `generateData_eq_some_iff`: for which numbers of warehouses there is generated data;
- `sized_fillTables`: how many rows the tables with accessors have;
- `orders_fillTables`, `new_orders_fillTables`, `order_lines_fillTables`, `histories_fillTables`: what is appended;
- `getWarehouse_fillTables`, `getDistrict_fillTables`, `getCustomer_fillTables`, `getItem_fillTables`,
  `getStock_fillTables`: what the accessors find.
-/
import HawkTxn.Core.Loops
import HawkTxn.Tpcc.Database

namespace HawkTxn

open HawkTxn.Core

namespace Tpcc

/-! ## Model -/

/-- what `TPCCRandom` returns for each row, by warehouse, district and number -/
structure Draws where
  i_im_id : ℤ → ℤ
  i_name : ℤ → String
  i_price : ℤ → ℚ
  i_data : ℤ → String
  /-- where `i_data` is overwritten, for one item in ten -/
  original_pos : ℤ → Option ℕ
  s_quantity : ℤ → ℤ → ℤ
  h_date : ℤ → ℤ → ℤ → ℤ
  h_data : ℤ → ℤ → ℤ → String
  /-- the customer ids of a district after `std::shuffle` -/
  c_ids : ℤ → ℤ → List ℤ
  o_entry_d : ℤ → ℤ → ℤ → ℤ
  o_ol_cnt : ℤ → ℤ → ℤ → ℤ
  o_carrier_id : ℤ → ℤ → ℤ → ℤ
  ol_i_id : ℤ → ℤ → ℤ → ℤ → ℤ
  ol_amount : ℤ → ℤ → ℤ → ℤ → ℚ
  ol_dist_info : ℤ → ℤ → ℤ → ℤ → String
  ol_delivery_d : ℤ → ℤ → ℤ → ℤ → ℤ
  i_im_id_mem : ∀ i, 1 ≤ i_im_id i ∧ i_im_id i ≤ 10000
  i_name_length : ∀ i, 14 ≤ (i_name i).length ∧ (i_name i).length ≤ 24
  i_price_mem : ∀ i, 1 ≤ i_price i ∧ i_price i ≤ 100
  i_data_length : ∀ i, 26 ≤ (i_data i).length ∧ (i_data i).length ≤ 50
  original_pos_mem : ∀ i, ∀ pos ∈ original_pos i, pos + 8 ≤ (i_data i).length
  s_quantity_mem : ∀ w i, 10 ≤ s_quantity w i ∧ s_quantity w i ≤ 100
  c_ids_perm : ∀ w d, (c_ids w d).Perm (intRange 1 3000)
  o_ol_cnt_mem : ∀ w d o, 5 ≤ o_ol_cnt w d o ∧ o_ol_cnt w d o ≤ 15
  o_carrier_id_mem : ∀ w d o, 1 ≤ o_carrier_id w d o ∧ o_carrier_id w d o ≤ 10
  ol_i_id_mem : ∀ w d o i, 1 ≤ ol_i_id w d o i ∧ ol_i_id w d o i ≤ 100000
  ol_amount_mem : ∀ w d o i, 1 / 100 ≤ ol_amount w d o i ∧ ol_amount w d o i ≤ 999999 / 100

/-- the same draws for all rows -/
def Draws.plain : Draws where
  i_im_id _ := 1
  i_name _ := "00000000000000"
  i_price _ := 1
  i_data _ := "00000000000000000000000000"
  original_pos _ := none
  s_quantity _ _ := 10
  h_date _ _ _ := 0
  h_data _ _ _ := ""
  c_ids _ _ := intRange 1 3000
  o_entry_d _ _ _ := 0
  o_ol_cnt _ _ _ := 5
  o_carrier_id _ _ _ := 1
  ol_i_id _ _ _ _ := 1
  ol_amount _ _ _ _ := 1
  ol_dist_info _ _ _ _ := ""
  ol_delivery_d _ _ _ _ := 0
  i_im_id_mem _ := by decide
  i_name_length _ := by decide
  i_price_mem _ := by norm_num
  i_data_length _ := by decide
  original_pos_mem _ _ h := nomatch h
  s_quantity_mem _ _ := by decide
  c_ids_perm _ _ := .refl _
  o_ol_cnt_mem _ _ _ := by decide
  o_carrier_id_mem _ _ _ := by decide
  ol_i_id_mem _ _ _ _ := by decide
  ol_amount_mem _ _ _ _ := by norm_num

/-- how many rows there are for accessors to find -/
structure Sized (n : ℕ) (db : TPCCDatabase) : Prop where
  warehouses : db.warehouses.length = n
  districts : db.districts.length = n * 10
  customers : db.customers.length = n * 10 * 3000
  stocks : db.stocks.length = n * 100000

namespace TPCCDataGenerator

/-- `replace(pos, 8, "ORIGINAL")` -/
def replaceOriginal (data : String) (pos : ℕ) : String :=
  String.ofList (data.toList.take pos ++ "ORIGINAL".toList ++ data.toList.drop (pos + 8))

/-- the row `generateItems` writes -/
def newItem (draws : Draws) (i_id : ℤ) : Item where
  i_id := i_id
  i_im_id := draws.i_im_id i_id
  i_name := draws.i_name i_id
  i_price := draws.i_price i_id
  i_data := match draws.original_pos i_id with
    | none => draws.i_data i_id
    | some pos => replaceOriginal (draws.i_data i_id) pos

def generateItems (draws : Draws) (db : TPCCDatabase) : TPCCDatabase :=
  (intRange 1 100000).foldl (fun db i_id =>
    { db with items := db.items.set (itemPosition i_id).toNat (newItem draws i_id) }) db

def generateWarehouse (db : TPCCDatabase) (w_id : ℤ) : TPCCDatabase :=
  { db with warehouses := db.warehouses.set (warehousePosition w_id).toNat ⟨w_id, 300000⟩ }

def generateDistrict (db : TPCCDatabase) (w_id d_id : ℤ) : TPCCDatabase :=
  { db with districts := db.districts.set (districtPosition d_id w_id).toNat ⟨d_id, w_id, 30000, 3001⟩ }

def generateCustomer (draws : Draws) (db : TPCCDatabase) (w_id d_id c_id : ℤ) : TPCCDatabase :=
  { db with
    customers := db.customers.set (customerPosition c_id d_id w_id).toNat ⟨c_id, d_id, w_id, -10, 10, 1, 0⟩
    histories := db.histories ++
      [⟨c_id, d_id, w_id, d_id, w_id, draws.h_date w_id d_id c_id, 10, draws.h_data w_id d_id c_id⟩] }

def generateStock (draws : Draws) (db : TPCCDatabase) (w_id : ℤ) : TPCCDatabase :=
  (intRange 1 100000).foldl (fun db i_id =>
    { db with
      stocks := db.stocks.set (stockPosition i_id w_id).toNat ⟨i_id, w_id, draws.s_quantity w_id i_id, 0, 0⟩ }) db

def order (draws : Draws) (w_id d_id o_id : ℤ) : Order where
  o_id := o_id
  o_d_id := d_id
  o_w_id := w_id
  o_c_id := (draws.c_ids w_id d_id).getD (o_id - 1).toNat 0
  o_entry_d := draws.o_entry_d w_id d_id o_id
  o_carrier_id := if o_id ≤ 2100 then draws.o_carrier_id w_id d_id o_id else 0
  o_ol_cnt := draws.o_ol_cnt w_id d_id o_id
  o_all_local := 1

/-- the orders from 2101 on are new -/
def newOrders (w_id d_id o_id : ℤ) : List NewOrder := if o_id ≤ 2100 then [] else [⟨o_id, d_id, w_id⟩]

def orderLine (draws : Draws) (w_id d_id o_id ol_number : ℤ) : OrderLine where
  ol_o_id := o_id
  ol_d_id := d_id
  ol_w_id := w_id
  ol_number := ol_number
  ol_i_id := draws.ol_i_id w_id d_id o_id ol_number
  ol_supply_w_id := w_id
  ol_quantity := 5
  ol_amount := draws.ol_amount w_id d_id o_id ol_number
  ol_delivery_d := if o_id ≤ 2100 then draws.ol_delivery_d w_id d_id o_id ol_number else 0
  ol_dist_info := draws.ol_dist_info w_id d_id o_id ol_number

/-- the body of the loop of `generateOrders` -/
def generateOrder (draws : Draws) (db : TPCCDatabase) (w_id d_id o_id : ℤ) : TPCCDatabase :=
  let db := { db with new_orders := db.new_orders ++ newOrders w_id d_id o_id }
  let db := { db with orders := db.orders ++ [order draws w_id d_id o_id] }
  (intRange 1 (draws.o_ol_cnt w_id d_id o_id)).foldl (fun db ol_number =>
    { db with order_lines := db.order_lines ++ [orderLine draws w_id d_id o_id ol_number] }) db

def generateOrders (draws : Draws) (db : TPCCDatabase) (w_id d_id : ℤ) : TPCCDatabase :=
  (intRange 1 3000).foldl (fun db o_id => generateOrder draws db w_id d_id o_id) db

/-- the body of the loop over the districts -/
def fillDistrict (draws : Draws) (db : TPCCDatabase) (w_id d_id : ℤ) : TPCCDatabase :=
  let db := generateDistrict db w_id d_id
  let db := (intRange 1 3000).foldl (fun db c_id => generateCustomer draws db w_id d_id c_id) db
  generateOrders draws db w_id d_id

/-- the body of the loop over the warehouses -/
def fillWarehouse (draws : Draws) (db : TPCCDatabase) (w_id : ℤ) : TPCCDatabase :=
  let db := generateWarehouse db w_id
  let db := generateStock draws db w_id
  (intRange 1 10).foldl (fun db d_id => fillDistrict draws db w_id d_id) db

/-- the tables with accessors have all their rows, the others none -/
def resized (num_warehouses : ℕ) : TPCCDatabase where
  warehouses := List.replicate num_warehouses ⟨0, 0⟩
  districts := List.replicate (num_warehouses * 10) ⟨0, 0, 0, 0⟩
  customers := List.replicate (num_warehouses * 10 * 3000) ⟨0, 0, 0, 0, 0, 0, 0⟩
  histories := []
  orders := []
  new_orders := []
  order_lines := []
  items := List.replicate 100000 ⟨0, 0, "", 0, ""⟩
  stocks := List.replicate (num_warehouses * 100000) ⟨0, 0, 0, 0, 0⟩

/-- what `generateData` fills the tables with, once it has sized them -/
def fillTables (draws : Draws) (num_warehouses : ℕ) : TPCCDatabase :=
  (intRange 1 num_warehouses).foldl (fillWarehouse draws) (generateItems draws (resized num_warehouses))

/-- the sizes that are computed in `int` for `resize` and `reserve` -/
def sizes (num_warehouses : ℤ) : List ℤ :=
  [num_warehouses * 10, num_warehouses * 10 * 3000, num_warehouses * 10 * 900, num_warehouses * 10 * 3000 * 15,
    num_warehouses * 100000]

/-- `none`: a size is negative or overflows -/
def generateData (draws : Draws) (num_warehouses : ℤ) : Option TPCCDatabase :=
  if ∀ size ∈ sizes num_warehouses, 0 ≤ size ∧ size < 2 ^ 31 then some (fillTables draws num_warehouses.toNat)
  else none

/-- the order lines are the first to be too many -/
theorem generateData_eq_some_iff {draws : Draws} {n : ℕ} {db : TPCCDatabase} :
    generateData draws n = some db ↔ n ≤ 4772 ∧ db = fillTables draws n := by
  have hsizes : (∀ size ∈ sizes n, 0 ≤ size ∧ size < 2 ^ 31) ↔ n ≤ 4772 := by
    simp only [sizes, List.forall_mem_cons, List.not_mem_nil, false_implies, implies_true, and_true]
    omega
  rw [generateData, Int.toNat_natCast]
  split_ifs with h
  · rw [Option.some_inj, eq_comm]
    exact (and_iff_right (hsizes.1 h)).symm
  · simp [mt hsizes.2 h]

theorem generateItems_eq (draws : Draws) (db : TPCCDatabase) : generateItems draws db = { db with
    items := (intRange 1 100000).foldl (fun rows i_id => rows.set (itemPosition i_id).toNat (newItem draws i_id))
      db.items } := by
  unfold generateItems
  generalize intRange 1 100000 = l
  induction l generalizing db with
  | nil => rfl
  | cons i_id l ih =>
    rw [List.foldl_cons, ih]
    rfl

/-- what the loop over the warehouses starts from -/
theorem fillTables_eq (draws : Draws) (n : ℕ) : fillTables draws n = (intRange 1 n).foldl (fillWarehouse draws)
    { resized n with
      items := (intRange 1 100000).foldl (fun rows i_id => rows.set (itemPosition i_id).toNat (newItem draws i_id))
        (resized n).items } := by
  rw [fillTables, generateItems_eq]

/-! ## Sizes -/

variable {n : ℕ} {draws : Draws} {db : TPCCDatabase} {w_id d_id o_id : ℤ}

theorem sized_resized (n : ℕ) : Sized n (resized n) := by
  constructor <;> exact List.length_replicate

theorem sized_generateStock (h : Sized n db) : Sized n (generateStock draws db w_id) := by
  apply List.foldlRecOn (motive := Sized n) _ _ h
  exact fun s hs i_id _ => ⟨hs.warehouses, hs.districts, hs.customers, by simp [hs.stocks]⟩

theorem sized_generateOrders (h : Sized n db) : Sized n (generateOrders draws db w_id d_id) := by
  apply List.foldlRecOn (motive := Sized n) _ _ h
  intro s hs o_id _
  refine List.foldlRecOn (motive := Sized n) _ _ ⟨hs.warehouses, hs.districts, hs.customers, hs.stocks⟩ ?_
  exact fun s hs ol_number _ => ⟨hs.warehouses, hs.districts, hs.customers, hs.stocks⟩

theorem sized_fillDistrict (h : Sized n db) : Sized n (fillDistrict draws db w_id d_id) := by
  refine sized_generateOrders (List.foldlRecOn (motive := Sized n) _ _ ?_ ?_)
  · exact ⟨h.warehouses, by simp [generateDistrict, h.districts], h.customers, h.stocks⟩
  · exact fun s hs c_id _ => ⟨hs.warehouses, hs.districts, by simp [generateCustomer, hs.customers], hs.stocks⟩

theorem sized_fillWarehouse (h : Sized n db) : Sized n (fillWarehouse draws db w_id) := by
  refine List.foldlRecOn (motive := Sized n) _ _ (sized_generateStock ?_) fun s hs d_id _ => sized_fillDistrict hs
  exact ⟨by simp [generateWarehouse, h.warehouses], h.districts, h.customers, h.stocks⟩

theorem sized_fillTables (draws : Draws) (n : ℕ) : Sized n (fillTables draws n) := by
  rw [fillTables_eq]
  refine List.foldlRecOn (motive := Sized n) _ _ ?_ fun s hs w_id _ => sized_fillWarehouse hs
  exact ⟨(sized_resized n).warehouses, (sized_resized n).districts, (sized_resized n).customers,
    (sized_resized n).stocks⟩

/-! ## Tables of one district -/

theorem generateOrder_eq (draws : Draws) (db : TPCCDatabase) (w_id d_id o_id : ℤ) :
    generateOrder draws db w_id d_id o_id = { db with
      orders := db.orders ++ [order draws w_id d_id o_id]
      new_orders := db.new_orders ++ newOrders w_id d_id o_id
      order_lines := db.order_lines ++
        (intRange 1 (draws.o_ol_cnt w_id d_id o_id)).map (orderLine draws w_id d_id o_id) } := by
  have hloop : ∀ (l : List ℤ) (db : TPCCDatabase), l.foldl (fun db ol_number =>
      { db with order_lines := db.order_lines ++ [orderLine draws w_id d_id o_id ol_number] }) db =
      { db with order_lines := db.order_lines ++ l.map (orderLine draws w_id d_id o_id) } := by
    intro l
    induction l with
    | nil => intro db; simp
    | cons ol_number l ih => intro db; simp [ih]
  unfold generateOrder
  rw [hloop]

theorem generateOrders_eq (draws : Draws) (db : TPCCDatabase) (w_id d_id : ℤ) :
    generateOrders draws db w_id d_id = { db with
      orders := db.orders ++ (intRange 1 3000).map (order draws w_id d_id)
      new_orders := db.new_orders ++ (intRange 1 3000).flatMap (newOrders w_id d_id)
      order_lines := db.order_lines ++ (intRange 1 3000).flatMap fun o_id =>
        (intRange 1 (draws.o_ol_cnt w_id d_id o_id)).map (orderLine draws w_id d_id o_id) } := by
  unfold generateOrders
  generalize intRange 1 3000 = l
  induction l generalizing db with
  | nil => simp
  | cons o_id l ih =>
    rw [List.foldl_cons, ih, generateOrder_eq]
    simp

/-- the row `generateCustomer` writes -/
def newCustomer (w_id d_id c_id : ℤ) : Customer := ⟨c_id, d_id, w_id, -10, 10, 1, 0⟩

/-- the history row `generateCustomer` writes -/
def newHistory (draws : Draws) (w_id d_id c_id : ℤ) : History :=
  ⟨c_id, d_id, w_id, d_id, w_id, draws.h_date w_id d_id c_id, 10, draws.h_data w_id d_id c_id⟩

/-- the row `generateStock` writes -/
def newStock (draws : Draws) (w_id i_id : ℤ) : Stock := ⟨i_id, w_id, draws.s_quantity w_id i_id, 0, 0⟩

theorem generateCustomers_eq (draws : Draws) (db : TPCCDatabase) (w_id d_id : ℤ) (l : List ℤ) : ∃ histories,
    l.foldl (fun db c_id => generateCustomer draws db w_id d_id c_id) db = { db with
      customers := l.foldl (fun rows c_id =>
        rows.set (customerPosition c_id d_id w_id).toNat (newCustomer w_id d_id c_id)) db.customers
      histories := histories } := by
  induction l generalizing db with
  | nil => exact ⟨db.histories, rfl⟩
  | cons c_id l ih =>
    obtain ⟨histories, heq⟩ := ih (generateCustomer draws db w_id d_id c_id)
    exact ⟨histories, heq⟩

theorem generateStock_eq (draws : Draws) (db : TPCCDatabase) (w_id : ℤ) : generateStock draws db w_id = { db with
    stocks := (intRange 1 100000).foldl (fun rows i_id =>
      rows.set (stockPosition i_id w_id).toNat (newStock draws w_id i_id)) db.stocks } := by
  unfold generateStock
  generalize intRange 1 100000 = l
  induction l generalizing db with
  | nil => rfl
  | cons i_id l ih =>
    rw [List.foldl_cons, ih]
    rfl

/-- one round of the loop over the districts -/
def districtRound (draws : Draws) (w_id : ℤ) (db : TPCCDatabase) (d_id : ℤ) : TPCCDatabase :=
  fillDistrict draws db w_id d_id

/-- what filling a district does to the tables, history aside -/
theorem districtRound_eq (draws : Draws) (db : TPCCDatabase) (w_id d_id : ℤ) : ∃ customers histories,
    customers = (intRange 1 3000).foldl (fun rows c_id =>
      rows.set (customerPosition c_id d_id w_id).toNat (newCustomer w_id d_id c_id)) db.customers ∧
    districtRound draws w_id db d_id = { db with
      districts := db.districts.set (districtPosition d_id w_id).toNat ⟨d_id, w_id, 30000, 3001⟩
      customers := customers
      histories := histories
      orders := db.orders ++ (intRange 1 3000).map (order draws w_id d_id)
      new_orders := db.new_orders ++ (intRange 1 3000).flatMap (newOrders w_id d_id)
      order_lines := db.order_lines ++ (intRange 1 3000).flatMap fun o_id =>
        (intRange 1 (draws.o_ol_cnt w_id d_id o_id)).map (orderLine draws w_id d_id o_id) } := by
  obtain ⟨histories, heq⟩ := generateCustomers_eq draws (generateDistrict db w_id d_id) w_id d_id (intRange 1 3000)
  refine ⟨_, histories, rfl, ?_⟩
  simp only [districtRound, fillDistrict, heq, generateOrders_eq]
  rfl

theorem warehouses_districtRound : (districtRound draws w_id db d_id).warehouses = db.warehouses := by
  obtain ⟨customers, histories, -, heq⟩ := districtRound_eq draws db w_id d_id
  rw [heq]

theorem items_districtRound : (districtRound draws w_id db d_id).items = db.items := by
  obtain ⟨customers, histories, -, heq⟩ := districtRound_eq draws db w_id d_id
  rw [heq]

theorem stocks_districtRound : (districtRound draws w_id db d_id).stocks = db.stocks := by
  obtain ⟨customers, histories, -, heq⟩ := districtRound_eq draws db w_id d_id
  rw [heq]

theorem districts_districtRound : (districtRound draws w_id db d_id).districts =
    db.districts.set (districtPosition d_id w_id).toNat ⟨d_id, w_id, 30000, 3001⟩ := by
  obtain ⟨customers, histories, -, heq⟩ := districtRound_eq draws db w_id d_id
  rw [heq]

theorem customers_districtRound : (districtRound draws w_id db d_id).customers =
    (intRange 1 3000).foldl (fun rows c_id =>
      rows.set (customerPosition c_id d_id w_id).toNat (newCustomer w_id d_id c_id)) db.customers := by
  obtain ⟨customers, histories, hcustomers, heq⟩ := districtRound_eq draws db w_id d_id
  rw [heq, ← hcustomers]

theorem orders_districtRound : (districtRound draws w_id db d_id).orders =
    db.orders ++ (intRange 1 3000).map (order draws w_id d_id) := by
  obtain ⟨customers, histories, -, heq⟩ := districtRound_eq draws db w_id d_id
  rw [heq]

theorem new_orders_districtRound : (districtRound draws w_id db d_id).new_orders =
    db.new_orders ++ (intRange 1 3000).flatMap (newOrders w_id d_id) := by
  obtain ⟨customers, histories, -, heq⟩ := districtRound_eq draws db w_id d_id
  rw [heq]

theorem order_lines_districtRound : (districtRound draws w_id db d_id).order_lines =
    db.order_lines ++ (intRange 1 3000).flatMap fun o_id =>
      (intRange 1 (draws.o_ol_cnt w_id d_id o_id)).map (orderLine draws w_id d_id o_id) := by
  obtain ⟨customers, histories, -, heq⟩ := districtRound_eq draws db w_id d_id
  rw [heq]

theorem histories_districtRound : (districtRound draws w_id db d_id).histories =
    db.histories ++ (intRange 1 3000).map (newHistory draws w_id d_id) := by
  have hloop := foldl_flatMap (f := fun db c_id => generateCustomer draws db w_id d_id c_id) TPCCDatabase.histories
    (g := fun c_id => [newHistory draws w_id d_id c_id]) (fun _ _ => rfl) (intRange 1 3000)
    (generateDistrict db w_id d_id)
  rw [← List.map_eq_flatMap] at hloop
  simp only [districtRound, fillDistrict, generateOrders_eq]
  exact hloop

/-! ## Tables of one warehouse -/

/-- what the loop over the districts starts from: only the warehouse row and the stocks are new -/
structure Started (draws : Draws) (db : TPCCDatabase) (w_id : ℤ) (start : TPCCDatabase) : Prop where
  warehouses : start.warehouses = db.warehouses.set (warehousePosition w_id).toNat ⟨w_id, 300000⟩
  districts : start.districts = db.districts
  customers : start.customers = db.customers
  orders : start.orders = db.orders
  new_orders : start.new_orders = db.new_orders
  order_lines : start.order_lines = db.order_lines
  items : start.items = db.items
  stocks : start.stocks = (intRange 1 100000).foldl (fun rows i_id =>
    rows.set (stockPosition i_id w_id).toNat (newStock draws w_id i_id)) db.stocks

theorem fillWarehouse_eq (draws : Draws) (db : TPCCDatabase) (w_id : ℤ) : ∃ start, Started draws db w_id start ∧
    fillWarehouse draws db w_id = (intRange 1 10).foldl (districtRound draws w_id) start := by
  refine ⟨generateStock draws (generateWarehouse db w_id) w_id, ?_, rfl⟩
  simp only [generateStock_eq, generateWarehouse]
  constructor <;> dsimp only

theorem warehouses_fillWarehouse : (fillWarehouse draws db w_id).warehouses =
    db.warehouses.set (warehousePosition w_id).toNat ⟨w_id, 300000⟩ := by
  obtain ⟨start, hstart, heq⟩ := fillWarehouse_eq draws db w_id
  rw [heq, ← hstart.warehouses]
  exact foldl_keeps TPCCDatabase.warehouses (fun _ _ => warehouses_districtRound) (intRange 1 10) start

theorem items_fillWarehouse : (fillWarehouse draws db w_id).items = db.items := by
  obtain ⟨start, hstart, heq⟩ := fillWarehouse_eq draws db w_id
  rw [heq, ← hstart.items]
  exact foldl_keeps TPCCDatabase.items (fun _ _ => items_districtRound) (intRange 1 10) start

theorem stocks_fillWarehouse : (fillWarehouse draws db w_id).stocks = (intRange 1 100000).foldl (fun rows i_id =>
    rows.set (stockPosition i_id w_id).toNat (newStock draws w_id i_id)) db.stocks := by
  obtain ⟨start, hstart, heq⟩ := fillWarehouse_eq draws db w_id
  rw [heq, ← hstart.stocks]
  exact foldl_keeps TPCCDatabase.stocks (fun _ _ => stocks_districtRound) (intRange 1 10) start

theorem districts_fillWarehouse : (fillWarehouse draws db w_id).districts = (intRange 1 10).foldl (fun rows d_id =>
    rows.set (districtPosition d_id w_id).toNat ⟨d_id, w_id, 30000, 3001⟩) db.districts := by
  obtain ⟨start, hstart, heq⟩ := fillWarehouse_eq draws db w_id
  rw [heq, ← hstart.districts]
  exact foldl_project (f := districtRound draws w_id) (g := fun rows d_id =>
    rows.set (districtPosition d_id w_id).toNat ⟨d_id, w_id, 30000, 3001⟩) TPCCDatabase.districts
    (fun _ _ => districts_districtRound) (intRange 1 10) start

theorem customers_fillWarehouse : (fillWarehouse draws db w_id).customers = (intRange 1 10).foldl (fun rows d_id =>
    (intRange 1 3000).foldl (fun rows c_id =>
      rows.set (customerPosition c_id d_id w_id).toNat (newCustomer w_id d_id c_id)) rows) db.customers := by
  obtain ⟨start, hstart, heq⟩ := fillWarehouse_eq draws db w_id
  rw [heq, ← hstart.customers]
  exact foldl_project (f := districtRound draws w_id) (g := fun rows d_id =>
    (intRange 1 3000).foldl (fun rows c_id =>
      rows.set (customerPosition c_id d_id w_id).toNat (newCustomer w_id d_id c_id)) rows) TPCCDatabase.customers
    (fun _ _ => customers_districtRound) (intRange 1 10) start

theorem orders_fillWarehouse : (fillWarehouse draws db w_id).orders =
    db.orders ++ (intRange 1 10).flatMap fun d_id => (intRange 1 3000).map (order draws w_id d_id) := by
  obtain ⟨start, hstart, heq⟩ := fillWarehouse_eq draws db w_id
  rw [heq, ← hstart.orders]
  rw [foldl_flatMap (f := districtRound draws w_id) TPCCDatabase.orders
    fun _ _ => orders_districtRound]

theorem new_orders_fillWarehouse : (fillWarehouse draws db w_id).new_orders =
    db.new_orders ++ (intRange 1 10).flatMap fun d_id => (intRange 1 3000).flatMap (newOrders w_id d_id) := by
  obtain ⟨start, hstart, heq⟩ := fillWarehouse_eq draws db w_id
  rw [heq, ← hstart.new_orders]
  rw [foldl_flatMap (f := districtRound draws w_id) TPCCDatabase.new_orders
    fun _ _ => new_orders_districtRound]

theorem order_lines_fillWarehouse : (fillWarehouse draws db w_id).order_lines =
    db.order_lines ++ (intRange 1 10).flatMap fun d_id => (intRange 1 3000).flatMap fun o_id =>
      (intRange 1 (draws.o_ol_cnt w_id d_id o_id)).map (orderLine draws w_id d_id o_id) := by
  obtain ⟨start, hstart, heq⟩ := fillWarehouse_eq draws db w_id
  rw [heq, ← hstart.order_lines]
  rw [foldl_flatMap (f := districtRound draws w_id) TPCCDatabase.order_lines
    fun _ _ => order_lines_districtRound]

theorem histories_fillWarehouse : (fillWarehouse draws db w_id).histories =
    db.histories ++ (intRange 1 10).flatMap fun d_id => (intRange 1 3000).map (newHistory draws w_id d_id) := by
  have hstart : (generateStock draws (generateWarehouse db w_id) w_id).histories = db.histories := by
    rw [generateStock_eq]
    rfl
  have heq : fillWarehouse draws db w_id =
    (intRange 1 10).foldl (districtRound draws w_id) (generateStock draws (generateWarehouse db w_id) w_id) := rfl
  rw [heq, ← hstart, foldl_flatMap (f := districtRound draws w_id) TPCCDatabase.histories
    fun _ _ => histories_districtRound]

/-! ## The whole database -/

theorem orders_fillTables (draws : Draws) (n : ℕ) : (fillTables draws n).orders =
    (intRange 1 n).flatMap fun w_id => (intRange 1 10).flatMap fun d_id =>
      (intRange 1 3000).map (order draws w_id d_id) := by
  rw [fillTables_eq, foldl_flatMap (f := fillWarehouse draws) TPCCDatabase.orders fun _ _ => orders_fillWarehouse]
  rfl

theorem new_orders_fillTables (draws : Draws) (n : ℕ) : (fillTables draws n).new_orders =
    (intRange 1 n).flatMap fun w_id => (intRange 1 10).flatMap fun d_id =>
      (intRange 1 3000).flatMap (newOrders w_id d_id) := by
  rw [fillTables_eq,
    foldl_flatMap (f := fillWarehouse draws) TPCCDatabase.new_orders fun _ _ => new_orders_fillWarehouse]
  rfl

theorem order_lines_fillTables (draws : Draws) (n : ℕ) : (fillTables draws n).order_lines =
    (intRange 1 n).flatMap fun w_id => (intRange 1 10).flatMap fun d_id => (intRange 1 3000).flatMap fun o_id =>
      (intRange 1 (draws.o_ol_cnt w_id d_id o_id)).map (orderLine draws w_id d_id o_id) := by
  rw [fillTables_eq,
    foldl_flatMap (f := fillWarehouse draws) TPCCDatabase.order_lines fun _ _ => order_lines_fillWarehouse]
  rfl

theorem histories_fillTables (draws : Draws) (n : ℕ) : (fillTables draws n).histories =
    (intRange 1 n).flatMap fun w_id => (intRange 1 10).flatMap fun d_id =>
      (intRange 1 3000).map (newHistory draws w_id d_id) := by
  rw [fillTables_eq,
    foldl_flatMap (f := fillWarehouse draws) TPCCDatabase.histories fun _ _ => histories_fillWarehouse]
  rfl

/-! ## Rows the accessors find -/

theorem warehouses_fillTables (draws : Draws) (n : ℕ) : (fillTables draws n).warehouses =
    (intRange 1 n).foldl (fun rows w_id => rows.set (warehousePosition w_id).toNat ⟨w_id, 300000⟩)
      (resized n).warehouses := by
  rw [fillTables_eq]
  exact foldl_project TPCCDatabase.warehouses (fun _ _ => warehouses_fillWarehouse) (intRange 1 n) _

theorem items_fillTables (draws : Draws) (n : ℕ) : (fillTables draws n).items =
    (intRange 1 100000).foldl (fun rows i_id => rows.set (itemPosition i_id).toNat (newItem draws i_id))
      (resized n).items := by
  rw [fillTables_eq, foldl_keeps (f := fillWarehouse draws) TPCCDatabase.items fun _ _ => items_fillWarehouse]

/-- warehouses and districts, in the order they are filled -/
def districtKeys (n : ℕ) : List (ℤ × ℤ) := (intRange 1 n).flatMap fun w_id => (intRange 1 10).map (Prod.mk w_id)

/-- warehouses, districts and customers -/
def customerKeys (n : ℕ) : List (ℤ × ℤ × ℤ) :=
  (intRange 1 n).flatMap fun w_id => (intRange 1 10).flatMap fun d_id =>
    (intRange 1 3000).map fun c_id => (w_id, d_id, c_id)

/-- warehouses and items -/
def stockKeys (n : ℕ) : List (ℤ × ℤ) := (intRange 1 n).flatMap fun w_id => (intRange 1 100000).map (Prod.mk w_id)

theorem mem_districtKeys {k : ℤ × ℤ} : k ∈ districtKeys n ↔ (1 ≤ k.1 ∧ k.1 ≤ n) ∧ 1 ≤ k.2 ∧ k.2 ≤ 10 := by
  obtain ⟨w_id, d_id⟩ := k
  simp [districtKeys]

theorem mem_customerKeys {k : ℤ × ℤ × ℤ} : k ∈ customerKeys n ↔
    (1 ≤ k.1 ∧ k.1 ≤ n) ∧ (1 ≤ k.2.1 ∧ k.2.1 ≤ 10) ∧ 1 ≤ k.2.2 ∧ k.2.2 ≤ 3000 := by
  obtain ⟨w_id, d_id, c_id⟩ := k
  simp [customerKeys]

theorem mem_stockKeys {k : ℤ × ℤ} : k ∈ stockKeys n ↔ (1 ≤ k.1 ∧ k.1 ≤ n) ∧ 1 ≤ k.2 ∧ k.2 ≤ 100000 := by
  obtain ⟨w_id, i_id⟩ := k
  simp [stockKeys]

theorem districts_fillTables (draws : Draws) (n : ℕ) : (fillTables draws n).districts =
    (districtKeys n).foldl (fun rows k => rows.set (districtPosition k.2 k.1).toNat ⟨k.2, k.1, 30000, 3001⟩)
      (resized n).districts := by
  simp only [districtKeys, List.foldl_flatMap, List.foldl_map]
  rw [fillTables_eq]
  exact foldl_project TPCCDatabase.districts (fun _ _ => districts_fillWarehouse) (intRange 1 n) _

theorem customers_fillTables (draws : Draws) (n : ℕ) : (fillTables draws n).customers =
    (customerKeys n).foldl (fun rows k =>
      rows.set (customerPosition k.2.2 k.2.1 k.1).toNat (newCustomer k.1 k.2.1 k.2.2)) (resized n).customers := by
  have hloop : (fillTables draws n).customers = (intRange 1 n).foldl (fun rows w_id =>
      (intRange 1 10).foldl (fun rows d_id => (intRange 1 3000).foldl (fun rows c_id =>
        rows.set (customerPosition c_id d_id w_id).toNat (newCustomer w_id d_id c_id)) rows) rows)
      (resized n).customers := by
    rw [fillTables_eq]
    exact foldl_project (f := fillWarehouse draws) (g := fun rows w_id => (intRange 1 10).foldl (fun rows d_id =>
      (intRange 1 3000).foldl (fun rows c_id =>
        rows.set (customerPosition c_id d_id w_id).toNat (newCustomer w_id d_id c_id)) rows) rows)
      TPCCDatabase.customers (fun _ _ => customers_fillWarehouse) (intRange 1 n) _
  rw [hloop]
  simp only [customerKeys, List.foldl_flatMap, List.foldl_map]

theorem stocks_fillTables (draws : Draws) (n : ℕ) : (fillTables draws n).stocks =
    (stockKeys n).foldl (fun rows k => rows.set (stockPosition k.2 k.1).toNat (newStock draws k.1 k.2))
      (resized n).stocks := by
  have hloop : (fillTables draws n).stocks = (intRange 1 n).foldl (fun rows w_id =>
      (intRange 1 100000).foldl (fun rows i_id =>
        rows.set (stockPosition i_id w_id).toNat (newStock draws w_id i_id)) rows) (resized n).stocks := by
    rw [fillTables_eq]
    exact foldl_project (f := fillWarehouse draws) (g := fun rows w_id => (intRange 1 100000).foldl (fun rows i_id =>
      rows.set (stockPosition i_id w_id).toNat (newStock draws w_id i_id)) rows)
      TPCCDatabase.stocks (fun _ _ => stocks_fillWarehouse) (intRange 1 n) _
  rw [hloop]
  simp only [stockKeys, List.foldl_flatMap, List.foldl_map]

theorem getWarehouse_fillTables (draws : Draws) {n : ℕ} {w_id : ℤ} (h1 : 1 ≤ w_id) (hn : w_id ≤ n) :
    (fillTables draws n).getWarehouse w_id = some ⟨w_id, 300000⟩ := by
  have hrow := rowAt_foldl_set (resized n).warehouses warehousePosition (fun w_id => (⟨w_id, 300000⟩ : Warehouse))
    ?_ ?_ (Or.inl (mem_intRange.2 ⟨h1, hn⟩))
  · rw [TPCCDatabase.getWarehouse, warehouses_fillTables]
    exact hrow
  · intro w hw
    obtain ⟨hw1, hwn⟩ := mem_intRange.1 hw
    rw [(sized_resized n).warehouses, warehousePosition]
    omega
  · intro w _ hpos
    obtain rfl : w = w_id := by simpa [warehousePosition] using hpos
    rfl

theorem getDistrict_fillTables (draws : Draws) {n : ℕ} {w_id d_id : ℤ} (h1 : 1 ≤ w_id) (hn : w_id ≤ n)
    (hd_id : d_id ∈ intRange 1 10) :
    (fillTables draws n).getDistrict d_id w_id = some ⟨d_id, w_id, 30000, 3001⟩ := by
  have hkey : (w_id, d_id) ∈ districtKeys n := mem_districtKeys.2 ⟨⟨h1, hn⟩, mem_intRange.1 hd_id⟩
  have hrow := rowAt_foldl_set (resized n).districts (fun k => districtPosition k.2 k.1)
    (fun k => (⟨k.2, k.1, 30000, 3001⟩ : District)) ?_ ?_ (Or.inl hkey)
  · rw [TPCCDatabase.getDistrict, districts_fillTables]
    exact hrow
  · intro k hk
    obtain ⟨hw, hd⟩ := mem_districtKeys.1 hk
    rw [(sized_resized n).districts, districtPosition]
    omega
  · intro k hk hpos
    obtain ⟨hd, hw⟩ := districtPosition_inj (mem_districtKeys.1 hk).2 (mem_intRange.1 hd_id) hpos
    simp only [hw, hd]

theorem getCustomer_fillTables (draws : Draws) {n : ℕ} {w_id d_id c_id : ℤ} (hw_id : w_id ∈ intRange 1 n)
    (hd_id : d_id ∈ intRange 1 10) (hc_id : c_id ∈ intRange 1 3000) :
    (fillTables draws n).getCustomer c_id d_id w_id = some (newCustomer w_id d_id c_id) := by
  have hkey : (w_id, d_id, c_id) ∈ customerKeys n :=
    mem_customerKeys.2 ⟨mem_intRange.1 hw_id, mem_intRange.1 hd_id, mem_intRange.1 hc_id⟩
  have hrow := rowAt_foldl_set (resized n).customers (fun k => customerPosition k.2.2 k.2.1 k.1)
    (fun k => newCustomer k.1 k.2.1 k.2.2) ?_ ?_ (Or.inl hkey)
  · rw [TPCCDatabase.getCustomer, customers_fillTables]
    exact hrow
  · intro k hk
    obtain ⟨hw, hd, hc⟩ := mem_customerKeys.1 hk
    rw [(sized_resized n).customers, customerPosition]
    omega
  · intro k hk hpos
    obtain ⟨-, hd, hc⟩ := mem_customerKeys.1 hk
    obtain ⟨hc, hd, hw⟩ := customerPosition_inj hc (mem_intRange.1 hc_id) hd (mem_intRange.1 hd_id) hpos
    simp only [hw, hd, hc]

theorem getItem_fillTables (draws : Draws) {n : ℕ} {i_id : ℤ} (hi_id : i_id ∈ intRange 1 100000) :
    (fillTables draws n).getItem i_id = some (newItem draws i_id) := by
  have hrow := rowAt_foldl_set (resized n).items itemPosition (newItem draws) ?_ ?_ (Or.inl hi_id)
  · rw [TPCCDatabase.getItem, items_fillTables]
    exact hrow
  · intro i hi
    obtain ⟨hi1, hi2⟩ := mem_intRange.1 hi
    rw [resized, List.length_replicate, itemPosition]
    omega
  · intro i _ hpos
    obtain rfl : i = i_id := by simpa [itemPosition] using hpos
    rfl

theorem getStock_fillTables (draws : Draws) {n : ℕ} {w_id i_id : ℤ} (hw_id : w_id ∈ intRange 1 n)
    (hi_id : i_id ∈ intRange 1 100000) :
    (fillTables draws n).getStock i_id w_id = some (newStock draws w_id i_id) := by
  have hkey : (w_id, i_id) ∈ stockKeys n := mem_stockKeys.2 ⟨mem_intRange.1 hw_id, mem_intRange.1 hi_id⟩
  have hrow := rowAt_foldl_set (resized n).stocks (fun k => stockPosition k.2 k.1)
    (fun k => newStock draws k.1 k.2) ?_ ?_ (Or.inl hkey)
  · rw [TPCCDatabase.getStock, stocks_fillTables]
    exact hrow
  · intro k hk
    obtain ⟨hw, hi⟩ := mem_stockKeys.1 hk
    rw [(sized_resized n).stocks, stockPosition]
    omega
  · intro k hk hpos
    obtain ⟨hi, hw⟩ := stockPosition_inj (mem_stockKeys.1 hk).2 (mem_intRange.1 hi_id) hpos
    simp only [hw, hi]

end TPCCDataGenerator

end Tpcc

end HawkTxn
