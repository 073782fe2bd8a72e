/-
Lock ids of TPC-C rows (`getTPCCResourceId` in `tpcc_transaction.h`) and who owns them (`getOwnerNodeId`).

A table name is an enumeration here, so the id 0 of an unknown name does not occur. Ids are unbounded integers: with
the 1280 warehouses of the cluster the source's `int` holds them up to order numbers of about 100 million, and has no
defined value beyond.

Results:
- `ids_distinct_iff`: two rows have distinct ids exactly when neither runs into the other's place, and all rows of W
  warehouses with order numbers up to O have distinct ids exactly for W ≤ 10 and O ≤ 900;
- `grantable_iff`: a free lock is granted on its owner's node and on no other;
- `never_granted`: no node of the cluster owns a row's lock.
-/
import HawkTxn.ResourceManager

namespace HawkTxn

open HawkTxn.Core UnorderedMap

namespace Tpcc

/-! ## Model -/

inductive Table where
  | warehouse
  | district
  | customer
  | item
  | stock
  | order
  | newOrder
  | orderLine
  | history
deriving DecidableEq, Repr

def resourceBaseWarehouse : ResourceId := 1000000
def resourceBaseDistrict : ResourceId := 2000000
def resourceBaseCustomer : ResourceId := 3000000
def resourceBaseItem : ResourceId := 4000000
def resourceBaseStock : ResourceId := 5000000
def resourceBaseOrder : ResourceId := 6000000
def resourceBaseNewOrder : ResourceId := 7000000
def resourceBaseOrderLine : ResourceId := 8000000
def resourceBaseHistory : ResourceId := 9000000

def getTPCCResourceId (table : Table) (w_id d_id c_id item_id o_id ol_number : ℤ) : ResourceId :=
  match table with
  | .warehouse => resourceBaseWarehouse + w_id
  | .district => resourceBaseDistrict + (w_id - 1) * 10 + d_id
  | .customer => resourceBaseCustomer + (w_id - 1) * 10 * 3000 + (d_id - 1) * 3000 + c_id
  | .item => resourceBaseItem + item_id
  | .stock => resourceBaseStock + (w_id - 1) * 100000 + item_id
  | .order => resourceBaseOrder + (w_id - 1) * 10 * 3000 + (d_id - 1) * 3000 + o_id
  | .newOrder => resourceBaseNewOrder + (w_id - 1) * 10 * 900 + (d_id - 1) * 900 + o_id
  | .orderLine => resourceBaseOrderLine + (w_id - 1) * 10 * 3000 * 15 + (d_id - 1) * 3000 * 15 + (o_id - 1) * 15 +
      ol_number
  | .history => resourceBaseHistory + (w_id - 1) * 10 * 3000 + (d_id - 1) * 3000 + c_id

/-- the key of a row -/
inductive RowKey where
  | warehouse (w_id : ℤ)
  | district (w_id d_id : ℤ)
  | customer (w_id d_id c_id : ℤ)
  | item (item_id : ℤ)
  | stock (w_id item_id : ℤ)
  | order (w_id d_id o_id : ℤ)
  | newOrder (w_id d_id o_id : ℤ)
  | orderLine (w_id d_id o_id ol_number : ℤ)
  | history (w_id d_id c_id : ℤ)
deriving DecidableEq, Repr

/-- a number between 1 and a bound -/
def UpTo (bound n : ℤ) : Prop := 1 ≤ n ∧ n ≤ bound

namespace RowKey

/-- the lock id of a row; a call leaves the arguments it does not name at their default 0 -/
def resourceId : RowKey → ResourceId
  | warehouse w_id => getTPCCResourceId .warehouse w_id 0 0 0 0 0
  | district w_id d_id => getTPCCResourceId .district w_id d_id 0 0 0 0
  | customer w_id d_id c_id => getTPCCResourceId .customer w_id d_id c_id 0 0 0
  | item item_id => getTPCCResourceId .item 0 0 0 item_id 0 0
  | stock w_id item_id => getTPCCResourceId .stock w_id 0 0 item_id 0 0
  | order w_id d_id o_id => getTPCCResourceId .order w_id d_id 0 0 o_id 0
  | newOrder w_id d_id o_id => getTPCCResourceId .newOrder w_id d_id 0 0 o_id 0
  | orderLine w_id d_id o_id ol_number => getTPCCResourceId .orderLine w_id d_id 0 0 o_id ol_number
  | history w_id d_id c_id => getTPCCResourceId .history w_id d_id c_id 0 0 0

/-- the keys of a database with `warehouses` warehouses; order numbers grow without a bound -/
def InRange (warehouses : ℤ) : RowKey → Prop
  | warehouse w => UpTo warehouses w
  | district w d => UpTo warehouses w ∧ UpTo 10 d
  | customer w d c | history w d c => UpTo warehouses w ∧ UpTo 10 d ∧ UpTo 3000 c
  | item i => UpTo 100000 i
  | stock w i => UpTo warehouses w ∧ UpTo 100000 i
  | order w d o | newOrder w d o => UpTo warehouses w ∧ UpTo 10 d ∧ 1 ≤ o
  | orderLine w d o ol => UpTo warehouses w ∧ UpTo 10 d ∧ 1 ≤ o ∧ UpTo 15 ol

/-- is the row in a table other than HISTORY, whose rows have no key of their own? -/
def Keyed : RowKey → Prop
  | history _ _ _ => False
  | _ => True

/-- the order number of the row, if it has one, is at most `orders` -/
def OrdersUpTo (orders : ℤ) : RowKey → Prop
  | order _ _ o | newOrder _ _ o | orderLine _ _ o _ => o ≤ orders
  | _ => True

/-! ## Slots -/

/-- districts of a warehouse are numbered through -/
def districtIndex (w d : ℤ) : ℤ := 10 * (w - 1) + (d - 1)

/-- the position of a row behind the base of its table -/
def slot : RowKey → ℤ
  | warehouse w => w
  | district w d => districtIndex w d + 1
  | customer w d c | history w d c => 3000 * districtIndex w d + c
  | item i => i
  | stock w i => 100000 * (w - 1) + i
  | order w d o => 3000 * districtIndex w d + o
  | newOrder w d o => 900 * districtIndex w d + o
  | orderLine w d o ol => 15 * (3000 * districtIndex w d + (o - 1)) + ol

/-- in thousands of thousands, where the table's ids start -/
def tableNumber : RowKey → ℤ
  | warehouse _ => 1
  | district _ _ => 2
  | customer _ _ _ => 3
  | item _ => 4
  | stock _ _ => 5
  | order _ _ _ => 6
  | newOrder _ _ _ => 7
  | orderLine _ _ _ _ => 8
  | history _ _ _ => 9

theorem resourceId_eq (k : RowKey) : k.resourceId = 1000000 * k.tableNumber + k.slot := by
  cases k <;>
  simp only [resourceId, getTPCCResourceId, tableNumber, slot, districtIndex, resourceBaseWarehouse,
    resourceBaseDistrict, resourceBaseCustomer, resourceBaseItem, resourceBaseStock, resourceBaseOrder,
    resourceBaseNewOrder, resourceBaseOrderLine, resourceBaseHistory] <;>
  ring

theorem same_id_iff (k k' : RowKey) :
    k.resourceId = k'.resourceId ↔ k.slot - k'.slot = 1000000 * (k'.tableNumber - k.tableNumber) := by
  rw [resourceId_eq, resourceId_eq]
  change (_ : ℤ) = _ ↔ _
  omega

/-- the first row lies so far behind its base that it is in the second row's place: an order number reaches into a
later district of its own table, or a slot of a large table reaches the ids of a later table -/
def RunsInto : RowKey → RowKey → Prop
  | order w d o, order w' d' o' =>
    districtIndex w d < districtIndex w' d' ∧ o = o' + 3000 * (districtIndex w' d' - districtIndex w d)
  | newOrder w d o, newOrder w' d' o' =>
    districtIndex w d < districtIndex w' d' ∧ o = o' + 900 * (districtIndex w' d' - districtIndex w d)
  | orderLine w d o ol, orderLine w' d' o' ol' => districtIndex w d < districtIndex w' d' ∧
    o = o' + 3000 * (districtIndex w' d' - districtIndex w d) ∧ ol = ol'
  | customer w d c, item i => slot (customer w d c) = 1000000 + slot (item i)
  | customer w d c, stock w' i => slot (customer w d c) = 2000000 + slot (stock w' i)
  | customer w d c, order w' d' o => slot (customer w d c) = 3000000 + slot (order w' d' o)
  | customer w d c, newOrder w' d' o => slot (customer w d c) = 4000000 + slot (newOrder w' d' o)
  | customer w d c, orderLine w' d' o ol => slot (customer w d c) = 5000000 + slot (orderLine w' d' o ol)
  | stock w i, order w' d' o => slot (stock w i) = 1000000 + slot (order w' d' o)
  | stock w i, newOrder w' d' o => slot (stock w i) = 2000000 + slot (newOrder w' d' o)
  | stock w i, orderLine w' d' o ol => slot (stock w i) = 3000000 + slot (orderLine w' d' o ol)
  | order w d o, newOrder w' d' o' => slot (order w d o) = 1000000 + slot (newOrder w' d' o')
  | order w d o, orderLine w' d' o' ol => slot (order w d o) = 2000000 + slot (orderLine w' d' o' ol)
  | newOrder w d o, orderLine w' d' o' ol => slot (newOrder w d o) = 1000000 + slot (orderLine w' d' o' ol)
  | _, _ => False

/-- one of the two rows runs into the other -/
def Clash (k k' : RowKey) : Prop := RunsInto k k' ∨ RunsInto k' k

/-- **Shared ids.** Two rows of the cluster's tables share an id exactly when one runs into the other. -/
theorem same_id_iff_clash {k k' : RowKey} (hk : k.InRange numWarehouses) (hk' : k'.InRange numWarehouses)
    (hkeyed : k.Keyed) (hkeyed' : k'.Keyed) (hne : k ≠ k') : k.resourceId = k'.resourceId ↔ Clash k k' := by
  rw [same_id_iff]
  -- one case for each pair of tables; digits within their radices are determined by the slot
  cases k <;> cases k' <;>
  simp only [InRange, UpTo, Keyed, tableNumber, slot, Clash, RunsInto, districtIndex, numWarehouses, numNodes,
    warehousesPerNode, ne_eq, reduceCtorEq, warehouse.injEq, district.injEq, customer.injEq, item.injEq, stock.injEq,
    order.injEq, newOrder.injEq, orderLine.injEq, or_self, or_false, false_or, iff_false]
    at hk hk' hkeyed hkeyed' hne ⊢ <;>
  omega

/-- ten warehouses and 900 order numbers fit into the slots -/
theorem not_runsInto {k k' : RowKey} (hk : k.InRange 10) (hk' : k'.InRange 10) (horders : k.OrdersUpTo 900) :
    ¬ RunsInto k k' := by
  cases k <;> cases k' <;>
  simp only [InRange, UpTo, OrdersUpTo, slot, RunsInto, districtIndex, not_false_eq_true] at hk hk' horders ⊢ <;>
  omega

theorem InRange.mono {k : RowKey} {warehouses warehouses' : ℤ} (hle : warehouses ≤ warehouses')
    (h : k.InRange warehouses) : k.InRange warehouses' := by
  cases k <;> simp only [InRange, UpTo] at h ⊢ <;> omega

theorem OrdersUpTo.mono {k : RowKey} {orders orders' : ℤ} (hle : orders ≤ orders') (h : k.OrdersUpTo orders) :
    k.OrdersUpTo orders' := by
  cases k <;> simp only [OrdersUpTo] at h ⊢ <;> omega

/-- the rows of `warehouses` warehouses with order numbers up to `orders` have distinct ids -/
def DistinctIds (warehouses orders : ℤ) : Prop := ∀ k k' : RowKey, k.InRange warehouses → k'.InRange warehouses →
  k.OrdersUpTo orders → k'.OrdersUpTo orders → k.Keyed → k'.Keyed → k ≠ k' → k.resourceId ≠ k'.resourceId

/-- the tables have room for ten warehouses and for 900 orders in a district -/
theorem distinctIds_iff {warehouses orders : ℤ} (hwarehouses : 1 ≤ warehouses) (horders : 1 ≤ orders) :
    DistinctIds warehouses orders ↔ warehouses ≤ 10 ∧ orders ≤ 900 := by
  refine ⟨?_, ?_⟩
  · intro h
    refine ⟨?_, ?_⟩
    · -- the first item of warehouse 11 takes the place of the first order
      by_contra hmany
      refine h (stock 11 1) (order 1 1 1) ?_ ?_ trivial ?_ trivial trivial (by decide) (by decide)
      · simp only [InRange, UpTo]; omega
      · simp only [InRange, UpTo]; omega
      · exact horders
    · -- undelivered order 901 of a district takes the place of the next district's first
      by_contra hmany
      refine h (newOrder 1 1 901) (newOrder 1 2 1) ?_ ?_ ?_ ?_ trivial trivial (by decide) (by decide)
      · simp only [InRange, UpTo]; omega
      · simp only [InRange, UpTo]; omega
      · simp only [OrdersUpTo]; omega
      · exact horders
  · intro h k k' hk hk' ho ho' hkeyed hkeyed' hne hsame
    obtain ⟨hten, hmany⟩ := h
    have hcluster : (10 : ℤ) ≤ numWarehouses := by decide
    have hclash := (same_id_iff_clash ((hk.mono hten).mono hcluster) ((hk'.mono hten).mono hcluster) hkeyed hkeyed'
      hne).1 hsame
    rcases hclash with hruns | hruns
    · exact not_runsInto (hk.mono hten) (hk'.mono hten) (ho.mono hmany) hruns
    · exact not_runsInto (hk'.mono hten) (hk.mono hten) (ho'.mono hmany) hruns

/-- **Distinct ids.** Two rows of the cluster's tables have distinct ids exactly when neither runs into the other; so
all rows of a number of warehouses, with order numbers up to a bound, have distinct ids exactly when there are at most
ten warehouses and 900 order numbers. -/
theorem ids_distinct_iff {k k' : RowKey} (hk : k.InRange numWarehouses) (hk' : k'.InRange numWarehouses)
    (hkeyed : k.Keyed) (hkeyed' : k'.Keyed) (hne : k ≠ k') :
    (k.resourceId ≠ k'.resourceId ↔ ¬ Clash k k') ∧
    ∀ warehouses orders : ℤ, 1 ≤ warehouses → 1 ≤ orders →
      (DistinctIds warehouses orders ↔ warehouses ≤ 10 ∧ orders ≤ 900) :=
  ⟨not_congr (same_id_iff_clash hk hk' hkeyed hkeyed' hne),
    fun _ _ hwarehouses horders => distinctIds_iff hwarehouses horders⟩

theorem ids_distinct_iff_orders : (order 1 1 3001).resourceId ≠ (order 1 2 2).resourceId := by
  have hfirst : (order 1 1 3001).InRange numWarehouses := by
    simp only [InRange, UpTo, numWarehouses, numNodes, warehousesPerNode]; omega
  have hsecond : (order 1 2 2).InRange numWarehouses := by
    simp only [InRange, UpTo, numWarehouses, numNodes, warehousesPerNode]; omega
  have hapart : ¬ Clash (order 1 1 3001) (order 1 2 2) := by
    simp only [Clash, RunsInto, districtIndex]; omega
  exact (ids_distinct_iff hfirst hsecond trivial trivial (by decide)).1.2 hapart

/-- the first order placed in district 1 has the id of order 1 of district 2 -/
theorem first_new_order_shares_id :
    ¬ ∀ k k' : RowKey, k.InRange numWarehouses → k'.InRange numWarehouses → k.Keyed → k'.Keyed → k ≠ k' →
      k.resourceId ≠ k'.resourceId := by
  intro h
  refine h (order 1 1 3001) (order 1 2 1) ?_ ?_ trivial trivial (by decide) (by decide)
  · simp only [InRange, UpTo, numWarehouses, numNodes, warehousesPerNode]; omega
  · simp only [InRange, UpTo, numWarehouses, numNodes, warehousesPerNode]; omega

/-! ## Owners -/

/-- a request for the resource, free of holders and waiters, succeeds on the node -/
def GrantableAt (n : NodeId) (r : ResourceId) : Prop := ∀ rm : ResourceManager, rm.nodeId = n →
  (rm.getResourceHolders r).entries = [] → rm.getResourceWaitingQueue r = [] → ∀ t m, (rm.acquireLock t r m).1 = true

theorem acquireLock_elsewhere {rm : ResourceManager} {r : ResourceId} (h : getOwnerNodeId r ≠ rm.nodeId)
    (t : TransactionId) (m : LockMode) : rm.acquireLock t r m = (false, rm) := by
  rw [ResourceManager.acquireLock, if_pos h]

/-- a free lock is granted by its owner only -/
theorem grantable_iff (n : NodeId) (r : ResourceId) : GrantableAt n r ↔ getOwnerNodeId r = n := by
  refine ⟨?_, ?_⟩
  · intro h
    by_contra hother
    have hgrant := h (ResourceManager.init n) rfl rfl rfl 0 .shared
    rw [acquireLock_elsewhere hother] at hgrant
    cases hgrant
  · intro howner rm hnode hfree _ t m
    have hconflict : rm.checkConflict r m = false := by rw [ResourceManager.checkConflict, if_pos hfree]
    rw [ResourceManager.acquireLock, if_neg (by rw [hnode]; exact not_not_intro howner), hconflict]
    rfl

/-- every table lies behind the resources of the last node -/
theorem resources_lt_resourceId {k : RowKey} (h : k.InRange numWarehouses) :
    (numNodes * resourcesPerNode : ℤ) < k.resourceId := by
  rw [resourceId_eq]
  cases k <;> simp only [InRange, UpTo] at h <;>
  simp only [tableNumber, slot, districtIndex, numNodes, resourcesPerNode] <;>
  omega

theorem owner_outside {r : ResourceId} (h : numNodes * resourcesPerNode < r) : numNodes < getOwnerNodeId r := by
  simp only [numNodes, resourcesPerNode, getOwnerNodeId] at h ⊢
  have htdiv : (r - 1).tdiv 1000 = (r - 1) / 1000 := Int.tdiv_eq_ediv_of_nonneg (by omega)
  rw [htdiv]
  omega

/-- **Nobody's locks.** The owner of a row's lock is not a node of the cluster: no node grants it when it is free, and
none ever does in any state. -/
theorem never_granted {k : RowKey} (h : k.InRange numWarehouses) :
    getOwnerNodeId k.resourceId ∉ intRange 1 numNodes ∧ (¬ ∃ n ∈ intRange 1 numNodes, GrantableAt n k.resourceId) ∧
      ∀ rm : ResourceManager, rm.nodeId ∈ intRange 1 numNodes → ∀ t m,
        (rm.acquireLock t k.resourceId m).1 = false := by
  have howner := owner_outside (resources_lt_resourceId h)
  have hout : ∀ n ∈ intRange 1 numNodes, getOwnerNodeId k.resourceId ≠ n := by
    intro n hn heq
    rw [mem_intRange, ← heq] at hn
    exact absurd hn.2 (not_le.2 howner)
  refine ⟨fun hmem => hout _ hmem rfl, ?_, ?_⟩
  · intro h
    obtain ⟨n, hn, hgrant⟩ := h
    exact hout n hn ((grantable_iff n _).1 hgrant)
  · intro rm hnode t m
    rw [acquireLock_elsewhere (hout _ hnode)]

theorem never_granted_warehouse :
    getOwnerNodeId (warehouse 1).resourceId ∉ intRange 1 numNodes ∧
      (¬ ∃ n ∈ intRange 1 numNodes, GrantableAt n (warehouse 1).resourceId) ∧
      ∀ rm : ResourceManager, rm.nodeId ∈ intRange 1 numNodes → ∀ t m,
        (rm.acquireLock t (warehouse 1).resourceId m).1 = false := by
  have hfirst : (warehouse 1).InRange numWarehouses := ⟨le_rfl, by decide⟩
  exact never_granted hfirst

/-- warehouse 1's lock is owned by node 1001 -/
theorem warehouse_lock_unowned :
    ¬ ∀ k : RowKey, k.InRange numWarehouses → ∃ n ∈ intRange 1 numNodes, GrantableAt n k.resourceId := by
  intro h
  obtain ⟨n, hn, hgrant⟩ := h (warehouse 1) ⟨le_rfl, by decide⟩
  have howner : getOwnerNodeId (warehouse 1).resourceId = 1001 := by decide
  rw [grantable_iff, howner] at hgrant
  subst hgrant
  exact absurd (mem_intRange.1 hn).2 (by decide)

end RowKey

end Tpcc

end HawkTxn
