/-
The TPC-C workload of a node (`tpcc_data_generator.h`, `tpccWorkloadLoop` of `DistributedDBNode.cpp`).

A pass of the loop draws a transaction. The draws of a pass are numbered and come from `TPCCRandom`, which carries the
ranges they are made from; the functions of `TPCCRandom` compute with them as the C++ does.

Results:
- `generateCID_mem`, `generateItemID_mem`, `generateRandomWarehouseId_mem`: what the generators return;
- `tpccWorkloadLoop_inRange`: the ids in the transactions of a node are those of rows, but for a customer id of zero.
-/
import Mathlib.Data.Int.Bitwise
import HawkTxn.Tpcc.Calls

namespace HawkTxn

open HawkTxn.Core

namespace Tpcc

/-! ## Random draws -/

/-- `NUM_DOMAINS` -/
def numDomains : ℤ := 16

/-- `DOMAIN_LOCAL_ACCESS_PROBABILITY` -/
def domainLocalAccessProbability : ℚ := 4 / 5

/-- `C_LAST` of `TPCCRandom` -/
def cLast : ℤ := 255

/-- the draws of a pass, by number -/
structure TPCCRandom where
  generateRandomInt : ℕ → ℤ → ℤ → ℤ
  generateRandomDouble : ℕ → ℚ → ℚ → ℚ
  /-- the draw between min and max that ends a loop which draws again while the value is between lo and hi -/
  generateOutside : ℕ → ℤ → ℤ → ℤ → ℤ → ℤ
  generateRandomInt_mem : ∀ k min max, min ≤ max → generateRandomInt k min max ∈ intRange min max
  generateRandomDouble_mem : ∀ k min max, min < max →
    min ≤ generateRandomDouble k min max ∧ generateRandomDouble k min max < max
  generateOutside_mem : ∀ k min max lo hi, (∃ r ∈ intRange min max, r ∉ intRange lo hi) →
    generateOutside k min max lo hi ∈ intRange min max ∧ generateOutside k min max lo hi ∉ intRange lo hi

namespace TPCCRandom

/-- the given type of transaction, and otherwise the least value of every range -/
def least (roll : ℤ) : TPCCRandom where
  generateRandomInt k min max := if k = 0 ∧ min ≤ roll ∧ roll ≤ max then roll else min
  generateRandomDouble _ min _ := min
  generateOutside _ min max lo hi := ((intRange min max).find? (· ∉ intRange lo hi)).getD min
  generateRandomInt_mem k min max h := by
    rw [mem_intRange]
    split_ifs with hroll
    · exact hroll.2
    · exact ⟨le_rfl, h⟩
  generateRandomDouble_mem _ _ _ h := ⟨le_rfl, h⟩
  generateOutside_mem _ min max lo hi h := by
    have hfound : ((intRange min max).find? (· ∉ intRange lo hi)).isSome := by
      rw [List.find?_isSome]
      obtain ⟨r, hr, hout⟩ := h
      exact ⟨r, hr, decide_eq_true hout⟩
    obtain ⟨r, hr⟩ := Option.isSome_iff_exists.1 hfound
    have hout := List.find?_some hr
    rw [hr, Option.getD_some]
    exact ⟨List.mem_of_find?_eq_some hr, of_decide_eq_true hout⟩

/-- takes the draws k and k + 1 -/
def NURand (rng : TPCCRandom) (k : ℕ) (A x y : ℤ) : ℤ :=
  ((rng.generateRandomInt k 0 A).lor (rng.generateRandomInt (k + 1) x y) + cLast).tmod (y - x + 1) + x

def generateCID (rng : TPCCRandom) (k : ℕ) : ℤ := rng.NURand k 1023 1 3000

def generateItemID (rng : TPCCRandom) (k : ℕ) : ℤ := rng.NURand k 8191 1 100000

def generateRandomWarehouseId (rng : TPCCRandom) (k : ℕ) (home_node_id : NodeId) : ℤ :=
  let home_warehouse_start_id := home_node_id.tdiv numDomains * warehousesPerNode + 1
  let home_warehouse_end_id := home_warehouse_start_id + warehousesPerNode * numDomains - 1
  if rng.generateRandomDouble k 0 1 < domainLocalAccessProbability then
    rng.generateRandomInt k home_warehouse_start_id home_warehouse_end_id
  else rng.generateOutside k 1 numWarehouses home_warehouse_start_id home_warehouse_end_id

end TPCCRandom

/-! ## The loop -/

/-- the transaction a pass of the loop builds; the customer id 0 stands for a choice by last name -/
def tpccWorkloadLoop (nodeId : NodeId) (rng : TPCCRandom) : TPCCTransaction :=
  let local_warehouse_start_id := (nodeId - 1) * warehousesPerNode + 1
  let local_warehouse_end_id := local_warehouse_start_id + warehousesPerNode - 1
  let transaction_type_roll := rng.generateRandomInt 0 1 100
  let w_id := rng.generateRandomInt 1 local_warehouse_start_id local_warehouse_end_id
  if transaction_type_roll ≤ 45 then
    let d_id := rng.generateRandomInt 2 1 10
    let c_id := rng.generateCID 3
    let num_items := rng.generateRandomInt 5 5 15
    let item_info := (List.range num_items.toNat).map fun i =>
      (rng.generateItemID (6 + 3 * i), rng.generateRandomInt (8 + 3 * i) 1 10)
    .newOrder ⟨w_id, d_id, c_id, item_info⟩
  else if transaction_type_roll ≤ 88 then
    let d_id := rng.generateRandomInt 2 1 10
    let c_w_id := if rng.generateRandomDouble 3 0 1 < 3 / 20 then rng.generateRandomWarehouseId 4 nodeId else w_id
    let c_d_id := rng.generateRandomInt 5 1 10
    let c_id := if rng.generateRandomInt 6 1 100 ≤ 40 then 0 else rng.generateCID 7
    let h_amount := rng.generateRandomDouble 9 1 5000
    .payment ⟨w_id, d_id, c_w_id, c_d_id, c_id, h_amount⟩
  else if transaction_type_roll ≤ 92 then
    let d_id := rng.generateRandomInt 2 1 10
    let c_id := if rng.generateRandomInt 3 1 100 ≤ 40 then 0 else rng.generateCID 4
    .orderStatus ⟨w_id, d_id, c_id⟩
  else if transaction_type_roll ≤ 96 then
    let o_carrier_id := rng.generateRandomInt 2 1 10
    .delivery ⟨w_id, o_carrier_id⟩
  else
    let d_id := rng.generateRandomInt 2 1 10
    let threshold := rng.generateRandomInt 3 10 20
    .stockLevel ⟨w_id, d_id, threshold⟩

/-- a call of a transaction that the loop of a node builds; the supply warehouses are drawn at that node -/
structure WorkloadCall (nodeId : NodeId) (c : Call) : Prop where
  tx : ∃ rng, c.tx = tpccWorkloadLoop nodeId rng
  supply : ∀ i, ∃ rng : TPCCRandom, c.out.randomWarehouseId i = rng.generateRandomWarehouseId i nodeId

/-! ## Ranges -/

variable {rng : TPCCRandom} {k : ℕ} {nodeId : NodeId}

theorem NURand_mem {A x y : ℤ} (hA : 0 ≤ A) (hx : 0 ≤ x) (hxy : x ≤ y) : rng.NURand k A x y ∈ intRange x y := by
  have ha := (mem_intRange.1 (rng.generateRandomInt_mem k 0 A hA)).1
  have hb := hx.trans (mem_intRange.1 (rng.generateRandomInt_mem (k + 1) x y hxy)).1
  obtain ⟨a, ha⟩ := Int.eq_ofNat_of_zero_le ha
  obtain ⟨b, hb⟩ := Int.eq_ofNat_of_zero_le hb
  -- the alternative of two numbers that are not negative is none either
  have hsum : 0 ≤ (rng.generateRandomInt k 0 A).lor (rng.generateRandomInt (k + 1) x y) + cLast := by
    rw [ha, hb]
    exact Int.natCast_nonneg _
  have hpos : 0 < y - x + 1 := by omega
  have hnonneg := Int.tmod_nonneg (y - x + 1) hsum
  have hlt := Int.tmod_lt_of_pos ((rng.generateRandomInt k 0 A).lor (rng.generateRandomInt (k + 1) x y) + cLast) hpos
  rw [mem_intRange]
  unfold TPCCRandom.NURand
  omega

theorem generateCID_mem : rng.generateCID k ∈ intRange 1 3000 := NURand_mem (by decide) (by decide) (by decide)

theorem generateItemID_mem : rng.generateItemID k ∈ intRange 1 100000 := NURand_mem (by decide) (by decide) (by decide)

theorem generateRandomWarehouseId_mem (hnode : nodeId ∈ intRange 1 numNodes) :
    rng.generateRandomWarehouseId k nodeId ∈ intRange 1 numWarehouses := by
  rw [mem_intRange, numNodes] at hnode
  -- the domain of a node numbers sixteen by sixteen, from zero to eight
  have hdomain : nodeId.tdiv numDomains = nodeId / 16 := Int.tdiv_eq_ediv_of_nonneg (by omega)
  have hwarehouses : numWarehouses = 1280 := rfl
  have hwidth : warehousesPerNode * numDomains = 160 := rfl
  have hper : nodeId / 16 * warehousesPerNode = nodeId / 16 * 10 := rfl
  simp only [TPCCRandom.generateRandomWarehouseId, hdomain, hwarehouses, hwidth, hper]
  split_ifs
  · have hlocal := rng.generateRandomInt_mem k (nodeId / 16 * 10 + 1) (nodeId / 16 * 10 + 1 + 160 - 1) (by omega)
    rw [mem_intRange] at hlocal ⊢
    omega
  · refine (rng.generateOutside_mem k 1 1280 _ _ ⟨1280, ?_, ?_⟩).1
    · exact mem_intRange.2 ⟨by norm_num, le_rfl⟩
    · rw [mem_intRange]
      omega

/-- the ids of a transaction are those of rows of n warehouses; the customer of a Payment may be zero -/
def TPCCTransaction.InRange (n : ℤ) : TPCCTransaction → Prop
  | newOrder tx => tx.w_id ∈ intRange 1 n ∧ tx.d_id ∈ intRange 1 10 ∧ tx.c_id ∈ intRange 1 3000 ∧
      ∀ item ∈ tx.item_info, item.1 ∈ intRange 1 100000
  | payment tx => tx.w_id ∈ intRange 1 n ∧ tx.d_id ∈ intRange 1 10 ∧ tx.c_w_id ∈ intRange 1 n ∧
      tx.c_d_id ∈ intRange 1 10 ∧ (tx.c_id = 0 ∨ tx.c_id ∈ intRange 1 3000)
  | orderStatus _ => True
  | delivery _ => True
  | stockLevel tx => tx.w_id ∈ intRange 1 n ∧ tx.d_id ∈ intRange 1 10

/-- the warehouses of a node are among all -/
theorem local_warehouse_mem (hnode : nodeId ∈ intRange 1 numNodes) :
    rng.generateRandomInt k ((nodeId - 1) * warehousesPerNode + 1)
      ((nodeId - 1) * warehousesPerNode + 1 + warehousesPerNode - 1) ∈ intRange 1 numWarehouses := by
  have hlocal := rng.generateRandomInt_mem k ((nodeId - 1) * 10 + 1) ((nodeId - 1) * 10 + 1 + 10 - 1) (by omega)
  have hwarehouses : numWarehouses = 1280 := rfl
  rw [mem_intRange, numNodes] at hnode
  rw [hwarehouses]
  unfold warehousesPerNode
  rw [mem_intRange] at hlocal ⊢
  omega

/-- **What a node builds.** -/
theorem tpccWorkloadLoop_inRange (hnode : nodeId ∈ intRange 1 numNodes) :
    (tpccWorkloadLoop nodeId rng).InRange numWarehouses := by
  have hw : ∀ k, rng.generateRandomInt k ((nodeId - 1) * warehousesPerNode + 1)
      ((nodeId - 1) * warehousesPerNode + 1 + warehousesPerNode - 1) ∈ intRange 1 numWarehouses :=
    fun k => local_warehouse_mem hnode
  have hd : ∀ k, rng.generateRandomInt k 1 10 ∈ intRange 1 10 := fun k => rng.generateRandomInt_mem k 1 10 (by decide)
  unfold tpccWorkloadLoop
  by_cases hnewOrder : rng.generateRandomInt 0 1 100 ≤ 45
  · simp only [if_pos hnewOrder]
    refine ⟨hw 1, hd 2, generateCID_mem, ?_⟩
    intro item hitem
    obtain ⟨i, -, rfl⟩ := List.mem_map.1 hitem
    exact generateItemID_mem
  by_cases hpayment : rng.generateRandomInt 0 1 100 ≤ 88
  · have hc_w_id : ∀ p : Prop, ∀ [Decidable p], (if p then rng.generateRandomWarehouseId 4 nodeId else
        rng.generateRandomInt 1 ((nodeId - 1) * warehousesPerNode + 1)
          ((nodeId - 1) * warehousesPerNode + 1 + warehousesPerNode - 1)) ∈ intRange 1 numWarehouses := by
      intro p _
      split_ifs
      · exact generateRandomWarehouseId_mem hnode
      · exact hw 1
    have hc_id : ∀ p : Prop, ∀ [Decidable p], (if p then 0 else rng.generateCID 7) = 0 ∨
        (if p then 0 else rng.generateCID 7) ∈ intRange 1 3000 := by
      intro p _
      split_ifs
      · exact Or.inl rfl
      · exact Or.inr generateCID_mem
    simp only [if_neg hnewOrder, if_pos hpayment]
    exact ⟨hw 1, hd 2, hc_w_id _, hd 5, hc_id _⟩
  by_cases horderStatus : rng.generateRandomInt 0 1 100 ≤ 92
  · simp only [if_neg hnewOrder, if_neg hpayment, if_pos horderStatus]
    exact trivial
  by_cases hdelivery : rng.generateRandomInt 0 1 100 ≤ 96
  · simp only [if_neg hnewOrder, if_neg hpayment, if_neg horderStatus, if_pos hdelivery]
    exact trivial
  · simp only [if_neg hnewOrder, if_neg hpayment, if_neg horderStatus, if_neg hdelivery]
    exact ⟨hw 1, hd 2⟩

end Tpcc

end HawkTxn
