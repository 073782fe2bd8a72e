/-
Stock rows (`tpcc_transaction.cpp`, `TPCCNewOrderTransaction::execute`; `tpcc_data_generator.cpp`, `generateStock`).

A stock row changes in one place: an item takes five, and a hundred are added where fewer than ten would be left. The
write is not undone when the call is denied later on, so the row may be ahead of the lines, but its columns never part:
the number of orders determines them.

Results:
- `orderStock_iterate`: the columns of a row after k orders, in closed form;
- `execute_stocked`: a New-Order keeps every row on its way, returning or stopping;
- `stocks_of_reaches`: every row in every run, whatever the calls return.
-/
import HawkTxn.Tpcc.Books

namespace HawkTxn

open HawkTxn.Core

namespace Tpcc

open TPCCDatabase TPCCNewOrderTransaction

/-! ## One row -/

/-- **Restocking by hundreds.** The quantity goes down by five with each order, and around from 10 to 109. -/
theorem orderStock_iterate {row : Stock} (h : 10 ≤ row.s_quantity ∧ row.s_quantity ≤ 109) (k : ℕ) :
    orderStock^[k] row = { row with
      s_quantity := 10 + (row.s_quantity - 10 - 5 * k) % 100
      s_ytd := row.s_ytd + 5 * k
      s_order_cnt := row.s_order_cnt + k } := by
  induction k with
  | zero =>
    have hquantity : 10 + (row.s_quantity - 10) % 100 = row.s_quantity := by omega
    simp [hquantity]
  | succ k ih =>
    rw [Function.iterate_succ_apply', ih, orderStock]
    simp only [Stock.mk.injEq, true_and]
    refine ⟨?_, by push_cast; ring, by push_cast; ring⟩
    push_cast
    split_ifs with hlow <;> omega

/-! ## All rows -/

/-- each row has come some orders far from the row of db₀, and the lines since are no more than that -/
structure Stocked (db₀ : TPCCDatabase) (underway : ℤ → ℤ) (db : TPCCDatabase) : Prop where
  rows : ∀ (j : ℕ) (row : Stock), db.stocks[j]? = some row → ∃ row₀ k, db₀.stocks[j]? = some row₀ ∧
    row = orderStock^[k] row₀ ∧ ((db.taken - db₀.taken) j).2 + underway j ≤ k

variable {db₀ db db' : TPCCDatabase} {underway : ℤ → ℤ} {out : Outside} {n : ℕ} {draws : Draws} {c : Call} {i : ℤ}

theorem stocked_self (db : TPCCDatabase) : Stocked db 0 db where
  rows _ row hrow := ⟨row, 0, hrow, rfl, by simp⟩

/-- tables that are not of stocks -/
theorem Stocked.of_rows (h : Stocked db₀ underway db) (hstocks : db'.stocks = db.stocks)
    (htaken : db'.taken = db.taken) : Stocked db₀ underway db' where
  rows := by
    rw [hstocks, htaken]
    exact h.rows

theorem Stocked.of_le {underway' : ℤ → ℤ} (h : Stocked db₀ underway db) (hle : ∀ j, underway' j ≤ underway j) :
    Stocked db₀ underway' db where
  rows j row hrow := by
    obtain ⟨row₀, k, hrow₀, heq, hk⟩ := h.rows j row hrow
    exact ⟨row₀, k, hrow₀, heq, (add_le_add_right (hle j) _).trans hk⟩

/-- an item is taken, and its line is still to come -/
theorem Stocked.order {row : Stock} (h : Stocked db₀ 0 db) (hi : 0 ≤ i) (hrow : db.stocks[i.toNat]? = some row) :
    Stocked db₀ (Pi.single i 1) { db with stocks := db.stocks.set i.toNat (orderStock row) } where
  rows j row' hrow' := by
    have hlt := (List.getElem?_eq_some_iff.1 hrow).1
    rw [List.getElem?_set] at hrow'
    by_cases hj : i.toNat = j
    · subst hj
      rw [if_pos rfl, if_pos hlt] at hrow'
      obtain rfl : orderStock row = row' := Option.some.inj hrow'
      obtain ⟨row₀, k, hrow₀, heq, hk⟩ := h.rows i.toNat row hrow
      refine ⟨row₀, k + 1, hrow₀, by rw [Function.iterate_succ_apply', heq], ?_⟩
      have hsingle : (Pi.single i 1 : ℤ → ℤ) i.toNat = 1 := by rw [Int.toNat_of_nonneg hi, Pi.single_eq_same]
      rw [Pi.zero_apply, add_zero] at hk
      rw [hsingle]
      exact_mod_cast Int.add_le_add_right hk 1
    · rw [if_neg hj] at hrow'
      have hne : (j : ℤ) ≠ i := fun heq => hj (by omega)
      obtain ⟨row₀, k, hrow₀, heq, hk⟩ := h.rows j row' hrow'
      refine ⟨row₀, k, hrow₀, heq, ?_⟩
      rwa [Pi.single_eq_of_ne hne]

/-- the line is appended -/
theorem Stocked.enter {ol : OrderLine} (h : Stocked db₀ (Pi.single ol.stockPlace 1) db) :
    Stocked db₀ 0 { db with order_lines := db.order_lines ++ [ol] } where
  rows j row hrow := by
    obtain ⟨row₀, k, hrow₀, heq, hk⟩ := h.rows j row hrow
    refine ⟨row₀, k, hrow₀, heq, ?_⟩
    have htaken : ((taken { db with order_lines := db.order_lines ++ [ol] } - db₀.taken) j).2 =
        ((db.taken - db₀.taken) j).2 + (Pi.single ol.stockPlace 1 : ℤ → ℤ) j := by
      by_cases hj : (j : ℤ) = ol.stockPlace
      · simp only [taken, total_append, total_singleton, hj, Pi.sub_apply, Pi.add_apply, Pi.single_eq_same,
          Prod.snd_sub, Prod.snd_add]
        ring
      · simp only [taken, total_append, total_singleton, Pi.sub_apply, Pi.add_apply, Pi.single_eq_of_ne hj,
          Prod.snd_sub, Prod.snd_add, Prod.snd_zero]
        ring
    rw [htaken, Pi.zero_apply, add_zero]
    exact hk

/-! ## Calls -/

theorem TPCCNewOrderTransaction.orderItem_stocked (tx : TPCCNewOrderTransaction) (o_id : ℤ) (total_order_amount : ℚ)
    (item : (ℤ × ℤ) × ℕ) :
    Triple (On (Stocked db₀ 0)) (tx.orderItem .plain out o_id total_order_amount item) (fun _ => On (Stocked db₀ 0))
      (On (Stocked db₀ 0)) := by
  have hnone : ∀ ol : OrderLine, ∀ j, (0 : ℤ → ℤ) j ≤ (Pi.single ol.stockPlace 1 : ℤ → ℤ) j := by
    intro ol j
    exact (Pi.single_nonneg (i := ol.stockPlace)).2 (zero_le_one (α := ℤ)) j
  unfold orderItem
  refine Triple.bind (acquire_on fun _ h => h) fun _ => ?_
  refine Triple.bind (acquire_on fun _ h => h) fun _ => ?_
  refine Triple.bind (updateRow_on (G := fun _ => Stocked db₀
    (Pi.single (tx.orderLine out o_id item.1.1 item.2).stockPlace 1)) ?_) fun stock => ?_
  · exact fun db row h hpos hrow => h.order hpos hrow
  -- denied here, the stock is ahead of the lines
  refine Triple.bind (acquire_on fun _ h => h.of_le (hnone _)) fun _ => ?_
  refine Triple.bind (write_on (G := Stocked db₀ 0) ?_) fun _ => Triple.pure fun _ hs => hs
  exact fun db h => h.enter

theorem TPCCNewOrderTransaction.execute_stocked (tx : TPCCNewOrderTransaction) :
    Triple (On (Stocked db₀ 0)) (tx.execute out) (fun _ => On (Stocked db₀ 0)) (On (Stocked db₀ 0)) := by
  unfold execute executeWith
  refine Triple.bind (acquire_on fun _ h => h) fun _ => ?_
  refine Triple.bind (acquire_on fun _ h => h) fun _ => ?_
  rw [RowAccess.plain_updateDistrict]
  refine Triple.bind (updateRow_on (G := fun _ => Stocked db₀ 0) ?_) fun district => ?_
  · exact fun db row h _ _ => h.of_rows rfl rfl
  refine Triple.bind (acquire_on fun _ h => h) fun _ => ?_
  refine Triple.bind getCurrentTimestamp_on fun o_entry_d => ?_
  refine Triple.bind (acquire_on fun _ h => h) fun _ => ?_
  refine Triple.bind (acquire_on fun _ h => h) fun _ => ?_
  refine Triple.bind (write_on (G := Stocked db₀ 0) fun db h => h.of_rows rfl rfl) fun _ => ?_
  refine Triple.bind (write_on (G := Stocked db₀ 0) fun db h => h.of_rows rfl rfl) fun _ => ?_
  refine Triple.bind (Triple.foldlM (I := fun _ _ => On (Stocked db₀ 0))
    fun _ item _ total_order_amount _ => ?_) fun total_order_amount => ?_
  · exact tx.orderItem_stocked district.d_next_o_id total_order_amount item
  rw [RowAccess.plain_updateWarehouse]
  refine Triple.bind (updateRow_on (G := fun _ => Stocked db₀ 0) ?_) fun _ => releaseAllLocks_on
  exact fun db row h _ _ => h.of_rows rfl rfl

theorem keptByPayment_stocked : KeptByPayment (Stocked db₀ 0) where
  warehouse _ _ _ _ h _ _ := h.of_rows rfl rfl
  district _ _ _ _ h _ _ := h.of_rows rfl rfl
  customer _ _ _ _ _ _ h _ _ := h.of_rows rfl rfl
  history _ _ h := h.of_rows rfl rfl

theorem keptByDelivery_stocked : KeptByDelivery (Stocked db₀ 0) where
  carrier _ _ _ _ h _ := h.of_rows rfl rfl
  date _ _ _ _ h hrow := h.of_rows rfl (total_of_columns _ _ (map_set_of_key hrow rfl))
  customers _ _ h _ := h.of_rows rfl rfl

theorem callStep_stocked (h : Stocked db₀ 0 db) (hst : callStep db c = some db') : Stocked db₀ 0 db' := by
  refine callStep_kept ?_ hst h
  cases c.tx with
  | newOrder tx => exact tx.execute_stocked
  | payment tx => exact tx.execute_keeps keptByPayment_stocked
  | orderStatus tx => exact tx.execute_keeps
  | delivery tx => exact TPCCDeliveryTransaction.execute_keeps keptByDelivery_stocked tx
  | stockLevel tx => exact tx.execute_keeps

/-- **Stocks in every run.** After every sequence of calls on the generated data, whatever the lock outcomes, the stock
of an item has been ordered some k times: its year-to-date quantity is 5k and its order count k, it holds between 10
and 109, off from what it was generated with by 5k and a number of hundreds, and it has at most k appended lines. -/
theorem stocks_of_reaches {w_id i_id : ℤ} (h : Reaches callStep (TPCCDataGenerator.fillTables draws n) db)
    (hw_id : w_id ∈ intRange 1 n) (hi_id : i_id ∈ intRange 1 100000) : ∃ k : ℕ,
    db.getStock i_id w_id = some ⟨i_id, w_id, 10 + (draws.s_quantity w_id i_id - 10 - 5 * k) % 100, 5 * k, k⟩ ∧
    ((db.taken - (TPCCDataGenerator.fillTables draws n).taken) (stockPosition i_id w_id)).2 ≤ k := by
  have hinv : Sized n db ∧ Stocked (TPCCDataGenerator.fillTables draws n) 0 db :=
    h.invariant (P := fun db => Sized n db ∧ Stocked (TPCCDataGenerator.fillTables draws n) 0 db)
      ⟨TPCCDataGenerator.sized_fillTables draws n, stocked_self _⟩
      fun _ _ _ hs _ hst => ⟨callStep_sized hs.1 hst, callStep_stocked hs.2 hst⟩
  obtain ⟨hsized, hstocked⟩ := hinv
  have hpos : 0 ≤ stockPosition i_id w_id ∧ stockPosition i_id w_id < db.stocks.length := by
    obtain ⟨hw1, hwn⟩ := mem_intRange.1 hw_id
    obtain ⟨hi1, hi2⟩ := mem_intRange.1 hi_id
    rw [hsized.stocks]
    unfold stockPosition
    omega
  obtain ⟨row, hrow⟩ := rowAt_isSome hpos.1 hpos.2
  obtain ⟨row₀, k, hrow₀, heq, hk⟩ := hstocked.rows _ row (rowAt_eq_some.1 hrow).2
  rw [Int.toNat_of_nonneg hpos.1, Pi.zero_apply, add_zero] at hk
  have hgenerated : row₀ = TPCCDataGenerator.newStock draws w_id i_id := Option.some.inj
    ((rowAt_eq_some.2 ⟨hpos.1, hrow₀⟩).symm.trans (TPCCDataGenerator.getStock_fillTables draws hw_id hi_id))
  have hquantity := draws.s_quantity_mem w_id i_id
  refine ⟨k, ?_, hk⟩
  rw [getStock, hrow, heq, hgenerated, orderStock_iterate]
  · simp only [TPCCDataGenerator.newStock, zero_add]
  · simp only [TPCCDataGenerator.newStock]
    omega

theorem stocks_of_reaches_orderOne : ∃ db,
    callStep (TPCCDataGenerator.fillTables .plain 1) (granted (orderItems [(1, 5)])) = some db ∧ ∃ k : ℕ,
    db.getStock 1 1 = some ⟨1, 1, 10 + (10 - 10 - 5 * k) % 100, 5 * k, k⟩ ∧
    ((db.taken - (TPCCDataGenerator.fillTables .plain 1).taken) (stockPosition 1 1)).2 ≤ k := by
  have hc := orderItems_succeeds [(1, 5)] (TPCCDataGenerator.sized_fillTables .plain 1) (by simp)
  obtain ⟨db, hst⟩ := callStep_of_succeeds hc
  have hreached : Reaches callStep (TPCCDataGenerator.fillTables .plain 1) db := .next .start trivial hst
  exact ⟨db, hst, stocks_of_reaches hreached (by simp) (by simp)⟩

end Tpcc

end HawkTxn
