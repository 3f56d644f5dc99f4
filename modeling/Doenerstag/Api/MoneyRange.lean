import Doenerstag.Api.MenuItems
import Doenerstag.Api.OrderItems
import Doenerstag.Api.SummaryTotals
import Doenerstag.Lib.Wrapped

/-!
# How much money an order can hold (`internal/model/order.go`, `internal/api/orders.go`, `summary.go`)

A price is checked from below and a price delta not at all, so that an amount of an order need not fit into
an `int64`.

* `OrderItem.exactTotal` — what a line comes to in the integers.
* `AmountsExact` — every amount of the order page and of the summary is the exact one.
* `amountsExact_iff` — **they are exactly when every exact amount fits.**
-/

namespace Doenerstag

open GroupFold Wrapped

/-! ## The exact amounts -/

/-- `quantity * (unit_price_cents + SUM(price_delta_cents))` -/
def OrderItem.exactTotal (i : OrderItem) : ℤ :=
  i.quantity.toInt * (i.unitPriceCents.toInt + (i.modifications.map fun m => m.priceDeltaCents.toInt).sum)

def exactTotal (items : List OrderItem) : ℤ := (items.map OrderItem.exactTotal).sum

/-- What the paid items come to. -/
def exactPaid (items : List OrderItem) : ℤ :=
  (items.map fun i => if i.paid then i.exactTotal else 0).sum

/-- What the other items come to. -/
def exactUnpaid (items : List OrderItem) : ℤ :=
  (items.map fun i => if i.paid then 0 else i.exactTotal).sum

/-- The delivery fee is added once. -/
def exactGrandTotal (order : Order) (items : List OrderItem) : ℤ :=
  exactTotal items + order.deliveryFeeCents.elim 0 Int64.toInt

section Amounts

variable (rt : Runtime) (order : Order) (items : List OrderItem) (externalIDs : UUID → Option String)
  (now : Time) (messageCount : Int64)

/-- Every amount that the page and the summary of an order show is the exact one. -/
structure AmountsExact : Prop where
  line : ∀ i ∈ items, i.lineTotalCents.toInt = i.exactTotal
  aggregated : ∃ keys : List AggregateKey, keys.Nodup ∧
    (keys.flatMap fun k => bucket (aggregateKey rt) k items).Perm items ∧
    List.Forall₂ (fun line k => line.totalCents.toInt = exactTotal (bucket (aggregateKey rt) k items))
      (buildSummary rt order items externalIDs).aggregated keys
  person : ∃ owners : List UUID, owners.Nodup ∧
    (owners.flatMap fun u => bucket OrderItem.userID u items).Perm items ∧
    List.Forall₂ (fun line u => line.userID = u.string ∧
        line.totalCents.toInt = exactUnpaid (bucket OrderItem.userID u items) ∧
        line.paidCents.toInt = exactPaid (bucket OrderItem.userID u items))
      (buildSummary rt order items externalIDs).perPerson owners
  itemTotal : (buildSummary rt order items externalIDs).itemTotalCents.toInt = exactTotal items ∧
    (detailBody rt now order items messageCount).itemTotalCents.toInt = exactTotal items
  paidTotal : (buildSummary rt order items externalIDs).paidTotalCents.toInt = exactPaid items ∧
    (detailBody rt now order items messageCount).paidTotalCents.toInt = exactPaid items
  unpaidTotal : (buildSummary rt order items externalIDs).unpaidTotalCents.toInt = exactUnpaid items ∧
    (detailBody rt now order items messageCount).unpaidTotalCents.toInt = exactUnpaid items
  grandTotal : (buildSummary rt order items externalIDs).grandTotalCents.toInt = exactGrandTotal order items ∧
    (detailBody rt now order items messageCount).grandTotalCents.toInt = exactGrandTotal order items

/-- Every exact amount fits into an `int64`: of a line, of the equal lines, of a person, and of the
whole. -/
structure AmountsFit : Prop where
  line : ∀ i ∈ items, Fits i.exactTotal
  alike : ∀ i ∈ items, Fits (exactTotal (bucket (aggregateKey rt) (aggregateKey rt i) items))
  person : ∀ i ∈ items, Fits (exactUnpaid (bucket OrderItem.userID i.userID items)) ∧
    Fits (exactPaid (bucket OrderItem.userID i.userID items))
  itemTotal : Fits (exactTotal items)
  paidTotal : Fits (exactPaid items)
  unpaidTotal : Fits (exactUnpaid items)
  grandTotal : Fits (exactGrandTotal order items)

end Amounts

/-! ## What the calculations hold -/

section Holds

variable {rt : Runtime} {order : Order} {items : List OrderItem} {externalIDs : UUID → Option String}

theorem holds_lineTotal (i : OrderItem) : Holds i.lineTotalCents i.exactTotal :=
  (holds_toInt i.quantity).mul
    (Holds.foldl (fun m : OrderItemModification => holds_toInt m.priceDeltaCents) i.modifications
      (holds_toInt i.unitPriceCents))

theorem holds_total (items : List OrderItem) :
    Holds (items.map OrderItem.lineTotalCents).sum (exactTotal items) :=
  Holds.sum holds_lineTotal items

theorem holds_paid (items : List OrderItem) : Holds (paidCents items) (exactPaid items) := by
  apply Holds.sum
  intro i
  split_ifs
  · exact holds_lineTotal i
  · exact holds_zero

theorem holds_unpaid (items : List OrderItem) : Holds (unpaidCents items) (exactUnpaid items) := by
  apply Holds.sum
  intro i
  split_ifs
  · exact holds_zero
  · exact holds_lineTotal i

/-- The fee is added where there is one. -/
theorem holds_grand {total : Int64} (htotal : Holds total (exactTotal items)) :
    Holds (order.deliveryFeeCents.elim total (total + ·)) (exactGrandTotal order items) := by
  unfold exactGrandTotal
  cases order.deliveryFeeCents with
  | none => simpa using htotal
  | some fee => exact htotal.add (holds_toInt fee)

/-! ## The grouped lines -/

/-- What is said of the one side of each pair is said of the whole list. -/
theorem forall_of_forall₂_right {α β : Type*} {P : β → Prop} {xs : List α} {ys : List β}
    (h : List.Forall₂ (fun _ y => P y) xs ys) : ∀ y ∈ ys, P y := by
  induction h with
  | nil => simp
  | cons hy _ ih => exact List.forall_mem_cons.mpr ⟨hy, ih⟩

/-- Each element is in the bucket of its own key. -/
theorem key_mem_of_partition {α κ : Type*} [DecidableEq κ] {key : α → κ} {keys : List κ} {xs : List α}
    (hperm : (keys.flatMap fun k => bucket key k xs).Perm xs) {x : α} (hx : x ∈ xs) : key x ∈ keys := by
  obtain ⟨k, hk, hmem⟩ := List.mem_flatMap.mp (hperm.mem_iff.mpr hx)
  rw [((mem_bucket key).mp hmem).2]
  exact hk

theorem PersonLine.take_totalCents (line : PersonLine) (i : OrderItem) :
    (line.take i).totalCents = line.totalCents + (if i.paid then 0 else i.lineTotalCents) := by
  unfold PersonLine.take
  cases i.paid <;> simp

theorem PersonLine.take_paidCents (line : PersonLine) (i : OrderItem) :
    (line.take i).paidCents = line.paidCents + (if i.paid then i.lineTotalCents else 0) := by
  unfold PersonLine.take
  cases i.paid <;> simp

/-- What the line of a person shows is what that person's items come to. -/
theorem perPerson_eachTotalled (rt : Runtime) (items : List OrderItem) :
    ∃ owners : List UUID, owners.Nodup ∧
      (owners.flatMap fun u => bucket OrderItem.userID u items).Perm items ∧
      List.Forall₂ (fun line u => bucket OrderItem.userID u items ≠ [] ∧ line.userID = u.string ∧
          line.totalCents = unpaidCents (bucket OrderItem.userID u items) ∧
          line.paidCents = paidCents (bucket OrderItem.userID u items))
        (perPerson rt items) owners := by
  obtain ⟨owners, hnodup, hperm, hlines⟩ := perPerson_summarised rt items
  refine ⟨owners, hnodup, hperm, hlines.imp fun line u hline => ?_⟩
  have hne := ne_nil_of_summarise hline
  refine ⟨hne, ?_, ?_, ?_⟩
  · obtain ⟨i, group, hgroup⟩ := List.exists_cons_of_ne_nil hne
    have howner : i.userID = u :=
      ((mem_bucket OrderItem.userID).1 (hgroup ▸ List.mem_cons_self)).2
    rw [hgroup] at hline
    rw [← Option.some.inj hline, (PersonLine.foldl_take (newPerson i) (i :: group)).1, ← howner]
    rfl
  · exact summarise_measure (f := PersonLine.totalCents) (fun _ => rfl) PersonLine.take_totalCents hline
  · exact summarise_measure (f := PersonLine.paidCents) (fun _ => rfl) PersonLine.take_paidCents hline

end Holds

/-! ## Exactness -/

section Exact

variable {rt : Runtime} {order : Order} {items : List OrderItem} {externalIDs : UUID → Option String}
  {now : Time} {messageCount : Int64}

/-- What the summary and the page show of the whole order -/
theorem shown_holds (rt : Runtime) (order : Order) (items : List OrderItem) (externalIDs : UUID → Option String)
    (now : Time) (messageCount : Int64) :
    (Holds (buildSummary rt order items externalIDs).itemTotalCents (exactTotal items) ∧
      Holds (detailBody rt now order items messageCount).itemTotalCents (exactTotal items)) ∧
    (Holds (buildSummary rt order items externalIDs).paidTotalCents (exactPaid items) ∧
      Holds (detailBody rt now order items messageCount).paidTotalCents (exactPaid items)) ∧
    (Holds (buildSummary rt order items externalIDs).unpaidTotalCents (exactUnpaid items) ∧
      Holds (detailBody rt now order items messageCount).unpaidTotalCents (exactUnpaid items)) ∧
    Holds (buildSummary rt order items externalIDs).grandTotalCents (exactGrandTotal order items) ∧
      Holds (detailBody rt now order items messageCount).grandTotalCents (exactGrandTotal order items) := by
  have hconserves := buildSummary_conserves rt order items externalIDs now messageCount
  have hitem : Holds (buildSummary rt order items externalIDs).itemTotalCents (exactTotal items) := by
    rw [hconserves.lines]
    exact holds_total items
  have hgrand : Holds (buildSummary rt order items externalIDs).grandTotalCents
      (exactGrandTotal order items) := by
    rw [buildSummary_grandTotalCents]
    exact holds_grand hitem
  have hpaid : Holds (detailBody rt now order items messageCount).paidTotalCents (exactPaid items) := by
    rw [detailBody_paidTotalCents]
    exact holds_paid items
  have hunpaid : Holds (detailBody rt now order items messageCount).unpaidTotalCents
      (exactUnpaid items) := by
    rw [detailBody_unpaidTotalCents]
    exact holds_unpaid items
  exact ⟨⟨hitem, hconserves.itemTotal ▸ hitem⟩, ⟨hconserves.paidTotal.symm ▸ hpaid, hpaid⟩,
    ⟨hconserves.unpaidTotal.symm ▸ hunpaid, hunpaid⟩, hgrand, hconserves.grandTotal ▸ hgrand⟩

/-- **Every amount of an order is the exact one if and only if every exact amount fits.** -/
theorem amountsExact_iff : AmountsExact rt order items externalIDs now messageCount ↔
    AmountsFit rt order items := by
  obtain ⟨hitem, hpaid, hunpaid, hgrand⟩ := shown_holds rt order items externalIDs now messageCount
  constructor
  · intro h
    constructor
    case line => exact fun i hi => (holds_lineTotal i).exact_iff.mp (h.line i hi)
    case alike =>
      obtain ⟨keys, -, hperm, hlines⟩ := h.aggregated
      have hfit := forall_of_forall₂_right (hlines.imp fun line k heq => heq ▸ fits_toInt line.totalCents)
      exact fun i hi => hfit _ (key_mem_of_partition hperm hi)
    case person =>
      obtain ⟨owners, -, hperm, hlines⟩ := h.person
      have hfit := forall_of_forall₂_right (P := fun u => Fits (exactUnpaid (bucket OrderItem.userID u items)) ∧
          Fits (exactPaid (bucket OrderItem.userID u items))) <| hlines.imp fun line u heq =>
        ⟨heq.2.1 ▸ fits_toInt line.totalCents, heq.2.2 ▸ fits_toInt line.paidCents⟩
      exact fun i hi => hfit _ (key_mem_of_partition hperm hi)
    case itemTotal => exact hitem.1.exact_iff.mp h.itemTotal.1
    case paidTotal => exact hpaid.1.exact_iff.mp h.paidTotal.1
    case unpaidTotal => exact hunpaid.1.exact_iff.mp h.unpaidTotal.1
    case grandTotal => exact hgrand.1.exact_iff.mp h.grandTotal.1
  · intro h
    constructor
    case line => exact fun i hi => (holds_lineTotal i).exact_iff.mpr (h.line i hi)
    case aggregated =>
      obtain ⟨keys, hnodup, hperm, hlines⟩ := aggregate_eachCountedOnce rt items externalIDs
      refine ⟨keys, hnodup, hperm, hlines.imp fun line k hline => ?_⟩
      -- a line stands for some item, whose bucket fits
      obtain ⟨hne, -, htotal⟩ := hline
      obtain ⟨i, hi⟩ := List.exists_mem_of_ne_nil _ hne
      obtain ⟨hi, hkey⟩ := (mem_bucket (aggregateKey rt)).mp hi
      rw [htotal]
      exact (holds_total _).exact_iff.mpr (hkey ▸ h.alike i hi)
    case person =>
      obtain ⟨owners, hnodup, hperm, hlines⟩ := perPerson_eachTotalled rt items
      refine ⟨owners, hnodup, hperm, hlines.imp fun line u hline => ?_⟩
      obtain ⟨hne, huser, hopen, hsettled⟩ := hline
      obtain ⟨i, hi⟩ := List.exists_mem_of_ne_nil _ hne
      obtain ⟨hi, hkey⟩ := (mem_bucket OrderItem.userID).mp hi
      obtain ⟨hfitOpen, hfitSettled⟩ := h.person i hi
      rw [hkey] at hfitOpen hfitSettled
      refine ⟨huser, ?_, ?_⟩
      · rw [hopen]
        exact (holds_unpaid _).exact_iff.mpr hfitOpen
      · rw [hsettled]
        exact (holds_paid _).exact_iff.mpr hfitSettled
    case itemTotal => exact ⟨hitem.1.exact_iff.mpr h.itemTotal, hitem.2.exact_iff.mpr h.itemTotal⟩
    case paidTotal => exact ⟨hpaid.1.exact_iff.mpr h.paidTotal, hpaid.2.exact_iff.mpr h.paidTotal⟩
    case unpaidTotal =>
      exact ⟨hunpaid.1.exact_iff.mpr h.unpaidTotal, hunpaid.2.exact_iff.mpr h.unpaidTotal⟩
    case grandTotal => exact ⟨hgrand.1.exact_iff.mpr h.grandTotal, hgrand.2.exact_iff.mpr h.grandTotal⟩

end Exact

/-! ## Two of the dearest dish -/

namespace Dearest

/-- The dearest price that the menu accepts, 92 233 720 368 547 758.07 -/
def dearestPrice : Int64 := 9223372036854775807

/-- Two of it, and the line comes to minus two cents. -/
def twoDearest : OrderItem :=
  { id := ⟨7⟩, orderID := ⟨6⟩, userID := ⟨1⟩, userName := "anna", menuItemID := ⟨4⟩, quantity := 2
    itemName := "Kebab", unitPriceCents := dearestPrice, note := "", modifications := [], paid := false
    createdAt := 0, updatedAt := 0 }

def pickupOrder : Order :=
  { id := ⟨6⟩, creatorID := ⟨1⟩, creatorName := "anna", restaurantID := ⟨2⟩, restaurantName := "Bistro"
    restaurantLogo := none, fulfilment := fulfilmentPickup, fulfilmentAt := 2000000000
    deadlineAt := 1000000000, moneyCollectorID := none, moneyCollectorName := "", pickupPersonID := none
    pickupPersonName := "", moneyCollectorDrawn := false, pickupPersonDrawn := false
    currencyCode := "EUR", minOrderValueCents := none, deliveryFeeCents := none, itemCount := 1
    createdAt := 0, updatedAt := 0 }

end Dearest

open Dearest

/-- What the API lets into an order: a price that is not negative, and 1 to 99 of the dish. A price delta
is not looked at. -/
def OrderItem.Accepted (i : OrderItem) : Prop :=
  validateQuantity i.quantity = .ok () ∧ validatePrice i.unitPriceCents = .ok ()

/-- Of the items that the API accepts, two of the dearest dish come to minus two cents. -/
theorem lineTotal_wraps : ¬ ∀ (rt : Runtime) (order : Order) (items : List OrderItem)
    (externalIDs : UUID → Option String) (now : Time) (messageCount : Int64),
    (∀ i ∈ items, i.Accepted) → AmountsExact rt order items externalIDs now messageCount := by
  intro hall
  have haccepted : ∀ i ∈ [twoDearest], i.Accepted := by
    intro i hi
    rw [List.mem_singleton.mp hi]
    exact ⟨by decide, by decide⟩
  have hexact := hall .ascii pickupOrder [twoDearest] (fun _ => none) 0 0 haccepted
  have hline : twoDearest.lineTotalCents.toInt = -2 := by decide
  have htotal : twoDearest.exactTotal = 18446744073709551614 := by decide
  have hsame := hexact.line twoDearest List.mem_cons_self
  rw [hline, htotal] at hsame
  exact absurd hsame (by decide)

end Doenerstag
