import Doenerstag.Api.Summary
import Mathlib.Data.List.Forall2

/-!
# Money conservation of the summary

The four loops of a summary and of the order page account for the same items. Each is a fold that
an item adds its share to, so each total is the sum of the shares (`GroupFold.collect_sum` for the
two groupings, `GroupFold.foldl_extend_measure` for the plain loops); the two stable sorts only
permute lines.
-/

namespace Doenerstag

open GroupFold

variable (rt : Runtime) (order : Order) (items : List OrderItem)
  (externalIDs : UUID → Option String)

/-- What the paid items come to. -/
def paidCents : Int64 :=
  (items.map fun i => if i.paid then i.lineTotalCents else 0).sum

/-- What the other items come to. -/
def unpaidCents : Int64 :=
  (items.map fun i => if i.paid then 0 else i.lineTotalCents).sum

theorem paidCents_add_unpaidCents :
    paidCents items + unpaidCents items = (items.map OrderItem.lineTotalCents).sum := by
  induction items with
  | nil => rfl
  | cons i items ih =>
    simp only [paidCents, unpaidCents, List.map_cons, List.sum_cons] at ih ⊢
    rw [← ih]
    cases i.paid
    · simp only [Bool.false_eq_true, if_false, zero_add, add_left_comm]
    · simp only [if_true, zero_add, add_assoc]

/-! ## The two groupings -/

theorem aggregate_perm : (aggregate rt items externalIDs).Perm
    (groupFold (aggregateKey rt) (newLine externalIDs) AggregatedLine.take items).collect :=
  sliceStable_perm _ _

theorem perPerson_perm : (perPerson rt items).Perm
    (groupFold OrderItem.userID newPerson PersonLine.take items).collect :=
  sliceStable_perm _ _

theorem aggregate_totalCents :
    ((aggregate rt items externalIDs).map AggregatedLine.totalCents).sum =
      (items.map OrderItem.lineTotalCents).sum := by
  rw [((aggregate_perm rt items externalIDs).map _).sum_eq]
  exact collect_sum (f := AggregatedLine.totalCents) (fun _ => rfl) (fun _ _ => rfl) items

theorem aggregate_count :
    ((aggregate rt items externalIDs).map AggregatedLine.count).sum =
      (items.map OrderItem.quantity).sum := by
  rw [((aggregate_perm rt items externalIDs).map _).sum_eq]
  exact collect_sum (f := AggregatedLine.count) (fun _ => rfl) (fun _ _ => rfl) items

/-- An item raises what its owner's line comes to, paid or not, by its line total. -/
theorem PersonLine.take_total (line : PersonLine) (item : OrderItem) :
    (line.take item).totalCents + (line.take item).paidCents =
      line.totalCents + line.paidCents + item.lineTotalCents := by
  unfold PersonLine.take
  cases item.paid
  · simp only [Bool.false_eq_true, if_false, add_right_comm]
  · simp only [if_true, add_assoc]

theorem perPerson_totals :
    ((perPerson rt items).map fun line => line.totalCents + line.paidCents).sum =
      (items.map OrderItem.lineTotalCents).sum := by
  rw [((perPerson_perm rt items).map _).sum_eq]
  exact collect_sum (f := fun line : PersonLine => line.totalCents + line.paidCents)
    (fun _ => rfl) PersonLine.take_total items

/-- **Every item is counted in exactly one aggregated line, and no line is empty.** There is a
duplicate-free list of keys, parallel to the lines, whose groups make up the items; a line counts
the quantities and the line totals of its group. -/
def EachCountedOnce (lines : List AggregatedLine) : Prop :=
  ∃ keys : List AggregateKey, keys.Nodup ∧
    (keys.flatMap fun k => bucket (aggregateKey rt) k items).Perm items ∧
    List.Forall₂ (fun line k =>
      let group := bucket (aggregateKey rt) k items
      group ≠ [] ∧ line.count = (group.map OrderItem.quantity).sum ∧
        line.totalCents = (group.map OrderItem.lineTotalCents).sum) lines keys

/-- **Every item is listed in exactly one per-person line, its owner's, and no line is empty.** -/
def EachListedOnce (lines : List PersonLine) : Prop :=
  ∃ owners : List UUID, owners.Nodup ∧
    (owners.flatMap fun u => bucket OrderItem.userID u items).Perm items ∧
    List.Forall₂ (fun line u =>
      let group := bucket OrderItem.userID u items
      group ≠ [] ∧ line.userID = u.string ∧ line.items = group.map publicOrderItem) lines owners

theorem ne_nil_of_summarise {α β : Type*} {create : α → β} {extend : β → α → β} {xs : List α}
    {line : β} (h : summarise create extend xs = some line) : xs ≠ [] := by
  rintro rfl
  simp [summarise] at h

theorem aggregate_eachCountedOnce :
    EachCountedOnce rt items (aggregate rt items externalIDs) := by
  set groups := groupFold (aggregateKey rt) (newLine externalIDs) AggregatedLine.take items
  have hlines : List.Forall₂ (fun line k =>
      summarise (newLine externalIDs) AggregatedLine.take (bucket (aggregateKey rt) k items) =
        some line) groups.collect groups.order :=
    collect_forall₂ _ _ _ items
  -- the sort permutes the lines; the keys follow them
  obtain ⟨keys, hsorted, hkeys⟩ :=
    List.perm_comp_forall₂ (aggregate_perm rt items externalIDs) hlines
  refine ⟨keys, hkeys.nodup_iff.2 (order_nodup _ _ _ items), ?_, hsorted.imp ?_⟩
  · exact (hkeys.flatMap_right _).trans (groupFold_partition _ _ _ items)
  · intro line k hline
    exact ⟨ne_nil_of_summarise hline,
      summarise_measure (f := AggregatedLine.count) (fun _ => rfl) (fun _ _ => rfl) hline,
      summarise_measure (f := AggregatedLine.totalCents) (fun _ => rfl) (fun _ _ => rfl) hline⟩

theorem PersonLine.take_userID (line : PersonLine) (item : OrderItem) :
    (line.take item).userID = line.userID := by
  unfold PersonLine.take
  cases item.paid <;> rfl

theorem PersonLine.take_items (line : PersonLine) (item : OrderItem) :
    (line.take item).items = line.items ++ [publicOrderItem item] := by
  unfold PersonLine.take
  cases item.paid <;> rfl

theorem PersonLine.foldl_take (line : PersonLine) (group : List OrderItem) :
    (group.foldl PersonLine.take line).userID = line.userID ∧
      (group.foldl PersonLine.take line).items = line.items ++ group.map publicOrderItem := by
  induction group generalizing line with
  | nil => simp
  | cons i group ih =>
    rw [List.foldl_cons]
    obtain ⟨huser, hitems⟩ := ih (line.take i)
    exact ⟨huser.trans (line.take_userID i), by rw [hitems, line.take_items i]; simp⟩

/-- Each line is what the items of one person come to. -/
theorem perPerson_summarised : ∃ owners : List UUID, owners.Nodup ∧
    (owners.flatMap fun u => bucket OrderItem.userID u items).Perm items ∧
    List.Forall₂ (fun line u => summarise newPerson PersonLine.take (bucket OrderItem.userID u items) = some line)
      (perPerson rt items) owners := by
  set groups := groupFold OrderItem.userID newPerson PersonLine.take items
  have hlines : List.Forall₂ (fun line u =>
      summarise newPerson PersonLine.take (bucket OrderItem.userID u items) = some line)
      groups.collect groups.order :=
    collect_forall₂ _ _ _ items
  obtain ⟨owners, hsorted, howners⟩ := List.perm_comp_forall₂ (perPerson_perm rt items) hlines
  refine ⟨owners, howners.nodup_iff.2 (order_nodup _ _ _ items), ?_, hsorted⟩
  exact (howners.flatMap_right _).trans (groupFold_partition _ _ _ items)

theorem perPerson_eachListedOnce : EachListedOnce items (perPerson rt items) := by
  obtain ⟨owners, hnodup, hperm, hlines⟩ := perPerson_summarised rt items
  refine ⟨owners, hnodup, hperm, hlines.imp fun line u hline => ?_⟩
  refine ⟨ne_nil_of_summarise hline, ?_⟩
  cases hgroup : bucket OrderItem.userID u items with
  | nil => exact absurd hgroup (ne_nil_of_summarise hline)
  | cons i group =>
    have howner : i.userID = u :=
      ((mem_bucket OrderItem.userID).1 (hgroup ▸ List.mem_cons_self)).2
    rw [hgroup] at hline
    obtain ⟨huser, hitems⟩ := PersonLine.foldl_take (newPerson i) (i :: group)
    rw [← Option.some.inj hline]
    exact ⟨by rw [huser, ← howner]; rfl, by rw [hitems]; rfl⟩

/-! ## The plain loops -/

theorem buildSummary_itemTotalCents :
    (buildSummary rt order items externalIDs).itemTotalCents =
      (items.map OrderItem.lineTotalCents).sum := by
  rw [← aggregate_totalCents rt items externalIDs]
  exact (foldl_extend_measure (f := id) (fun _ _ => rfl) _ 0).trans (zero_add _)

theorem paidSplit_eq : paidSplit items = (paidCents items, unpaidCents items) := by
  have hpaid : (paidSplit items).1 = 0 + paidCents items := by
    refine foldl_extend_measure (f := Prod.fst) (fun split i => ?_) items (0, 0)
    cases i.paid <;> simp
  have hunpaid : (paidSplit items).2 = 0 + unpaidCents items := by
    refine foldl_extend_measure (f := Prod.snd) (fun split i => ?_) items (0, 0)
    cases i.paid <;> simp
  rw [zero_add] at hpaid hunpaid
  exact Prod.ext hpaid hunpaid

theorem addItem_totals (body : OrderDetailBody) (i : OrderItem) :
    (body.addItem i).itemTotalCents = body.itemTotalCents + i.lineTotalCents ∧
      (body.addItem i).paidTotalCents =
        body.paidTotalCents + (if i.paid then i.lineTotalCents else 0) ∧
      (body.addItem i).unpaidTotalCents =
        body.unpaidTotalCents + (if i.paid then 0 else i.lineTotalCents) := by
  unfold OrderDetailBody.addItem
  cases hpaid : i.paid <;> simp [publicOrderItem, hpaid]

variable (now : Time) (messageCount : Int64)

theorem detailBody_itemTotalCents :
    (detailBody rt now order items messageCount).itemTotalCents =
      (items.map OrderItem.lineTotalCents).sum :=
  (foldl_extend_measure (fun body i => (addItem_totals body i).1) items _).trans (zero_add _)

theorem detailBody_paidTotalCents :
    (detailBody rt now order items messageCount).paidTotalCents = paidCents items :=
  (foldl_extend_measure (fun body i => (addItem_totals body i).2.1) items _).trans (zero_add _)

theorem detailBody_unpaidTotalCents :
    (detailBody rt now order items messageCount).unpaidTotalCents = unpaidCents items :=
  (foldl_extend_measure (fun body i => (addItem_totals body i).2.2) items _).trans (zero_add _)

theorem buildSummary_grandTotalCents :
    (buildSummary rt order items externalIDs).grandTotalCents =
      order.deliveryFeeCents.elim (buildSummary rt order items externalIDs).itemTotalCents
        ((buildSummary rt order items externalIDs).itemTotalCents + ·) := by
  simp only [buildSummary]
  cases order.deliveryFeeCents <;> rfl

theorem buildSummary_belowMinimum :
    (buildSummary rt order items externalIDs).belowMinimum =
      order.minOrderValueCents.elim false
        (decide <| (buildSummary rt order items externalIDs).itemTotalCents < ·) := by
  simp only [buildSummary]
  cases order.minOrderValueCents <;> rfl

theorem detailBody_grandTotalCents :
    (detailBody rt now order items messageCount).grandTotalCents =
      order.deliveryFeeCents.elim (detailBody rt now order items messageCount).itemTotalCents
        ((detailBody rt now order items messageCount).itemTotalCents + ·) := by
  simp only [detailBody]
  cases order.deliveryFeeCents <;> rfl

theorem detailBody_belowMinimum :
    (detailBody rt now order items messageCount).belowMinimum =
      order.minOrderValueCents.elim false
        (decide <| (detailBody rt now order items messageCount).itemTotalCents < ·) := by
  simp only [detailBody]
  cases order.minOrderValueCents <;> rfl

/-! ## The law -/

/-- A summary accounts for the items, and agrees with the order page on what they come to. Amounts
are `int64` values, so all sums are taken modulo 2⁶⁴. -/
structure SummaryBody.Conserves (items : List OrderItem) (body : SummaryBody)
    (page : OrderDetailBody) : Prop where
  aggregated : (body.aggregated.map AggregatedLine.totalCents).sum = body.itemTotalCents
  paidAndUnpaid : body.itemTotalCents = body.paidTotalCents + body.unpaidTotalCents
  lines : body.itemTotalCents = (items.map OrderItem.lineTotalCents).sum
  people : body.itemTotalCents =
    (body.perPerson.map fun line => line.totalCents + line.paidCents).sum
  counts : (body.aggregated.map AggregatedLine.count).sum = (items.map OrderItem.quantity).sum
  countedOnce : EachCountedOnce rt items body.aggregated
  listedOnce : EachListedOnce items body.perPerson
  itemTotal : body.itemTotalCents = page.itemTotalCents
  grandTotal : body.grandTotalCents = page.grandTotalCents
  paidTotal : body.paidTotalCents = page.paidTotalCents
  unpaidTotal : body.unpaidTotalCents = page.unpaidTotalCents
  belowMinimum : body.belowMinimum = page.belowMinimum

/-- **Money conservation of the order summary.** Whatever the order and its items are, the
aggregated lines, the per-person lines, the paid and unpaid totals and the order page all come to
what the items come to, and each item is counted in one aggregated line and listed in one
per-person line. -/
theorem buildSummary_conserves :
    (buildSummary rt order items externalIDs).Conserves rt items
      (detailBody rt now order items messageCount) := by
  set body := buildSummary rt order items externalIDs
  set page := detailBody rt now order items messageCount
  have hitems : body.itemTotalCents = (items.map OrderItem.lineTotalCents).sum :=
    buildSummary_itemTotalCents rt order items externalIDs
  have hpaid : body.paidTotalCents = paidCents items := congrArg Prod.fst (paidSplit_eq items)
  have hunpaid : body.unpaidTotalCents = unpaidCents items :=
    congrArg Prod.snd (paidSplit_eq items)
  have hpage : body.itemTotalCents = page.itemTotalCents :=
    hitems.trans (detailBody_itemTotalCents rt order items now messageCount).symm
  -- the fee and the minimum are added to, and compared with, the same item total on both sides
  have hgrand : body.grandTotalCents =
      order.deliveryFeeCents.elim body.itemTotalCents (body.itemTotalCents + ·) :=
    buildSummary_grandTotalCents rt order items externalIDs
  have hbelow : body.belowMinimum =
      order.minOrderValueCents.elim false (decide <| body.itemTotalCents < ·) :=
    buildSummary_belowMinimum rt order items externalIDs
  constructor
  case aggregated => exact (aggregate_totalCents rt items externalIDs).trans hitems.symm
  case paidAndUnpaid => rw [hitems, hpaid, hunpaid, paidCents_add_unpaidCents]
  case lines => exact hitems
  case people => exact hitems.trans (perPerson_totals rt items).symm
  case counts => exact aggregate_count rt items externalIDs
  case countedOnce => exact aggregate_eachCountedOnce rt items externalIDs
  case listedOnce => exact perPerson_eachListedOnce rt items
  case itemTotal => exact hpage
  case grandTotal => rw [hgrand, hpage, detailBody_grandTotalCents]
  case paidTotal => exact hpaid.trans (detailBody_paidTotalCents rt order items now messageCount).symm
  case unpaidTotal =>
    exact hunpaid.trans (detailBody_unpaidTotalCents rt order items now messageCount).symm
  case belowMinimum => rw [hbelow, hpage, detailBody_belowMinimum]

end Doenerstag
