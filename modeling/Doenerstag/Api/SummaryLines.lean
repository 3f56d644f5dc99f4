import Doenerstag.Api.SummaryTotals
import Mathlib.Data.List.Sort

/-!
# The price of an aggregated line (`internal/api/summary.go`)

`aggregate` puts items on one line by their dish, the names of their modifications, their note and their
unit price. What a modification costs is no part of that.

* `join_names_inj` — the joined names are those of the modifications: no two lists are joined to one.
* `aggregate_multipliesOut_iff` — **a line can be multiplied out if and only if its modifications were
  all taken at one price.**
-/

namespace Doenerstag

open GroupFold

/-- What the schema admits of the modifications of an item -/
structure OrderItem.Stored (item : OrderItem) : Prop where
  /-- `order_item_modification_name_length` -/
  names : ∀ m ∈ item.modifications, 1 ≤ m.name.length ∧ m.name.length ≤ 200
  /-- `text` holds no zero byte. -/
  zero : ∀ m ∈ item.modifications, '\x00' ∉ m.name.toList

/-- The unit price and every price delta -/
def OrderItem.portionCents (item : OrderItem) : Int64 :=
  item.unitPriceCents + (item.modifications.map OrderItemModification.priceDeltaCents).sum

theorem lineTotalCents_eq (item : OrderItem) :
    item.lineTotalCents = item.quantity * item.portionCents :=
  lineTotalCents_sum item

section Aggregate

variable (rt : Runtime) (items : List OrderItem) (externalIDs : UUID → Option String)

/-- **Every line can be multiplied out.** The items on it come to the same a portion, and it comes to
its count times that. -/
def MultipliesOut (lines : List AggregatedLine) : Prop :=
  ∃ keys : List AggregateKey, keys.Nodup ∧
    (keys.flatMap fun k => bucket (aggregateKey rt) k items).Perm items ∧
    List.Forall₂ (fun line k => ∀ i ∈ bucket (aggregateKey rt) k items,
      (∀ j ∈ bucket (aggregateKey rt) k items, i.portionCents = j.portionCents) ∧
        line.totalCents = line.count * i.portionCents) lines keys

/-- No modifications of one name were taken at different prices, as far as their sums show. -/
def OnePriceEach : Prop :=
  ∀ i ∈ items, ∀ j ∈ items, i.menuItemID = j.menuItemID → i.unitPriceCents = j.unitPriceCents →
    normaliseNote rt i.note = normaliseNote rt j.note → modificationNames i = modificationNames j →
    (i.modifications.map OrderItemModification.priceDeltaCents).sum =
      (j.modifications.map OrderItemModification.priceDeltaCents).sum

end Aggregate

/-! ## The joined names -/

theorem join_toList (names : List String) :
    (join names "\x00").toList = ['\x00'].intercalate (names.map String.toList) :=
  String.toList_intercalate

/-- What is joined can be taken apart again. -/
theorem join_names_inj {a b : List String} (ha : ∀ name ∈ a, name ≠ "" ∧ '\x00' ∉ name.toList)
    (hb : ∀ name ∈ b, name ≠ "" ∧ '\x00' ∉ name.toList) (h : join a "\x00" = join b "\x00") : a = b := by
  -- a joined list has the empty one's text only if it is empty
  have hsplit : ∀ names : List String, (∀ name ∈ names, name ≠ "" ∧ '\x00' ∉ name.toList) →
      (join names "\x00").toList.splitOn '\x00' =
        if names = [] then [[]] else names.map String.toList := by
    intro names hnames
    rw [join_toList]
    split_ifs with hempty
    · rw [hempty]
      rfl
    · refine List.splitOn_intercalate '\x00' ?_ fun hnil => hempty (List.map_eq_nil_iff.mp hnil)
      intro l hl
      obtain ⟨name, hname, rfl⟩ := List.mem_map.mp hl
      exact (hnames name hname).2
  have hone : ∀ names : List String, (∀ name ∈ names, name ≠ "" ∧ '\x00' ∉ name.toList) →
      names.map String.toList ≠ [[]] := by
    intro names hnames hmap
    have hmem : [] ∈ names.map String.toList := by
      rw [hmap]
      exact List.mem_cons_self
    obtain ⟨name, hname, hnil⟩ := List.mem_map.mp hmem
    exact (hnames name hname).1 (String.toList_eq_nil_iff.mp hnil)
  have hboth := hsplit a ha
  rw [h, hsplit b hb] at hboth
  split_ifs at hboth with hbnil hanil hanil
  · rw [hanil, hbnil]
  · exact absurd hboth.symm (hone a ha)
  · exact absurd hboth (hone b hb)
  · exact List.map_injective_iff.mpr (fun _ _ => String.toList_injective) hboth.symm

theorem mem_modificationNames {item : OrderItem} (hstored : item.Stored) :
    ∀ name ∈ modificationNames item, name ≠ "" ∧ '\x00' ∉ name.toList := by
  intro name hname
  obtain ⟨m, hm, rfl⟩ := List.mem_map.mp ((List.mem_insertionSort _).mp hname)
  refine ⟨fun hempty => ?_, hstored.zero m hm⟩
  have hlength := (hstored.names m hm).1
  rw [hempty] at hlength
  cases hlength

/-- **What the key has of an item** -/
theorem aggregateKey_eq_iff {rt : Runtime} {i j : OrderItem} (hi : i.Stored) (hj : j.Stored) :
    aggregateKey rt i = aggregateKey rt j ↔
      i.menuItemID = j.menuItemID ∧ modificationNames i = modificationNames j ∧
        normaliseNote rt i.note = normaliseNote rt j.note ∧ i.unitPriceCents = j.unitPriceCents := by
  unfold aggregateKey
  constructor
  · intro h
    obtain ⟨hdish, hnames, hnote, hprice⟩ := AggregateKey.mk.inj h
    exact ⟨hdish, join_names_inj (mem_modificationNames hi) (mem_modificationNames hj) hnames, hnote,
      hprice⟩
  · rintro ⟨hdish, hnames, hnote, hprice⟩
    rw [hdish, hnames, hnote, hprice]

/-! ## The lines -/

variable {rt : Runtime} {items : List OrderItem} {externalIDs : UUID → Option String}

theorem portionCents_eq_iff {i j : OrderItem} (hprice : i.unitPriceCents = j.unitPriceCents) :
    i.portionCents = j.portionCents ↔
      (i.modifications.map OrderItemModification.priceDeltaCents).sum =
        (j.modifications.map OrderItemModification.priceDeltaCents).sum := by
  unfold OrderItem.portionCents
  rw [hprice]
  exact Int64.add_right_inj _

theorem exists_of_forall₂ {α β : Type*} {R : α → β → Prop} {as : List α} {bs : List β}
    (h : List.Forall₂ R as bs) {b : β} (hb : b ∈ bs) : ∃ a, R a b := by
  induction h with
  | nil => cases hb
  | cons hhead _ ih =>
    rcases List.mem_cons.mp hb with rfl | hb
    · exact ⟨_, hhead⟩
    · exact ih hb

/-- A line whose items come to the same a portion -/
theorem sum_lineTotalCents {group : List OrderItem} {price : Int64}
    (h : ∀ i ∈ group, i.portionCents = price) :
    (group.map OrderItem.lineTotalCents).sum = (group.map OrderItem.quantity).sum * price := by
  induction group with
  | nil => exact (Int64.zero_mul).symm
  | cons i group ih =>
    rw [List.map_cons, List.sum_cons, List.map_cons, List.sum_cons, Int64.add_mul,
      ih fun j hj => h j (List.mem_cons_of_mem _ hj), lineTotalCents_eq i, h i List.mem_cons_self]

theorem MultipliesOut.onePriceEach (hstored : ∀ i ∈ items, i.Stored)
    (h : MultipliesOut rt items (aggregate rt items externalIDs)) : OnePriceEach rt items := by
  obtain ⟨keys, -, hperm, hlines⟩ := h
  intro i hi j hj hdish hprice hnote hnames
  have hkey : aggregateKey rt i = aggregateKey rt j :=
    (aggregateKey_eq_iff (hstored i hi) (hstored j hj)).mpr ⟨hdish, hnames, hnote, hprice⟩
  obtain ⟨k, hk, hgroup⟩ := List.mem_flatMap.mp (hperm.mem_iff.mpr hi)
  have hik : aggregateKey rt i = k := ((mem_bucket _).mp hgroup).2
  have hother : j ∈ bucket (aggregateKey rt) k items :=
    (mem_bucket _).mpr ⟨hj, hkey.symm.trans hik⟩
  obtain ⟨line, hline⟩ := exists_of_forall₂ hlines hk
  exact (portionCents_eq_iff hprice).mp ((hline i hgroup).1 j hother)

/-- **An aggregated line can be multiplied out if and only if what was taken under one name was taken
at one price.** -/
theorem aggregate_multipliesOut_iff (hstored : ∀ i ∈ items, i.Stored) :
    MultipliesOut rt items (aggregate rt items externalIDs) ↔ OnePriceEach rt items := by
  refine ⟨MultipliesOut.onePriceEach hstored, fun hone => ?_⟩
  obtain ⟨keys, hnodup, hperm, hlines⟩ := aggregate_eachCountedOnce rt items externalIDs
  refine ⟨keys, hnodup, hperm, hlines.imp fun line k hline i hi => ?_⟩
  obtain ⟨-, hcount, htotal⟩ := hline
  have hsame : ∀ j ∈ bucket (aggregateKey rt) k items, i.portionCents = j.portionCents := by
    intro j hj
    obtain ⟨himem, hik⟩ := (mem_bucket _).mp hi
    obtain ⟨hjmem, hjk⟩ := (mem_bucket _).mp hj
    obtain ⟨hdish, hnames, hnote, hprice⟩ :=
      (aggregateKey_eq_iff (hstored i himem) (hstored j hjmem)).mp (hik.trans hjk.symm)
    exact (portionCents_eq_iff hprice).mpr (hone i himem j hjmem hdish hprice hnote hnames)
  refine ⟨hsame, ?_⟩
  rw [htotal, hcount]
  exact sum_lineTotalCents fun j hj => (hsame j hj).symm

/-! ## A modification that became dearer -/

namespace CheeseAt

/-- A kebab with cheese, at what the cheese costs when it is ordered. -/
def kebab (n : Nat) (cents : Int64) : OrderItem :=
  { id := ⟨n⟩, orderID := ⟨1⟩, userID := ⟨n⟩, userName := "", menuItemID := ⟨2⟩, quantity := 1
    itemName := "Döner", unitPriceCents := 700, note := "", paid := false, createdAt := 0, updatedAt := 0
    modifications := [⟨⟨10 + n⟩, ⟨n⟩, some ⟨3⟩, "Käse", cents⟩] }

theorem stored_kebab (n : Nat) (cents : Int64) : (kebab n cents).Stored where
  names := by
    intro m hm
    rw [List.mem_singleton.mp hm]
    show 1 ≤ "Käse".length ∧ "Käse".length ≤ 200
    decide
  zero := by
    intro m hm
    rw [List.mem_singleton.mp hm]
    show '\x00' ∉ "Käse".toList
    decide

end CheeseAt

open CheeseAt

theorem aggregate_multipliesOut_kebabs :
    MultipliesOut .ascii [kebab 4 50, kebab 5 50]
        (aggregate .ascii [kebab 4 50, kebab 5 50] fun _ => none) ↔
      OnePriceEach .ascii [kebab 4 50, kebab 5 50] :=
  aggregate_multipliesOut_iff (by
    simp only [List.forall_mem_cons]
    exact ⟨stored_kebab _ _, stored_kebab _ _, (fun _ h => by cases h)⟩)

/-- One line has a kebab at 7.50 and one at 7.80. -/
theorem aggregate_mixes : ¬ ∀ (rt : Runtime) (items : List OrderItem) (externalIDs : UUID → Option String),
    (∀ i ∈ items, i.Stored) → MultipliesOut rt items (aggregate rt items externalIDs) := by
  intro hall
  have hstored : ∀ i ∈ [kebab 4 50, kebab 5 80], i.Stored := by
    simp only [List.forall_mem_cons]
    exact ⟨stored_kebab _ _, stored_kebab _ _, (fun _ h => by cases h)⟩
  have hone := (hall .ascii [kebab 4 50, kebab 5 80] (fun _ => none) hstored).onePriceEach hstored
  have hsame := hone (kebab 4 50) List.mem_cons_self (kebab 5 80)
    (List.mem_cons_of_mem _ List.mem_cons_self) rfl rfl rfl rfl
  exact absurd hsame (by decide)

end Doenerstag
