import Doenerstag.Api.Categories
import Doenerstag.Lib.SortKeys

/-!
# Moving a category (`frontend/src/pages/menu.ts`)

A category is moved up or down by two requests: it gets the sort order of its neighbour, and the neighbour
gets its own. The list goes by sort order and then by name, so that this moves it by one only if nobody else
has one of the two sort orders and is in between by name, and not at all if they are the same.

* `move` — the two requests.
* `MovesByOne` — what they are to do.
* `Exchangeable` — the sort orders differ, and no name is in between.
* `move_exchanges_iff` — **a category is moved by one if and only if its place and that of its neighbour can be
  exchanged in this way.**
-/

namespace Doenerstag

open ReadCommitted Prog SortKeys Reordering

/-! ## The page -/

/-- `-1 | 1` -/
inductive Direction where
  | up
  | down
  deriving DecidableEq, Repr

/-- `categories[index + direction]` -/
def neighbour {α : Type} (categories : List α) (index : ℕ) : Direction → Option α
  | .up => if index = 0 then none else categories[index - 1]?
  | .down => categories[index + 1]?

/-- The category of a request, and the sort order that it is to get -/
structure CategoryPatch where
  cid : String
  sortOrder : Int64
  deriving DecidableEq, Repr

/-- The request for the category, and the one for the other. -/
def move (categories : List CategoryBody) (index : ℕ) (direction : Direction) :
    Option (CategoryPatch × CategoryPatch) := do
  let category ← categories[index]?
  let other ← neighbour categories index direction
  return ({ cid := category.id, sortOrder := other.sortOrder }, { cid := other.id, sortOrder := category.sortOrder })

def CategoryPatch.request (patch : CategoryPatch) (restaurant : String) (principal : Option Principal) :
    MenuRequest MenuHandlers.PatchCategoryRequest :=
  { id := restaurant, mid := "", principal, body := .ok { name := none, sortOrder := some patch.sortOrder } }

/-- `Promise.all`: both requests at their start, the one for the category itself being `true`. -/
def moving (h : MenuHandlers) (restaurant : String) (principal : Option Principal)
    (patches : CategoryPatch × CategoryPatch) (w : World Db Time) :
    Config Bool PatchCategoryStmt Outcome (World Db Time) ApiError CategoryBody :=
  arrivedReorderings h (fun own => (cond own patches.1 patches.2).cid)
    (fun own => (cond own patches.1 patches.2).request restaurant principal) w

/-! ## What a move is to do -/

/-- The list with two neighbours exchanged, the upper one being in that place. -/
def exchangeAt {α : Type} (place : ℕ) (xs : List α) : List α :=
  xs.take place ++ ((xs.drop place).take 2).reverse ++ xs.drop (place + 2)

/-- The place of the upper one of the category and its neighbour -/
def Direction.upper (index : ℕ) : Direction → ℕ
  | .up => index - 1
  | .down => index

/-- When both requests are answered, the two have changed places; otherwise nothing has moved. -/
def MovesByOne (place : ℕ) (before after : List UUID) (bothAnswered : Bool) : Prop :=
  (bothAnswered = true → after = exchangeAt place before) ∧ (bothAnswered = false → after = before)

/-- The sort orders of the two differ, and those who have one of them too are before or behind both by name. -/
def Exchangeable (rt : Runtime) (categories : List MenuCategoryRow) (place : ℕ) : Prop :=
  ∀ a b, categories[place]? = some a → categories[place + 1]? = some b →
    a.sortOrder < b.sortOrder ∧
      (∀ p ∈ categories.take place, p.sortOrder = a.sortOrder →
        rt.sortsBefore (rt.lower p.name) (rt.lower b.name) = true) ∧
      ∀ q ∈ categories.drop (place + 2), q.sortOrder = b.sortOrder →
        rt.sortsBefore (rt.lower a.name) (rt.lower q.name) = true

/-- The two are in the order of their names. -/
def InNameOrder (rt : Runtime) (categories : List MenuCategoryRow) (place : ℕ) : Prop :=
  ∀ a b, categories[place]? = some a → categories[place + 1]? = some b →
    rt.sortsBefore (rt.lower a.name) (rt.lower b.name) = true

/-! ## The list -/

section Listing

variable {rt : Runtime} {db db' : Db} {restaurantID : UUID} {order : UUID → Int64}

/-- The order of the list, by the sort order and the name -/
abbrev Listed (rt : Runtime) : MenuCategoryRow → MenuCategoryRow → Prop :=
  First (fun c => c.sortOrder.toInt) (fun c => rt.lower c.name) fun s t => rt.sortsBefore s t = true

theorem categoryOrder_iff {a b : MenuCategoryRow} : Db.categoryOrder rt a b = true ↔ Listed rt a b := by
  simp only [Db.categoryOrder, Bool.or_eq_true, Bool.and_eq_true, decide_eq_true_eq, beq_iff_eq,
    Int64.lt_iff_toInt_lt, First, Int64.toInt_inj]

/-- Rows that are known by their ids -/
theorem eq_of_map_id_eq {xs ys : List MenuCategoryRow}
    (hids : ∀ x ∈ xs, ∀ y ∈ ys, x.id = y.id → x = y)
    (h : xs.map MenuCategoryRow.id = ys.map MenuCategoryRow.id) : xs = ys := by
  induction xs generalizing ys with
  | nil => exact (List.map_eq_nil_iff.mp h.symm).symm
  | cons x rest ih =>
    cases ys with
    | nil => cases h
    | cons y rest' =>
      obtain ⟨hid, hrest⟩ := List.cons.inj h
      rw [hids x List.mem_cons_self y List.mem_cons_self hid,
        ih (fun x hx y hy => hids x (List.mem_cons_of_mem _ hx) y (List.mem_cons_of_mem _ hy)) hrest]

/-- A list of the categories that are listed, after they have got other sort orders, is their order then if it
is sorted. -/
theorem listCategories_reordered (hcollation : IsStrictTotalOrder String fun s t => rt.sortsBefore s t = true)
    (hkeys : (db.menuCategories.map MenuCategoryRow.id).Nodup)
    (hnames : ((db.listCategories rt restaurantID).map fun c => rt.lower c.name).Nodup)
    (hreorder : db'.menuCategories = reorder order db.menuCategories) {ys : List MenuCategoryRow}
    (hperm : ys.Perm (db.listCategories rt restaurantID)) :
    (db'.listCategories rt restaurantID).map MenuCategoryRow.id = ys.map MenuCategoryRow.id ↔
      (reorder order ys).Pairwise (Listed rt) := by
  have hrows : db'.categoriesOf restaurantID = reorder order (db.categoriesOf restaurantID) := by
    unfold Db.categoriesOf
    rw [hreorder, reorder, List.filter_map]
    rfl
  have hlist : (db.listCategories rt restaurantID).Perm (db.categoriesOf restaurantID) := sliceStable_perm _ _
  have hmem : (reorder order ys).Perm (db'.categoriesOf restaurantID) := by
    rw [hrows]
    exact (hperm.trans hlist).map _
  have hdiffer : ((db'.categoriesOf restaurantID).map fun c => rt.lower c.name).Nodup := by
    rw [hrows, reorder, List.map_map]
    exact (hlist.map fun c => rt.lower c.name).nodup_iff.mp hnames
  have hids : ((db'.categoriesOf restaurantID).map MenuCategoryRow.id).Nodup := by
    rw [hrows, reorder_ids]
    exact hkeys.sublist (List.filter_sublist.map _)
  have hless : ∀ x y, Db.categoryOrder rt y x = false ↔ ¬ Listed rt y x := fun x y => by
    rw [← categoryOrder_iff, Bool.not_eq_true]
  have hsort : db'.listCategories rt restaurantID = reorder order ys ↔
      (reorder order ys).Perm (db'.categoriesOf restaurantID) ∧ (reorder order ys).Pairwise (Listed rt) :=
    insertionSort_eq_iff hless hdiffer
  have hsameIDs : (reorder order ys).map MenuCategoryRow.id = ys.map MenuCategoryRow.id := reorder_ids
  rw [← hsameIDs]
  constructor
  · intro hsame
    refine (hsort.mp (eq_of_map_id_eq (fun x hx y hy hid => ?_) hsame)).2
    exact List.inj_on_of_nodup_map hids ((sliceStable_perm _ _).mem_iff.mp hx) (hmem.mem_iff.mp hy) hid
  · intro hpairwise
    rw [hsort.mpr ⟨hmem, hpairwise⟩]

theorem mem_menuCategories_of_listed {c : MenuCategoryRow} (hc : c ∈ db.listCategories rt restaurantID) :
    c ∈ db.menuCategories :=
  List.mem_of_mem_filter ((sliceStable_perm _ _).mem_iff.mp hc)

/-- The list is sorted. -/
theorem listCategories_sorted (hcollation : IsStrictTotalOrder String fun s t => rt.sortsBefore s t = true)
    (hnames : ((db.listCategories rt restaurantID).map fun c => rt.lower c.name).Nodup) :
    (db.listCategories rt restaurantID).Pairwise (Listed rt) := by
  have hless : ∀ x y, Db.categoryOrder rt y x = false ↔ ¬ Listed rt y x := fun x y => by
    rw [← categoryOrder_iff, Bool.not_eq_true]
  have hdiffer : ((db.categoriesOf restaurantID).map fun c => rt.lower c.name).Nodup :=
    ((sliceStable_perm (Db.categoryOrder rt) (db.categoriesOf restaurantID)).map fun c =>
      rt.lower c.name).nodup_iff.mp hnames
  exact ((insertionSort_eq_iff hless hdiffer).mp rfl).2

end Listing

/-! ## Two neighbours -/

section Neighbours

variable {rt : Runtime} {categories : List MenuCategoryRow} {a b : MenuCategoryRow} {place : ℕ}

/-- Two neighbours, and what is above and below them -/
theorem split_at {α : Type} {xs : List α} {x y : α} (hx : xs[place]? = some x) (hy : xs[place + 1]? = some y) :
    xs = xs.take place ++ x :: y :: xs.drop (place + 2) := by
  obtain ⟨hplace, rfl⟩ := List.getElem?_eq_some_iff.mp hx
  obtain ⟨hnext, rfl⟩ := List.getElem?_eq_some_iff.mp hy
  rw [← List.drop_eq_getElem_cons hnext, ← List.drop_eq_getElem_cons hplace, List.take_append_drop]

theorem exchangeAt_split {α : Type} {xs : List α} {x y : α} (hx : xs[place]? = some x)
    (hy : xs[place + 1]? = some y) : exchangeAt place xs = xs.take place ++ y :: x :: xs.drop (place + 2) := by
  obtain ⟨hplace, rfl⟩ := List.getElem?_eq_some_iff.mp hx
  obtain ⟨hnext, rfl⟩ := List.getElem?_eq_some_iff.mp hy
  unfold exchangeAt
  rw [List.drop_eq_getElem_cons hplace, List.drop_eq_getElem_cons hnext, List.append_assoc]
  rfl

theorem exchangeAt_map {α β : Type} (f : α → β) (xs : List α) :
    exchangeAt place (xs.map f) = (exchangeAt place xs).map f := by
  simp [exchangeAt, List.map_take, List.map_drop, List.map_reverse]

/-- The sort orders of the others stay. -/
theorem reorder_neighbours {order : UUID → Int64} {pre post : List MenuCategoryRow} {x y : MenuCategoryRow}
    (hothers : ∀ c ∈ pre ++ post, order c.id = c.sortOrder) :
    reorder order (pre ++ x :: y :: post) =
      pre ++ { x with sortOrder := order x.id } :: { y with sortOrder := order y.id } :: post := by
  have hsame : ∀ cs : List MenuCategoryRow, (∀ c ∈ cs, order c.id = c.sortOrder) → reorder order cs = cs := by
    intro cs hcs
    unfold reorder
    rw [List.map_congr_left fun c hc => congrArg (fun so => { c with sortOrder := so }) (hcs c hc)]
    exact List.map_id' cs
  have hpre := hsame pre fun c hc => hothers c (List.mem_append_left _ hc)
  have hpost := hsame post fun c hc => hothers c (List.mem_append_right _ hc)
  unfold reorder at hpre hpost ⊢
  rw [List.map_append, List.map_cons, List.map_cons, hpre, hpost]

theorem exchangeable_iff (ha : categories[place]? = some a) (hb : categories[place + 1]? = some b) :
    Exchangeable rt categories place ↔ a.sortOrder < b.sortOrder ∧
      (∀ p ∈ categories.take place, p.sortOrder = a.sortOrder →
        rt.sortsBefore (rt.lower p.name) (rt.lower b.name) = true) ∧
      ∀ q ∈ categories.drop (place + 2), q.sortOrder = b.sortOrder →
        rt.sortsBefore (rt.lower a.name) (rt.lower q.name) = true := by
  constructor
  · exact fun h => h a b ha hb
  · intro h a' b' ha' hb'
    cases ha.symm.trans ha'
    cases hb.symm.trans hb'
    exact h

theorem inNameOrder_iff (ha : categories[place]? = some a) (hb : categories[place + 1]? = some b) :
    InNameOrder rt categories place ↔ rt.sortsBefore (rt.lower a.name) (rt.lower b.name) = true := by
  constructor
  · exact fun h => h a b ha hb
  · intro h a' b' ha' hb'
    cases ha.symm.trans ha'
    cases hb.symm.trans hb'
    exact h

variable {db db' : Db} {restaurantID : UUID} {order : UUID → Int64}

/-- The two are not the same, and neither is among the others. -/
theorem neighbours_apart (hkeys : (db.menuCategories.map MenuCategoryRow.id).Nodup)
    (ha : (db.listCategories rt restaurantID)[place]? = some a)
    (hb : (db.listCategories rt restaurantID)[place + 1]? = some b) :
    a.id ≠ b.id ∧ ∀ c ∈ (db.listCategories rt restaurantID).take place ++
      (db.listCategories rt restaurantID).drop (place + 2), c ∈ db.menuCategories ∧ c.id ≠ a.id ∧ c.id ≠ b.id := by
  have hids : (db.listCategories rt restaurantID).Pairwise fun x y => x.id ≠ y.id :=
    List.pairwise_map.mp ((((sliceStable_perm _ _).map MenuCategoryRow.id).nodup_iff).mpr
      (hkeys.sublist (List.filter_sublist.map _)))
  rw [split_at ha hb, pairwise_neighbours] at hids
  obtain ⟨-, hne, hbefore, hbehind⟩ := hids
  refine ⟨hne, fun c hc => ?_⟩
  obtain hc | hc := List.mem_append.mp hc
  · exact ⟨mem_menuCategories_of_listed (List.mem_of_mem_take hc), hbefore c hc⟩
  · exact ⟨mem_menuCategories_of_listed (List.mem_of_mem_drop hc), (hbehind c hc).1.symm, (hbehind c hc).2.symm⟩

/-- Only their sort orders may have changed. The list is that of before with `x` and `y` in their places, if it is
sorted with the sort orders that these have now. -/
theorem listCategories_neighbours (hcollation : IsStrictTotalOrder String fun s t => rt.sortsBefore s t = true)
    (hkeys : (db.menuCategories.map MenuCategoryRow.id).Nodup)
    (hnames : ((db.listCategories rt restaurantID).map fun c => rt.lower c.name).Nodup)
    (hreorder : db'.menuCategories = reorder order db.menuCategories)
    (ha : (db.listCategories rt restaurantID)[place]? = some a)
    (hb : (db.listCategories rt restaurantID)[place + 1]? = some b)
    (hothers : ∀ c ∈ db.menuCategories, c.id ≠ a.id → c.id ≠ b.id → order c.id = c.sortOrder)
    {x y : MenuCategoryRow} (hperm : [x, y].Perm [a, b]) :
    (db'.listCategories rt restaurantID).map MenuCategoryRow.id =
        ((db.listCategories rt restaurantID).take place ++ x :: y ::
          (db.listCategories rt restaurantID).drop (place + 2)).map MenuCategoryRow.id ↔
      ((db.listCategories rt restaurantID).take place ++ { x with sortOrder := order x.id } ::
        { y with sortOrder := order y.id } :: (db.listCategories rt restaurantID).drop (place + 2)).Pairwise
          (Listed rt) := by
  have hlist : ((db.listCategories rt restaurantID).take place ++ x :: y ::
      (db.listCategories rt restaurantID).drop (place + 2)).Perm (db.listCategories rt restaurantID) := by
    conv_rhs => rw [split_at ha hb]
    exact (List.Perm.refl _).append (hperm.append_right _)
  rw [listCategories_reordered hcollation hkeys hnames hreorder hlist, reorder_neighbours]
  intro c hc
  obtain ⟨hmem, hca, hcb⟩ := (neighbours_apart hkeys ha hb).2 c hc
  exact hothers c hmem hca hcb

/-- **What becomes of the list when the sort orders of two neighbours are exchanged, or one of them is set.** -/
theorem movesByOne_iff (hcollation : IsStrictTotalOrder String fun s t => rt.sortsBefore s t = true)
    (hkeys : (db.menuCategories.map MenuCategoryRow.id).Nodup)
    (hnames : ((db.listCategories rt restaurantID).map fun c => rt.lower c.name).Nodup)
    (hreorder : db'.menuCategories = reorder order db.menuCategories)
    (ha : (db.listCategories rt restaurantID)[place]? = some a)
    (hb : (db.listCategories rt restaurantID)[place + 1]? = some b) (upper lower : Bool)
    (hordera : order a.id = if upper then b.sortOrder else a.sortOrder)
    (horderb : order b.id = if lower then a.sortOrder else b.sortOrder)
    (hothers : ∀ c ∈ db.menuCategories, c.id ≠ a.id → c.id ≠ b.id → order c.id = c.sortOrder) :
    MovesByOne place ((db.listCategories rt restaurantID).map MenuCategoryRow.id)
        ((db'.listCategories rt restaurantID).map MenuCategoryRow.id) (upper && lower) ↔
      ((upper && lower) = true → Exchangeable rt (db.listCategories rt restaurantID) place) ∧
        (upper ≠ lower → InNameOrder rt (db.listCategories rt restaurantID) place) := by
  have hsorted := listCategories_sorted hcollation hnames
  have hexchanged := listCategories_neighbours hcollation hkeys hnames hreorder ha hb hothers (.swap a b [])
  have hkept := listCategories_neighbours hcollation hkeys hnames hreorder ha hb hothers (.refl [a, b])
  rw [split_at ha hb] at hsorted
  rw [← split_at ha hb] at hkept
  unfold MovesByOne
  rw [exchangeable_iff ha hb, inNameOrder_iff ha hb, exchangeAt_map, exchangeAt_split ha hb]
  cases upper with
  | true =>
    have hupper : order a.id = b.sortOrder := hordera
    cases lower with
    | true =>
      have hlower : order b.id = a.sortOrder := horderb
      have hiff := hexchanged.trans (exchanged_iff hsorted ⟨congrArg Int64.toInt hupper, rfl⟩
        ⟨congrArg Int64.toInt hlower, rfl⟩)
      simp only [Int64.toInt_inj, ← Int64.lt_iff_toInt_lt] at hiff
      simpa using hiff
    | false =>
      have hlower : order b.id = b.sortOrder := horderb
      rw [hlower] at hkept
      have hraised := hkept.trans (raised_iff hsorted ⟨congrArg Int64.toInt hupper, rfl⟩)
      simpa using hraised
  | false =>
    have hupper : order a.id = a.sortOrder := hordera
    rw [hupper] at hkept
    cases lower with
    | true =>
      have hlower : order b.id = a.sortOrder := horderb
      have hlowered := hkept.trans (lowered_iff hsorted ⟨congrArg Int64.toInt hlower, rfl⟩)
      simpa using hlowered
    | false =>
      have hlower : order b.id = b.sortOrder := horderb
      rw [hlower] at hkept
      simpa using hkept.mpr hsorted

end Neighbours

/-! ## The move -/

section Move

variable {h : MenuHandlers} {w : World Db Time} {restaurantID : UUID} {index : ℕ} {direction : Direction}
  {patches : CategoryPatch × CategoryPatch}

/-- One request is about the upper one of two, and the other about the lower one. -/
def sides {α : Type} (upper : Bool) (x y : α) (own : Bool) : α := if own = upper then x else y

@[simp] theorem sides_self {α : Type} (upper : Bool) (x y : α) : sides upper x y upper = x := if_pos rfl

@[simp] theorem sides_not {α : Type} (upper : Bool) (x y : α) : sides upper x y (!upper) = y := by
  cases upper <;> rfl

theorem sides_injective {α : Type} {upper : Bool} {x y : α} (hne : x ≠ y) :
    Function.Injective (sides upper x y) := by
  intro i j hij
  cases upper <;> cases i <;> cases j
  all_goals first | rfl | exact absurd hij hne | exact absurd hij hne.symm

/-- The sort order that a category has got -/
theorem Reordering.HasOrder.order_eq {base : List MenuCategoryRow} (hkeys : (base.map MenuCategoryRow.id).Nodup)
    {order : UUID → Int64} {w : World Db Time} (hreorder : w.db.menuCategories = reorder order base)
    {x : MenuCategoryRow} (hx : x ∈ base) {so : Option Int64} (h : HasOrder base x.id so w) :
    order x.id = so.getD x.sortOrder := by
  have hfound := (sortOrderOf_reorder hreorder x.id).symm.trans (h x hx rfl)
  rw [Tables.find?_key hkeys hx] at hfound
  exact Option.some.inj hfound

/-- Whichever way, the requests are about two neighbours: one for the upper one and one for the lower one. -/
theorem move_eq_some {categories : List MenuCategoryRow} {filters : MenuCategoryRow → List AvailabilityFilter}
    (hmove : move (categories.map fun c => publicCategory c (filters c)) index direction = some patches) :
    ∃ a b, ∃ upper : Bool, categories[direction.upper index]? = some a ∧
      categories[direction.upper index + 1]? = some b ∧ ∀ own : Bool, cond own patches.1 patches.2 =
        sides upper { cid := a.id.string, sortOrder := b.sortOrder }
          { cid := b.id.string, sortOrder := a.sortOrder } own := by
  obtain ⟨category, hcategory, hmove⟩ := Option.bind_eq_some_iff.mp hmove
  obtain ⟨other, hother, hmove⟩ := Option.bind_eq_some_iff.mp hmove
  cases hmove
  rw [List.getElem?_map] at hcategory
  obtain ⟨c, hc, rfl⟩ := Option.map_eq_some_iff.mp hcategory
  cases direction with
  | up =>
    unfold neighbour at hother
    split_ifs at hother with hfirst
    rw [List.getElem?_map] at hother
    obtain ⟨o, ho, rfl⟩ := Option.map_eq_some_iff.mp hother
    refine ⟨o, c, false, ho, ?_, ?_⟩
    · unfold Direction.upper
      rw [Nat.sub_add_cancel (Nat.pos_of_ne_zero hfirst)]
      exact hc
    · intro own
      cases own <;> rfl
  | down =>
    unfold neighbour at hother
    dsimp only at hother
    rw [List.getElem?_map] at hother
    obtain ⟨o, ho, rfl⟩ := Option.map_eq_some_iff.mp hother
    refine ⟨c, o, true, hc, ho, ?_⟩
    intro own
    cases own <;> rfl

/-- **When both requests of a move have ended**, the upper one of the two has the sort order of the lower one if
its request was answered, and the other way round; the others have kept theirs. -/
theorem moving_reorders {a b : MenuCategoryRow} {upper : Bool}
    (hkeys : (w.db.menuCategories.map MenuCategoryRow.id).Nodup) (ha : a ∈ w.db.menuCategories)
    (hb : b ∈ w.db.menuCategories) (hne : a.id ≠ b.id) (hreada : h.rt.parseUUID a.id.string = some a.id)
    (hreadb : h.rt.parseUUID b.id.string = some b.id)
    (hpatches : ∀ own : Bool, cond own patches.1 patches.2 =
      sides upper { cid := a.id.string, sortOrder := b.sortOrder } { cid := b.id.string, sortOrder := a.sortOrder } own)
    {restaurant : String} {principal : Option Principal}
    {c : Config Bool PatchCategoryStmt Outcome (World Db Time) ApiError CategoryBody}
    (hrun : Run (fun _ _ => False) (fun _ _ _ => True) (moving h restaurant principal patches w) c)
    {first second : Except ApiError CategoryBody} (hfirst : (c.procs upper).result = some first)
    (hsecond : (c.procs !upper).result = some second) :
    ∃ order, c.state.db.menuCategories = reorder order w.db.menuCategories ∧
      order a.id = (if first.isOk then b.sortOrder else a.sortOrder) ∧
      order b.id = (if second.isOk then a.sortOrder else b.sortOrder) ∧
      ∀ x ∈ w.db.menuCategories, x.id ≠ a.id → x.id ≠ b.id → order x.id = x.sortOrder := by
  have hparse : ∀ own : Bool,
      h.rt.parseUUID (cond own patches.1 patches.2).cid = some (sides upper a.id b.id own) := by
    intro own
    rw [hpatches]
    unfold sides
    split_ifs
    · exact hreada
    · exact hreadb
  have hbody : ∀ own : Bool, ((cond own patches.1 patches.2).request restaurant principal).body =
      .ok { name := none, sortOrder := some (sides upper b.sortOrder a.sortOrder own) } := by
    intro own
    rw [hpatches]
    unfold sides
    split_ifs <;> rfl
  obtain ⟨⟨order, hreorder, hothers⟩, hended⟩ := reorderings_run (sides_injective hne) hkeys hparse hbody hrun
  have hupper := hended upper first hfirst
  have hlower := hended (!upper) second hsecond
  rw [sides_self, sides_self] at hupper
  rw [sides_not, sides_not] at hlower
  refine ⟨order, hreorder, ?_, ?_, fun x hx hxa hxb => hothers x hx fun i => ?_⟩
  · rw [hupper.order_eq hkeys hreorder ha]
    split_ifs <;> rfl
  · rw [hlower.order_eq hkeys hreorder hb]
    split_ifs <;> rfl
  · unfold sides
    split_ifs
    · exact hxa.symm
    · exact hxb.symm

/-- **A move is one by one place**, when both requests are answered, if and only if the two can be exchanged by
their sort orders; when one of them fails, nothing has moved if and only if they are in the order of their names
or both have failed. -/
theorem move_exchanges_iff (hcollation : IsStrictTotalOrder String fun s t => h.rt.sortsBefore s t = true)
    (hkeys : (w.db.menuCategories.map MenuCategoryRow.id).Nodup)
    (hnames : ((w.db.listCategories h.rt restaurantID).map fun c => h.rt.lower c.name).Nodup)
    (hread : ∀ c ∈ w.db.listCategories h.rt restaurantID, h.rt.parseUUID c.id.string = some c.id)
    {filters : MenuCategoryRow → List AvailabilityFilter}
    (hmove : move ((w.db.listCategories h.rt restaurantID).map fun c => publicCategory c (filters c)) index
      direction = some patches) {restaurant : String} {principal : Option Principal}
    {c : Config Bool PatchCategoryStmt Outcome (World Db Time) ApiError CategoryBody}
    (hrun : Run (fun _ _ => False) (fun _ _ _ => True) (moving h restaurant principal patches w) c)
    {own other : Except ApiError CategoryBody} (hown : (c.procs true).result = some own)
    (hother : (c.procs false).result = some other) :
    MovesByOne (direction.upper index) ((w.db.listCategories h.rt restaurantID).map MenuCategoryRow.id)
        ((c.state.db.listCategories h.rt restaurantID).map MenuCategoryRow.id) (own.isOk && other.isOk) ↔
      ((own.isOk && other.isOk) = true →
          Exchangeable h.rt (w.db.listCategories h.rt restaurantID) (direction.upper index)) ∧
        (own.isOk ≠ other.isOk → InNameOrder h.rt (w.db.listCategories h.rt restaurantID) (direction.upper index)) := by
  obtain ⟨a, b, upper, ha, hb, hpatches⟩ := move_eq_some hmove
  have hmema := List.mem_of_getElem? ha
  have hmemb := List.mem_of_getElem? hb
  have hne := (neighbours_apart hkeys ha hb).1
  cases upper with
  | true =>
    obtain ⟨order, hreorder, hordera, horderb, hothers⟩ := moving_reorders hkeys
      (mem_menuCategories_of_listed hmema) (mem_menuCategories_of_listed hmemb) hne (hread a hmema) (hread b hmemb)
      hpatches hrun hown hother
    exact movesByOne_iff hcollation hkeys hnames hreorder ha hb _ _ hordera horderb hothers
  | false =>
    -- the request for the category itself is the one for the lower one
    obtain ⟨order, hreorder, hordera, horderb, hothers⟩ := moving_reorders hkeys
      (mem_menuCategories_of_listed hmema) (mem_menuCategories_of_listed hmemb) hne (hread a hmema) (hread b hmemb)
      hpatches hrun hother hown
    rw [Bool.and_comm, ne_comm]
    exact movesByOne_iff hcollation hkeys hnames hreorder ha hb _ _ hordera horderb hothers

end Move

/-! ## Kebabs and their copy -/

/-- The kebabs of `lunch`, with a category of that sort order next to them. -/
def kebabsAnd (name : String) (sortOrder : Int64) : Db :=
  { lunch with
    menuCategories := [
      { id := ⟨7⟩, restaurantID := ⟨2⟩, name := "kebabs", sortOrder := 0, deletedAt := none },
      { id := ⟨8⟩, restaurantID := ⟨2⟩, name, sortOrder, deletedAt := none }] }

/-- Anna moves the kebabs down: one request after the other, all of whose statements go well. -/
def kebabsDown (db : Db) (patches : CategoryPatch × CategoryPatch) :
    Config Bool PatchCategoryStmt Outcome (World Db Time) ApiError CategoryBody :=
  ((moving { rt := .ascii } (UUID.string ⟨2⟩) (some { userID := ⟨1⟩, isAdmin := false }) patches ⟨db, 0⟩).advance true
    (.replicate 4 .ok)).advance false (.replicate 4 .ok)

theorem kebabsDown_run (db : Db) (patches : CategoryPatch × CategoryPatch) :
    Run (fun _ _ => False) (fun _ _ _ => True)
      (moving { rt := .ascii } (UUID.string ⟨2⟩) (some { userID := ⟨1⟩, isAdmin := false }) patches ⟨db, 0⟩)
      (kebabsDown db patches) :=
  (run_advance (fun _ _ _ _ _ _ _ => trivial) _ _ _).trans (run_advance (fun _ _ _ _ _ _ _ => trivial) _ _ _)

theorem ascii_collation : IsStrictTotalOrder String fun s t => Runtime.ascii.sortsBefore s t = true := by
  have hlt : (fun s t => Runtime.ascii.sortsBefore s t = true) = fun s t : String => s < t := by
    funext s t
    exact propext decide_eq_true_iff
  rw [hlt]
  infer_instance

/-- The soups are listed behind them. -/
def soupsPatches : CategoryPatch × CategoryPatch :=
  ({ cid := UUID.string ⟨7⟩, sortOrder := 10 }, { cid := UUID.string ⟨8⟩, sortOrder := 0 })

/-- With the soups behind them, they change places. -/
theorem move_exchanges_soups : ((kebabsDown (kebabsAnd "soups" 10) soupsPatches).state.db.listCategories .ascii ⟨2⟩).map
    MenuCategoryRow.id = [⟨8⟩, ⟨7⟩] := by
  have hanswered : ∀ own, (((kebabsDown (kebabsAnd "soups" 10) soupsPatches).procs own).result.any fun r =>
      r.isOk) = true := by decide +kernel
  obtain ⟨own, hown, hok⟩ := (Option.any_eq_true _ _).mp (hanswered true)
  obtain ⟨other, hother, hok'⟩ := (Option.any_eq_true _ _).mp (hanswered false)
  have hlist : (kebabsAnd "soups" 10).listCategories .ascii ⟨2⟩ = (kebabsAnd "soups" 10).menuCategories := by
    decide +kernel
  have hexchangeable : Exchangeable .ascii ((kebabsAnd "soups" 10).listCategories .ascii ⟨2⟩) 0 := by
    rw [hlist, exchangeable_iff rfl rfl]
    decide +kernel
  have hkeys : ((kebabsAnd "soups" 10).menuCategories.map MenuCategoryRow.id).Nodup := by decide +kernel
  have hnames : (((kebabsAnd "soups" 10).listCategories .ascii ⟨2⟩).map fun c => Runtime.ascii.lower c.name).Nodup := by
    decide +kernel
  have hread : ∀ c ∈ (kebabsAnd "soups" 10).listCategories .ascii ⟨2⟩,
      Runtime.ascii.parseUUID c.id.string = some c.id := by decide +kernel
  have hmove : move (((kebabsAnd "soups" 10).listCategories .ascii ⟨2⟩).map fun c => publicCategory c []) 0 .down =
      some soupsPatches := by decide +kernel
  have hmoves := (@move_exchanges_iff { rt := .ascii } ⟨kebabsAnd "soups" 10, 0⟩ ⟨2⟩ 0 .down soupsPatches
    ascii_collation hkeys hnames hread (fun _ => []) hmove _ _ _
    (kebabsDown_run (kebabsAnd "soups" 10) soupsPatches) _ _ hown hother).mpr
    ⟨fun _ => hexchangeable, fun hne => absurd (hok.trans hok'.symm) hne⟩
  rw [hok, hok'] at hmoves
  rw [hmoves.1 rfl]
  decide +kernel

/-- Their copy is listed behind them, with their sort order. -/
def copyPatches : CategoryPatch × CategoryPatch :=
  ({ cid := UUID.string ⟨7⟩, sortOrder := 0 }, { cid := UUID.string ⟨8⟩, sortOrder := 0 })

/-- A copy has the sort order of its original, and cannot be passed. -/
theorem move_exchanges_not : ¬ ∀ (h : MenuHandlers) (w : World Db Time) (restaurantID : UUID) (index : ℕ)
    (direction : Direction) (patches : CategoryPatch × CategoryPatch)
    (filters : MenuCategoryRow → List AvailabilityFilter) (restaurant : String) (principal : Option Principal)
    (c : Config Bool PatchCategoryStmt Outcome (World Db Time) ApiError CategoryBody)
    (own other : Except ApiError CategoryBody),
    IsStrictTotalOrder String (fun s t => h.rt.sortsBefore s t = true) →
    (w.db.menuCategories.map MenuCategoryRow.id).Nodup →
    ((w.db.listCategories h.rt restaurantID).map fun c => h.rt.lower c.name).Nodup →
    (∀ c ∈ w.db.listCategories h.rt restaurantID, h.rt.parseUUID c.id.string = some c.id) →
    move ((w.db.listCategories h.rt restaurantID).map fun c => publicCategory c (filters c)) index direction =
      some patches →
    Run (fun _ _ => False) (fun _ _ _ => True) (moving h restaurant principal patches w) c →
    (c.procs true).result = some own → (c.procs false).result = some other →
    MovesByOne (direction.upper index) ((w.db.listCategories h.rt restaurantID).map MenuCategoryRow.id)
      ((c.state.db.listCategories h.rt restaurantID).map MenuCategoryRow.id) (own.isOk && other.isOk) := by
  intro hevery
  have hanswered : ∀ own, (((kebabsDown (kebabsAnd "kebabs (copy)" 0) copyPatches).procs own).result.any fun r =>
      r.isOk) = true := by decide +kernel
  obtain ⟨own, hown, hok⟩ := (Option.any_eq_true _ _).mp (hanswered true)
  obtain ⟨other, hother, hok'⟩ := (Option.any_eq_true _ _).mp (hanswered false)
  have hmoves := hevery { rt := .ascii } ⟨kebabsAnd "kebabs (copy)" 0, 0⟩ ⟨2⟩ 0 .down copyPatches (fun _ => []) _ _
    _ own other ascii_collation (by decide +kernel) (by decide +kernel) (by decide +kernel) (by decide +kernel)
    (kebabsDown_run (kebabsAnd "kebabs (copy)" 0) copyPatches) hown hother
  rw [hok, hok'] at hmoves
  have hafter := hmoves.1 rfl
  revert hafter
  decide +kernel

end Doenerstag
