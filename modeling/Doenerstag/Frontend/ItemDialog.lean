import Doenerstag.Api.OrderItems
import Doenerstag.Api.RawPatch
import Doenerstag.Db.MenuSnapshots
import Doenerstag.Frontend.Money

/-!
# The item dialog (`frontend/src/pages/order/items.ts`)

The dialog that changes an order item. It ticks the options that the item has among those that the dish has
now, and saving it sends all that are ticked: an option that is not offered any more goes with them.

* `openItemEditor`, `ItemDialog.submit` — the dialog, and what it sends.
* `SameFood` — the item has the price and the modifications that it had.
* `KeepsOptions` — the ticked options are on the menu as the item has them.
* `editItem_keeps_iff` — **saving keeps the food if the menu does.**
-/

namespace Doenerstag

open ReadCommitted Prog

/-! ## The dialog -/

/-- `Modification` -/
structure MenuOption where
  id : String
  name : String
  priceDeltaCents : Int64
  deriving DecidableEq, Repr

/-- The item that is edited, and the boxes with whether they are ticked -/
structure ItemDialog where
  item : OrderItemBody
  boxes : List (MenuOption × Bool)
  deriving DecidableEq, Repr

/-- `openItemEditor`, for an item there is. `menuItems` are the dishes of the page, which are without options;
`fetched` are those of the dish, unless the request for them failed. -/
def openItemEditor (menuItems : List String) (existing : OrderItemBody) (fetched : Option (List MenuOption)) :
    Option ItemDialog :=
  if menuItems.contains existing.menuItemID then
    let chosen := existing.modifications.filterMap OrderModificationBody.modificationID
    let modifications := fetched.getD []
    some { item := existing, boxes := modifications.map fun m => (m, chosen.contains m.id) }
  else
    none

/-- The body of the request -/
structure ItemPatch where
  quantity : ℤ
  note : String
  modificationIDs : List String
  deriving DecidableEq, Repr

/-- `String.trim` -/
def trimText (s : String) : String :=
  String.ofList ((s.toList.dropWhile isWhiteSpace).reverse.dropWhile isWhiteSpace).reverse

/-- `onSubmit`: `count` is what `Number.parseInt` makes of the quantity, if it is a number. -/
def ItemDialog.submit (d : ItemDialog) (count : Option ℤ) (note : String) : Option ItemPatch :=
  match count with
  | none => none
  | some count =>
    if count < 1 then none
    else some
      { quantity := count
        note := trimText note
        modificationIDs := (d.boxes.filter Prod.snd).map fun entry => entry.1.id }

/-- `patchItemRequest`: the quantity is an `int`. -/
def ItemPatch.decode (patch : ItemPatch) : Except ApiError OrderHandlers.PatchItemRequest :=
  if Int64.minValue.toInt ≤ patch.quantity ∧ patch.quantity ≤ Int64.maxValue.toInt then
    .ok { quantity := some (.ofInt patch.quantity), note := some patch.note
          modificationIDs := some patch.modificationIDs }
  else
    .error { code := codeInvalidField, field := "quantity", detail := "expected a int" }

/-- Who edits which item on which page, and what is typed -/
structure ItemEdit where
  orderID : String
  principal : Option Principal
  menuItems : List String
  existing : OrderItemBody
  fetched : Option (List MenuOption)
  count : Option ℤ
  note : String

/-- What is sent, if something is -/
def ItemEdit.sent (e : ItemEdit) : Option (Request OrderHandlers.PatchItemRequest) :=
  (openItemEditor e.menuItems e.existing e.fetched).bind fun d => (d.submit e.count e.note).map fun patch =>
    { id := e.orderID, iid := d.item.id, principal := e.principal, body := patch.decode }

/-- The dialog is opened, the quantity and the note are changed, and it is saved. -/
def OrderHandlers.editItem (h : OrderHandlers) (fresh : FreshItem) (e : ItemEdit) :
    Handler OrderStmt (Option OrderResponse) :=
  match e.sent with
  | none => pure none
  | some r => do
    let answer ← h.patchItem fresh r
    pure (some answer)

/-! ## What is to stay -/

/-- The modifications of an item, by what they are and cost -/
def Db.foodOf (db : Db) (id : UUID) : List (String × Int64) :=
  (db.modificationsOf id).map fun s => (s.name, s.priceDeltaCents)

/-- What a modification is and costs now -/
def Db.menuFood (db : Db) (modificationID : Option UUID) : Option (String × Int64) :=
  (modificationID.bind fun id => db.menuItemModifications.find? fun m => m.id == id).map fun m =>
    (m.name, m.priceDeltaCents)

/-- The item has the price and the modifications that it had. -/
structure SameFood (id : UUID) (db db' : Db) : Prop where
  unitPrice : (db'.orderItem id).map OrderItemRow.unitPriceCents =
    (db.orderItem id).map OrderItemRow.unitPriceCents
  modifications : (db'.foodOf id).Perm (db.foodOf id)

/-- The item has the modification, and the dialog offers it. -/
def ticked (db : Db) (id : UUID) (fetched : Option (List MenuOption)) (modificationID : UUID) : Bool :=
  ((db.modificationsOf id).any fun s => s.modificationID == some modificationID) &&
    (fetched.getD []).any fun option => option.id == modificationID.string

/-- The ticked modifications, as far as the dish has them now -/
def Db.livingTicked (db : Db) (row : OrderItemRow) (fetched : Option (List MenuOption)) :
    List MenuItemModificationRow :=
  db.menuItemModifications.filter fun m =>
    ticked db row.id fetched m.id && m.menuItemID == row.menuItemID && m.deletedAt.isNone

/-- The ticked modifications are on the menu with the names and the prices that the item has. -/
def KeepsOptions (db : Db) (row : OrderItemRow) (fetched : Option (List MenuOption)) : Prop :=
  ((db.livingTicked row fetched).map fun m => (m.name, m.priceDeltaCents)).Perm (db.foodOf row.id)

/-- The identifiers of the item and of the modifications can be read back from their text. -/
structure ReadsBack (rt : Runtime) (db : Db) (id : UUID) : Prop where
  item : rt.parseUUID id.string = some id
  modification : ∀ m ∈ db.menuItemModifications, rt.parseUUID m.id.string = some m.id

/-! ## What is sent -/

section Sent

variable {rt : Runtime} {db : Db} {row : OrderItemRow} {i : OrderItem} {fetched : Option (List MenuOption)}

/-- Texts of identifiers are read as these. -/
theorem parseIDList_string {ids : List UUID} {field : String}
    (hread : ∀ id ∈ ids, rt.parseUUID id.string = some id) :
    parseIDList rt (ids.map UUID.string) field = .ok ids := by
  unfold parseIDList
  induction ids with
  | nil => rfl
  | cons id rest ih =>
    rw [List.map_cons, List.mapM_cons, id.trimSpace_string, hread id List.mem_cons_self,
      ih fun id' hid' => hread id' (List.mem_cons_of_mem _ hid')]
    rfl

/-- Texts that are all of such identifiers -/
theorem exists_map_string {texts : List String} {P : UUID → Prop} (h : ∀ t ∈ texts, ∃ id, P id ∧ t = id.string) :
    ∃ ids : List UUID, texts = ids.map UUID.string ∧ ∀ id ∈ ids, P id := by
  induction texts with
  | nil => exact ⟨[], rfl, by simp⟩
  | cons t rest ih =>
    obtain ⟨ids, hrest, hids⟩ := ih fun t' ht' => h t' (List.mem_cons_of_mem _ ht')
    obtain ⟨id, hid, rfl⟩ := h t List.mem_cons_self
    refine ⟨id :: ids, by rw [hrest, List.map_cons], fun id' hid' => ?_⟩
    obtain rfl | hid' := List.mem_cons.mp hid'
    · exact hid
    · exact hids id' hid'

/-- The modifications of the item that the page has are the snapshots in the database. -/
theorem mem_chosen (hshown : ItemShown db row i) {text : String} :
    text ∈ (publicOrderItem i).modifications.filterMap OrderModificationBody.modificationID ↔
      ∃ id, (∃ s ∈ db.modificationsOf row.id, s.modificationID = some id) ∧ text = id.string := by
  have hmem : ∀ m : OrderItemModification, m ∈ i.modifications ↔
      ∃ s ∈ db.modificationsOf row.id, Db.scanModification s = m :=
    fun m => hshown.snapshots.mem_iff.trans List.mem_map
  simp only [publicOrderItem, List.filterMap_map, List.mem_filterMap, Function.comp_apply,
    Option.map_eq_some_iff]
  constructor
  · rintro ⟨m, hm, id, hid, rfl⟩
    obtain ⟨s, hs, rfl⟩ := (hmem m).mp hm
    exact ⟨id, ⟨s, hs, hid⟩, rfl⟩
  · rintro ⟨id, ⟨s, hs, hid⟩, rfl⟩
    exact ⟨Db.scanModification s, (hmem _).mpr ⟨s, hs, rfl⟩, id, hid, rfl⟩

/-- What is sent names the item, and those of its modifications that are offered. -/
theorem ItemEdit.sent_ticked {e : ItemEdit} (hexisting : e.existing = publicOrderItem i)
    (hshown : ItemShown db row i) {r : Request OrderHandlers.PatchItemRequest} (hsent : e.sent = some r) :
    r.iid = row.id.string ∧ ∀ body, r.body = .ok body → ∃ ids : List UUID,
      body.modificationIDs = some (ids.map UUID.string) ∧
      (∀ id ∈ ids, ∃ s ∈ db.modificationsOf row.id, s.modificationID = some id) ∧
      ∀ id, (∃ s ∈ db.modificationsOf row.id, s.modificationID = some id) →
        (id.string ∈ ids.map UUID.string ↔ ∃ option ∈ e.fetched.getD [], option.id = id.string) := by
  obtain ⟨d, hopen, hsubmit⟩ := Option.bind_eq_some_iff.mp hsent
  obtain ⟨patch, hpatch, rfl⟩ := Option.map_eq_some_iff.mp hsubmit
  unfold openItemEditor at hopen
  split_ifs at hopen
  cases hopen
  unfold ItemDialog.submit at hpatch
  cases hcount : e.count with
  | none => simp [hcount] at hpatch
  | some count =>
    simp only [hcount] at hpatch
    split_ifs at hpatch
    cases hpatch
    refine ⟨by rw [hexisting, ← hshown.id]; rfl, fun body hbody => ?_⟩
    unfold ItemPatch.decode at hbody
    split_ifs at hbody
    cases hbody
    have htext : ∀ t, t ∈ ((((e.fetched.getD []).map fun m => (m, (e.existing.modifications.filterMap
        OrderModificationBody.modificationID).contains m.id)).filter Prod.snd).map fun entry => entry.1.id) ↔
        (∃ id, (∃ s ∈ db.modificationsOf row.id, s.modificationID = some id) ∧ t = id.string) ∧
          ∃ option ∈ e.fetched.getD [], option.id = t := by
      intro t
      simp only [List.mem_map, List.mem_filter, hexisting]
      constructor
      · rintro ⟨entry, ⟨⟨option, hoption, rfl⟩, hchosen⟩, rfl⟩
        rw [List.contains_iff_mem] at hchosen
        exact ⟨(mem_chosen hshown).mp hchosen, option, hoption, rfl⟩
      · rintro ⟨hchosen, option, hoption, rfl⟩
        exact ⟨_, ⟨⟨option, hoption, rfl⟩, List.contains_iff_mem.mpr ((mem_chosen hshown).mpr hchosen)⟩, rfl⟩
    obtain ⟨ids, hids, hown⟩ := exists_map_string fun t ht => ((htext t).mp ht).1
    refine ⟨ids, by rw [← hids], hown, fun id hid => ?_⟩
    rw [← hids, htext]
    exact and_iff_right ⟨id, hid, rfl⟩

/-- What the server selects of the menu is what was ticked and is there. -/
theorem selected_ticked (hvalid : db.Valid) (hread : ReadsBack rt db row.id) {ids : List UUID}
    (hown : ∀ id ∈ ids, ∃ s ∈ db.modificationsOf row.id, s.modificationID = some id)
    (hoffered : ∀ id, (∃ s ∈ db.modificationsOf row.id, s.modificationID = some id) →
      (id.string ∈ ids.map UUID.string ↔ ∃ option ∈ fetched.getD [], option.id = id.string)) :
    db.selectedModifications ids row.menuItemID = db.livingTicked row fetched := by
  -- the text of an identifier of the menu is that of no other one
  have hexact : ∀ m ∈ db.menuItemModifications, m.id.string ∈ ids.map UUID.string → m.id ∈ ids := by
    intro m hm htext
    obtain ⟨id, hid, heq⟩ := List.mem_map.mp htext
    obtain ⟨s, hs, hsid⟩ := hown id hid
    obtain ⟨m', hm', rfl⟩ := hvalid.refs.snapshotModification s (List.mem_of_mem_filter hs) id hsid
    have hparse := hread.modification m' hm'
    rw [heq, hread.modification m hm] at hparse
    rwa [Option.some.inj hparse]
  unfold Db.selectedModifications Db.livingTicked
  refine List.filter_congr fun m hm => ?_
  congr 2
  rw [Bool.eq_iff_iff, List.contains_iff_mem, ticked, Bool.and_eq_true, List.any_eq_true, List.any_eq_true]
  simp only [beq_iff_eq]
  constructor
  · intro hid
    exact ⟨hown _ hid, (hoffered _ (hown _ hid)).mp (List.mem_map_of_mem hid)⟩
  · rintro ⟨hsnapshot, hoption⟩
    exact hexact m hm ((hoffered _ hsnapshot).mpr hoption)

end Sent

/-! ## What is saved -/

section Saved

variable {menu : Db} {menuItemID : UUID} {ids : List UUID} {rows : List OrderItemModificationRow}

/-- A name and a price for each that was selected -/
theorem Snapshotted.food_perm (h : Snapshotted menu menuItemID ids rows)
    (hkeys : (menu.menuItemModifications.map MenuItemModificationRow.id).Nodup) :
    (rows.map fun s => (s.name, s.priceDeltaCents)).Perm
      ((menu.selectedModifications ids menuItemID).map fun m => (m.name, m.priceDeltaCents)) := by
  have hmem : ∀ s ∈ rows, ∃ m ∈ menu.selectedModifications ids menuItemID, s.modificationID = some m.id ∧
      s.name = m.name ∧ s.priceDeltaCents = m.priceDeltaCents := by
    intro s hs
    obtain ⟨m, hm, hid, hdish, hliving, hname, hdelta⟩ := h.faithful s hs
    have hasked : some m.id ∈ ids.map some :=
      h.exactly.mem_iff.mp (hid ▸ List.mem_map_of_mem hs)
    refine ⟨m, List.mem_filter.mpr ⟨hm, ?_⟩, hid, hname, hdelta⟩
    simpa [hdish, hliving] using hasked
  -- each of the ids is of one of the selected modifications, and each of these is of one of the ids
  have hids : ids.Perm ((menu.selectedModifications ids menuItemID).map MenuItemModificationRow.id) := by
    refine (List.perm_ext_iff_of_nodup h.distinct (hkeys.sublist (List.filter_sublist.map _))).mpr fun id => ?_
    constructor
    · intro hid
      have hsnapshot : some id ∈ rows.map OrderItemModificationRow.modificationID :=
        h.exactly.mem_iff.mpr (List.mem_map_of_mem hid)
      obtain ⟨s, hs, hsid⟩ := List.mem_map.mp hsnapshot
      obtain ⟨m, hm, hmid, -⟩ := hmem s hs
      rw [hsid] at hmid
      exact Option.some.inj hmid ▸ List.mem_map_of_mem hm
    · intro hid
      obtain ⟨m, hm, rfl⟩ := List.mem_map.mp hid
      have hsel := List.of_mem_filter hm
      simp only [Bool.and_eq_true, List.contains_iff_mem] at hsel
      exact hsel.1.1
  have hfood : ∀ m ∈ menu.selectedModifications ids menuItemID,
      menu.menuFood (some m.id) = some (m.name, m.priceDeltaCents) := by
    intro m hm
    have hfind := Tables.find?_key hkeys (List.mem_of_mem_filter hm)
    simp [Db.menuFood, hfind]
  have hrows : (rows.map OrderItemModificationRow.modificationID).filterMap menu.menuFood =
      rows.map fun s => (s.name, s.priceDeltaCents) := by
    rw [List.filterMap_map, List.filterMap_eq_map_iff_forall_eq_some]
    intro s hs
    obtain ⟨m, hm, hid, hname, hdelta⟩ := hmem s hs
    rw [Function.comp_apply, hid, hfood m hm, hname, hdelta]
  have hselected : (((menu.selectedModifications ids menuItemID).map MenuItemModificationRow.id).map some).filterMap
      menu.menuFood = (menu.selectedModifications ids menuItemID).map fun m => (m.name, m.priceDeltaCents) := by
    rw [List.map_map, List.filterMap_map, List.filterMap_eq_map_iff_forall_eq_some]
    exact hfood
  rw [← hrows, ← hselected]
  exact (h.exactly.trans (hids.map some)).filterMap menu.menuFood

variable {h : OrderHandlers} {fresh : FreshItem} {id : UUID} {w w' : World Db Time} {ω : OrderStmt → Outcome}

theorem validateItemPatch_ids {body : OrderHandlers.PatchItemRequest} {change : OrderItemUpdate}
    {values : List String} (hchange : h.validateItemPatch body = .ok change)
    (hvalues : body.modificationIDs = some values) :
    ∃ ids, parseIDList h.rt values "modification_ids" = .ok ids ∧ change.modificationIDs = some ids := by
  unfold OrderHandlers.validateItemPatch at hchange
  obtain ⟨quantity, -, hchange⟩ := exceptBind_eq_ok hchange
  obtain ⟨note, -, hchange⟩ := exceptBind_eq_ok hchange
  obtain ⟨modificationIDs, hset, hchange⟩ := exceptBind_eq_ok hchange
  cases hchange
  obtain ⟨hnone, -⟩ | ⟨values', ids, hsome, hparse, rfl⟩ := exceptMapM_eq_ok hset
  · rw [hvalues] at hnone
    cases hnone
  · rw [hvalues] at hsome
    cases hsome
    exact ⟨ids, hparse, rfl⟩

/-- **However the request ends, it has changed nothing, or the item is as the body says.** -/
theorem patchItem_committed (hvalid : w.db.Valid) {r : Request OrderHandlers.PatchItemRequest}
    (hid : h.rt.parseUUID r.iid = some id) {P : List UUID → Prop}
    (hbody : ∀ body, r.body = .ok body → ∃ values ids, body.modificationIDs = some values ∧
      parseIDList h.rt values "modification_ids" = .ok ids ∧ P ids) {res : Except ApiError OrderResponse}
    (hrun : ((h.patchItem fresh r).under Outcome.found).run ω w = (res, w')) :
    (w' = w ∧ ∀ a, res ≠ .ok a) ∨ ∃ ids change, P ids ∧ ItemChanged id change ids w.db w'.db := by
  have haccept : ((h.acceptItemPatch r).under Outcome.found).ReadOnly :=
    Steps.under (h.acceptItemPatch_reads r).readOnly _
  unfold OrderHandlers.patchItem at hrun
  rw [under_bind] at hrun
  obtain ⟨x, hrefused, rfl⟩ | ⟨⟨order, item, principal, change⟩, w₁, haccepted, hupdate⟩ := run_bind_cases hrun
  · have hstate := run_readOnly haccept ω w
    rw [hrefused] at hstate
    exact .inl ⟨hstate, fun a ha => by cases ha⟩
  have hstate := run_readOnly haccept ω w
  rw [haccepted] at hstate
  obtain rfl : w₁ = w := hstate
  obtain ⟨⟨hparse, -⟩, body, hdecoded, hchange⟩ := ((h.acceptItemPatch_returns (I := fun _ => True) r).under
    Outcome.found).run haccept trivial (congrArg Prod.fst haccepted)
  obtain rfl : id = item.id := Option.some.inj (hid.symm.trans hparse)
  obtain ⟨values, ids, hvalues, hread, hids⟩ := hbody body hdecoded
  obtain ⟨ids', hread', hset⟩ := validateItemPatch_ids hchange hvalues
  obtain rfl : ids' = ids := Except.ok.inj (hread'.symm.trans hread)
  dsimp only at hupdate
  rw [under_bind, under_mapError, under_within, run_bind, run_mapError, run_within] at hupdate
  rcases hupdated : ((updateOrderItem h.rt fresh item.id change principal.userID).under Outcome.found).run
    (ω ∘ OrderStmt.updateOrderItem) w₁ with ⟨x | updated, w₂⟩
  · -- the error is passed on
    rw [hupdated] at hupdate
    obtain ⟨rfl, rfl⟩ := Prod.ext_iff.mp hupdate
    obtain ⟨hsame, -⟩ | hchanged := updateOrderItem_committed hvalid hset hupdated
    · exact .inl ⟨hsame, fun a ha => by cases ha⟩
    · exact .inr ⟨_, change, hids, hchanged⟩
  · -- what is announced is only read
    rw [hupdated] at hupdate
    have hreads : (((h.publishItemChange order.id) >>= fun _ =>
        (pure (OrderResponse.item 200 (publicOrderItem updated)) : Handler OrderStmt OrderResponse)).under
          Outcome.found).ReadOnly :=
      Steps.under (Reads.readOnly (.bind (h.publishItemChange_reads order.id) fun _ => .done _)) _
    obtain rfl : w' = w₂ := (congrArg Prod.snd hupdate).symm.trans (run_readOnly hreads ω w₂)
    obtain ⟨-, hnone⟩ | hchanged := updateOrderItem_committed hvalid hset hupdated
    · exact absurd rfl (hnone updated)
    · exact .inr ⟨_, change, hids, hchanged⟩

end Saved

/-! ## What becomes of the food -/

section Food

variable {h : OrderHandlers} {w : World Db Time} {row : OrderItemRow} {i : OrderItem} {e : ItemEdit}

/-- An item that was changed to what was ticked has the same food if the menu has it. -/
theorem ItemChanged.sameFood_iff {change : OrderItemUpdate} {ids : List UUID} {db db' : Db}
    {fetched : Option (List MenuOption)}
    (hvalid : db.Valid) (hrow : db.orderItem row.id = some row) (hchanged : ItemChanged row.id change ids db db')
    (hselected : db.selectedModifications ids row.menuItemID = db.livingTicked row fetched) :
    SameFood row.id db db' ↔ KeepsOptions db row fetched := by
  obtain ⟨old, new, hold, hnew, -, hprice, -, hsnapshots⟩ := hchanged.row
  obtain rfl : row = old := Option.some.inj (hrow.symm.trans hold)
  have hperm := hsnapshots.food_perm hvalid.keys.menuItemModifications
  rw [hselected] at hperm
  constructor
  · intro hsame
    exact hperm.symm.trans hsame.modifications
  · intro hkeeps
    refine ⟨?_, hperm.trans hkeeps⟩
    rw [hnew, hold, Option.map_some, Option.map_some, hprice]

/-- **Editing the quantity or the note of an item keeps its food** if and only if the menu and the options that
were fetched still have it; an edit that is not answered with success has changed nothing, or is the same. -/
theorem editItem_keeps_iff (fresh : FreshItem) (hvalid : w.db.Valid) (hrow : w.db.orderItem row.id = some row)
    (hshown : ItemShown w.db row i) (hexisting : e.existing = publicOrderItem i)
    (hread : ReadsBack h.rt w.db row.id) {ω : OrderStmt → Outcome} {res : Except ApiError (Option OrderResponse)}
    {w' : World Db Time} (hrun : ((h.editItem fresh e).under Outcome.found).run ω w = (res, w')) :
    ((∃ a, res = .ok (some a)) → (SameFood row.id w.db w'.db ↔ KeepsOptions w.db row e.fetched)) ∧
      ((¬ ∃ a, res = .ok (some a)) →
        w' = w ∨ (SameFood row.id w.db w'.db ↔ KeepsOptions w.db row e.fetched)) := by
  unfold OrderHandlers.editItem at hrun
  cases hsent : e.sent with
  | none =>
    rw [hsent] at hrun
    cases hrun
    refine ⟨?_, fun _ => .inl rfl⟩
    rintro ⟨a, ha⟩
    cases ha
  | some r =>
    rw [hsent] at hrun
    dsimp only at hrun
    obtain ⟨hiid, hbody⟩ := ItemEdit.sent_ticked hexisting hshown hsent
    have hid : h.rt.parseUUID r.iid = some row.id := by rw [hiid, hread.item]
    have hticked : ∀ body, r.body = .ok body → ∃ values ids, body.modificationIDs = some values ∧
        parseIDList h.rt values "modification_ids" = .ok ids ∧
          w.db.selectedModifications ids row.menuItemID = w.db.livingTicked row e.fetched := by
      intro body hdecoded
      obtain ⟨ids, hids, hown, hoffered⟩ := hbody body hdecoded
      refine ⟨_, ids, hids, parseIDList_string fun id hid => ?_, selected_ticked hvalid hread hown hoffered⟩
      obtain ⟨s, hs, hsid⟩ := hown id hid
      obtain ⟨m, hm, rfl⟩ := hvalid.refs.snapshotModification s (List.mem_of_mem_filter hs) id hsid
      exact hread.modification m hm
    have hends : (w' = w ∧ ∀ a, res ≠ .ok (some a)) ∨
        (SameFood row.id w.db w'.db ↔ KeepsOptions w.db row e.fetched) := by
      rw [under_bind] at hrun
      obtain ⟨x, hfailed, rfl⟩ | ⟨answer, w₁, hanswered, hdone⟩ := run_bind_cases hrun
      · obtain ⟨hsame, -⟩ | ⟨ids, change, hselected, hchanged⟩ := patchItem_committed hvalid hid hticked hfailed
        · exact .inl ⟨hsame, fun a ha => by cases ha⟩
        · exact .inr (hchanged.sameFood_iff hvalid hrow hselected)
      · cases hdone
        obtain ⟨-, hnone⟩ | ⟨ids, change, hselected, hchanged⟩ := patchItem_committed hvalid hid hticked hanswered
        · exact absurd rfl (hnone answer)
        · exact .inr (hchanged.sameFood_iff hvalid hrow hselected)
    constructor
    · rintro ⟨a, ha⟩
      obtain ⟨-, hnone⟩ | hiff := hends
      · exact absurd ha (hnone a)
      · exact hiff
    · intro _
      exact hends.imp And.left id

end Food

/-! ## A kebab with cheese -/

/-- Anna has ordered the kebab of `lunch` with cheese. -/
def kebabRow : OrderItemRow :=
  { id := ⟨7⟩, orderID := ⟨6⟩, userID := ⟨1⟩, menuItemID := ⟨4⟩, quantity := 1, itemName := "Kebab"
    unitPriceCents := 500, note := none, paid := false, createdAt := 0, updatedAt := 0, updatedBy := none }

def lunchOrdered : Db :=
  { lunch with
    orderItems := [kebabRow]
    orderItemModifications := [{ id := ⟨8⟩, orderItemID := ⟨7⟩, modificationID := some ⟨5⟩, name := "extra cheese"
                                 priceDeltaCents := 100 }] }

def kebabItem : OrderItem :=
  { id := ⟨7⟩, orderID := ⟨6⟩, userID := ⟨1⟩, userName := "anna", menuItemID := ⟨4⟩, quantity := 1, itemName := "Kebab"
    unitPriceCents := 500, note := ""
    modifications := [{ id := ⟨8⟩, orderItemID := ⟨7⟩, modificationID := some ⟨5⟩, name := "extra cheese"
                        priceDeltaCents := 100 }]
    paid := false, createdAt := 0, updatedAt := 0 }

/-- She takes two of them. -/
def twoKebabs (fetched : Option (List MenuOption)) : ItemEdit :=
  { orderID := UUID.string ⟨6⟩, principal := some { userID := ⟨1⟩, isAdmin := false }
    menuItems := [UUID.string ⟨4⟩], existing := publicOrderItem kebabItem, fetched, count := some 2, note := "" }

theorem lunchOrdered_valid : lunchOrdered.Valid where
  keys := by constructor <;> decide +kernel
  refs := by constructor <;> decide +kernel
  checks := by constructor <;> decide +kernel

theorem kebabItem_shown : ItemShown lunchOrdered kebabRow kebabItem := by
  constructor <;> decide +kernel

theorem lunchOrdered_readsBack : ReadsBack Runtime.ascii lunchOrdered ⟨7⟩ := by
  constructor <;> decide +kernel

/-- With its options fetched, it keeps the cheese. -/
theorem editItem_keeps_kebab : ∃ a w',
    ((plainHandlers.editItem ⟨⟨100⟩, fun k => ⟨101 + k⟩⟩
      (twoKebabs (some [⟨UUID.string ⟨5⟩, "extra cheese", 100⟩]))).under Outcome.found).run (fun _ => .ok)
        ⟨lunchOrdered, 5000⟩ = (.ok (some a), w') ∧
    SameFood ⟨7⟩ lunchOrdered w'.db := by
  have hok : (((plainHandlers.editItem ⟨⟨100⟩, fun k => ⟨101 + k⟩⟩
      (twoKebabs (some [⟨UUID.string ⟨5⟩, "extra cheese", 100⟩]))).under Outcome.found).run (fun _ => .ok)
        ⟨lunchOrdered, 5000⟩).1.toOption.join.isSome = true := by decide +kernel
  rcases hrun : ((plainHandlers.editItem ⟨⟨100⟩, fun k => ⟨101 + k⟩⟩
      (twoKebabs (some [⟨UUID.string ⟨5⟩, "extra cheese", 100⟩]))).under Outcome.found).run (fun _ => .ok)
        ⟨lunchOrdered, 5000⟩ with ⟨x | _ | a, w'⟩
  · rw [hrun] at hok
    cases hok
  · rw [hrun] at hok
    cases hok
  · have hkeeps : KeepsOptions lunchOrdered kebabRow (some [⟨UUID.string ⟨5⟩, "extra cheese", 100⟩]) := by
      unfold KeepsOptions
      decide +kernel
    have hrow : lunchOrdered.orderItem kebabRow.id = some kebabRow := by decide +kernel
    exact ⟨a, w', hrun, ((editItem_keeps_iff (w := ⟨lunchOrdered, 5000⟩) _ lunchOrdered_valid hrow kebabItem_shown rfl
      lunchOrdered_readsBack hrun).1 ⟨a, rfl⟩).mpr hkeeps⟩

/-- When the request for the options fails, changing the number of kebabs takes the cheese away. -/
theorem editItem_keeps_not : ¬ ∀ (h : OrderHandlers) (fresh : FreshItem) (w : World Db Time) (row : OrderItemRow)
    (i : OrderItem) (e : ItemEdit) (ω : OrderStmt → Outcome) (res : Except ApiError (Option OrderResponse))
    (w' : World Db Time),
    w.db.Valid → w.db.orderItem row.id = some row → ItemShown w.db row i → e.existing = publicOrderItem i →
    ReadsBack h.rt w.db row.id → ((h.editItem fresh e).under Outcome.found).run ω w = (res, w') →
    SameFood row.id w.db w'.db ∨ ((¬ ∃ a, res = .ok (some a)) ∧ w' = w) := by
  intro hevery
  have hrow : lunchOrdered.orderItem kebabRow.id = some kebabRow := by decide +kernel
  have hlost : (((plainHandlers.editItem ⟨⟨100⟩, fun k => ⟨101 + k⟩⟩ (twoKebabs none)).under Outcome.found).run
      (fun _ => .ok) ⟨lunchOrdered, 5000⟩).2.db.foodOf ⟨7⟩ = [] := by decide +kernel
  have hcheese : lunchOrdered.foodOf ⟨7⟩ = [("extra cheese", 100)] := by decide +kernel
  rcases hrun : ((plainHandlers.editItem ⟨⟨100⟩, fun k => ⟨101 + k⟩⟩ (twoKebabs none)).under Outcome.found).run
    (fun _ => .ok) ⟨lunchOrdered, 5000⟩ with ⟨res, w'⟩
  rw [hrun] at hlost
  have hends := hevery plainHandlers _ ⟨lunchOrdered, 5000⟩ kebabRow kebabItem (twoKebabs none) _ res w'
    lunchOrdered_valid hrow kebabItem_shown rfl lunchOrdered_readsBack hrun
  obtain hsame | ⟨-, hsame⟩ := hends
  · have hlength := hsame.modifications.length_eq
    have hid : kebabRow.id = ⟨7⟩ := rfl
    rw [hid, hlost, hcheese] at hlength
    cases hlength
  · rw [hsame, hcheese] at hlost
    cases hlost

end Doenerstag
