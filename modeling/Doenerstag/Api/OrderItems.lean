import Doenerstag.Api.Orders

/-!
# Order items (`internal/api/orderitems.go`)

The handlers that add, change and delete an item.
-/

namespace Doenerstag

open ReadCommitted

/-- `itemWriteError`: the database layer's item errors as documented codes. -/
def itemWriteError (e : DbError) : ApiError :=
  match e with
  | .wrongRestaurant => .on codeItemWrongRestaurant "menu_item_id"
  | .itemUnavailable => .on codeItemUnavailable "menu_item_id"
  | .itemNotServedThen => .on codeItemNotServedThen "menu_item_id"
  | .modificationWrongItem => .on codeModificationWrongItem "modification_ids"
  | .notFound => .of codeNotFound
  | _ => .of codeDatabaseUnavailable

def validateQuantity (quantity : Int64) : Except ApiError Unit :=
  if quantity < 1 then .error (.on codeQuantityTooSmall "quantity")
  else if maxOrderItemQuantity < quantity then
    .error { code := codeInvalidField, field := "quantity",
             detail := "that is more than anybody orders at lunch" }
  else .ok ()

/-- The item's owner or the administrator. -/
def requireItemOwner (principal : Option Principal) (item : OrderItem) :
    Except ApiError Principal := do
  let p ← requireAuthenticated principal
  if !p.is item.userID && !p.isAdmin then
    throw (.of codeNotItemOwner)
  pure p

namespace OrderHandlers

variable (h : OrderHandlers)

/-- Both path parameters, and the item is in the order. -/
def lookupOrderItem {β : Type} (r : Request β) : Handler OrderStmt (Order × OrderItem) := do
  let order ← h.lookupOrder r
  let item ← (loadParam h.rt r.iid (orderItemByID h.rt)).within .item
  Prog.require (item.orderID == order.id) (.of codeNotFound)
  pure (order, item)

/-- `publishItemChange`, as far as the database sees it: a count, whose failure is ignored. -/
def publishItemChange (orderID : UUID) : Handler OrderStmt Unit := do
  if h.events then
    let _ ← (countOrderItems .publish orderID).succeeds

/-! ## Adding -/

structure AddItemRequest where
  menuItemID : String
  quantity : Int64
  note : String
  modificationIDs : List String
  deriving DecidableEq, Repr

def validateNewItem (orderID userID : UUID) (body : AddItemRequest) :
    Except ApiError NewOrderItem := do
  let menuItemID ← requiredUUID h.rt body.menuItemID "menu_item_id"
  validateQuantity body.quantity
  validateFreeText body.note "note" maxOrderNoteLength
  let modificationIDs ← parseIDList h.rt body.modificationIDs "modification_ids"
  return {
    orderID := orderID
    userID := userID
    menuItemID := menuItemID
    quantity := body.quantity
    note := trimSpace body.note
    modificationIDs := modificationIDs }

theorem validateNewItem_orderID {orderID userID : UUID} {body : AddItemRequest}
    {item : NewOrderItem} (hitem : h.validateNewItem orderID userID body = .ok item) :
    item.orderID = orderID := by
  simp only [validateNewItem, bind, Except.bind, pure, Except.pure] at hitem
  repeat' split at hitem
  all_goals cases hitem
  rfl

/-- `addItem` up to `AddOrderItem`. -/
def acceptNewItem (r : Request AddItemRequest) : Handler OrderStmt NewOrderItem := do
  let order ← h.lookupOrder r
  let principal ← .ofExcept (requireAuthenticated r.principal)
  requireActive order
  let body ← .ofExcept r.body
  .ofExcept (h.validateNewItem order.id principal.userID body)

def addItem (fresh : FreshItem) (r : Request AddItemRequest) :
    Handler OrderStmt OrderResponse := do
  let item ← h.acceptNewItem r
  let created ← ((addOrderItem h.rt fresh item).within .addOrderItem).mapError itemWriteError
  h.publishItemChange item.orderID
  pure (.item 201 (publicOrderItem created))

/-! ## Changing -/

/-- The modifications count as sent when the key is in the body, whatever it holds. -/
structure PatchItemRequest where
  quantity : Option Int64
  note : Option String
  modificationIDs : Option (List String)
  deriving DecidableEq, Repr

def validateItemPatch (body : PatchItemRequest) : Except ApiError OrderItemUpdate := do
  let quantity ← body.quantity.mapM fun q => do
    validateQuantity q
    pure q
  let note ← body.note.mapM fun note => do
    validateFreeText note "note" maxOrderNoteLength
    pure (trimSpace note)
  let modificationIDs ← body.modificationIDs.mapM fun ids =>
    parseIDList h.rt ids "modification_ids"
  return { quantity, note, modificationIDs }

/-- `patchItem` and `deleteItem` up to the body: the item, and who is changing it. Authentication,
then the deadline, then ownership. -/
def acceptItemWrite {β : Type} (r : Request β) :
    Handler OrderStmt (Order × OrderItem × Principal) := do
  let (order, item) ← h.lookupOrderItem r
  let _ ← Prog.ofExcept (requireAuthenticated r.principal)
  requireActive order
  let principal ← .ofExcept (requireItemOwner r.principal item)
  pure (order, item, principal)

/-- `patchItem` up to `UpdateOrderItem`. -/
def acceptItemPatch (r : Request PatchItemRequest) :
    Handler OrderStmt (Order × OrderItem × Principal × OrderItemUpdate) := do
  let (order, item, principal) ← h.acceptItemWrite r
  let body ← .ofExcept r.body
  let change ← .ofExcept (h.validateItemPatch body)
  pure (order, item, principal, change)

def patchItem (fresh : FreshItem) (r : Request PatchItemRequest) :
    Handler OrderStmt OrderResponse := do
  let (order, item, principal, change) ← h.acceptItemPatch r
  let updated ← ((updateOrderItem h.rt fresh item.id change principal.userID).within
    .updateOrderItem).mapError itemWriteError
  h.publishItemChange order.id
  pure (.item 200 (publicOrderItem updated))

/-! ## Deleting -/

/-- `deleteItem`. Nothing is decoded: the request has no body. -/
def deleteItem (r : Request Unit) : Handler OrderStmt OrderResponse := do
  let (order, item, _) ← h.acceptItemWrite r
  (deleteOrderItem .deleteOrderItem item.id).mapError fun e =>
    if e = .notFound then .of codeNotFound else .of codeDatabaseUnavailable
  h.publishItemChange order.id
  pure .noContent

/-! ## What the handlers read -/

theorem lookupOrderItem_reads {β : Type} (r : Request β) :
    (h.lookupOrderItem r).Reads fun _ => True := by
  refine .bind ((h.lookupOrder_reads r).mono fun _ _ => trivial) fun order => ?_
  refine .bind ((loadParam_reads fun id => orderItemByID_reads h.rt id).within) fun item => ?_
  exact .bind (.require _ _) fun _ => .done _

theorem publishItemChange_reads (orderID : UUID) :
    (h.publishItemChange orderID).Reads (· = .publish) := by
  unfold publishItemChange
  split_ifs
  · exact .bind (countOrderItems_reads (L := fun l => l = OrderStmt.publish) rfl orderID).succeeds
      fun _ => .done _
  · exact .done _

theorem acceptNewItem_reads (r : Request AddItemRequest) :
    (h.acceptNewItem r).Reads fun _ => True := by
  refine .bind ((h.lookupOrder_reads r).mono fun _ _ => trivial) fun order => ?_
  refine .bind (.ofExcept _) fun _ => ?_
  refine .bind ((requireActive_reads order).mono fun _ _ => trivial) fun _ => ?_
  exact .bind (.ofExcept _) fun _ => .ofExcept _

theorem acceptItemWrite_reads {β : Type} (r : Request β) :
    (h.acceptItemWrite r).Reads fun _ => True := by
  refine .bind (h.lookupOrderItem_reads r) fun found => .bind (.ofExcept _) fun _ => ?_
  refine .bind ((requireActive_reads found.1).mono fun _ _ => trivial) fun _ => ?_
  exact .bind (.ofExcept _) fun _ => .done _

theorem acceptItemPatch_reads (r : Request PatchItemRequest) :
    (h.acceptItemPatch r).Reads fun _ => True := by
  refine .bind (h.acceptItemWrite_reads r) fun accepted => ?_
  exact .bind (.ofExcept _) fun _ => .bind (.ofExcept _) fun _ => .done _

/-! ## What they accept -/

/-- The item is the one that the path names, and can be read. -/
theorem lookupOrderItem_returns {I : World Db Time → Prop} {β : Type} (r : Request β) :
    (h.lookupOrderItem r).Returns I fun found => h.rt.parseUUID r.iid = some found.2.id ∧
      ∃ w, I w ∧ ∃ i, w.db.orderItem found.2.id = some i ∧ (w.db.userByID i.userID).isSome := by
  refine .bind (.trivially _) fun _ _ => .bind (A := fun item => h.rt.parseUUID r.iid = some item.id ∧
    ∃ w, I w ∧ ∃ i, w.db.orderItem item.id = some i ∧ (w.db.userByID i.userID).isSome) (.within ?_ _)
    fun _ hfound => .bind (.trivially _) fun _ _ => Prog.returns_done.mpr hfound
  unfold loadParam
  cases h.rt.parseUUID r.iid with
  | none => exact Prog.returns_fail _
  | some id =>
    refine ((orderItemByID_returns h.rt id).mono ?_).mapError _
    rintro item ⟨w, hw, i, hi, huser, hid, -⟩
    rw [hid, Db.orderItem_id _ hi]
    exact ⟨rfl, w, hw, i, hi, huser⟩

/-- And the change is what the body says. -/
theorem acceptItemPatch_returns {I : World Db Time → Prop} (r : Request PatchItemRequest) :
    (h.acceptItemPatch r).Returns I fun accepted =>
      (h.rt.parseUUID r.iid = some accepted.2.1.id ∧
        ∃ w, I w ∧ ∃ i, w.db.orderItem accepted.2.1.id = some i ∧ (w.db.userByID i.userID).isSome) ∧
        ∃ body, r.body = .ok body ∧ h.validateItemPatch body = .ok accepted.2.2.2 := by
  have hwrite : (h.acceptItemWrite r).Returns I fun accepted => h.rt.parseUUID r.iid = some accepted.2.1.id ∧
      ∃ w, I w ∧ ∃ i, w.db.orderItem accepted.2.1.id = some i ∧ (w.db.userByID i.userID).isSome :=
    .bind (h.lookupOrderItem_returns r) fun _ hfound => .bind (.trivially _) fun _ _ =>
      .bind (.trivially _) fun _ _ => .bind (.trivially _) fun _ _ => Prog.returns_done.mpr hfound
  refine .bind hwrite fun accepted hfound => .bind (.ofExcept fun body hbody => hbody) fun body hbody => ?_
  refine .bind (.ofExcept fun change hchange => hchange) fun change hchange => ?_
  exact Prog.returns_done.mpr ⟨hfound, body, hbody, hchange⟩

end OrderHandlers

end Doenerstag
