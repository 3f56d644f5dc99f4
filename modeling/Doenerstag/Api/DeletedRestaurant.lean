import Doenerstag.Api.Orders
import Doenerstag.Db.Restaurants

/-!
# No order at a deleted restaurant (F3.5)

A restaurant that an order refers to is not deleted, and an order is not placed at a restaurant that
is. Each request looks before it writes: creating an order and deleting a restaurant at the snapshot
of their one statement, a PATCH of an order some statements before. Side by side, two requests can
look past each other.

* `RestaurantCall` — creating an order, a PATCH of one, deleting a restaurant (`remove`,
  `internal/api/restaurants.go`).
* `RestaurantCall.Rely` — between its look at a restaurant and its commit nobody deletes it, and
  nobody places an order at the one a deletion is about.
* `AtLiving` — the invariant: every order is at a restaurant that is not deleted.
* `atLiving_run` — **along every run that keeps to the relies, every committed state is so.**
* `atLiving_broken` — a run that does not.
-/

namespace Doenerstag

open ReadCommitted Prog

/-! ## Deleting a restaurant -/

inductive RemoveRestaurantStmt where
  /-- `lookupRestaurant` -/
  | restaurant
  | softDelete (s : SoftDeleteStmt)
  deriving DecidableEq, Repr

/-- `RestaurantHandlers`, what the server is linked with. -/
structure RestaurantHandlers where
  rt : Runtime

namespace RestaurantHandlers

variable (h : RestaurantHandlers)

def lookupRestaurant {β : Type} (r : Request β) : Handler RemoveRestaurantStmt RestaurantRow :=
  loadParam h.rt r.id (restaurantByID .restaurant)

def removeError (e : DbError) : ApiError :=
  if e = .stillReferenced then .of codeRestaurantInUse else dbError e

/-- `remove`, for the administrator only. -/
def remove (r : Request Unit) : Handler RemoveRestaurantStmt Unit := do
  let restaurant ← h.lookupRestaurant r
  let principal ← .ofExcept (requireAdmin r.principal)
  ((softDeleteRestaurant restaurant.id principal.userID).within .softDelete).mapError removeError

end RestaurantHandlers

/-! ## Creating an order -/

inductive PlaceOrderStmt where
  | accept (s : OrderStmt)
  | insert (s : CreateOrderSeenStmt)
  | detail (s : DetailStmt)
  deriving DecidableEq, Repr

/-- `create`, the insert in two steps. -/
def OrderHandlers.createSeen (h : OrderHandlers) (id : UUID) (r : Request CreateOrderRequest) :
    Handler PlaceOrderStmt OrderResponse := do
  let order ← (h.acceptNewOrder r).within .accept
  let created ← ((createOrderSeen id order).within .insert).mapError createError
  (h.writeDetail created 201).within .detail

/-! ## The calls -/

/-- A request that places an order, moves one, or deletes a restaurant. -/
inductive RestaurantCall where
  | place (id : UUID) (r : Request OrderHandlers.CreateOrderRequest)
  | patch (r : Request OrderHandlers.PatchOrderRequest)
  | remove (r : Request Unit)

inductive RestaurantCallStmt where
  | place (s : PlaceOrderStmt)
  | patch (s : OrderStmt)
  | remove (s : RemoveRestaurantStmt)
  deriving DecidableEq, Repr

namespace RestaurantCall

def serve (h : OrderHandlers) : RestaurantCall → Handler RestaurantCallStmt Unit
  | place id r => do
    let _ ← (h.createSeen id r).within .place
  | patch r => do
    let _ ← (h.patch r).within .patch
  | remove r => (RestaurantHandlers.remove { rt := h.rt } r).within .remove

/-- The restaurant a request names, when it names one. -/
def named (h : OrderHandlers) : RestaurantCall → Option UUID
  | place _ r => do
    let body ← r.body.toOption
    (requiredUUID h.rt body.restaurantID "restaurant_id").toOption
  | patch r => do
    let body ← r.body.toOption
    let value ← body.restaurantID
    (requiredUUID h.rt value "restaurant_id").toOption
  | remove r => h.rt.parseUUID r.id

end RestaurantCall

/-! ## What a call relies on -/

/-- The restaurant is not deleted. -/
def Living (id : UUID) (w : World Db Time) : Prop :=
  ∀ r ∈ w.db.restaurants, r.id = id → r.deletedAt = none

/-- Nobody deletes the restaurant. -/
def LivingStays (id : UUID) (w w' : World Db Time) : Prop := Living id w → Living id w'

/-- Nobody places the first order at the restaurant. -/
def UnusedStays (id : UUID) (w w' : World Db Time) : Prop :=
  w.db.restaurantInUse id = false → w'.db.restaurantInUse id = false

/-- What a statement of a call about that restaurant relies on while it waits. -/
def RestaurantCallStmt.Rely (id : UUID) : RestaurantCallStmt → World Db Time → World Db Time → Prop
  -- after the snapshot of the insert
  | .place (.insert .commit) => LivingStays id
  -- after the restaurant was found to exist
  | .patch .moneyCollector => LivingStays id
  | .patch .pickupPerson => LivingStays id
  | .patch (.updateOrder .update) => LivingStays id
  -- after the restaurant was found to be in nobody's order
  | .remove (.softDelete .commit) => UnusedStays id
  | _ => fun _ _ => True

/-- The same for a call that may name none. -/
def RestaurantRely (about : Option UUID) (l : RestaurantCallStmt) (w w' : World Db Time) : Prop :=
  ∀ id, about = some id → l.Rely id w w'

/-- Every order is at a restaurant that is not deleted. -/
structure AtLiving (w : World Db Time) : Prop where
  keys : (w.db.restaurants.map RestaurantRow.id).Nodup
  orders : ∀ o ∈ w.db.foodOrders, Living o.restaurantID w

/-! ## What the writes leave -/

section Writes

variable {w : World Db Time}

theorem AtLiving.living (h : AtLiving w) {id : UUID} (hexists : w.db.restaurantExists id = true) :
    Living id w := by
  obtain ⟨r, hr, hliving⟩ := List.any_eq_true.mp hexists
  rw [Bool.and_eq_true, beq_iff_eq, Option.isNone_iff_eq_none] at hliving
  intro s hs hid
  have hsame : s = r := List.inj_on_of_nodup_map h.keys hs hr (hid.trans hliving.1.symm)
  rw [hsame]
  exact hliving.2

/-- A new order at a restaurant that is not deleted. -/
theorem AtLiving.insert (h : AtLiving w) {id : UUID} {order : NewOrder} {now : Time} {seen : Db}
    {r : Db × Nat} (hliving : seen.restaurantExists order.restaurantID = true →
      Living order.restaurantID w)
    (hu : Db.insertFoodOrderSeen id order now seen w.db = .ok r) : AtLiving { w with db := r.1 } := by
  unfold Db.insertFoodOrderSeen at hu
  cases hfound : seen.restaurants.find? fun r =>
      r.id == order.restaurantID && r.deletedAt.isNone with
  | none =>
    simp only [hfound] at hu
    cases hu
    exact h
  | some found =>
    simp only [hfound] at hu
    split_ifs at hu
    cases hu
    have hselected := List.find?_some hfound
    have hexists : seen.restaurantExists order.restaurantID = true :=
      List.any_eq_true.mpr ⟨found, List.mem_of_find?_eq_some hfound, hselected⟩
    have hid : found.id = order.restaurantID := by
      rw [Bool.and_eq_true, beq_iff_eq] at hselected
      exact hselected.1
    refine ⟨h.keys, fun o ho => ?_⟩
    rcases List.mem_append.mp ho with hold | hnew
    · exact h.orders o hold
    · rw [List.mem_singleton.mp hnew]
      show Living found.id w
      rw [hid]
      exact hliving hexists

/-- An order that is changed, and moves to a restaurant that is not deleted if it moves. -/
theorem AtLiving.update (h : AtLiving w) {id actor : UUID} {change : OrderUpdate} {now : Time}
    {r : Db × Nat} (hliving : ∀ restaurantID, change.restaurantID = some restaurantID →
      Living restaurantID w)
    (hu : Db.updateFoodOrder id actor change now w.db = .ok r) : AtLiving { w with db := r.1 } := by
  unfold Db.updateFoodOrder at hu
  cases hfound : w.db.foodOrder id with
  | none =>
    simp only [hfound] at hu
    cases hu
    exact h
  | some o =>
    simp only [hfound] at hu
    split_ifs at hu
    · cases hu
      exact h
    cases hnew : w.db.changedFoodOrder actor change now o with
    | error x => simp [hnew, Except.map] at hu
    | ok new =>
      simp only [hnew, Except.map, Except.ok.injEq] at hu
      subst hu
      obtain ⟨-, hrestaurant, -⟩ := Db.changedFoodOrder_eq_ok hnew
      refine ⟨h.keys, fun p hp => ?_⟩
      obtain ⟨q, hq, rfl⟩ := List.mem_map.mp hp
      show Living (if q.id == id then new else q).restaurantID w
      split_ifs
      · rw [hrestaurant]
        cases hchange : change.restaurantID with
        | none => exact h.orders o (List.mem_of_find?_eq_some hfound)
        | some restaurantID => exact hliving restaurantID hchange
      · exact h.orders q hq

/-- A restaurant is deleted that no order refers to. -/
theorem AtLiving.softDelete (h : AtLiving w) {id actor : UUID} {now : Time} {seen : Db} {r : Db × Nat}
    (hunused : seen.restaurantInUse id = false → w.db.restaurantInUse id = false)
    (hu : Db.softDeleteRestaurant id actor now seen w.db = .ok r) :
    AtLiving { w with db := r.1 } := by
  unfold Db.softDeleteRestaurant at hu
  simp only at hu
  split_ifs at hu with hnone hactor
  · cases hu
    exact h
  · cases hu
    simp only [Bool.or_eq_true, not_or, Bool.not_eq_true] at hnone
    have hfree := hunused hnone.1.2
    have hid : ∀ r : RestaurantRow, (if r.id == id && r.deletedAt.isNone then
        RestaurantRow.softDelete now r else r).id = r.id := by
      intro r
      split_ifs <;> rfl
    constructor
    case keys =>
      show ((w.db.restaurants.map _).map RestaurantRow.id).Nodup
      rw [List.map_map]
      exact (List.map_congr_left fun r _ => hid r).symm ▸ h.keys
    case orders =>
      intro o ho r hr hsame
      obtain ⟨s, hs, rfl⟩ := List.mem_map.mp hr
      rw [hid] at hsame
      -- the restaurant of an order is not the one that goes
      have hother : s.id ≠ id := by
        intro heq
        have hused : w.db.restaurantInUse id = true :=
          List.any_eq_true.mpr ⟨o, ho, beq_iff_eq.mpr (hsame.symm.trans heq)⟩
        rw [hfree] at hused
        cases hused
      simp only [beq_eq_false_iff_ne.mpr hother, Bool.false_and]
      exact h.orders o ho s hs hsame

end Writes

/-! ## The calls hold -/

section Calls

variable (h : OrderHandlers) {R : RestaurantCallStmt → World Db Time → World Db Time → Prop}

/-- Nothing is asked of a single step but that it keeps the invariant. -/
def Anything {ℓ : Type} (_ : ℓ) (_ _ : World Db Time) : Prop := True

theorem holds_reading {ℓ χ α : Type} {R : ℓ → World Db Time → World Db Time → Prop} {L : ℓ → Prop}
    {p : Program ℓ Db Time χ α} (hp : p.Reads L) (w : World Db Time) :
    p.Holds AtLiving R Anything (Ends fun _ _ => True) w :=
  (hp.holds (fun _ _ _ _ => trivial) w).mono fun _ _ _ _ _ => trivial

/-- The order that `create` accepts is at the restaurant the request names. -/
theorem acceptNewOrder_named {I : World Db Time → Prop} (id : UUID)
    (r : Request OrderHandlers.CreateOrderRequest) :
    (h.acceptNewOrder r).Returns I fun order =>
      (RestaurantCall.place id r).named h = some order.restaurantID := by
  refine .bind (.trivially _) fun _ _ => ?_
  refine .bind (.ofExcept (A := fun body => r.body = .ok body) fun _ hbody => hbody)
    fun body hbody => ?_
  refine .bind (.ofExcept (A := fun id => requiredUUID h.rt body.restaurantID "restaurant_id" = .ok id)
    fun _ hid => hid) fun restaurantID hid => ?_
  refine .bind (.trivially _) fun _ _ => .bind (.trivially _) fun _ _ => ?_
  refine .bind (.trivially _) fun _ _ => .bind (.trivially _) fun _ _ => ?_
  refine .bind (.trivially _) fun _ _ => .bind (.trivially _) fun _ _ => ?_
  refine .bind (.trivially _) fun _ _ => .bind (.trivially _) fun _ _ => returns_done.mpr ?_
  show (r.body.toOption.bind fun body => (requiredUUID h.rt body.restaurantID _).toOption) = _
  rw [hbody]
  exact congrArg Except.toOption hid

theorem holds_place (id : UUID) (r : Request OrderHandlers.CreateOrderRequest) (w : World Db Time) :
    (h.createSeen id r).Holds AtLiving
      (fun l => RestaurantRely ((RestaurantCall.place id r).named h) (.place l)) Anything
      (Ends fun _ _ => True) w := by
  refine holds_seq (M := fun order _ =>
    (RestaurantCall.place id r).named h = some order.restaurantID) ?_ ?_
  · have hreads : ((h.acceptNewOrder r).within PlaceOrderStmt.accept).Reads fun _ => True :=
      Reads.within ((h.acceptNewOrder_reads r).mono fun _ _ => trivial)
    exact (hreads.ends (F := fun _ => True) ((acceptNewOrder_named h id r).within _)
      (fun _ _ _ _ _ _ => trivial) (fun _ _ _ _ => trivial) trivial).mono
      fun _ _ hend a ha => (hend a ha).2
  · intro order w hnamed
    refine holds_seq (M := fun _ _ => True) (ends_mapError (holds_within ?_)) fun created w _ =>
      holds_reading (L := fun _ => True) (h.writeDetail_reads created 201).within w
    refine holds_seq (M := fun _ _ => True) (ends_mapError ?_) fun _ w _ =>
      holds_reading (orderByID_reads (L := fun _ => True) trivial id) w
    -- the restaurant that is seen is still there at the commit
    refine holds_execSeen (fun w₀ w => w₀.db.restaurantExists order.restaurantID = true →
      Living order.restaurantID w) (fun _ _ => trivial) (fun w hI => hI.living) ?_ ?_
    · intro w₀ w w' hR hF hexists
      exact hR order.restaurantID hnamed (hF hexists)
    · intro w₀ w r hI hF hu
      exact ⟨hI.insert hF hu, trivial⟩

/-- The look of a PATCH at the restaurant it names. -/
theorem holds_validateRestaurant (order : Order) (value : String) {about : Option UUID}
    (habout : about = (requiredUUID h.rt value "restaurant_id").toOption) (w : World Db Time) :
    (h.validateRestaurant order value).Holds AtLiving (fun l => RestaurantRely about (.patch l))
      Anything (Ends fun id w => about = some id ∧ Living id w) w := by
  refine holds_seq (holds_reading ((countOrderItems_reads (L := fun _ => True) trivial _).mapError _)
    w) fun _ w _ => ?_
  refine holds_seq (M := fun _ _ => True) (ends_require fun _ => trivial) fun _ w _ => ?_
  refine holds_seq (M := fun id _ => about = some id) (ends_ofExcept fun id hid => ?_)
    fun id w hid => ?_
  · rw [habout, hid]
    rfl
  refine holds_seq (M := fun found w => found = true → Living id w)
    (ends_mapError (ends_mapError (holds_read fun w' _ hI => ⟨trivial, fun e found hfound => ?_⟩)))
    fun found w hliving => ?_
  · intro htrue
    rw [htrue] at hfound
    exact hI.living (Option.some.inj (Outcome.row_eq_ok hfound))
  · exact holds_seq (M := fun _ w => Living id w) (ends_require hliving) fun _ w hliving =>
      ends_done ⟨hid, hliving⟩

/-- What a PATCH knows of the restaurant it moves an order to. -/
def MovesTo (about : Option UUID) (restaurantID : Option UUID) (w : World Db Time) : Prop :=
  ∀ id, restaurantID = some id → about = some id ∧ Living id w

theorem holds_userRef {l : OrderStmt} {value field : String} {about restaurantID : Option UUID}
    (hl : ∀ w w', RestaurantRely about (.patch l) w w' →
      ∀ id, about = some id → LivingStays id w w') {w : World Db Time}
    (hmoves : MovesTo about restaurantID w) :
    (h.optionalUserRef l value field).Holds AtLiving (fun l => RestaurantRely about (.patch l))
      Anything (Ends fun _ w => MovesTo about restaurantID w) w := by
  have hreads := h.optionalUserRef_reads (L := (· = l)) rfl value field
  refine (hreads.ends (F := MovesTo about restaurantID) (A := fun _ => True) (.trivially _) ?_
    (fun _ _ _ _ => trivial) hmoves).mono fun _ _ hend a ha => (hend a ha).1
  rintro _ w w' rfl hR hmoves id hid
  obtain ⟨habout, hliving⟩ := hmoves id hid
  exact ⟨habout, hl w w' hR id habout hliving⟩

/-- A field that keeps a fact when it is there keeps it. -/
theorem ends_whenPresent {α β ℓ : Type} {R : ℓ → World Db Time → World Db Time → Prop}
    {F : World Db Time → Prop} {field : Option α} {check : α → Handler ℓ β} {w : World Db Time}
    (hF : F w) (hcheck : ∀ v, (check v).Holds AtLiving R Anything (Ends fun _ w => F w) w) :
    (whenPresent field check).Holds AtLiving R Anything (Ends fun _ w => F w) w := by
  cases field with
  | none => exact ends_done hF
  | some v => exact holds_seq (hcheck v) fun _ w hF => ends_done hF

theorem holds_validateOrderPatch (order : Order) (r : Request OrderHandlers.PatchOrderRequest)
    {body : OrderHandlers.PatchOrderRequest} (hbody : r.body = .ok body) (w : World Db Time) :
    (h.validateOrderPatch order body).Holds AtLiving
      (fun l => RestaurantRely ((RestaurantCall.patch r).named h) (.patch l)) Anything
      (Ends fun change w => MovesTo ((RestaurantCall.patch r).named h) change.restaurantID w) w := by
  have hnamed : (RestaurantCall.patch r).named h =
      body.restaurantID.bind fun v => (requiredUUID h.rt v "restaurant_id").toOption := by
    show (r.body.toOption.bind fun body => body.restaurantID.bind fun v => _) = _
    rw [hbody]
    rfl
  refine holds_seq (M := fun restaurantID w =>
    MovesTo ((RestaurantCall.patch r).named h) restaurantID w) ?_ fun restaurantID w hmoves => ?_
  · cases hrestaurant : body.restaurantID with
    | none => exact ends_done fun id hid => by cases hid
    | some v =>
      rw [hrestaurant] at hnamed
      refine holds_seq (holds_validateRestaurant h order v hnamed w) fun id w hid => ends_done ?_
      rintro _ ⟨⟩
      exact hid
  -- the other fields, of which those that name an account wait for a statement
  refine holds_seq (ends_whenPresent hmoves fun _ => ends_ofExcept fun _ _ => hmoves) fun _ w hmoves => ?_
  refine holds_seq (ends_whenPresent hmoves fun _ => ends_ofExcept fun _ _ => hmoves) fun _ w hmoves => ?_
  refine holds_seq (ends_whenPresent hmoves fun _ => ends_ofExcept fun _ _ => hmoves) fun _ w hmoves => ?_
  refine holds_seq (M := fun _ w => MovesTo ((RestaurantCall.patch r).named h) restaurantID w)
    (ends_ofExcept fun _ _ => hmoves) fun _ w hmoves => ?_
  refine holds_seq (ends_whenPresent hmoves fun _ =>
    holds_userRef h (l := .moneyCollector) (fun _ _ hR => hR) hmoves) fun _ w hmoves => ?_
  refine holds_seq (ends_whenPresent hmoves fun _ =>
    holds_userRef h (l := .pickupPerson) (fun _ _ hR => hR) hmoves) fun _ w hmoves => ?_
  exact ends_done hmoves

theorem holds_patchOrder (r : Request OrderHandlers.PatchOrderRequest) (w : World Db Time) :
    (h.patch r).Holds AtLiving
      (fun l => RestaurantRely ((RestaurantCall.patch r).named h) (.patch l)) Anything
      (Ends fun _ _ => True) w := by
  refine holds_seq (M := fun accepted w =>
    MovesTo ((RestaurantCall.patch r).named h) accepted.2.2.restaurantID w) ?_ ?_
  · refine holds_seq (holds_reading (h.lookupOrder_reads r) w) fun order w _ => ?_
    refine holds_seq (M := fun _ _ => True) (ends_ofExcept fun _ _ => trivial) fun p w _ => ?_
    refine holds_seq (holds_reading (OrderHandlers.requireActive_reads order) w) fun _ w _ => ?_
    refine holds_seq (M := fun body _ => r.body = .ok body) (ends_ofExcept fun body hbody => hbody)
      fun body w hbody => ?_
    exact holds_seq (holds_validateOrderPatch h order r hbody w) fun change w hmoves =>
      ends_done hmoves
  · rintro ⟨order, actor, change⟩ w hmoves
    refine holds_seq (M := fun _ _ => True) (ends_mapError (holds_within ?_)) fun updated w _ =>
      holds_reading (L := fun _ => True) (h.writeDetail_reads updated 200).within w
    refine updateOrder_holds ?_ fun _ _ _ _ => trivial
    refine holds_write fun w' hwait hI e => ?_
    have hkeeps : ∀ w w', RestaurantRely ((RestaurantCall.patch r).named h)
        (.patch (.updateOrder .update)) w w' →
        MovesTo ((RestaurantCall.patch r).named h) change.restaurantID w →
        MovesTo ((RestaurantCall.patch r).named h) change.restaurantID w' := by
      intro w w' hR hmoves id hid
      obtain ⟨habout, hliving⟩ := hmoves id hid
      exact ⟨habout, hR id habout hliving⟩
    have hmoves' := star_keeps hkeeps hwait hmoves
    refine ⟨?_, trivial, fun _ _ => trivial⟩
    cases hchanged : e.changed w'.db (w'.db.updateFoodOrder order.id actor change w'.now) with
    | error x => exact hI
    | ok result =>
      rcases Outcome.changed_eq_ok hchanged with hsame | hu
      · show AtLiving { w' with db := result.1 }
        rw [hsame]
        exact hI
      · exact hI.update (fun id hid => (hmoves' id hid).2) hu

theorem holds_remove (r : Request Unit) (w : World Db Time) :
    (RestaurantHandlers.remove { rt := h.rt } r).Holds AtLiving
      (fun l => RestaurantRely ((RestaurantCall.remove r).named h) (.remove l)) Anything
      (Ends fun _ _ => True) w := by
  refine holds_seq (M := fun restaurant _ => h.rt.parseUUID r.id = some restaurant.id) ?_ ?_
  · unfold RestaurantHandlers.lookupRestaurant loadParam
    cases hparse : h.rt.parseUUID r.id with
    | none => exact ends_fail _ w
    | some id =>
      refine ends_mapError (ends_mapError (holds_read fun w' _ _ => ⟨trivial, fun e row hrow => ?_⟩))
      have hselected := List.find?_some (Outcome.row_eq_ok hrow)
      rw [Bool.and_eq_true, beq_iff_eq] at hselected
      exact congrArg some hselected.1.symm
  intro restaurant w hnamed
  refine holds_seq (M := fun _ _ => True) (ends_ofExcept fun _ _ => trivial) fun p w _ => ?_
  refine ends_mapError (holds_within ?_)
  refine holds_seq (M := fun _ _ => True) (ends_mapError ?_) fun rows w _ => ?_
  · refine holds_execSeen (fun w₀ w => w₀.db.restaurantInUse restaurant.id = false →
      w.db.restaurantInUse restaurant.id = false) (fun _ _ => trivial) (fun _ _ hfree => hfree) ?_ ?_
    · intro w₀ w w' hR hF hfree
      exact hR restaurant.id hnamed (hF hfree)
    · intro w₀ w r hI hF hu
      exact ⟨hI.softDelete hF hu, trivial⟩
  · split_ifs
    · exact ends_done trivial
    · refine holds_seq (holds_reading ((queryRow_reads (L := fun _ => True) trivial).mapError _) w)
        fun _ w _ => ends_fail _ w

/-- **A call holds**: within its relies, no order is left at a deleted restaurant. -/
theorem RestaurantCall.holds (call : RestaurantCall) (w : World Db Time) :
    (call.serve h).Holds AtLiving (RestaurantRely (call.named h)) Anything (fun _ _ => True) w := by
  cases call with
  | place id r =>
    refine Holds.ends (M := fun _ _ => True) (holds_seq (holds_within (holds_place h id r w)) ?_)
    exact fun _ _ _ => ends_done trivial
  | patch r =>
    refine Holds.ends (M := fun _ _ => True) (holds_seq (holds_within (holds_patchOrder h r w)) ?_)
    exact fun _ _ _ => ends_done trivial
  | remove r => exact (holds_within (holds_remove h r w)).ends

end Calls

/-! ## The system -/

/-- The calls at their start. A statement is labelled with the restaurant its call names. -/
def arrivedCalls {ι : Type} (h : OrderHandlers) (calls : ι → RestaurantCall) (w : World Db Time) :
    Config ι (Option UUID × RestaurantCallStmt) Outcome (World Db Time) ApiError Unit where
  state := w
  procs := fun i => ((calls i).serve h).within fun l => ((calls i).named h, l)

/-- **No order is placed at a deleted restaurant**, along every run in which nobody deletes a
restaurant between another's look at it and the commit, and nobody places an order at one between
the deletion's look and its commit. -/
theorem atLiving_run {ι : Type} [DecidableEq ι] (h : OrderHandlers) (calls : ι → RestaurantCall)
    (w : World Db Time) (hliving : AtLiving w)
    {c : Config ι (Option UUID × RestaurantCallStmt) Outcome (World Db Time) ApiError Unit}
    (hrun : Run OnlyTime (fun l => RestaurantRely l.1 l.2) (arrivedCalls h calls w) c) :
    AtLiving c.state := by
  have hsafe : (arrivedCalls h calls w).Safe AtLiving (fun l => RestaurantRely l.1 l.2) Anything :=
    ⟨hliving, fun i => holds_within ((calls i).holds h w)⟩
  have htime : ∀ w₁ w₂ : World Db Time, OnlyTime w₁ w₂ → AtLiving w₁ → AtLiving w₂ := by
    intro w₁ w₂ hsame hI
    rw [OnlyTime] at hsame
    constructor
    · rw [hsame]
      exact hI.keys
    · intro o ho r hr
      rw [hsame] at ho hr
      exact hI.orders o ho r hr
  exact (hsafe.run htime hrun).inv

/-! ## An order at the Trattoria -/

/-- Anna places an order at the Trattoria of `lunch`. -/
def orderAtTrattoria : RestaurantCall :=
  .place ⟨9⟩
    { id := "", iid := "", principal := some { userID := ⟨1⟩, isAdmin := false }
      body := .ok { restaurantID := (UUID.mk 3).string, fulfilment := "pickup"
                    fulfilmentAt := "1970-01-01T02:00:00Z", deadlineAt := "1970-01-01T01:00:00Z"
                    moneyCollectorID := "", pickupPersonID := "" } }

/-- The administrator deletes the Trattoria. -/
def removeTrattoria : RestaurantCall :=
  .remove { id := (UUID.mk 3).string, iid := ""
            principal := some { userID := ⟨1⟩, isAdmin := true }, body := .ok () }

def trattoria (deletes : Bool) : RestaurantCall :=
  if deletes then removeTrattoria else orderAtTrattoria

/-- The two requests, at their start. -/
def closingTrattoria :
    Config Bool (Option UUID × RestaurantCallStmt) Outcome (World Db Time) ApiError Unit :=
  arrivedCalls plainHandlers trattoria { db := lunch, now := 0 }

theorem lunch_atLiving : AtLiving { db := lunch, now := 0 } := by
  constructor
  · decide +kernel
  · unfold Living
    decide +kernel

/-- The order comes first, and the restaurant stays. -/
theorem atLiving_run_trattoria :
    AtLiving (closingTrattoria.advance false (.replicate 12 .ok)).state := by
  have hnotYet : ∀ (j : Bool) l, j ≠ false → (closingTrattoria.procs j).waitsAt = some l →
      ∀ w w', RestaurantRely l.1 l.2 w w' := by
    intro j l hj hl w w'
    have hlookup : (closingTrattoria.procs true).waitsAt =
        some (some ⟨3⟩, .remove .restaurant) := by decide +kernel
    cases j with
    | false => exact absurd rfl hj
    | true =>
      cases hlookup.symm.trans hl
      exact fun _ _ => trivial
  exact atLiving_run plainHandlers trattoria { db := lunch, now := 0 } lunch_atLiving
    (run_advance_others hnotYet _)

/-- The restaurant is deleted between the snapshot of the insert and its commit. -/
def trattoriaDeleted :
    Config Bool (Option UUID × RestaurantCallStmt) Outcome (World Db Time) ApiError Unit :=
  ((closingTrattoria.advance false (.replicate 2 .ok)).advance true (.replicate 6 .ok)).advance false
    (.replicate 12 .ok)

/-- Without the relies, an order is placed at a deleted restaurant. -/
theorem atLiving_broken :
    ¬ ∀ (h : OrderHandlers) (calls : Bool → RestaurantCall) (w : World Db Time), AtLiving w →
      ∀ c : Config Bool (Option UUID × RestaurantCallStmt) Outcome (World Db Time) ApiError Unit,
      Run OnlyTime (fun _ _ _ => True) (arrivedCalls h calls w) c → AtLiving c.state := by
  intro h
  have hquiet : ∀ (c : Config Bool (Option UUID × RestaurantCallStmt) Outcome (World Db Time)
      ApiError Unit) m c', Undisturbed (fun _ _ _ => True) c m c' := fun _ _ _ _ _ _ _ => trivial
  have hrun : Run OnlyTime (fun _ _ _ => True) closingTrattoria trattoriaDeleted :=
    ((run_advance hquiet _ _ _).trans (run_advance hquiet _ _ _)).trans (run_advance hquiet _ _ _)
  have hliving := h plainHandlers trattoria { db := lunch, now := 0 } lunch_atLiving _ hrun
  have hbroken : ¬ ∀ o ∈ trattoriaDeleted.state.db.foodOrders,
      ∀ r ∈ trattoriaDeleted.state.db.restaurants, r.id = o.restaurantID → r.deletedAt = none := by
    decide +kernel
  exact hbroken hliving.orders

end Doenerstag
