import Doenerstag.Api.DrawnJobs
import Doenerstag.Api.OrderEvents

/-!
# What the draw announces (`internal/api/orderdraw.go`)

`OrderHandlers.DrawJobs` draws, and then reads each order it has filled back and publishes it. It returns at
the first order that it cannot read, and what it has drawn is never drawn again.

* `drawAndAnnounce` — the function, with the calls of `publishOrderChange` that it has made.
* `announce_published` — the loop publishes the orders up to the first that cannot be read.
* `everyDrawAnnounced_iff` — **every filled order that can be read is announced, exactly when none that
  cannot stands before one that can.**
-/

namespace Doenerstag

open ReadCommitted Prog

/-! ## The function -/

/-- The database, and what has been published so far. -/
structure DrawServer where
  world : World Db Time
  published : List PublishCall

def DrawServer.setWorld (w : World Db Time) (s : DrawServer) : DrawServer := { s with world := w }

def DrawServer.publish (call : PublishCall) (s : DrawServer) : DrawServer :=
  { s with published := s.published ++ [call] }

inductive AnnounceStmt where
  | now
  | jobs (s : DrawJobsStmt)
  /-- `OrderByID`, of an order that was filled -/
  | order (id : UUID)
  /-- `publishOrderChange` -/
  | publish (id : UUID)
  deriving DecidableEq, Repr

abbrev DrawProgram : Type → Type := Prog AnnounceStmt Outcome DrawServer DbError

def onWorld {α : Type} (p : DbProgram AnnounceStmt α) : DrawProgram α :=
  p.onPart DrawServer.world DrawServer.setWorld

namespace OrderHandlers

/-- The loop over the orders that were filled -/
def announce : List UUID → DrawProgram Unit
  | [] => pure ()
  | id :: rest => do
    let order ← onWorld (orderByID (.order id) id)
    Prog.atomic (.publish id) fun s => ((), s.publish (.orderChange order))
    announce rest

/-- `DrawJobs` -/
def drawAndAnnounce (choice : DrawChoice) : DrawProgram Unit := do
  let now ← onWorld (clock .now)
  let filled ← onWorld ((Doenerstag.drawJobs choice now).within .jobs)
  announce filled

end OrderHandlers

/-! ## What is announced -/

/-- The orders that a draw fills, in the order in which the statement answers them -/
def Db.drawFilled (choice : DrawChoice) (stamp : Time) (db : Db) : List UUID :=
  ((db.foodOrders.filter (Db.drawDue choice stamp)).filter fun o => (db.drawPicked choice o).isSome).map
    FoodOrderRow.id

/-- The order is not deleted in between, and the connection lasts while it is read back. -/
def loads (ω : AnnounceStmt → Outcome) (db : Db) (id : UUID) : Bool :=
  ω (.order id) = .ok && (db.orderByID id).isSome

/-- An `order.updated` was published for the order. -/
def DrawServer.Announced (s : DrawServer) (id : UUID) : Prop :=
  ∃ order : Order, order.id = id ∧ .orderChange order ∈ s.published

/-- Every order that the draw has filled, and that can be read back, is announced. -/
def EveryDrawAnnounced (choice : DrawChoice) (ω : AnnounceStmt → Outcome) (w : World Db Time) : Prop :=
  ∀ filled, ((drawJobs choice w.now).run (ω ∘ .jobs) w).1 = .ok filled →
    ∀ id ∈ filled, loads ω ((drawJobs choice w.now).run (ω ∘ .jobs) w).2.db id = true →
      ((OrderHandlers.drawAndAnnounce choice).run ω ⟨w, []⟩).2.Announced id

section Announced

variable {choice : DrawChoice} {ω : AnnounceStmt → Outcome} {s : DrawServer} {id : UUID} {rest : List UUID}

/-- A program on the database runs there, and publishes nothing. -/
theorem run_onWorld {α : Type} (p : DbProgram AnnounceStmt α) (ω : AnnounceStmt → Outcome)
    (s : DrawServer) : (onWorld p).run ω s = ((p.run ω s.world).1, s.setWorld (p.run ω s.world).2) := by
  unfold onWorld
  apply run_onPart
  · exact fun _ _ => rfl
  · exact fun _ _ _ => rfl
  · exact fun _ => rfl

/-- What comes of the read of an order -/
theorem run_orderByID : (onWorld (orderByID (.order id) id)).run ω s =
    (((ω (.order id)).row (s.world.db.orderByID id)).mapError scanError, s) := by
  rw [run_onWorld]
  unfold orderByID queryRow
  rw [run_mapError, run_read]
  rfl

/-- An order that can be read is published, and the loop goes on. -/
theorem run_announce_loads (rest : List UUID) (hloads : loads ω s.world.db id = true) : ∃ order : Order, order.id = id ∧
    (OrderHandlers.announce (id :: rest)).run ω s =
      (OrderHandlers.announce rest).run ω (s.publish (.orderChange order)) := by
  unfold loads at hloads
  rw [Bool.and_eq_true, decide_eq_true_eq] at hloads
  obtain ⟨hok, hsome⟩ := hloads
  obtain ⟨order, horder⟩ := Option.isSome_iff_exists.mp hsome
  refine ⟨order, (s.world.db.orderByID_eq_some horder).1, ?_⟩
  show (onWorld (orderByID (.order id) id) >>= _).run ω s = _
  rw [run_bind, run_orderByID, hok, horder]
  rfl

/-- At an order that cannot be read, the loop ends. -/
theorem run_announce_stops (hloads : loads ω s.world.db id = false) :
    ((OrderHandlers.announce (id :: rest)).run ω s).2 = s := by
  show ((onWorld (orderByID (.order id) id) >>= _).run ω s).2 = _
  rw [run_bind, run_orderByID]
  unfold loads at hloads
  cases hω : ω (.order id) with
  | failure => rfl
  | noRow => rfl
  | ok =>
    rw [hω, Bool.and_eq_false_imp] at hloads
    have hnone : s.world.db.orderByID id = none := by simpa using hloads rfl
    rw [hnone]
    rfl

/-- **The loop publishes the orders up to the first that cannot be read.** -/
theorem announce_published (filled : List UUID) (s : DrawServer) :
    ∃ orders : List Order, orders.map Order.id = filled.takeWhile (loads ω s.world.db) ∧
      ((OrderHandlers.announce filled).run ω s).2 =
        { s with published := s.published ++ orders.map PublishCall.orderChange } := by
  induction filled generalizing s with
  | nil => exact ⟨[], rfl, by rw [List.map_nil, List.append_nil]; rfl⟩
  | cons id rest ih =>
    cases hloads : loads ω s.world.db id with
    | false =>
      refine ⟨[], by rw [List.takeWhile_cons, hloads]; rfl, ?_⟩
      rw [run_announce_stops hloads, List.map_nil, List.append_nil]
    | true =>
      obtain ⟨order, hid, hrun⟩ := run_announce_loads rest hloads
      obtain ⟨orders, hids, hpublished⟩ := ih (s.publish (.orderChange order))
      refine ⟨order :: orders, ?_, ?_⟩
      · -- publishing leaves the database alone
        have hworld : (s.publish (.orderChange order)).world = s.world := rfl
        rw [List.map_cons, hids, hid, hworld, List.takeWhile_cons, hloads]
        rfl
      · rw [hrun, hpublished]
        simp [DrawServer.publish]

/-- Announced are the filled orders that stand before the first that cannot be read. -/
theorem announced_iff_takeWhile {filled : List UUID} {w : World Db Time} :
    ((OrderHandlers.announce filled).run ω ⟨w, []⟩).2.Announced id ↔ id ∈ filled.takeWhile (loads ω w.db) := by
  obtain ⟨orders, hids, hpublished⟩ := announce_published (ω := ω) filled ⟨w, []⟩
  rw [hpublished, ← hids, List.mem_map]
  unfold DrawServer.Announced
  simp [and_comm]

/-! ## The orders after the draw -/

theorem scanOrder_isSome_eq (db : Db) (o : FoodOrderRow) : (db.scanOrder o).isSome =
    ((db.restaurants.find? fun r => r.id == o.restaurantID).isSome && (db.userByID o.creatorID).isSome) := by
  unfold Db.scanOrder
  cases db.restaurants.find? fun r => r.id == o.restaurantID with
  | none => rfl
  | some r =>
    cases db.userByID o.creatorID with
    | none => rfl
    | some u => rfl

/-- The draw keeps the columns that an order is found and joined by. -/
theorem drawnFoodOrder_keeps (db : Db) (choice : DrawChoice) (stamp now : Time) (o : FoodOrderRow) :
    (db.drawnFoodOrder choice stamp now o).id = o.id ∧
      (db.drawnFoodOrder choice stamp now o).restaurantID = o.restaurantID ∧
      (db.drawnFoodOrder choice stamp now o).creatorID = o.creatorID := by
  unfold Db.drawnFoodOrder
  split_ifs
  · exact ⟨rfl, rfl, rfl⟩
  · exact ⟨rfl, rfl, rfl⟩

/-- What can be read after the draw could be read before. -/
theorem orderByID_drawJobs (db : Db) (choice : DrawChoice) (stamp now : Time) (id : UUID) :
    ((db.drawJobs choice stamp now).1.orderByID id).isSome = (db.orderByID id).isSome := by
  have hfound : (db.drawJobs choice stamp now).1.foodOrder id =
      (db.foodOrder id).map (db.drawnFoodOrder choice stamp now) := by
    show (db.foodOrders.map (db.drawnFoodOrder choice stamp now)).find? _ = _
    rw [List.find?_map]
    congr 2
    funext o
    show ((db.drawnFoodOrder choice stamp now o).id == id) = _
    rw [(drawnFoodOrder_keeps db choice stamp now o).1]
  unfold Db.orderByID
  rw [hfound]
  cases db.foodOrder id with
  | none => rfl
  | some o =>
    obtain ⟨-, hrestaurant, hcreator⟩ := drawnFoodOrder_keeps db choice stamp now o
    show ((db.drawJobs choice stamp now).1.scanOrder (db.drawnFoodOrder choice stamp now o)).isSome =
      (db.scanOrder o).isSome
    rw [scanOrder_isSome_eq, scanOrder_isSome_eq, hrestaurant, hcreator]
    rfl

theorem drawFilled_nodup {w : World Db Time} (hkeys : w.db.Keys) (stamp : Time) :
    (w.db.drawFilled choice stamp).Nodup := by
  unfold Db.drawFilled
  have hsub : (w.db.foodOrders.filter (Db.drawDue choice stamp)).filter
      (fun o => (w.db.drawPicked choice o).isSome) |>.Sublist w.db.foodOrders :=
    List.filter_sublist.trans List.filter_sublist
  exact (hsub.map FoodOrderRow.id).nodup hkeys.foodOrders

/-! ## The whole function -/

/-- What the function has published, when its statement has gone through -/
theorem run_drawAndAnnounce {w : World Db Time} (hdraw : ω (.jobs .draw) ≠ .failure) :
    ((OrderHandlers.drawAndAnnounce choice).run ω ⟨w, []⟩).2 =
      ((OrderHandlers.announce (w.db.drawFilled choice (stampOf w.now w.now))).run ω
        ⟨⟨(w.db.drawJobs choice (stampOf w.now w.now) w.now).1, w.now⟩, []⟩).2 := by
  unfold OrderHandlers.drawAndAnnounce
  rw [run_bind]
  show ((onWorld ((drawJobs choice w.now).within .jobs) >>= OrderHandlers.announce).run ω ⟨w, []⟩).2 = _
  rw [run_bind, run_onWorld, run_within, run_drawJobs choice w.now (ω := ω ∘ .jobs) hdraw w]
  rfl

/-- Up to the first that fails the test stand all that pass it, exactly when none that fails stands before
one that passes. -/
theorem forall_mem_takeWhile_iff {α : Type} {p : α → Bool} {l : List α} (hnodup : l.Nodup) :
    (∀ a ∈ l, p a = true → a ∈ l.takeWhile p) ↔ l.Pairwise fun a b => p b = true → p a = true := by
  induction l with
  | nil => simp
  | cons x rest ih =>
    obtain ⟨hx, hrest⟩ := List.nodup_cons.mp hnodup
    rw [List.pairwise_cons, List.takeWhile_cons, ← ih hrest]
    cases hp : p x with
    | true =>
      constructor
      · refine fun hall => ⟨fun _ _ _ => rfl, fun a ha hpa => ?_⟩
        rcases List.mem_cons.mp (hall a (List.mem_cons_of_mem x ha) hpa) with rfl | hmem
        · exact absurd ha hx
        · exact hmem
      · rintro ⟨-, hall⟩ a ha hpa
        rcases List.mem_cons.mp ha with rfl | ha
        · exact List.mem_cons_self
        · exact List.mem_cons_of_mem x (hall a ha hpa)
    | false =>
      constructor
      · intro hall
        have hnone : ∀ a ∈ rest, p a ≠ true := fun a ha hpa =>
          List.not_mem_nil (hall a (List.mem_cons_of_mem x ha) hpa)
        exact ⟨fun a ha hpa => absurd hpa (hnone a ha), fun a ha hpa => absurd hpa (hnone a ha)⟩
      · rintro ⟨hfirst, -⟩ a ha hpa
        rcases List.mem_cons.mp ha with rfl | ha
        · exact absurd (hp.symm.trans hpa) Bool.false_ne_true
        · exact absurd (hfirst a ha hpa) Bool.false_ne_true

/-- **Every draw is announced exactly when no filled order that cannot be read back stands before one that
can.** A statement that fails fills nothing. -/
theorem everyDrawAnnounced_iff (choice : DrawChoice) (ω : AnnounceStmt → Outcome) {w : World Db Time}
    (hkeys : w.db.Keys) : EveryDrawAnnounced choice ω w ↔ (ω (.jobs .draw) ≠ .failure →
      (w.db.drawFilled choice (stampOf w.now w.now)).Pairwise fun a b =>
        loads ω w.db b = true → loads ω w.db a = true) := by
  unfold EveryDrawAnnounced
  by_cases hdraw : ω (.jobs .draw) = .failure
  · rw [run_drawJobs_failure choice w.now (ω := ω ∘ .jobs) hdraw w]
    constructor
    · exact fun _ h => absurd hdraw h
    · intro _ filled hfilled
      cases hfilled
  · rw [run_drawJobs choice w.now (ω := ω ∘ .jobs) hdraw w, run_drawAndAnnounce hdraw]
    have hloads : loads ω (w.db.drawJobs choice (stampOf w.now w.now) w.now).1 = loads ω w.db := by
      funext id
      unfold loads
      rw [orderByID_drawJobs]
    simp only [announced_iff_takeWhile, hloads]
    rw [← forall_mem_takeWhile_iff (drawFilled_nodup hkeys _)]
    constructor
    · exact fun hall _ => hall _ rfl
    · intro hall filled hfilled
      cases hfilled
      exact hall hdraw

end Announced

/-! ## Two late orders -/

namespace TwoLate

/-- Anna has a kebab in each of two orders whose deadlines have passed. -/
def kebabIn (id orderID : UUID) : OrderItemRow :=
  { id, orderID, userID := ⟨1⟩, menuItemID := ⟨4⟩, quantity := 1, itemName := "Kebab"
    unitPriceCents := 500, note := none, paid := false, createdAt := 0, updatedAt := 0, updatedBy := none }

def twoLate : Db :=
  { lunch with
    foodOrders := lunch.foodOrders ++ lunch.foodOrders.map fun o => { o with id := ⟨8⟩ }
    orderItems := [kebabIn ⟨7⟩ ⟨6⟩, kebabIn ⟨9⟩ ⟨8⟩] }

theorem twoLate_valid : twoLate.Valid where
  keys := by constructor <;> decide +kernel
  refs := by constructor <;> decide +kernel
  checks := by constructor <;> decide +kernel

/-- The first of the two is deleted before it is read back. -/
def firstGone : AnnounceStmt → Outcome
  | .order ⟨6⟩ => .noRow
  | _ => .ok

end TwoLate

open TwoLate LateOrder

theorem everyDrawAnnounced_iff_twoLate : twoLate.Keys ∧
    (EveryDrawAnnounced firstPick (fun _ => .ok) ⟨twoLate, 3000000000⟩ ↔
      (Outcome.ok ≠ .failure →
        (twoLate.drawFilled firstPick (stampOf 3000000000 3000000000)).Pairwise fun a b =>
          loads (fun _ => .ok) twoLate b = true → loads (fun _ => .ok) twoLate a = true)) :=
  ⟨twoLate_valid.keys, everyDrawAnnounced_iff firstPick (fun _ => .ok) (w := ⟨twoLate, 3000000000⟩)
    twoLate_valid.keys⟩

/-- Of two filled orders, the second is not announced because the first is gone. -/
theorem draw_not_announced : ¬ ∀ (choice : DrawChoice) (ω : AnnounceStmt → Outcome) (w : World Db Time),
    w.db.Valid → EveryDrawAnnounced choice ω w := by
  intro hall
  have hrun : ((drawJobs firstPick 3000000000).run (firstGone ∘ .jobs) ⟨twoLate, 3000000000⟩).1 =
      .ok [⟨6⟩, ⟨8⟩] := by decide +kernel
  have hthere : loads firstGone ((drawJobs firstPick 3000000000).run (firstGone ∘ .jobs)
      ⟨twoLate, 3000000000⟩).2.db ⟨8⟩ = true := by decide +kernel
  have hsilent : ((OrderHandlers.drawAndAnnounce firstPick).run firstGone
      ⟨⟨twoLate, 3000000000⟩, []⟩).2.published = [] := by decide +kernel
  obtain ⟨order, -, hmem⟩ := hall firstPick firstGone ⟨twoLate, 3000000000⟩ twoLate_valid _ hrun ⟨8⟩
    (by decide) hthere
  rw [hsilent] at hmem
  cases hmem

end Doenerstag
