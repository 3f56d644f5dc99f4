import Doenerstag.Api.OrderItems
import Doenerstag.Api.OrderJobs
import Doenerstag.Db.OrderFrame

/-!
# A closed order is read-only (F6.6)

Any number of requests that change orders run side by side, with the clock and with whatever else
changes the tables. Each reads its order, looks at the clock once, and writes some statements later.

* `OrderRequest` — the six requests, with their handlers.
* `Rely` — what a request needs of the others: between its read of the order and its look at the
  clock nobody moves the deadline forward, and from then to its write nobody closes the order.
* `OrderRequest.holds` — a request that can rely on this changes no closed order.
* `closedOrder_readOnly` — **along every run that keeps to it, no request's step changes what F6.6
  freezes of an order that is closed at that moment.**
* `closedOrder_written` — a run that does not, and an item added to a closed order.
-/

namespace Doenerstag

open ReadCommitted Prog

/-- The deadline of the order has come. -/
def Closed (w : World Db Time) (orderID : UUID) : Prop :=
  ∃ o, w.db.foodOrder orderID = some o ∧ o.deadlineAt ≤ w.now

instance (w : World Db Time) (orderID : UUID) : Decidable (Closed w orderID) :=
  decidable_of_iff (∃ o ∈ w.db.foodOrder orderID, o.deadlineAt ≤ w.now) Iff.rfl

/-! ## The requests -/

inductive OrderRequest where
  | addItem (fresh : FreshItem) (r : Request OrderHandlers.AddItemRequest)
  | patchItem (fresh : FreshItem) (r : Request OrderHandlers.PatchItemRequest)
  | deleteItem (r : Request Unit)
  | patchOrder (r : Request OrderHandlers.PatchOrderRequest)
  | claimJob (job : OrderJob) (r : Request Unit)
  | releaseJob (job : OrderJob) (r : Request Unit)

namespace OrderRequest

def serve (h : OrderHandlers) : OrderRequest → Handler OrderStmt OrderResponse
  | addItem fresh r => h.addItem fresh r
  | patchItem fresh r => h.patchItem fresh r
  | deleteItem r => h.deleteItem r
  | patchOrder r => h.patch r
  | claimJob job r => h.claimJob job r
  | releaseJob job r => h.releaseJob job r

/-- The path parameter that names the order. -/
def param : OrderRequest → String
  | addItem _ r => r.id
  | patchItem _ r => r.id
  | deleteItem r => r.id
  | patchOrder r => r.id
  | claimJob _ r => r.id
  | releaseJob _ r => r.id

/-- The order the request is about, when the parameter is an identifier. -/
def orderID (h : OrderHandlers) (req : OrderRequest) : Option UUID := h.rt.parseUUID req.param

/-- The identifier generated for a new item is that item's alone. -/
def Mints (h : OrderHandlers) (owner : UUID → UUID) : OrderRequest → Prop
  | addItem fresh r => ∀ id, h.rt.parseUUID r.id = some id → owner fresh.id = id
  | _ => True

end OrderRequest

/-! ## What a request relies on -/

/-- How far a request has come when it waits at a statement. -/
inductive Phase where
  /-- it has read the order, and not yet looked at the clock -/
  | lookup
  /-- it has found the order open, and not yet written -/
  | pending
  /-- it knows nothing yet, or has written -/
  | free
  deriving DecidableEq, Repr

def AddOrderItemStmt.phase : AddOrderItemStmt → Phase
  | .readBack _ => .free
  | _ => .pending

def UpdateOrderItemStmt.phase : UpdateOrderItemStmt → Phase
  | .readBack _ => .free
  | _ => .pending

def UpdateOrderStmt.phase : UpdateOrderStmt → Phase
  | .update => .pending
  | _ => .free

def OrderStmt.phase : OrderStmt → Phase
  | .order => .free
  | .item _ => .lookup
  | .now => .lookup
  | .itemCount => .pending
  | .restaurant => .pending
  | .moneyCollector => .pending
  | .pickupPerson => .pending
  | .addOrderItem s => s.phase
  | .updateOrderItem s => s.phase
  | .deleteOrderItem => .pending
  | .updateOrder s => s.phase
  | .createOrder _ => .free
  | .publish => .free
  | .detail _ => .free

/-- The order is the one it was, and its deadline has not moved forward. -/
def DeadlineStays (orderID : UUID) (w w' : World Db Time) : Prop :=
  ∀ o', w'.db.foodOrder orderID = some o' →
    ∃ o, w.db.foodOrder orderID = some o ∧ o.deadlineAt ≤ o'.deadlineAt

/-- The order is not closed by the change. -/
def StaysOpen (orderID : UUID) (w w' : World Db Time) : Prop :=
  ¬ Closed w orderID → ¬ Closed w' orderID

/-- What a request waiting at a statement relies on when another moves. -/
def Phase.Rely (phase : Phase) (orderID : UUID) (w w' : World Db Time) : Prop :=
  match phase with
  | lookup => DeadlineStays orderID w w'
  | pending => StaysOpen orderID w w'
  | free => True

/-- The same for a statement of a request about that order, if it is about one. -/
def Rely (about : Option UUID) (l : OrderStmt) (w w' : World Db Time) : Prop :=
  ∀ id, about = some id → l.phase.Rely id w w'

/-- A step changes nothing that F6.6 freezes of an order that is closed when it is taken. -/
def KeepsClosed (w w' : World Db Time) : Prop :=
  ∀ id, Closed w id → w'.db.frozen id = w.db.frozen id

/-- The invariant: identifiers of items are used for the order they were generated for. -/
def OwnedWorld (owner : UUID → UUID) (w : World Db Time) : Prop := w.db.Owned owner

/-! ## The rules for the three phases -/

section Phases

variable {ℓ χ α : Type} {owner : UUID → UUID} {id : UUID} {R : ℓ → World Db Time → World Db Time → Prop}

theorem keepsClosed_refl (w : World Db Time) : KeepsClosed w w := fun _ _ => rfl

/-- Statements that only read may stand anywhere. -/
theorem holds_free {L : ℓ → Prop} {p : Program ℓ Db Time χ α} (h : p.Reads L) (w : World Db Time) :
    p.Holds (OwnedWorld owner) R (fun _ => KeepsClosed) (Ends fun _ _ => True) w :=
  (h.holds (fun _ w _ _ => keepsClosed_refl w) w).mono fun _ _ _ _ _ => trivial

/-- Statements between the look at the clock and the write: the order stays open. -/
theorem holds_pending {L : ℓ → Prop} {A : α → Prop} {p : Program ℓ Db Time χ α} (h : p.Reads L)
    (hA : p.Returns (OwnedWorld owner) A) (hR : ∀ l w w', L l → R l w w' → StaysOpen id w w')
    {w : World Db Time} (hopen : ¬ Closed w id) :
    p.Holds (OwnedWorld owner) R (fun _ => KeepsClosed)
      (Ends fun a w => ¬ Closed w id ∧ A a) w :=
  h.ends hA hR (fun _ w _ _ => keepsClosed_refl w) hopen

/-- A write that stays within an open order. -/
theorem holds_pendingWrite {l : ℓ} {update : Outcome → World Db Time → Except χ (Db × α)}
    (hupdate : ∀ e w db a, update e w = .ok (db, a) → Db.Within owner id w.db db)
    (hR : ∀ w w', R l w w' → StaysOpen id w w') {w : World Db Time} (hopen : ¬ Closed w id) :
    (write l update).Holds (OwnedWorld owner) R (fun _ => KeepsClosed) (Ends fun _ _ => True) w := by
  refine holds_write fun w' hwait hown e => ?_
  have hopen' : ¬ Closed w' id := star_keeps hR hwait hopen
  cases hu : update e w' with
  | error x => exact ⟨hown, keepsClosed_refl w', fun _ _ => trivial⟩
  | ok r =>
    have hwithin := hupdate e w' r.1 r.2 hu
    refine ⟨hwithin.owned hown, fun o hclosed => ?_, fun _ _ => trivial⟩
    -- a closed order is another one than the one that is written to
    exact hwithin.others hown o fun heq => hopen' (heq ▸ hclosed)

/-- A transaction that stays within an open order, and what is read after its commit. -/
theorem holds_transaction {L : ℓ → Prop} {stage : DbProgram ℓ PgTx} {commit : ℓ}
    {rest : DbProgram ℓ α} (hstage : stage.Reads L)
    (hwithin : stage.Returns (OwnedWorld owner) (Tx.Writes (Db.StaysWithin owner id)))
    (hrest : rest.Reads fun _ => True)
    (hR : ∀ l w w', L l ∨ l = commit → R l w w' → StaysOpen id w w') {w : World Db Time}
    (hopen : ¬ Closed w id) :
    (stage >>= fun tx => (tx.commit commit).mapError otherError >>= fun _ => rest).Holds
      (OwnedWorld owner) R (fun _ => KeepsClosed) (Ends fun _ _ => True) w := by
  refine holds_seq (holds_pending hstage hwithin (fun l w w' hl => hR l w w' (.inl hl)) hopen) ?_
  rintro tx w ⟨hopen, htx⟩
  refine holds_seq (M := fun _ _ => True) (ends_mapError ?_) fun _ w _ => holds_free hrest w
  refine holds_pendingWrite (fun e w db u hcommit => ?_) (fun w w' => hR commit w w' (.inr rfl)) hopen
  exact staysWithin_view htx (tx.committed_eq_ok hcommit)

end Phases

/-! ## The requests hold -/

section Requests

variable {owner : UUID → UUID} (h : OrderHandlers)

/-- The order's deadline is not before the one that was read. -/
def ReadAs (order : Order) (w : World Db Time) : Prop :=
  ∀ o, w.db.foodOrder order.id = some o → order.deadlineAt ≤ o.deadlineAt

theorem ReadAs.stays {order : Order} {w w' : World Db Time} (h : ReadAs order w)
    (hstays : DeadlineStays order.id w w') : ReadAs order w' := by
  intro o' ho'
  obtain ⟨o, ho, hle⟩ := hstays o' ho'
  exact Int.le_trans (h o ho) hle

theorem holds_lookupOrder {β : Type} (r : Request β) (w : World Db Time) :
    (h.lookupOrder r).Holds (OwnedWorld owner) (Rely (h.rt.parseUUID r.id)) (fun _ => KeepsClosed)
      (Ends fun order w => h.rt.parseUUID r.id = some order.id ∧ ReadAs order w) w := by
  unfold OrderHandlers.lookupOrder loadParam
  cases hparse : h.rt.parseUUID r.id with
  | none => exact ends_fail _ w
  | some id =>
    refine ends_mapError (ends_mapError (holds_read fun w' _ _ => ⟨keepsClosed_refl w', ?_⟩))
    intro e order horder
    obtain ⟨hid, o, ho, hdeadline⟩ := Db.orderByID_eq_some _ (Outcome.row_eq_ok horder)
    refine ⟨by rw [hid], fun o' ho' => ?_⟩
    rw [hid, ho] at ho'
    cases ho'
    exact Int.le_of_eq hdeadline

/-- The look at the clock: an order that passes it is open. -/
theorem holds_requireActive {about : Option UUID} {order : Order} (habout : about = some order.id)
    {w : World Db Time} (hread : ReadAs order w) :
    (OrderHandlers.requireActive order).Holds (OwnedWorld owner) (Rely about) (fun _ => KeepsClosed)
      (Ends fun _ w => ¬ Closed w order.id) w := by
  refine holds_seq (M := fun now w => ReadAs order w ∧ w.now = now) ?_ ?_
  · refine holds_read fun w' hwait _ => ⟨keepsClosed_refl w', fun e now hnow => ?_⟩
    cases hnow
    exact ⟨star_keeps (fun _ _ hR hread => hread.stays (hR order.id habout)) hwait hread, rfl⟩
  · rintro now w ⟨hread, rfl⟩
    refine ends_require fun hactive => ?_
    rintro ⟨o, ho, hle⟩
    have hbefore : w.now < order.deadlineAt := by simpa [Order.active] using hactive
    exact absurd (Int.le_trans (hread o ho) hle) (Int.not_le.mpr hbefore)

/-- An item that was found is in the order its identifier was generated for. -/
theorem orderItemByID_owned (rt : Runtime) (id : UUID) :
    (orderItemByID rt id).Returns (OwnedWorld owner) fun item => item.orderID = owner item.id := by
  refine (orderItemByID_returns rt id).mono ?_
  rintro item ⟨w, hown, i, hi, -, hid, horder⟩
  rw [hid, horder]
  exact hown i (List.mem_of_find?_eq_some hi)

theorem holds_lookupOrderItem {β : Type} (r : Request β) (w : World Db Time) :
    (h.lookupOrderItem r).Holds (OwnedWorld owner) (Rely (h.rt.parseUUID r.id))
      (fun _ => KeepsClosed)
      (Ends fun found w => h.rt.parseUUID r.id = some found.1.id ∧ ReadAs found.1 w ∧
        owner found.2.id = found.1.id) w := by
  refine holds_seq (holds_lookupOrder h r w) ?_
  rintro order w ⟨habout, hread⟩
  have hitem : ((loadParam h.rt r.iid (orderItemByID h.rt)).within OrderStmt.item).Returns
      (OwnedWorld owner) fun item => item.orderID = owner item.id := by
    refine Returns.within ?_ _
    unfold loadParam
    cases h.rt.parseUUID r.iid with
    | none => exact returns_fail _
    | some id => exact (orderItemByID_owned h.rt id).mapError _
  refine holds_seq (Reads.ends (F := ReadAs order)
    (Reads.within (L := fun l => l.phase = .lookup) (loadParam_reads fun id =>
      (orderItemByID_reads h.rt id).mono fun _ _ => rfl)) hitem ?_
      (fun _ w _ _ => keepsClosed_refl w) hread) ?_
  · intro l w w' hl hR hread
    have hstays := hR order.id habout
    rw [hl] at hstays
    exact hread.stays hstays
  · rintro item w ⟨hread, howner⟩
    refine holds_seq (M := fun _ w => ReadAs order w ∧ item.orderID = order.id)
      (ends_require fun hsame => ⟨hread, eq_of_beq hsame⟩) fun _ w hw => ends_done ?_
    exact ⟨habout, hw.1, by rw [← howner, hw.2]⟩

theorem holds_acceptItemWrite {β : Type} (r : Request β) (w : World Db Time) :
    (h.acceptItemWrite r).Holds (OwnedWorld owner) (Rely (h.rt.parseUUID r.id))
      (fun _ => KeepsClosed)
      (Ends fun accepted w => h.rt.parseUUID r.id = some accepted.1.id ∧
        owner accepted.2.1.id = accepted.1.id ∧ ¬ Closed w accepted.1.id) w := by
  refine holds_seq (holds_lookupOrderItem h r w) ?_
  rintro ⟨order, item⟩ w ⟨habout, hread, howner⟩
  refine holds_seq (M := fun _ => ReadAs order) (ends_ofExcept fun _ _ => hread) fun _ w hread => ?_
  refine holds_seq (holds_requireActive habout hread) fun _ w hopen => ?_
  refine holds_seq (M := fun _ w => ¬ Closed w order.id) (ends_ofExcept fun _ _ => hopen)
    fun principal w hopen => ends_done ⟨habout, howner, hopen⟩

theorem holds_publish {orderID : UUID} {R : OrderStmt → World Db Time → World Db Time → Prop}
    {response : OrderResponse} (w : World Db Time) :
    (h.publishItemChange orderID >>= fun _ => Prog.done response).Holds (OwnedWorld owner) R
      (fun _ => KeepsClosed) (Ends fun _ _ => True) w :=
  holds_free ((h.publishItemChange_reads orderID).mono (fun _ _ => trivial)
    |>.bind fun _ => .done _) w

theorem holds_addItem (fresh : FreshItem) (r : Request OrderHandlers.AddItemRequest)
    (hmints : ∀ id, h.rt.parseUUID r.id = some id → owner fresh.id = id) (w : World Db Time) :
    (h.addItem fresh r).Holds (OwnedWorld owner) (Rely (h.rt.parseUUID r.id))
      (fun _ => KeepsClosed) (Ends fun _ _ => True) w := by
  refine holds_seq (M := fun item w => h.rt.parseUUID r.id = some item.orderID ∧
    ¬ Closed w item.orderID) ?_ ?_
  · refine holds_seq (holds_lookupOrder h r w) ?_
    rintro order w ⟨habout, hread⟩
    refine holds_seq (M := fun _ => ReadAs order) (ends_ofExcept fun _ _ => hread) fun p w hread => ?_
    refine holds_seq (holds_requireActive habout hread) fun _ w hopen => ?_
    refine holds_seq (M := fun _ w => ¬ Closed w order.id) (ends_ofExcept fun _ _ => hopen)
      fun body w hopen => ends_ofExcept fun item hitem => ?_
    have horder : item.orderID = order.id := h.validateNewItem_orderID hitem
    rw [horder]
    exact ⟨habout, hopen⟩
  · rintro item w ⟨habout, hopen⟩
    refine holds_seq (M := fun _ _ => True) (ends_mapError (holds_within ?_)) fun created w _ =>
      holds_publish h w
    refine holds_transaction (stageOrderItem_reads _ _ _)
      (stageOrderItem_within (hmints _ habout)) ((orderItemByID_reads _ _).within) ?_ hopen
    intro l w w' hl hR
    have hrely := hR item.orderID habout
    rcases hl with hl | rfl
    · cases l <;> first | exact hrely | exact hl.elim
    · exact hrely

theorem holds_patchItem (fresh : FreshItem) (r : Request OrderHandlers.PatchItemRequest)
    (w : World Db Time) :
    (h.patchItem fresh r).Holds (OwnedWorld owner) (Rely (h.rt.parseUUID r.id))
      (fun _ => KeepsClosed) (Ends fun _ _ => True) w := by
  refine holds_seq (M := fun accepted w => h.rt.parseUUID r.id = some accepted.1.id ∧
    owner accepted.2.1.id = accepted.1.id ∧ ¬ Closed w accepted.1.id) ?_ ?_
  · refine holds_seq (holds_acceptItemWrite h r w) ?_
    rintro ⟨order, item, principal⟩ w hw
    refine holds_seq (M := fun _ w => h.rt.parseUUID r.id = some order.id ∧
      owner item.id = order.id ∧ ¬ Closed w order.id) (ends_ofExcept fun _ _ => hw) fun body w hw => ?_
    refine holds_seq (M := fun _ w => h.rt.parseUUID r.id = some order.id ∧
      owner item.id = order.id ∧ ¬ Closed w order.id) (ends_ofExcept fun _ _ => hw) fun _ w hw => ?_
    exact ends_done hw
  · rintro ⟨order, item, principal, change⟩ w ⟨habout, howner, hopen⟩
    refine holds_seq (M := fun _ _ => True) (ends_mapError (holds_within ?_)) fun updated w _ =>
      holds_publish h w
    refine holds_transaction (stageOrderItemUpdate_reads _ _ _ _) ?_
      ((orderItemByID_reads _ _).within) ?_ hopen
    · rw [← howner]
      exact stageOrderItemUpdate_within
    intro l w w' hl hR
    have hrely := hR order.id habout
    rcases hl with hl | rfl
    · cases l <;> first | exact hrely | exact hl.elim
    · exact hrely

theorem holds_deleteItem (r : Request Unit) (w : World Db Time) :
    (h.deleteItem r).Holds (OwnedWorld owner) (Rely (h.rt.parseUUID r.id))
      (fun _ => KeepsClosed) (Ends fun _ _ => True) w := by
  refine holds_seq (holds_acceptItemWrite h r w) ?_
  rintro ⟨order, item, principal⟩ w ⟨habout, howner, hopen⟩
  refine holds_seq (M := fun _ _ => True) (ends_mapError ?_) fun _ w _ => holds_publish h w
  refine holds_seq (M := fun _ _ => True) (ends_mapError ?_) fun _ w _ =>
    ends_require fun _ => trivial
  refine holds_pendingWrite (fun e w db rows hupdate => ?_)
    (fun w w' hR => hR order.id habout) hopen
  rw [← howner]
  exact changed_within (fun db' rows' hu => Db.Within.deleteOrderItem hu) hupdate

/-- `UpdateOrder` on an open order, and the answer. -/
theorem holds_update {about : Option UUID} {order : Order} (habout : about = some order.id)
    (actor : UUID) (change : OrderUpdate) {w : World Db Time} (hopen : ¬ Closed w order.id) :
    (h.update order actor change).Holds (OwnedWorld owner) (Rely about) (fun _ => KeepsClosed)
      (Ends fun _ _ => True) w := by
  refine holds_seq (M := fun _ _ => True) (ends_mapError (holds_within ?_)) fun updated w _ =>
    holds_free (L := fun _ => True) (h.writeDetail_reads updated 200).within w
  refine updateOrder_holds ?_ fun _ w _ _ => keepsClosed_refl w
  refine holds_pendingWrite (fun e w db rows hupdate => ?_) (fun w w' hR => hR order.id habout) hopen
  exact changed_within (fun db' rows' hu => Db.Within.updateFoodOrder hu) hupdate

theorem holds_patch (r : Request OrderHandlers.PatchOrderRequest) (w : World Db Time) :
    (h.patch r).Holds (OwnedWorld owner) (Rely (h.rt.parseUUID r.id))
      (fun _ => KeepsClosed) (Ends fun _ _ => True) w := by
  refine holds_seq (M := fun accepted w => h.rt.parseUUID r.id = some accepted.1.id ∧
    ¬ Closed w accepted.1.id) ?_ ?_
  · refine holds_seq (holds_lookupOrder h r w) ?_
    rintro order w ⟨habout, hread⟩
    refine holds_seq (M := fun _ => ReadAs order) (ends_ofExcept fun _ _ => hread) fun p w hread => ?_
    refine holds_seq (holds_requireActive habout hread) fun _ w hopen => ?_
    refine holds_seq (M := fun _ w => ¬ Closed w order.id) (ends_ofExcept fun _ _ => hopen)
      fun body w hopen => ?_
    refine holds_seq (holds_pending (h.validateOrderPatch_reads order body) (.trivially _) ?_ hopen)
      fun change w hw => ends_done ⟨habout, hw.1⟩
    intro l w w' hl hR
    have hrely := hR order.id habout
    cases l <;> first | exact hrely | exact hl.elim
  · rintro ⟨order, actor, change⟩ w ⟨habout, hopen⟩
    exact holds_update h habout actor change hopen

theorem holds_claimJob (job : OrderJob) (r : Request Unit) (w : World Db Time) :
    (h.claimJob job r).Holds (OwnedWorld owner) (Rely (h.rt.parseUUID r.id))
      (fun _ => KeepsClosed) (Ends fun _ _ => True) w := by
  refine holds_seq (holds_lookupOrder h r w) ?_
  rintro order w ⟨habout, hread⟩
  refine holds_seq (M := fun _ => ReadAs order) (ends_ofExcept fun _ _ => hread) fun p w hread => ?_
  refine holds_seq (holds_requireActive habout hread) fun _ w hopen => ?_
  refine holds_seq (M := fun _ w => ¬ Closed w order.id) (ends_require fun _ => hopen)
    fun _ w hopen => ?_
  exact holds_update h habout p.userID _ hopen

theorem holds_releaseJob (job : OrderJob) (r : Request Unit) (w : World Db Time) :
    (h.releaseJob job r).Holds (OwnedWorld owner) (Rely (h.rt.parseUUID r.id))
      (fun _ => KeepsClosed) (Ends fun _ _ => True) w := by
  refine holds_seq (holds_lookupOrder h r w) ?_
  rintro order w ⟨habout, hread⟩
  refine holds_seq (M := fun _ => ReadAs order) (ends_ofExcept fun _ _ => hread) fun p w hread => ?_
  refine holds_seq (M := fun _ => ReadAs order) (ends_ofExcept fun _ _ => hread) fun _ w hread => ?_
  refine holds_seq (holds_requireActive habout hread) fun _ w hopen => ?_
  split_ifs
  · exact holds_free (L := fun _ => True) (h.writeDetail_reads order 200).within w
  · exact holds_update h habout p.userID _ hopen

/-- **A request holds**: within its relies, it changes no order that is closed. -/
theorem OrderRequest.holds (req : OrderRequest) (hmints : req.Mints h owner) (w : World Db Time) :
    (req.serve h).Holds (OwnedWorld owner) (Rely (req.orderID h)) (fun _ => KeepsClosed)
      (fun _ _ => True) w := by
  cases req with
  | addItem fresh r => exact (holds_addItem h fresh r hmints w).ends
  | patchItem fresh r => exact (holds_patchItem h fresh r w).ends
  | deleteItem r => exact (holds_deleteItem h r w).ends
  | patchOrder r => exact (holds_patch h r w).ends
  | claimJob job r => exact (holds_claimJob h job r w).ends
  | releaseJob job r => exact (holds_releaseJob h job r w).ends

end Requests

/-! ## The system -/

/-- What else may happen: time passes, and anything but a second use of an item's identifier. -/
def Elsewhere (owner : UUID → UUID) (w w' : World Db Time) : Prop :=
  w.now ≤ w'.now ∧ (OwnedWorld owner w → OwnedWorld owner w')

/-- The requests at their start. A statement is labelled with the order its request is about. -/
def arrived {ι : Type} (h : OrderHandlers) (reqs : ι → OrderRequest) (w : World Db Time) :
    Config ι (Option UUID × OrderStmt) Outcome (World Db Time) ApiError OrderResponse where
  state := w
  procs := fun i => ((reqs i).serve h).within fun l => ((reqs i).orderID h, l)

/-- **F6.6.** After any run in which every move respects what the waiting requests rely on, no step
of a request changes what is frozen of an order that is closed when the step is taken. -/
theorem closedOrder_readOnly {ι : Type} [DecidableEq ι] (h : OrderHandlers) (owner : UUID → UUID)
    (reqs : ι → OrderRequest) (hmints : ∀ i, (reqs i).Mints h owner) (w : World Db Time)
    (howned : w.db.Owned owner)
    {c c' : Config ι (Option UUID × OrderStmt) Outcome (World Db Time) ApiError OrderResponse}
    {i : ι} {l : Option UUID × OrderStmt}
    (hrun : Run (Elsewhere owner) (fun l => Rely l.1 l.2) (arrived h reqs w) c)
    (hstep : Step (Elsewhere owner) c (.proc i l) c') : KeepsClosed c.state c'.state := by
  have hsafe : (arrived h reqs w).Safe (OwnedWorld owner) (fun l => Rely l.1 l.2)
      fun _ => KeepsClosed :=
    ⟨howned, fun i => holds_within ((reqs i).holds h (hmints i) w)⟩
  exact hsafe.guarantee (fun _ _ henv => henv.2) hrun hstep

/-! ## A late write -/

/-- Anna adds a kebab to the order of `lunch`. -/
def addKebab : OrderRequest :=
  .addItem { id := ⟨7⟩, snapshot := fun k => ⟨8 + k⟩ }
    { id := (UUID.mk 6).string
      iid := ""
      principal := some { userID := ⟨1⟩, isAdmin := false }
      body := .ok { menuItemID := (UUID.mk 4).string, quantity := 1, note := ""
                    modificationIDs := [] } }

/-- The request, one microsecond before the deadline. -/
def addingKebab :
    Config Unit (Option UUID × OrderStmt) Outcome (World Db Time) ApiError OrderResponse :=
  arrived plainHandlers (fun _ => addKebab) { db := lunch, now := 99000 }

theorem addKebab_mints : addKebab.Mints plainHandlers fun _ => ⟨6⟩ := by
  intro id hid
  have hparse : plainHandlers.rt.parseUUID (UUID.mk 6).string = some ⟨6⟩ := by decide
  rw [hparse] at hid
  exact Option.some.inj hid

theorem lunch_owned (owner : UUID → UUID) : lunch.Owned owner := fun i hi => by cases hi

/-- Every statement up to the commit has gone well; the next one is the commit. -/
def beforeCommit :
    Config Unit (Option UUID × OrderStmt) Outcome (World Db Time) ApiError OrderResponse :=
  addingKebab.advance () (.replicate 6 .ok)

theorem beforeCommit_waitsAt :
    (beforeCommit.procs ()).waitsAt = some (some ⟨6⟩, .addOrderItem .commit) := by
  decide +kernel

/-- Alone, the request commits its item while the order is open. -/
theorem closedOrder_readOnly_addKebab :
    KeepsClosed beforeCommit.state (beforeCommit.advance () [Outcome.ok]).state :=
  closedOrder_readOnly plainHandlers (fun _ => ⟨6⟩) (fun _ => addKebab) (fun _ => addKebab_mints)
    { db := lunch, now := 99000 } (lunch_owned _) (run_alone _ _ _)
    (step_advance beforeCommit_waitsAt Outcome.ok)

/-- The clock passes the deadline while the request is about to commit. -/
def lateCommit :
    Config Unit (Option UUID × OrderStmt) Outcome (World Db Time) ApiError OrderResponse :=
  { beforeCommit with state := { beforeCommit.state with now := 101000 } }

/-- Without the relies, an item is added to a closed order. -/
theorem closedOrder_written :
    ¬ ∀ (h : OrderHandlers) (owner : UUID → UUID) (reqs : Unit → OrderRequest),
      (∀ i, (reqs i).Mints h owner) → ∀ w : World Db Time, w.db.Owned owner →
      ∀ (c c' : Config Unit (Option UUID × OrderStmt) Outcome (World Db Time) ApiError OrderResponse)
        (i : Unit) (l : Option UUID × OrderStmt),
      Run (Elsewhere owner) (fun _ _ _ => True) (arrived h reqs w) c →
      Step (Elsewhere owner) c (.proc i l) c' → KeepsClosed c.state c'.state := by
  intro hevery
  have hpassed : Elsewhere (fun _ => ⟨6⟩) beforeCommit.state lateCommit.state :=
    ⟨by decide +kernel, id⟩
  have hrun : Run (Elsewhere fun _ => ⟨6⟩) (fun _ _ _ => True) addingKebab lateCommit :=
    (run_alone _ _ _).tail (.env hpassed) fun _ _ _ _ => trivial
  have hkeeps := hevery plainHandlers (fun _ => ⟨6⟩) (fun _ => addKebab) (fun _ => addKebab_mints)
    { db := lunch, now := 99000 } (lunch_owned _) _ _ () _ hrun
    (step_advance (c := lateCommit) (i := ()) beforeCommit_waitsAt Outcome.ok)
  have hclosed : Closed lateCommit.state ⟨6⟩ := by decide +kernel
  have hwritten : (lateCommit.advance () [Outcome.ok]).state.db.frozen ⟨6⟩ ≠
      lateCommit.state.db.frozen ⟨6⟩ := by decide +kernel
  exact hwritten (hkeeps ⟨6⟩ hclosed)

end Doenerstag
