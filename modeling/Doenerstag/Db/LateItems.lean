import Doenerstag.Db.DeletionImpact
import Doenerstag.Db.OrderFrame

/-!
# Items that come while their account goes

`DeleteAccount` takes the items of an account out of the open orders in one statement, and the
account in a later one. A request of the same account that is still under way may add an item
between the two. The foreign key then hands it to the placeholder.

* `leaving` — a deletion, and any number of `AddOrderItem` of its account.
* `LeavingStmt.Rely` — nothing is added to an open order between the second statement of the
  deletion and its commit.
* `Leaving` — the invariant.
* `deleteAccount_takesItems` — **along every run that keeps to the rely, nothing the account placed
  is left in an open order.**
* `deleteAccount_leavesItem` — a run that does not, and a kebab that nobody pays for.
-/

namespace Doenerstag

open ReadCommitted Prog Tables

/-! ## The requests -/

inductive LeavingStmt where
  | deletion (s : DeleteAccountStmt)
  | adding (s : AddOrderItemStmt)
  deriving DecidableEq, Repr

/-- One call of `AddOrderItem`. -/
structure Addition where
  fresh : FreshItem
  item : NewOrderItem

/-- The deletion, whose statements find the rows that are there, and the items its account adds. -/
def leaving {κ : Type} (rt : Runtime) (userID : UUID) (now : Time) (additions : κ → Addition) :
    Option κ → DbProgram LeavingStmt Unit
  | none => ((deleteAccount userID now).under Outcome.found).within .deletion
  | some k => do
    let _ ← (addOrderItem rt (additions k).fresh (additions k).item).within .adding
    pure ()

/-- No item is added to an order that is open at that moment. -/
def NoneAdded (start : Db) (now : Time) (w w' : World Db Time) : Prop :=
  ∀ i ∈ w'.db.orderItems, start.itemOpen now i = true → i ∈ w.db.orderItems

/-- What a statement relies on while it waits. -/
def LeavingStmt.Rely (start : Db) (now : Time) : LeavingStmt → World Db Time → World Db Time → Prop
  | .deletion .reassignOrders => NoneAdded start now
  | .deletion .deleteUser => NoneAdded start now
  | .deletion .commit => NoneAdded start now
  | _ => fun _ _ => True

/-- The account is gone, and an item that is left in an open order is one that somebody else had
placed before. -/
def NothingOpen (start : Db) (userID : UUID) (now : Time) (db : Db) : Prop :=
  db.userByID userID = none → ∀ i ∈ db.orderItems, db.itemOpen now i = true →
    ∃ j ∈ start.orderItems, j.id = i.id ∧ j.userID ≠ userID

/-! ## The invariant -/

namespace Db

/-- The orders have the deadlines they had. -/
def SameDeadlines (db db' : Db) : Prop :=
  ∀ id, (db'.foodOrder id).map FoodOrderRow.deadlineAt = (db.foodOrder id).map FoodOrderRow.deadlineAt

section Deadlines

variable {db db' db'' : Db}

theorem SameDeadlines.refl (db : Db) : SameDeadlines db db := fun _ => rfl

theorem SameDeadlines.trans (h : SameDeadlines db db') (h' : SameDeadlines db' db'') :
    SameDeadlines db db'' := fun id => (h' id).trans (h id)

theorem SameDeadlines.itemOpen (h : SameDeadlines db db') (now : Time) (i : OrderItemRow) :
    db'.itemOpen now i = db.itemOpen now i := by
  have hany : ∀ o : Option FoodOrderRow, (o.any fun o => pgTime now < o.deadlineAt) =
      (o.map FoodOrderRow.deadlineAt).any fun deadline => pgTime now < deadline := by
    intro o
    cases o <;> rfl
  unfold Db.itemOpen
  rw [hany, h, hany]

theorem sameDeadlines_map {g : FoodOrderRow → FoodOrderRow} (hid : ∀ o, (g o).id = o.id)
    (hdeadline : ∀ o, (g o).deadlineAt = o.deadlineAt)
    (h : db'.foodOrders = db.foodOrders.map g) : SameDeadlines db db' := by
  intro id
  unfold foodOrder
  rw [h, find?_map_key hid, Option.map_map]
  exact congrArg (fun f => Option.map f _) (funext hdeadline)

/-- A write of the deletion: it may take items away and hand others over, but adds none. -/
structure Thins (db db' : Db) : Prop where
  deadlines : SameDeadlines db db'
  items : ∀ i' ∈ db'.orderItems, ∃ i ∈ db.orderItems, i.id = i'.id ∧ i.orderID = i'.orderID

theorem Thins.refl (db : Db) : Thins db db :=
  ⟨.refl db, fun i hi => ⟨i, hi, rfl, rfl⟩⟩

theorem Thins.trans (h : Thins db db') (h' : Thins db' db'') : Thins db db'' := by
  refine ⟨h.deadlines.trans h'.deadlines, fun i'' hi'' => ?_⟩
  obtain ⟨i', hi', hid', horder'⟩ := h'.items i'' hi''
  obtain ⟨i, hi, hid, horder⟩ := h.items i' hi'
  exact ⟨i, hi, hid.trans hid', horder.trans horder'⟩

theorem thins_map {f : OrderItemRow → OrderItemRow} (hdeadlines : SameDeadlines db db')
    (hid : ∀ i, (f i).id = i.id) (horder : ∀ i, (f i).orderID = i.orderID)
    (h : db'.orderItems = db.orderItems.map f) : Thins db db' := by
  refine ⟨hdeadlines, fun i' hi' => ?_⟩
  rw [h] at hi'
  obtain ⟨i, hi, rfl⟩ := List.mem_map.mp hi'
  exact ⟨i, hi, (hid i).symm, (horder i).symm⟩

theorem reassignOrderItems_thins {now : Time} {seen : List UUID}
    (h : reassignOrderItems now seen db = .ok db') : Thins db db' := by
  unfold reassignOrderItems at h
  split_ifs at h
  cases h
  refine thins_map (.refl db) (fun i => ?_) (fun i => ?_) rfl
  · split_ifs
    · exact i.reassign_id now
    · rfl
  · split_ifs
    · exact i.reassign_orderID now
    · rfl

theorem deleteOrderItems_thins (db : Db) (doomed : OrderItemRow → Bool) :
    Thins db (db.deleteOrderItems doomed) :=
  ⟨.refl db, fun i hi => ⟨i, (mem_keep.mp hi).1, rfl, rfl⟩⟩

theorem reassignFoodOrders_thins {now : Time} {seen : List UUID}
    (h : reassignFoodOrders now seen db = .ok db') : Thins db db' := by
  unfold reassignFoodOrders at h
  split_ifs at h
  cases h
  refine thins_map (f := id) (sameDeadlines_map (fun o => ?_) (fun o => ?_) rfl) (fun _ => rfl)
    (fun _ => rfl) (List.map_id _).symm
  · split_ifs <;> rfl
  · split_ifs <;> rfl

theorem deleteAppUser_thins {userID : UUID} {now : Time} (h : deleteAppUser userID now db = .ok db') :
    Thins db db' ∧ db'.userByID userID = none := by
  unfold deleteAppUser at h
  cases huser : db.userByID userID with
  | none =>
    rw [huser] at h
    cases h
    exact ⟨.refl db, huser⟩
  | some u =>
    simp only [huser] at h
    split_ifs at h
    cases h
    constructor
    · exact thins_map (f := OrderItemRow.forgetUser userID now)
        (sameDeadlines_map (g := FoodOrderRow.forgetUser userID now) (fun _ => rfl) (fun _ => rfl)
          rfl) (fun _ => rfl) (fun _ => rfl) rfl
    · refine List.find?_eq_none.mpr fun v hv => ?_
      have hkept := (mem_keep.mp hv).2
      rw [hkept]
      exact Bool.false_ne_true

end Deadlines

/-- What `AddOrderItem` does: new items of the account, which is there. -/
structure Adds (owner : UUID → UUID) (userID : UUID) (db db' : Db) : Prop where
  foodOrders : db'.foodOrders = db.foodOrders
  appUsers : db'.appUsers = db.appUsers
  items : ∀ i ∈ db'.orderItems, i ∈ db.orderItems ∨
    i.userID = userID ∧ i.orderID = owner i.id ∧ (db.userByID userID).isSome

section Adds

variable {owner : UUID → UUID} {userID : UUID} {db db' db'' : Db}

theorem Adds.refl (db : Db) : Adds owner userID db db := ⟨rfl, rfl, fun _ hi => .inl hi⟩

theorem Adds.userByID (h : Adds owner userID db db') (id : UUID) :
    db'.userByID id = db.userByID id := by
  unfold Db.userByID
  rw [h.appUsers]

theorem Adds.trans (h : Adds owner userID db db') (h' : Adds owner userID db' db'') :
    Adds owner userID db db'' := by
  refine ⟨h'.foodOrders.trans h.foodOrders, h'.appUsers.trans h.appUsers, fun i hi => ?_⟩
  rcases h'.items i hi with hold | ⟨howner, horder, hthere⟩
  · exact h.items i hold
  · exact .inr ⟨howner, horder, h.userByID userID ▸ hthere⟩

theorem insertOrderItem_adds {row : OrderItemRow} (howner : row.userID = userID)
    (horder : row.orderID = owner row.id) (h : insertOrderItem row db = .ok db') :
    Adds owner userID db db' := by
  unfold insertOrderItem at h
  split_ifs at h with hcheck hunique hforeign
  cases h
  refine ⟨rfl, rfl, fun i hi => ?_⟩
  rcases List.mem_append.mp hi with hold | hnew
  · exact .inl hold
  · rw [List.mem_singleton.mp hnew]
    refine .inr ⟨howner, horder, ?_⟩
    simp only [Bool.or_eq_true, not_or, Bool.not_eq_true, Option.isNone_eq_false_iff] at hforeign
    rw [← howner]
    exact hforeign.1.2

theorem insertOrderItemModification_adds {row : OrderItemModificationRow}
    (h : insertOrderItemModification row db = .ok db') : Adds owner userID db db' := by
  unfold insertOrderItemModification at h
  simp only at h
  split_ifs at h
  cases h
  exact ⟨rfl, rfl, fun _ hi => .inl hi⟩

end Adds

end Db

/-- What holds of every state: the orders are as they were, an item that was not there before is the
account's, and with the account its items have left the open orders. -/
structure Leaving (start : Db) (owner : UUID → UUID) (userID : UUID) (now : Time)
    (w : World Db Time) : Prop where
  deadlines : start.SameDeadlines w.db
  owned : w.db.Owned owner
  present : (w.db.userByID userID).isSome → ∀ i ∈ w.db.orderItems,
    i.userID = userID ∨ ∃ j ∈ start.orderItems, j.id = i.id ∧ j.userID ≠ userID
  gone : w.db.userByID userID = none → ∀ i ∈ w.db.orderItems, start.itemOpen now i = true →
    ∃ j ∈ start.orderItems, j.id = i.id ∧ j.userID ≠ userID

section Runs

variable {start : Db} {owner : UUID → UUID} {userID : UUID} {now : Time} {w : World Db Time}

theorem leaving_start (hvalid : w.db.Valid) (howned : w.db.Owned owner) :
    Leaving w.db owner userID now w := by
  refine ⟨.refl _, howned, fun _ i hi => ?_, fun hgone i hi _ => ?_⟩
  · by_cases heq : i.userID = userID
    · exact .inl heq
    · exact .inr ⟨i, hi, rfl, heq⟩
  · -- an item has an owner, and this one is not there
    refine ⟨i, hi, rfl, fun heq => ?_⟩
    obtain ⟨u, hu, hid⟩ := hvalid.refs.itemUser i hi i.userID rfl
    have hnot := List.find?_eq_none.mp hgone u hu
    exact hnot (beq_iff_eq.mpr (hid.trans heq))

theorem Leaving.nothingOpen (h : Leaving start owner userID now w) :
    NothingOpen start userID now w.db := by
  intro hgone i hi hopen
  rw [h.deadlines.itemOpen] at hopen
  exact h.gone hgone i hi hopen

/-- An account that is gone adds nothing. -/
theorem Leaving.adds (h : Leaving start owner userID now w) {db : Db}
    (hadds : Db.Adds owner userID w.db db) : Leaving start owner userID now { w with db } := by
  have horder : ∀ id, db.foodOrder id = w.db.foodOrder id := by
    intro id
    unfold Db.foodOrder
    rw [hadds.foodOrders]
  constructor
  case deadlines =>
    intro id
    show (db.foodOrder id).map _ = _
    rw [horder]
    exact h.deadlines id
  case owned =>
    intro i hi
    rcases hadds.items i hi with hold | ⟨-, howned, -⟩
    · exact h.owned i hold
    · exact howned
  case present =>
    intro hthere i hi
    rcases hadds.items i hi with hold | ⟨howner, -, -⟩
    · exact h.present (hadds.userByID userID ▸ hthere) i hold
    · exact .inl howner
  case gone =>
    intro hgone i hi hopen
    rw [hadds.userByID] at hgone
    rcases hadds.items i hi with hold | ⟨-, -, hthere⟩
    · exact h.gone hgone i hold hopen
    · rw [hgone] at hthere
      cases hthere

/-! ## The requests that add -/

theorem stageOrderItem_adds {I : World Db Time → Prop} (rt : Runtime) (a : Addition)
    (huser : a.item.userID = userID) (howner : owner a.fresh.id = a.item.orderID) :
    (stageOrderItem rt a.fresh a.item).Returns I
      (Tx.Writes fun u => ∀ db db', u db = .ok db' → Db.Adds owner userID db db') := by
  apply stageOrderItem_returns
  · intro dish now db db' h
    exact Db.insertOrderItem_adds huser howner.symm h
  · intro row _ db db' h
    exact Db.insertOrderItemModification_adds h

/-- Every step of such a request keeps the invariant. -/
theorem addOrderItem_keeps (rt : Runtime) (a : Addition) (huser : a.item.userID = userID)
    (howner : owner a.fresh.id = a.item.orderID) :
    (addOrderItem rt a.fresh a.item).Steps fun _ w w' =>
      Leaving start owner userID now w → Leaving start owner userID now w' ∧ True := by
  unfold addOrderItem
  have hreads : ∀ {ℓ α : Type} {p : DbProgram ℓ α} {L : ℓ → Prop}, p.Reads L →
      p.Steps fun _ w w' =>
        Leaving start owner userID now w → Leaving start owner userID now w' ∧ True := by
    intro ℓ α p L hp
    refine Steps.mono hp fun _ w w' hsame h => ?_
    rw [hsame.1]
    exact ⟨h, trivial⟩
  refine (hreads (stageOrderItem_reads rt _ _)).bind_returns
    (stageOrderItem_adds rt a huser howner) fun tx htx => ?_
  refine .bind ?_ fun _ => hreads (L := fun _ => True) (orderItemByID_reads rt _).within
  refine Steps.mapError (write_steps fun e w h => ⟨?_, trivial⟩) _
  cases hcommitted : tx.committed e w.db with
  | error x => exact h
  | ok r =>
    have hview := htx.view Db.Adds.refl (fun _ _ _ => Db.Adds.trans) (tx.committed_eq_ok hcommitted)
    exact h.adds hview

/-! ## The deletion -/

/-- Every item of the account in an open order is among those seen. -/
def AllSeen (start : Db) (userID : UUID) (now : Time) (seen : List UUID) (w : World Db Time) : Prop :=
  ∀ i ∈ w.db.orderItems, i.userID = userID → start.itemOpen now i = true → i.id ∈ seen

theorem AllSeen.stays {seen : List UUID} {w w' : World Db Time}
    (hnone : NoneAdded start now w w') (h : AllSeen start userID now seen w) :
    AllSeen start userID now seen w' :=
  fun i hi howner hopen => h i (hnone i hi hopen) howner hopen

/-- The transaction takes these items away, and adds none. -/
def Spares (seen : List UUID) (tx : PgTx) : Prop :=
  ∀ db db', tx.view db = .ok db' → db.Thins db' ∧ ∀ i ∈ db'.orderItems, i.id ∉ seen

theorem Spares.push {seen : List UUID} {tx : PgTx} (h : Spares seen tx) {u : Db → Except PgError Db}
    (hu : ∀ db db', u db = .ok db' → db.Thins db') : Spares seen (tx.push u) := by
  intro db db' hview
  rw [Tx.view_push] at hview
  cases hv : tx.view db with
  | error x => simp [hv, Except.bind] at hview
  | ok v =>
    simp only [hv, Except.bind] at hview
    obtain ⟨hthins, hspared⟩ := h db v hv
    have hlast := hu v db' hview
    refine ⟨hthins.trans hlast, fun i' hi' => ?_⟩
    obtain ⟨i, hi, hid, -⟩ := hlast.items i' hi'
    rw [← hid]
    exact hspared i hi

/-- The second statement takes away the items it sees. -/
theorem spares_deleteItems {tx : PgTx} (hthins : tx.Writes fun u => ∀ db db', u db = .ok db' → db.Thins db')
    (seen : List UUID) :
    Spares seen (tx.push fun db => .ok (db.deleteOrderItems fun i => seen.contains i.id)) := by
  intro db db' hview
  rw [Tx.view_push] at hview
  cases hv : tx.view db with
  | error x => simp [hv, Except.bind] at hview
  | ok v =>
    simp only [hv, Except.bind, Except.ok.injEq] at hview
    subst hview
    have hfirst := hthins.view Db.Thins.refl (fun _ _ _ => Db.Thins.trans) hv
    refine ⟨hfirst.trans (v.deleteOrderItems_thins _), fun i hi => ?_⟩
    have hkept := (mem_keep.mp hi).2
    simpa using hkept

/-- What the deletion commits. -/
theorem Leaving.commit (h : Leaving start owner userID now w) {seen : List UUID} {tx : PgTx}
    (hseen : AllSeen start userID now seen w) (hspares : Spares seen tx) {began : Time} {db : Db}
    (hview : (tx.push (Db.deleteAppUser userID began)).view w.db = .ok db) :
    Leaving start owner userID now { w with db } := by
  have hpushed := hspares.push (fun _ _ hu => (Db.deleteAppUser_thins hu).1) w.db db hview
  obtain ⟨hthins, hspared⟩ := hpushed
  have hgone : db.userByID userID = none := by
    rw [Tx.view_push] at hview
    cases hv : tx.view w.db with
    | error x => simp [hv, Except.bind] at hview
    | ok v =>
      simp only [hv, Except.bind] at hview
      exact (Db.deleteAppUser_thins hview).2
  constructor
  case deadlines => exact h.deadlines.trans hthins.deadlines
  case owned =>
    intro i' hi'
    obtain ⟨i, hi, hid, horder⟩ := hthins.items i' hi'
    rw [← horder, ← hid]
    exact h.owned i hi
  case present =>
    intro hthere
    rw [hgone] at hthere
    cases hthere
  case gone =>
    intro _ i' hi' hopen'
    obtain ⟨i, hi, hid, horder⟩ := hthins.items i' hi'
    have hopen : start.itemOpen now i = true := by
      rw [Db.itemOpen_congr rfl horder]
      exact hopen'
    rw [← hid]
    cases huser : w.db.userByID userID with
    | none => exact h.gone huser i hi hopen
    | some u =>
      refine (h.present (by rw [huser]; rfl) i hi).resolve_left fun howner => ?_
      -- an item of the account is among those that were taken away
      have hmem := hseen i hi howner hopen
      rw [hid] at hmem
      exact hspared i' hi' hmem

/-- What is handed over is in an order that is over: an item's identifier says which order it is
in. -/
theorem Leaving.expired (h : Leaving start owner userID now w) {i : OrderItemRow}
    (hmem : i.id ∈ w.db.expiredItemsOf userID now) (howned : i.orderID = owner i.id) :
    start.itemOpen now i = false := by
  obtain ⟨j, hj, hid⟩ := List.mem_map.mp hmem
  obtain ⟨hjmem, hexpired⟩ := List.mem_filter.mp hj
  have hsame : i.orderID = j.orderID := by rw [howned, ← hid, ← h.owned j hjmem]
  rw [Bool.and_eq_true] at hexpired
  rw [← h.deadlines.itemOpen, Db.itemOpen_congr rfl hsame]
  unfold Db.itemExpired at hexpired
  unfold Db.itemOpen
  cases ho : w.db.foodOrder j.orderID with
  | none => rfl
  | some o =>
    rw [ho] at hexpired
    have hpast : o.deadlineAt ≤ pgTime now := of_decide_eq_true hexpired.2
    exact decide_eq_false (Int.not_lt.mpr hpast)

/-- The second statement sees the items in open orders, and the first has left them alone. -/
theorem Leaving.allSeen (h : Leaving start owner userID now w) {seen : List UUID} {began : Time}
    {view : Db} (hseen : ∀ i : OrderItemRow, i.id ∈ seen → i.orderID = owner i.id →
      start.itemOpen now i = false)
    (hview : Db.reassignOrderItems began seen w.db = .ok view) :
    AllSeen start userID now (view.openItemsOf userID now) w := by
  intro i hi howner hopen
  have hleft : i.id ∉ seen := by
    intro hmem
    rw [hseen i hmem (h.owned i hi)] at hopen
    cases hopen
  have hdeadlines : start.SameDeadlines view :=
    h.deadlines.trans (Db.reassignOrderItems_thins hview).deadlines
  unfold Db.reassignOrderItems at hview
  split_ifs at hview
  cases hview
  refine List.mem_map.mpr ⟨i, List.mem_filter.mpr ⟨?_, ?_⟩, rfl⟩
  · refine List.mem_map.mpr ⟨i, hi, ?_⟩
    simp [hleft]
  · rw [hdeadlines.itemOpen, hopen, howner]
    simp

/-- **Up to the commit.** When it comes to it, the deletion has seen every item of the account that
is in an open order. -/
theorem remapAndDelete_holds (tx : PgTx) (htx : tx.writes = []) (w : World Db Time) :
    ((remapAndDelete tx userID now).under Outcome.found).Holds (Leaving start owner userID now)
      (fun l => LeavingStmt.Rely start now (.deletion l)) (fun _ _ _ => True)
      (Ends fun tx' w => ∃ seen staged began, AllSeen start userID now seen w ∧
        Spares seen staged ∧ tx' = staged.push (Db.deleteAppUser userID began)) w := by
  unfold remapAndDelete
  simp only [under_bind, under_mapError, under_require, pure_eq, under_done]
  refine holds_seq (ends_mapError (Tx.holds_exec (F := fun _ => True) tx _ (fun _ _ _ _ => trivial)
    (fun _ => trivial) trivial)) ?_
  rintro tx₁ w₁ ⟨-, hinv₁, view₁, hview₁, rfl⟩
  have hfirst : view₁ = w₁.db := by
    rw [Tx.view, htx] at hview₁
    cases hview₁
    rfl
  subst hfirst
  refine holds_seq (ends_mapError (Tx.holds_exec (F := fun _ => True) _ _ (fun _ _ _ _ => trivial)
    (fun _ => trivial) trivial)) ?_
  rintro tx₂ w₂ ⟨-, hinv₂, view₂, hview₂, rfl⟩
  have hreassigned : Db.reassignOrderItems tx.began (w₁.db.expiredItemsOf userID now) w₂.db =
      .ok view₂ := by
    rw [Tx.view_push, Tx.view, htx] at hview₂
    exact hview₂
  have hseen := hinv₂.allSeen (fun i => hinv₁.expired) hreassigned
  have hthins : (tx.push (Db.reassignOrderItems tx.began (w₁.db.expiredItemsOf userID now))).Writes
      fun u => ∀ db db', u db = .ok db' → db.Thins db' := by
    intro u hu db db' h
    rw [Tx.push, htx, List.nil_append, List.mem_singleton] at hu
    rw [hu] at h
    exact Db.reassignOrderItems_thins h
  have hspares := spares_deleteItems hthins (view₂.openItemsOf userID now)
  -- from here on nothing is added to an open order
  refine holds_seq (ends_mapError (Tx.holds_exec (F := AllSeen start userID now _) _ _
    (fun _ _ => AllSeen.stays) (fun _ => trivial) hseen)) ?_
  rintro tx₃ w₃ ⟨hseen, -, view₃, -, rfl⟩
  refine holds_seq (ends_mapError (Tx.holds_execRows (F := AllSeen start userID now _) _ _ _
    (fun _ _ => AllSeen.stays) (fun _ => trivial) hseen)) ?_
  rintro ⟨tx₄, rows⟩ w₄ ⟨hseen, -, view₄, -, hpush⟩
  refine holds_seq (M := fun _ w => AllSeen start userID now _ w) (ends_require fun _ => hseen) ?_
  intro _ w₅ hseen
  exact ends_done ⟨_, _, _, hseen,
    hspares.push fun _ _ => Db.reassignFoodOrders_thins, hpush⟩

/-- **The deletion holds.** -/
theorem deleteAccount_holds (hnow : now ≠ zeroTime) (w : World Db Time) :
    ((deleteAccount userID now).under Outcome.found).Holds (Leaving start owner userID now)
      (fun l => LeavingStmt.Rely start now (.deletion l)) (fun _ _ _ => True)
      (fun _ _ => True) w := by
  unfold deleteAccount stampAt
  rw [if_neg hnow, pure_eq, done_bind]
  simp only [under_bind, under_mapError]
  refine Holds.ends (M := fun _ _ => True) ?_
  refine holds_seq (M := fun tx _ => tx.writes = []) (ends_mapError ?_) ?_
  · rw [begin, under_read]
    refine holds_read fun w' _ _ => ⟨trivial, fun e tx htx => ?_⟩
    rw [Outcome.rows_eq_ok htx]
  intro tx w₁ htx
  refine holds_seq (remapAndDelete_holds tx htx w₁) ?_
  rintro tx' w₂ ⟨seen, staged, began, hseen, hspares, rfl⟩
  refine ends_mapError ?_
  rw [Tx.commit, under_write]
  refine holds_write fun w' hwait hinv e => ?_
  have hkeeps : ∀ w₁ w₂, NoneAdded start now w₁ w₂ → AllSeen start userID now seen w₁ →
      AllSeen start userID now seen w₂ := fun _ _ => AllSeen.stays
  have hseen' : AllSeen start userID now seen w' := star_keeps hkeeps hwait hseen
  refine ⟨?_, trivial, fun _ _ => trivial⟩
  cases hcommitted : (staged.push (Db.deleteAppUser userID began)).committed e.found w'.db with
  | error x => exact hinv
  | ok r => exact hinv.commit hseen' hspares (Tx.committed_eq_ok _ hcommitted)

end Runs

/-! ## The system -/

/-- The deletion and the additions at their start. -/
def accountLeaves {κ : Type} (rt : Runtime) (userID : UUID) (now : Time) (additions : κ → Addition)
    (w : World Db Time) :
    Config (Option κ) LeavingStmt Outcome (World Db Time) DbError Unit where
  state := w
  procs := leaving rt userID now additions

theorem leaving_holds {κ : Type} {start : Db} {owner : UUID → UUID} {userID : UUID} {now : Time}
    (rt : Runtime) (hnow : now ≠ zeroTime) {additions : κ → Addition}
    (huser : ∀ k, (additions k).item.userID = userID)
    (hmints : ∀ k, owner (additions k).fresh.id = (additions k).item.orderID) (i : Option κ)
    (w : World Db Time) :
    (leaving rt userID now additions i).Holds (Leaving start owner userID now)
      (LeavingStmt.Rely start now) (fun _ _ _ => True) (fun _ _ => True) w := by
  cases i with
  | none => exact holds_within (deleteAccount_holds hnow w)
  | some k =>
    have hsteps : (addOrderItem rt (additions k).fresh (additions k).item).Steps fun _ w w' =>
        Leaving start owner userID now w → Leaving start owner userID now w' ∧ True :=
      addOrderItem_keeps rt (additions k) (huser k) (hmints k)
    exact Steps.holds (.bind (.within hsteps) fun _ => steps_done _) w

/-- **Nobody's open-order food survives their account**, if nothing is added to an open order while
the deletion is between its second statement and its commit. Every other time than the zero one is
the moment of the deletion. -/
theorem deleteAccount_takesItems {κ : Type} [DecidableEq κ] (rt : Runtime) (owner : UUID → UUID)
    (userID : UUID) (now : Time) (hnow : now ≠ zeroTime) (additions : κ → Addition)
    (huser : ∀ k, (additions k).item.userID = userID)
    (hmints : ∀ k, owner (additions k).fresh.id = (additions k).item.orderID)
    (w : World Db Time) (hvalid : w.db.Valid) (howned : w.db.Owned owner)
    {c : Config (Option κ) LeavingStmt Outcome (World Db Time) DbError Unit}
    (hrun : Run OnlyTime (LeavingStmt.Rely w.db now) (accountLeaves rt userID now additions w) c) :
    NothingOpen w.db userID now c.state.db := by
  have hsafe : (accountLeaves rt userID now additions w).Safe (Leaving w.db owner userID now)
      (LeavingStmt.Rely w.db now) fun _ _ _ => True :=
    ⟨leaving_start hvalid howned, fun i => leaving_holds rt hnow huser hmints i w⟩
  have htime : ∀ w₁ w₂ : World Db Time, OnlyTime w₁ w₂ → Leaving w.db owner userID now w₁ →
      Leaving w.db owner userID now w₂ := by
    intro w₁ w₂ hsame h
    rw [OnlyTime] at hsame
    exact ⟨hsame ▸ h.deadlines, hsame ▸ h.owned, hsame ▸ h.present, hsame ▸ h.gone⟩
  exact (hsafe.run htime hrun).inv.nothingOpen

/-! ## Anna's second kebab -/

def secondKebab : Addition where
  fresh := { id := ⟨8⟩, snapshot := fun k => ⟨9 + k⟩ }
  item := { orderID := ⟨6⟩, userID := ⟨1⟩, menuItemID := ⟨4⟩, quantity := 1, note := ""
            modificationIDs := [] }

/-- Anna adds a kebab to the open order while her account is being deleted. -/
def annaLeaves : Config (Option Unit) LeavingStmt Outcome (World Db Time) DbError Unit :=
  accountLeaves .ascii ⟨1⟩ 0 (fun _ => secondKebab) { db := annasLunch, now := 0 }

theorem annasLunch_owned : annasLunch.Owned fun _ => ⟨6⟩ := by
  unfold Db.Owned
  decide +kernel

/-- The kebab comes first, and goes with the account. -/
theorem deleteAccount_takesItems_anna :
    NothingOpen annasLunch ⟨1⟩ 0
      ((annaLeaves.advance (some ()) (.replicate 12 .ok)).advance none
        (.replicate 12 .ok)).state.db := by
  have hnotYet : ∀ (j : Option Unit) l, j ≠ some () → (annaLeaves.procs j).waitsAt = some l →
      ∀ w w', LeavingStmt.Rely annasLunch 0 l w w' := by
    intro j l hj hl w w'
    have hbegin : (annaLeaves.procs none).waitsAt = some (.deletion .begin) := by decide +kernel
    cases j with
    | some u => exact absurd rfl hj
    | none =>
      cases hbegin.symm.trans hl
      trivial
  have hdone : ∀ (j : Option Unit) l, j ≠ none →
      ((annaLeaves.advance (some ()) (.replicate 12 .ok)).procs j).waitsAt = some l →
      ∀ w w', LeavingStmt.Rely annasLunch 0 l w w' := by
    intro j l hj hl w w'
    have hended : ((annaLeaves.advance (some ()) (.replicate 12 .ok)).procs (some ())).waitsAt =
        none := by decide +kernel
    cases j with
    | some u => cases hended.symm.trans hl
    | none => exact absurd rfl hj
  exact deleteAccount_takesItems .ascii (fun _ => ⟨6⟩) ⟨1⟩ 0 (by decide +kernel)
    (fun _ => secondKebab) (fun _ => rfl) (fun _ => rfl) { db := annasLunch, now := 0 }
    annasLunch_valid annasLunch_owned
    ((run_advance_others hnotYet _).trans (run_advance_others hdone _))

/-- The kebab comes between the second statement of the deletion and its commit. -/
def kebabBetween : Config (Option Unit) LeavingStmt Outcome (World Db Time) DbError Unit :=
  ((annaLeaves.advance none (.replicate 3 .ok)).advance (some ()) (.replicate 12 .ok)).advance none
    (.replicate 12 .ok)

/-- Without the rely, an item stays in an open order, and is nobody's. -/
theorem deleteAccount_leavesItem :
    ¬ ∀ (rt : Runtime) (owner : UUID → UUID) (userID : UUID) (now : Time), now ≠ zeroTime →
      ∀ additions : Unit → Addition, (∀ k, (additions k).item.userID = userID) →
      (∀ k, owner (additions k).fresh.id = (additions k).item.orderID) →
      ∀ w : World Db Time, w.db.Valid → w.db.Owned owner →
      ∀ c : Config (Option Unit) LeavingStmt Outcome (World Db Time) DbError Unit,
      Run OnlyTime (fun _ _ _ => True) (accountLeaves rt userID now additions w) c →
      NothingOpen w.db userID now c.state.db := by
  intro h
  have hquiet : ∀ (c : Config (Option Unit) LeavingStmt Outcome (World Db Time) DbError Unit) m c',
      Undisturbed (fun _ _ _ => True) c m c' := fun _ _ _ _ _ _ _ => trivial
  have hrun : Run OnlyTime (fun _ _ _ => True) annaLeaves kebabBetween :=
    ((run_advance hquiet _ _ _).trans (run_advance hquiet _ _ _)).trans (run_advance hquiet _ _ _)
  have hnothing := h .ascii (fun _ => ⟨6⟩) ⟨1⟩ 0 (by decide +kernel) (fun _ => secondKebab)
    (fun _ => rfl) (fun _ => rfl) { db := annasLunch, now := 0 } annasLunch_valid annasLunch_owned _
    hrun
  have hgone : kebabBetween.state.db.userByID ⟨1⟩ = none := by decide +kernel
  have hleft : ∃ i ∈ kebabBetween.state.db.orderItems, kebabBetween.state.db.itemOpen 0 i = true ∧
      ¬ ∃ j ∈ annasLunch.orderItems, j.id = i.id ∧ j.userID ≠ ⟨1⟩ := by decide +kernel
  obtain ⟨i, hi, hopen, hnobody⟩ := hleft
  exact hnobody (hnothing hgone i hi hopen)

end Doenerstag
