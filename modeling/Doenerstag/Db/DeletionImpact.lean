import Doenerstag.Db.Deletion

/-!
# The deletion warning is exact

What `ImpactOfDeleting` counts, against what `DeleteAccount` leaves.

* `Db.accountDeleted` — the tables after the transaction, and what an item and an order look like in
  them;
* `deletionImpact_exact` — **each number of the warning is the number of rows to which what it
  announces happens, and nothing else happens to an item.**
-/

namespace Doenerstag

open ReadCommitted Prog Tables

namespace Db

variable (db : Db) (userID : UUID) (now stamp : Time)

/-! ## The tables after the deletion -/

def itemsReassigned : Db :=
  db.setOrderItems (db.orderItems.map fun i =>
    if (db.expiredItemsOf userID stamp).contains i.id then i.reassign now else i)

def itemsDeleted : Db :=
  db.deleteOrderItems fun i => (db.openItemsOf userID stamp).contains i.id

def ordersReassigned : Db :=
  db.setFoodOrders (db.foodOrders.map fun o =>
    if (db.createdOrders userID).contains o.id then o.reassign now else o)

/-- The tables after the four statements. -/
def accountDeleted : Db :=
  (((db.itemsReassigned userID now stamp).itemsDeleted userID stamp).ordersReassigned
    userID now).cascadeAppUser userID now

variable {db userID now stamp}

theorem itemOpen_congr {i j : OrderItemRow} {db' : Db} (horders : db'.foodOrders = db.foodOrders)
    (hij : j.orderID = i.orderID) : db'.itemOpen stamp j = db.itemOpen stamp i := by
  rw [itemOpen, foodOrder, horders, hij]
  rfl

theorem itemExpired_eq_not {i : OrderItemRow} (hvalid : db.Valid) (hi : i ∈ db.orderItems) :
    db.itemExpired stamp i = !db.itemOpen stamp i := by
  obtain ⟨o, ho, hid⟩ := hvalid.refs.itemOrder i hi i.orderID rfl
  have hfound : db.foodOrder i.orderID = some o := by
    rw [← hid]
    exact find?_key hvalid.keys.foodOrders ho
  rw [itemExpired, itemOpen, hfound, Option.any_some, Option.any_some]
  by_cases hopen : pgTime stamp < o.deadlineAt
  · simp [hopen]
  · simp [hopen, not_lt.mp hopen]

end Db

theorem OrderItemRow.reassign_id (now : Time) (i : OrderItemRow) : (i.reassign now).id = i.id := by
  unfold OrderItemRow.reassign OrderItemRow.update
  split_ifs <;> rfl

theorem OrderItemRow.reassign_orderID (now : Time) (i : OrderItemRow) :
    (i.reassign now).orderID = i.orderID := by
  unfold OrderItemRow.reassign OrderItemRow.update
  split_ifs <;> rfl

theorem OrderItemRow.reassign_userID (now : Time) (i : OrderItemRow) :
    (i.reassign now).userID = deletedUserID := by
  unfold OrderItemRow.reassign OrderItemRow.update
  split_ifs with hsame
  · exact (congrArg OrderItemRow.userID hsame).symm
  · rfl

namespace Db

variable {db : Db} {userID : UUID} {now stamp : Time}

/-- An item after the first statement. -/
def reassignedItem (db : Db) (userID : UUID) (now stamp : Time) (i : OrderItemRow) : OrderItemRow :=
  if (db.expiredItemsOf userID stamp).contains i.id then i.reassign now else i

theorem reassignedItem_id (i : OrderItemRow) :
    (db.reassignedItem userID now stamp i).id = i.id := by
  unfold reassignedItem
  split_ifs
  · exact OrderItemRow.reassign_id now i
  · rfl

theorem reassignedItem_orderID (i : OrderItemRow) :
    (db.reassignedItem userID now stamp i).orderID = i.orderID := by
  unfold reassignedItem
  split_ifs
  · exact OrderItemRow.reassign_orderID now i
  · rfl

variable (userID now stamp) in
theorem reassignedItem_userID (hvalid : db.Valid) {i : OrderItemRow} (hi : i ∈ db.orderItems) :
    (db.reassignedItem userID now stamp i).userID =
      if i.userID = userID ∧ db.itemOpen stamp i = false then deletedUserID else i.userID := by
  have hseen : (db.expiredItemsOf userID stamp).contains i.id =
      (i.userID == userID && db.itemExpired stamp i) :=
    contains_selected hvalid.keys.orderItems hi
  unfold reassignedItem
  rw [hseen, itemExpired_eq_not hvalid hi]
  by_cases howner : i.userID = userID <;> cases db.itemOpen stamp i <;>
    simp [howner, OrderItemRow.reassign_userID]

variable (userID now stamp) in
/-- **What becomes of an item.** -/
theorem accountDeleted_orderItem (hvalid : db.Valid) {i : OrderItemRow} (hi : i ∈ db.orderItems) :
    ((db.accountDeleted userID now stamp).orderItem i.id).map OrderItemRow.userID =
      if i.userID = userID ∧ db.itemOpen stamp i = true then none
      else some (if i.userID = userID then deletedUserID else i.userID) := by
  have hitems : (db.itemsReassigned userID now stamp).orderItems =
      db.orderItems.map (db.reassignedItem userID now stamp) := rfl
  have hkeys : ((db.itemsReassigned userID now stamp).orderItems.map OrderItemRow.id).Nodup := by
    rw [hitems, List.map_map]
    exact (List.map_congr_left fun i _ => reassignedItem_id i).symm ▸ hvalid.keys.orderItems
  have hmem : db.reassignedItem userID now stamp i ∈ (db.itemsReassigned userID now stamp).orderItems :=
    hitems ▸ List.mem_map_of_mem hi
  -- the second statement deletes those that are still the account's and whose order is open
  have hdoomed : ((db.itemsReassigned userID now stamp).openItemsOf userID stamp).contains
      (db.reassignedItem userID now stamp i).id =
        ((db.reassignedItem userID now stamp i).userID == userID && db.itemOpen stamp i) := by
    have hopen : (db.itemsReassigned userID now stamp).itemOpen stamp
        (db.reassignedItem userID now stamp i) = db.itemOpen stamp i :=
      itemOpen_congr rfl (reassignedItem_orderID i)
    rw [openItemsOf, contains_selected hkeys hmem, hopen]
  have hkept : ((db.itemsReassigned userID now stamp).itemsDeleted userID stamp).orderItem i.id =
      if (db.reassignedItem userID now stamp i).userID = userID ∧ db.itemOpen stamp i = true
      then none else some (db.reassignedItem userID now stamp i) := by
    have hfind : ((db.itemsReassigned userID now stamp).itemsDeleted userID stamp).orderItem
        (db.reassignedItem userID now stamp i).id = _ := find?_keep hkeys hmem
    rw [hdoomed] at hfind
    simp only [reassignedItem_id, Bool.and_eq_true, beq_iff_eq] at hfind
    exact hfind
  -- the fourth changes what is left in place
  have hlast : (db.accountDeleted userID now stamp).orderItem i.id =
      (((db.itemsReassigned userID now stamp).itemsDeleted userID stamp).orderItem i.id).map
        (OrderItemRow.forgetUser userID now) :=
    find?_map_key (f := OrderItemRow.forgetUser userID now) (fun _ => rfl) _ _
  rw [hlast, hkept, reassignedItem_userID userID now stamp hvalid hi]
  by_cases howner : i.userID = userID
  · cases hopen : db.itemOpen stamp i with
    | true => simp [howner]
    | false =>
      have hafter := reassignedItem_userID userID now stamp hvalid hi
      rw [if_pos ⟨howner, hopen⟩] at hafter
      simp [howner, OrderItemRow.forgetUser, hafter]
  · have hafter := reassignedItem_userID userID now stamp hvalid hi
    rw [if_neg fun h => howner h.1] at hafter
    simp [howner, OrderItemRow.forgetUser, hafter]

variable (userID now stamp) in
/-- What becomes of an order. -/
theorem accountDeleted_foodOrder (hvalid : db.Valid) {o : FoodOrderRow} (ho : o ∈ db.foodOrders) :
    ∃ p, (db.accountDeleted userID now stamp).foodOrder o.id = some p ∧
      p.creatorID = (if o.creatorID = userID then deletedUserID else o.creatorID) ∧
      p.moneyCollectorID = forgetActor userID o.moneyCollectorID ∧
      p.pickupPersonID = forgetActor userID o.pickupPersonID := by
  have hfound : db.foodOrder o.id = some o := find?_key hvalid.keys.foodOrders ho
  have hseen : (db.createdOrders userID).contains o.id = (o.creatorID == userID) :=
    contains_selected hvalid.keys.foodOrders ho
  have hthird : ∀ o : FoodOrderRow,
      (if (db.createdOrders userID).contains o.id then o.reassign now else o).id = o.id := by
    intro o
    split_ifs <;> rfl
  have hlast : (db.accountDeleted userID now stamp).foodOrder o.id =
      ((db.foodOrder o.id).map fun o =>
        if (db.createdOrders userID).contains o.id then o.reassign now else o).map
          (FoodOrderRow.forgetUser userID now) :=
    (find?_map_key (f := FoodOrderRow.forgetUser userID now) (fun _ => rfl) _ _).trans
      (congrArg _ (find?_map_key hthird _ _))
  refine ⟨_, by rw [hlast, hfound]; rfl, ?_⟩
  simp only [hseen]
  by_cases hcreator : o.creatorID = userID
  · rw [beq_iff_eq.mpr hcreator, if_pos rfl, if_pos hcreator]
    refine ⟨?_, rfl, rfl⟩
    show (if deletedUserID = userID then deletedUserID else deletedUserID) = deletedUserID
    split_ifs <;> rfl
  · rw [beq_false_of_ne hcreator, if_neg hcreator]
    exact ⟨if_neg hcreator, rfl, rfl⟩

end Db

/-! ## The two runs -/

section Runs

variable {w : World Db Time} {userID : UUID} {user : AppUserRow}

theorem reassignOrderItems_eq {db : Db} (hplaceholder : db.hasPlaceholder = true) (now : Time)
    (seen : List UUID) : Db.reassignOrderItems now seen db =
      .ok (db.setOrderItems
        (db.orderItems.map fun i => if seen.contains i.id then i.reassign now else i)) := by
  unfold Db.reassignOrderItems
  simp [hplaceholder]

theorem reassignFoodOrders_eq {db : Db} (hplaceholder : db.hasPlaceholder = true) (now : Time)
    (seen : List UUID) : Db.reassignFoodOrders now seen db =
      .ok (db.setFoodOrders
        (db.foodOrders.map fun o => if seen.contains o.id then o.reassign now else o)) := by
  unfold Db.reassignFoodOrders
  simp [hplaceholder]

theorem deleteAppUser_eq {db : Db} (hplaceholder : db.hasPlaceholder = true)
    (huser : db.userByID userID = some user) (hprotected : userID ≠ deletedUserID)
    (hadmin : user.isAdmin = false) (now : Time) :
    Db.deleteAppUser userID now db = .ok (db.cascadeAppUser userID now) := by
  have hid : user.id = userID := by simpa using List.find?_some huser
  unfold Db.deleteAppUser
  simp [huser, hid, hprotected, hadmin, hplaceholder]

theorem remapAndDelete_run (hplaceholder : w.db.hasPlaceholder = true)
    (huser : w.db.userByID userID = some user) (hprotected : userID ≠ deletedUserID)
    (hadmin : user.isAdmin = false) (stamp : Time) :
    ∃ tx : PgTx, (remapAndDelete { began := w.now, writes := [] } userID stamp).run
        (fun _ => Outcome.ok) w = (.ok tx, w) ∧
      tx.view w.db = .ok (w.db.accountDeleted userID w.now stamp) := by
  have hplaceholder₃ : ((w.db.itemsReassigned userID w.now stamp).itemsDeleted userID
      stamp).hasPlaceholder = true := hplaceholder
  have hplaceholder₄ : (((w.db.itemsReassigned userID w.now stamp).itemsDeleted userID
      stamp).ordersReassigned userID w.now).hasPlaceholder = true := hplaceholder
  have huser₄ : (((w.db.itemsReassigned userID w.now stamp).itemsDeleted userID
      stamp).ordersReassigned userID w.now).userByID userID = some user := huser
  -- the account is still there when the last statement looks for it
  have hrows : ((((w.db.itemsReassigned userID w.now stamp).itemsDeleted userID
      stamp).ordersReassigned userID w.now).appUsers.countP fun u => u.id == userID) ≠ 0 := by
    have hselected := List.find?_some huser
    rw [Nat.ne_zero_iff_zero_lt, List.countP_pos_iff]
    exact ⟨user, List.mem_of_find?_eq_some huser, hselected⟩
  have hfirst : Db.reassignOrderItems w.now (w.db.expiredItemsOf userID stamp) w.db =
      .ok (w.db.itemsReassigned userID w.now stamp) := reassignOrderItems_eq hplaceholder _ _
  obtain ⟨hrun₁, hview₁⟩ := Tx.run_exec (ω := fun _ : DeleteAccountStmt => Outcome.ok)
    (l := .reassignItems) rfl (Tx.view_nil w.now w.db)
    (u := fun view => Db.reassignOrderItems w.now (view.expiredItemsOf userID stamp)) hfirst
  obtain ⟨hrun₂, hview₂⟩ := Tx.run_exec (ω := fun _ : DeleteAccountStmt => Outcome.ok)
    (l := .deleteItems) rfl hview₁ (u := fun view db =>
      .ok (db.deleteOrderItems fun i => (view.openItemsOf userID stamp).contains i.id)) rfl
  obtain ⟨hrun₃, hview₃⟩ := Tx.run_exec (ω := fun _ : DeleteAccountStmt => Outcome.ok)
    (l := .reassignOrders) rfl hview₂
    (u := fun view => Db.reassignFoodOrders w.now (view.createdOrders userID))
    (reassignFoodOrders_eq hplaceholder₃ _ _)
  obtain ⟨hrun₄, hview₄⟩ := Tx.run_execRows (ω := fun _ : DeleteAccountStmt => Outcome.ok)
    (l := .deleteUser) rfl hview₃ (u := fun _ => Db.deleteAppUser userID w.now)
    (n := fun view => view.appUsers.countP fun u => u.id == userID)
    (deleteAppUser_eq hplaceholder₄ huser₄ hprotected hadmin w.now)
  refine ⟨_, ?_, hview₄⟩
  refine (run_bind_of_ok (run_mapError_of_ok hrun₁)).trans ?_
  refine (run_bind_of_ok (run_mapError_of_ok hrun₂)).trans ?_
  refine (run_bind_of_ok (run_mapError_of_ok hrun₃)).trans ?_
  refine (run_bind_of_ok (run_mapError_of_ok hrun₄)).trans ?_
  exact run_require_bind (bne_iff_ne.mpr hrows)

theorem deleteAccount_run (userID : UUID) (hplaceholder : w.db.hasPlaceholder = true)
    (huser : w.db.userByID userID = some user) (hprotected : userID ≠ deletedUserID)
    (hadmin : user.isAdmin = false) (now : Time) :
    (deleteAccount userID now).run (fun _ => Outcome.ok) w =
      (.ok (), { w with db := w.db.accountDeleted userID w.now (stampOf w.now now) }) := by
  obtain ⟨tx, hrun, hview⟩ :=
    remapAndDelete_run hplaceholder huser hprotected hadmin (stampOf w.now now)
  refine (run_bind_of_ok (stampAt_run _ now)).trans ?_
  refine (run_bind_of_ok (run_mapError_of_ok (run_begin rfl))).trans ?_
  refine (run_bind_of_ok hrun).trans ?_
  exact run_mapError_of_ok (Tx.run_commit rfl hview)

theorem impactOfDeleting_run (now : Time) :
    (impactOfDeleting userID now).run (fun _ => Outcome.ok) w =
      (.ok (w.db.deletionImpact userID (stampOf w.now now)), w) := by
  refine (run_bind_of_ok (stampAt_run _ now)).trans ?_
  exact run_mapError_of_ok (run_queryRow rfl rfl)

end Runs

/-! ## The numbers -/

/-- **What the warning says is what happens** between two states of the tables. -/
structure DeletionImpact.Describes (impact : DeletionImpact) (userID : UUID) (stamp : Time)
    (before after : Db) : Prop where
  activeItems : impact.activeItems =
    before.orderItems.countP fun i => (after.orderItem i.id).isNone
  expiredItems : impact.expiredItems =
    before.orderItems.countP fun i =>
      (after.orderItem i.id).any fun j => j.userID != i.userID && j.userID == deletedUserID
  createdActiveOrders : impact.createdActiveOrders =
    before.foodOrders.countP fun o => pgTime stamp < o.deadlineAt &&
      (after.foodOrder o.id).any fun p => p.creatorID != o.creatorID && p.creatorID == deletedUserID
  activeJobs : impact.activeJobs =
    before.foodOrders.countP fun o => pgTime stamp < o.deadlineAt &&
      (after.foodOrder o.id).any fun p =>
        (o.moneyCollectorID.isSome && p.moneyCollectorID.isNone) ||
          (o.pickupPersonID.isSome && p.pickupPersonID.isNone)
  activeOrders : impact.activeOrders =
    before.foodOrders.countP fun o => pgTime stamp < o.deadlineAt &&
      before.isParticipant o.id userID == some true
  /-- an item of somebody else stays, and stays theirs -/
  otherItems : ∀ i ∈ before.orderItems, i.userID ≠ userID →
    (after.orderItem i.id).map OrderItemRow.userID = some i.userID
  /-- an item that stays is its owner's or the placeholder's -/
  newOwner : ∀ i ∈ before.orderItems, ∀ j, after.orderItem i.id = some j →
    j.userID = i.userID ∨ j.userID = deletedUserID

section Numbers

variable {db : Db} {userID : UUID} {now stamp : Time}

theorem holdsJob_vacated (o : FoodOrderRow) :
    Db.holdsJob userID o =
      ((o.moneyCollectorID.isSome && (forgetActor userID o.moneyCollectorID).isNone) ||
        (o.pickupPersonID.isSome && (forgetActor userID o.pickupPersonID).isNone)) := by
  have hjob : ∀ holder : Option UUID, (holder == some userID) =
      (holder.isSome && (forgetActor userID holder).isNone) := by
    intro holder
    unfold forgetActor
    cases holder with
    | none => rfl
    | some id => by_cases hid : id = userID <;> simp [hid]
  rw [Db.holdsJob, hjob, hjob]

/-- The join finds an order exactly when its person takes part in it. -/
theorem leftJoin_participates (hkeys : (db.foodOrders.map FoodOrderRow.id).Nodup) {o : FoodOrderRow}
    (ho : o ∈ db.foodOrders) :
    (∃ row ∈ db.leftJoinOwnItems userID o,
      (o.creatorID == userID || row.2.isSome || Db.holdsJob userID o) = true) ↔
      db.isParticipant o.id userID = some true := by
  have hfound : db.foodOrder o.id = some o := find?_key hkeys ho
  rw [Db.isParticipant, hfound, Option.map_some, Option.some.injEq, Db.leftJoinOwnItems, Db.holdsJob]
  cases hown : db.orderItems.filter fun i => i.orderID == o.id && i.userID == userID with
  | nil =>
    have hnone : (db.orderItems.any fun i => i.orderID == o.id && i.userID == userID) = false := by
      rw [List.any_eq_false]
      intro i hi hsel
      have hmem : i ∈ db.orderItems.filter fun i => i.orderID == o.id && i.userID == userID :=
        List.mem_filter.mpr ⟨hi, hsel⟩
      rw [hown] at hmem
      cases hmem
    simp [hnone, or_assoc]
  | cons i rest =>
    have hmem : i ∈ db.orderItems.filter fun i => i.orderID == o.id && i.userID == userID := by
      rw [hown]
      exact List.mem_cons_self
    have hsome : (db.orderItems.any fun i => i.orderID == o.id && i.userID == userID) = true :=
      List.any_eq_true.mpr ⟨i, List.mem_filter.mp hmem⟩
    simp [hsome]

theorem deletionImpact_activeOrders (hkeys : (db.foodOrders.map FoodOrderRow.id).Nodup) :
    (db.deletionImpact userID stamp).activeOrders =
      db.foodOrders.countP fun o =>
        pgTime stamp < o.deadlineAt && db.isParticipant o.id userID == some true := by
  have hjoined : ∀ o, ∀ row ∈ db.leftJoinOwnItems userID o, row.1 = o := by
    intro o row hrow
    unfold Db.leftJoinOwnItems at hrow
    split at hrow
    · rw [List.mem_singleton.mp hrow]
    · obtain ⟨i, -, rfl⟩ := List.mem_map.mp hrow
      rfl
  have hkept : ((db.foodOrders.filter fun o =>
      pgTime stamp < o.deadlineAt && db.isParticipant o.id userID == some true).map
        FoodOrderRow.id).Nodup :=
    hkeys.sublist (List.filter_sublist.map _)
  rw [List.countP_eq_length_filter, ← List.length_map (f := FoodOrderRow.id)]
  refine ((List.perm_ext_iff_of_nodup (List.nodup_dedup _) hkept).mpr fun id => ?_).length_eq
  simp only [List.mem_dedup, List.mem_map, List.mem_filter, List.mem_flatMap, Bool.and_eq_true,
    decide_eq_true_eq, beq_iff_eq]
  constructor
  · rintro ⟨row, ⟨⟨o, ho, hrow⟩, hopen, hpart⟩, rfl⟩
    have hsame := hjoined o row hrow
    refine ⟨o, ⟨ho, hsame ▸ hopen, ?_⟩, by rw [hsame]⟩
    exact (leftJoin_participates hkeys ho).mp ⟨row, hrow, hsame ▸ hpart⟩
  · rintro ⟨o, ⟨ho, hopen, hpart⟩, rfl⟩
    obtain ⟨row, hrow, hpart'⟩ := (leftJoin_participates hkeys ho).mpr hpart
    have hsame := hjoined o row hrow
    exact ⟨row, ⟨⟨o, ho, hrow⟩, hsame.symm ▸ hopen, hsame.symm ▸ hpart'⟩, by rw [hsame]⟩

variable (userID now stamp) in
/-- The three things that may become of an item. -/
theorem accountDeleted_cases (hvalid : db.Valid) {i : OrderItemRow} (hi : i ∈ db.orderItems) :
    (i.userID = userID ∧ db.itemOpen stamp i = true ∧
      (db.accountDeleted userID now stamp).orderItem i.id = none) ∨
    (i.userID = userID ∧ db.itemOpen stamp i = false ∧
      ∃ j, (db.accountDeleted userID now stamp).orderItem i.id = some j ∧
        j.userID = deletedUserID) ∨
    (i.userID ≠ userID ∧
      ∃ j, (db.accountDeleted userID now stamp).orderItem i.id = some j ∧ j.userID = i.userID) := by
  have hafter := Db.accountDeleted_orderItem userID now stamp hvalid hi
  by_cases howner : i.userID = userID
  · cases hopen : db.itemOpen stamp i with
    | true =>
      rw [if_pos ⟨howner, hopen⟩] at hafter
      exact .inl ⟨howner, rfl, Option.map_eq_none_iff.mp hafter⟩
    | false =>
      have hclosed : ¬ (i.userID = userID ∧ db.itemOpen stamp i = true) := by simp [hopen]
      rw [if_neg hclosed, if_pos howner] at hafter
      exact .inr (.inl ⟨howner, rfl, Option.map_eq_some_iff.mp hafter⟩)
  · have hother : ¬ (i.userID = userID ∧ db.itemOpen stamp i = true) := fun h => howner h.1
    rw [if_neg hother, if_neg howner] at hafter
    exact .inr (.inr ⟨howner, Option.map_eq_some_iff.mp hafter⟩)

theorem deletionImpact_describes (hvalid : db.Valid) (hprotected : userID ≠ deletedUserID) :
    (db.deletionImpact userID stamp).Describes userID stamp db
      (db.accountDeleted userID now stamp) where
  activeItems := by
    refine List.countP_congr fun i hi => ?_
    rcases accountDeleted_cases userID now stamp hvalid hi with
      ⟨howner, hopen, hgone⟩ | ⟨howner, hclosed, j, hj, -⟩ | ⟨hother, j, hj, -⟩
    · simp [howner, hopen, hgone]
    · simp [hclosed, hj]
    · simp [hother, hj]
  expiredItems := by
    refine List.countP_congr fun i hi => ?_
    rw [Db.itemExpired_eq_not hvalid hi]
    rcases accountDeleted_cases userID now stamp hvalid hi with
      ⟨-, hopen, hgone⟩ | ⟨howner, hclosed, j, hj, hplaceholder⟩ | ⟨hother, j, hj, hsame⟩
    · simp [hopen, hgone]
    · simp [howner, hclosed, hj, hplaceholder, Ne.symm hprotected]
    · simp [hother, hj, hsame]
  createdActiveOrders := by
    refine List.countP_congr fun o ho => ?_
    obtain ⟨p, hp, hcreator, -, -⟩ :=
      Db.accountDeleted_foodOrder userID now stamp hvalid ho
    rw [hp, Option.any_some, hcreator]
    by_cases hown : o.creatorID = userID
    · simp [hown, Ne.symm hprotected]
    · simp [hown]
  activeJobs := by
    refine List.countP_congr fun o ho => ?_
    obtain ⟨p, hp, -, hmoney, hpickup⟩ :=
      Db.accountDeleted_foodOrder userID now stamp hvalid ho
    rw [hp, Option.any_some, hmoney, hpickup, ← holdsJob_vacated]
  activeOrders := deletionImpact_activeOrders hvalid.keys.foodOrders
  otherItems := by
    intro i hi hother
    rw [Db.accountDeleted_orderItem userID now stamp hvalid hi, if_neg fun h => hother h.1, if_neg hother]
  newOwner := by
    intro i hi j hj
    rcases accountDeleted_cases userID now stamp hvalid hi with
      ⟨-, -, hgone⟩ | ⟨-, -, k, hk, hplaceholder⟩ | ⟨-, k, hk, hsame⟩
    · rw [hgone] at hj
      cases hj
    · rw [hk, Option.some.injEq] at hj
      exact .inr (hj ▸ hplaceholder)
    · rw [hk, Option.some.injEq] at hj
      exact .inl (hj ▸ hsame)

end Numbers

/-- **The warning is exact.** Of an account that may be deleted, both the count and the deletion go
through, and the numbers are what the deletion does. -/
theorem deletionImpact_exact {w : World Db Time} (hvalid : w.db.Valid)
    (hplaceholder : w.db.hasPlaceholder = true) {userID : UUID} {user : AppUserRow}
    (huser : w.db.userByID userID = some user) (hprotected : userID ≠ deletedUserID)
    (hadmin : user.isAdmin = false) (now : Time) :
    ∃ impact after,
      (impactOfDeleting userID now).run (fun _ => Outcome.ok) w = (.ok impact, w) ∧
      (deleteAccount userID now).run (fun _ => Outcome.ok) w = (.ok (), { w with db := after }) ∧
      impact.Describes userID (stampOf w.now now) w.db after :=
  ⟨_, _, impactOfDeleting_run now, deleteAccount_run _ hplaceholder huser hprotected hadmin now,
    deletionImpact_describes hvalid hprotected⟩

/-! ## Anna leaves -/

/-- The placeholder, and Anna with a kebab in the open order of `lunch`, where she collects the
money. -/
def annasLunch : Db :=
  { lunch with
    appUsers := { id := deletedUserID, name := "deleted", displayName := none, passwordHash := "*"
                  email := none, isAdmin := false, lastLoginAt := none } :: lunch.appUsers
    foodOrders := lunch.foodOrders.map fun o => { o with moneyCollectorID := some ⟨1⟩ }
    orderItems := [{ id := ⟨7⟩, orderID := ⟨6⟩, userID := ⟨1⟩, menuItemID := ⟨4⟩, quantity := 1
                     itemName := "Kebab", unitPriceCents := 500, note := none, paid := false
                     createdAt := 0, updatedAt := 0, updatedBy := none }] }

theorem annasLunch_valid : annasLunch.Valid where
  keys := by constructor <;> decide +kernel
  refs := by constructor <;> decide +kernel
  checks := by constructor <;> decide +kernel

example : annasLunch.deletionImpact ⟨1⟩ 0 =
    { activeOrders := 1, activeItems := 1, expiredItems := 0, createdActiveOrders := 1
      activeJobs := 1 } := by
  decide

theorem deletionImpact_exact_anna :
    ∃ impact after,
      (impactOfDeleting ⟨1⟩ 0).run (fun _ => Outcome.ok) { db := annasLunch, now := 0 } =
        (.ok impact, { db := annasLunch, now := 0 }) ∧
      (deleteAccount ⟨1⟩ 0).run (fun _ => Outcome.ok) { db := annasLunch, now := 0 } =
        (.ok (), { db := after, now := 0 }) ∧
      impact.Describes ⟨1⟩ (stampOf 0 0) annasLunch after :=
  deletionImpact_exact (w := { db := annasLunch, now := 0 }) annasLunch_valid rfl rfl (by decide)
    rfl 0

end Doenerstag
