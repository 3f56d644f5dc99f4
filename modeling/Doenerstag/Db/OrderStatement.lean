import Doenerstag.Db.Orders
import Doenerstag.Lib.Placeholders
import Doenerstag.Lib.Transactions

/-!
# The statement of `UpdateOrder` (`internal/db/orders.go`)

`updateOrder` has the change of an order as one function of the row. In the source a statement is generated
for each subset of the fields, with placeholders that are numbered as the arguments are appended. Here is
that statement, and what the database makes of it.

* `OrderUpdate.sets`, `OrderUpdate.statement` — the clauses and the arguments.
* `Db.runUpdate` — the statement, each clause with the argument its number names.
* `runUpdate_statement` — **it changes the order as `updateOrder` has it.**
* `updateOrder_exact` — **`UpdateOrder` changes what it was given, each field to its own value, and nothing
  else; refused, it changes nothing.**
-/

namespace Doenerstag

open ReadCommitted Prog Placeholders

/-! ## The generated statement -/

/-- The clauses of `UPDATE food_order SET …`, each with one `$%d` -/
inductive SetClause where
  | restaurantID
  /-- `currency_code = (SELECT currency_code FROM restaurant WHERE id = $%d)` -/
  | currencyCode
  | minOrderValueCents
  | deliveryFeeCents
  | fulfilment
  | fulfilmentAt
  | deadlineAt
  | moneyCollectorID
  | pickupPersonID
  | updatedBy
  deriving DecidableEq, Repr

/-- What is appended to `args` -/
inductive Arg where
  | uuid (id : UUID)
  | text (s : String)
  | timestamp (t : Time)
  /-- a `*uuid.UUID`, `NULL` when it is nil -/
  | uuidOrNull (id : Option UUID)
  | boolean (b : Bool)
  deriving DecidableEq, Repr

structure UpdateStatement where
  clauses : List (SetClause × Nat)
  /-- the number in `WHERE id = $%d` -/
  id : Nat
  /-- the number in `NOT $%d::boolean` -/
  moved : Nat
  args : List Arg
  deriving DecidableEq, Repr

namespace OrderUpdate

variable (change : OrderUpdate) (id actor : UUID)

/-- The clauses of the fields that are given -/
def sets : Clauses SetClause Arg :=
  Clauses.empty
    |>.whenGiven change.restaurantID (fun s r =>
      (((s.add .restaurantID (.uuid r)).add .currencyCode (.uuid r)).add .minOrderValueCents (.uuid r)).add
        .deliveryFeeCents (.uuid r))
    |>.whenGiven change.fulfilment (fun s f => s.add .fulfilment (.text f))
    |>.whenGiven change.fulfilmentAt (fun s t => s.add .fulfilmentAt (.timestamp t))
    |>.whenGiven change.deadlineAt (fun s t => s.add .deadlineAt (.timestamp t))
    |>.whenGiven change.moneyCollectorID (fun s p => s.add .moneyCollectorID (.uuidOrNull p))
    |>.whenGiven change.pickupPersonID (fun s p => s.add .pickupPersonID (.uuidOrNull p))

/-- The whole statement; the two arguments of its condition come last. -/
def statement : UpdateStatement :=
  let s := change.sets.add .updatedBy (.uuid actor)
  let args := s.args ++ [.uuid id, .boolean change.restaurantID.isSome]
  { clauses := s.clauses, id := args.length - 1, moved := args.length, args := args }

end OrderUpdate

/-! ## What the database makes of it -/

/-- The trigger `set_updated_at`: a change of the audit columns alone leaves `updated_at` as it is. -/
def FoodOrderRow.setUpdatedAt (now : Time) (old new : FoodOrderRow) : FoodOrderRow :=
  if { new with updatedAt := old.updatedAt, updatedBy := old.updatedBy } = old then
    { new with updatedAt := old.updatedAt }
  else
    { new with updatedAt := pgTime now }

namespace Db

variable (db : Db)

/-- One assignment. Of a restaurant that is not there the subselect is `NULL`. -/
def assign (o : FoodOrderRow) : SetClause → Arg → Except PgError FoodOrderRow
  | .restaurantID, .uuid r => .ok { o with restaurantID := r }
  | .currencyCode, .uuid r =>
    match db.restaurants.find? fun row => row.id == r with
    | none => .error .notNullViolation
    | some row => .ok { o with currencyCode := row.currencyCode }
  | .minOrderValueCents, .uuid r =>
    .ok { o with
      minOrderValueCents := (db.restaurants.find? fun row => row.id == r).bind
        RestaurantRow.minOrderValueCents }
  | .deliveryFeeCents, .uuid r =>
    .ok { o with
      deliveryFeeCents := (db.restaurants.find? fun row => row.id == r).bind
        RestaurantRow.deliveryFeeCents }
  | .fulfilment, .text f => .ok { o with fulfilment := f }
  | .fulfilmentAt, .timestamp t => .ok { o with fulfilmentAt := pgTime t }
  | .deadlineAt, .timestamp t => .ok { o with deadlineAt := pgTime t }
  | .moneyCollectorID, .uuidOrNull p => .ok { o with moneyCollectorID := p }
  | .pickupPersonID, .uuidOrNull p => .ok { o with pickupPersonID := p }
  | .updatedBy, .uuid a => .ok { o with updatedBy := some a }
  | _, _ => .error .datatypeMismatch

/-- `SET …`; what a placeholder stands for decides. -/
def assignAll (o : FoodOrderRow) (values : List (SetClause × Option Arg)) : Except PgError FoodOrderRow :=
  values.foldlM (fun o c =>
    match c.2 with
    | none => .error .undefinedParameter
    | some a => db.assign o c.1 a) o

def runUpdate (s : UpdateStatement) (now : Time) : Except PgError (Db × Nat) :=
  match bound s.args s.id, bound s.args s.moved with
  | some (.uuid id), some (.boolean moved) =>
    match db.foodOrder id with
    | none => .ok (db, 0)
    | some o =>
      if moved && (db.orderItems.any fun i => i.orderID == id) then .ok (db, 0)
      else do
        let set ← db.assignAll o (s.clauses.map fun c => (c.1, bound s.args c.2))
        let new := o.setUpdatedAt now set
        if ¬ new.Check then .error .checkViolation
        else if !db.knowsReferences new then .error .foreignKeyViolation
        else .ok (db.setFoodOrders (db.foodOrders.map fun p => if p.id == id then new else p), 1)
  | none, _ | _, none => .error .undefinedParameter
  | _, _ => .error .datatypeMismatch

end Db

/-- `UpdateOrder`, with the statement that it generates -/
def updateOrderGenerated (id actor : UUID) (change : OrderUpdate) : DbProgram UpdateOrderStmt Order := do
  if change.sets.clauses = [] then
    orderByID .readBack id
  else
    let rows ← (exec .update fun now db => db.runUpdate (change.statement id actor) now).mapError
      updateOrderError
    if rows = 0 then
      let locked ← restaurantLocked id change
      throw (if locked then .restaurantLocked else .notFound)
    else
      orderByID .readBack id

/-! ## What the placeholders are bound to -/

namespace OrderUpdate

variable {change : OrderUpdate} {id actor : UUID}

/-- The clauses of a restaurant -/
def restaurantValues (change : OrderUpdate) : List (SetClause × Option Arg) :=
  change.restaurantID.elim [] fun r => [(.restaurantID, some (.uuid r)), (.currencyCode, some (.uuid r)),
    (.minOrderValueCents, some (.uuid r)), (.deliveryFeeCents, some (.uuid r))]

theorem values_sets : change.sets.values = change.restaurantValues ++
    Clauses.ifGiven change.fulfilment .fulfilment .text ++
    Clauses.ifGiven change.fulfilmentAt .fulfilmentAt .timestamp ++
    Clauses.ifGiven change.deadlineAt .deadlineAt .timestamp ++
    Clauses.ifGiven change.moneyCollectorID .moneyCollectorID .uuidOrNull ++
    Clauses.ifGiven change.pickupPersonID .pickupPersonID .uuidOrNull := by
  unfold sets
  rw [Clauses.values_whenGiven_add, Clauses.values_whenGiven_add, Clauses.values_whenGiven_add,
    Clauses.values_whenGiven_add, Clauses.values_whenGiven_add, Clauses.values_whenGiven,
    Clauses.values_empty, List.nil_append]
  · rfl
  · intro r
    simp only [Clauses.values_add, Clauses.values_empty, List.nil_append, List.cons_append]

/-- The clauses of the whole statement, with the actor's behind -/
theorem values_statement (change : OrderUpdate) (id actor : UUID) : (change.statement id actor).clauses.map
    (fun c => (c.1, bound (change.statement id actor).args c.2)) =
      change.sets.values ++ [(.updatedBy, some (.uuid actor))] := by
  rw [← Clauses.values_add]
  exact (change.sets.add .updatedBy (.uuid actor)).valuesIn_append _

/-- `$%d` with `len(args)-1`, and with `len(args)` -/
theorem condition_statement (change : OrderUpdate) (id actor : UUID) : bound (change.statement id actor).args (change.statement id actor).id =
      some (.uuid id) ∧
    bound (change.statement id actor).args (change.statement id actor).moved =
      some (.boolean change.restaurantID.isSome) := by
  have hargs : ∀ (args : List Arg) (a b : Arg),
      bound (args ++ [a, b]) ((args ++ [a, b]).length - 1) = some a ∧
        bound (args ++ [a, b]) (args ++ [a, b]).length = some b := by
    intro args a b
    have hlength : (args ++ [a, b]).length = args.length + 1 + 1 := by simp
    rw [hlength, Nat.add_sub_cancel]
    constructor
    · show (args ++ [a, b])[args.length]? = some a
      rw [List.getElem?_append_right (Nat.le_refl _), Nat.sub_self]
      rfl
    · show (args ++ [a, b])[args.length + 1]? = some b
      rw [List.getElem?_append_right (Nat.le_add_right _ _), Nat.add_sub_cancel_left]
      rfl
  exact hargs _ _ _

/-- Nothing is to be set exactly when nothing was given. -/
theorem sets_eq_nil_iff : change.sets.clauses = [] ↔ change = .empty := by
  rw [Clauses.clauses_eq_nil_iff, values_sets]
  obtain ⟨restaurantID, fulfilment, fulfilmentAt, deadlineAt, moneyCollectorID, pickupPersonID⟩ := change
  have hrestaurant : ∀ c : OrderUpdate, c.restaurantValues = [] ↔ c.restaurantID = none := by
    intro c
    unfold restaurantValues
    cases c.restaurantID <;> simp
  simp only [List.append_eq_nil_iff, hrestaurant, Clauses.ifGiven_eq_nil_iff, OrderUpdate.empty,
    OrderUpdate.mk.injEq, and_assoc]

end OrderUpdate

/-! ## The statement does what `updateOrder` says -/

namespace Db

variable {db : Db} {change : OrderUpdate} {id actor : UUID} {now : Time}

theorem assignAll_append (o : FoodOrderRow) (first rest : List (SetClause × Option Arg)) :
    db.assignAll o (first ++ rest) = db.assignAll o first >>= fun o => db.assignAll o rest :=
  List.foldlM_append

/-- The four clauses of a restaurant -/
theorem assignAll_restaurant (o : FoodOrderRow) :
    db.assignAll o change.restaurantValues =
    match change.restaurantID, change.restaurantID.bind fun r => db.restaurants.find? fun row => row.id == r with
    | none, _ => .ok o
    | some _, none => .error .notNullViolation
    | some r, some row => .ok { o with
        restaurantID := r, currencyCode := row.currencyCode, minOrderValueCents := row.minOrderValueCents
        deliveryFeeCents := row.deliveryFeeCents } := by
  unfold OrderUpdate.restaurantValues
  cases hgiven : change.restaurantID with
  | none => rfl
  | some r =>
    simp only [Option.elim, Option.bind_some, assignAll, List.foldlM_cons, List.foldlM_nil, assign]
    cases db.restaurants.find? fun row => row.id == r <;> rfl

/-- The clause of one field -/
theorem assignAll_ifGiven {β : Type} {given : Option β} {clause : SetClause} {value : β → Arg}
    {o : FoodOrderRow} (set : Option β → FoodOrderRow) (hnone : set none = o)
    (hsome : ∀ b, db.assign o clause (value b) = .ok (set (some b))) :
    db.assignAll o (Clauses.ifGiven given clause value) = .ok (set given) := by
  cases given with
  | none =>
    rw [hnone]
    rfl
  | some b =>
    show (db.assign o clause (value b) >>= fun o => Except.ok o) = _
    rw [hsome]
    rfl

/-- The clauses of one argument each -/
theorem assignAll_fields (o : FoodOrderRow) :
    db.assignAll o
      (Clauses.ifGiven change.fulfilment .fulfilment .text ++
      (Clauses.ifGiven change.fulfilmentAt .fulfilmentAt .timestamp ++
      (Clauses.ifGiven change.deadlineAt .deadlineAt .timestamp ++
      (Clauses.ifGiven change.moneyCollectorID .moneyCollectorID .uuidOrNull ++
      (Clauses.ifGiven change.pickupPersonID .pickupPersonID .uuidOrNull ++
        [(.updatedBy, some (.uuid actor))]))))) =
    .ok { o with
      fulfilment := change.fulfilment.getD o.fulfilment
      fulfilmentAt := (change.fulfilmentAt.map pgTime).getD o.fulfilmentAt
      deadlineAt := (change.deadlineAt.map pgTime).getD o.deadlineAt
      moneyCollectorID := change.moneyCollectorID.getD o.moneyCollectorID
      pickupPersonID := change.pickupPersonID.getD o.pickupPersonID
      updatedBy := some actor } := by
  have hfulfilment : ∀ o, db.assignAll o (Clauses.ifGiven change.fulfilment .fulfilment .text) =
      .ok { o with fulfilment := change.fulfilment.getD o.fulfilment } :=
    fun o => assignAll_ifGiven (fun given => { o with fulfilment := given.getD o.fulfilment }) rfl fun _ => rfl
  have hfulfilmentAt : ∀ o, db.assignAll o (Clauses.ifGiven change.fulfilmentAt .fulfilmentAt .timestamp) =
      .ok { o with fulfilmentAt := (change.fulfilmentAt.map pgTime).getD o.fulfilmentAt } :=
    fun o => assignAll_ifGiven (fun given => { o with fulfilmentAt := (given.map pgTime).getD o.fulfilmentAt }) rfl fun _ => rfl
  have hdeadlineAt : ∀ o, db.assignAll o (Clauses.ifGiven change.deadlineAt .deadlineAt .timestamp) =
      .ok { o with deadlineAt := (change.deadlineAt.map pgTime).getD o.deadlineAt } :=
    fun o => assignAll_ifGiven (fun given => { o with deadlineAt := (given.map pgTime).getD o.deadlineAt }) rfl fun _ => rfl
  have hcollector : ∀ o, db.assignAll o (Clauses.ifGiven change.moneyCollectorID .moneyCollectorID .uuidOrNull) =
      .ok { o with moneyCollectorID := change.moneyCollectorID.getD o.moneyCollectorID } :=
    fun o => assignAll_ifGiven (fun given => { o with moneyCollectorID := given.getD o.moneyCollectorID }) rfl fun _ => rfl
  have hperson : ∀ o, db.assignAll o (Clauses.ifGiven change.pickupPersonID .pickupPersonID .uuidOrNull) =
      .ok { o with pickupPersonID := change.pickupPersonID.getD o.pickupPersonID } :=
    fun o => assignAll_ifGiven (fun given => { o with pickupPersonID := given.getD o.pickupPersonID }) rfl fun _ => rfl
  simp only [assignAll_append, hfulfilment, hfulfilmentAt, hdeadlineAt, hcollector, hperson]
  rfl

/-- All the clauses, on a row -/
theorem assignAll_statement (o : FoodOrderRow) :
    db.assignAll o (change.sets.values ++ [(.updatedBy, some (.uuid actor))]) =
      if change.restaurantID.isSome &&
          (change.restaurantID.bind fun r => db.restaurants.find? fun row => row.id == r).isNone then
        .error .notNullViolation
      else
        .ok { change.apply (change.restaurantID.bind fun r => db.restaurants.find? fun row => row.id == r) o with
          updatedBy := some actor } := by
  rw [OrderUpdate.values_sets]
  simp only [List.append_assoc]
  rw [assignAll_append, assignAll_restaurant]
  simp only [assignAll_fields]
  unfold OrderUpdate.apply
  cases hgiven : change.restaurantID with
  | none => rfl
  | some r =>
    simp only [Option.bind_some]
    cases db.restaurants.find? fun row => row.id == r <;> rfl

/-- The trigger after `updated_by = …`, on a row whose audit columns are otherwise as they were -/
theorem setUpdatedAt_actor {o : FoodOrderRow} (new : FoodOrderRow) (hat : new.updatedAt = o.updatedAt)
    (hby : new.updatedBy = o.updatedBy) :
    o.setUpdatedAt now { new with updatedBy := some actor } = o.stamp actor now new := by
  have hsame : { new with updatedAt := o.updatedAt, updatedBy := o.updatedBy } = new := by
    rw [← hat, ← hby]
  unfold FoodOrderRow.setUpdatedAt FoodOrderRow.stamp
  simp only [hsame]
  split_ifs <;> rfl

/-- **The generated statement changes the order as `updateFoodOrder` does.** -/
theorem runUpdate_statement :
    db.runUpdate (change.statement id actor) now = updateFoodOrder id actor change now db := by
  unfold runUpdate updateFoodOrder
  obtain ⟨hid, hmoved⟩ := OrderUpdate.condition_statement change id actor
  rw [hid, hmoved, OrderUpdate.values_statement]
  simp only
  cases db.foodOrder id with
  | none => rfl
  | some o =>
    simp only [assignAll_statement]
    split_ifs with hlocked hunknown
    · rfl
    · unfold changedFoodOrder
      rw [if_pos hunknown]
      rfl
    · unfold changedFoodOrder
      rw [if_neg hunknown]
      simp only [← setUpdatedAt_actor (o := o) (change.apply _ o) rfl rfl]
      show (if _ then _ else _) = _
      split_ifs <;> rfl

end Db

/-- So it is `updateOrder`. -/
theorem updateOrderGenerated_eq (id actor : UUID) (change : OrderUpdate) :
    updateOrderGenerated id actor change = updateOrder id actor change := by
  unfold updateOrderGenerated updateOrder
  simp only [OrderUpdate.sets_eq_nil_iff, Db.runUpdate_statement]

/-! ## What a call comes to -/

/-- What the placeholder of a clause is meant for, if the clause is to be there -/
def OrderUpdate.meant (change : OrderUpdate) (actor : UUID) : SetClause → Option Arg
  | .restaurantID | .currencyCode | .minOrderValueCents | .deliveryFeeCents =>
    change.restaurantID.map Arg.uuid
  | .fulfilment => change.fulfilment.map Arg.text
  | .fulfilmentAt => change.fulfilmentAt.map Arg.timestamp
  | .deadlineAt => change.deadlineAt.map Arg.timestamp
  | .moneyCollectorID => change.moneyCollectorID.map Arg.uuidOrNull
  | .pickupPersonID => change.pickupPersonID.map Arg.uuidOrNull
  | .updatedBy => some (.uuid actor)

/-- Every placeholder of the statement is bound to what it is meant for. -/
structure UpdateStatement.BoundFor (s : UpdateStatement) (id actor : UUID) (change : OrderUpdate) : Prop where
  clauses : ∀ clause value, (clause, value) ∈ s.clauses.map (fun c => (c.1, bound s.args c.2)) ↔
    ∃ v, change.meant actor clause = some v ∧ value = some v
  once : (s.clauses.map Prod.fst).Nodup
  id : bound s.args s.id = some (.uuid id)
  moved : bound s.args s.moved = some (.boolean change.restaurantID.isSome)

/-- The row of an order after an update that went through -/
structure OrderChanged (db : Db) (change : OrderUpdate) (o o' : FoodOrderRow) : Prop where
  restaurant : o'.restaurantID = change.restaurantID.getD o.restaurantID
  /-- the money fields are those of the new restaurant -/
  recopied : ∀ id, change.restaurantID = some id →
    ∃ r, (db.restaurants.find? fun row => row.id == id) = some r ∧ o'.currencyCode = r.currencyCode ∧
      o'.minOrderValueCents = r.minOrderValueCents ∧ o'.deliveryFeeCents = r.deliveryFeeCents
  /-- or, without one, those it had -/
  kept : change.restaurantID = none → o'.currencyCode = o.currencyCode ∧
    o'.minOrderValueCents = o.minOrderValueCents ∧ o'.deliveryFeeCents = o.deliveryFeeCents
  fulfilment : o'.fulfilment = change.fulfilment.getD o.fulfilment
  /-- in whole microseconds, as the column has them -/
  fulfilmentAt : o'.fulfilmentAt = (change.fulfilmentAt.map pgTime).getD o.fulfilmentAt
  deadlineAt : o'.deadlineAt = (change.deadlineAt.map pgTime).getD o.deadlineAt
  moneyCollector : o'.moneyCollectorID = change.moneyCollectorID.getD o.moneyCollectorID
  pickupPerson : o'.pickupPersonID = change.pickupPersonID.getD o.pickupPersonID
  rest : o' = { o with
    restaurantID := o'.restaurantID, currencyCode := o'.currencyCode
    minOrderValueCents := o'.minOrderValueCents, deliveryFeeCents := o'.deliveryFeeCents
    fulfilment := o'.fulfilment, fulfilmentAt := o'.fulfilmentAt, deadlineAt := o'.deadlineAt
    moneyCollectorID := o'.moneyCollectorID, pickupPersonID := o'.pickupPersonID
    updatedAt := o'.updatedAt, updatedBy := o'.updatedBy }

section Bound

variable {change : OrderUpdate} {id actor : UUID}

theorem mem_restaurantValues {clause : SetClause} {value : Option Arg} :
    (clause, value) ∈ change.restaurantValues ↔ ∃ r, change.restaurantID = some r ∧ value = some (.uuid r) ∧
      clause ∈ [SetClause.restaurantID, .currencyCode, .minOrderValueCents, .deliveryFeeCents] := by
  unfold OrderUpdate.restaurantValues
  cases change.restaurantID with
  | none => simp
  | some r => cases clause <;> simp

theorem clauses_restaurantValues : (change.restaurantValues.map Prod.fst).Sublist
    [.restaurantID, .currencyCode, .minOrderValueCents, .deliveryFeeCents] := by
  unfold OrderUpdate.restaurantValues
  cases change.restaurantID with
  | none => exact List.nil_sublist _
  | some r => exact List.Sublist.refl _

theorem boundFor_statement : (change.statement id actor).BoundFor id actor change where
  clauses := by
    intro clause value
    rw [OrderUpdate.values_statement, OrderUpdate.values_sets]
    simp only [List.mem_append, mem_restaurantValues, Clauses.mem_ifGiven, List.mem_cons, List.not_mem_nil,
      or_false, Prod.mk.injEq]
    cases clause <;> simp [OrderUpdate.meant, eq_comm]
  once := by
    have hvalues : (change.statement id actor).clauses.map Prod.fst =
        (change.sets.values ++ [(SetClause.updatedBy, some (Arg.uuid actor))]).map Prod.fst := by
      rw [← OrderUpdate.values_statement change id actor, List.map_map]
      rfl
    -- each clause is there once among all there can be
    have hsublist : ((change.sets.values ++ [(SetClause.updatedBy, some (Arg.uuid actor))]).map
        Prod.fst).Sublist
        ([SetClause.restaurantID, .currencyCode, .minOrderValueCents, .deliveryFeeCents] ++ [.fulfilment] ++
          [.fulfilmentAt] ++ [.deadlineAt] ++ [.moneyCollectorID] ++ [.pickupPersonID] ++ [.updatedBy]) := by
      rw [OrderUpdate.values_sets]
      simp only [List.map_append]
      exact (((((clauses_restaurantValues.append Clauses.clauses_ifGiven).append
        Clauses.clauses_ifGiven).append Clauses.clauses_ifGiven).append Clauses.clauses_ifGiven).append
        Clauses.clauses_ifGiven).append (List.Sublist.refl _)
    rw [hvalues]
    exact hsublist.nodup (by decide)
  id := (OrderUpdate.condition_statement change id actor).1
  moved := (OrderUpdate.condition_statement change id actor).2

end Bound

section Calls

variable {db db' : Db} {change : OrderUpdate} {id actor : UUID} {now : Time} {o new : FoodOrderRow}
  {ω : UpdateOrderStmt → Outcome} {w w' : World Db Time}

theorem changedFoodOrder_changed (h : db.changedFoodOrder actor change now o = .ok new) :
    OrderChanged db change o new := by
  unfold Db.changedFoodOrder at h
  simp only at h
  split_ifs at h with hunknown _ _
  cases h
  constructor
  case recopied =>
    intro id hid
    rw [hid] at hunknown ⊢
    simp only [Option.isSome_some, Option.bind_some, Bool.true_and, Option.isNone_iff_eq_none] at hunknown ⊢
    obtain ⟨r, hr⟩ := Option.ne_none_iff_exists'.mp hunknown
    exact ⟨r, hr, by simp [FoodOrderRow.stamp, OrderUpdate.apply, hid, hr]⟩
  case kept =>
    intro hnone
    simp [FoodOrderRow.stamp, OrderUpdate.apply, hnone]
  all_goals rfl

/-- The statement, when it changes a row -/
theorem updateFoodOrder_eq_ok {rows : Nat} (h : Db.updateFoodOrder id actor change now db = .ok (db', rows)) :
    (rows = 0 ∧ db' = db) ∨ ∃ o new, rows = 1 ∧ db.foodOrder id = some o ∧
      db.changedFoodOrder actor change now o = .ok new ∧
      db' = db.setFoodOrders (db.foodOrders.map fun p => if p.id == id then new else p) := by
  unfold Db.updateFoodOrder at h
  cases ho : db.foodOrder id with
  | none =>
    rw [ho] at h
    cases h
    exact .inl ⟨rfl, rfl⟩
  | some o =>
    rw [ho] at h
    simp only at h
    split_ifs at h
    · cases h
      exact .inl ⟨rfl, rfl⟩
    · obtain ⟨new, hnew, heq⟩ := exceptMap_eq_ok h
      cases heq
      exact .inr ⟨o, new, rfl, rfl, hnew, rfl⟩

/-- An order whose references are there is read. -/
theorem scanOrder_known (hknown : db.knowsReferences o = true) : ∃ order, db.scanOrder o = some order := by
  unfold Db.knowsReferences at hknown
  simp only [Bool.and_eq_true] at hknown
  obtain ⟨⟨⟨⟨⟨hcreator, -⟩, -⟩, -⟩, hrestaurant⟩, -⟩ := hknown
  obtain ⟨u, hu⟩ := Option.isSome_iff_exists.mp hcreator
  obtain ⟨r, hr⟩ : ∃ r, (db.restaurants.find? fun r => r.id == o.restaurantID) = some r :=
    Option.isSome_iff_exists.mp (List.find?_isSome.mpr (List.any_eq_true.mp hrestaurant))
  unfold Db.scanOrder
  rw [hu, hr]
  exact ⟨_, rfl⟩

/-- The row after the statement, and the others -/
theorem foodOrder_changed (ho : db.foodOrder id = some o)
    (hnew : db.changedFoodOrder actor change now o = .ok new)
    (hdb : db' = db.setFoodOrders (db.foodOrders.map fun p => if p.id == id then new else p)) :
    db'.foodOrder id = some new ∧ (∀ other, other ≠ id → db'.foodOrder other = db.foodOrder other) ∧
      ∃ order, db'.orderByID id = some order := by
  obtain ⟨hid, -, hknown⟩ := Db.changedFoodOrder_eq_ok hnew
  have hkey : new.id = id := hid.trans (Db.foodOrder_id _ ho)
  have hrow : db'.foodOrder id = some new := by
    rw [hdb]
    exact Tables.find?_map_same (f := fun _ => new) (fun _ _ => hkey) ho
  refine ⟨hrow, fun other hother => ?_, ?_⟩
  · rw [hdb]
    exact Tables.find?_map_other hkey hother _
  · have hsame : db'.knowsReferences new = true := by
      rw [hdb]
      exact hknown
    unfold Db.orderByID
    rw [hrow]
    exact scanOrder_known hsame

/-- What is unchanged has been changed by nothing. -/
theorem orderChanged_refl (hempty : change = .empty) : OrderChanged db change o o := by
  subst hempty
  constructor
  case recopied => exact fun id hid => nomatch hid
  case kept => exact fun _ => ⟨rfl, rfl, rfl⟩
  all_goals rfl

/-- A lookup of a row that is there does not report it missing. -/
theorem orderByID_run {order : Order} {l : UpdateOrderStmt} {e : DbError} (h : w.db.orderByID id = some order)
    (hrun : ((orderByID l id).under Outcome.found).run ω w = (.error e, w')) : e = .failure := by
  unfold orderByID at hrun
  rw [under_mapError, queryRow, under_read, run_mapError, run_read, h] at hrun
  cases hω : ω l with
  | failure =>
    rw [hω] at hrun
    exact (Except.error.inj (congrArg Prod.fst hrun)).symm
  | ok | noRow =>
    rw [hω] at hrun
    cases congrArg Prod.fst hrun

theorem orderByID_state {l : UpdateOrderStmt} {r : Except DbError Order}
    (hrun : ((orderByID l id).under Outcome.found).run ω w = (r, w')) : w' = w := by
  have hreads : ((orderByID l id).under Outcome.found).ReadOnly :=
    Steps.under (orderByID_reads (L := fun _ => True) trivial id).readOnly _
  have hstate := run_readOnly hreads ω w
  rwa [hrun] at hstate

/-- The row and the read-back, of an order that was not changed -/
theorem orderByID_eq_ok {order : Order} {l : UpdateOrderStmt}
    (hrun : ((orderByID l id).under Outcome.found).run ω w = (.ok order, w')) :
    w' = w ∧ ∃ o, w.db.foodOrder id = some o := by
  refine ⟨orderByID_state hrun, ?_⟩
  unfold orderByID at hrun
  rw [under_mapError, queryRow, under_read, run_mapError, run_read] at hrun
  have hrow := Outcome.row_eq_ok (exceptMapError_eq_ok (congrArg Prod.fst hrun))
  obtain ⟨o, ho, -⟩ := Option.bind_eq_some_iff.mp hrow
  exact ⟨o, ho⟩

/-- What the statement may have done by the time the rest runs -/
theorem updateOrder_run {r : Except DbError Order} (hgiven : change ≠ .empty)
    (hrun : ((updateOrder id actor change).under Outcome.found).run ω w = (r, w')) :
    (w' = w ∧ ∃ e, r = .error e) ∨ ∃ o new, w.db.foodOrder id = some o ∧ w.db.changedFoodOrder actor change w.now o = .ok new ∧
      w'.db = w.db.setFoodOrders (w.db.foodOrders.map fun p => if p.id == id then new else p) ∧
      ((orderByID .readBack id).under Outcome.found).run ω w' = (r, w') := by
  unfold updateOrder at hrun
  rw [if_neg hgiven, under_bind, run_bind] at hrun
  have hquiet : (((exec .update (Db.updateFoodOrder id actor change)).mapError updateOrderError).under
      Outcome.found).Quiet (fun w => w) ω w := by
    rw [under_mapError, exec, under_write]
    exact write_quiet.mapError _
  rcases hfirst : (((exec .update (Db.updateFoodOrder id actor change)).mapError updateOrderError).under
    Outcome.found).run ω w with ⟨x | rows, w₁⟩
  · have hsame := hquiet x (congrArg Prod.fst hfirst)
    rw [hfirst] at hrun hsame
    exact .inl ⟨(congrArg Prod.snd hrun).symm.trans hsame, x, (congrArg Prod.fst hrun).symm⟩
  · rw [hfirst] at hrun
    simp only at hrun
    rw [under_mapError] at hfirst
    obtain ⟨db, hupdate, rfl⟩ := run_exec_found (run_mapError_eq_ok hfirst)
    rcases updateFoodOrder_eq_ok hupdate with ⟨rfl, rfl⟩ | ⟨o, new, rfl, ho, hnew, rfl⟩
    · -- no row, and all that follows only reads
      rw [if_pos rfl] at hrun
      have hreads : (((restaurantLocked id change >>= fun locked =>
          throw (if locked then DbError.restaurantLocked else .notFound)) :
            DbProgram UpdateOrderStmt Order).under Outcome.found).ReadOnly :=
        Steps.under ((restaurantLocked_reads id change).bind fun _ => .fail _).readOnly _
      have hstate := run_readOnly hreads ω w
      rw [hrun] at hstate
      cases r with
      | error e => exact .inl ⟨hstate, e, rfl⟩
      | ok order =>
        rw [under_bind] at hrun
        obtain ⟨locked, w₂, -, hthrow⟩ := run_bind_eq_ok hrun
        cases congrArg Prod.fst hthrow
    · rw [if_neg Nat.one_ne_zero] at hrun
      have hafter := orderByID_state hrun
      rw [← hafter] at hrun
      exact .inr ⟨o, new, ho, hnew, by rw [hafter], hrun⟩

/-- **`UpdateOrder` changes exactly what it is told**, through a statement whose placeholders are bound to
what they are meant for; and when it refuses, nothing has changed. -/
theorem updateOrder_exact (id actor : UUID) (change : OrderUpdate) (ω : UpdateOrderStmt → Outcome)
    (w w' : World Db Time) :
    (change.statement id actor).BoundFor id actor change ∧
    (∀ order, ((updateOrderGenerated id actor change).under Outcome.found).run ω w = (.ok order, w') →
      ∃ o o', w.db.foodOrder id = some o ∧ w'.db.foodOrder id = some o' ∧ OrderChanged w.db change o o' ∧
        (∀ other, other ≠ id → w'.db.foodOrder other = w.db.foodOrder other) ∧
        w'.db = w.db.setFoodOrders w'.db.foodOrders) ∧
    ∀ e ∈ [DbError.restaurantLocked, .unknownReference, .notFound],
      ((updateOrderGenerated id actor change).under Outcome.found).run ω w = (.error e, w') → w' = w := by
  rw [updateOrderGenerated_eq]
  refine ⟨boundFor_statement, fun order hrun => ?_, fun e he hrun => ?_⟩
  · by_cases hempty : change = .empty
    · unfold updateOrder at hrun
      rw [if_pos hempty] at hrun
      obtain ⟨rfl, o, ho⟩ := orderByID_eq_ok hrun
      exact ⟨o, o, ho, ho, orderChanged_refl hempty, fun _ _ => rfl, rfl⟩
    · rcases updateOrder_run hempty hrun with ⟨-, e, he⟩ | ⟨o, new, ho, hnew, hdb, -⟩
      · cases he
      · obtain ⟨hrow, hothers, -⟩ := foodOrder_changed ho hnew hdb
        exact ⟨o, new, ho, hrow, changedFoodOrder_changed hnew, hothers, by rw [hdb]; rfl⟩
  · by_cases hempty : change = .empty
    · unfold updateOrder at hrun
      rw [if_pos hempty] at hrun
      exact orderByID_state hrun
    · rcases updateOrder_run hempty hrun with ⟨hsame, -⟩ | ⟨o, new, ho, hnew, hdb, hread⟩
      · exact hsame
      · -- the row was changed, and the read-back finds it
        obtain ⟨-, -, order, horder⟩ := foodOrder_changed ho hnew hdb
        rw [orderByID_run horder hread] at he
        simp at he

end Calls

/-! ## An order that moves -/

namespace MovedLunch

/-- Anna's order goes to the other restaurant, later, and nobody collects the money. -/
def later : OrderUpdate :=
  { OrderUpdate.empty with
    restaurantID := some ⟨3⟩, deadlineAt := some 150000, moneyCollectorID := some none }

-- the arguments, and the numbers of the condition
example : (later.statement ⟨6⟩ ⟨1⟩).args = [.uuid ⟨3⟩, .uuid ⟨3⟩, .uuid ⟨3⟩, .uuid ⟨3⟩, .timestamp 150000,
    .uuidOrNull none, .uuid ⟨1⟩, .uuid ⟨6⟩, .boolean true] ∧
    (later.statement ⟨6⟩ ⟨1⟩).id = 8 ∧ (later.statement ⟨6⟩ ⟨1⟩).moved = 9 := by decide

end MovedLunch

open MovedLunch

theorem updateOrder_exact_trattoria : ∃ order w',
    ((updateOrderGenerated ⟨6⟩ ⟨1⟩ later).under Outcome.found).run (fun _ => .ok) ⟨lunch, 5000⟩ =
      (.ok order, w') ∧
    ∃ o o', lunch.foodOrder ⟨6⟩ = some o ∧ w'.db.foodOrder ⟨6⟩ = some o' ∧ OrderChanged lunch later o o' ∧
      (∀ other, other ≠ ⟨6⟩ → w'.db.foodOrder other = lunch.foodOrder other) ∧
      w'.db = lunch.setFoodOrders w'.db.foodOrders := by
  have hok : (((updateOrderGenerated ⟨6⟩ ⟨1⟩ later).under Outcome.found).run (fun _ => .ok)
      ⟨lunch, 5000⟩).1.isOk = true := by decide +kernel
  obtain ⟨order, w', hrun⟩ := eq_ok_of_isOk hok
  exact ⟨order, w', hrun, (updateOrder_exact ⟨6⟩ ⟨1⟩ later (fun _ => .ok) ⟨lunch, 5000⟩ w').2.1 order hrun⟩

end Doenerstag
