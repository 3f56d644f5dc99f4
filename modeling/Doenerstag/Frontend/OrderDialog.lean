import Doenerstag.Api.ErrorAnswers
import Doenerstag.Db.OrderStatement
import Doenerstag.Frontend.Dates
import Doenerstag.Frontend.ItemDialog

/-!
# The order dialog (`frontend/src/pages/order/details.ts`)

The dialog that changes an order. Saving it sends all five of its fields, as its controls have them: the times in
minutes of local time, and of the two people only those that are among the accounts that were listed.

* `openOrderEditor`, `OrderDialog.submit` — the dialog, and what it sends.
* `SameOrder` — the order has the fulfilment, the times and the people that it had.
* `ControlsKeep` — the times are the first of their minutes, and the people are listed.
* `editOrder_keeps_iff` — **saving the dialog as it was opened keeps the order if and only if this is so.**
-/

namespace Doenerstag

open ReadCommitted Prog

/-! ## The choices -/

/-- `Account` -/
structure Account where
  id : String
  name : String
  displayName : String
  deriving DecidableEq, Repr

/-- `Choice` -/
structure Choice where
  value : String
  label : String
  deriving DecidableEq, Repr

def accountLabel (account : Account) : String :=
  let shown := trimText account.displayName
  if shown = "" then account.name else shown

def accountChoices (accounts : List Account) (nobody : String) : List Choice :=
  ⟨"", nobody⟩ :: (accounts.filter fun account => account.id != deletedUserID.string).map fun account =>
    ⟨account.id, accountLabel account⟩

/-- The value of a `select` that is given one: without an option for it, it is empty. -/
def selected (choices : List Choice) (value : String) : String :=
  if choices.any fun choice => choice.value == value then value else ""

/-! ## The dialog -/

/-- The values of the controls -/
structure OrderDialog where
  fulfilment : String
  fulfilmentAt : Text
  deadlineAt : Text
  moneyCollector : String
  pickupPerson : String
  deriving DecidableEq, Repr

/-- `openOrderEditor`: `t` translates, and `accounts` are those that were fetched, unless the request failed. -/
def openOrderEditor (b : Browser) (t : String → String) (own : OrderDetailBody) (accounts : Option (List Account)) :
    OrderDialog :=
  let choices := accountChoices (accounts.getD []) (t "order.nobody")
  { fulfilment := selected
      [⟨"pickup", t "order.fulfilment.pickup"⟩, ⟨"delivery", t "order.fulfilment.delivery"⟩] own.fulfilment
    fulfilmentAt := b.control own.fulfilmentAt.toList
    deadlineAt := b.control own.deadlineAt.toList
    moneyCollector := selected choices (own.moneyCollectorID.getD "")
    pickupPerson := selected choices (own.pickupPersonID.getD "") }

/-- `onSubmit`: a time of fulfilment that is none is refused, and a deadline that is none cannot be written. -/
def OrderDialog.submit (b : Browser) (d : OrderDialog) : Option OrderHandlers.PatchOrderRequest :=
  match b.date d.fulfilmentAt, b.date d.deadlineAt with
  | some fulfils, some closes =>
    if closes ≥ fulfils then none
    else some
      { restaurantID := none
        fulfilment := some d.fulfilment
        fulfilmentAt := some (toISOString fulfils)
        deadlineAt := some (toISOString closes)
        moneyCollectorID := some d.moneyCollector
        pickupPersonID := some d.pickupPerson }
  | _, _ => none

/-- Who edits which order, in which browser -/
structure OrderEdit where
  id : String
  principal : Option Principal
  browser : Browser
  t : String → String
  own : OrderDetailBody
  accounts : Option (List Account)

/-- What is sent when the dialog is saved as it was opened, if something is -/
def OrderEdit.sent (e : OrderEdit) : Option (Request OrderHandlers.PatchOrderRequest) :=
  ((openOrderEditor e.browser e.t e.own e.accounts).submit e.browser).map fun patch =>
    { id := e.id, iid := "", principal := e.principal, body := .ok patch }

/-- The dialog is opened and saved. -/
def OrderHandlers.editOrder (h : OrderHandlers) (e : OrderEdit) : Handler OrderStmt (Option OrderResponse) :=
  match e.sent with
  | none => pure none
  | some r => do
    let answer ← h.patch r
    pure (some answer)

/-! ## What is to stay -/

/-- The order has the fulfilment, the times and the people that it had. -/
structure SameOrder (o o' : FoodOrderRow) : Prop where
  fulfilment : o'.fulfilment = o.fulfilment
  fulfilmentAt : o'.fulfilmentAt = o.fulfilmentAt
  deadlineAt : o'.deadlineAt = o.deadlineAt
  moneyCollector : o'.moneyCollectorID = o.moneyCollectorID
  pickupPerson : o'.pickupPersonID = o.pickupPersonID

/-- There is nobody, or somebody that the choices name. -/
def KeepsPerson (accounts : List Account) (person : Option UUID) : Prop :=
  ∀ id ∈ person, ∃ account ∈ accounts, account.id = id.string ∧ account.id ≠ deletedUserID.string

/-- The order is there, and is the same. -/
def OrderKept (o : FoodOrderRow) (db : Db) : Prop := ∃ o', db.foodOrder o.id = some o' ∧ SameOrder o o'

/-- The controls of the dialog keep the order. -/
structure ControlsKeep (b : Browser) (accounts : List Account) (o : FoodOrderRow) : Prop where
  fulfilmentAt : b.KeepsTime o.fulfilmentAt
  deadlineAt : b.KeepsTime o.deadlineAt
  moneyCollector : KeepsPerson accounts o.moneyCollectorID
  pickupPerson : KeepsPerson accounts o.pickupPersonID

/-- What the browser writes of the order is read by the server as it is. -/
structure ReadsOrder (rt : Runtime) (b : Browser) (o : FoodOrderRow) : Prop where
  pickup : rt.toLower "pickup" = "pickup"
  delivery : rt.toLower "delivery" = "delivery"
  person : ∀ id, o.moneyCollectorID = some id ∨ o.pickupPersonID = some id → rt.parseUUID id.string = some id
  time : ∀ x, x = o.fulfilmentAt ∨ x = o.deadlineAt → ∀ ms, b.reread x.rfc3339.toList = some ms →
    ∀ t, rt.parseTime (toISOString ms) = some t → t = ms * 1000000

/-! ## What the server reads -/

section Read

variable {h : OrderHandlers} {rt : Runtime}

theorem UUID.string_ne_empty (id : UUID) : id.string ≠ "" := by
  intro hempty
  have hlength := congrArg String.length hempty
  simp [UUID.string] at hlength

/-- The person that a text names, or nobody -/
def NamesPerson (rt : Runtime) (value : String) (person : Option UUID) : Prop :=
  (trimSpace value = "" ∧ person = none) ∨
    (trimSpace value ≠ "" ∧ ∃ id, rt.parseUUID (trimSpace value) = some id ∧ person = some id)

theorem optionalUserRef_returns {I : World Db Time → Prop} (l : OrderStmt) (value field : String) :
    (h.optionalUserRef l value field).Returns I (NamesPerson h.rt value) := by
  unfold OrderHandlers.optionalUserRef
  simp only
  split_ifs with hempty
  · exact returns_done.mpr (.inl ⟨hempty, rfl⟩)
  · cases hparse : h.rt.parseUUID (trimSpace value) with
    | none => exact returns_fail _
    | some id =>
      simp only
      split_ifs
      · exact returns_fail _
      · exact .bind (.trivially _) fun _ _ => returns_done.mpr (.inr ⟨hempty, id, hparse, rfl⟩)

/-- A change is what a body of these five fields says. -/
structure OrderRead (rt : Runtime) (fulfilment fulfilmentAt deadlineAt moneyCollector pickupPerson : String)
    (change : OrderUpdate) : Prop where
  fulfilment : ∃ f, validateFulfilment rt fulfilment = .ok f ∧ change.fulfilment = some f
  fulfilmentAt : ∃ t, requiredTime rt fulfilmentAt "fulfilment_at" = .ok t ∧ change.fulfilmentAt = some t
  deadlineAt : ∃ t, requiredTime rt deadlineAt "deadline_at" = .ok t ∧ change.deadlineAt = some t
  moneyCollector : ∃ person, NamesPerson rt moneyCollector person ∧ change.moneyCollectorID = some person
  pickupPerson : ∃ person, NamesPerson rt pickupPerson person ∧ change.pickupPersonID = some person

theorem whenPresent_some {α β ℓ : Type} {I : World Db Time → Prop} {A : β → Prop} {v : α} {check : α → Handler ℓ β}
    (hcheck : (check v).Returns I A) :
    (whenPresent (some v) check).Returns I fun found => ∃ a, A a ∧ found = some a :=
  .bind hcheck fun a ha => returns_done.mpr ⟨a, ha, rfl⟩

theorem validateOrderPatch_returns {I : World Db Time → Prop} (order : Order)
    (fulfilment fulfilmentAt deadlineAt moneyCollector pickupPerson : String) :
    (h.validateOrderPatch order
      { restaurantID := none, fulfilment := some fulfilment, fulfilmentAt := some fulfilmentAt
        deadlineAt := some deadlineAt, moneyCollectorID := some moneyCollector
        pickupPersonID := some pickupPerson }).Returns I
      (OrderRead h.rt fulfilment fulfilmentAt deadlineAt moneyCollector pickupPerson) := by
  unfold OrderHandlers.validateOrderPatch
  refine .bind (.trivially _) fun _ _ => .bind (whenPresent_some (.ofExcept fun f hf => hf)) fun f hfulfilment => ?_
  refine .bind (whenPresent_some (.ofExcept fun t ht => ht)) fun t hfulfilmentAt => ?_
  refine .bind (whenPresent_some (.ofExcept fun t ht => ht)) fun t hdeadlineAt => .bind (.trivially _) fun _ _ => ?_
  refine .bind (whenPresent_some (optionalUserRef_returns _ _ _)) fun collector hcollector => ?_
  refine .bind (whenPresent_some (optionalUserRef_returns _ _ _)) fun person hperson => ?_
  obtain ⟨f, hf, rfl⟩ := hfulfilment
  obtain ⟨t₁, ht₁, rfl⟩ := hfulfilmentAt
  obtain ⟨t₂, ht₂, rfl⟩ := hdeadlineAt
  exact returns_done.mpr ⟨⟨f, hf, rfl⟩, ⟨t₁, ht₁, rfl⟩, ⟨t₂, ht₂, rfl⟩, hcollector, hperson⟩

end Read

/-! ## What becomes of a field -/

section Fields

variable {rt : Runtime} {b : Browser}

theorem selected_of_mem {choices : List Choice} {value : String} (h : ∃ choice ∈ choices, choice.value = value) :
    selected choices value = value := by
  rw [selected, if_pos]
  simpa using h

theorem selected_of_not_mem {choices : List Choice} {value : String} (h : ¬ ∃ choice ∈ choices, choice.value = value) :
    selected choices value = "" := by
  rw [selected, if_neg]
  simpa using h

theorem mem_accountChoices {accounts : List Account} {nobody : String} {id : UUID} :
    (∃ choice ∈ accountChoices accounts nobody, choice.value = id.string) ↔
      ∃ account ∈ accounts, account.id = id.string ∧ account.id ≠ deletedUserID.string := by
  have hne : ("" : String) ≠ id.string := id.string_ne_empty.symm
  simp [accountChoices, hne]
  grind

/-- Of the people the choices name stay, and the others go. -/
theorem person_iff {accounts : List Account} {nobody : String} {person found : Option UUID}
    (hparse : ∀ id, person = some id → rt.parseUUID id.string = some id)
    (hread : NamesPerson rt (selected (accountChoices accounts nobody) ((person.map UUID.string).getD "")) found) :
    found = person ↔ KeepsPerson accounts person := by
  cases person with
  | none =>
    have hempty : selected (accountChoices accounts nobody) "" = "" := selected_of_mem ⟨_, List.mem_cons_self, rfl⟩
    rw [Option.map_none, Option.getD_none, hempty] at hread
    obtain ⟨-, rfl⟩ | ⟨hne, -⟩ := hread
    · exact iff_of_true rfl fun id hid => by cases hid
    · exact absurd (by decide) hne
  | some id =>
    rw [Option.map_some, Option.getD_some] at hread
    have hkeeps : KeepsPerson accounts (some id) ↔ ∃ choice ∈ accountChoices accounts nobody,
        choice.value = id.string := by
      rw [mem_accountChoices]
      constructor
      · exact fun h => h id rfl
      · rintro h id' ⟨⟩
        exact h
    by_cases hlisted : ∃ choice ∈ accountChoices accounts nobody, choice.value = id.string
    · rw [selected_of_mem hlisted] at hread
      refine iff_of_true ?_ (hkeeps.mpr hlisted)
      obtain ⟨hempty, -⟩ | ⟨-, id', hid', rfl⟩ := hread
      · exact absurd (id.trimSpace_string.symm.trans hempty) id.string_ne_empty
      · rw [id.trimSpace_string, hparse id rfl] at hid'
        exact hid'.symm
    · rw [selected_of_not_mem hlisted] at hread
      refine iff_of_false ?_ fun h => hlisted (hkeeps.mp h)
      obtain ⟨-, rfl⟩ | ⟨hne, -⟩ := hread
      · exact fun h => by cases h
      · exact absurd (by decide) hne

/-- The fulfilment stays, or is not accepted. -/
theorem fulfilment_eq {choices : List Choice} {fulfilment found : String}
    (hchoices : choices.map Choice.value = [fulfilmentPickup, fulfilmentDelivery])
    (hpickup : rt.toLower fulfilmentPickup = fulfilmentPickup)
    (hdelivery : rt.toLower fulfilmentDelivery = fulfilmentDelivery)
    (hread : validateFulfilment rt (selected choices fulfilment) = .ok found) : found = fulfilment := by
  have hmem : (∃ choice ∈ choices, choice.value = fulfilment) ↔
      fulfilment = fulfilmentPickup ∨ fulfilment = fulfilmentDelivery := by
    rw [← List.mem_map, hchoices, List.mem_cons, List.mem_singleton]
  by_cases hknown : fulfilment = fulfilmentPickup ∨ fulfilment = fulfilmentDelivery
  · rw [selected_of_mem (hmem.mpr hknown)] at hread
    unfold validateFulfilment at hread
    obtain rfl | rfl := hknown
    · have htrim : trimSpace fulfilmentPickup = fulfilmentPickup := by decide
      simp only [htrim, hpickup, if_pos] at hread
      exact (Except.ok.inj hread).symm
    · have htrim : trimSpace fulfilmentDelivery = fulfilmentDelivery := by decide
      have hne : fulfilmentDelivery ≠ fulfilmentPickup := by decide
      simp only [htrim, hdelivery, if_neg hne, if_pos] at hread
      exact (Except.ok.inj hread).symm
  · rw [selected_of_not_mem fun h => hknown (hmem.mp h)] at hread
    have hempty : rt.toLower (trimSpace "") = "" := rfl
    have hpickup : ("" : String) ≠ fulfilmentPickup := by decide
    have hdelivery : ("" : String) ≠ fulfilmentDelivery := by decide
    simp only [validateFulfilment, hempty, if_neg hpickup, if_neg hdelivery, if_pos] at hread
    cases hread

/-- A time stays if and only if the control keeps it. -/
theorem time_iff {x t : Time} {ms : Int} {field : String} (hms : b.reread x.rfc3339.toList = some ms)
    (hparse : ∀ t, rt.parseTime (toISOString ms) = some t → t = ms * 1000000)
    (hread : requiredTime rt (toISOString ms) field = .ok t) : pgTime t = x ↔ b.KeepsTime x := by
  have htime : rt.parseTime (toISOString ms) = some t := by
    unfold requiredTime optionalTime at hread
    simp only [trimSpace_toISOString] at hread
    split_ifs at hread
    · cases hread
    · cases hparsed : rt.parseTime (toISOString ms) with
      | none =>
        rw [hparsed] at hread
        cases hread
      | some t' =>
        rw [hparsed] at hread
        cases hread
        rfl
  have hmicro (n : Int) : n * 1000000 - n * 1000000 % 1000 = n * 1000000 := by omega
  have hwhole : pgTime t = t := by
    rw [hparse t htime]
    exact hmicro ms
  rw [hwhole, hparse t htime, reread_eq_iff hms]

end Fields

/-! ## What is saved -/

section Saved

variable {h : OrderHandlers} {o : FoodOrderRow} {order : Order} {e : OrderEdit} {w w' : World Db Time}
  {ω : OrderStmt → Outcome}

/-- **However the request ends, it has changed nothing, or the row is as the body says.** -/
theorem patch_committed {r : Request OrderHandlers.PatchOrderRequest} {id : UUID} (hid : h.rt.parseUUID r.id = some id)
    {P : OrderUpdate → Prop} (hbody : ∀ order body, r.body = .ok body →
      (h.validateOrderPatch order body).Returns (fun _ => True) P) (hgiven : ∀ change, P change → change ≠ .empty)
    {res : Except ApiError OrderResponse} (hrun : ((h.patch r).under Outcome.found).run ω w = (res, w')) :
    (w' = w ∧ ∀ a, res ≠ .ok a) ∨ ∃ o o' change, P change ∧ w.db.foodOrder id = some o ∧
      w'.db.foodOrder id = some o' ∧ OrderChanged w.db change o o' := by
  have haccept : ((h.acceptOrderPatch r).under Outcome.found).ReadOnly :=
    Steps.under (h.acceptOrderPatch_reads r).readOnly _
  have hreturns : (h.acceptOrderPatch r).Returns (fun _ => True) fun accepted =>
      h.rt.parseUUID r.id = some accepted.1.id ∧ P accepted.2.2 := by
    refine .bind (h.lookupOrder_returns r) fun order hparse => .bind (.trivially _) fun _ _ => ?_
    refine .bind (.trivially _) fun _ _ => .bind (.ofExcept fun body hbody => hbody) fun body hdecoded => ?_
    exact .bind (hbody order body hdecoded) fun change hchange => returns_done.mpr ⟨hparse, hchange⟩
  unfold OrderHandlers.patch at hrun
  rw [under_bind] at hrun
  obtain ⟨x, hrefused, rfl⟩ | ⟨⟨order, actor, change⟩, w₁, haccepted, hupdate⟩ := run_bind_cases hrun
  · have hstate := run_readOnly haccept ω w
    rw [hrefused] at hstate
    exact .inl ⟨hstate, fun a ha => by cases ha⟩
  have hstate := run_readOnly haccept ω w
  rw [haccepted] at hstate
  obtain rfl : w₁ = w := hstate
  obtain ⟨hparse, hchange⟩ := (hreturns.under Outcome.found).run haccept trivial (congrArg Prod.fst haccepted)
  obtain rfl : id = order.id := Option.some.inj (hid.symm.trans hparse)
  dsimp only [OrderHandlers.update] at hupdate
  rw [under_bind, under_mapError, under_within, run_bind, run_mapError, run_within] at hupdate
  rcases hupdated : ((updateOrder order.id actor change).under Outcome.found).run (ω ∘ OrderStmt.updateOrder) w₁ with
    ⟨x | updated, w₂⟩
  all_goals rw [hupdated] at hupdate
  · -- the error is passed on
    obtain ⟨rfl, rfl⟩ := Prod.ext_iff.mp hupdate
    obtain ⟨hsame, -⟩ | ⟨o, new, ho, hnew, hdb, -⟩ := updateOrder_run (hgiven change hchange) hupdated
    · exact .inl ⟨hsame, fun a ha => by cases ha⟩
    · obtain ⟨hrow, -, -⟩ := foodOrder_changed ho hnew hdb
      exact .inr ⟨o, new, change, hchange, ho, hrow, changedFoodOrder_changed hnew⟩
  · -- the detail is only read
    have hreads : (((h.writeDetail updated 200).within OrderStmt.detail).under Outcome.found).ReadOnly :=
      Steps.under (Reads.readOnly ((h.writeDetail_reads updated 200).within (L := fun _ => True))) _
    obtain rfl : w' = w₂ := (congrArg Prod.snd hupdate).symm.trans (run_readOnly hreads ω w₂)
    obtain ⟨-, x, hx⟩ | ⟨o, new, ho, hnew, hdb, -⟩ := updateOrder_run (hgiven change hchange) hupdated
    · cases hx
    · obtain ⟨hrow, -, -⟩ := foodOrder_changed ho hnew hdb
      exact .inr ⟨o, new, change, hchange, ho, hrow, changedFoodOrder_changed hnew⟩

theorem foldl_addItem (items : List OrderItem) (body : OrderDetailBody) :
    (items.foldl OrderDetailBody.addItem body).toOrderListEntry = body.toOrderListEntry := by
  induction items generalizing body with
  | nil => rfl
  | cons i rest ih =>
    rw [List.foldl_cons, ih]
    unfold OrderDetailBody.addItem
    simp only
    split_ifs <;> rfl

/-- The page has the order with the fields of its row. -/
structure OrderShown (o : FoodOrderRow) (own : OrderDetailBody) : Prop where
  fulfilment : own.fulfilment = o.fulfilment
  fulfilmentAt : own.fulfilmentAt = o.fulfilmentAt.rfc3339
  deadlineAt : own.deadlineAt = o.deadlineAt.rfc3339
  moneyCollector : own.moneyCollectorID = o.moneyCollectorID.map UUID.string
  pickupPerson : own.pickupPersonID = o.pickupPersonID.map UUID.string

theorem orderShown {now : Time} {items : List OrderItem} {messageCount : Int64}
    (hrow : w.db.foodOrder o.id = some o) (horder : w.db.orderByID o.id = some order) :
    OrderShown o (detailBody h.rt now order items messageCount) := by
  rw [Db.orderByID, hrow, Option.bind_some] at horder
  obtain ⟨r, -, hscan⟩ := Option.bind_eq_some_iff.mp horder
  obtain ⟨u, -, hscan⟩ := Option.bind_eq_some_iff.mp hscan
  cases hscan
  have hentry := foldl_addItem items
  unfold detailBody
  constructor
  all_goals
    simp only [hentry]
    rfl

/-- What is sent are the values of the controls, with the times that they are read as. -/
theorem OrderEdit.sent_eq_some {r : Request OrderHandlers.PatchOrderRequest} (hsent : e.sent = some r) :
    ∃ fulfils closes, e.browser.reread e.own.fulfilmentAt.toList = some fulfils ∧
      e.browser.reread e.own.deadlineAt.toList = some closes ∧ r.id = e.id ∧ r.body = .ok
        { restaurantID := none
          fulfilment := some (openOrderEditor e.browser e.t e.own e.accounts).fulfilment
          fulfilmentAt := some (toISOString fulfils)
          deadlineAt := some (toISOString closes)
          moneyCollectorID := some (openOrderEditor e.browser e.t e.own e.accounts).moneyCollector
          pickupPersonID := some (openOrderEditor e.browser e.t e.own e.accounts).pickupPerson } := by
  obtain ⟨patch, hpatch, rfl⟩ := Option.map_eq_some_iff.mp hsent
  unfold OrderDialog.submit at hpatch
  split at hpatch
  · rename_i fulfils closes hfulfils hcloses
    split_ifs at hpatch
    cases hpatch
    exact ⟨fulfils, closes, hfulfils, hcloses, rfl, rfl⟩
  · cases hpatch

/-- An order that was changed to what the dialog says is the same if the controls keep it. -/
theorem OrderChanged.kept_iff {o' : FoodOrderRow} {change : OrderUpdate} {fulfils closes : Int} {db db' : Db}
    (hshown : OrderShown o e.own) (hread : ReadsOrder h.rt e.browser o)
    (hfulfils : e.browser.reread e.own.fulfilmentAt.toList = some fulfils)
    (hcloses : e.browser.reread e.own.deadlineAt.toList = some closes)
    (hchange : OrderRead h.rt (openOrderEditor e.browser e.t e.own e.accounts).fulfilment (toISOString fulfils)
      (toISOString closes) (openOrderEditor e.browser e.t e.own e.accounts).moneyCollector
      (openOrderEditor e.browser e.t e.own e.accounts).pickupPerson change)
    (hafter : db'.foodOrder o.id = some o') (hchanged : OrderChanged db change o o') :
    OrderKept o db' ↔ ControlsKeep e.browser (e.accounts.getD []) o := by
  obtain ⟨⟨f, hf, hf'⟩, ⟨t₁, ht₁, ht₁'⟩, ⟨t₂, ht₂, ht₂'⟩, ⟨p₁, hp₁, hp₁'⟩, p₂, hp₂, hp₂'⟩ := hchange
  rw [hshown.fulfilmentAt] at hfulfils
  rw [hshown.deadlineAt] at hcloses
  have hfulfilment : o'.fulfilment = o.fulfilment := by
    rw [hchanged.fulfilment, hf', Option.getD_some]
    unfold openOrderEditor at hf
    rw [hshown.fulfilment] at hf
    exact fulfilment_eq rfl hread.pickup hread.delivery hf
  have hfulfilmentAt : o'.fulfilmentAt = o.fulfilmentAt ↔ e.browser.KeepsTime o.fulfilmentAt := by
    rw [hchanged.fulfilmentAt, ht₁', Option.map_some, Option.getD_some]
    exact time_iff hfulfils (hread.time _ (.inl rfl) _ hfulfils) ht₁
  have hdeadlineAt : o'.deadlineAt = o.deadlineAt ↔ e.browser.KeepsTime o.deadlineAt := by
    rw [hchanged.deadlineAt, ht₂', Option.map_some, Option.getD_some]
    exact time_iff hcloses (hread.time _ (.inr rfl) _ hcloses) ht₂
  have hcollector : o'.moneyCollectorID = o.moneyCollectorID ↔
      KeepsPerson (e.accounts.getD []) o.moneyCollectorID := by
    rw [hchanged.moneyCollector, hp₁', Option.getD_some]
    unfold openOrderEditor at hp₁
    rw [hshown.moneyCollector] at hp₁
    exact person_iff (fun id hid => hread.person id (.inl hid)) hp₁
  have hperson : o'.pickupPersonID = o.pickupPersonID ↔ KeepsPerson (e.accounts.getD []) o.pickupPersonID := by
    rw [hchanged.pickupPerson, hp₂', Option.getD_some]
    unfold openOrderEditor at hp₂
    rw [hshown.pickupPerson] at hp₂
    exact person_iff (fun id hid => hread.person id (.inr hid)) hp₂
  constructor
  · rintro ⟨o'', ho'', hsame⟩
    obtain rfl := Option.some.inj (hafter.symm.trans ho'')
    exact ⟨hfulfilmentAt.mp hsame.fulfilmentAt, hdeadlineAt.mp hsame.deadlineAt, hcollector.mp hsame.moneyCollector,
      hperson.mp hsame.pickupPerson⟩
  · intro hkeeps
    exact ⟨o', hafter, hfulfilment, hfulfilmentAt.mpr hkeeps.fulfilmentAt, hdeadlineAt.mpr hkeeps.deadlineAt,
      hcollector.mpr hkeeps.moneyCollector, hperson.mpr hkeeps.pickupPerson⟩

/-- **Saving the order dialog as it was opened keeps the order** if and only if the controls keep its times and its
people; what is not answered with success has changed nothing, or is the same. -/
theorem editOrder_keeps_iff (hid : h.rt.parseUUID e.id = some o.id) (hrow : w.db.foodOrder o.id = some o)
    (horder : w.db.orderByID o.id = some order) {now : Time} {items : List OrderItem} {messageCount : Int64}
    (hown : e.own = detailBody h.rt now order items messageCount) (hread : ReadsOrder h.rt e.browser o)
    {res : Except ApiError (Option OrderResponse)}
    (hrun : ((h.editOrder e).under Outcome.found).run ω w = (res, w')) :
    ((∃ a, res = .ok (some a)) → (OrderKept o w'.db ↔ ControlsKeep e.browser (e.accounts.getD []) o)) ∧
      ((¬ ∃ a, res = .ok (some a)) →
        w' = w ∨ (OrderKept o w'.db ↔ ControlsKeep e.browser (e.accounts.getD []) o)) := by
  have hshown : OrderShown o e.own := hown ▸ orderShown hrow horder
  unfold OrderHandlers.editOrder at hrun
  cases hsent : e.sent with
  | none =>
    rw [hsent] at hrun
    cases hrun
    refine ⟨?_, fun _ => .inl rfl⟩
    rintro ⟨a, ha⟩
    cases ha
  | some r =>
    rw [hsent] at hrun
    dsimp only at hrun
    obtain ⟨fulfils, closes, hfulfils, hcloses, hrid, hbody⟩ := OrderEdit.sent_eq_some hsent
    have hpatch {answer : Except ApiError OrderResponse}
        (hrun : ((h.patch r).under Outcome.found).run ω w = (answer, w')) : (w' = w ∧ ∀ a, answer ≠ .ok a) ∨
          (OrderKept o w'.db ↔ ControlsKeep e.browser (e.accounts.getD []) o) := by
      obtain hsame | ⟨old, new, change, hchange, hold, hnew, hchanged⟩ := patch_committed (by rw [hrid, hid])
        (fun order body hdecoded => by
          cases hbody.symm.trans hdecoded
          exact validateOrderPatch_returns order _ _ _ _ _)
        (fun change hchange hempty => by
          obtain ⟨f, -, hf⟩ := hchange.fulfilment
          rw [hempty] at hf
          cases hf) hrun
      · exact .inl hsame
      · obtain rfl := Option.some.inj (hrow.symm.trans hold)
        exact .inr (hchanged.kept_iff hshown hread hfulfils hcloses hchange hnew)
    have hends : (w' = w ∧ ∀ a, res ≠ .ok (some a)) ∨
        (OrderKept o w'.db ↔ ControlsKeep e.browser (e.accounts.getD []) o) := by
      rw [under_bind] at hrun
      obtain ⟨x, hfailed, rfl⟩ | ⟨answer, w₁, hanswered, hdone⟩ := run_bind_cases hrun
      · exact (hpatch hfailed).imp_left fun hsame => ⟨hsame.1, fun a ha => by cases ha⟩
      · cases hdone
        obtain ⟨-, hnone⟩ | hiff := hpatch hanswered
        · exact absurd rfl (hnone answer)
        · exact .inr hiff
    constructor
    · rintro ⟨a, ha⟩
      obtain ⟨-, hnone⟩ | hiff := hends
      · exact absurd ha (hnone a)
      · exact hiff
    · intro _
      exact hends.imp And.left id

end Saved

/-! ## A dinner -/

/-- Anna collects the money for a dinner at two minutes past, that is ordered at one. -/
def dinnerRow : FoodOrderRow :=
  { id := ⟨6⟩, creatorID := ⟨1⟩, restaurantID := ⟨2⟩, fulfilment := "pickup", fulfilmentAt := 120 * Time.second
    deadlineAt := 60 * Time.second, moneyCollectorID := some ⟨1⟩, pickupPersonID := none, moneyCollectorDrawn := false
    pickupPersonDrawn := false, jobsDrawn := false, currencyCode := "EUR", minOrderValueCents := none
    deliveryFeeCents := none, createdAt := 0, updatedAt := 0, updatedBy := none }

def dinner : Db := { lunch with foodOrders := [dinnerRow] }

def dinnerOrder : Order :=
  { id := ⟨6⟩, creatorID := ⟨1⟩, creatorName := "anna", restaurantID := ⟨2⟩, restaurantName := "Bistro"
    restaurantLogo := none, fulfilment := "pickup", fulfilmentAt := 120 * Time.second
    deadlineAt := 60 * Time.second, moneyCollectorID := some ⟨1⟩, moneyCollectorName := "anna", pickupPersonID := none
    pickupPersonName := "", moneyCollectorDrawn := false, pickupPersonDrawn := false, currencyCode := "EUR"
    minOrderValueCents := none, deliveryFeeCents := none, itemCount := 0, createdAt := 0, updatedAt := 0 }

/-- A server that reads whole seconds, with the fraction that a browser writes -/
def dinnerHandlers : OrderHandlers where
  rt := { Runtime.ascii with parseTime := fun s => parseRFC3339 (String.ofList (s.toList.take 19 ++ ['Z'])) }
  events := false

def listedAnna : Account := { id := UUID.string ⟨1⟩, name := "anna", displayName := "" }

/-- A browser where the clocks show UTC, which reads no other dates -/
def utcBrowser : Browser := { zone := .utc, other := fun _ => none }

/-- She opens the dialog, and saves it. -/
def dinnerEdit (accounts : Option (List Account)) : OrderEdit :=
  { id := UUID.string ⟨6⟩, principal := some { userID := ⟨1⟩, isAdmin := false }
    browser := utcBrowser, t := id
    own := detailBody dinnerHandlers.rt 0 dinnerOrder [] 0, accounts }

theorem dinnerOrder_shown : dinner.foodOrder dinnerRow.id = some dinnerRow ∧
    dinner.orderByID dinnerRow.id = some dinnerOrder := by
  decide +kernel

theorem dinnerRow_readsOrder : ReadsOrder dinnerHandlers.rt utcBrowser dinnerRow where
  pickup := by decide
  delivery := by decide
  person := by
    rintro id (hid | hid)
    · cases hid
      decide +kernel
    · cases hid
  time := by
    have hread (minutes : Int) (hminutes : minutes = 1 ∨ minutes = 2) :
        utcBrowser.reread (Time.rfc3339 (60 * minutes * Time.second)).toList = some (60 * minutes * 1000) ∧
        dinnerHandlers.rt.parseTime (toISOString (60 * minutes * 1000)) = some (60 * minutes * Time.second) := by
      rcases hminutes with rfl | rfl <;> decide +kernel
    rintro x (rfl | rfl) ms hms t ht
    · obtain ⟨hms', ht'⟩ := hread 2 (.inr rfl)
      cases hms.symm.trans hms'
      cases ht.symm.trans ht'
      rfl
    · obtain ⟨hms', ht'⟩ := hread 1 (.inl rfl)
      cases hms.symm.trans hms'
      cases ht.symm.trans ht'
      rfl

theorem dinnerRow_controlsKeep : ControlsKeep utcBrowser [listedAnna] dinnerRow := by
  have hfirst (minutes : Int) : utcBrowser.FirstOfMinute (60 * minutes) := by
    refine .inl ⟨?_, fun t ht => ?_⟩
    all_goals
      simp only [utcBrowser, LocalTime.Zone.shown_utc]
      omega
  constructor
  case fulfilmentAt => exact .inl ⟨by decide +kernel, ⟨120, rfl⟩, hfirst 2⟩
  case deadlineAt => exact .inl ⟨by decide +kernel, ⟨60, rfl⟩, hfirst 1⟩
  case moneyCollector =>
    rintro id ⟨⟩
    exact ⟨listedAnna, List.mem_singleton_self _, rfl, by decide +kernel⟩
  case pickupPerson => exact fun id hid => by cases hid

/-- With the accounts listed, she goes on collecting the money. -/
theorem editOrder_keeps_dinner : ∃ a w',
    ((dinnerHandlers.editOrder (dinnerEdit (some [listedAnna]))).under Outcome.found).run (fun _ => .ok)
      ⟨dinner, 5000⟩ = (.ok (some a), w') ∧ OrderKept dinnerRow w'.db := by
  have hok : (((dinnerHandlers.editOrder (dinnerEdit (some [listedAnna]))).under Outcome.found).run (fun _ => .ok)
      ⟨dinner, 5000⟩).1.toOption.join.isSome = true := by decide +kernel
  rcases hrun : ((dinnerHandlers.editOrder (dinnerEdit (some [listedAnna]))).under Outcome.found).run (fun _ => .ok)
    ⟨dinner, 5000⟩ with ⟨x | _ | a, w'⟩
  · rw [hrun] at hok
    cases hok
  · rw [hrun] at hok
    cases hok
  · obtain ⟨hrow, horder⟩ := dinnerOrder_shown
    exact ⟨a, w', hrun, ((editOrder_keeps_iff (w := ⟨dinner, 5000⟩) (by decide +kernel) hrow horder rfl
      dinnerRow_readsOrder hrun).1 ⟨a, rfl⟩).mpr dinnerRow_controlsKeep⟩

/-- When the request for the accounts fails, saving takes the job from her. -/
theorem editOrder_keeps_not : ¬ ∀ (h : OrderHandlers) (w : World Db Time) (o : FoodOrderRow) (order : Order)
    (e : OrderEdit) (now : Time) (items : List OrderItem) (messageCount : Int64) (ω : OrderStmt → Outcome)
    (res : Except ApiError (Option OrderResponse)) (w' : World Db Time),
    h.rt.parseUUID e.id = some o.id → w.db.foodOrder o.id = some o → w.db.orderByID o.id = some order →
    e.own = detailBody h.rt now order items messageCount → ReadsOrder h.rt e.browser o →
    ((h.editOrder e).under Outcome.found).run ω w = (res, w') →
    OrderKept o w'.db ∨ ((¬ ∃ a, res = .ok (some a)) ∧ w' = w) := by
  intro hevery
  obtain ⟨hrow, horder⟩ := dinnerOrder_shown
  have hlost : ((((dinnerHandlers.editOrder (dinnerEdit none)).under Outcome.found).run (fun _ => .ok)
      ⟨dinner, 5000⟩).2.db.foodOrder dinnerRow.id).map FoodOrderRow.moneyCollectorID = some none := by decide +kernel
  rcases hrun : ((dinnerHandlers.editOrder (dinnerEdit none)).under Outcome.found).run (fun _ => .ok)
    ⟨dinner, 5000⟩ with ⟨res, w'⟩
  rw [hrun] at hlost
  obtain ⟨o', ho', hsame⟩ | ⟨-, hsame⟩ := hevery dinnerHandlers ⟨dinner, 5000⟩ dinnerRow dinnerOrder (dinnerEdit none) 0
    [] 0 _ res w' (by decide +kernel) hrow horder rfl dinnerRow_readsOrder hrun
  · rw [ho', Option.map_some, hsame.moneyCollector] at hlost
    cases hlost
  · rw [hsame, hrow] at hlost
    cases hlost

end Doenerstag
