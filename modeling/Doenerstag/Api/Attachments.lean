import Doenerstag.Api.Availability
import Doenerstag.Lib.Transactions

/-!
# The filters of a dish (`internal/api/availability.go`, `internal/db/availability.go`)

`PUT …/menu-items/{mid}/availability` replaces the filters that are attached to a dish, in one transaction.

* `setMenuItemFilters` — `SetMenuItemFilters`: the attachments are cleared, and those of the list inserted.
* `setItemAvailability` — the handler, which takes filters of the restaurant only.
* `setMenuItemFilters_run` — a call leaves the attachments of the list, and nothing else is changed.
* `setItemAvailability_attaches` — **however the request ends, it has changed nothing, or the dish has the filters
  that were sent.**
-/

namespace Doenerstag

open ReadCommitted Prog

/-! ## The attachments of a dish -/

namespace Db

@[simps] def setMenuItemAvailability (db : Db) (rows : List MenuItemAvailabilityRow) : Db :=
  { db with menuItemAvailability := rows }

/-- `DELETE FROM menu_item_availability WHERE menu_item_id = $1`, of the rows it saw -/
def clearItemFilters (menuItemID : UUID) (seen db : Db) : Db :=
  db.setMenuItemAvailability <| db.menuItemAvailability.filter fun a =>
    !(a.menuItemID == menuItemID && seen.menuItemAvailability.contains a)

/-- `INSERT INTO menu_item_availability` -/
def insertItemFilter (menuItemID actor filterID : UUID) (db : Db) : Except PgError Db :=
  if db.menuItemAvailability.contains { menuItemID := menuItemID, filterID := filterID } then .error .uniqueViolation
  else if (db.menuItem menuItemID).isNone || (!db.availabilityFilters.any fun f => f.id == filterID) ||
      (db.userByID actor).isNone then
    .error .foreignKeyViolation
  else
    .ok <| db.setMenuItemAvailability <|
      db.menuItemAvailability ++ [{ menuItemID := menuItemID, filterID := filterID }]

/-- `ListAvailabilityFilters` -/
def listAvailabilityFilters (db : Db) (rt : Runtime) (restaurantID : UUID) : List AvailabilityFilter :=
  let rows := db.availabilityFilters.filter fun f => f.restaurantID == restaurantID
  let sorted := sliceStable
    (fun a b => a.sortOrder < b.sortOrder ||
      (a.sortOrder == b.sortOrder && rt.sortsBefore (rt.lower a.name) (rt.lower b.name))) rows
  sorted.map scanAvailabilityFilter

/-- The filters that a dish has -/
def attachedTo (db : Db) (menuItemID : UUID) : List UUID :=
  (db.menuItemAvailability.filter fun a => a.menuItemID == menuItemID).map MenuItemAvailabilityRow.filterID

end Db

inductive AttachStmt where
  | begin
  | clear
  | insert (k : Nat)
  | commit
  deriving DecidableEq, Repr

/-- The loop over the filters, from the `k`-th -/
def insertItemFilters (menuItemID actor : UUID) (tx : PgTx) (k : Nat) : List UUID → DbProgram AttachStmt PgTx
  | [] => pure tx
  | filterID :: rest => do
    let tx ← (tx.insert (.insert k) (Db.insertItemFilter menuItemID actor filterID)).mapError linksError
    insertItemFilters menuItemID actor tx (k + 1) rest

/-- `replaceAttachments` up to the commit -/
def stageItemFilters (menuItemID actor : UUID) (filterIDs : List UUID) : DbProgram AttachStmt PgTx := do
  let tx ← (begin .begin).mapError otherError
  let tx ← (tx.exec .clear fun seen db => .ok (db.clearItemFilters menuItemID seen)).mapError otherError
  insertItemFilters menuItemID actor tx 0 filterIDs

/-- `SetMenuItemFilters` -/
def setMenuItemFilters (menuItemID actor : UUID) (filterIDs : List UUID) : DbProgram AttachStmt Unit := do
  let tx ← stageItemFilters menuItemID actor filterIDs
  (tx.commit .commit).mapError otherError

/-! ## The handler -/

/-- The loop of `setAttachments`: the filters that are sent, once each. -/
def readFilterIDs (rt : Runtime) (known : List AvailabilityFilter) (seen : List UUID) :
    List String → Except ApiError (List UUID)
  | [] => .ok []
  | raw :: rest => do
    let id ← requiredUUID rt raw "filter_ids"
    if !known.any fun f => f.id == id then
      throw { code := codeInvalidField, field := "filter_ids"
              detail := "no availability filter of this restaurant has this id" }
    else if seen.contains id then
      readFilterIDs rt known seen rest
    else
      let ids ← readFilterIDs rt known (id :: seen) rest
      pure (id :: ids)

inductive SetAvailabilityStmt where
  /-- `restaurantID`, `lookupMenuItem` -/
  | lookup (s : MenuStmt)
  | filters
  | attach (s : AttachStmt)
  deriving DecidableEq, Repr

namespace MenuHandlers

variable (h : MenuHandlers)

/-- `setItemAvailability` up to `SetMenuItemFilters`; the body is `filter_ids`. -/
def acceptItemAvailability (r : MenuRequest (List String)) :
    Handler SetAvailabilityStmt (UUID × UUID × List UUID × List AvailabilityFilter) := do
  let restaurantID ← (h.restaurantID r).within .lookup
  let item ← (h.lookupMenuItem r restaurantID).within .lookup
  let principal ← .ofExcept (requireAuthenticated r.principal)
  let filterIDs ← .ofExcept r.body
  let known ← ((query .filters fun db : Db =>
    db.listAvailabilityFilters h.rt restaurantID).mapError otherError).mapError databaseUnavailable
  let ids ← .ofExcept (readFilterIDs h.rt known [] filterIDs)
  pure (item.id, principal.userID, ids, ids.filterMap fun id => known.find? fun f => f.id == id)

def setItemAvailability (r : MenuRequest (List String)) : Handler SetAvailabilityStmt (List AvailabilityBody) := do
  let (itemID, actor, ids, attached) ← h.acceptItemAvailability r
  ((setMenuItemFilters itemID actor ids).within .attach).mapError dbError
  pure (attached.map publicAvailability)

end MenuHandlers

/-! ## What a call comes to -/

section Calls

variable {menuItemID actor : UUID} {ids : List UUID} {tx : PgTx} {view : Db} {w w' : World Db Time}

/-- The loop appends the attachments to what the transaction sees. -/
theorem insertItemFilters_found (hview : tx.view w.db = .ok view) (k : Nat) :
    ((insertItemFilters menuItemID actor tx k ids).under Outcome.found).Returns (· = w) fun tx' =>
      tx'.view w.db = .ok (view.setMenuItemAvailability
        (view.menuItemAvailability ++ ids.map (MenuItemAvailabilityRow.mk menuItemID))) := by
  induction ids generalizing tx view k with
  | nil =>
    refine returns_done.mpr ?_
    rw [List.map_nil, List.append_nil]
    exact hview
  | cons filterID rest ih =>
    rw [insertItemFilters, under_bind, under_mapError]
    refine .bind ((Tx.insert_found hview _ _).mapError _) fun tx' hinserted => ?_
    obtain ⟨-, view', hview', hinsert⟩ := hinserted
    refine (ih hview' (k + 1)).mono fun tx'' hview'' => ?_
    unfold Db.insertItemFilter at hinsert
    split_ifs at hinsert
    cases hinsert
    rw [hview'', Db.setMenuItemAvailability_menuItemAvailability, List.append_assoc]
    rfl

theorem insertItemFilters_reads (tx : PgTx) (k : Nat) :
    (insertItemFilters menuItemID actor tx k ids).Reads fun _ => True := by
  induction ids generalizing tx k with
  | nil => exact .done _
  | cons filterID rest ih => exact .bind (.mapError (Tx.insert_reads tx trivial) _) fun tx' => ih tx' (k + 1)

theorem stageItemFilters_readOnly : (stageItemFilters menuItemID actor ids).ReadOnly :=
  Reads.readOnly (L := fun _ => True) <| .bind (.mapError (begin_reads trivial) _) fun tx =>
    .bind (.mapError (Tx.exec_reads tx trivial) _) fun tx' => insertItemFilters_reads tx' 0

/-- The attachments of the dish are those of the list, and the others stay. -/
structure FiltersSet (menuItemID : UUID) (ids : List UUID) (db db' : Db) : Prop where
  others : ∃ rows, db' = db.setMenuItemAvailability rows
  mem : ∀ a, a ∈ db'.menuItemAvailability ↔
    (a.menuItemID ≠ menuItemID ∧ a ∈ db.menuItemAvailability) ∨ (a.menuItemID = menuItemID ∧ a.filterID ∈ ids)

theorem FiltersSet.mem_attachedTo {db db' : Db} (h : FiltersSet menuItemID ids db db') {id : UUID} :
    id ∈ db'.attachedTo menuItemID ↔ id ∈ ids := by
  simp only [Db.attachedTo, List.mem_map, List.mem_filter, beq_iff_eq, h.mem]
  constructor
  · rintro ⟨a, ⟨⟨hother, -⟩ | ⟨-, hid⟩, hown⟩, rfl⟩
    · exact absurd hown hother
    · exact hid
  · intro hid
    exact ⟨.mk menuItemID id, ⟨.inr ⟨rfl, hid⟩, rfl⟩, rfl⟩

/-- Everything but the commit -/
theorem stageItemFilters_found : ((stageItemFilters menuItemID actor ids).under Outcome.found).Returns (· = w)
    fun tx => ∃ view, tx.view w.db = .ok view ∧ FiltersSet menuItemID ids w.db view := by
  unfold stageItemFilters
  rw [under_bind, under_mapError]
  refine .bind ((begin_found _).mapError _) fun tx hbegun => ?_
  rw [under_bind, under_mapError]
  refine .bind ((Tx.exec_found hbegun.2 _).mapError _) fun tx' hcleared => ?_
  obtain ⟨-, view, hview, hclear⟩ := hcleared
  cases hclear
  refine (insertItemFilters_found hview 0).mono fun tx'' hview'' => ⟨_, hview'', ⟨_, rfl⟩, fun a => ?_⟩
  -- of the rows that were seen, those of the dish are gone
  have hnew : (∃ id ∈ ids, MenuItemAvailabilityRow.mk menuItemID id = a) ↔
      a.menuItemID = menuItemID ∧ a.filterID ∈ ids := by
    constructor
    · rintro ⟨id, hid, rfl⟩
      exact ⟨rfl, hid⟩
    · rintro ⟨rfl, hid⟩
      exact ⟨_, hid, rfl⟩
  simp only [Db.setMenuItemAvailability_menuItemAvailability, Db.clearItemFilters, List.mem_append, List.mem_filter,
    List.mem_map, hnew, Bool.not_eq_true', Bool.and_eq_false_iff, beq_eq_false_iff_ne, ne_eq,
    List.contains_eq_mem, decide_eq_false_iff_not]
  constructor
  · rintro (⟨hmem, hother | hunseen⟩ | hown)
    · exact .inl ⟨hother, hmem⟩
    · exact absurd hmem hunseen
    · exact .inr hown
  · rintro (⟨hother, hmem⟩ | hown)
    · exact .inl ⟨hmem, .inl hother⟩
    · exact .inr hown

/-- **A call replaces the attachments of the dish, or changes nothing.** -/
theorem setMenuItemFilters_run {ω : AttachStmt → Outcome} {res : Except DbError Unit}
    (hrun : ((setMenuItemFilters menuItemID actor ids).under Outcome.found).run ω w = (res, w')) :
    (w' = w ∧ res ≠ .ok ()) ∨ FiltersSet menuItemID ids w.db w'.db := by
  cases res with
  | error x =>
    have hsame := quiet_transaction (l := AttachStmt.commit) (g := otherError) (ω := ω) (w := w) (fun w => w)
      (stageItemFilters_readOnly : (stageItemFilters menuItemID actor ids).ReadOnly) Outcome.found x
      (congrArg Prod.fst hrun)
    exact .inl ⟨(congrArg Prod.snd hrun).symm.trans hsame, fun h => by cases h⟩
  | ok u =>
    obtain ⟨view, hset, rfl⟩ := run_transaction stageItemFilters_readOnly stageItemFilters_found hrun
    exact .inr hset

end Calls

/-! ## What a request comes to -/

section Requests

variable {h : MenuHandlers} {r : MenuRequest (List String)} {w w' : World Db Time}

/-- The filters that are read are those of the texts, but for those that were seen. -/
theorem mem_readFilterIDs {rt : Runtime} {known : List AvailabilityFilter} {seen ids : List UUID}
    {values : List String} (hread : readFilterIDs rt known seen values = .ok ids) (id : UUID) :
    id ∈ ids ↔ id ∉ seen ∧ ∃ raw ∈ values, requiredUUID rt raw "filter_ids" = .ok id := by
  induction values generalizing seen ids with
  | nil =>
    cases hread
    simp
  | cons raw rest ih =>
    rw [readFilterIDs] at hread
    obtain ⟨first, hfirst, hread⟩ := exceptBind_eq_ok hread
    have hraw : (∃ raw' ∈ raw :: rest, requiredUUID rt raw' "filter_ids" = .ok id) ↔
        first = id ∨ ∃ raw' ∈ rest, requiredUUID rt raw' "filter_ids" = .ok id := by
      simp [hfirst]
    rw [hraw]
    split_ifs at hread with hunknown hseen
    · -- it is there already
      rw [List.contains_iff_mem] at hseen
      rw [ih hread]
      grind
    · obtain ⟨more, hmore, hread⟩ := exceptBind_eq_ok hread
      cases hread
      rw [List.contains_iff_mem] at hseen
      rw [List.mem_cons, ih hmore, List.mem_cons]
      grind

theorem acceptItemAvailability_reads : (h.acceptItemAvailability r).Reads fun _ => True :=
  .bind (h.restaurantID_reads r).within fun _ => .bind (h.lookupMenuItem_reads r _).within fun _ =>
    .bind (.ofExcept _) fun _ => .bind (.ofExcept _) fun _ =>
      .bind (((query_reads trivial).mapError _).mapError _) fun _ => .bind (.ofExcept _) fun _ => .done _

/-- What is accepted: the dish of the path, and the filters of the body. -/
theorem acceptItemAvailability_returns {I : World Db Time → Prop} :
    (h.acceptItemAvailability r).Returns I fun accepted => h.rt.parseUUID r.mid = some accepted.1 ∧
      ∃ values, r.body = .ok values ∧ ∀ id, id ∈ accepted.2.2.1 ↔
        ∃ raw ∈ values, requiredUUID h.rt raw "filter_ids" = .ok id := by
  refine .bind (.trivially _) fun restaurantID _ => ?_
  refine .bind (A := fun item => h.rt.parseUUID r.mid = some item.id) (.within ?_ _) fun item hitem => ?_
  · refine .bind (A := fun item => h.rt.parseUUID r.mid = some item.id) ?_ fun item hitem =>
      .bind (.trivially _) fun _ _ => returns_done.mpr hitem
    unfold loadParam
    cases h.rt.parseUUID r.mid with
    | none => exact returns_fail _
    | some id =>
      refine (Returns.mapError (queryRow_returns fun w item _ hitem => ?_) _).mapError _
      obtain ⟨m, hm, rfl⟩ := Option.map_eq_some_iff.mp hitem
      have hid := Db.menuItem_id _ (Option.filter_eq_some_iff.mp hm).1
      exact congrArg some hid.symm
  refine .bind (.trivially _) fun _ _ => .bind (.ofExcept fun values hvalues => hvalues) fun values hvalues => ?_
  refine .bind (.trivially _) fun known _ => .bind (.ofExcept fun ids hids => hids) fun ids hids => ?_
  refine returns_done.mpr ⟨hitem, values, hvalues, fun id => ?_⟩
  rw [mem_readFilterIDs hids]
  simp

/-- **However the request ends, it has changed nothing, or the dish has the filters that were sent.** -/
theorem setItemAvailability_attaches {id : UUID} (hid : h.rt.parseUUID r.mid = some id)
    {ω : SetAvailabilityStmt → Outcome} {res : Except ApiError (List AvailabilityBody)}
    (hrun : ((h.setItemAvailability r).under Outcome.found).run ω w = (res, w')) :
    (w' = w ∧ ∃ x, res = .error x) ∨ ∃ values ids, r.body = .ok values ∧
      (∀ filterID, filterID ∈ ids ↔ ∃ raw ∈ values, requiredUUID h.rt raw "filter_ids" = .ok filterID) ∧
      FiltersSet id ids w.db w'.db := by
  have haccept : ((h.acceptItemAvailability r).under Outcome.found).ReadOnly :=
    Steps.under acceptItemAvailability_reads.readOnly _
  unfold MenuHandlers.setItemAvailability at hrun
  rw [under_bind] at hrun
  obtain ⟨rfl, x, rfl⟩ | ⟨⟨itemID, actor, ids, attached⟩, haccepted, hwrite⟩ := haccept.run_bind_cases hrun
  · exact .inl ⟨rfl, x, rfl⟩
  obtain ⟨hparse, values, hvalues, hids⟩ := (acceptItemAvailability_returns.under Outcome.found).run
    (I := fun _ => True) haccept trivial (congrArg Prod.fst haccepted)
  obtain rfl : id = itemID := Option.some.inj (hid.symm.trans hparse)
  dsimp only at hwrite
  rw [under_bind, under_mapError, under_within, run_bind, run_mapError, run_within] at hwrite
  rcases hset : ((setMenuItemFilters id actor ids).under Outcome.found).run (ω ∘ SetAvailabilityStmt.attach) w with
    ⟨x | u, w₂⟩
  · rw [hset] at hwrite
    obtain ⟨rfl, rfl⟩ := Prod.ext_iff.mp hwrite
    obtain ⟨hsame, -⟩ | hfilters := setMenuItemFilters_run hset
    · exact .inl ⟨hsame, _, rfl⟩
    · exact .inr ⟨values, ids, hvalues, hids, hfilters⟩
  · rw [hset] at hwrite
    obtain ⟨rfl, rfl⟩ := Prod.ext_iff.mp hwrite
    obtain ⟨-, hnone⟩ | hfilters := setMenuItemFilters_run hset
    · exact absurd rfl hnone
    · exact .inr ⟨values, ids, hvalues, hids, hfilters⟩

end Requests

end Doenerstag
