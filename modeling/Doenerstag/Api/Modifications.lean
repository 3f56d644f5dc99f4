import Doenerstag.Api.MenuItems
import Doenerstag.Db.MenuCopy
import Doenerstag.Lib.Transactions

/-!
# Modifications of a dish (`internal/api/modifications.go`, `internal/db/classification.go`)

The handlers that add a modification and that change one.

* `createModificationRow`, `updateModificationRow` — `CreateModification` and `UpdateModification`.
* `MenuHandlers.createModification`, `MenuHandlers.patchModification` — the handlers.
* `createModification_saves`, `patchModification_saves` — **a request that is answered has stored a modification
  with the price that was sent, and one that is not has changed nothing.**
-/

namespace Doenerstag

open ReadCommitted Prog

/-! ## The statements -/

structure NewModification where
  menuItemID : UUID
  name : String
  priceDeltaCents : Int64
  sortOrder : Int64
  deriving DecidableEq, Repr

/-- A field that is absent stays as it is. -/
structure ModificationUpdate where
  name : Option String
  priceDeltaCents : Option Int64
  sortOrder : Option Int64
  deriving DecidableEq, Repr

def ModificationUpdate.empty : ModificationUpdate := { name := none, priceDeltaCents := none, sortOrder := none }

def ModificationUpdate.apply (change : ModificationUpdate) (m : MenuItemModificationRow) : MenuItemModificationRow :=
  { m with
    name := change.name.getD m.name
    priceDeltaCents := change.priceDeltaCents.getD m.priceDeltaCents
    sortOrder := change.sortOrder.getD m.sortOrder }

namespace Db

/-- The living modification with the id -/
def livingModification (db : Db) (id : UUID) : Option MenuItemModificationRow :=
  (db.menuItemModifications.find? fun m => m.id == id).filter fun m => m.deletedAt.isNone

/-- `INSERT INTO menu_item_modification … RETURNING` -/
def insertModificationReturning (rt : Runtime) (row : MenuItemModificationRow) (actor : UUID) (db : Db) :
    Except PgError (Db × Option MenuItemModificationRow) :=
  (db.insertModification rt row actor).map fun db' => (db', some row)

/-- `UPDATE menu_item_modification SET … WHERE id = … AND deleted_at IS NULL RETURNING` -/
def updateModification (rt : Runtime) (id actor : UUID) (f : MenuItemModificationRow → MenuItemModificationRow)
    (db : Db) : Except PgError (Db × Option MenuItemModificationRow) :=
  match db.livingModification id with
  | none => .ok (db, none)
  | some m =>
    let new := f m
    if new.name.length < 1 || 200 < new.name.length then .error .checkViolation
    else if db.menuItemModifications.any fun p => p.id != new.id && p.menuItemID == new.menuItemID &&
        p.deletedAt.isNone && rt.lower p.name == rt.lower new.name then
      .error .uniqueViolation
    else if (db.userByID actor).isNone then .error .foreignKeyViolation
    else .ok (db.setMenuItemModifications (db.menuItemModifications.map fun p => if p.id == id then new else p),
      some new)

end Db

/-- What `CreateModification` makes of an error -/
def createModificationError (e : StmtError PgError) : DbError :=
  match e with
  | .rejected .uniqueViolation => .nameTaken
  | .rejected .foreignKeyViolation => .unknownReference
  | .noRows => .notFound
  | _ => .failure

/-- What `UpdateModification` makes of one -/
def updateModificationError (e : StmtError PgError) : DbError :=
  match e with
  | .rejected .uniqueViolation => .nameTaken
  | .noRows => .notFound
  | _ => .failure

/-- `CreateModification` -/
def createModificationRow {ℓ : Type} (rt : Runtime) (l : ℓ) (id actor : UUID) (m : NewModification) :
    DbProgram ℓ MenuItemModificationRow :=
  (returning l fun _ => Db.insertModificationReturning rt
    { id := id, menuItemID := m.menuItemID, name := m.name, priceDeltaCents := m.priceDeltaCents
      sortOrder := m.sortOrder, deletedAt := none } actor).mapError createModificationError

def modificationByID {ℓ : Type} (l : ℓ) (id : UUID) : DbProgram ℓ MenuItemModificationRow :=
  (queryRow l fun db : Db => db.livingModification id).mapError scanError

/-- `UpdateModification` -/
def updateModificationRow {ℓ : Type} (rt : Runtime) (l : ℓ) (id actor : UUID) (change : ModificationUpdate) :
    DbProgram ℓ MenuItemModificationRow :=
  if change = .empty then
    modificationByID l id
  else
    (returning l fun _ => Db.updateModification rt id actor change.apply).mapError updateModificationError

/-! ## The handlers -/

inductive ModificationStmt where
  /-- `restaurantID`, `lookupMenuItem` -/
  | lookup (s : MenuStmt)
  /-- `lookupModification` -/
  | modification
  | write
  deriving DecidableEq, Repr

namespace MenuHandlers

variable (h : MenuHandlers)

structure ModificationRequest where
  name : String
  priceDeltaCents : Int64
  sortOrder : Int64
  deriving DecidableEq, Repr

structure PatchModificationRequest where
  name : Option String
  priceDeltaCents : Option Int64
  sortOrder : Option Int64
  deriving DecidableEq, Repr

/-- `lookupModification`: the one of the path, which has to be the dish's. -/
def lookupModification (k : String) (itemID : UUID) : Handler ModificationStmt MenuItemModificationRow := do
  let modification ← loadParam h.rt k (modificationByID .modification)
  Prog.require (modification.menuItemID == itemID) (.of codeNotFound)
  pure modification

/-- `createModification` up to `CreateModification` -/
def acceptNewModification (r : MenuRequest ModificationRequest) :
    Handler ModificationStmt (UUID × NewModification) := do
  let restaurantID ← (h.restaurantID r).within .lookup
  let principal ← .ofExcept (requireAuthenticated r.principal)
  let item ← (h.lookupMenuItem r restaurantID).within .lookup
  let body ← .ofExcept r.body
  let name := trimSpace body.name
  Prog.ofExcept (validateMenuName name)
  pure (principal.userID,
    { menuItemID := item.id, name, priceDeltaCents := body.priceDeltaCents, sortOrder := body.sortOrder })

def createModification (id : UUID) (r : MenuRequest ModificationRequest) :
    Handler ModificationStmt MenuItemModificationRow := do
  let (actor, new) ← h.acceptNewModification r
  (createModificationRow h.rt .write id actor new).mapError menuItemWriteError

/-- `patchModification` up to `UpdateModification`; `k` is the last part of the path. -/
def acceptModificationPatch (k : String) (r : MenuRequest PatchModificationRequest) :
    Handler ModificationStmt (UUID × UUID × ModificationUpdate) := do
  let restaurantID ← (h.restaurantID r).within .lookup
  let principal ← .ofExcept (requireAuthenticated r.principal)
  let item ← (h.lookupMenuItem r restaurantID).within .lookup
  let modification ← h.lookupModification k item.id
  let body ← .ofExcept r.body
  let name ← .ofExcept (body.name.mapM fun v => do
    validateMenuName (trimSpace v)
    pure (trimSpace v))
  pure (principal.userID, modification.id,
    { name, priceDeltaCents := body.priceDeltaCents, sortOrder := body.sortOrder })

def patchModification (k : String) (r : MenuRequest PatchModificationRequest) :
    Handler ModificationStmt MenuItemModificationRow := do
  let (actor, id, change) ← h.acceptModificationPatch k r
  (updateModificationRow h.rt .write id actor change).mapError menuItemWriteError

end MenuHandlers

/-! ## What is stored -/

section Stored

variable {h : MenuHandlers} {w w' : World Db Time} {ω : ModificationStmt → Outcome}
  {res : Except ApiError MenuItemModificationRow}

theorem insertModificationReturning_mem {rt : Runtime} {row m : MenuItemModificationRow} {actor : UUID} {db db' : Db}
    (hinsert : Db.insertModificationReturning rt row actor db = .ok (db', some m)) :
    m = row ∧ m ∈ db'.menuItemModifications := by
  obtain ⟨db₁, hrow, heq⟩ := exceptMap_eq_ok hinsert
  cases heq
  refine ⟨rfl, ?_⟩
  unfold Db.insertModification at hrow
  split_ifs at hrow
  cases hrow
  exact List.mem_append_right _ List.mem_cons_self

theorem updateModification_mem {rt : Runtime} {id actor : UUID} {m : MenuItemModificationRow} {db db' : Db}
    {f : MenuItemModificationRow → MenuItemModificationRow}
    (hupdate : Db.updateModification rt id actor f db = .ok (db', some m)) :
    (∃ old, m = f old) ∧ m ∈ db'.menuItemModifications := by
  unfold Db.updateModification at hupdate
  cases hliving : db.livingModification id with
  | none =>
    rw [hliving] at hupdate
    cases hupdate
  | some old =>
    rw [hliving] at hupdate
    dsimp only at hupdate
    split_ifs at hupdate
    cases hupdate
    have hfound := (Option.filter_eq_some_iff.mp hliving).1
    have hid : old.id == id := List.find?_some (p := fun m : MenuItemModificationRow => m.id == id) hfound
    refine ⟨⟨old, rfl⟩, ?_⟩
    rw [Db.setMenuItemModifications_menuItemModifications, List.mem_map]
    exact ⟨old, List.mem_of_find?_eq_some hfound, if_pos hid⟩

/-- A request that reads, and then writes one row and returns it -/
theorem run_read_then_write {α : Type} {accept : Handler ModificationStmt α}
    {store : α → Handler ModificationStmt MenuItemModificationRow} {A : α → Prop}
    {P : MenuItemModificationRow → Prop} (hreads : accept.Reads fun _ => True)
    (hreturns : accept.Returns (fun _ => True) A) (hquiet : ∀ a, (store a).Quiet id ω w)
    (hstores : ∀ a m w', A a → (store a).run ω w = (.ok m, w') → P m ∧ m ∈ w'.db.menuItemModifications)
    (hrun : (accept >>= store).run ω w = (res, w')) :
    (∀ m, res = .ok m → P m ∧ m ∈ w'.db.menuItemModifications) ∧ ((¬ ∃ m, res = .ok m) → w' = w) := by
  obtain ⟨rfl, x, rfl⟩ | ⟨a, haccepted, hstore⟩ := hreads.readOnly.run_bind_cases hrun
  · exact ⟨fun m hm => (by cases hm), fun _ => rfl⟩
  have hA := hreturns.run hreads.readOnly trivial (congrArg Prod.fst haccepted)
  constructor
  · rintro m rfl
    exact hstores a m w' hA hstore
  · intro hnone
    cases res with
    | ok m => exact absurd ⟨m, rfl⟩ hnone
    | error x =>
      have hsame := hquiet a x (congrArg Prod.fst hstore)
      rw [hstore] at hsame
      exact hsame

theorem acceptNewModification_reads (r : MenuRequest MenuHandlers.ModificationRequest) :
    (h.acceptNewModification r).Reads fun _ => True :=
  .bind (h.restaurantID_reads r).within fun _ => .bind (.ofExcept _) fun _ =>
    .bind (h.lookupMenuItem_reads r _).within fun _ => .bind (.ofExcept _) fun _ =>
      .bind (.ofExcept _) fun _ => .done _

theorem lookupModification_reads (k : String) (itemID : UUID) :
    (h.lookupModification k itemID).Reads fun _ => True :=
  .bind (loadParam_reads fun _ => (queryRow_reads trivial).mapError _) fun _ => .bind (.require _ _) fun _ => .done _

theorem acceptModificationPatch_reads (k : String) (r : MenuRequest MenuHandlers.PatchModificationRequest) :
    (h.acceptModificationPatch k r).Reads fun _ => True :=
  .bind (h.restaurantID_reads r).within fun _ => .bind (.ofExcept _) fun _ =>
    .bind (h.lookupMenuItem_reads r _).within fun _ => .bind (lookupModification_reads k _) fun _ =>
      .bind (.ofExcept _) fun _ => .bind (.ofExcept _) fun _ => .done _

/-- **A modification that is added has the price that was sent**, and a request that fails has changed nothing. -/
theorem createModification_saves {id : UUID} {r : MenuRequest MenuHandlers.ModificationRequest}
    (hrun : (h.createModification id r).run ω w = (res, w')) :
    (∀ m, res = .ok m → (∃ body, r.body = .ok body ∧ m.priceDeltaCents = body.priceDeltaCents) ∧
      m ∈ w'.db.menuItemModifications) ∧ ((¬ ∃ m, res = .ok m) → w' = w) := by
  refine run_read_then_write (A := fun accepted => ∃ body, r.body = .ok body ∧
    accepted.2.priceDeltaCents = body.priceDeltaCents) (acceptNewModification_reads r) ?_
    (fun ⟨actor, new⟩ => (write_quiet.mapError _).mapError _) (fun ⟨actor, new⟩ m w' hA hstored => ?_) hrun
  · refine .bind (.trivially _) fun _ _ => .bind (.trivially _) fun _ _ => .bind (.trivially _) fun _ _ => ?_
    refine .bind (.ofExcept fun body hbody => hbody) fun body hbody => .bind (.trivially _) fun _ _ => ?_
    exact returns_done.mpr ⟨body, hbody, rfl⟩
  · obtain ⟨db, hinsert, rfl⟩ := run_returning_eq_ok (run_mapError_eq_ok (run_mapError_eq_ok hstored))
    obtain ⟨rfl, hmem⟩ := insertModificationReturning_mem hinsert
    obtain ⟨body, hbody, hprice⟩ := hA
    exact ⟨⟨body, hbody, hprice⟩, hmem⟩

/-- **A modification that is changed has the price that was sent**, and a request that fails has changed nothing. -/
theorem patchModification_saves {k : String} {r : MenuRequest MenuHandlers.PatchModificationRequest}
    (hrun : (h.patchModification k r).run ω w = (res, w')) :
    (∀ m, res = .ok m → (∃ body, r.body = .ok body ∧ ∀ price ∈ body.priceDeltaCents, m.priceDeltaCents = price) ∧
      m ∈ w'.db.menuItemModifications) ∧ ((¬ ∃ m, res = .ok m) → w' = w) := by
  refine run_read_then_write (A := fun accepted => ∃ body, r.body = .ok body ∧
    accepted.2.2.priceDeltaCents = body.priceDeltaCents) (acceptModificationPatch_reads k r) ?_
    (fun ⟨actor, id, change⟩ => ?_) (fun ⟨actor, id, change⟩ m w' hA hstored => ?_) hrun
  · refine .bind (.trivially _) fun _ _ => .bind (.trivially _) fun _ _ => .bind (.trivially _) fun _ _ => ?_
    refine .bind (.trivially _) fun _ _ => .bind (.ofExcept fun body hbody => hbody) fun body hbody => ?_
    exact .bind (.trivially _) fun _ _ => returns_done.mpr ⟨body, hbody, rfl⟩
  · refine Quiet.mapError ?_ _
    unfold updateModificationRow
    split_ifs
    · exact (Reads.readOnly (L := fun _ => True) ((queryRow_reads trivial).mapError _)).quiet
    · exact write_quiet.mapError _
  · obtain ⟨body, hbody, hprice⟩ := hA
    have hrow := run_mapError_eq_ok hstored
    unfold updateModificationRow at hrow
    split_ifs at hrow with hempty
    · -- without a field the row is only read
      have hread := run_mapError_eq_ok hrow
      rw [queryRow, run_read] at hread
      obtain ⟨hfound, rfl⟩ := Prod.mk.inj hread
      have hliving := (Option.filter_eq_some_iff.mp (Outcome.row_eq_ok hfound)).1
      refine ⟨⟨body, hbody, fun price hsent => ?_⟩, List.mem_of_find?_eq_some hliving⟩
      rw [← hprice] at hsent
      dsimp only at hsent
      rw [hempty] at hsent
      cases hsent
    · obtain ⟨db, hupdate, rfl⟩ := run_returning_eq_ok (run_mapError_eq_ok hrow)
      obtain ⟨⟨old, rfl⟩, hmem⟩ := updateModification_mem hupdate
      refine ⟨⟨body, hbody, fun price hsent => ?_⟩, hmem⟩
      rw [← hprice] at hsent
      rw [ModificationUpdate.apply, Option.mem_def.mp hsent, Option.getD_some]

end Stored

end Doenerstag
