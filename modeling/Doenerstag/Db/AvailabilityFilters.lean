import Doenerstag.Db.Orders

/-!
# One availability filter (`internal/db/availability.go`)

`AvailabilityFilterByID`, `UpdateAvailabilityFilter` and `CreateAvailabilityFilter`, with the columns of the
table: a `date`, a `time` of whole minutes, an `integer`. The update sets the columns it was given; then the
row is read back.
-/

namespace Doenerstag

open ReadCommitted

/-! ## The columns -/

@[simps] def Db.setAvailabilityFilters (db : Db) (rows : List AvailabilityFilterRow) : Db :=
  { db with availabilityFilters := rows }

/-- `CHECK` constraints of `availability_filter`. -/
def AvailabilityFilterRow.Check (f : AvailabilityFilterRow) : Prop :=
  (1 ≤ f.name.length ∧ f.name.length ≤ 200) ∧ (∀ day ∈ f.weekdays, 1 ≤ day ∧ day ≤ 7) ∧
    f.startTime.isSome = f.endTime.isSome ∧ (f.startTime = none ∨ f.startTime ≠ f.endTime) ∧
    (f.onDate.isSome = true ∨ f.weekdays ≠ [] ∨ f.startTime.isSome = true)

instance (f : AvailabilityFilterRow) : Decidable f.Check := inferInstanceAs (Decidable (_ ∧ _))

/-- What fits an `integer` column. -/
def fitsInteger (n : Int64) : Bool := -2147483648 ≤ n && n ≤ 2147483647

/-- `$n::time`, of a text on the 24-hour clock. -/
def timeOfDay (value : String) : Option Int :=
  match value.toList with
  | [h₁, h₂, ':', m₁, m₂] => do
    let hour ← parseDigits 10 [h₁, h₂]
    let minute ← parseDigits 10 [m₁, m₂]
    if minute < 60 ∧ hour * 60 + minute ≤ 1440 then some (hour * 60 + minute) else none
  | _ => none

/-- What the column holds of a value that may be `NULL`. -/
def timeColumn (value : Option String) : Except PgError (Option Int) :=
  match value with
  | none => .ok none
  | some v =>
    match timeOfDay v with
    | none => .error .invalidDatetime
    | some minutes => .ok (some minutes)

/-- A `time` is between 00:00 and 24:00. -/
structure AvailabilityFilterRow.TimesOfDay (f : AvailabilityFilterRow) : Prop where
  start : ∀ m ∈ f.startTime, 0 ≤ m ∧ m ≤ 1440
  stop : ∀ m ∈ f.endTime, 0 ≤ m ∧ m ≤ 1440

theorem timeOfDay_bounds {value : String} {m : Int} (h : timeOfDay value = some m) :
    0 ≤ m ∧ m ≤ 1440 := by
  unfold timeOfDay at h
  split at h
  · simp only [Option.bind_eq_bind, Option.bind_eq_some_iff] at h
    obtain ⟨hour, -, minute, -, hif⟩ := h
    split_ifs at hif with hbound
    cases hif
    omega
  · cases h

theorem timeColumn_bounds {value : Option String} {column : Option Int}
    (h : timeColumn value = .ok column) : ∀ m ∈ column, 0 ≤ m ∧ m ≤ 1440 := by
  intro m hm
  unfold timeColumn at h
  cases value with
  | none =>
    cases h
    cases hm
  | some v =>
    cases hv : timeOfDay v with
    | none => simp [hv] at h
    | some minutes =>
      simp only [hv, Except.ok.injEq] at h
      subst h
      cases hm
      exact timeOfDay_bounds hv

/-! ## Reading and changing -/

def Db.availabilityFilter (db : Db) (id : UUID) : Option AvailabilityFilterRow :=
  db.availabilityFilters.find? fun f => f.id == id

/-- `AvailabilityFilterByID` -/
def availabilityFilterByID {ℓ : Type} (l : ℓ) (id : UUID) : DbProgram ℓ AvailabilityFilter :=
  (queryRow l fun db => (db.availabilityFilter id).map Db.scanAvailabilityFilter).mapError scanError

/-- The fields PATCH may change. One that is present replaces; for the nullable ones `none` clears. -/
structure AvailabilityFilterUpdate where
  name : Option String
  onDate : Option (Option (Int × Int × Int))
  weekdays : Option (List Int)
  startTime : Option (Option String)
  endTime : Option (Option String)
  sortOrder : Option Int64
  deriving DecidableEq, Repr

def AvailabilityFilterUpdate.empty : AvailabilityFilterUpdate :=
  { name := none, onDate := none, weekdays := none, startTime := none, endTime := none
    sortOrder := none }

namespace AvailabilityFilterUpdate

variable (change : AvailabilityFilterUpdate)

/-- A time that is set, or the one that is there. -/
def timeSet (field : Option (Option String)) (old : Option Int) : Except PgError (Option Int) :=
  match field with
  | none => .ok old
  | some value => timeColumn value

/-- The row that `SET …` makes of one. -/
def apply (f : AvailabilityFilterRow) : Except PgError AvailabilityFilterRow := do
  if !change.sortOrder.all fitsInteger then
    throw .outOfRange
  let startTime ← timeSet change.startTime f.startTime
  let endTime ← timeSet change.endTime f.endTime
  pure { f with
    name := change.name.getD f.name
    onDate := change.onDate.getD f.onDate
    weekdays := change.weekdays.getD f.weekdays
    startTime, endTime
    sortOrder := change.sortOrder.getD f.sortOrder }

/-- What the new row comes from. -/
theorem apply_eq_ok {f new : AvailabilityFilterRow} (h : change.apply f = .ok new) :
    timeSet change.startTime f.startTime = .ok new.startTime ∧
      timeSet change.endTime f.endTime = .ok new.endTime ∧
      new = { f with
        name := change.name.getD f.name
        onDate := change.onDate.getD f.onDate
        weekdays := change.weekdays.getD f.weekdays
        startTime := new.startTime, endTime := new.endTime
        sortOrder := change.sortOrder.getD f.sortOrder } := by
  unfold apply at h
  split_ifs at h
  · cases h
  cases hstart : timeSet change.startTime f.startTime with
  | error x => simp [hstart, bind, Except.bind] at h
  | ok startTime =>
    cases hstop : timeSet change.endTime f.endTime with
    | error x => simp [hstart, hstop, bind, Except.bind] at h
    | ok endTime =>
      simp only [hstart, hstop, bind, Except.bind, pure, Except.pure, Except.ok.injEq] at h
      subst h
      exact ⟨rfl, rfl, rfl⟩

theorem timeSet_bounds {field : Option (Option String)} {old new : Option Int}
    (hold : ∀ m ∈ old, 0 ≤ m ∧ m ≤ 1440) (h : timeSet field old = .ok new) :
    ∀ m ∈ new, 0 ≤ m ∧ m ≤ 1440 := by
  cases field with
  | none =>
    cases h
    exact hold
  | some value => exact timeColumn_bounds h

end AvailabilityFilterUpdate

/-- `UPDATE availability_filter SET … WHERE id = …` -/
def Db.updateAvailabilityFilter (id actor : UUID) (change : AvailabilityFilterUpdate) (db : Db) :
    Except PgError (Db × Nat) :=
  match db.availabilityFilter id with
  | none => .ok (db, 0)
  | some f =>
    match change.apply f with
    | .error e => .error e
    | .ok new =>
      if ¬ new.Check then .error .checkViolation
      else if (db.userByID actor).isNone then .error .foreignKeyViolation
      else .ok (db.setAvailabilityFilters
        (db.availabilityFilters.map fun p => if p.id == id then new else p), 1)

/-- What an update leaves: the rows, one of them changed. -/
theorem Db.updateAvailabilityFilter_eq_ok {db : Db} {id actor : UUID}
    {change : AvailabilityFilterUpdate} {f : AvailabilityFilterRow} {r : Db × Nat}
    (hf : db.availabilityFilter id = some f)
    (h : db.updateAvailabilityFilter id actor change = .ok r) :
    ∃ new, change.apply f = .ok new ∧ new.Check ∧ r.1.availabilityFilter id = some new := by
  unfold Db.updateAvailabilityFilter at h
  simp only [hf] at h
  cases hnew : change.apply f with
  | error x => simp [hnew] at h
  | ok new =>
    simp only [hnew] at h
    split_ifs at h with hcheck hactor
    cases h
    have hid : f.id = id := by
      have hselected := List.find?_some hf
      exact beq_iff_eq.mp hselected
    have hnewID : new.id = id := by
      rw [(change.apply_eq_ok hnew).2.2]
      exact hid
    have hkeeps : (fun p : AvailabilityFilterRow => p.id == id) ∘
        (fun p => if p.id == id then new else p) = fun p => p.id == id := by
      funext p
      show ((if p.id == id then new else p).id == id) = (p.id == id)
      split_ifs with hp
      · rw [hp, hnewID, beq_self_eq_true]
      · rfl
    refine ⟨new, rfl, hcheck, ?_⟩
    show (db.availabilityFilters.map _).find? _ = _
    rw [List.find?_map, hkeeps]
    show (db.availabilityFilter id).map _ = _
    rw [hf, Option.map_some, if_pos (beq_iff_eq.mpr hid)]

inductive UpdateAvailabilityStmt where
  | update
  | readBack
  | read
  deriving DecidableEq, Repr

/-- `UpdateAvailabilityFilter` -/
def updateAvailabilityFilter (id actor : UUID) (change : AvailabilityFilterUpdate) :
    DbProgram UpdateAvailabilityStmt AvailabilityFilter :=
  if change = .empty then
    availabilityFilterByID .read id
  else do
    let rows ← (exec .update fun _ => Db.updateAvailabilityFilter id actor change).mapError otherError
    Prog.require (rows != 0) .notFound
    availabilityFilterByID .readBack id

/-! ## Creating -/

/-- What creating one supplies. -/
structure NewAvailabilityFilter where
  restaurantID : UUID
  name : String
  onDate : Option (Int × Int × Int)
  weekdays : List Int
  startTime : Option String
  endTime : Option String
  sortOrder : Int64
  deriving DecidableEq, Repr

/-- The row that `VALUES …` makes. -/
def NewAvailabilityFilter.row (new : NewAvailabilityFilter) (id : UUID) :
    Except PgError AvailabilityFilterRow := do
  if !fitsInteger new.sortOrder then
    throw .outOfRange
  let startTime ← timeColumn new.startTime
  let endTime ← timeColumn new.endTime
  pure { id, restaurantID := new.restaurantID, name := new.name, onDate := new.onDate
         weekdays := new.weekdays, startTime, endTime, sortOrder := new.sortOrder }

/-- `INSERT INTO availability_filter …` -/
def Db.insertAvailabilityFilter (id actor : UUID) (new : NewAvailabilityFilter) (db : Db) :
    Except PgError (Db × Nat) :=
  match new.row id with
  | .error e => .error e
  | .ok row =>
    if ¬ row.Check then .error .checkViolation
    else if (db.availabilityFilter id).isSome then .error .uniqueViolation
    else if !(db.restaurants.any fun r => r.id == new.restaurantID) || (db.userByID actor).isNone then
      .error .foreignKeyViolation
    else .ok (db.setAvailabilityFilters (db.availabilityFilters ++ [row]), 1)

inductive CreateAvailabilityStmt where
  | insert
  | readBack
  deriving DecidableEq, Repr

/-- `CreateAvailabilityFilter`; the id is a new one. -/
def createAvailabilityFilter (id actor : UUID) (new : NewAvailabilityFilter) :
    DbProgram CreateAvailabilityStmt AvailabilityFilter := do
  let _ ← (exec .insert fun _ => Db.insertAvailabilityFilter id actor new).mapError otherError
  availabilityFilterByID .readBack id

end Doenerstag
