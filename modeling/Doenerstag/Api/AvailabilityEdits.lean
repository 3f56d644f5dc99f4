import Doenerstag.Api.Availability
import Doenerstag.Db.AvailabilityFilters

/-!
# Editing an availability filter (`internal/api/availability.go`)

A PATCH reads the filter, puts the fields of its body over it, judges the result as a whole and
writes every column back. "Only fields present in the body are changed" (`docs/04_api.md`), as long
as nobody changes the filter between the read and the write.

* `validateAvailability` — the merge, and the rules of the schema.
* `patchAvailability` — the handler.
* `edits_run` — **PATCHes that mention different fields of a filter all have their way**, when none
  writes between another's read and its write; what nobody mentions stays as it was.
* `edits_lost` — a run in which one does.
-/

namespace Doenerstag

open ReadCommitted Prog

/-! ## Validation -/

/-- The body of a PATCH, and of a POST. A nullable field may be present and `none`. -/
structure AvailabilityRequest where
  name : Option String
  onDate : Option (Option String)
  weekdays : Option (List Int)
  startTime : Option (Option String)
  endTime : Option (Option String)
  sortOrder : Option Int64
  deriving DecidableEq, Repr

structure ValidatedAvailability where
  name : String
  onDate : Option (Int × Int × Int)
  weekdays : List Int
  startTime : Option String
  endTime : Option String
  sortOrder : Int64
  deriving DecidableEq, Repr

/-- The number of days of a month. -/
def daysIn (month year : Nat) : Nat :=
  if month = 2 then (if year % 4 = 0 ∧ (year % 100 ≠ 0 ∨ year % 400 = 0) then 29 else 28)
  else if month = 4 ∨ month = 6 ∨ month = 9 ∨ month = 11 then 30
  else 31

/-- `time.Parse(time.DateOnly, _)` -/
def parseDateOnly (value : String) : Option (Int × Int × Int) :=
  match value.toList with
  | [y₁, y₂, y₃, y₄, '-', m₁, m₂, '-', d₁, d₂] => do
    let year ← parseDigits 10 [y₁, y₂, y₃, y₄]
    let month ← parseDigits 10 [m₁, m₂]
    let day ← parseDigits 10 [d₁, d₂]
    if 1 ≤ month ∧ month ≤ 12 ∧ 1 ≤ day ∧ day ≤ daysIn month year then some (year, month, day)
    else none
  | _ => none

def validateOnDate (value : Option String) : Except ApiError (Option (Int × Int × Int)) :=
  match value with
  | none => .ok none
  | some v =>
    if v = "" then .ok none
    else match parseDateOnly v with
      | some day => .ok (some day)
      | none => .error { code := codeInvalidField, field := "on_date"
                         detail := "expected a date as YYYY-MM-DD" }

/-- The days once each, in order. -/
def validateWeekdays (days : List Int) : Except ApiError (List Int) :=
  if days.any fun day => day < 1 || 7 < day then
    .error { code := codeInvalidField, field := "weekdays"
             detail := "days are 1 (Monday) to 7 (Sunday)" }
  else .ok (sliceStable (fun a b => a < b) days.eraseDups)

/-- `^([01]\d|2[0-3]):[0-5]\d$` -/
def clockTime (value : String) : Bool :=
  match value.toList with
  | [h₁, h₂, ':', m₁, m₂] =>
    ((h₁ == '0' || h₁ == '1') && h₂.isDigit || h₁ == '2' && '0' ≤ h₂ && h₂ ≤ '3') &&
      ('0' ≤ m₁ && m₁ ≤ '5') && m₂.isDigit
  | _ => false

def validateClock (value : Option String) (field : String) : Except ApiError (Option String) :=
  match value with
  | none => .ok none
  | some v =>
    if v = "" then .ok none
    else if clockTime v then .ok (some v)
    else .error { code := codeInvalidField, field := field
                  detail := "expected a time as HH:MM on a 24-hour clock" }

/-- A field of the body, or what there is. -/
def patched {α β : Type} (field : Option α) (current : β) (check : α → Except ApiError β) :
    Except ApiError β :=
  match field with
  | none => .ok current
  | some v => check v

/-- The rules of the schema that are about more than one field. -/
def ValidatedAvailability.judge (out : ValidatedAvailability) : Except ApiError Unit :=
  if out.startTime.isNone != out.endTime.isNone then
    .error { code := codeInvalidField, field := "start_time"
             detail := "a time window needs both a start and an end, or neither" }
  else if out.startTime.isSome && out.startTime == out.endTime then
    .error { code := codeInvalidField, field := "end_time"
             detail := "a window that starts and ends at the same time is empty" }
  else if out.onDate.isNone && out.weekdays.isEmpty && out.startTime.isNone then
    .error { code := codeInvalidField, field := "weekdays"
             detail := "a filter must restrict something: a date, some weekdays or a time" }
  else .ok ()

def validateAvailability (body : AvailabilityRequest) (current : ValidatedAvailability) :
    Except ApiError ValidatedAvailability := do
  let name ← patched body.name current.name fun v => do
    validateMenuName (trimSpace v)
    pure (trimSpace v)
  let onDate ← patched body.onDate current.onDate validateOnDate
  let weekdays ← patched body.weekdays current.weekdays validateWeekdays
  let startTime ← patched body.startTime current.startTime fun v => validateClock v "start_time"
  let endTime ← patched body.endTime current.endTime fun v => validateClock v "end_time"
  let out : ValidatedAvailability :=
    { name, onDate, weekdays, startTime, endTime
      sortOrder := body.sortOrder.getD current.sortOrder }
  out.judge
  pure out

/-! ## The handler -/

/-- The filter as it stands, its times written down. -/
def AvailabilityFilter.current (f : AvailabilityFilter) : ValidatedAvailability :=
  { name := f.name
    onDate := f.onDate
    weekdays := f.weekdays
    startTime := f.startTime.map clockString
    endTime := f.endTime.map clockString
    sortOrder := f.sortOrder }

/-- Every column is set. -/
def ValidatedAvailability.update (accepted : ValidatedAvailability) : AvailabilityFilterUpdate :=
  { name := some accepted.name
    onDate := some accepted.onDate
    weekdays := some accepted.weekdays
    startTime := some accepted.startTime
    endTime := some accepted.endTime
    sortOrder := some accepted.sortOrder }

inductive PatchAvailabilityStmt where
  /-- `restaurantID` -/
  | restaurant (s : MenuStmt)
  /-- `AvailabilityFilterByID`, in `lookupFilter` -/
  | filter
  | update (s : UpdateAvailabilityStmt)
  deriving DecidableEq, Repr

namespace MenuHandlers

variable (h : MenuHandlers)

def lookupFilter (fid : String) (r : MenuRequest AvailabilityRequest) :
    Handler PatchAvailabilityStmt AvailabilityFilter := do
  let restaurantID ← (h.restaurantID r).within .restaurant
  let filter ← loadParam h.rt fid (availabilityFilterByID .filter)
  Prog.require (filter.restaurantID == restaurantID) (.of codeNotFound)
  pure filter

/-- `patchAvailability`; the path names the filter. -/
def patchAvailability (fid : String) (r : MenuRequest AvailabilityRequest) :
    Handler PatchAvailabilityStmt AvailabilityBody := do
  let filter ← h.lookupFilter fid r
  let principal ← .ofExcept (requireAuthenticated r.principal)
  let body ← .ofExcept r.body
  let accepted ← .ofExcept (validateAvailability body filter.current)
  let updated ← ((updateAvailabilityFilter filter.id principal.userID accepted.update).within
    .update).mapError dbError
  pure (publicAvailability updated)

end MenuHandlers

/-! ## Times that are written back -/

theorem parseDigits_two : ∀ n < 60,
    parseDigits 10 [Nat.digitChar (n / 10), Nat.digitChar (n % 10)] = some n := by
  decide +kernel

/-- The digits of the hour and of the minute -/
theorem clockString_digits {n : Nat} (hn : n ≤ 1440) : (clockString n).toList =
    [(n / 60 / 10).digitChar, (n / 60 % 10).digitChar, ':', (n % 60 / 10).digitChar, (n % 60 % 10).digitChar] := by
  have hdiv : ((n : Int) / 60) = ((n / 60 : Nat) : Int) := by omega
  have hmod : ((n : Int) % 60) = ((n % 60 : Nat) : Int) := by omega
  unfold clockString
  rw [hdiv, hmod, String.toList_append, String.toList_append, padded_two (by omega),
    padded_two (by omega)]
  rfl

/-- A time of day that is written down is read back. -/
theorem timeOfDay_clockString {m : Int} (hm : 0 ≤ m ∧ m ≤ 1440) :
    timeOfDay (clockString m) = some m := by
  obtain ⟨n, rfl⟩ := Int.eq_ofNat_of_zero_le hm.1
  have hn : n ≤ 1440 := by omega
  have hhour : n / 60 < 60 := by omega
  have hminute : n % 60 < 60 := Nat.mod_lt n (by decide)
  unfold timeOfDay
  rw [clockString_digits hn]
  simp only [parseDigits_two _ hhour, parseDigits_two _ hminute]
  have hwhole : n / 60 * 60 + n % 60 = n := Nat.div_add_mod' n 60
  show (if n % 60 < 60 ∧ n / 60 * 60 + n % 60 ≤ 1440 then _ else _) = _
  rw [if_pos ⟨hminute, by omega⟩]
  simp only [Option.some.injEq]
  omega

/-- A column that is written back as it was read stays as it is. -/
theorem timeColumn_clockString {column : Option Int} (h : ∀ m ∈ column, 0 ≤ m ∧ m ≤ 1440) :
    timeColumn (column.map clockString) = .ok column := by
  cases column with
  | none => rfl
  | some m =>
    unfold timeColumn
    simp only [Option.map_some, timeOfDay_clockString (h m rfl)]

/-! ## What a PATCH makes of a row -/

/-- The columns that a PATCH may mention. -/
inductive AvailabilityField where
  | name
  | onDate
  | weekdays
  | startTime
  | endTime
  | sortOrder
  deriving DecidableEq, Repr

/-- The body has the field. -/
def AvailabilityRequest.mentions (body : AvailabilityRequest) : AvailabilityField → Bool
  | .name => body.name.isSome
  | .onDate => body.onDate.isSome
  | .weekdays => body.weekdays.isSome
  | .startTime => body.startTime.isSome
  | .endTime => body.endTime.isSome
  | .sortOrder => body.sortOrder.isSome

/-- The row has the value that the body gives for the field. -/
def AvailabilityRequest.Gives (body : AvailabilityRequest) (f : AvailabilityFilterRow) :
    AvailabilityField → Prop
  | .name => ∃ v, body.name = some v ∧ f.name = trimSpace v
  | .onDate => ∃ v, body.onDate = some v ∧ validateOnDate v = .ok f.onDate
  | .weekdays => ∃ v, body.weekdays = some v ∧ validateWeekdays v = .ok f.weekdays
  | .startTime => ∃ v clock, body.startTime = some v ∧ validateClock v "start_time" = .ok clock ∧
      timeColumn clock = .ok f.startTime
  | .endTime => ∃ v clock, body.endTime = some v ∧ validateClock v "end_time" = .ok clock ∧
      timeColumn clock = .ok f.endTime
  | .sortOrder => body.sortOrder = some f.sortOrder

/-- Two rows have the same value in the field. -/
def AvailabilityFilterRow.Agrees (f g : AvailabilityFilterRow) : AvailabilityField → Prop
  | .name => f.name = g.name
  | .onDate => f.onDate = g.onDate
  | .weekdays => f.weekdays = g.weekdays
  | .startTime => f.startTime = g.startTime
  | .endTime => f.endTime = g.endTime
  | .sortOrder => f.sortOrder = g.sortOrder

theorem AvailabilityFilterRow.Agrees.trans {f g k : AvailabilityFilterRow} {field : AvailabilityField}
    (h₁ : f.Agrees g field) (h₂ : g.Agrees k field) : f.Agrees k field := by
  cases field <;> exact Eq.trans h₁ h₂

theorem AvailabilityFilterRow.Agrees.refl (f : AvailabilityFilterRow) (field : AvailabilityField) :
    f.Agrees f field := by
  cases field <;> rfl

theorem AvailabilityRequest.Gives.of_agrees {body : AvailabilityRequest} {f g : AvailabilityFilterRow}
    {field : AvailabilityField} (h : body.Gives f field) (hsame : g.Agrees f field) :
    body.Gives g field := by
  cases field <;> simp only [Gives, AvailabilityFilterRow.Agrees] at h hsame ⊢ <;> rwa [hsame]

/-- Each part of what was accepted comes from its field. -/
theorem validateAvailability_eq_ok {body : AvailabilityRequest}
    {current accepted : ValidatedAvailability} (h : validateAvailability body current = .ok accepted) :
    (patched body.name current.name fun v => do
      validateMenuName (trimSpace v)
      pure (trimSpace v)) = .ok accepted.name ∧
    patched body.onDate current.onDate validateOnDate = .ok accepted.onDate ∧
    patched body.weekdays current.weekdays validateWeekdays = .ok accepted.weekdays ∧
    patched body.startTime current.startTime (validateClock · "start_time") =
      .ok accepted.startTime ∧
    patched body.endTime current.endTime (validateClock · "end_time") = .ok accepted.endTime ∧
    accepted.sortOrder = body.sortOrder.getD current.sortOrder := by
  unfold validateAvailability at h
  obtain ⟨name, hname, h⟩ := exceptBind_eq_ok h
  obtain ⟨onDate, honDate, h⟩ := exceptBind_eq_ok h
  obtain ⟨weekdays, hweekdays, h⟩ := exceptBind_eq_ok h
  obtain ⟨startTime, hstart, h⟩ := exceptBind_eq_ok h
  obtain ⟨endTime, hstop, h⟩ := exceptBind_eq_ok h
  obtain ⟨_, -, h⟩ := exceptBind_eq_ok h
  cases h
  exact ⟨hname, honDate, hweekdays, hstart, hstop, rfl⟩

/-- **One PATCH of a row.** What the body mentions has the value it gives, and the rest stays. -/
theorem patched_row {body : AvailabilityRequest} {f new : AvailabilityFilterRow}
    {accepted : ValidatedAvailability} (htimes : f.TimesOfDay)
    (haccepted : validateAvailability body (Db.scanAvailabilityFilter f).current = .ok accepted)
    (hnew : accepted.update.apply f = .ok new) (field : AvailabilityField) :
    if body.mentions field then body.Gives new field else new.Agrees f field := by
  obtain ⟨hname, honDate, hweekdays, hstart, hstop, hsort⟩ := validateAvailability_eq_ok haccepted
  obtain ⟨hstart', hstop', hrow⟩ := accepted.update.apply_eq_ok hnew
  have hcolumns : new.name = accepted.name ∧ new.onDate = accepted.onDate ∧
      new.weekdays = accepted.weekdays ∧ new.sortOrder = accepted.sortOrder := by
    rw [hrow]
    exact ⟨rfl, rfl, rfl, rfl⟩
  cases field with
  | name =>
    show if body.name.isSome then ∃ v, body.name = some v ∧ _ else _
    cases hbody : body.name with
    | none =>
      rw [hbody] at hname
      exact hcolumns.1.trans (Except.ok.inj hname).symm
    | some v =>
      rw [hbody] at hname
      obtain ⟨_, -, hv⟩ := exceptBind_eq_ok hname
      exact ⟨v, rfl, hcolumns.1.trans (Except.ok.inj hv).symm⟩
  | onDate =>
    show if body.onDate.isSome then ∃ v, body.onDate = some v ∧ _ else _
    cases hbody : body.onDate with
    | none =>
      rw [hbody] at honDate
      exact hcolumns.2.1.trans (Except.ok.inj honDate).symm
    | some v =>
      rw [hbody] at honDate
      exact ⟨v, rfl, hcolumns.2.1 ▸ honDate⟩
  | weekdays =>
    show if body.weekdays.isSome then ∃ v, body.weekdays = some v ∧ _ else _
    cases hbody : body.weekdays with
    | none =>
      rw [hbody] at hweekdays
      exact hcolumns.2.2.1.trans (Except.ok.inj hweekdays).symm
    | some v =>
      rw [hbody] at hweekdays
      exact ⟨v, rfl, hcolumns.2.2.1 ▸ hweekdays⟩
  | startTime =>
    show if body.startTime.isSome then ∃ v clock, body.startTime = some v ∧ _ else _
    cases hbody : body.startTime with
    | none =>
      -- the time that was read is written back
      rw [hbody] at hstart
      have hread : timeColumn (f.startTime.map clockString) = .ok new.startTime :=
        (congrArg timeColumn (Except.ok.inj hstart)).trans hstart'
      exact (Except.ok.inj ((timeColumn_clockString htimes.start).symm.trans hread)).symm
    | some v =>
      rw [hbody] at hstart
      exact ⟨v, accepted.startTime, rfl, hstart, hstart'⟩
  | endTime =>
    show if body.endTime.isSome then ∃ v clock, body.endTime = some v ∧ _ else _
    cases hbody : body.endTime with
    | none =>
      rw [hbody] at hstop
      have hread : timeColumn (f.endTime.map clockString) = .ok new.endTime :=
        (congrArg timeColumn (Except.ok.inj hstop)).trans hstop'
      exact (Except.ok.inj ((timeColumn_clockString htimes.stop).symm.trans hread)).symm
    | some v =>
      rw [hbody] at hstop
      exact ⟨v, accepted.endTime, rfl, hstop, hstop'⟩
  | sortOrder =>
    show if body.sortOrder.isSome then body.sortOrder = some new.sortOrder else _
    cases hbody : body.sortOrder with
    | none =>
      rw [hbody] at hsort
      exact hcolumns.2.2.2.trans hsort
    | some v =>
      rw [hbody] at hsort
      exact congrArg some (hcolumns.2.2.2.trans hsort).symm

theorem patched_times {f new : AvailabilityFilterRow} {accepted : ValidatedAvailability}
    (htimes : f.TimesOfDay) (hnew : accepted.update.apply f = .ok new) : new.TimesOfDay := by
  obtain ⟨hstart, hstop, -⟩ := accepted.update.apply_eq_ok hnew
  exact ⟨AvailabilityFilterUpdate.timeSet_bounds htimes.start hstart,
    AvailabilityFilterUpdate.timeSet_bounds htimes.stop hstop⟩

/-! ## The PATCHes of one filter -/

/-- A PATCH, with the filter its path names. -/
structure AvailabilityPatch where
  fid : String
  request : MenuRequest AvailabilityRequest

namespace AvailabilityPatch

def serve (h : MenuHandlers) (p : AvailabilityPatch) : Handler PatchAvailabilityStmt AvailabilityBody :=
  h.patchAvailability p.fid p.request

/-- The body, if there is one, mentions the field. -/
def Mentions (p : AvailabilityPatch) (field : AvailabilityField) : Prop :=
  ∃ body, p.request.body = .ok body ∧ body.mentions field = true

/-- The row has the value that the body gives. -/
def Gives (p : AvailabilityPatch) (f : AvailabilityFilterRow) (field : AvailabilityField) : Prop :=
  ∃ body, p.request.body = .ok body ∧ body.Gives f field

end AvailabilityPatch

/-- Nobody changes the filter. -/
def SameFilter (id : UUID) (w w' : World Db Time) : Prop :=
  w'.db.availabilityFilter id = w.db.availabilityFilter id

/-- What a PATCH relies on while it waits. -/
def PatchAvailabilityStmt.Rely (id : UUID) : PatchAvailabilityStmt → World Db Time → World Db Time → Prop
  -- after the filter was read
  | .update .update => SameFilter id
  | _ => fun _ _ => True

section Edits

variable {ι : Type} (h : MenuHandlers) (patches : ι → AvailabilityPatch) (id : UUID)
  (start : AvailabilityFilterRow)

/-- The filter is stored, as the schema wants it, and what nobody mentions is as at the start. -/
structure Edited (w : World Db Time) : Prop where
  stored : ∃ f, w.db.availabilityFilter id = some f
  times : ∀ f, w.db.availabilityFilter id = some f → f.TimesOfDay
  check : ∀ f, w.db.availabilityFilter id = some f → f.Check
  rest : ∀ f, w.db.availabilityFilter id = some f → ∀ field,
    (∀ i, ¬ (patches i).Mentions field) → f.Agrees start field

/-- The filter has the same values in those fields as before. -/
def Keeps (fields : AvailabilityField → Prop) (w w' : World Db Time) : Prop :=
  ∀ f', w'.db.availabilityFilter id = some f' → ∃ f, w.db.availabilityFilter id = some f ∧
    ∀ field, fields field → f'.Agrees f field

/-- What the others leave alone while a PATCH waits. -/
def Waits (i : ι) (l : PatchAvailabilityStmt) (w w' : World Db Time) : Prop :=
  l.Rely id w w' ∧ Keeps id (patches i).Mentions w w'

/-- A step of a PATCH leaves alone what its body does not mention. -/
def Writes (i : ι) (_ : PatchAvailabilityStmt) (w w' : World Db Time) : Prop :=
  Keeps id (fun field => ¬ (patches i).Mentions field) w w'

/-- What an answered PATCH gave is there. -/
def Given (i : ι) (w : World Db Time) : Prop :=
  ∀ f, w.db.availabilityFilter id = some f → ∀ field, (patches i).Mentions field →
    (patches i).Gives f field

variable {patches id start}

theorem Keeps.of_same {fields : AvailabilityField → Prop} {w w' : World Db Time}
    (hsame : SameFilter id w w') : Keeps id fields w w' :=
  fun f' hf' => ⟨f', hsame.symm.trans hf', fun field _ => .refl f' field⟩

theorem Keeps.refl {fields : AvailabilityField → Prop} (w : World Db Time) : Keeps id fields w w :=
  .of_same rfl

theorem Given.keeps {i : ι} {w w' : World Db Time} (hkeeps : Keeps id (patches i).Mentions w w')
    (hgiven : Given patches id i w) : Given patches id i w' := by
  intro f' hf' field hmentions
  obtain ⟨f, hf, hsame⟩ := hkeeps f' hf'
  obtain ⟨body, hbody, hgives⟩ := hgiven f hf field hmentions
  exact ⟨body, hbody, hgives.of_agrees (hsame field hmentions)⟩

theorem Edited.of_same {w w' : World Db Time} (hI : Edited patches id start w)
    (hsame : SameFilter id w w') : Edited patches id start w' := by
  rw [SameFilter] at hsame
  constructor
  case stored => exact hsame.symm ▸ hI.stored
  case times => exact fun f hf => hI.times f (hsame ▸ hf)
  case check => exact fun f hf => hI.check f (hsame ▸ hf)
  case rest => exact fun f hf => hI.rest f (hsame ▸ hf)

/-- A step that reads leaves everything alone. -/
theorem holds_patchReading {ℓ χ α : Type} {R : ℓ → World Db Time → World Db Time → Prop}
    {fields : AvailabilityField → Prop} {L : ℓ → Prop} {p : Program ℓ Db Time χ α} (hp : p.Reads L)
    (w : World Db Time) :
    p.Holds (Edited patches id start) R (fun _ => Keeps id fields) (Ends fun _ _ => True) w :=
  (hp.holds (fun _ _ _ _ => Keeps.refl _) w).mono fun _ _ _ _ _ => trivial

/-- The row that a PATCH has read is there until it writes. -/
theorem holds_lookupFilter {i : ι} (hnamed : h.rt.parseUUID (patches i).fid = some id)
    (w : World Db Time) :
    (h.lookupFilter (patches i).fid (patches i).request).Holds (Edited patches id start)
      (Waits patches id i) (Writes patches id i)
      (Ends fun filter w => ∃ f, w.db.availabilityFilter id = some f ∧
        filter = Db.scanAvailabilityFilter f) w := by
  refine holds_seq (holds_patchReading (L := fun _ => True) (h.restaurantID_reads _).within w)
    fun restaurantID w _ => ?_
  refine holds_seq (M := fun filter w => ∃ f, w.db.availabilityFilter id = some f ∧
    filter = Db.scanAvailabilityFilter f) ?_ fun filter w hfilter =>
      holds_seq (M := fun _ w => ∃ f, w.db.availabilityFilter id = some f ∧
        filter = Db.scanAvailabilityFilter f) (ends_require fun _ => hfilter)
        fun _ w hfilter => ends_done hfilter
  unfold loadParam
  rw [hnamed]
  refine ends_mapError (ends_mapError (holds_read fun w' _ hI => ⟨Keeps.refl w', fun e row hrow => ?_⟩))
  obtain ⟨f, hf, hscan⟩ := Option.map_eq_some_iff.mp (Outcome.row_eq_ok hrow)
  exact ⟨f, hf, hscan.symm⟩

/-- The update of a PATCH, on the row that it has read. -/
theorem Edited.update {i : ι} {actor : UUID} {body : AvailabilityRequest}
    {accepted : ValidatedAvailability} {f : AvailabilityFilterRow} {w : World Db Time} {r : Db × Nat}
    (hI : Edited patches id start w) (hbody : (patches i).request.body = .ok body)
    (hf : w.db.availabilityFilter id = some f)
    (haccepted : validateAvailability body (Db.scanAvailabilityFilter f).current = .ok accepted)
    (hu : w.db.updateAvailabilityFilter id actor accepted.update = .ok r) :
    Edited patches id start { w with db := r.1 } ∧ Writes patches id i (.update .update) w { w with db := r.1 } ∧
      Given patches id i { w with db := r.1 } := by
  obtain ⟨new, hnew, hcheck, hfound⟩ := Db.updateAvailabilityFilter_eq_ok hf hu
  have hrow := patched_row (hI.times f hf) haccepted hnew
  have hmentions : ∀ field, (patches i).Mentions field → body.mentions field = true := by
    rintro field ⟨body', hbody', hmentioned⟩
    cases hbody.symm.trans hbody'
    exact hmentioned
  have hsame : ∀ field, ¬ (patches i).Mentions field → new.Agrees f field := by
    intro field hnot
    have hunmentioned : ¬ body.mentions field = true := fun hm => hnot ⟨body, hbody, hm⟩
    have hfield := hrow field
    rwa [if_neg hunmentioned] at hfield
  have honly : ∀ g, ({ w with db := r.1 } : World Db Time).db.availabilityFilter id = some g →
      g = new := fun g hg => Option.some.inj (hg.symm.trans hfound)
  refine ⟨⟨⟨new, hfound⟩, ?_, ?_, ?_⟩, ?_, ?_⟩
  · intro g hg
    rw [honly g hg]
    exact patched_times (hI.times f hf) hnew
  · intro g hg
    rw [honly g hg]
    exact hcheck
  · intro g hg field hnone
    rw [honly g hg]
    exact (hsame field (hnone i)).trans (hI.rest f hf field hnone)
  · intro g hg
    rw [honly g hg]
    exact ⟨f, hf, hsame⟩
  · intro g hg field hmentioned
    rw [honly g hg]
    refine ⟨body, hbody, ?_⟩
    have hfield := hrow field
    rwa [if_pos (hmentions field hmentioned)] at hfield

/-- **A PATCH holds**: answered, it has had its way, and nothing else has changed. -/
theorem holds_patchAvailability {i : ι} (hnamed : h.rt.parseUUID (patches i).fid = some id)
    (w : World Db Time) :
    ((patches i).serve h).Holds (Edited patches id start) (Waits patches id i) (Writes patches id i)
      (Ends fun _ w => Given patches id i w) w := by
  refine holds_seq (holds_lookupFilter h hnamed w) fun filter w hfilter => ?_
  refine holds_seq (M := fun _ w => ∃ f, w.db.availabilityFilter id = some f ∧
    filter = Db.scanAvailabilityFilter f) (ends_ofExcept fun _ _ => hfilter) fun p w hfilter => ?_
  refine holds_seq (M := fun body w => (patches i).request.body = .ok body ∧
    ∃ f, w.db.availabilityFilter id = some f ∧ filter = Db.scanAvailabilityFilter f)
    (ends_ofExcept fun body hbody => ⟨hbody, hfilter⟩) fun body w hread => ?_
  refine holds_seq (M := fun accepted w => validateAvailability body filter.current = .ok accepted ∧
    ∃ f, w.db.availabilityFilter id = some f ∧ filter = Db.scanAvailabilityFilter f)
    (ends_ofExcept fun accepted haccepted => ⟨haccepted, hread.2⟩) fun accepted w hvalid => ?_
  obtain ⟨hbody, -⟩ := hread
  obtain ⟨haccepted, hfilter⟩ := hvalid
  refine holds_seq (M := fun _ w => Given patches id i w)
    (ends_mapError (holds_within ?_)) fun updated w hgiven => ends_done hgiven
  have hid : filter.id = id := by
    obtain ⟨f, hf, rfl⟩ := hfilter
    have hselected := List.find?_some hf
    exact beq_iff_eq.mp hselected
  have hsome : accepted.update ≠ .empty := by
    intro hempty
    cases congrArg AvailabilityFilterUpdate.name hempty
  unfold updateAvailabilityFilter
  rw [if_neg hsome, hid]
  refine holds_seq (M := fun rows w => rows ≠ 0 → Given patches id i w)
    (ends_mapError (holds_write fun w' hwait hI e => ?_)) fun rows w hgiven => ?_
  · -- nobody has written since
    have hkept : ∃ f, w'.db.availabilityFilter id = some f ∧ filter = Db.scanAvailabilityFilter f :=
      star_keeps (F := fun w => ∃ f, w.db.availabilityFilter id = some f ∧
        filter = Db.scanAvailabilityFilter f) (fun w₁ w₂ hR hF => by
          obtain ⟨f, hf, hscan⟩ := hF
          exact ⟨f, hR.1.trans hf, hscan⟩) hwait hfilter
    obtain ⟨f, hf, rfl⟩ := hkept
    cases hchanged : e.changed w'.db
        (w'.db.updateAvailabilityFilter id p.userID accepted.update) with
    | error x => exact ⟨hI, Keeps.refl w', fun _ hx => by cases hx⟩
    | ok r =>
      rcases Outcome.changed_rows hchanged with rfl | hu
      · exact ⟨hI, Keeps.refl w', fun rows hrows hne => absurd (Except.ok.inj hrows).symm hne⟩
      · obtain ⟨hI', hG, hgiven⟩ := hI.update hbody hf haccepted hu
        exact ⟨hI', hG, fun _ _ _ => hgiven⟩
  · refine holds_seq (M := fun _ w => Given patches id i w)
      (ends_require fun hrows => hgiven (by simpa using hrows)) fun _ w hgiven => ?_
    -- the others mention other fields
    refine ends_mapError (holds_read fun w' hwait hI => ⟨Keeps.refl w', fun e row _ => ?_⟩)
    have hkeeps : ∀ w₁ w₂, Waits patches id i (.update .readBack) w₁ w₂ →
        Given patches id i w₁ → Given patches id i w₂ := fun _ _ hR => Given.keeps hR.2
    exact star_keeps hkeeps hwait hgiven

end Edits

/-! ## The system -/

/-- The PATCHes at their start. -/
def arrivedPatches {ι : Type} (h : MenuHandlers) (patches : ι → AvailabilityPatch)
    (w : World Db Time) :
    Config ι PatchAvailabilityStmt Outcome (World Db Time) ApiError AvailabilityBody where
  state := w
  procs := fun i => (patches i).serve h

/-- **No update is lost.** PATCHes of a filter that mention different fields run side by side, and
none writes between another's read and its write. Then the filter is as the schema wants it, each
PATCH that was answered has had its way, and what nobody mentions is as it was. -/
theorem edits_run {ι : Type} [DecidableEq ι] (h : MenuHandlers) (patches : ι → AvailabilityPatch)
    (id : UUID) (w : World Db Time) (f : AvailabilityFilterRow)
    (hstored : w.db.availabilityFilter id = some f) (htimes : f.TimesOfDay) (hcheck : f.Check)
    (hnamed : ∀ i, h.rt.parseUUID (patches i).fid = some id)
    (hdisjoint : ∀ i j field, i ≠ j → (patches i).Mentions field → ¬ (patches j).Mentions field)
    {c : Config ι PatchAvailabilityStmt Outcome (World Db Time) ApiError AvailabilityBody}
    (hrun : Run (SameFilter id) (PatchAvailabilityStmt.Rely id) (arrivedPatches h patches w) c) :
    ∃ f', c.state.db.availabilityFilter id = some f' ∧ f'.Check ∧
      (∀ field, (∀ i, ¬ (patches i).Mentions field) → f'.Agrees f field) ∧
      ∀ i answer, (c.procs i).result = some (.ok answer) → ∀ field, (patches i).Mentions field →
        (patches i).Gives f' field := by
  have hstart : Edited patches id f w := by
    have honly : ∀ g, w.db.availabilityFilter id = some g → g = f :=
      fun g hg => Option.some.inj (hg.symm.trans hstored)
    refine ⟨⟨f, hstored⟩, fun g hg => ?_, fun g hg => ?_, fun g hg field _ => ?_⟩
    · rw [honly g hg]
      exact htimes
    · rw [honly g hg]
      exact hcheck
    · rw [honly g hg]
      exact .refl f field
  have hensures : (arrivedPatches h patches w).Ensures (Edited patches id f) (Waits patches id)
      (Writes patches id) fun i => Ends fun _ w => Given patches id i w :=
    ⟨hstart, fun i => holds_patchAvailability h (hnamed i) w⟩
  have hothers : ∀ j w₁ w₂, Edited patches id f w₁ →
      (SameFilter id w₁ w₂ ∨ ∃ i l, i ≠ j ∧ Writes patches id i l w₁ w₂) →
      (∀ l, PatchAvailabilityStmt.Rely id l w₁ w₂ → Waits patches id j l w₁ w₂) ∧
        ∀ r : Except ApiError AvailabilityBody, Ends (fun _ w => Given patches id j w) r w₁ →
          Ends (fun _ w => Given patches id j w) r w₂ := by
    intro j w₁ w₂ _ hmove
    have hkeeps : Keeps id (patches j).Mentions w₁ w₂ := by
      rcases hmove with hsame | ⟨i, l, hij, hwrites⟩
      · exact .of_same hsame
      · intro f' hf'
        obtain ⟨g, hg, hagrees⟩ := hwrites f' hf'
        exact ⟨g, hg, fun field hj => hagrees field (hdisjoint j i field (Ne.symm hij) hj)⟩
    exact ⟨fun l hR => ⟨hR, hkeeps⟩, fun r hended a ha => (hended a ha).keeps hkeeps⟩
  have hend := hensures.run (fun w₁ w₂ hsame hI => hI.of_same hsame) hothers hrun
  obtain ⟨f', hf'⟩ := hend.inv.stored
  refine ⟨f', hf', hend.inv.check f' hf', hend.inv.rest f' hf', fun i answer hanswer => ?_⟩
  have hgiven : Given patches id i c.state := hend.result hanswer answer rfl
  exact hgiven f' hf'

/-! ## Two editors of one rule -/

/-- The filter of `fridayKebab` is moved down the list, and loses a day or gains one. -/
def editFridays (days : Bool) : AvailabilityPatch where
  fid := (UUID.mk 7).string
  request :=
    { id := (UUID.mk 2).string, mid := ""
      principal := some { userID := ⟨1⟩, isAdmin := false }
      body := .ok (if days then
          { name := none, onDate := none, weekdays := some [5, 4], startTime := none, endTime := none
            sortOrder := none }
        else
          { name := none, onDate := none, weekdays := none, startTime := none, endTime := none
            sortOrder := some 3 }) }

def fridays : AvailabilityFilterRow :=
  { id := ⟨7⟩, restaurantID := ⟨2⟩, name := "Fridays", onDate := none, weekdays := [5]
    startTime := none, endTime := none, sortOrder := 0 }

theorem fridays_times : fridays.TimesOfDay := by
  constructor
  · intro m hm
    cases hm
  · intro m hm
    cases hm

/-- The two PATCHes, at their start. -/
def editingFridays :
    Config Bool PatchAvailabilityStmt Outcome (World Db Time) ApiError AvailabilityBody :=
  arrivedPatches { rt := .ascii } editFridays { db := fridayKebab, now := 0 }

theorem editFridays_disjoint : ∀ i j field, i ≠ j → (editFridays i).Mentions field →
    ¬ (editFridays j).Mentions field := by
  rintro i j field hij ⟨body, hbody, hi⟩ ⟨body', hbody', hj⟩
  cases i <;> cases j
  · exact hij rfl
  · cases hbody
    cases hbody'
    cases field <;> simp [AvailabilityRequest.mentions] at hi hj
  · cases hbody
    cases hbody'
    cases field <;> simp [AvailabilityRequest.mentions] at hi hj
  · exact hij rfl

/-- One after the other. -/
def fridaysEdited :
    Config Bool PatchAvailabilityStmt Outcome (World Db Time) ApiError AvailabilityBody :=
  (editingFridays.advance false (.replicate 6 .ok)).advance true (.replicate 6 .ok)

theorem edits_run_fridays :
    ∃ f', fridaysEdited.state.db.availabilityFilter ⟨7⟩ = some f' ∧ f'.Check ∧
      (∀ field, (∀ i, ¬ (editFridays i).Mentions field) → f'.Agrees fridays field) ∧
      ∀ i answer, (fridaysEdited.procs i).result = some (.ok answer) →
        ∀ field, (editFridays i).Mentions field → (editFridays i).Gives f' field := by
  have hfirst : (editingFridays.procs true).waitsAt = some (.restaurant .restaurant) := by
    decide +kernel
  have hsecond : ((editingFridays.advance false (.replicate 6 .ok)).procs false).waitsAt = none := by
    decide +kernel
  have hrun : Run (SameFilter ⟨7⟩) (PatchAvailabilityStmt.Rely ⟨7⟩) editingFridays fridaysEdited := by
    refine (run_advance_others (i := false) (fun j l hj hl => ?_) _).trans
      (run_advance_others (i := true) (fun j l hj hl => ?_) _)
    · cases j with
      | false => exact absurd rfl hj
      | true =>
        cases hfirst.symm.trans hl
        exact fun _ _ => trivial
    · cases j with
      | true => exact absurd rfl hj
      | false => cases hsecond.symm.trans hl
  have hparsed : Runtime.ascii.parseUUID (UUID.mk 7).string = some ⟨7⟩ := by decide +kernel
  exact edits_run { rt := .ascii } editFridays ⟨7⟩ { db := fridayKebab, now := 0 } fridays rfl
    fridays_times (by decide) (fun _ => hparsed) editFridays_disjoint hrun

/-- Both read, and then both write. -/
def fridaysLost :
    Config Bool PatchAvailabilityStmt Outcome (World Db Time) ApiError AvailabilityBody :=
  ((editingFridays.advance false (.replicate 2 .ok)).advance true (.replicate 6 .ok)).advance false
    (.replicate 6 .ok)

/-- Without the relies, one PATCH takes back what the other gave. -/
theorem edits_lost :
    ¬ ∀ (h : MenuHandlers) (patches : Bool → AvailabilityPatch) (id : UUID) (w : World Db Time)
      (f : AvailabilityFilterRow), w.db.availabilityFilter id = some f → f.TimesOfDay → f.Check →
      (∀ i, h.rt.parseUUID (patches i).fid = some id) →
      (∀ i j field, i ≠ j → (patches i).Mentions field → ¬ (patches j).Mentions field) →
      ∀ c : Config Bool PatchAvailabilityStmt Outcome (World Db Time) ApiError AvailabilityBody,
      Run (SameFilter id) (fun _ _ _ => True) (arrivedPatches h patches w) c →
      (∀ i, ∃ answer, (c.procs i).result = some (.ok answer)) →
      ∃ f', c.state.db.availabilityFilter id = some f' ∧
        ∀ i field, (patches i).Mentions field → (patches i).Gives f' field := by
  intro h
  have hquiet : ∀ (c : Config Bool PatchAvailabilityStmt Outcome (World Db Time) ApiError
      AvailabilityBody) m c', Undisturbed (fun _ _ _ => True) c m c' := fun _ _ _ _ _ _ _ => trivial
  have hrun : Run (SameFilter ⟨7⟩) (fun _ _ _ => True) editingFridays fridaysLost :=
    ((run_advance hquiet _ _ _).trans (run_advance hquiet _ _ _)).trans (run_advance hquiet _ _ _)
  have hparsed : Runtime.ascii.parseUUID (UUID.mk 7).string = some ⟨7⟩ := by decide +kernel
  have hanswered : ∀ i, ∃ answer, (fridaysLost.procs i).result = some (.ok answer) := by
    have hok : ∀ i, ((fridaysLost.procs i).result.any fun r => r.toOption.isSome) = true := by
      decide +kernel
    intro i
    obtain ⟨r, hr, hvalue⟩ := (Option.any_eq_true _ _).mp (hok i)
    cases r with
    | error x => cases hvalue
    | ok answer => exact ⟨answer, hr⟩
  obtain ⟨f', hf', hgives⟩ := h { rt := .ascii } editFridays ⟨7⟩ { db := fridayKebab, now := 0 }
    fridays rfl fridays_times (by decide) (fun _ => hparsed) editFridays_disjoint fridaysLost hrun
    hanswered
  -- the day that was added is gone
  have hdays : fridaysLost.state.db.availabilityFilter ⟨7⟩ = some { fridays with sortOrder := 3 } := by
    decide +kernel
  obtain rfl := Option.some.inj (hdays.symm.trans hf')
  obtain ⟨body, hbody, v, hv, hstored⟩ := hgives true .weekdays ⟨_, rfl, rfl⟩
  cases hbody
  cases hv
  revert hstored
  decide +kernel

end Doenerstag
