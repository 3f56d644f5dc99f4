import Doenerstag.Api.AvailabilityEdits
import Doenerstag.Go.Strings

/-!
# The rules of an availability filter (`internal/api/availability.go`)

What `validateAvailability` accepts is a filter as the schema wants it, whatever the filter was before and
whichever fields the body has. The times are text in between: `to_char` writes the column down, `Sscanf`
reads it, `clockString` writes it again and the column reads it back.

* `createAvailability` — the handler of a POST.
* `scanRow` — a row as it is read, through the text of its times.
* `availabilityEdit_keepsRules` — **every accepted PATCH and every accepted POST makes a filter that satisfies
  the rules**, and a PATCH keeps what it does not mention.
-/

namespace Doenerstag

open ReadCommitted Prog

/-! ## Creating a filter -/

/-- Go's zero `validatedAvailability`. -/
def ValidatedAvailability.zero : ValidatedAvailability :=
  { name := "", onDate := none, weekdays := [], startTime := none, endTime := none, sortOrder := 0 }

def ValidatedAvailability.new (accepted : ValidatedAvailability) (restaurantID : UUID) :
    NewAvailabilityFilter :=
  { restaurantID
    name := accepted.name
    onDate := accepted.onDate
    weekdays := accepted.weekdays
    startTime := accepted.startTime
    endTime := accepted.endTime
    sortOrder := accepted.sortOrder }

/-- The name is required of a POST. -/
def validateNewAvailability (body : AvailabilityRequest) : Except ApiError ValidatedAvailability :=
  if body.name.isNone then .error (.on codeMissingField "name")
  else validateAvailability body .zero

inductive CreateAvailabilityHandlerStmt where
  /-- `restaurantID` -/
  | restaurant (s : MenuStmt)
  | create (s : CreateAvailabilityStmt)
  deriving DecidableEq, Repr

/-- `createAvailability`; the id is a new one. -/
def MenuHandlers.createAvailability (h : MenuHandlers) (id : UUID) (r : MenuRequest AvailabilityRequest) :
    Handler CreateAvailabilityHandlerStmt AvailabilityBody := do
  let restaurant ← (h.restaurantID r).within .restaurant
  let principal ← .ofExcept (requireAuthenticated r.principal)
  let body ← .ofExcept r.body
  let accepted ← .ofExcept (validateNewAvailability body)
  let created ← ((createAvailabilityFilter id principal.userID (accepted.new restaurant)).within
    .create).mapError databaseUnavailable
  pure (publicAvailability created)

/-! ## Times that are read as text -/

/-- `to_char(_, 'HH24:MI')` -/
def toChar (minutes : Int) : String := padded 2 (minutes / 60) ++ ":" ++ padded 2 (minutes % 60)

/-- `%d` of `fmt.Sscanf`: a sign if there is one, and the digits up to the first character that is none. -/
def scanInt (text : List Char) : Option (Int × List Char) :=
  let signed := text.dropWhile isSpace
  let negative := signed.head? == some '-'
  let unsigned := if negative || signed.head? == some '+' then signed.tail else signed
  let digits := unsigned.takeWhile Char.isDigit
  if digits.isEmpty then none
  else (parseDigits 10 digits).map fun n =>
    (if negative then -(n : Int) else n, unsigned.dropWhile Char.isDigit)

/-- `fmt.Sscanf(_, "%d:%d", …)`, as minutes since midnight -/
def parseClock (value : String) : Option Int := do
  let (hour, rest) ← scanInt value.toList
  match rest with
  | ':' :: rest =>
    let (minute, _) ← scanInt rest
    some (hour * 60 + minute)
  | _ => none

/-- One of the two values of `parseClockPair`; `none` if it cannot be read. -/
def parseClockHalf (value : Option String) : Option (Option Int) :=
  match value with
  | none => some none
  | some v => (parseClock v).map some

/-- `scanAvailabilityFilter`, with the times as the query writes them down. -/
def AvailabilityFilterRow.scanRow (f : AvailabilityFilterRow) : Option AvailabilityFilter := do
  let startTime ← parseClockHalf (f.startTime.map toChar)
  let endTime ← parseClockHalf (f.endTime.map toChar)
  pure { Db.scanAvailabilityFilter f with startTime, endTime }

theorem scanInt_two {a b : Char} {rest : List Char} (ha : a.isDigit = true) (hb : b.isDigit = true)
    (hrest : rest.takeWhile Char.isDigit = []) :
    scanInt (a :: b :: rest) = (parseDigits 10 [a, b]).map fun n => ((n : Int), rest) := by
  have hminus : a ≠ '-' := by
    rintro rfl
    cases ha
  have hplus : a ≠ '+' := by
    rintro rfl
    cases ha
  have hdrop : rest.dropWhile Char.isDigit = rest := by
    have hall := List.takeWhile_append_dropWhile (p := Char.isDigit) (l := rest)
    rwa [hrest, List.nil_append] at hall
  unfold scanInt
  simp [isSpace_of_isDigit ha, hminus, hplus, ha, hb, hrest, hdrop]

theorem digitChar_isDigit {n : Nat} (hn : n < 10) : (Nat.digitChar n).isDigit = true := by
  have hall : ∀ k < 10, (Nat.digitChar k).isDigit = true := by decide
  exact hall n hn

/-- The two numbers of a clock time -/
theorem parseClock_digits {value : String} {hour minute : Nat} (hhour : hour < 60) (hminute : minute < 60)
    (htext : value.toList = [(hour / 10).digitChar, (hour % 10).digitChar, ':', (minute / 10).digitChar,
      (minute % 10).digitChar]) :
    parseClock value = some ((hour : Int) * 60 + minute) := by
  have hfirst : scanInt value.toList =
      some ((hour : Int), [':', (minute / 10).digitChar, (minute % 10).digitChar]) := by
    rw [htext, scanInt_two (digitChar_isDigit (by omega)) (digitChar_isDigit (by omega)) rfl,
      parseDigits_two hour hhour]
    rfl
  have hsecond : scanInt [(minute / 10).digitChar, (minute % 10).digitChar] = some ((minute : Int), []) := by
    rw [scanInt_two (digitChar_isDigit (by omega)) (digitChar_isDigit (by omega)) rfl,
      parseDigits_two minute hminute]
    rfl
  unfold parseClock
  rw [hfirst]
  simp only [Option.bind_eq_bind, Option.bind_some, hsecond]

/-- A column that is written down and read is what it was. -/
theorem parseClock_toChar {m : Int} (hm : 0 ≤ m ∧ m ≤ 1440) : parseClock (toChar m) = some m := by
  obtain ⟨n, rfl⟩ := Int.eq_ofNat_of_zero_le hm.1
  have hhour : n / 60 < 60 := by omega
  have hminute : n % 60 < 60 := Nat.mod_lt n (by decide)
  -- `to_char` writes a time as `clockString` does
  have hsame : toChar n = clockString n := rfl
  have hn : n ≤ 1440 := by omega
  rw [hsame, parseClock_digits hhour hminute (clockString_digits hn)]
  congr 1
  omega

theorem parseClockHalf_toChar {column : Option Int} (h : ∀ m ∈ column, 0 ≤ m ∧ m ≤ 1440) :
    parseClockHalf (column.map toChar) = some column := by
  cases column with
  | none => rfl
  | some m =>
    unfold parseClockHalf
    simp only [Option.map_some, parseClock_toChar (h m rfl)]

/-- A row is read as it is stored. -/
theorem scanRow_eq {f : AvailabilityFilterRow} (htimes : f.TimesOfDay) :
    f.scanRow = some (Db.scanAvailabilityFilter f) := by
  unfold AvailabilityFilterRow.scanRow
  rw [parseClockHalf_toChar htimes.start, parseClockHalf_toChar htimes.stop]
  rfl

/-! ## What is accepted -/

/-- Every time in the text is one of a day, written as `HH:MM`. -/
def IsClock (text : Option String) : Prop :=
  ∀ v ∈ text, ∃ m : Int, (0 ≤ m ∧ m ≤ 1440) ∧ v = clockString m

theorem isClock_map {column : Option Int} (h : ∀ m ∈ column, 0 ≤ m ∧ m ≤ 1440) :
    IsClock (column.map clockString) := by
  intro v hv
  obtain ⟨m, hm, rfl⟩ := Option.map_eq_some_iff.mp hv
  exact ⟨m, h m hm, rfl⟩

/-- The column of such a text -/
theorem timeColumn_of_isClock {text : Option String} (h : IsClock text) :
    ∃ column, timeColumn text = .ok column ∧ text = column.map clockString ∧
      ∀ m ∈ column, 0 ≤ m ∧ m ≤ 1440 := by
  cases text with
  | none => exact ⟨none, rfl, rfl, by simp⟩
  | some v =>
    obtain ⟨m, hm, rfl⟩ := h v rfl
    have hcolumn : ∀ k ∈ some m, 0 ≤ k ∧ k ≤ 1440 := by
      intro k hk
      cases hk
      exact hm
    exact ⟨some m, timeColumn_clockString hcolumn, rfl, hcolumn⟩

theorem digitChar_toNat {c : Char} (hc : 48 ≤ c.toNat ∧ c.toNat ≤ 57) :
    Nat.digitChar (c.toNat - 48) = c := by
  apply Char.toNat_inj.mp
  rw [Nat.toNat_digitChar_of_lt_ten (by omega)]
  omega

theorem le_toNat {a b : Char} (h : a ≤ b) : a.toNat ≤ b.toNat := h

/-- What the pattern lets through is the text of a time of day. -/
theorem eq_clockString_of_clockTime {v : String} (h : clockTime v = true) :
    ∃ m : Int, (0 ≤ m ∧ m ≤ 1440) ∧ v = clockString m := by
  unfold clockTime at h
  split at h
  case h_2 => cases h
  case h_1 h₁ h₂ m₁ m₂ htext =>
    simp only [Bool.and_eq_true, Bool.or_eq_true, beq_iff_eq, decide_eq_true_eq] at h
    obtain ⟨⟨hhour, hlow, hhigh⟩, hm₂⟩ := h
    obtain ⟨hm₂low, hm₂high⟩ := isDigit_range hm₂
    have hm₁low : 48 ≤ m₁.toNat := le_toNat hlow
    have hm₁high : m₁.toNat ≤ 53 := le_toNat hhigh
    -- the hour is at most 19, or at most 23
    have hrange : (48 ≤ h₁.toNat ∧ h₁.toNat ≤ 57) ∧ (48 ≤ h₂.toNat ∧ h₂.toNat ≤ 57) ∧
        (h₁.toNat - 48) * 10 + (h₂.toNat - 48) ≤ 23 := by
      rcases hhour with ⟨hfirst, hdigit⟩ | ⟨⟨rfl, htwo⟩, hthree⟩
      · obtain ⟨hlow', hhigh'⟩ := isDigit_range hdigit
        rcases hfirst with rfl | rfl
        · refine ⟨by decide, ⟨hlow', hhigh'⟩, ?_⟩
          show (48 - 48) * 10 + (h₂.toNat - 48) ≤ 23
          omega
        · refine ⟨by decide, ⟨hlow', hhigh'⟩, ?_⟩
          show (49 - 48) * 10 + (h₂.toNat - 48) ≤ 23
          omega
      · have hlow' : 48 ≤ h₂.toNat := le_toNat htwo
        have hhigh' : h₂.toNat ≤ 51 := le_toNat hthree
        refine ⟨by decide, ⟨hlow', by omega⟩, ?_⟩
        show (50 - 48) * 10 + (h₂.toNat - 48) ≤ 23
        omega
    obtain ⟨hh₁, hh₂, hbound⟩ := hrange
    set a := h₁.toNat - 48
    set b := h₂.toNat - 48
    set c := m₁.toNat - 48
    set d := m₂.toNat - 48
    have hb : b < 10 := by omega
    have hc : c < 6 := by omega
    have hd : d < 10 := by omega
    refine ⟨(((a * 10 + b) * 60 + (c * 10 + d) : Nat) : Int), by omega, ?_⟩
    apply String.toList_inj.mp
    have hdiv : ((((a * 10 + b) * 60 + (c * 10 + d) : Nat) : Int) / 60) = ((a * 10 + b : Nat) : Int) := by
      omega
    have hmod : ((((a * 10 + b) * 60 + (c * 10 + d) : Nat) : Int) % 60) = ((c * 10 + d : Nat) : Int) := by
      omega
    unfold clockString
    rw [htext, hdiv, hmod, String.toList_append, String.toList_append, padded_two (by omega),
      padded_two (by omega)]
    have ha' : (a * 10 + b) / 10 = a := by omega
    have hb' : (a * 10 + b) % 10 = b := by omega
    have hc' : (c * 10 + d) / 10 = c := by omega
    have hd' : (c * 10 + d) % 10 = d := by omega
    rw [ha', hb', hc', hd', digitChar_toNat hh₁, digitChar_toNat hh₂, digitChar_toNat ⟨hm₁low, by omega⟩,
      digitChar_toNat ⟨hm₂low, hm₂high⟩]
    rfl

theorem validateClock_isClock {value text : Option String} {field : String}
    (h : validateClock value field = .ok text) : IsClock text := by
  unfold validateClock at h
  intro v hv
  cases value with
  | none =>
    cases h
    cases hv
  | some w =>
    simp only at h
    split_ifs at h with hempty hclock
    · cases h
      cases hv
    · cases h
      cases hv
      exact eq_clockString_of_clockTime hclock

/-- A time that is patched, or kept, is the text of a time of day. -/
theorem patched_isClock {body : Option (Option String)} {current text : Option String} {field : String}
    (hcurrent : IsClock current) (h : patched body current (validateClock · field) = .ok text) :
    IsClock text := by
  cases body with
  | none =>
    cases h
    exact hcurrent
  | some v => exact validateClock_isClock h

/-- The days that a body gives are days, once each. -/
theorem validateWeekdays_spec {days out : List Int} (h : validateWeekdays days = .ok out) :
    (∀ day ∈ out, 1 ≤ day ∧ day ≤ 7) ∧ out.Nodup := by
  unfold validateWeekdays at h
  split_ifs at h with hany
  cases h
  have hperm := sliceStable_perm (fun a b : Int => decide (a < b)) days.eraseDups
  refine ⟨fun day hday => ?_, hperm.nodup_iff.mpr (Tables.nodup_eraseDups days)⟩
  have hmem : day ∈ days := List.mem_eraseDups.mp (hperm.mem_iff.mp hday)
  simp only [List.any_eq_true, Bool.or_eq_true, decide_eq_true_eq, not_exists, not_and, not_or] at hany
  have hrange := hany day hmem
  omega

/-- The rules that are about more than one field. -/
theorem judge_eq_ok {out : ValidatedAvailability} (h : out.judge = .ok ()) :
    out.startTime.isSome = out.endTime.isSome ∧
      (out.startTime = none ∨ out.startTime ≠ out.endTime) ∧
      (out.onDate.isSome = true ∨ out.weekdays ≠ [] ∨ out.startTime.isSome = true) := by
  unfold ValidatedAvailability.judge at h
  split_ifs at h with htogether hempty hnothing
  refine ⟨?_, ?_, ?_⟩
  · cases hstart : out.startTime <;> cases hstop : out.endTime <;> simp [hstart, hstop] at htogether ⊢
  · cases hstart : out.startTime with
    | none => exact .inl rfl
    | some v =>
      refine .inr fun heq => hempty ?_
      rw [hstart, ← heq]
      simp
  · by_contra hnone
    simp only [not_or, Option.isSome_iff_ne_none, not_not] at hnone
    obtain ⟨hdate, hdays, htime⟩ := hnone
    exact hnothing (by simp [hdate, hdays, htime])

/-- What is accepted has been judged as a whole. -/
theorem validateAvailability_judge {body : AvailabilityRequest} {current accepted : ValidatedAvailability}
    (h : validateAvailability body current = .ok accepted) : accepted.judge = .ok () := by
  unfold validateAvailability at h
  obtain ⟨_, -, h⟩ := exceptBind_eq_ok h
  obtain ⟨_, -, h⟩ := exceptBind_eq_ok h
  obtain ⟨_, -, h⟩ := exceptBind_eq_ok h
  obtain ⟨_, -, h⟩ := exceptBind_eq_ok h
  obtain ⟨_, -, h⟩ := exceptBind_eq_ok h
  obtain ⟨_, hjudge, h⟩ := exceptBind_eq_ok h
  cases h
  exact hjudge

/-- The days of what is accepted are days, once each if the body gives them. -/
theorem validated_weekdays {body : AvailabilityRequest} {current accepted : ValidatedAvailability}
    (hdays : ∀ day ∈ current.weekdays, 1 ≤ day ∧ day ≤ 7)
    (h : validateAvailability body current = .ok accepted) :
    (∀ day ∈ accepted.weekdays, 1 ≤ day ∧ day ≤ 7) ∧
      (body.weekdays.isSome = true → accepted.weekdays.Nodup) := by
  obtain ⟨-, -, hweekdays, -⟩ := validateAvailability_eq_ok h
  cases hgiven : body.weekdays with
  | none =>
    rw [hgiven] at hweekdays
    have hkept : current.weekdays = accepted.weekdays := Except.ok.inj hweekdays
    refine ⟨hkept ▸ hdays, fun hsome => ?_⟩
    cases hsome
  | some days =>
    rw [hgiven] at hweekdays
    exact ⟨(validateWeekdays_spec hweekdays).1, fun _ => (validateWeekdays_spec hweekdays).2⟩

/-! ## The rules -/

/-- What the schema wants of a filter, and of its days, if they were given, that each is there once. -/
structure AvailabilityFilterRow.Rules (f : AvailabilityFilterRow) (daysGiven : Bool) : Prop where
  weekdays : ∀ day ∈ f.weekdays, 1 ≤ day ∧ day ≤ 7
  distinct : daysGiven = true → f.weekdays.Nodup
  together : f.startTime.isSome = f.endTime.isSome
  notZeroLength : f.startTime = none ∨ f.startTime ≠ f.endTime
  restricts : f.onDate.isSome = true ∨ f.weekdays ≠ [] ∨ f.startTime.isSome = true

/-- The row that the columns of what was accepted make. -/
theorem rules_of_accepted {body : AvailabilityRequest} (current : ValidatedAvailability) {accepted : ValidatedAvailability}
    (hdays : ∀ day ∈ current.weekdays, 1 ≤ day ∧ day ≤ 7) (hstart : IsClock current.startTime)
    (hstop : IsClock current.endTime) (h : validateAvailability body current = .ok accepted)
    (f : AvailabilityFilterRow) : ∃ start stop,
      timeColumn accepted.startTime = .ok start ∧ timeColumn accepted.endTime = .ok stop ∧
      ({ f with name := accepted.name, onDate := accepted.onDate, weekdays := accepted.weekdays
                startTime := start, endTime := stop, sortOrder := accepted.sortOrder } :
        AvailabilityFilterRow).Rules body.weekdays.isSome := by
  obtain ⟨-, -, -, hstartTime, hendTime, -⟩ := validateAvailability_eq_ok h
  obtain ⟨htogether, hlength, hrestricts⟩ := judge_eq_ok (validateAvailability_judge h)
  obtain ⟨start, hstartColumn, hstartText, -⟩ := timeColumn_of_isClock (patched_isClock hstart hstartTime)
  obtain ⟨stop, hstopColumn, hstopText, -⟩ := timeColumn_of_isClock (patched_isClock hstop hendTime)
  rw [hstartText, hstopText] at htogether hlength
  rw [hstartText] at hrestricts
  refine ⟨start, stop, hstartColumn, hstopColumn, ?_⟩
  constructor
  case weekdays => exact (validated_weekdays hdays h).1
  case distinct => exact (validated_weekdays hdays h).2
  case together => simpa using htogether
  case notZeroLength =>
    rcases hlength with hnone | hne
    · exact .inl (by simpa using hnone)
    · -- equal columns would have had equal texts
      exact .inr fun heq => hne (congrArg (Option.map clockString) heq)
  case restricts => simpa using hrestricts

/-! ## Both handlers -/

/-- The row of a PATCH, if the place in the list fits its column. -/
theorem apply_update {accepted : ValidatedAvailability} {start stop : Option Int} (f : AvailabilityFilterRow)
    (hstart : timeColumn accepted.startTime = .ok start) (hstop : timeColumn accepted.endTime = .ok stop) :
    accepted.update.apply f =
      if fitsInteger accepted.sortOrder then
        .ok { f with name := accepted.name, onDate := accepted.onDate, weekdays := accepted.weekdays
                     startTime := start, endTime := stop, sortOrder := accepted.sortOrder }
      else .error .outOfRange := by
  unfold AvailabilityFilterUpdate.apply AvailabilityFilterUpdate.timeSet
  simp only [ValidatedAvailability.update, Option.all_some, hstart, hstop]
  cases fitsInteger accepted.sortOrder <;> rfl

/-- The row of a POST, likewise. -/
theorem row_new {accepted : ValidatedAvailability} {start stop : Option Int} (id restaurantID : UUID)
    (hstart : timeColumn accepted.startTime = .ok start) (hstop : timeColumn accepted.endTime = .ok stop) :
    (accepted.new restaurantID).row id =
      if fitsInteger accepted.sortOrder then
        .ok { id, restaurantID, name := accepted.name, onDate := accepted.onDate
              weekdays := accepted.weekdays, startTime := start, endTime := stop
              sortOrder := accepted.sortOrder }
      else .error .outOfRange := by
  unfold NewAvailabilityFilter.row
  simp only [ValidatedAvailability.new, hstart, hstop]
  cases fitsInteger accepted.sortOrder <;> rfl

/-- A stored filter, as a PATCH finds it -/
theorem rules_of_patch {body : AvailabilityRequest} {f : AvailabilityFilterRow}
    {accepted : ValidatedAvailability} (hcheck : f.Check) (htimes : f.TimesOfDay)
    (haccepted : validateAvailability body (Db.scanAvailabilityFilter f).current = .ok accepted) :
    if fitsInteger accepted.sortOrder then
      ∃ new, accepted.update.apply f = .ok new ∧ new.Rules body.weekdays.isSome ∧
        ∀ field, body.mentions field = false → new.Agrees f field
    else accepted.update.apply f = .error .outOfRange := by
  obtain ⟨start, stop, hstart, hstop, hrules⟩ := rules_of_accepted _ hcheck.2.1 (isClock_map htimes.start)
    (isClock_map htimes.stop) haccepted f
  have happly := apply_update f hstart hstop
  split_ifs with hfits
  · rw [if_pos hfits] at happly
    refine ⟨_, happly, hrules, fun field hfield => ?_⟩
    have hrow := patched_row htimes haccepted happly field
    rwa [if_neg (by rw [hfield]; exact Bool.false_ne_true)] at hrow
  · rwa [if_neg hfits] at happly

/-- A new filter, over the zero value -/
theorem rules_of_post {body : AvailabilityRequest} {accepted : ValidatedAvailability} (id restaurantID : UUID)
    (haccepted : validateNewAvailability body = .ok accepted) :
    if fitsInteger accepted.sortOrder then
      ∃ new, (accepted.new restaurantID).row id = .ok new ∧ new.Rules body.weekdays.isSome
    else (accepted.new restaurantID).row id = .error .outOfRange := by
  unfold validateNewAvailability at haccepted
  split_ifs at haccepted
  have hnone : IsClock none := fun v hv => by cases hv
  obtain ⟨start, stop, hstart, hstop, hrules⟩ := rules_of_accepted .zero
    (fun day hday => by cases hday) hnone hnone haccepted
    { id, restaurantID, name := "", onDate := none, weekdays := [], startTime := none, endTime := none
      sortOrder := 0 }
  have hrow := row_new id restaurantID hstart hstop
  split_ifs with hfits
  · rw [if_pos hfits] at hrow
    exact ⟨_, hrow, hrules⟩
  · rwa [if_neg hfits] at hrow

/-- **Availability edits keep the schema's rules.** A stored filter that satisfies the `CHECK`s is read
through the text of its times. If a PATCH of it is accepted, or a POST, the filter that results satisfies the
rules, and what the PATCH does not mention is as it was. The only thing left to the database is a place in the
list that does not fit its column. -/
theorem availabilityEdit_keepsRules (body : AvailabilityRequest) :
    (∀ f : AvailabilityFilterRow, f.Check → f.TimesOfDay → ∃ filter, f.scanRow = some filter ∧
      ∀ accepted, validateAvailability body filter.current = .ok accepted →
        if fitsInteger accepted.sortOrder then
          ∃ new, accepted.update.apply f = .ok new ∧ new.Rules body.weekdays.isSome ∧
            ∀ field, body.mentions field = false → new.Agrees f field
        else accepted.update.apply f = .error .outOfRange) ∧
    ∀ (id restaurantID : UUID) (accepted : ValidatedAvailability),
      validateNewAvailability body = .ok accepted →
        if fitsInteger accepted.sortOrder then
          ∃ new, (accepted.new restaurantID).row id = .ok new ∧ new.Rules body.weekdays.isSome
        else (accepted.new restaurantID).row id = .error .outOfRange := by
  constructor
  · exact fun f hcheck htimes => ⟨_, scanRow_eq htimes, fun _ haccepted =>
      rules_of_patch hcheck htimes haccepted⟩
  · exact fun id restaurantID _ haccepted => rules_of_post id restaurantID haccepted

/-- The days of the Friday filter are replaced. -/
theorem availabilityEdit_keepsRules_fridays :
    (fridays.Check ∧ fridays.TimesOfDay) ∧
    ∃ filter accepted, fridays.scanRow = some filter ∧
      validateAvailability { name := none, onDate := none, weekdays := some [5, 4, 5], startTime := none
                             endTime := none, sortOrder := none } filter.current = .ok accepted ∧
      ∃ new, accepted.update.apply fridays = .ok new ∧ new.Rules true := by
  have hcheck : fridays.Check := by decide
  refine ⟨⟨hcheck, fridays_times⟩, ?_⟩
  obtain ⟨filter, hread, hrules⟩ := (availabilityEdit_keepsRules
    { name := none, onDate := none, weekdays := some [5, 4, 5], startTime := none, endTime := none
      sortOrder := none }).1 fridays hcheck fridays_times
  cases hread
  have haccepted : validateAvailability
      { name := none, onDate := none, weekdays := some [5, 4, 5], startTime := none, endTime := none
        sortOrder := none } (Db.scanAvailabilityFilter fridays).current =
      .ok { (Db.scanAvailabilityFilter fridays).current with weekdays := [4, 5] } := by decide +kernel
  obtain ⟨new, hnew, hkeeps, -⟩ := hrules _ haccepted
  exact ⟨_, _, rfl, haccepted, new, hnew, hkeeps⟩

end Doenerstag
