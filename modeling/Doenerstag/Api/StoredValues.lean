import Doenerstag.Api.AvailabilityRules
import Doenerstag.Api.OrderItems
import Mathlib.Data.List.TakeWhile

/-!
# What the validators let through, and what the database can store

The bodies of `addItem`, `patchItem`, `postMessage`, `createAvailability` and `patchAvailability`, and the
columns their values are written to (migrations 7, 12 and 17). PostgreSQL has no text with U+0000, which a
JSON string may contain, and an `integer` has four bytes.

* `Handed` — a value together with the type and the `CHECK` of its column.
* `StoringRequest.handed` — what a request hands to the database once its body is accepted.
* `stored_iff` — **an accepted body is stored exactly when its text is free of U+0000 and its place in the
  list fits**; otherwise the answer is that the database is unavailable.
-/

namespace Doenerstag

open Prog

/-! ## Columns -/

/-- The text has no U+0000. -/
def noNul (value : String) : Bool := !value.toList.contains '\x00'

/-- A value, with the type and the `CHECK` of the column it is written to. -/
inductive Handed where
  /-- `text`, with the bounds on `char_length` -/
  | text (atLeast atMost : Nat) (value : String)
  /-- `integer`, with the least value -/
  | integer (atLeast : Int) (value : Int64)
  /-- `smallint[]`, days of the week -/
  | days (value : List Int)
  /-- `time`, which may be `NULL` -/
  | time (value : Option String)
  deriving DecidableEq, Repr

/-- The column can hold the value. -/
def Handed.holds : Handed → Bool
  | .text atLeast atMost value => noNul value && atLeast ≤ value.length && value.length ≤ atMost
  | .integer atLeast value => fitsInteger value && atLeast ≤ value.toInt
  | .days value => value.all fun day => 1 ≤ day && day ≤ 7
  | .time value => value.all fun v => (timeOfDay v).isSome

/-- A text of the right length is held when it has no U+0000. -/
theorem Handed.holds_text {atLeast atMost : Nat} {value : String} (hleast : atLeast ≤ value.length)
    (hmost : value.length ≤ atMost) : (Handed.text atLeast atMost value).holds = noNul value := by
  rw [Handed.holds, decide_eq_true hleast, decide_eq_true hmost, Bool.and_true, Bool.and_true]

def orderItemQuantity (value : Int64) : Handed := .integer 1 value
def orderItemNote (value : String) : Handed := .text 0 500 value
def orderMessageBody (value : String) : Handed := .text 1 1000 value
def availabilityFilterName (value : String) : Handed := .text 1 200 value
def availabilityFilterSortOrder (value : Int64) : Handed := .integer (-2147483648) value

/-- What a statement is handed: its values, and whether the `CHECK`s about more than one column hold. -/
structure Write where
  values : List Handed
  check : Bool
  deriving DecidableEq, Repr

/-- The database stores the values. -/
def Write.stored (w : Write) : Bool := w.values.all Handed.holds && w.check

/-! ## The requests -/

def maxMessageLength : Nat := 1000

/-- The checks of `postMessage` -/
def validateMessage (body : String) : Except ApiError String :=
  if trimSpace body = "" then .error (.on codeMissingField "body")
  else if longerThan (trimSpace body) maxMessageLength then
    .error (tooLong "body" "message" maxMessageLength)
  else .ok (trimSpace body)

/-- A body that one of the five handlers is about to write. A PATCH of a filter is judged over the filter that
is stored. -/
inductive StoringRequest where
  | addItem (orderID userID : UUID) (body : OrderHandlers.AddItemRequest)
  | patchItem (body : OrderHandlers.PatchItemRequest)
  | postMessage (body : String)
  | createAvailability (body : AvailabilityRequest)
  | patchAvailability (stored : AvailabilityFilterRow) (body : AvailabilityRequest)
  deriving DecidableEq, Repr

def NewOrderItem.write (item : NewOrderItem) : Write :=
  { values := [orderItemQuantity item.quantity, orderItemNote item.note], check := true }

def OrderItemUpdate.write (change : OrderItemUpdate) : Write :=
  { values := (change.quantity.map orderItemQuantity).toList ++ (change.note.map orderItemNote).toList
    check := true }

/-- The `CHECK`s on the times, and that the filter says something, are about the columns together. -/
def ValidatedAvailability.write (accepted : ValidatedAvailability) : Write :=
  { values := [availabilityFilterName accepted.name, .days accepted.weekdays, .time accepted.startTime
               , .time accepted.endTime, availabilityFilterSortOrder accepted.sortOrder]
    check := accepted.startTime.isSome == accepted.endTime.isSome &&
      (accepted.startTime.isNone ||
        accepted.startTime.bind timeOfDay != accepted.endTime.bind timeOfDay) &&
      (accepted.onDate.isSome || !accepted.weekdays.isEmpty || accepted.startTime.isSome) }

namespace StoringRequest

/-- What the request hands to the database, if its body is accepted. -/
def handed (h : OrderHandlers) : StoringRequest → Except ApiError Write
  | addItem orderID userID body => (h.validateNewItem orderID userID body).map NewOrderItem.write
  | patchItem body => (h.validateItemPatch body).map OrderItemUpdate.write
  | postMessage body =>
    (validateMessage body).map fun text => { values := [orderMessageBody text], check := true }
  | createAvailability body => (validateNewAvailability body).map ValidatedAvailability.write
  | patchAvailability stored body =>
    (validateAvailability body (Db.scanAvailabilityFilter stored).current).map ValidatedAvailability.write

/-- How the handler answers an error of the write. -/
def writeError : StoringRequest → DbError → ApiError
  | addItem .. | patchItem .. => itemWriteError
  | postMessage .. | patchAvailability .. => dbError
  | createAvailability .. => databaseUnavailable

/-- What becomes of an accepted body, when nothing else goes wrong. An error of the database that the db
package does not name is a failure. -/
def answer (r : StoringRequest) (w : Write) : Except ApiError Unit :=
  (if w.stored then .ok () else .error DbError.failure : Except DbError Unit).mapError r.writeError

/-- The stored filter that is patched is as its columns want it. -/
def Existing : StoringRequest → Prop
  | patchAvailability f _ => f.Check ∧ f.TimesOfDay ∧ noNul f.name = true ∧ fitsInteger f.sortOrder = true
  | _ => True

/-- The text of the body is free of U+0000, and its place in the list fits. -/
def Plain : StoringRequest → Bool
  | addItem _ _ body => noNul body.note
  | patchItem body => body.note.all noNul
  | postMessage body => noNul body
  | createAvailability body => body.name.all noNul && body.sortOrder.all fitsInteger
  | patchAvailability _ body => body.name.all noNul && body.sortOrder.all fitsInteger

end StoringRequest

/-! ## Text -/

theorem mem_dropWhile_iff {α : Type} {p : α → Bool} {a : α} (ha : p a = false) (xs : List α) :
    a ∈ xs.dropWhile p ↔ a ∈ xs := by
  constructor
  · exact fun h => (List.dropWhile_sublist p).mem h
  · intro h
    rw [← List.takeWhile_append_dropWhile (p := p) (l := xs), List.mem_append] at h
    rcases h with h | h
    · exact absurd ((List.mem_takeWhile_imp h).symm.trans ha) (by decide)
    · exact h

/-- Trimming takes no U+0000 away. -/
theorem noNul_trimSpace (value : String) : noNul (trimSpace value) = noNul value := by
  have hmem : '\x00' ∈ (trimSpace value).toList ↔ '\x00' ∈ value.toList := by
    unfold trimSpace
    rw [String.toList_ofList, List.mem_reverse, mem_dropWhile_iff (by decide), List.mem_reverse,
      mem_dropWhile_iff (by decide)]
  unfold noNul
  rw [Bool.eq_iff_iff]
  simp only [Bool.not_eq_true', List.contains_eq_mem, decide_eq_false_iff_not, hmem]

theorem not_longerThan {value : String} {limit : Nat} (h : ¬ longerThan value limit = true) :
    value.length ≤ limit := by
  unfold longerThan at h
  simpa using h

/-! ## Each validator -/

section Validators

variable {h : OrderHandlers}

theorem validateQuantity_holds {quantity : Int64} (hq : validateQuantity quantity = .ok ()) :
    (orderItemQuantity quantity).holds = true := by
  unfold validateQuantity maxOrderItemQuantity at hq
  split_ifs at hq with hlow hhigh
  rw [Int64.lt_iff_toInt_lt] at hlow hhigh
  have hone : (1 : Int64).toInt = 1 := rfl
  have hmost : (99 : Int64).toInt = 99 := rfl
  show (fitsInteger quantity && decide (1 ≤ quantity.toInt)) = true
  unfold fitsInteger
  simp only [Bool.and_eq_true, decide_eq_true_eq, Int64.le_iff_toInt_le]
  have hleast : (-2147483648 : Int64).toInt = -2147483648 := rfl
  have hgreatest : (2147483647 : Int64).toInt = 2147483647 := rfl
  omega

/-- A note that is short enough is stored when it has no U+0000. -/
theorem validateFreeText_holds {note : String}
    (hnote : validateFreeText note "note" maxOrderNoteLength = .ok ()) :
    (orderItemNote (trimSpace note)).holds = noNul note := by
  unfold validateFreeText at hnote
  split_ifs at hnote with hlong
  have hshort : (trimSpace note).length ≤ 500 := not_longerThan hlong
  unfold orderItemNote
  rw [Handed.holds_text (Nat.zero_le _) hshort, noNul_trimSpace]

theorem validateMessage_holds {body text : String} (hbody : validateMessage body = .ok text) :
    (orderMessageBody text).holds = noNul body := by
  unfold validateMessage at hbody
  split_ifs at hbody with hempty hlong
  cases hbody
  have hshort : (trimSpace body).length ≤ 1000 := not_longerThan hlong
  have hsome : 1 ≤ (trimSpace body).length := by
    rw [Nat.one_le_iff_ne_zero, ← String.length_toList]
    exact fun hzero => hempty (String.toList_eq_nil_iff.mp (List.length_eq_zero_iff.mp hzero))
  unfold orderMessageBody
  rw [Handed.holds_text hsome hshort, noNul_trimSpace]

theorem validateNewItem_stored {orderID userID : UUID} {body : OrderHandlers.AddItemRequest} {item : NewOrderItem}
    (hitem : h.validateNewItem orderID userID body = .ok item) : item.write.stored = noNul body.note := by
  unfold OrderHandlers.validateNewItem at hitem
  obtain ⟨menuItemID, -, hitem⟩ := exceptBind_eq_ok hitem
  obtain ⟨_, hquantity, hitem⟩ := exceptBind_eq_ok hitem
  obtain ⟨_, hnote, hitem⟩ := exceptBind_eq_ok hitem
  obtain ⟨modificationIDs, -, hitem⟩ := exceptBind_eq_ok hitem
  cases hitem
  unfold Write.stored NewOrderItem.write
  simp only [List.all_cons, List.all_nil, Bool.and_true, validateQuantity_holds hquantity,
    validateFreeText_holds hnote, Bool.true_and]

theorem validateItemPatch_stored {body : OrderHandlers.PatchItemRequest} {change : OrderItemUpdate}
    (hchange : h.validateItemPatch body = .ok change) : change.write.stored = body.note.all noNul := by
  unfold OrderHandlers.validateItemPatch at hchange
  obtain ⟨quantity, hquantity, hchange⟩ := exceptBind_eq_ok hchange
  obtain ⟨note, hnote, hchange⟩ := exceptBind_eq_ok hchange
  obtain ⟨modificationIDs, -, hchange⟩ := exceptBind_eq_ok hchange
  cases hchange
  have hholdsQuantity : ((quantity.map orderItemQuantity).toList).all Handed.holds = true := by
    rcases exceptMapM_eq_ok hquantity with ⟨-, rfl⟩ | ⟨q, q', -, hq, rfl⟩
    · rfl
    · obtain ⟨_, hvalid, hq⟩ := exceptBind_eq_ok hq
      rw [← Except.ok.inj hq, Option.map_some, Option.toList_some, List.all_cons, List.all_nil, Bool.and_true]
      exact validateQuantity_holds hvalid
  have hholdsNote : ((note.map orderItemNote).toList).all Handed.holds = body.note.all noNul := by
    rcases exceptMapM_eq_ok hnote with ⟨hbody, rfl⟩ | ⟨text, text', hbody, htext, rfl⟩
    · rw [hbody]
      rfl
    · obtain ⟨_, hvalid, htext⟩ := exceptBind_eq_ok htext
      rw [hbody, ← Except.ok.inj htext, Option.map_some, Option.toList_some, List.all_cons, List.all_nil,
        Bool.and_true, Option.all_some]
      exact validateFreeText_holds hvalid
  unfold Write.stored OrderItemUpdate.write
  rw [List.all_append, hholdsQuantity, hholdsNote, Bool.true_and, Bool.and_true]

end Validators

/-! ## The filter -/

/-- A name that is given, or kept, fits its column when it has no U+0000. -/
theorem validatedName_holds {body : AvailabilityRequest} {current accepted : ValidatedAvailability}
    (hcurrent : body.name = none → (availabilityFilterName current.name).holds = true)
    (h : validateAvailability body current = .ok accepted) :
    (availabilityFilterName accepted.name).holds = body.name.all noNul := by
  obtain ⟨hname, -⟩ := validateAvailability_eq_ok h
  cases hbody : body.name with
  | none =>
    rw [hbody] at hname
    have hkept : current.name = accepted.name := Except.ok.inj hname
    exact hkept ▸ hcurrent hbody
  | some v =>
    rw [hbody] at hname
    obtain ⟨_, hvalid, hname⟩ := exceptBind_eq_ok hname
    have haccepted : trimSpace v = accepted.name := Except.ok.inj hname
    unfold validateMenuName at hvalid
    split_ifs at hvalid with hempty hlong
    have hshort : (trimSpace v).length ≤ 200 := not_longerThan hlong
    have hsome : 1 ≤ (trimSpace v).length := by
      rw [Nat.one_le_iff_ne_zero, ← String.length_toList]
      exact fun hzero => hempty (String.toList_eq_nil_iff.mp (List.length_eq_zero_iff.mp hzero))
    unfold availabilityFilterName
    rw [← haccepted, Handed.holds_text hsome hshort, noNul_trimSpace]
    rfl

theorem sortOrder_holds (n : Int64) : (availabilityFilterSortOrder n).holds = fitsInteger n := by
  show (fitsInteger n && decide (-2147483648 ≤ n.toInt)) = fitsInteger n
  cases hfits : fitsInteger n with
  | false => rfl
  | true =>
    unfold fitsInteger at hfits
    simp only [Bool.and_eq_true, decide_eq_true_eq, Int64.le_iff_toInt_le] at hfits
    have hleast : (-2147483648 : Int64).toInt = -2147483648 := rfl
    rw [hleast] at hfits
    rw [decide_eq_true hfits.1]
    rfl

theorem validatedSortOrder_holds {body : AvailabilityRequest} {current accepted : ValidatedAvailability}
    (hcurrent : fitsInteger current.sortOrder = true)
    (h : validateAvailability body current = .ok accepted) :
    (availabilityFilterSortOrder accepted.sortOrder).holds = body.sortOrder.all fitsInteger := by
  obtain ⟨-, -, -, -, -, hsort⟩ := validateAvailability_eq_ok h
  rw [sortOrder_holds, hsort]
  cases body.sortOrder with
  | none => exact hcurrent
  | some n => rfl

theorem holds_time {text : Option String} (h : IsClock text) : (Handed.time text).holds = true := by
  cases text with
  | none => rfl
  | some v =>
    obtain ⟨m, hm, rfl⟩ := h v rfl
    show (timeOfDay (clockString m)).isSome = true
    rw [timeOfDay_clockString hm]
    rfl

/-- Two times of day that are not the same text are not the same minute. -/
theorem minutes_ne {start stop : Option String} (hstart : IsClock start) (hstop : IsClock stop)
    (hsome : start.isSome = stop.isSome) (hne : start = none ∨ start ≠ stop) :
    (start.isNone || start.bind timeOfDay != stop.bind timeOfDay) = true := by
  cases start with
  | none => rfl
  | some v =>
    cases stop with
    | none => cases hsome
    | some v' =>
      obtain ⟨m, hm, rfl⟩ := hstart v rfl
      obtain ⟨m', hm', rfl⟩ := hstop v' rfl
      have hdiffer : m ≠ m' := by
        rintro rfl
        rcases hne with hnone | hne
        · cases hnone
        · exact hne rfl
      show (timeOfDay (clockString m) != timeOfDay (clockString m')) = true
      rw [timeOfDay_clockString hm, timeOfDay_clockString hm']
      simpa using hdiffer

theorem validated_stored {body : AvailabilityRequest} {current accepted : ValidatedAvailability}
    (hname : body.name = none → (availabilityFilterName current.name).holds = true)
    (hdays : ∀ day ∈ current.weekdays, 1 ≤ day ∧ day ≤ 7) (hstart : IsClock current.startTime)
    (hstop : IsClock current.endTime) (hsort : fitsInteger current.sortOrder = true)
    (h : validateAvailability body current = .ok accepted) :
    accepted.write.stored = (body.name.all noNul && body.sortOrder.all fitsInteger) := by
  obtain ⟨-, -, -, hstartTime, hendTime, -⟩ := validateAvailability_eq_ok h
  have hstart' := patched_isClock hstart hstartTime
  have hstop' := patched_isClock hstop hendTime
  obtain ⟨htogether, hlength, hrestricts⟩ := judge_eq_ok (validateAvailability_judge h)
  have hdays' : (Handed.days accepted.weekdays).holds = true := by
    show accepted.weekdays.all _ = true
    rw [List.all_eq_true]
    intro day hday
    simpa using (validated_weekdays hdays h).1 day hday
  have hcheck : accepted.write.check = true := by
    have hsays : (accepted.onDate.isSome || !accepted.weekdays.isEmpty || accepted.startTime.isSome) =
        true := by
      rw [Bool.or_eq_true, Bool.or_eq_true]
      rcases hrestricts with hdate | hsome | htime
      · exact .inl (.inl hdate)
      · exact .inl (.inr (by simpa using hsome))
      · exact .inr htime
    show (accepted.startTime.isSome == accepted.endTime.isSome && _ && _) = true
    rw [minutes_ne hstart' hstop' htogether hlength, hsays, htogether]
    simp
  unfold Write.stored
  rw [hcheck]
  show ([_, _, _, _, _].all Handed.holds && true) = _
  simp only [List.all_cons, List.all_nil, Bool.and_true, hdays', holds_time hstart', holds_time hstop',
    validatedName_holds hname h, validatedSortOrder_holds hsort h, Bool.true_and]

/-! ## All five -/

theorem createAvailability_stored {body : AvailabilityRequest} {accepted : ValidatedAvailability}
    (haccepted : validateNewAvailability body = .ok accepted) :
    accepted.write.stored = (body.name.all noNul && body.sortOrder.all fitsInteger) := by
  unfold validateNewAvailability at haccepted
  split_ifs at haccepted with hname
  have hnone : IsClock none := fun v hv => by cases hv
  have hgiven : body.name = none → (availabilityFilterName ValidatedAvailability.zero.name).holds = true := by
    intro hmissing
    rw [hmissing] at hname
    exact absurd rfl hname
  apply validated_stored (h := haccepted)
  · exact hgiven
  · exact fun day hday => by cases hday
  · exact hnone
  · exact hnone
  · decide

theorem patchAvailability_stored {f : AvailabilityFilterRow} {body : AvailabilityRequest}
    {accepted : ValidatedAvailability} (hexisting : (StoringRequest.patchAvailability f body).Existing)
    (haccepted : validateAvailability body (Db.scanAvailabilityFilter f).current = .ok accepted) :
    accepted.write.stored = (body.name.all noNul && body.sortOrder.all fitsInteger) := by
  obtain ⟨hcheck, htimes, hnul, hfits⟩ := hexisting
  obtain ⟨⟨hsome, hshort⟩, hdays, -⟩ := hcheck
  have hname : (availabilityFilterName f.name).holds = true := by
    unfold availabilityFilterName
    rw [Handed.holds_text hsome hshort, hnul]
  apply validated_stored (h := haccepted)
  · exact fun _ => hname
  · exact hdays
  · exact isClock_map htimes.start
  · exact isClock_map htimes.stop
  · exact hfits

/-- The database stores what an accepted body hands to it when the body is plain. -/
theorem handed_stored (h : OrderHandlers) {r : StoringRequest} {w : Write} (hexisting : r.Existing)
    (hhanded : r.handed h = .ok w) : w.stored = r.Plain := by
  cases r with
  | addItem orderID userID body =>
    obtain ⟨item, hitem, rfl⟩ := exceptMap_eq_ok hhanded
    exact validateNewItem_stored hitem
  | patchItem body =>
    obtain ⟨change, hchange, rfl⟩ := exceptMap_eq_ok hhanded
    exact validateItemPatch_stored hchange
  | postMessage body =>
    obtain ⟨text, htext, rfl⟩ := exceptMap_eq_ok hhanded
    unfold Write.stored
    rw [List.all_cons, List.all_nil, Bool.and_true, Bool.and_true, validateMessage_holds htext]
    rfl
  | createAvailability body =>
    obtain ⟨accepted, haccepted, rfl⟩ := exceptMap_eq_ok hhanded
    exact createAvailability_stored haccepted
  | patchAvailability f body =>
    obtain ⟨accepted, haccepted, rfl⟩ := exceptMap_eq_ok hhanded
    exact patchAvailability_stored hexisting haccepted

/-- **An accepted body is stored, and answered so, exactly when its text is free of U+0000 and its place in
the list fits four bytes.** -/
theorem stored_iff (h : OrderHandlers) {r : StoringRequest} {w : Write} (hexisting : r.Existing)
    (hhanded : r.handed h = .ok w) : (w.stored = true ∧ r.answer w = .ok ()) ↔ r.Plain = true := by
  have hanswer : (w.stored = true ∧ r.answer w = .ok ()) ↔ w.stored = true := by
    refine and_iff_left_of_imp fun hstored => ?_
    unfold StoringRequest.answer
    rw [if_pos hstored]
    rfl
  rw [hanswer]
  rw [handed_stored h hexisting hhanded]

theorem stored_iff_hello : (StoringRequest.postMessage " hello ").Existing ∧
    (StoringRequest.postMessage " hello ").handed { rt := .ascii, events := false } =
      .ok { values := [orderMessageBody "hello"], check := true } ∧
    ((({ values := [orderMessageBody "hello"], check := true } : Write).stored = true ∧
        (StoringRequest.postMessage " hello ").answer
          { values := [orderMessageBody "hello"], check := true } = .ok ()) ↔
      (StoringRequest.postMessage " hello ").Plain = true) := by
  have hhanded : (StoringRequest.postMessage " hello ").handed { rt := .ascii, events := false } =
      .ok { values := [orderMessageBody "hello"], check := true } := by decide +kernel
  exact ⟨trivial, hhanded, stored_iff { rt := .ascii, events := false }
    (r := .postMessage " hello ") trivial hhanded⟩

/-- A message with U+0000 in it is accepted, refused by the database, and answered as if that were gone. -/
theorem message_refused : ¬ ∀ (h : OrderHandlers) (r : StoringRequest) (w : Write), r.Existing →
    r.handed h = .ok w → w.stored = true ∧ r.answer w ≠ .error (.of codeDatabaseUnavailable) := by
  intro hall
  have hhanded : (StoringRequest.postMessage "a\x00b").handed { rt := .ascii, events := false } =
      .ok { values := [orderMessageBody "a\x00b"], check := true } := by decide +kernel
  obtain ⟨hstored, -⟩ := hall { rt := .ascii, events := false } (.postMessage "a\x00b") _ trivial hhanded
  revert hstored
  decide +kernel

end Doenerstag
