import Doenerstag.Db.AvailabilityFilters
import Doenerstag.Lib.Overlap
import Doenerstag.Lib.Paths

/-!
# Opening hours (`internal/db/openinghours.go`)

`ReplaceOpeningHours` swaps the whole set of a restaurant: in one transaction it deletes the rows that it
finds, and adds the ones it was given. Nothing locks the restaurant, so the `DELETE` finds what is
committed when it runs.

* `replaceOpeningHours` — the transaction; `ListOpeningHours` reads the set back.
* `HoursMove` — what each statement does, by the phase the call is in.
* `hours_replaced` — **when all calls have returned, the hours are those of the call whose `DELETE` was the
  last, and of the calls that had then run theirs and not committed.**
-/

namespace Doenerstag

open ReadCommitted Prog

/-- `model.OpeningPeriod`, as it is submitted -/
structure Model.OpeningPeriod where
  dayOfWeek : Int
  start : String
  stop : String
  deriving DecidableEq, Repr

/-- The weekday and the two times, in minutes. -/
def Model.OpeningPeriod.hours (p : Model.OpeningPeriod) : Option (Int × Int × Int) := do
  let start ← timeOfDay p.start
  let stop ← timeOfDay p.stop
  some (p.dayOfWeek, start, stop)

def OpeningHoursRow.hours (r : OpeningHoursRow) : Int × Int × Int := (r.dayOfWeek, r.startTime, r.endTime)

namespace Db

variable (db : Db)

def hoursOf (restaurantID : UUID) : List OpeningHoursRow :=
  db.openingHours.filter fun r => r.restaurantID == restaurantID

@[simps] def setOpeningHours (rows : List OpeningHoursRow) : Db := { db with openingHours := rows }

/-- `DELETE FROM opening_hours WHERE restaurant_id = …`, of the rows that it has found -/
def deleteHours (found : List UUID) : Db :=
  db.setOpeningHours (db.openingHours.filter fun r => !found.contains r.id)

/-- `INSERT INTO opening_hours`, with its casts, the `CHECK` constraints and the references -/
def insertOpeningHours (restaurantID actor id : UUID) (p : Model.OpeningPeriod) : Except PgError Db :=
  match timeOfDay p.start, timeOfDay p.stop with
  | some start, some stop =>
    if !(1 ≤ p.dayOfWeek && p.dayOfWeek ≤ 7) || start == stop then .error .checkViolation
    else if (db.restaurants.find? fun r => r.id == restaurantID).isNone || (db.userByID actor).isNone then
      .error .foreignKeyViolation
    else if db.openingHours.any fun r => r.id == id then .error .uniqueViolation
    else .ok (db.setOpeningHours (db.openingHours ++
      [{ id, restaurantID, dayOfWeek := p.dayOfWeek, startTime := start, endTime := stop }]))
  | _, _ => .error .invalidDatetime

end Db

inductive HoursStmt where
  | begin
  | clear
  | insert
  | commit
  | list
  deriving DecidableEq, Repr

/-- `ListOpeningHours`, which sorts by weekday and start -/
def listOpeningHours (restaurantID : UUID) : DbProgram HoursStmt (List OpeningHoursRow) :=
  (query .list fun db => (db.hoursOf restaurantID).insertionSort fun a b =>
    a.dayOfWeek < b.dayOfWeek ∨ a.dayOfWeek = b.dayOfWeek ∧ a.startTime ≤ b.startTime).mapError otherError

/-- What `ReplaceOpeningHours` is called with; every period has the id that `uuid.NewV7` draws for it. -/
structure HoursCall where
  restaurantID : UUID
  actor : UUID
  periods : List (UUID × Model.OpeningPeriod)

namespace HoursCall

variable (call : HoursCall)

def insertPeriod (p : UUID × Model.OpeningPeriod) (db : Db) : Except PgError Db :=
  db.insertOpeningHours call.restaurantID call.actor p.1 p.2

/-- The rest of the call, once the old hours are deleted -/
def store (tx : PgTx) : List (UUID × Model.OpeningPeriod) → DbProgram HoursStmt (List OpeningHoursRow)
  | [] => do
    (tx.commit .commit).mapError otherError
    listOpeningHours call.restaurantID
  | p :: rest => do
    let tx ← (tx.insert .insert (call.insertPeriod p)).mapError otherError
    store tx rest

/-- The rest of the call, once the transaction has begun -/
def clear (tx : PgTx) : DbProgram HoursStmt (List OpeningHoursRow) := do
  let tx ← (tx.exec .clear fun view db =>
    .ok (db.deleteHours ((view.hoursOf call.restaurantID).map OpeningHoursRow.id))).mapError otherError
  call.store tx call.periods

end HoursCall

/-- `ReplaceOpeningHours` -/
def replaceOpeningHours (call : HoursCall) : DbProgram HoursStmt (List OpeningHoursRow) := do
  let tx ← (begin .begin).mapError otherError
  call.clear tx

/-! ## One call -/

/-- Where a call stands: once its `DELETE` has run, with the ids of the rows that it has found. -/
inductive HoursPhase where
  | waiting
  | between (found : List UUID)
  | ended
  | listed
  | failed

def HoursPhase.committed : HoursPhase → Bool
  | ended => true
  | listed => true
  | _ => false

section Call

variable (call : HoursCall)

/-- What the transaction has written, when the periods up to here are stored. -/
def HoursCall.writes (found : List UUID) (done : List (UUID × Model.OpeningPeriod)) : List (Db → Except PgError Db) :=
  (fun db => .ok (db.deleteHours found)) :: done.map call.insertPeriod

/-- What is left of a call, by its phase. -/
inductive HoursAt : HoursPhase → DbProgram HoursStmt (List OpeningHoursRow) → Prop where
  | start : HoursAt .waiting (replaceOpeningHours call)
  | begun (began : Time) : HoursAt .waiting (call.clear { began, writes := [] })
  | stored {tx : PgTx} {found : List UUID} (done : List (UUID × Model.OpeningPeriod)) {rest : List (UUID × Model.OpeningPeriod)}
      (periods : call.periods = done ++ rest) (writes : tx.writes = call.writes found done) :
      HoursAt (.between found) (call.store tx rest)
  | committed : HoursAt .ended (listOpeningHours call.restaurantID)
  | listed (rows : List OpeningHoursRow) : HoursAt .listed (.done rows)
  | unlisted (x : DbError) : HoursAt .listed (.fail x)
  | failed (x : DbError) : HoursAt .failed (.fail x)

/-- What a statement of a call does. -/
inductive HoursMove : HoursPhase → HoursStmt → World Db Time → World Db Time → HoursPhase → Prop where
  | quiet {phase : HoursPhase} {l : HoursStmt} (w : World Db Time) (hclear : l ≠ .clear) (hcommit : l ≠ .commit)
      (hlist : l ≠ .list) : HoursMove phase l w w phase
  | clear (w : World Db Time) : HoursMove .waiting .clear w w
      (.between ((w.db.hoursOf call.restaurantID).map OpeningHoursRow.id))
  | commit {found : List UUID} {w : World Db Time} {db : Db}
      (view : (call.writes found call.periods).foldlM (fun db u => u db) w.db = .ok db) :
      HoursMove (.between found) .commit w { w with db } .ended
  | list (w : World Db Time) : HoursMove .ended .list w w .listed
  | failed {phase : HoursPhase} {l : HoursStmt} (w : World Db Time) (hphase : phase.committed = false)
      (hlist : l ≠ .list) : HoursMove phase l w w .failed

variable {call}

/-- A call that has returned has listed its hours, or has failed before. -/
theorem HoursAt.of_result {phase : HoursPhase} {p : DbProgram HoursStmt (List OpeningHoursRow)}
    (h : HoursAt call phase p) {r : Except DbError (List OpeningHoursRow)} (hr : p.result = some r) :
    phase = .listed ∨ phase = .failed := by
  cases h with
  | start => cases hr
  | begun => cases hr
  | @stored tx found done rest periods writes =>
    cases rest with
    | nil => cases hr
    | cons => cases hr
  | committed => cases hr
  | listed => exact .inl rfl
  | unlisted => exact .inl rfl
  | failed => exact .inr rfl

/-- **The phases tell what a call does.** -/
theorem hoursPhases : Phases (fun phase p => ∃ q, p = q.under Outcome.found ∧ HoursAt call phase q)
    (HoursMove call) := by
  refine Phases.under Outcome.found fun {phase l effect next} hat e w => ?_
  have hread : ∀ {β : Type} {l' : HoursStmt} {answer : Outcome → World Db Time → Except (StmtError PgError) β}
      {k : β → DbProgram HoursStmt (List OpeningHoursRow)},
      Prog.step l effect next = (ReadCommitted.read l' answer).mapError otherError >>= k →
      phase.committed = false → l' ≠ .list →
      (∀ b, answer e.found w = .ok b → ∃ phase', HoursAt call phase' (k b) ∧ HoursMove call phase l' w w phase') →
      ∃ phase', HoursAt call phase' (next e.found w) ∧ HoursMove call phase l w (effect e.found w) phase' := by
    intro β l' answer k hp hphase hlist hnext
    obtain ⟨rfl, hstep⟩ := step_of_read hp
    obtain ⟨heffect, hleads⟩ := hstep e.found w
    rw [heffect]
    rcases hleads with ⟨x, -, hfail⟩ | ⟨b, hb, hk⟩
    · exact ⟨.failed, hfail ▸ .failed _, .failed w hphase hlist⟩
    · rw [hk]
      exact hnext b hb
  generalize hp : (Prog.step l effect next : DbProgram HoursStmt (List OpeningHoursRow)) = p at hat
  cases hat with
  | start =>
    refine hread hp rfl (by decide) fun tx htx => ?_
    rw [Outcome.rows_eq_ok htx]
    exact ⟨.waiting, .begun w.now, .quiet w (by decide) (by decide) (by decide)⟩
  | begun began =>
    refine hread hp rfl (by decide) fun tx htx => ?_
    have hstaged : tx = Tx.push { began, writes := [] } fun db =>
        .ok (db.deleteHours ((w.db.hoursOf call.restaurantID).map OpeningHoursRow.id)) := by
      cases e with
      | failure => cases htx
      | ok | noRow =>
        obtain ⟨view, hview, hstage⟩ := Tx.onView_eq_ok htx
        cases hview
        exact Tx.stage_eq_ok _ hstage
    exact ⟨_, .stored [] rfl (congrArg Tx.writes hstaged), .clear w⟩
  | @stored tx found done rest periods writes =>
    cases rest with
    | nil =>
      obtain ⟨rfl, hstep⟩ := step_of_write hp
      rcases hstep e.found w with ⟨x, -, heffect, hfail⟩ | ⟨r, hcommit, heffect, hk⟩
      · rw [heffect, hfail]
        exact ⟨.failed, .failed _, .failed w rfl (by decide)⟩
      · rw [heffect, hk]
        have hview := tx.committed_eq_ok hcommit
        unfold Tx.view at hview
        rw [writes, ← (List.append_nil done), ← periods] at hview
        exact ⟨.ended, .committed, .commit hview⟩
    | cons p rest =>
      refine hread hp rfl (by decide) fun tx' htx => ?_
      have hstaged : tx' = tx.push (call.insertPeriod p) := by
        cases e with
        | failure => cases htx
        | ok | noRow => exact Tx.stage_eq_ok _ htx
      refine ⟨_, .stored (done ++ [p]) ?_ ?_, .quiet w (by decide) (by decide) (by decide)⟩
      · rw [periods, List.append_assoc]
        rfl
      · rw [hstaged, Tx.push, writes]
        simp [HoursCall.writes]
  | committed =>
    obtain ⟨rfl, hstep⟩ := step_of_read (hp.trans (bind_pure (listOpeningHours call.restaurantID)).symm)
    obtain ⟨heffect, hleads⟩ := hstep e.found w
    rw [heffect]
    rcases hleads with ⟨x, -, hfail⟩ | ⟨rows, -, hk⟩
    · exact ⟨.listed, hfail ▸ .unlisted _, .list w⟩
    · exact ⟨.listed, hk ▸ .listed rows, .list w⟩
  | listed => cases hp
  | unlisted => cases hp
  | failed => cases hp

end Call

/-! ## What a call stores -/

/-- The row of a period, if its times can be read. -/
def HoursCall.row (call : HoursCall) (p : UUID × Model.OpeningPeriod) : Option OpeningHoursRow :=
  p.2.hours.map fun h =>
    { id := p.1, restaurantID := call.restaurantID, dayOfWeek := h.1, startTime := h.2.1, endTime := h.2.2 }

def HoursCall.rows (call : HoursCall) : List OpeningHoursRow := call.periods.filterMap call.row

/-- The hours that a call was given -/
def HoursCall.given (call : HoursCall) : List (Option (Int × Int × Int)) :=
  call.periods.map fun p => p.2.hours

section Stored

variable {call : HoursCall} {db db' : Db}

theorem insertPeriod_ok {p : UUID × Model.OpeningPeriod} (h : call.insertPeriod p db = .ok db') :
    ∃ row, call.row p = some row ∧ some row.hours = p.2.hours ∧
      db' = db.setOpeningHours (db.openingHours ++ [row]) := by
  unfold HoursCall.insertPeriod Db.insertOpeningHours at h
  cases hstart : timeOfDay p.2.start with
  | none =>
    rw [hstart] at h
    cases h
  | some start =>
    cases hstop : timeOfDay p.2.stop with
    | none =>
      rw [hstart, hstop] at h
      cases h
    | some stop =>
      have hhours : p.2.hours = some (p.2.dayOfWeek, start, stop) := by
        unfold Model.OpeningPeriod.hours
        rw [hstart, hstop]
        rfl
      rw [hstart, hstop] at h
      dsimp only at h
      split_ifs at h
      cases h
      refine ⟨_, ?_, ?_, rfl⟩
      · rw [HoursCall.row, hhours]
        rfl
      · exact hhours.symm

/-- The rows of the periods are appended. -/
theorem insertPeriods_ok {periods : List (UUID × Model.OpeningPeriod)}
    (h : (periods.map call.insertPeriod).foldlM (fun db u => u db) db = .ok db') :
    db'.openingHours = db.openingHours ++ periods.filterMap call.row ∧
      (periods.filterMap call.row).map (fun r => some r.hours) = periods.map fun p => p.2.hours := by
  induction periods generalizing db with
  | nil =>
    cases h
    exact ⟨(List.append_nil _).symm, rfl⟩
  | cons p rest ih =>
    rw [List.map_cons, List.foldlM_cons] at h
    cases hinsert : call.insertPeriod p db with
    | error x =>
      rw [hinsert] at h
      cases h
    | ok middle =>
      rw [hinsert] at h
      obtain ⟨row, hrow, hhours, rfl⟩ := insertPeriod_ok hinsert
      obtain ⟨hrows, hgiven⟩ := ih h
      rw [List.filterMap_cons_some hrow, List.map_cons, List.map_cons, hgiven, hhours, hrows]
      exact ⟨by simp, rfl⟩

/-- **A call that commits** takes away what it has found, and stores what it was given. -/
theorem writes_ok {found : List UUID}
    (h : (call.writes found call.periods).foldlM (fun db u => u db) db = .ok db') :
    db'.hoursOf call.restaurantID =
        ((db.hoursOf call.restaurantID).filter fun r => !found.contains r.id) ++ call.rows ∧
      call.rows.map (fun r => some r.hours) = call.given := by
  have hinserts : (call.periods.map call.insertPeriod).foldlM (fun db u => u db) (db.deleteHours found) = .ok db' := h
  obtain ⟨hrows, hgiven⟩ := insertPeriods_ok hinserts
  refine ⟨?_, hgiven⟩
  have hmine : ∀ r ∈ call.rows, (r.restaurantID == call.restaurantID) = true := by
    intro r hr
    obtain ⟨p, -, hrow⟩ := List.mem_filterMap.mp hr
    obtain ⟨h, -, rfl⟩ := Option.map_eq_some_iff.mp hrow
    exact beq_self_eq_true _
  unfold Db.hoursOf
  rw [hrows, List.filter_append]
  congr 1
  · unfold Db.deleteHours
    rw [Db.setOpeningHours_openingHours, List.filter_filter, List.filter_filter]
    exact List.filter_congr fun r _ => Bool.and_comm _ _
  · exact List.filter_eq_self.mpr hmine

end Stored

/-! ## Any number of calls -/

section Calls

variable {ι : Type} (calls : ι → HoursCall) (restaurantID : UUID) (keep : ι → Bool) (original : List OpeningHoursRow)

/-- The calls are about one restaurant, and every period has an id of its own, which no row has yet. -/
structure HoursCalls : Prop where
  restaurant : ∀ i, (calls i).restaurantID = restaurantID
  distinct : ∀ i j, i ≠ j → ∀ p ∈ (calls i).periods, ∀ q ∈ (calls j).periods, p.1 ≠ q.1
  new : ∀ i, ∀ p ∈ (calls i).periods, ∀ r ∈ original, p.1 ≠ r.id

/-- Those that are kept do not fail, and the others do not commit. -/
def KeptHours (phases : ι → HoursPhase) : Prop :=
  ∀ i, if keep i then phases i ≠ .failed else (phases i).committed = false

/-- The rows `left` by the last kept `DELETE`, then those of the calls that overlap it and have committed. -/
structure HoursHeld (under overlap : List ι) (phases : ι → HoursPhase) (left : List OpeningHoursRow)
    (done : List ι) (rows : List OpeningHoursRow) : Prop where
  under_iff : ∀ i, i ∈ under ↔ keep i = true ∧ ∃ found, phases i = .between found
  under_nodup : under.Nodup
  overlap_nodup : overlap.Nodup
  kept : ∀ i ∈ overlap, keep i = true
  fresh : ∀ i, (phases i).committed = false → ∀ p ∈ (calls i).periods, (∀ r ∈ rows, p.1 ≠ r.id) ∧
    ∀ j found, keep j = true → phases j = .between found → p.1 ∉ found
  given : ∀ i, (phases i).committed = true →
    (calls i).rows.map (fun r => some r.hours) = (calls i).given
  stored : rows = left ++ done.flatMap fun i => (calls i).rows
  done_perm : done.Perm (overlap.filter fun i => (phases i).committed)
  apart : ∀ i ∈ done, ∀ r ∈ (calls i).rows, ∀ j found, keep j = true → phases j = .between found → r.id ∉ found
  left_found : ∀ i ∈ overlap.head?, ∀ r ∈ left, ∃ found, phases i = .between found ∧ r.id ∈ found
  left_original : overlap = [] → left = original

/-- The invariant of the calls: it speaks of those that are kept. -/
structure HoursInvariant [DecidableEq ι] (movers : List (Mover ι HoursStmt)) (phases : ι → HoursPhase)
    (w : World Db Time) : Prop where
  took_list : ∀ i, took .list movers i = true ↔ phases i = .listed
  held : KeptHours keep phases → ∃ left done, HoursHeld calls keep original
    (underway .clear .commit (among keep movers)) (overlapping .clear .commit (among keep movers))
    phases left done (w.db.hoursOf restaurantID)

variable {calls restaurantID keep original}

theorem HoursCall.mem_rows {call : HoursCall} {r : OpeningHoursRow} (h : r ∈ call.rows) :
    ∃ p ∈ call.periods, r.id = p.1 := by
  obtain ⟨p, hp, hrow⟩ := List.mem_filterMap.mp h
  obtain ⟨h, -, rfl⟩ := Option.map_eq_some_iff.mp hrow
  exact ⟨p, hp, rfl⟩

/-- Before the first move. -/
theorem HoursHeld.start (hcalls : HoursCalls calls restaurantID original) :
    HoursHeld calls keep original [] [] (fun _ => .waiting) original [] original where
  under_iff := fun i => ⟨(fun h => by cases h), (fun ⟨_, _, h⟩ => by cases h)⟩
  under_nodup := .nil
  overlap_nodup := .nil
  kept := fun _ h => by cases h
  fresh := fun i _ p hp => ⟨hcalls.new i p hp, (fun _ _ _ h => by cases h)⟩
  given := fun _ h => by cases h
  stored := (List.append_nil _).symm
  done_perm := .refl _
  apart := fun _ h => by cases h
  left_found := fun _ h => by cases h
  left_original := fun _ => rfl

namespace HoursHeld

variable [DecidableEq ι] {under overlap : List ι} {phases : ι → HoursPhase} {left rows : List OpeningHoursRow} {done : List ι}
  {i : ι} {phase : HoursPhase}

/-- A move that commits nothing, of a call that is not under way or not kept. -/
theorem other (h : HoursHeld calls keep original under overlap phases left done rows)
    (hcommitted : phase.committed = (phases i).committed)
    (hkept : keep i = true → (∀ found, phases i ≠ .between found) ∧ ∀ found, phase ≠ .between found) :
    HoursHeld calls keep original under overlap (Function.update phases i phase) left done rows := by
  have hsame : ∀ j, (Function.update phases i phase j).committed = (phases j).committed := by
    intro j
    by_cases hj : j = i
    · rw [hj, Function.update_self, hcommitted]
    · rw [Function.update_of_ne hj]
  have hbetween : ∀ j found, keep j = true →
      (Function.update phases i phase j = .between found ↔ phases j = .between found) := by
    intro j found hkeep
    by_cases hj : j = i
    · subst hj
      obtain ⟨hold, hnew⟩ := hkept hkeep
      rw [Function.update_self]
      exact ⟨fun hphase => absurd hphase (hnew found), fun hphase => absurd hphase (hold found)⟩
    · rw [Function.update_of_ne hj]
  refine { h with under_iff := ?_, fresh := ?_, given := ?_, done_perm := ?_, apart := ?_, left_found := ?_ }
  · intro j
    rw [h.under_iff]
    exact and_congr_right fun hkeep => exists_congr fun found => (hbetween j found hkeep).symm
  · intro j hj p hp
    obtain ⟨hrows, hfound⟩ := h.fresh j (hsame j ▸ hj) p hp
    exact ⟨hrows, fun k found hk hphase => hfound k found hk ((hbetween k found hk).mp hphase)⟩
  · exact fun j hj => h.given j (hsame j ▸ hj)
  · rw [List.filter_congr fun j _ => hsame j]
    exact h.done_perm
  · exact fun j hj r hr k found hk hphase => h.apart j hj r hr k found hk ((hbetween k found hk).mp hphase)
  · intro j hj r hr
    obtain ⟨found, hphase, hmem⟩ := h.left_found j hj r hr
    exact ⟨found, (hbetween j found (h.kept j (List.mem_of_mem_head? hj))).mpr hphase, hmem⟩

/-- **A kept `DELETE`** finds all that is stored. -/
theorem clear (h : HoursHeld calls keep original under overlap phases left done rows) (hkeep : keep i = true)
    (hi : phases i = .waiting) :
    HoursHeld calls keep original (i :: under) (i :: under)
      (Function.update phases i (.between (rows.map OpeningHoursRow.id))) rows [] rows := by
  have hnot : i ∉ under := by
    intro hmem
    obtain ⟨-, found, hphase⟩ := (h.under_iff i).mp hmem
    cases hi.symm.trans hphase
  have hnodup : (i :: under).Nodup := List.nodup_cons.mpr ⟨hnot, h.under_nodup⟩
  have hcommitted : ∀ j, (Function.update phases i (.between (rows.map OpeningHoursRow.id)) j).committed =
      (phases j).committed := by
    intro j
    by_cases hj : j = i
    · rw [hj, Function.update_self, hi]
      rfl
    · rw [Function.update_of_ne hj]
  refine
    { under_iff := ?_, under_nodup := hnodup, overlap_nodup := hnodup, kept := ?_, fresh := ?_, given := ?_
      stored := (List.append_nil _).symm, done_perm := ?_, apart := fun _ hmem => by cases hmem
      left_found := ?_, left_original := fun hnil => by cases hnil }
  · intro j
    by_cases hj : j = i
    · subst hj
      rw [Function.update_self]
      exact ⟨fun _ => ⟨hkeep, _, rfl⟩, fun _ => List.mem_cons_self⟩
    · rw [Function.update_of_ne hj, List.mem_cons, or_iff_right hj]
      exact h.under_iff j
  · intro j hj
    rcases List.mem_cons.mp hj with rfl | hj
    · exact hkeep
    · exact ((h.under_iff j).mp hj).1
  · intro j hj p hp
    obtain ⟨hrows, hfound⟩ := h.fresh j (hcommitted j ▸ hj) p hp
    refine ⟨hrows, fun k found hk hphase => ?_⟩
    by_cases hki : k = i
    · subst hki
      rw [Function.update_self] at hphase
      cases hphase
      intro hmem
      obtain ⟨r, hr, hid⟩ := List.mem_map.mp hmem
      exact hrows r hr hid.symm
    · rw [Function.update_of_ne hki] at hphase
      exact hfound k found hk hphase
  · exact fun j hj => h.given j (hcommitted j ▸ hj)
  · -- nobody who is under way has committed
    rw [List.filter_congr fun j _ => hcommitted j, List.filter_eq_nil_iff.mpr]
    intro j hj hdone
    rcases List.mem_cons.mp hj with rfl | hj
    · rw [hi] at hdone
      cases hdone
    · obtain ⟨-, found, hphase⟩ := (h.under_iff j).mp hj
      rw [hphase] at hdone
      cases hdone
  · intro j hj r hr
    cases hj
    exact ⟨_, Function.update_self .., List.mem_map_of_mem hr⟩

/-- **A call commits**: what it has found goes, and what it was given is there. -/
theorem commit (h : HoursHeld calls keep original under overlap phases left done rows)
    (hcalls : HoursCalls calls restaurantID original) {found : List UUID} (hkeep : keep i = true)
    (hi : phases i = .between found) (hmem : i ∈ overlap)
    (hgiven : (calls i).rows.map (fun r => some r.hours) = (calls i).given) :
    HoursHeld calls keep original (under.filter (· ≠ i)) overlap (Function.update phases i .ended)
      (left.filter fun r => !found.contains r.id) (done ++ [i])
      ((rows.filter fun r => !found.contains r.id) ++ (calls i).rows) := by
  have hbetween : ∀ j found', Function.update phases i .ended j = .between found' →
      j ≠ i ∧ phases j = .between found' := by
    intro j found' hphase
    by_cases hj : j = i
    · rw [hj, Function.update_self] at hphase
      cases hphase
    · rw [Function.update_of_ne hj] at hphase
      exact ⟨hj, hphase⟩
  have hcommitted : ∀ j, (Function.update phases i .ended j).committed = (decide (j = i) || (phases j).committed) := by
    intro j
    by_cases hj : j = i
    · rw [hj, Function.update_self, decide_eq_true rfl]
      rfl
    · rw [Function.update_of_ne hj, decide_eq_false hj, Bool.false_or]
  refine
    { under_iff := ?_, under_nodup := h.under_nodup.filter _, overlap_nodup := h.overlap_nodup, kept := h.kept
      fresh := ?_, given := ?_, stored := ?_, done_perm := ?_, apart := ?_, left_found := ?_
      left_original := ?_ }
  · intro j
    rw [List.mem_filter, h.under_iff, decide_eq_true_eq]
    constructor
    · rintro ⟨⟨hk, found', hphase⟩, hne⟩
      exact ⟨hk, found', (Function.update_of_ne hne ..).trans hphase⟩
    · rintro ⟨hk, found', hphase⟩
      obtain ⟨hne, hold⟩ := hbetween j found' hphase
      exact ⟨⟨hk, found', hold⟩, hne⟩
  · intro j hj p hp
    rw [hcommitted, Bool.or_eq_false_iff, decide_eq_false_iff_not] at hj
    obtain ⟨hrows, hfound⟩ := h.fresh j hj.2 p hp
    refine ⟨fun r hr => ?_, fun k found' hk hphase => hfound k found' hk (hbetween k found' hphase).2⟩
    rcases List.mem_append.mp hr with hr | hr
    · exact hrows r (List.mem_filter.mp hr).1
    · obtain ⟨q, hq, hid⟩ := HoursCall.mem_rows hr
      rw [hid]
      exact hcalls.distinct j i hj.1 p hp q hq
  · intro j hj
    rw [hcommitted, Bool.or_eq_true, decide_eq_true_eq] at hj
    rcases hj with rfl | hj
    · exact hgiven
    · exact h.given j hj
  · -- what overlapping calls have stored is not among what this one has found
    rw [h.stored, List.filter_append, List.flatMap_append, List.append_assoc]
    congr 2
    · refine List.filter_eq_self.mpr fun r hr => ?_
      obtain ⟨j, hj, hr⟩ := List.mem_flatMap.mp hr
      rw [Bool.not_eq_true', List.contains_eq_mem, decide_eq_false_iff_not]
      exact h.apart j hj r hr i found hkeep hi
    · rw [List.flatMap_singleton]
  · have hdone : ∀ j, j ∈ done ↔ j ∈ overlap ∧ (phases j).committed = true := by
      intro j
      rw [h.done_perm.mem_iff, List.mem_filter]
    have hnew : i ∉ done := by
      intro hdone'
      have hcommitted' := ((hdone i).mp hdone').2
      rw [hi] at hcommitted'
      cases hcommitted'
    have hnodup : done.Nodup := h.done_perm.nodup_iff.mpr (h.overlap_nodup.filter _)
    refine (List.perm_ext_iff_of_nodup ?_ (h.overlap_nodup.filter _)).mpr fun j => ?_
    · exact List.nodup_append.mpr ⟨hnodup, List.nodup_singleton i, fun j hj k hk hjk =>
        hnew (List.mem_singleton.mp hk ▸ hjk ▸ hj)⟩
    · rw [List.mem_append, List.mem_singleton, List.mem_filter, hcommitted, hdone, Bool.or_eq_true,
        decide_eq_true_eq]
      constructor
      · rintro (⟨hj, hold⟩ | rfl)
        · exact ⟨hj, .inr hold⟩
        · exact ⟨hmem, .inl rfl⟩
      · rintro ⟨hj, rfl | hold⟩
        · exact .inr rfl
        · exact .inl ⟨hj, hold⟩
  · intro j hj r hr k found' hk hphase
    obtain ⟨hne, hold⟩ := hbetween k found' hphase
    rcases List.mem_append.mp hj with hj | hj
    · exact h.apart j hj r hr k found' hk hold
    · rw [List.mem_singleton] at hj
      subst hj
      obtain ⟨q, hq, hid⟩ := HoursCall.mem_rows hr
      rw [hid]
      exact (h.fresh j (by rw [hi]; rfl) q hq).2 k found' hk hold
  · intro j hj r hr
    obtain ⟨hr, hnot⟩ := List.mem_filter.mp hr
    obtain ⟨found', hphase, hin⟩ := h.left_found j hj r hr
    have hne : j ≠ i := by
      rintro rfl
      rw [hi] at hphase
      cases hphase
      rw [Bool.not_eq_true', List.contains_eq_mem, decide_eq_false_iff_not] at hnot
      exact hnot hin
    exact ⟨found', (Function.update_of_ne hne ..).trans hphase, hin⟩
  · intro hnil
    rw [hnil] at hmem
    cases hmem

end HoursHeld

/-- The moves of a call that is not kept commit nothing, and a kept call has not failed before. -/
theorem KeptHours.before [DecidableEq ι] {phases : ι → HoursPhase} {i : ι} {call : HoursCall} {l : HoursStmt}
    {w w' : World Db Time} {phase : HoursPhase} (h : KeptHours keep (Function.update phases i phase))
    (move : HoursMove call (phases i) l w w' phase) : KeptHours keep phases := by
  intro j
  have hj := h j
  by_cases hji : j = i
  · subst hji
    rw [Function.update_self] at hj
    split_ifs at hj ⊢ with hkeep
    · intro hfailed
      rw [hfailed] at move
      cases move with
      | quiet => exact hj rfl
      | failed => exact hj rfl
    · generalize phases j = old at move
      cases move with
      | quiet => exact hj
      | clear => rfl
      | commit => rfl
      | list => cases hj
      | failed _ hphase => exact hphase
  · rw [Function.update_of_ne hji] at hj
    exact hj

/-- **A move keeps the invariant.** -/
theorem HoursInvariant.proc [DecidableEq ι] {movers : List (Mover ι HoursStmt)} {phases : ι → HoursPhase}
    {w w' : World Db Time} {i : ι} {l : HoursStmt} {phase : HoursPhase}
    (h : HoursInvariant calls restaurantID keep original movers phases w)
    (hcalls : HoursCalls calls restaurantID original) (move : HoursMove (calls i) (phases i) l w w' phase) :
    HoursInvariant calls restaurantID keep original (.proc i l :: movers) (Function.update phases i phase) w' where
  took_list := by
    intro j
    by_cases hji : j = i
    · subst hji
      have hnow := h.took_list j
      have hnot : ∀ l', l' ≠ .list → took .list (.proc j l' :: movers) j = took .list movers j :=
        fun l' hl => took_other fun heq => hl heq.2
      rw [Function.update_self]
      generalize phases j = old at move hnow
      cases move with
      | list => exact ⟨fun _ => rfl, fun _ => took_self⟩
      | quiet _ _ _ hlist => exact (hnot _ hlist) ▸ hnow
      | clear =>
        rw [hnot _ (by decide), hnow]
        exact ⟨(fun heq => by cases heq), (fun heq => by cases heq)⟩
      | commit =>
        rw [hnot _ (by decide), hnow]
        exact ⟨(fun heq => by cases heq), (fun heq => by cases heq)⟩
      | failed _ hphase hlist =>
        rw [hnot _ hlist, hnow]
        exact ⟨(fun heq => by rw [heq] at hphase; cases hphase), (fun heq => by cases heq)⟩
    · rw [Function.update_of_ne hji, took_other fun hl => hji hl.1.symm]
      exact h.took_list j
  held := by
    intro hkept
    obtain ⟨left, done, hheld⟩ := h.held (hkept.before move)
    have hold := hkept.before move i
    have hnew := hkept i
    rw [Function.update_self] at hnew
    cases hkeep : keep i with
    | false =>
      rw [if_neg (Bool.eq_false_iff.mp hkeep)] at hold hnew
      rw [among_other hkeep]
      refine ⟨left, done, ?_⟩
      have hsame : w'.db.hoursOf restaurantID = w.db.hoursOf restaurantID := by
        generalize phases i = old at move
        cases move with
        | quiet => rfl
        | clear => rfl
        | commit => cases hnew
        | list => rfl
        | failed => rfl
      rw [hsame]
      exact hheld.other (hnew.trans hold.symm) fun htrue => absurd (hkeep.symm.trans htrue) (by decide)
    | true =>
      rw [if_pos hkeep] at hnew
      rw [among_kept hkeep]
      generalize hphase : phases i = old at move
      cases move with
      | quiet _ hclear hcommit hlist =>
        rw [underway_other hclear hcommit, overlapping_other hclear, ← hphase, Function.update_eq_self]
        exact ⟨left, done, hheld⟩
      | clear =>
        rw [underway_first, overlapping_first, hcalls.restaurant]
        exact ⟨_, _, hheld.clear hkeep hphase⟩
      | @commit found _ db view =>
        obtain ⟨hrows, hgiven⟩ := writes_ok view
        rw [hcalls.restaurant] at hrows
        rw [underway_last (by decide), overlapping_other (by decide)]
        dsimp only
        rw [hrows]
        have hmem : i ∈ underway .clear .commit (among keep movers) :=
          (hheld.under_iff i).mpr ⟨hkeep, found, hphase⟩
        exact ⟨_, _, hheld.commit hcalls hkeep hphase (mem_overlapping_of_underway hmem) hgiven⟩
      | list =>
        rw [underway_other (by decide) (by decide), overlapping_other (by decide)]
        refine ⟨left, done, hheld.other (hphase ▸ rfl) fun _ => ⟨fun found => ?_, fun found => ?_⟩⟩
        · rw [hphase]
          exact fun heq => by cases heq
        · exact fun heq => by cases heq
      | failed => exact absurd rfl hnew

/-- The hours that are there when all calls have returned: those of the calls that overlap the last `DELETE`,
among the calls whose transactions have committed. -/
def hoursLeft [DecidableEq ι] (calls : ι → HoursCall) (original : List OpeningHoursRow)
    (movers : List (Mover ι HoursStmt)) : List (Option (Int × Int × Int)) :=
  match overlapping .clear .commit (among (took .list movers) movers) with
  | [] => original.map fun r => some r.hours
  | i :: others => (i :: others).flatMap fun j => (calls j).given

/-- **When all calls have returned**, the hours are those. -/
theorem hours_replaced [DecidableEq ι] {Env : World Db Time → World Db Time → Prop} {w : World Db Time}
    {moves : List (Move ι HoursStmt (World Db Time))}
    {c : Config ι HoursStmt Outcome (World Db Time) DbError (List OpeningHoursRow)}
    (hcalls : HoursCalls calls restaurantID (w.db.hoursOf restaurantID))
    (henv : ∀ w w', Env w w' → w'.db.hoursOf restaurantID = w.db.hoursOf restaurantID)
    (h : History Env { state := w, procs := fun i => (replaceOpeningHours (calls i)).under Outcome.found } moves c)
    (hreturned : ∀ i, ∃ r, (c.procs i).result = some r) :
    ((c.state.db.hoursOf restaurantID).map fun r => some r.hours).Perm
      (hoursLeft calls (w.db.hoursOf restaurantID) (moves.map Move.mover)) := by
  obtain ⟨phases, hat, hinv⟩ := h.phases
    (J := HoursInvariant calls restaurantID (took .list (moves.map Move.mover)) (w.db.hoursOf restaurantID))
    (fun i => hoursPhases) (fun i => ⟨_, rfl, .start⟩)
    { took_list := fun i => ⟨(fun heq => by cases heq), (fun heq => by cases heq)⟩
      held := fun _ => ⟨_, _, .start hcalls⟩ }
    (fun movers phases s i l s' phase hinv move => hinv.proc hcalls move)
    (fun movers phases s s' hinv change =>
      { took_list := hinv.took_list
        held := fun hkept => (henv s s' change).symm ▸ hinv.held hkept })
  have hended : ∀ i, phases i = .listed ∨ phases i = .failed := by
    intro i
    obtain ⟨q, hq, hphase⟩ := hat i
    obtain ⟨r, hr⟩ := hreturned i
    rw [hq, result_under] at hr
    exact hphase.of_result hr
  have hkept : KeptHours (took .list (moves.map Move.mover)) phases := by
    intro i
    split_ifs with htook
    · rw [(hinv.took_list i).mp htook]
      exact fun heq => by cases heq
    · rw [(hended i).resolve_left fun hlisted => htook ((hinv.took_list i).mpr hlisted)]
      rfl
  obtain ⟨left, done, hheld⟩ := hinv.held hkept
  have hlisted : ∀ i ∈ overlapping .clear .commit (among (took .list (moves.map Move.mover)) (moves.map Move.mover)),
      phases i = .listed := fun i hi => (hinv.took_list i).mp (hheld.kept i hi)
  rw [hheld.stored]
  unfold hoursLeft
  cases hT : overlapping .clear .commit (among (took .list (moves.map Move.mover)) (moves.map Move.mover)) with
  | nil =>
    have hdone := hheld.done_perm
    rw [hT] at hdone
    rw [hdone.eq_nil, hheld.left_original hT]
    simp
  | cons i others =>
    rw [hT] at hlisted
    have hleft : left = [] := by
      refine List.eq_nil_iff_forall_not_mem.mpr fun r hr => ?_
      obtain ⟨found, hphase, -⟩ := hheld.left_found i (by rw [hT]; rfl) r hr
      rw [hlisted i List.mem_cons_self] at hphase
      cases hphase
    have hdone : done.Perm (i :: others) := by
      have hperm := hheld.done_perm
      rw [hT, List.filter_eq_self.mpr fun j hj => by rw [hlisted j hj]; rfl] at hperm
      exact hperm
    have hgiven : ∀ j ∈ done, (calls j).rows.map (fun r => some r.hours) = (calls j).given := by
      intro j hj
      refine hheld.given j ?_
      rw [hlisted j (hdone.mem_iff.mp hj)]
      rfl
    rw [hleft, List.nil_append, List.map_flatMap, List.flatMap_congr hgiven]
    exact hdone.flatMap_right _

end Calls

end Doenerstag
