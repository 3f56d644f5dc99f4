import Doenerstag.Api.JobRequests

/-!
# What the draw does (`internal/db/orderdraw.go`)

* `DrawnFrom` — an order before and after the draw.
* `drawnFoodOrder_spec` — what the statement does to one row.
* `drawJobs_spec` — **what a whole run does**, whoever is picked, and that a second run does nothing.
-/

namespace Doenerstag

open ReadCommitted Prog

section Statement

variable (db : Db) (moment clock : Time)

/-- The draw of the order is due. -/
def DrawDue (o : FoodOrderRow) : Prop := o.jobsDrawn = false ∧ o.deadlineAt ≤ moment

/-- Somebody who can be sent: a person with an item in that very order. -/
def Eligible (o : FoodOrderRow) (person : UUID) : Prop :=
  person ≠ deletedUserID ∧ ∃ i ∈ db.orderItems, i.orderID = o.id ∧ i.userID = person

/-- The row of an order that was drawn. Both jobs are told by `Job`. -/
structure DrawnFrom (o o' : FoodOrderRow) : Prop where
  drawn : o'.jobsDrawn = true
  held : ∀ job : Job, job.holder o ≠ none → job.holder o' = job.holder o ∧ job.drawn o' = false
  vacant : (∃ person, Eligible db o person ∧
      ∀ job : Job, job.holder o = none → job.holder o' = some person ∧ job.drawn o' = true) ∨
    (∀ person, ¬ Eligible db o person) ∧
      ∀ job : Job, job.holder o = none → job.holder o' = none ∧ job.drawn o' = false
  /-- nothing else but the stamp of the trigger -/
  others : o' = { o with
    jobsDrawn := o'.jobsDrawn, moneyCollectorDrawn := o'.moneyCollectorDrawn
    pickupPersonDrawn := o'.pickupPersonDrawn, moneyCollectorID := o'.moneyCollectorID
    pickupPersonID := o'.pickupPersonID, updatedAt := pgTime clock }

/-- A vacant job was filled. -/
def Filled (o o' : FoodOrderRow) : Prop := ∃ job : Job, job.holder o = none ∧ job.holder o' ≠ none

/-- **What the draw does to a database**: row by row, and with the orders it answers. -/
structure Draws (db' : Db) (filled : List UUID) : Prop where
  rows : List.Forall₂ (fun o o' => (DrawDue moment o → DrawnFrom db clock o o') ∧
    (¬ DrawDue moment o → o' = o)) db.foodOrders db'.foodOrders
  others : db' = db.setFoodOrders db'.foodOrders
  answered : ∀ id, id ∈ filled ↔
    ∃ p ∈ db.foodOrders.zip db'.foodOrders, p.1.id = id ∧ Filled p.1 p.2

end Statement

/-! ## One row -/

section Row

variable {db : Db} {choice : DrawChoice} {stamp clock : Time} {o : FoodOrderRow}

theorem le_floor_iff {t deadline : Int} (hexact : deadline - deadline % 1000 = deadline) :
    deadline ≤ t - t % 1000 ↔ deadline ≤ t := by omega

/-- A deadline of whole microseconds has passed when it has passed at the last of them. -/
theorem le_pgTime_iff {t deadline : Time} (hexact : pgTime deadline = deadline) :
    deadline ≤ pgTime t ↔ deadline ≤ t := le_floor_iff hexact

theorem drawDue_iff (hfree : choice.locked o.id = false) (hexact : pgTime o.deadlineAt = o.deadlineAt) :
    Db.drawDue choice stamp o = true ↔ DrawDue stamp o := by
  unfold Db.drawDue DrawDue
  rw [hfree]
  simp only [Bool.and_eq_true, Bool.not_eq_true', decide_eq_true_eq, Bool.not_false, and_true,
    le_pgTime_iff hexact]

theorem mem_drawPeople {person : UUID} : person ∈ db.drawPeople o ↔
    (o.moneyCollectorID = none ∨ o.pickupPersonID = none) ∧ Eligible db o person := by
  unfold Db.drawPeople Eligible
  split_ifs with hvacant
  · rw [Bool.or_eq_true, Option.isNone_iff_eq_none, Option.isNone_iff_eq_none] at hvacant
    rw [List.mem_dedup, List.mem_map]
    simp only [List.mem_filter, Bool.and_eq_true, beq_iff_eq, bne_iff_ne, hvacant, true_and]
    constructor
    · rintro ⟨i, ⟨hi, horder, hne⟩, rfl⟩
      exact ⟨hne, i, hi, horder, rfl⟩
    · rintro ⟨hne, i, hi, horder, rfl⟩
      exact ⟨i, ⟨hi, horder, hne⟩, rfl⟩
  · rw [Bool.or_eq_true, Option.isNone_iff_eq_none, Option.isNone_iff_eq_none] at hvacant
    exact iff_of_false List.not_mem_nil fun h => hvacant h.1

/-- Somebody is picked if there is anybody. -/
theorem drawPicked_eq_none : db.drawPicked choice o = none ↔ db.drawPeople o = [] := by
  unfold Db.drawPicked
  rw [List.getElem?_eq_none_iff]
  constructor
  · intro hlength
    by_contra hne
    have hpos := List.length_pos_of_ne_nil hne
    exact absurd (Nat.mod_lt (choice.pick o.id) hpos) (by omega)
  · intro hnil
    rw [hnil]
    exact Nat.zero_le _

theorem mem_of_drawPicked {person : UUID} (h : db.drawPicked choice o = some person) :
    person ∈ db.drawPeople o :=
  List.mem_of_getElem? h

/-- **The draw of one order** -/
theorem draw_drawnFrom : DrawnFrom db clock o (o.draw (db.drawPicked choice o) clock) where
  drawn := rfl
  held := by
    intro job hheld
    obtain ⟨person, hperson⟩ := Option.ne_none_iff_exists'.mp hheld
    unfold FoodOrderRow.draw
    cases job with
    | food =>
      unfold Job.holder at hperson
      simp only [Job.holder, Job.drawn, hperson, Option.isNone_some, Bool.false_and]
      trivial
    | money =>
      unfold Job.holder at hperson
      simp only [Job.holder, Job.drawn, hperson, Option.isNone_some, Bool.false_and]
      trivial
  vacant := by
    cases hpicked : db.drawPicked choice o with
    | some person =>
      refine .inl ⟨person, (mem_drawPeople.mp (mem_of_drawPicked hpicked)).2, fun job hvacant => ?_⟩
      unfold FoodOrderRow.draw
      cases job with
      | food =>
        unfold Job.holder at hvacant
        simp only [Job.holder, Job.drawn, hvacant, Option.none_or, Option.isNone_none, Option.isSome_some]
        trivial
      | money =>
        unfold Job.holder at hvacant
        simp only [Job.holder, Job.drawn, hvacant, Option.none_or, Option.isNone_none, Option.isSome_some]
        trivial
    | none =>
      have hnobody := drawPicked_eq_none.mp hpicked
      by_cases hvacancy : o.moneyCollectorID = none ∨ o.pickupPersonID = none
      · refine .inr ⟨fun person heligible => ?_, fun job hvacant => ?_⟩
        · have hmem := mem_drawPeople.mpr ⟨hvacancy, heligible⟩
          rw [hnobody] at hmem
          cases hmem
        · unfold FoodOrderRow.draw
          cases job with
          | food =>
            unfold Job.holder at hvacant
            simp only [Job.holder, Job.drawn, hvacant, Option.none_or, Option.isSome_none, Bool.and_false]
            trivial
          | money =>
            unfold Job.holder at hvacant
            simp only [Job.holder, Job.drawn, hvacant, Option.none_or, Option.isSome_none, Bool.and_false]
            trivial
      · -- there is no vacant job to be told about
        have hfull : ∀ job : Job, job.holder o ≠ none := by
          intro job
          cases job with
          | food => exact fun h => hvacancy (.inr h)
          | money => exact fun h => hvacancy (.inl h)
        by_cases hanybody : ∃ person, Eligible db o person
        · obtain ⟨person, heligible⟩ := hanybody
          exact .inl ⟨person, heligible, fun job h => absurd h (hfull job)⟩
        · exact .inr ⟨not_exists.mp hanybody, fun job h => absurd h (hfull job)⟩
  others := rfl

/-- A vacant job is filled if and only if somebody is picked for it. -/
theorem filled_draw_iff : Filled o (o.draw (db.drawPicked choice o) clock) ↔
    (db.drawPicked choice o).isSome = true := by
  cases hpicked : db.drawPicked choice o with
  | some person =>
    refine iff_of_true ?_ rfl
    obtain ⟨hvacancy, -⟩ := mem_drawPeople.mp (mem_of_drawPicked hpicked)
    rcases hvacancy with hmoney | hfood
    · refine ⟨.money, hmoney, ?_⟩
      show o.moneyCollectorID.or (some person) ≠ none
      rw [hmoney]
      exact Option.some_ne_none person
    · refine ⟨.food, hfood, ?_⟩
      show o.pickupPersonID.or (some person) ≠ none
      rw [hfood]
      exact Option.some_ne_none person
  | none =>
    refine iff_of_false ?_ Bool.false_ne_true
    rintro ⟨job, hvacant, hfilled⟩
    cases job with
    | food => exact hfilled ((congrArg (Option.or · none) hvacant).trans rfl)
    | money => exact hfilled ((congrArg (Option.or · none) hvacant).trans rfl)

theorem drawnFoodOrder_due (hdue : Db.drawDue choice stamp o = true) :
    db.drawnFoodOrder choice stamp clock o = o.draw (db.drawPicked choice o) clock := if_pos hdue

theorem drawnFoodOrder_other (hdue : Db.drawDue choice stamp o = false) :
    db.drawnFoodOrder choice stamp clock o = o := if_neg (by rw [hdue]; exact Bool.false_ne_true)

/-- What was drawn is not due again. -/
theorem drawDue_drawnFoodOrder {choice' : DrawChoice} (hfree : choice.locked o.id = false) :
    Db.drawDue choice' stamp (db.drawnFoodOrder choice stamp clock o) = false := by
  cases hdue : Db.drawDue choice stamp o with
  | true =>
    rw [drawnFoodOrder_due hdue]
    rfl
  | false =>
    rw [drawnFoodOrder_other hdue]
    unfold Db.drawDue at hdue ⊢
    rw [hfree, Bool.not_false, Bool.and_true] at hdue
    rw [hdue, Bool.false_and]

end Row

/-! ## The statement -/

section Run

variable {db : Db} {choice : DrawChoice}

theorem drawJobs_draws {stamp clock : Time} (hfree : ∀ id, choice.locked id = false)
    (hexact : ∀ o ∈ db.foodOrders, pgTime o.deadlineAt = o.deadlineAt) :
    Draws db stamp clock (db.drawJobs choice stamp clock).1 (db.drawJobs choice stamp clock).2 where
  rows := by
    refine List.forall₂_map_right_iff.mpr (List.forall₂_same.mpr fun o ho => ?_)
    have hdue : Db.drawDue choice stamp o = true ↔ DrawDue stamp o :=
      drawDue_iff (hfree o.id) (hexact o ho)
    constructor
    · intro h
      rw [drawnFoodOrder_due (hdue.mpr h)]
      exact draw_drawnFrom
    · intro h
      exact drawnFoodOrder_other (eq_false_of_ne_true fun h' => h (hdue.mp h'))
  others := rfl
  answered := by
    intro id
    show id ∈ ((db.foodOrders.filter (Db.drawDue choice stamp)).filter fun o =>
      (db.drawPicked choice o).isSome).map FoodOrderRow.id ↔ ∃ p ∈ db.foodOrders.zip
        (db.foodOrders.map (db.drawnFoodOrder choice stamp clock)), p.1.id = id ∧ Filled p.1 p.2
    have hzip : db.foodOrders.zip (db.foodOrders.map (db.drawnFoodOrder choice stamp clock)) =
        db.foodOrders.map fun o => (o, db.drawnFoodOrder choice stamp clock o) := by
      rw [List.zip_map_right, List.zip_eq_zipWith, List.zipWith_self, List.map_map]
      rfl
    rw [hzip]
    simp only [List.mem_map, List.mem_filter]
    constructor
    · rintro ⟨o, ⟨⟨ho, hdue⟩, hpicked⟩, rfl⟩
      refine ⟨_, ⟨o, ho, rfl⟩, rfl, ?_⟩
      rw [drawnFoodOrder_due hdue]
      exact filled_draw_iff.mpr hpicked
    · rintro ⟨p, ⟨o, ho, rfl⟩, rfl, hfilled⟩
      cases hdue : Db.drawDue choice stamp o with
      | true =>
        rw [drawnFoodOrder_due hdue] at hfilled
        exact ⟨o, ⟨⟨ho, hdue⟩, filled_draw_iff.mp hfilled⟩, rfl⟩
      | false =>
        rw [drawnFoodOrder_other hdue] at hfilled
        obtain ⟨job, hvacant, hfilled⟩ := hfilled
        exact absurd hvacant hfilled

/-- A second run finds nothing to do. -/
theorem drawJobs_again {stamp clock clock' : Time} {choice' : DrawChoice}
    (hfree : ∀ id, choice.locked id = false) :
    (db.drawJobs choice stamp clock).1.drawJobs choice' stamp clock' =
      ((db.drawJobs choice stamp clock).1, []) := by
  have hnone : ∀ o ∈ (db.drawJobs choice stamp clock).1.foodOrders,
      Db.drawDue choice' stamp o = false := by
    intro o' ho'
    obtain ⟨o, -, rfl⟩ := List.mem_map.mp ho'
    exact drawDue_drawnFoodOrder (hfree o.id)
  generalize (db.drawJobs choice stamp clock).1 = drawn at hnone
  unfold Db.drawJobs
  have hrows : drawn.foodOrders.map (drawn.drawnFoodOrder choice' stamp clock') = drawn.foodOrders :=
    (List.map_congr_left fun o ho => drawnFoodOrder_other (hnone o ho)).trans (List.map_id _)
  have hdue : drawn.foodOrders.filter (Db.drawDue choice' stamp) = [] :=
    List.filter_eq_nil_iff.mpr fun o ho => by
      rw [hnone o ho]
      exact Bool.false_ne_true
  rw [hrows, hdue]
  rfl

/-- The run of the function, when its statement goes through. -/
theorem run_drawJobs (choice : DrawChoice) (now : Time) {ω : DrawJobsStmt → Outcome}
    (hω : ω .draw ≠ .failure) (w : World Db Time) :
    (drawJobs choice now).run ω w =
      (.ok (w.db.drawJobs choice (stampOf w.now now) w.now).2,
        { w with db := (w.db.drawJobs choice (stampOf w.now now) w.now).1 }) := by
  unfold drawJobs
  rw [run_bind, stampAt_run]
  dsimp only
  unfold returningRows
  rw [run_mapError, run_write]
  cases hdraw : ω .draw with
  | ok | noRow => rfl
  | failure => exact absurd hdraw hω

/-- The run of the function, when its statement fails. -/
theorem run_drawJobs_failure (choice : DrawChoice) (now : Time) {ω : DrawJobsStmt → Outcome}
    (hω : ω .draw = .failure) (w : World Db Time) :
    (drawJobs choice now).run ω w = (.error (otherError .failed), w) := by
  unfold drawJobs
  rw [run_bind, stampAt_run]
  dsimp only
  unfold returningRows
  rw [run_mapError, run_write, hω]
  rfl

/-- **What a whole run of the draw does**, whoever is picked, and that a second run at the same moment
does nothing. -/
theorem drawJobs_spec {now : Time} {w : World Db Time} {ω : DrawJobsStmt → Outcome}
    (hω : ω .draw ≠ .failure) (hfree : ∀ id, choice.locked id = false)
    (hexact : ∀ o ∈ w.db.foodOrders, pgTime o.deadlineAt = o.deadlineAt) :
    ∃ db' filled, (drawJobs choice now).run ω w = (.ok filled, { w with db := db' }) ∧
      Draws w.db (stampOf w.now now) w.now db' filled ∧
      ∀ (choice' : DrawChoice) (now' clock' : Time), stampOf clock' now' = stampOf w.now now →
        (drawJobs choice' now').run ω ⟨db', clock'⟩ = (.ok [], ⟨db', clock'⟩) := by
  refine ⟨_, _, run_drawJobs choice now hω w, drawJobs_draws hfree hexact, fun choice' now' clock' hsame => ?_⟩
  rw [run_drawJobs choice' now' hω]
  dsimp only
  rw [hsame, drawJobs_again hfree]

end Run

/-! ## One late order -/

namespace LateOrder

/-- Its deadline was at the first second, and Anna has a kebab in it. -/
def lateOrder : FoodOrderRow :=
  { id := ⟨6⟩, creatorID := ⟨1⟩, restaurantID := ⟨2⟩, fulfilment := fulfilmentPickup
    fulfilmentAt := 2000000000, deadlineAt := 1000000000, moneyCollectorID := some ⟨9⟩
    pickupPersonID := none, moneyCollectorDrawn := false, pickupPersonDrawn := false
    jobsDrawn := false, currencyCode := "EUR", minOrderValueCents := none, deliveryFeeCents := none
    createdAt := 0, updatedAt := 0, updatedBy := none }

def lateDb : Db :=
  { Db.empty with
    foodOrders := [lateOrder]
    orderItems := [{ id := ⟨7⟩, orderID := ⟨6⟩, userID := ⟨1⟩, menuItemID := ⟨4⟩, quantity := 1
                     itemName := "Kebab", unitPriceCents := 500, note := none, paid := false
                     createdAt := 0, updatedAt := 0, updatedBy := none }] }

def firstPick : DrawChoice := ⟨fun _ => false, fun _ => 0⟩

theorem exact_lateDb : ∀ o ∈ lateDb.foodOrders, pgTime o.deadlineAt = o.deadlineAt := by decide

end LateOrder

open LateOrder

theorem drawJobs_spec_late : ∃ db' filled, (drawJobs firstPick 3000000000).run (fun _ => .ok)
      ⟨lateDb, 3000000000⟩ = (.ok filled, ⟨db', 3000000000⟩) ∧
    Draws lateDb (stampOf 3000000000 3000000000) 3000000000 db' filled ∧
    ∀ (choice' : DrawChoice) (now' clock' : Time),
      stampOf clock' now' = stampOf 3000000000 3000000000 →
      (drawJobs choice' now').run (fun _ => .ok) ⟨db', clock'⟩ = (.ok [], ⟨db', clock'⟩) :=
  drawJobs_spec (w := ⟨lateDb, 3000000000⟩)
    (ω := fun _ => .ok) (by decide) (fun _ => rfl) exact_lateDb

/-- The trigger stamps the row of a drawn order. -/
theorem drawJobs_stamps : ¬ ∀ (db db' : Db) (choice : DrawChoice) (now : Time) (filled : List UUID),
    (∀ id, choice.locked id = false) →
    (∀ o ∈ db.foodOrders, pgTime o.deadlineAt = o.deadlineAt) →
    (drawJobs choice now).run (fun _ => .ok) ⟨db, now⟩ = (.ok filled, ⟨db', now⟩) →
    ∀ p ∈ db.foodOrders.zip db'.foodOrders, p.2.updatedAt = p.1.updatedAt := by
  intro hall
  have hrun := run_drawJobs firstPick 3000000000 (ω := fun _ => .ok) (by decide) ⟨lateDb, 3000000000⟩
  have hsame := hall lateDb _ firstPick 3000000000 _ (fun _ => rfl) exact_lateDb hrun
  revert hsame
  decide +kernel

end Doenerstag
