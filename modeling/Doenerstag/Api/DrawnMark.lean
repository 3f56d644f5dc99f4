import Doenerstag.Api.JobClaims

/-!
# The mark of the draw (21.3)

An order shows a person as drawn when the row says that the draw filled the job. One statement
writes that mark; four others write the holder and leave the mark alone.

* `Becomes` — what each statement may make of the row of an order.
* `JobRequest.steps` — every step of every request is of that kind.
* `Refills` — an `UPDATE` puts somebody into a job that is marked.
* `drawnMark_truthful` — **in every history without such a move, whoever is shown as drawn was put
  there by the draw.**
* `drawnMark_stale` — a history with one, and a volunteer who is shown as drawn.
-/

namespace Doenerstag

open ReadCommitted Prog Tables

/-! ## What a statement makes of an order -/

/-- The three flags of the draw. -/
def FoodOrderRow.marks (o : FoodOrderRow) : Bool × Bool × Bool :=
  (o.jobsDrawn, o.moneyCollectorDrawn, o.pickupPersonDrawn)

theorem Job.drawn_eq {o o' : FoodOrderRow} (h : o'.marks = o.marks) (job : Job) :
    job.drawn o' = job.drawn o := by
  simp only [FoodOrderRow.marks, Prod.mk.injEq] at h
  cases job
  · exact h.2.2
  · exact h.2.1

/-- The row keeps its marks, and each of its jobs its holder, or loses them. -/
structure JobsKept (o o' : FoodOrderRow) : Prop where
  marks : o'.marks = o.marks
  holders : ∀ job : Job, job.holder o' = none ∨ job.holder o' = job.holder o

theorem JobsKept.refl (o : FoodOrderRow) : JobsKept o o := ⟨rfl, fun _ => .inr rfl⟩

theorem JobsKept.trans {o o' o'' : FoodOrderRow} (h : JobsKept o o') (h' : JobsKept o' o'') :
    JobsKept o o'' where
  marks := h'.marks.trans h.marks
  holders := by
    intro job
    rcases h'.holders job with hnone | hsame
    · exact .inl hnone
    · rw [hsame]
      exact h.holders job

/-- What a statement may make of the row of an order, or of none. -/
inductive Becomes (l : JobStmt) : Option FoodOrderRow → FoodOrderRow → Prop where
  | kept {o o' : FoodOrderRow} (kept : JobsKept o o') : Becomes l (some o) o'
  | inserted {before : Option FoodOrderRow} {o : FoodOrderRow}
      (unmarked : ∀ job : Job, job.drawn o = false) : Becomes l before o
  | assigned {o o' : FoodOrderRow} (stmt : l = .assigns) (marks : o'.marks = o.marks) :
      Becomes l (some o) o'
  | drawn {o : FoodOrderRow} (stmt : l = .draw (.jobs .draw)) (due : o.jobsDrawn = false)
      (picked : Option UUID) (now : Time) : Becomes l (some o) (o.draw picked now)

/-- Every order after a step is what the step's statement may make of it. -/
def OrderStep (l : JobStmt) (w w' : World Db Time) : Prop :=
  ∀ id o', w'.db.foodOrder id = some o' → Becomes l (w.db.foodOrder id) o'

theorem OrderStep.refl (l : JobStmt) (w : World Db Time) : OrderStep l w w := by
  intro id o ho
  rw [ho]
  exact .kept (.refl o)

/-! ## The writes -/

section Writes

variable {db db' : Db} {rows : Nat}

theorem insertFoodOrder_becomes {id : UUID} {order : NewOrder} {now : Time} (l : JobStmt)
    (h : db.insertFoodOrder id order now = .ok (db', rows)) {id' : UUID} {o' : FoodOrderRow}
    (ho' : db'.foodOrder id' = some o') : Becomes l (db.foodOrder id') o' := by
  unfold Db.insertFoodOrder at h
  split at h
  · cases h
    exact ho' ▸ .kept (.refl o')
  · simp only at h
    split_ifs at h
    cases h
    rw [Db.foodOrder, Db.setFoodOrders_foodOrders, List.find?_append, Option.or_eq_some_iff] at ho'
    rcases ho' with hold | ⟨-, hnew⟩
    · rw [Db.foodOrder, hold]
      exact .kept (.refl o')
    · rw [List.mem_singleton.mp (List.mem_of_find?_eq_some hnew)]
      exact .inserted fun job => by cases job <;> rfl

theorem changedFoodOrder_marks {actor : UUID} {change : OrderUpdate} {now : Time}
    {o new : FoodOrderRow} (h : db.changedFoodOrder actor change now o = .ok new) :
    new.marks = o.marks := by
  unfold Db.changedFoodOrder at h
  simp only at h
  split_ifs at h
  cases h
  rfl

theorem updateFoodOrder_becomes {id actor : UUID} {change : OrderUpdate} {now : Time}
    (h : db.updateFoodOrder id actor change now = .ok (db', rows)) {id' : UUID} {o' : FoodOrderRow}
    (ho' : db'.foodOrder id' = some o') : Becomes .assigns (db.foodOrder id') o' := by
  unfold Db.updateFoodOrder at h
  split at h
  · cases h
    exact ho' ▸ .kept (.refl o')
  · rename_i o ho
    split_ifs at h
    · cases h
      exact ho' ▸ .kept (.refl o')
    · cases hnew : db.changedFoodOrder actor change now o with
      | error e => simp [hnew, Except.map] at h
      | ok new =>
        simp only [hnew, Except.map, Except.ok.injEq, Prod.mk.injEq] at h
        obtain ⟨rfl, -⟩ := h
        have hsame : new.id = id :=
          (Db.changedFoodOrder_eq_ok hnew).1.trans (db.foodOrder_id ho)
        by_cases hid : id' = id
        · -- the order that is written
          subst hid
          have hfound : (db.setFoodOrders (db.foodOrders.map fun p =>
              if p.id == id' then new else p)).foodOrder id' = some new :=
            find?_map_same (fun _ _ => hsame) ho
          rw [ho, Option.some.inj (ho'.symm.trans hfound)]
          exact .assigned rfl (changedFoodOrder_marks hnew)
        · have hother : (db.setFoodOrders (db.foodOrders.map fun p =>
              if p.id == id then new else p)).foodOrder id' = db.foodOrder id' :=
            find?_map_other hsame hid _
          exact (ho'.symm.trans hother).symm ▸ .kept (.refl o')

theorem drawJobs_becomes {choice : DrawChoice} {stamp now : Time} {id : UUID} {o' : FoodOrderRow}
    (ho' : (db.drawJobs choice stamp now).1.foodOrder id = some o') :
    Becomes (.draw (.jobs .draw)) (db.foodOrder id) o' := by
  have hkey : ∀ o, (db.drawnFoodOrder choice stamp now o).id = o.id := by
    intro o
    unfold Db.drawnFoodOrder
    split_ifs <;> rfl
  have hfound : (db.drawJobs choice stamp now).1.foodOrder id =
      (db.foodOrder id).map (db.drawnFoodOrder choice stamp now) := find?_map_key hkey _ _
  rw [hfound] at ho'
  obtain ⟨o, ho, rfl⟩ := Option.map_eq_some_iff.mp ho'
  rw [ho]
  unfold Db.drawnFoodOrder
  split_ifs with hdue
  · have hundrawn : o.jobsDrawn = false := by
      simp only [Db.drawDue, Bool.and_eq_true, Bool.not_eq_true'] at hdue
      exact hdue.1.1
    exact .drawn rfl hundrawn _ now
  · exact .kept (.refl o)

/-- Deleting an account takes its jobs, and leaves the marks. -/
theorem forgetUser_kept (userID : UUID) (now : Time) (o : FoodOrderRow) :
    JobsKept o (o.forgetUser userID now) where
  marks := rfl
  holders := by
    intro job
    have hforget : ∀ holder, forgetActor userID holder = none ∨ forgetActor userID holder = holder := by
      intro holder
      unfold forgetActor
      split_ifs
      · exact .inl rfl
      · exact .inr rfl
    cases job
    · exact hforget o.pickupPersonID
    · exact hforget o.moneyCollectorID

/-- Every order of the second tables is one of the first with its jobs kept. -/
def OrdersKept (db db' : Db) : Prop :=
  ∀ id o', db'.foodOrder id = some o' → ∃ o, db.foodOrder id = some o ∧ JobsKept o o'

theorem OrdersKept.refl (db : Db) : OrdersKept db db := fun _ o ho => ⟨o, ho, .refl o⟩

theorem OrdersKept.trans {db'' : Db} (h : OrdersKept db db') (h' : OrdersKept db' db'') :
    OrdersKept db db'' := by
  intro id o'' ho''
  obtain ⟨o', ho', hkept'⟩ := h' id o'' ho''
  obtain ⟨o, ho, hkept⟩ := h id o' ho'
  exact ⟨o, ho, hkept.trans hkept'⟩

theorem OrdersKept.of_map {f : FoodOrderRow → FoodOrderRow} (hf : ∀ o, (f o).id = o.id)
    (hkept : ∀ o, JobsKept o (f o)) (h : db'.foodOrders = db.foodOrders.map f) :
    OrdersKept db db' := by
  intro id o' ho'
  have hfound : db'.foodOrder id = (db.foodOrder id).map f := by
    rw [Db.foodOrder, h]
    exact find?_map_key hf _ _
  rw [hfound] at ho'
  obtain ⟨o, ho, rfl⟩ := Option.map_eq_some_iff.mp ho'
  exact ⟨o, ho, hkept o⟩

theorem OrdersKept.step (h : OrdersKept db db') {id : UUID} {o' : FoodOrderRow} (l : JobStmt)
    (ho' : db'.foodOrder id = some o') : Becomes l (db.foodOrder id) o' := by
  obtain ⟨o, ho, hkept⟩ := h id o' ho'
  exact ho ▸ .kept hkept

theorem reassignFoodOrders_kept {now : Time} {seen : List UUID}
    (h : Db.reassignFoodOrders now seen db = .ok db') : OrdersKept db db' := by
  unfold Db.reassignFoodOrders at h
  split_ifs at h
  cases h
  refine .of_map (fun o => ?_) (fun o => ?_) rfl
  · split_ifs <;> rfl
  · split_ifs
    · exact ⟨rfl, fun _ => .inr (by cases ‹Job› <;> rfl)⟩
    · exact .refl o

theorem deleteAppUser_kept {userID : UUID} {now : Time}
    (h : db.deleteAppUser userID now = .ok db') : OrdersKept db db' := by
  unfold Db.deleteAppUser at h
  split at h
  · cases h
    exact .refl db
  · split_ifs at h
    cases h
    exact .of_map (f := FoodOrderRow.forgetUser userID now) (fun _ => rfl) (forgetUser_kept _ _) rfl

end Writes

/-! ## The steps of the requests -/

section Steps

/-- A statement that only reads is no step of an order. -/
theorem steps_of_reads {ℓ χ α : Type} {L : ℓ → Prop} {p : Program ℓ Db Time χ α} (h : p.Reads L)
    (f : ℓ → JobStmt) : p.Steps fun l => OrderStep (f l) := by
  refine Steps.mono h fun l w w' hl => ?_
  rw [hl.1]
  exact .refl _ w

/-- A statement on the pool makes of an order what its update does, or nothing. -/
theorem steps_exec {ℓ : Type} {l : ℓ} {f : ℓ → JobStmt}
    {u : Time → Db → Except PgError (Db × Nat)}
    (hu : ∀ now db db' rows, u now db = .ok (db', rows) → ∀ id o', db'.foodOrder id = some o' →
      Becomes (f l) (db.foodOrder id) o') :
    (exec l u).Steps fun l => OrderStep (f l) :=
  exec_steps (fun w => .refl _ w) fun w r hupdate => hu w.now w.db r.1 r.2 hupdate

variable (h : OrderHandlers)

theorem update_steps (order : Order) (actor : UUID) (change : OrderUpdate) :
    (h.update order actor change).Steps fun l => OrderStep (.order l) := by
  refine .bind (.mapError (.within ?_) _) fun updated =>
    steps_of_reads (L := fun _ => True) (h.writeDetail_reads updated 200).within .order
  unfold updateOrder
  split_ifs
  · exact steps_of_reads (orderByID_reads (L := fun _ => True) trivial _) _
  · refine .bind (.mapError (steps_exec (f := fun l => .order (.updateOrder l))
      fun _ _ _ _ hu _ _ ho' => updateFoodOrder_becomes hu ho') _) fun rows =>
        steps_of_reads (L := fun _ => True) ?_ _
    split_ifs
    · exact .bind ((restaurantLocked_reads _ _).mono fun _ _ => trivial) fun _ => .fail _
    · exact orderByID_reads trivial _

theorem create_steps (id : UUID) (r : Request OrderHandlers.CreateOrderRequest) :
    (h.create id r).Steps fun l => OrderStep (.order l) := by
  refine .bind (steps_of_reads (h.acceptNewOrder_reads r) .order) fun order => ?_
  refine .bind (.mapError (.within ?_) _) fun created =>
    steps_of_reads (L := fun _ => True) (h.writeDetail_reads created 201).within .order
  refine .bind (.mapError (steps_exec (f := fun l => .order (.createOrder l))
    fun _ _ _ _ hu _ _ ho' => insertFoodOrder_becomes _ hu ho') _) fun _ => ?_
  exact steps_of_reads (orderByID_reads (L := fun _ => True) trivial _) _

theorem patch_steps (r : Request OrderHandlers.PatchOrderRequest) :
    (h.patch r).Steps fun l => OrderStep (.order l) :=
  .bind (steps_of_reads (h.acceptOrderPatch_reads r) .order) fun (order, actor, change) =>
    update_steps h order actor change

theorem claimJob_steps (job : OrderJob) (r : Request Unit) :
    (h.claimJob job r).Steps fun l => OrderStep (.order l) := by
  refine .bind (steps_of_reads (h.lookupOrder_reads r) .order) fun order => ?_
  refine .bind (.ofExcept _) fun principal => ?_
  refine .bind (steps_of_reads (OrderHandlers.requireActive_reads order) .order) fun _ => ?_
  refine .bind (steps_of_reads (Reads.require (L := fun _ => True) _ _) .order) fun _ => ?_
  exact update_steps h order principal.userID _

theorem releaseJob_steps (job : OrderJob) (r : Request Unit) :
    (h.releaseJob job r).Steps fun l => OrderStep (.order l) := by
  refine .bind (steps_of_reads (h.lookupOrder_reads r) .order) fun order => ?_
  refine .bind (.ofExcept _) fun principal => .bind (.ofExcept _) fun _ => ?_
  refine .bind (steps_of_reads (OrderHandlers.requireActive_reads order) .order) fun _ => ?_
  split_ifs
  · exact steps_of_reads (L := fun _ => True) (h.writeDetail_reads order 200).within .order
  · exact update_steps h order principal.userID _

theorem drawJobs_steps (choice : DrawChoice) :
    (OrderHandlers.drawJobs choice).Steps fun l => OrderStep (.draw l) := by
  refine .bind (steps_of_reads (clock_reads (L := fun _ => True) trivial) .draw) fun now => ?_
  refine .bind (.within ?_) fun filled => steps_of_reads (L := fun _ => True)
    (.mapM (fun id => orderByID_reads trivial id) filled) .draw
  refine .bind (steps_of_reads (stampAt_reads (L := fun _ => True) trivial now) _) fun stamp => ?_
  refine .mapError (write_steps fun e w => ?_) _
  cases e with
  | failure => exact .refl _ w
  | ok | noRow => exact fun id o' ho' => drawJobs_becomes ho'

/-- Everything that deleting an account stages keeps the jobs of orders. -/
theorem remapAndDelete_returns {I : World Db Time → Prop} {tx : PgTx} (userID : UUID) (stamp : Time)
    (h : tx.Writes fun u => ∀ db db', u db = .ok db' → OrdersKept db db') :
    (remapAndDelete tx userID stamp).Returns I
      (Tx.Writes fun u => ∀ db db', u db = .ok db' → OrdersKept db db') := by
  refine .bind ((Tx.exec_returns h fun view db db' hu => ?_).mapError _) fun tx h => ?_
  · unfold Db.reassignOrderItems at hu
    split_ifs at hu
    cases hu
    exact .refl db
  refine .bind ((Tx.exec_returns h fun view db db' hu => ?_).mapError _) fun tx h => ?_
  · cases hu
    exact .refl db
  refine .bind ((Tx.exec_returns h fun view db db' hu => reassignFoodOrders_kept hu).mapError _)
    fun tx h => ?_
  refine .bind ((Tx.execRows_returns h fun view db db' hu => deleteAppUser_kept hu).mapError _)
    fun (tx, rows) h => ?_
  exact .bind (.trivially _) fun _ _ => returns_done.mpr h

/-- What a transaction commits, when every write keeps the jobs of orders. -/
theorem steps_commit {ℓ : Type} {l : ℓ} {f : ℓ → JobStmt} {tx : PgTx}
    (h : tx.Writes fun u => ∀ db db', u db = .ok db' → OrdersKept db db') :
    (tx.commit l).Steps fun l => OrderStep (f l) := by
  refine write_steps fun e w => ?_
  cases hcommit : tx.committed e w.db with
  | error x => exact .refl _ w
  | ok r =>
    have hview := tx.committed_eq_ok hcommit
    have hkept : OrdersKept w.db r.1 :=
      h.view OrdersKept.refl (fun _ _ _ => OrdersKept.trans) hview
    exact fun id o' ho' => hkept.step _ ho'

theorem deleteUser_steps (rt : Runtime) (r : Request Unit) :
    (deleteUser rt r).Steps fun l => OrderStep (.user l) := by
  have hreads : ∀ {α : Type} {p : Handler DeleteUserStmt α}, p.Reads (fun _ => True) →
      p.Steps fun l => OrderStep (.user l) := fun h => steps_of_reads h .user
  refine .bind (hreads (loadParam_reads fun id => userByID_reads trivial id)) fun user => ?_
  refine .bind (.ofExcept _) fun _ => .bind (.ofExcept _) fun _ => ?_
  refine .bind (hreads (.require _ _)) fun _ => .bind (hreads (clock_reads trivial)) fun now => ?_
  refine .mapError (.within ?_) _
  have hstage : ∀ {α : Type} {p : DbProgram DeleteAccountStmt α}, p.Reads (fun _ => True) →
      p.Steps fun l => OrderStep (.user (.delete l)) := fun h => steps_of_reads h _
  refine .bind (hstage (stampAt_reads trivial now)) fun stamp => ?_
  refine .bind_returns (A := Tx.Writes fun u => ∀ db db', u db = .ok db' → OrdersKept db db')
    (hstage ((begin_reads trivial).mapError _)) ?_ fun tx htx => ?_
  · exact .mapError begin_returns _
  · refine .bind_returns (hstage ((remapAndDelete_reads tx _ _).mono fun _ _ => trivial))
      (remapAndDelete_returns _ _ htx) fun tx' htx' => ?_
    exact .mapError (steps_commit htx') _

/-- **Every step of every request** makes of the orders what its statement may. -/
theorem JobRequest.steps (req : JobRequest) : (req.serve h).Steps OrderStep := by
  cases req with
  | create id r => exact .bind (.within (create_steps h id r)) fun _ => steps_done ()
  | patch r => exact .bind (.within (patch_steps h r)) fun _ => steps_done ()
  | claimJob job r => exact .bind (.within (claimJob_steps h _ r)) fun _ => steps_done ()
  | releaseJob job r => exact .bind (.within (releaseJob_steps h _ r)) fun _ => steps_done ()
  | drawJobs choice =>
    exact .bind (.mapError (.within (drawJobs_steps choice)) _) fun _ => steps_done ()
  | deleteUser r => exact .within (deleteUser_steps h.rt r)

end Steps

/-! ## The mark in a history -/

/-- Who has the job of the order. -/
def Job.holderIn (job : Job) (id : UUID) (w : World Db Time) : Option UUID :=
  (w.db.foodOrder id).bind job.holder

/-- The statement of a move, if a request makes it. -/
def moverStmt {ι : Type} : Mover ι JobLabel → Option JobStmt
  | .proc _ l => some l.2
  | .env => none

/-- The move is the statement of the draw. -/
def ByDraw {ι : Type} (m : Mover ι JobLabel) : Prop := moverStmt m = some (.draw (.jobs .draw))

/-- An `UPDATE` puts somebody into a job of an order that is marked as filled by the draw. -/
def Refills {ι : Type} (m : Move ι JobLabel (World Db Time)) : Prop :=
  moverStmt m.mover = some .assigns ∧ ∃ id o o' job,
    m.before.db.foodOrder id = some o ∧ m.after.db.foodOrder id = some o' ∧
      Job.drawn job o = true ∧ job.holder o' ≠ none ∧ job.holder o' ≠ job.holder o

/-- What else may happen: time passes, orders go, and anything in the other tables. -/
def OrdersOnlyGo (w w' : World Db Time) : Prop :=
  ∀ id o, w'.db.foodOrder id = some o → w.db.foodOrder id = some o

/-- No order is marked yet. -/
def Unmarked (w : World Db Time) : Prop :=
  ∀ id o, w.db.foodOrder id = some o → ∀ job : Job, job.drawn o = false

/-- A job that is marked has been drawn for, and whoever has it was put there by the draw. -/
def Truthful {ι : Type} (moves : List (Move ι JobLabel (World Db Time))) (w : World Db Time) : Prop :=
  ∀ id o (job : Job), w.db.foodOrder id = some o → job.drawn o = true →
    o.jobsDrawn = true ∧ ∀ p, job.holder o = some p → PutBy ByDraw (job.holderIn id) (some p) moves

section Histories

variable {ι : Type} {moves : List (Move ι JobLabel (World Db Time))} {w w' : World Db Time}

theorem Job.holderIn_eq {job : Job} {id : UUID} {o : FoodOrderRow}
    (ho : w.db.foodOrder id = some o) : job.holderIn id w = job.holder o := by
  rw [holderIn, ho, Option.bind_some]

/-- Whoever the draw puts into a job that had nobody. -/
theorem Job.holder_draw {job : Job} {o : FoodOrderRow} {picked : Option UUID} {now : Time}
    (h : job.drawn (o.draw picked now) = true) :
    job.holder o = none ∧ job.holder (o.draw picked now) = picked := by
  have hvacant : ∀ holder : Option UUID, (holder.isNone && picked.isSome) = true →
      holder = none ∧ holder.or picked = picked := by
    intro holder h
    rw [Bool.and_eq_true, Option.isNone_iff_eq_none] at h
    rw [h.1]
    exact ⟨rfl, Option.none_or⟩
  cases job
  · exact hvacant o.pickupPersonID h
  · exact hvacant o.moneyCollectorID h

/-- **One step.** -/
theorem Truthful.step (h : Truthful moves w) {i : ι} {l : JobLabel} (hstep : OrderStep l.2 w w')
    (hrefill : ¬ Refills ⟨.proc i l, w, w'⟩) : Truthful (⟨.proc i l, w, w'⟩ :: moves) w' := by
  intro id o' job ho' hdrawn
  have hbecomes := hstep id o' ho'
  cases ho : w.db.foodOrder id with
  | none =>
    rw [ho] at hbecomes
    cases hbecomes with
    | inserted unmarked => rw [unmarked job] at hdrawn; cases hdrawn
  | some o =>
    -- a job that keeps its holder keeps what was known of it
    have hkeeps : o'.marks = o.marks → (∀ p, job.holder o' = some p → job.holder o = some p) →
        o'.jobsDrawn = true ∧ ∀ p, job.holder o' = some p →
          PutBy ByDraw (job.holderIn id) (some p) (⟨.proc i l, w, w'⟩ :: moves) := by
      intro hmarks hholder
      rw [job.drawn_eq hmarks] at hdrawn
      obtain ⟨hjobs, hput⟩ := h id o job ho hdrawn
      refine ⟨(congrArg Prod.fst hmarks).trans hjobs, fun p hp => ?_⟩
      exact (hput p (hholder p hp)).stays ((Job.holderIn_eq ho').trans hp)
    rw [ho] at hbecomes
    cases hbecomes with
    | inserted unmarked => rw [unmarked job] at hdrawn; cases hdrawn
    | kept kept =>
      refine hkeeps kept.marks fun p hp => ?_
      rcases kept.holders job with hnone | hsame
      · rw [hnone] at hp
        cases hp
      · exact hsame ▸ hp
    | assigned stmt marks =>
      refine hkeeps marks fun p hp => ?_
      by_contra hne
      rw [job.drawn_eq marks] at hdrawn
      refine hrefill ⟨congrArg some stmt, id, o, o', job, ho, ho', hdrawn, ?_, ?_⟩
      · rw [hp]
        exact Option.some_ne_none p
      · rw [hp]
        exact fun heq => hne heq.symm
    | drawn stmt due picked now =>
      refine ⟨rfl, fun p hp => ?_⟩
      obtain ⟨hvacant, hpicked⟩ := Job.holder_draw hdrawn
      have hwho : ByDraw (Mover.proc i l) := congrArg some stmt
      refine .now hwho ?_ ((Job.holderIn_eq ho').trans hp)
      rw [Job.holderIn_eq ho, hvacant]
      exact (Option.some_ne_none p).symm

theorem Truthful.env (h : Truthful moves w) (henv : OrdersOnlyGo w w') :
    Truthful (⟨.env, w, w'⟩ :: moves) w' := by
  intro id o job ho hdrawn
  obtain ⟨hjobs, hput⟩ := h id o job (henv id o ho) hdrawn
  exact ⟨hjobs, fun p hp => (hput p hp).stays ((Job.holderIn_eq ho).trans hp)⟩

/-- **Every history** without a refill is truthful. -/
theorem truthful_history [DecidableEq ι] (h : OrderHandlers) (reqs : ι → JobRequest)
    (hunmarked : Unmarked w) {c : Config ι JobLabel Outcome (World Db Time) ApiError Unit}
    (hhistory : History OrdersOnlyGo (arrivedJobs h reqs w) moves c)
    (hrefills : ∀ m ∈ moves, ¬ Refills m) : Truthful moves c.state := by
  refine hhistory.invariant (P := fun l => OrderStep l.2) (C := fun m => ¬ Refills m)
    (fun i => .within ((reqs i).steps h)) (fun id o job ho hdrawn => ?_)
    (fun moves s s' i l hJ hP hC => hJ.step hP hC) (fun moves s s' hJ henv => hJ.env henv) hrefills
  rw [hunmarked id o ho job] at hdrawn
  cases hdrawn

end Histories

/-! ## What is shown -/

namespace Job

/-- Who is shown in the job, and whether as drawn. -/
def shown (job : Job) (entry : OrderListEntry) : Option String :=
  match job with
  | food => entry.pickupPersonID
  | money => entry.moneyCollectorID

def shownDrawn (job : Job) (entry : OrderListEntry) : Bool :=
  match job with
  | food => entry.pickupPersonDrawn
  | money => entry.moneyCollectorDrawn

/-- What an order shows of a job is what its row holds. -/
theorem shown_listEntry (job : Job) {db : Db} {o : FoodOrderRow} {order : Order}
    (h : db.scanOrder o = some order) (rt : Runtime) (now : Time) :
    job.shown (listEntry rt now order) = (job.holder o).map UUID.string ∧
      job.shownDrawn (listEntry rt now order) = (job.drawn o && (job.holder o).isSome) := by
  simp only [Db.scanOrder, Option.bind_eq_bind, Option.bind_eq_some_iff, Option.pure_def,
    Option.some.injEq] at h
  obtain ⟨r, -, u, -, rfl⟩ := h
  cases job <;> exact ⟨rfl, rfl⟩

end Job

/-- **The mark is truthful.** In a history without an `UPDATE` that puts somebody into a marked job,
whoever an order shows as drawn is somebody whom the draw put there, and who has been there since. -/
theorem drawnMark_truthful {ι : Type} [DecidableEq ι] (h : OrderHandlers) (reqs : ι → JobRequest)
    {w : World Db Time} (hunmarked : Unmarked w)
    {moves : List (Move ι JobLabel (World Db Time))}
    {c : Config ι JobLabel Outcome (World Db Time) ApiError Unit}
    (hhistory : History OrdersOnlyGo (arrivedJobs h reqs w) moves c)
    (hrefills : ∀ m ∈ moves, ¬ Refills m) {id : UUID} {order : Order}
    (horder : c.state.db.orderByID id = some order) (now : Time) (job : Job)
    (hshown : job.shownDrawn (listEntry h.rt now order) = true) :
    ∃ p, job.shown (listEntry h.rt now order) = some p.string ∧
      PutBy ByDraw (job.holderIn id) (some p) moves := by
  obtain ⟨o, ho, hscan⟩ := Option.bind_eq_some_iff.mp horder
  obtain ⟨hholder, hmark⟩ := job.shown_listEntry hscan h.rt now
  rw [hmark, Bool.and_eq_true, Option.isSome_iff_exists] at hshown
  obtain ⟨hdrawn, p, hp⟩ := hshown
  have htruthful := truthful_history h reqs hunmarked hhistory hrefills
  refine ⟨p, ?_, (htruthful id o job ho hdrawn).2 p hp⟩
  rw [hholder, hp]
  rfl

/-! ## A late claim -/

/-- The database `lunchForTwo` with a kebab for Anna in the order. -/
def kebabForAnna : Db :=
  { lunchForTwo with
    orderItems := [{ id := ⟨7⟩, orderID := ⟨6⟩, userID := ⟨1⟩, menuItemID := ⟨4⟩, quantity := 1
                     itemName := "Kebab", unitPriceCents := 500, note := none, paid := false
                     createdAt := 0, updatedAt := 0, updatedBy := none }] }

theorem kebabForAnna_unmarked (now : Time) : Unmarked { db := kebabForAnna, now } := by
  intro id o ho job
  have hmem : o ∈ kebabForAnna.foodOrders := List.mem_of_find?_eq_some ho
  have hmarks : ∀ o ∈ kebabForAnna.foodOrders, o.pickupPersonDrawn = false ∧
      o.moneyCollectorDrawn = false := by decide
  cases job
  · exact (hmarks o hmem).1
  · exact (hmarks o hmem).2

def anyDraw : DrawChoice where
  locked := fun _ => false
  pick := fun _ => 0

/-- The draw alone, after the deadline. -/
def drawAlone : Config Unit JobLabel Outcome (World Db Time) ApiError Unit :=
  arrivedJobs plainHandlers (fun _ => .drawJobs anyDraw) { db := kebabForAnna, now := 101000 }

/-- It picks Anna, who is shown as drawn. -/
theorem drawnMark_truthful_anna :
    ∃ order, (drawAlone.advance () [.ok, .ok]).state.db.orderByID ⟨6⟩ = some order ∧
      ∃ p, Job.food.shown (listEntry plainHandlers.rt 101000 order) = some p.string ∧
        PutBy ByDraw (Job.food.holderIn ⟨6⟩) (some p) (drawAlone.movesOf () [.ok, .ok]) := by
  have hhistory : History OrdersOnlyGo drawAlone (drawAlone.movesOf () [.ok, .ok] ++ [])
      (drawAlone.advance () [.ok, .ok]) := History.advance .start () _
  have hrefills : ∀ m ∈ drawAlone.movesOf () [.ok, .ok] ++ [], ¬ Refills m := by
    have hstmts : ∀ m ∈ drawAlone.movesOf () [.ok, .ok] ++ [],
        moverStmt m.mover ≠ some .assigns := by decide +kernel
    exact fun m hm hrefill => hstmts m hm hrefill.1
  have hshown : ((drawAlone.advance () [.ok, .ok]).state.db.orderByID ⟨6⟩).map (fun order =>
      Job.food.shownDrawn (listEntry plainHandlers.rt 101000 order)) = some true := by
    decide +kernel
  obtain ⟨order, horder, hdrawn⟩ := Option.map_eq_some_iff.mp hshown
  refine ⟨order, horder, ?_⟩
  have hput := drawnMark_truthful plainHandlers (fun _ => .drawJobs anyDraw)
    (kebabForAnna_unmarked 101000) hhistory hrefills horder 101000 .food hdrawn
  rwa [List.append_nil] at hput

/-- Nothing else happens. -/
def TimePasses (w w' : World Db Time) : Prop := w'.db = w.db ∧ w.now ≤ w'.now

/-- Bob claims, one microsecond before the deadline, and the draw stands ready. -/
def bobClaims : Config Bool JobLabel Outcome (World Db Time) ApiError Unit :=
  arrivedJobs plainHandlers (fun bob => if bob then fetchesTheFood ⟨9⟩ else .drawJobs anyDraw)
    { db := kebabForAnna, now := 99000 }

/-- He has found the job vacant and the order open, and the deadline passes. -/
def bobWaits : Config Bool JobLabel Outcome (World Db Time) ApiError Unit :=
  let c := bobClaims.advance true [.ok, .ok]
  { c with state := { c.state with now := 101000 } }

/-- The draw picks Anna, and Bob's `UPDATE` follows. -/
def bobLate : Config Bool JobLabel Outcome (World Db Time) ApiError Unit :=
  (bobWaits.advance false [.ok, .ok]).advance true [.ok]

def bobLateMoves : List (Move Bool JobLabel (World Db Time)) :=
  (bobWaits.advance false [.ok, .ok]).movesOf true [.ok] ++ (bobWaits.movesOf false [.ok, .ok] ++
    ⟨.env, (bobClaims.advance true [.ok, .ok]).state, bobWaits.state⟩ ::
      (bobClaims.movesOf true [.ok, .ok] ++ []))

theorem bobLate_history : History TimePasses bobClaims bobLateMoves bobLate := by
  have hpassed : TimePasses (bobClaims.advance true [.ok, .ok]).state bobWaits.state :=
    ⟨rfl, by decide +kernel⟩
  have hclaims : History TimePasses bobClaims (bobClaims.movesOf true [.ok, .ok] ++ [])
      (bobClaims.advance true [.ok, .ok]) := History.advance .start true _
  have hwaits : History TimePasses bobClaims _ bobWaits := hclaims.tail (.env hpassed)
  exact (hwaits.advance false _).advance true _

/-- With such a move, a volunteer is shown as drawn. -/
theorem drawnMark_stale :
    ¬ ∀ (h : OrderHandlers) (reqs : Bool → JobRequest) (w : World Db Time), Unmarked w →
      ∀ (moves : List (Move Bool JobLabel (World Db Time)))
        (c : Config Bool JobLabel Outcome (World Db Time) ApiError Unit),
      History TimePasses (arrivedJobs h reqs w) moves c →
      ∀ (id : UUID) (order : Order), c.state.db.orderByID id = some order →
      ∀ (now : Time) (job : Job), job.shownDrawn (listEntry h.rt now order) = true →
      ∃ p, job.shown (listEntry h.rt now order) = some p.string ∧
        PutBy ByDraw (job.holderIn id) (some p) moves := by
  intro hevery
  have hshown : (bobLate.state.db.orderByID ⟨6⟩).map (fun order =>
      (Job.food.shownDrawn (listEntry plainHandlers.rt 101000 order),
        Job.food.shown (listEntry plainHandlers.rt 101000 order))) =
      some (true, some (UUID.mk 9).string) := by decide +kernel
  obtain ⟨order, horder, hentry⟩ := Option.map_eq_some_iff.mp hshown
  obtain ⟨hdrawn, hbob⟩ := Prod.mk.inj hentry
  obtain ⟨p, hp, hput⟩ := hevery plainHandlers _ _ (kebabForAnna_unmarked 99000) bobLateMoves
    bobLate bobLate_history ⟨6⟩ order horder 101000 .food hdrawn
  obtain ⟨m, hm, hwho, hafter⟩ := hput.exists_move
  -- the draw has put nobody there but Anna
  have hanna : ∀ m ∈ bobLateMoves, moverStmt m.mover = some (.draw (.jobs .draw)) →
      Job.food.holderIn ⟨6⟩ m.after = some ⟨1⟩ := by decide +kernel
  have hsame : p = ⟨1⟩ := Option.some.inj (hafter.symm.trans (hanna m hm hwho))
  rw [hbob, hsame] at hp
  exact absurd hp (by decide +kernel)

end Doenerstag
