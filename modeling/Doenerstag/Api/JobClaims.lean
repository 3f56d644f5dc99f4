import Doenerstag.Api.JobRequests
import Doenerstag.Lib.Interleaving

/-!
# A claim only fills a vacancy

Claims, releases, edits and draws run side by side on any orders. A claim reads its order, looks at
the clock and then writes the holder in a statement that does not ask who has the job by then.

* `Vacant` — nobody has the job.
* `ClaimRely` — between its read of the order and its `UPDATE`, nobody else fills the job.
* `claimJob_holds` — a claim that can rely on this writes to a vacant job.
* `claimJob_fillsVacancy` — **along every run that keeps to it, every claim's `UPDATE` finds the job
  vacant.**
* `claimJob_replacesHolder` — a run that does not, and two colleagues who both got the job.
-/

namespace Doenerstag

open ReadCommitted Prog

/-- Nobody has the job of the order, if the order is there. -/
def Vacant (id : UUID) (job : Job) (w : World Db Time) : Prop :=
  ∀ o, w.db.foodOrder id = some o → job.holder o = none

/-! ## What a claim relies on -/

/-- A statement of a request, with the vacancy the request means to fill. -/
abbrev JobLabel : Type := Option (UUID × Job) × JobStmt

/-- The statement that writes the holder. -/
def JobStmt.assigns : JobStmt := .order (.updateOrder .update)

/-- The request has read its order and not yet written: it looks at the clock, or is about to
write. -/
def JobStmt.Claiming (l : JobStmt) : Prop := l = .order .now ∨ l = .assigns

/-- What a request waiting at a statement relies on when another moves. -/
def ClaimRely (l : JobLabel) (w w' : World Db Time) : Prop :=
  ∀ id job, l.1 = some (id, job) → l.2.Claiming → Vacant id job w → Vacant id job w'

/-- The write of a claim finds the job vacant. -/
def FillsVacancy (l : JobLabel) (w _ : World Db Time) : Prop :=
  ∀ id job, l.1 = some (id, job) → l.2 = .assigns → Vacant id job w

theorem fillsVacancy_of_ne {l : JobLabel} (hl : l.2 ≠ .assigns) (w w' : World Db Time) :
    FillsVacancy l w w' := fun _ _ _ h => absurd h hl

/-- The vacancy that a request means to fill. -/
def JobRequest.about (h : OrderHandlers) : JobRequest → Option (UUID × Job)
  | claimJob job r => (h.rt.parseUUID r.id).map fun id => (id, job)
  | _ => none

/-! ## A claim holds -/

section Claims

variable (h : OrderHandlers) {job : Job} {about : Option (UUID × Job)}

/-- The statements around the write promise nothing. -/
theorem holds_beside {α χ : Type} {p : Program OrderStmt Db Time χ α}
    {L : OrderStmt → Prop} (hp : p.Reads L) (hL : ∀ l, L l → l ≠ .updateOrder .update)
    (w : World Db Time) :
    p.Holds (fun _ => True) (fun l => ClaimRely (about, .order l))
      (fun l => FillsVacancy (about, .order l)) (Ends fun _ _ => True) w := by
  have hG : ∀ l w, L l → True → FillsVacancy (about, .order l) w w := by
    intro l w hl _
    exact fillsVacancy_of_ne (fun heq => hL l hl (JobStmt.order.inj heq)) w w
  exact (hp.holds hG w).mono fun _ _ _ _ _ => trivial

/-- The order that was read, and what is true of its job while the claim waits. -/
def ReadVacant (job : Job) (order : Order) (w : World Db Time) : Prop :=
  job.orderJob.holder order = none → Vacant order.id job w

theorem holds_claimLookup {β : Type} (job : Job) (r : Request β) (w : World Db Time) :
    (h.lookupOrder r).Holds (fun _ => True) (fun l => ClaimRely (about, .order l))
      (fun l => FillsVacancy (about, .order l))
      (Ends fun order w => h.rt.parseUUID r.id = some order.id ∧ ReadVacant job order w) w := by
  unfold OrderHandlers.lookupOrder loadParam
  cases h.rt.parseUUID r.id with
  | none => exact ends_fail _ w
  | some id =>
    refine ends_mapError (ends_mapError (holds_read fun w' _ _ => ⟨?_, fun e order horder => ?_⟩))
    · exact fillsVacancy_of_ne (by simp [JobStmt.assigns]) w' w'
    · have hfound := Outcome.row_eq_ok horder
      obtain ⟨o, ho, hscan⟩ := Option.bind_eq_some_iff.mp hfound
      have hid : order.id = id := (Db.orderByID_eq_some _ hfound).1
      refine ⟨by rw [hid], fun hnobody o' ho' => ?_⟩
      rw [hid, ho] at ho'
      cases ho'
      rw [← job.holder_scanOrder hscan]
      exact hnobody

/-- The write of a job that has stayed vacant, and the answer. -/
theorem holds_claimUpdate {order : Order} (actor : UUID) (change : OrderUpdate)
    {w : World Db Time} (hvacant : Vacant order.id job w) :
    (h.update order actor change).Holds (fun _ => True)
      (fun l => ClaimRely (some (order.id, job), .order l))
      (fun l => FillsVacancy (some (order.id, job), .order l)) (Ends fun _ _ => True) w := by
  refine holds_seq (M := fun _ _ => True) (ends_mapError (holds_within ?_)) fun updated w _ => ?_
  · refine updateOrder_holds (holds_write fun w' hwait _ e => ?_) fun l w hl _ => ?_
    · -- the job has stayed vacant while the claim waited
      have hvacant' : Vacant order.id job w' :=
        star_keeps (fun _ _ hR => hR order.id job rfl (.inr rfl)) hwait hvacant
      refine ⟨trivial, fun id' job' habout _ => ?_, fun _ _ => trivial⟩
      cases habout
      exact hvacant'
    · refine fillsVacancy_of_ne (fun heq => hl ?_) w w
      simpa [JobStmt.assigns] using heq
  · refine holds_beside (L := (· ≠ .updateOrder .update)) (Reads.within ?_) (fun _ hl => hl) w
    exact (h.writeDetail_reads updated 200).mono fun l _ => by simp

/-- **A claim holds**: within its rely, it writes to a vacant job. -/
theorem claimJob_holds (r : Request Unit) (w : World Db Time) :
    (h.claimJob job.orderJob r).Holds (fun _ => True)
      (fun l => ClaimRely (JobRequest.about h (.claimJob job r), .order l))
      (fun l => FillsVacancy (JobRequest.about h (.claimJob job r), .order l))
      (Ends fun _ _ => True) w := by
  refine holds_seq (holds_claimLookup h job r w) ?_
  rintro order w ⟨habout, hread⟩
  have hlabel : JobRequest.about h (.claimJob job r) = some (order.id, job) := by
    simp [JobRequest.about, habout]
  rw [hlabel]
  refine holds_seq (M := fun _ => ReadVacant job order) (ends_ofExcept fun _ _ => hread)
    fun principal w hread => ?_
  refine holds_seq (M := fun _ => ReadVacant job order) ?_ fun _ w hread => ?_
  · -- the look at the clock
    refine holds_seq (M := fun _ => ReadVacant job order) (holds_read fun w' hwait _ => ?_)
      fun _ w hread => ends_require fun _ => hread
    refine ⟨fillsVacancy_of_ne (by simp [JobStmt.assigns]) w' w', fun e now _ hnobody => ?_⟩
    exact star_keeps (fun _ _ hR => hR order.id job rfl (.inl rfl)) hwait (hread hnobody)
  · refine holds_seq (M := fun _ => Vacant order.id job) (ends_require fun hnobody => ?_)
      fun _ w hvacant => holds_claimUpdate h principal.userID _ hvacant
    exact hread (Option.isNone_iff_eq_none.mp hnobody)

end Claims

/-! ## The system -/

theorem JobRequest.holds (h : OrderHandlers) (req : JobRequest) (w : World Db Time) :
    (req.serve h).Holds (fun _ => True) (fun l => ClaimRely (req.about h, l))
      (fun l => FillsVacancy (req.about h, l)) (fun _ _ => True) w := by
  cases req with
  | claimJob job r =>
    have hevery : ((h.claimJob job.orderJob r).within JobStmt.order).Holds (fun _ => True)
        (fun l => ClaimRely (about h (.claimJob job r), l))
        (fun l => FillsVacancy (about h (.claimJob job r), l)) (Ends fun _ _ => True) w :=
      holds_within (claimJob_holds h r w)
    exact (holds_seq hevery fun _ w _ => ends_done (M := fun _ _ => True) trivial).ends
  | create id r => exact holds_unasked _ (fun _ _ _ _ _ habout => nomatch habout) w
  | patch r => exact holds_unasked _ (fun _ _ _ _ _ habout => nomatch habout) w
  | releaseJob job r => exact holds_unasked _ (fun _ _ _ _ _ habout => nomatch habout) w
  | drawJobs choice => exact holds_unasked _ (fun _ _ _ _ _ habout => nomatch habout) w
  | deleteUser r => exact holds_unasked _ (fun _ _ _ _ _ habout => nomatch habout) w

/-- The requests at their start. A statement is labelled with the vacancy its request means to
fill. -/
def arrivedJobs {ι : Type} (h : OrderHandlers) (reqs : ι → JobRequest) (w : World Db Time) :
    Config ι JobLabel Outcome (World Db Time) ApiError Unit where
  state := w
  procs := fun i => ((reqs i).serve h).within fun l => ((reqs i).about h, l)

/-- **It only fills a vacancy.** After any run in which nobody else fills the job between a claim's
read of the order and its `UPDATE`, that statement finds the job vacant. -/
theorem claimJob_fillsVacancy {ι : Type} [DecidableEq ι] {Env : World Db Time → World Db Time → Prop}
    (h : OrderHandlers) (reqs : ι → JobRequest) (w : World Db Time)
    {c c' : Config ι JobLabel Outcome (World Db Time) ApiError Unit} {i : ι} {id : UUID} {job : Job}
    (hrun : Run Env ClaimRely (arrivedJobs h reqs w) c)
    (hstep : Step Env c (.proc i (some (id, job), .assigns)) c') : Vacant id job c.state := by
  have hsafe : (arrivedJobs h reqs w).Safe (fun _ => True) ClaimRely FillsVacancy :=
    ⟨trivial, fun i => holds_within ((reqs i).holds h w)⟩
  exact hsafe.guarantee (fun _ _ _ _ => trivial) hrun hstep id job rfl rfl

/-! ## Two colleagues at once -/

/-- The database `lunch` with a second account. -/
def lunchForTwo : Db :=
  { lunch with
    appUsers := lunch.appUsers ++ [
      { id := ⟨9⟩, name := "bob", displayName := none, passwordHash := "*", email := none
        isAdmin := false, lastLoginAt := none }] }

/-- "Me!" -/
def fetchesTheFood (userID : UUID) : JobRequest :=
  .claimJob .food
    { id := (UUID.mk 6).string
      iid := ""
      principal := some { userID := userID, isAdmin := false }
      body := .ok () }

/-- Anna alone, before the deadline. -/
def annaClaims : Config Unit JobLabel Outcome (World Db Time) ApiError Unit :=
  arrivedJobs plainHandlers (fun _ => fetchesTheFood ⟨1⟩) { db := lunchForTwo, now := 50000 }

/-- She has read the order and looked at the clock, and fills a vacancy. -/
theorem claimJob_fillsVacancy_anna :
    Vacant ⟨6⟩ .food (annaClaims.advance () (.replicate 2 .ok)).state := by
  have hat : ((annaClaims.advance () (.replicate 2 .ok)).procs ()).waitsAt =
      some (some (⟨6⟩, .food), .assigns) := by decide +kernel
  have hrun : Run (fun _ _ => True) ClaimRely annaClaims
      (annaClaims.advance () (.replicate 2 .ok)) := run_alone annaClaims () _
  exact claimJob_fillsVacancy plainHandlers (fun _ => fetchesTheFood ⟨1⟩)
    { db := lunchForTwo, now := 50000 } hrun (step_advance hat .ok)

/-- Anna and Bob, before the deadline. -/
def bothClaim : Config Bool JobLabel Outcome (World Db Time) ApiError Unit :=
  arrivedJobs plainHandlers (fun anna => fetchesTheFood (if anna then ⟨1⟩ else ⟨9⟩))
    { db := lunchForTwo, now := 50000 }

/-- Both have found the job vacant, and Anna has it and her answer. -/
def annaFirst : Config Bool JobLabel Outcome (World Db Time) ApiError Unit :=
  ((bothClaim.advance true (.replicate 2 .ok)).advance false (.replicate 2 .ok)).advance true
    (.replicate 9 .ok)

/-- Without the rely, a claim that is answered with success takes the job off somebody. -/
theorem claimJob_replacesHolder :
    ¬ ∀ (h : OrderHandlers) (reqs : Bool → JobRequest) (w : World Db Time)
      (c c' c'' : Config Bool JobLabel Outcome (World Db Time) ApiError Unit) (i : Bool) (id : UUID)
      (job : Job),
      Run (fun _ _ => False) (fun _ _ _ => True) (arrivedJobs h reqs w) c →
      Step (fun _ _ => False) c (.proc i (some (id, job), .assigns)) c' →
      Run (fun _ _ => False) (fun _ _ _ => True) c' c'' →
      (c''.procs i).result = some (.ok ()) → Vacant id job c.state := by
  intro hevery
  have hquiet : ∀ (c : Config Bool JobLabel Outcome (World Db Time) ApiError Unit) m c',
      Undisturbed (fun _ _ _ => True) c m c' := fun _ _ _ _ _ _ _ => trivial
  have hrun : Run (fun _ _ => False) (fun _ _ _ => True) bothClaim annaFirst :=
    ((run_advance hquiet _ _ _).trans (run_advance hquiet _ _ _)).trans (run_advance hquiet _ _ _)
  have hat : (annaFirst.procs false).waitsAt = some (some (⟨6⟩, .food), .assigns) := by
    decide +kernel
  have hanswered : (((annaFirst.advance false [.ok]).advance false (.replicate 6 .ok)).procs
      false).result = some (.ok ()) := by decide +kernel
  have hvacant := hevery plainHandlers _ _ annaFirst _ _ false ⟨6⟩ .food hrun
    (step_advance hat .ok) (run_advance hquiet _ _ _) hanswered
  -- it was Anna's
  have hanna : (annaFirst.state.db.foodOrder ⟨6⟩).map Job.food.holder = some (some ⟨1⟩) := by
    decide +kernel
  obtain ⟨o, ho, hholder⟩ := Option.map_eq_some_iff.mp hanna
  rw [hvacant o ho] at hholder
  cases hholder

end Doenerstag
