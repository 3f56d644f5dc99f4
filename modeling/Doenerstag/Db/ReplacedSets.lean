import Doenerstag.Db.MenuItems
import Doenerstag.Db.OpeningHours

/-!
# Sets that are replaced (`internal/db/classification.go`, `openinghours.go`)

`replaceLinks` runs on the pool: its `DELETE` takes away the links that are not in the new set, its `INSERT`
adds those that are not there. Other calls come between the two.

* `LinksMove` — what each statement does, by the phase the call is in.
* `links_replaced` — what is linked when all calls have returned.
* `replaced_iff` — **a set that was replaced is one of the sets that were given, exactly when the sets of the
  calls that overlap the last `DELETE` are together one of them.**
-/

namespace Doenerstag

open ReadCommitted Prog

/-! ## One call -/

/-- Where a call stands: `broken` if its `INSERT` has failed. -/
inductive LinksPhase where
  | waiting
  | between
  | ended
  | failed
  | broken
  deriving DecidableEq, Repr

/-- The ids that an item is linked to. -/
def Classification.Linked (c : Classification) (db : Db) (itemID id : UUID) : Prop :=
  { menuItemID := itemID, targetID := id } ∈ c.links db

section Call

variable (c : Classification) (itemID : UUID) (linked : List UUID) (actor : UUID)

/-- The rest of a call, once the other links are deleted -/
def addLinks : DbProgram LinksStmt Unit := do
  let _ ← (exec .insert fun _ => c.insertLinks itemID actor linked).mapError linksError
  pure ()

/-- What is left of a call, by its phase. -/
inductive LinksAt : LinksPhase → DbProgram LinksStmt Unit → Prop where
  | start : LinksAt .waiting (replaceLinks c itemID linked actor)
  | cleared : LinksAt .between (addLinks c itemID linked actor)
  | ended : LinksAt .ended (.done ())
  | failed (x : DbError) : LinksAt .failed (.fail x)
  | broken (x : DbError) : LinksAt .broken (.fail x)

/-- What a statement of a call does. -/
inductive LinksMove : LinksPhase → LinksStmt → World Db Time → World Db Time → LinksPhase → Prop where
  | clear {w w' : World Db Time}
      (links : ∀ id, c.Linked w'.db itemID id ↔ c.Linked w.db itemID id ∧ id ∈ linked) :
      LinksMove .waiting .clear w w' (if linked.isEmpty then .ended else .between)
  | insert {w w' : World Db Time}
      (links : ∀ id, c.Linked w'.db itemID id ↔ c.Linked w.db itemID id ∨ id ∈ linked) :
      LinksMove .between .insert w w' .ended
  | failed (w : World Db Time) : LinksMove .waiting .clear w w .failed
  | broken (w : World Db Time) : LinksMove .between .insert w w .broken

variable {c itemID linked actor}

theorem clearLinks_linked {db db' : Db} {rows : Nat} (h : c.clearLinks itemID linked db = .ok (db', rows))
    (id : UUID) : c.Linked db' itemID id ↔ c.Linked db itemID id ∧ id ∈ linked := by
  cases h
  unfold Classification.Linked
  rw [Classification.links_setLinks, List.mem_filter]
  simp

theorem insertLinks_linked {db db' : Db} {rows : Nat} (h : c.insertLinks itemID actor linked db = .ok (db', rows))
    (id : UUID) : c.Linked db' itemID id ↔ c.Linked db itemID id ∨ id ∈ linked := by
  unfold Classification.insertLinks at h
  dsimp only at h
  split_ifs at h
  cases h
  have hrow : ∀ id', ({ menuItemID := itemID, targetID := id' } : MenuItemLinkRow) =
      { menuItemID := itemID, targetID := id } ↔ id' = id := by
    intro id'
    rw [MenuItemLinkRow.mk.injEq, and_iff_right rfl]
  unfold Classification.Linked
  rw [Classification.links_setLinks, List.mem_append, List.mem_map]
  constructor
  · rintro (hthere | ⟨id', hid, heq⟩)
    · exact .inl hthere
    · exact .inr ((hrow id').mp heq ▸ (mem_missing.mp hid).1)
  · rintro (hthere | hid)
    · exact .inl hthere
    · by_cases hthere : { menuItemID := itemID, targetID := id } ∈ c.links db
      · exact .inl hthere
      · exact .inr ⟨id, mem_missing.mpr ⟨hid, hthere⟩, rfl⟩

/-- A call that has returned has ended or failed. -/
theorem LinksAt.of_result {phase : LinksPhase} {p : DbProgram LinksStmt Unit}
    (h : LinksAt c itemID linked actor phase p) {r : Except DbError Unit} (hr : p.result = some r) :
    r = .ok () ∧ phase = .ended ∨ r ≠ .ok () ∧ (phase = .failed ∨ phase = .broken) := by
  cases h with
  | start => cases hr
  | cleared => cases hr
  | ended =>
    cases hr
    exact .inl ⟨rfl, rfl⟩
  | failed =>
    cases hr
    exact .inr ⟨(fun heq => by cases heq), .inl rfl⟩
  | broken =>
    cases hr
    exact .inr ⟨(fun heq => by cases heq), .inr rfl⟩

/-- A statement that is not skipped and goes well does what it is to do. -/
theorem update_of_changed {ε δ : Type} {e : Outcome} {db : δ} {u : Except ε (δ × Nat)} {r : δ × Nat}
    (h : e.found.changed db u = .ok r) : u = .ok r := by
  cases e with
  | failure => cases h
  | ok | noRow =>
    cases u with
    | error x => cases h
    | ok r' =>
      cases h
      rfl

/-- **The phases tell what a call does.** -/
theorem linksPhases : Phases (fun phase p => ∃ q, p = q.under Outcome.found ∧ LinksAt c itemID linked actor phase q)
    (LinksMove c itemID linked) := by
  refine Phases.under Outcome.found fun {phase l effect next} hat e w => ?_
  generalize hp : (Prog.step l effect next : DbProgram LinksStmt Unit) = p at hat
  cases hat with
  | start =>
    obtain ⟨rfl, hstep⟩ := step_of_write hp
    rcases hstep e.found w with ⟨x, -, heffect, hfail⟩ | ⟨r, hclear, heffect, hk⟩
    · rw [heffect, hfail]
      exact ⟨.failed, .failed _, .failed w⟩
    · rw [heffect, hk]
      have hmove : LinksMove c itemID linked .waiting .clear w { w with db := r.1 }
          (if linked.isEmpty then .ended else .between) :=
        .clear (clearLinks_linked (update_of_changed hclear))
      refine ⟨_, ?_, hmove⟩
      split_ifs
      · exact .ended
      · exact .cleared
  | cleared =>
    obtain ⟨rfl, hstep⟩ := step_of_write hp
    rcases hstep e.found w with ⟨x, -, heffect, hfail⟩ | ⟨r, hinsert, heffect, hk⟩
    · rw [heffect, hfail]
      exact ⟨.broken, .broken _, .broken w⟩
    · rw [heffect, hk]
      exact ⟨.ended, .ended, .insert (insertLinks_linked (update_of_changed hinsert))⟩
  | ended => cases hp
  | failed => cases hp
  | broken => cases hp

end Call

/-! ## Any number of calls -/

section Calls

variable {ι : Type} (c : Classification) (itemID : UUID) (linked : ι → List UUID) (keep : ι → Bool)
  (original : UUID → Prop)

/-- Those that are kept do not fail, and the others fail in their `DELETE`. -/
def KeptLinks (phases : ι → LinksPhase) : Prop :=
  ∀ i, if keep i then phases i ≠ .failed ∧ phases i ≠ .broken else phases i = .waiting ∨ phases i = .failed

/-- What is linked `now` comes from the calls that overlap the last kept `DELETE`, and what those of them that
have ended were given is there. -/
structure LinksHeld (under overlap : List ι) (phases : ι → LinksPhase) (now : UUID → Prop) : Prop where
  kept : ∀ i ∈ overlap, keep i = true
  under_between : ∀ i, keep i = true → phases i = .between → i ∈ under
  under_ended : ∀ i ∈ under, phases i = .ended → linked i = []
  upper : overlap ≠ [] → ∀ id, now id → ∃ i ∈ overlap, id ∈ linked i
  lower : ∀ i ∈ overlap, phases i = .ended → ∀ id ∈ linked i, now id
  original : overlap = [] → ∀ id, now id ↔ original id

/-- The invariant of the calls: it speaks of those that are kept. -/
structure LinksInvariant [DecidableEq ι] (movers : List (Mover ι LinksStmt)) (phases : ι → LinksPhase)
    (w : World Db Time) : Prop where
  broken : ∀ i, phases i = .broken → took .insert movers i = true
  held : KeptLinks keep phases → LinksHeld linked keep original
    (underway .clear .insert (among keep movers)) (overlapping .clear .insert (among keep movers))
    phases (c.Linked w.db itemID)

variable {c itemID linked keep original}

/-- The moves of a call that is not kept change nothing, and a kept call has not failed before. -/
theorem KeptLinks.before [DecidableEq ι] {phases : ι → LinksPhase} {i : ι} {l : LinksStmt} {w w' : World Db Time}
    {phase : LinksPhase} (h : KeptLinks keep (Function.update phases i phase))
    (move : LinksMove c itemID (linked i) (phases i) l w w' phase) : KeptLinks keep phases := by
  intro j
  have hj := h j
  by_cases hji : j = i
  · subst hji
    rw [Function.update_self] at hj
    generalize phases j = old at move
    split_ifs at hj ⊢
    · cases move with
      | clear => exact ⟨by decide, by decide⟩
      | insert => exact ⟨by decide, by decide⟩
      | failed => exact ⟨by decide, by decide⟩
      | broken => exact absurd rfl hj.2
    · cases move with
      | clear => exact .inl rfl
      | insert => exact absurd hj (by decide)
      | failed => exact .inl rfl
      | broken => exact absurd hj (by decide)
  · rw [Function.update_of_ne hji] at hj
    exact hj

namespace LinksHeld

variable [DecidableEq ι] {under overlap : List ι} {phases : ι → LinksPhase} {now now' : UUID → Prop} {i : ι}

/-- The `DELETE` of a call that is not kept fails. -/
theorem other {phase : LinksPhase} (h : LinksHeld linked keep original under overlap phases now)
    (hkeep : keep i = false) (hsub : ∀ j ∈ under, j ∈ overlap) :
    LinksHeld linked keep original under overlap (Function.update phases i phase) now := by
  have hne : ∀ j, keep j = true → j ≠ i := by
    rintro j hj rfl
    cases hkeep.symm.trans hj
  have hphase : ∀ j, keep j = true → Function.update phases i phase j = phases j :=
    fun j hj => Function.update_of_ne (hne j hj) ..
  refine { h with under_between := ?_, under_ended := ?_, lower := ?_ }
  · exact fun j hj hbetween => h.under_between j hj (hphase j hj ▸ hbetween)
  · exact fun j hj hended => h.under_ended j hj (hphase j (h.kept j (hsub j hj)) ▸ hended)
  · exact fun j hj hended => h.lower j hj (hphase j (h.kept j hj) ▸ hended)

/-- **A kept `DELETE`** leaves nothing that its call was not given. -/
theorem clear {phase : LinksPhase} (h : LinksHeld linked keep original under overlap phases now) (hkeep : keep i = true)
    (hsub : ∀ j ∈ under, j ∈ overlap) (hphase : phase = .ended → linked i = [])
    (hnow : ∀ id, now' id ↔ now id ∧ id ∈ linked i) :
    LinksHeld linked keep original (i :: under) (i :: under) (Function.update phases i phase) now' := by
  have hended : ∀ j ∈ i :: under, Function.update phases i phase j = .ended → linked j = [] := by
    intro j hj
    by_cases hji : j = i
    · subst hji
      rw [Function.update_self]
      exact hphase
    · rw [Function.update_of_ne hji]
      exact h.under_ended j ((List.mem_cons.mp hj).resolve_left hji)
  refine ⟨?_, ?_, hended, ?_, ?_, fun hnil => by cases hnil⟩
  · intro j hj
    rcases List.mem_cons.mp hj with rfl | hj
    · exact hkeep
    · exact h.kept j (hsub j hj)
  · intro j hj hbetween
    by_cases hji : j = i
    · rw [hji]
      exact List.mem_cons_self
    · rw [Function.update_of_ne hji] at hbetween
      exact List.mem_cons_of_mem _ (h.under_between j hj hbetween)
  · exact fun _ id hid => ⟨i, List.mem_cons_self, ((hnow id).mp hid).2⟩
  · intro j hj hphase id hid
    rw [hended j hj hphase] at hid
    cases hid

/-- **An `INSERT`** adds what its call was given. -/
theorem insert (h : LinksHeld linked keep original under overlap phases now) (hi : i ∈ overlap)
    (hnow : ∀ id, now' id ↔ now id ∨ id ∈ linked i) :
    LinksHeld linked keep original (under.filter (· ≠ i)) overlap (Function.update phases i .ended) now' := by
  refine ⟨h.kept, ?_, ?_, ?_, ?_, fun hnil => by rw [hnil] at hi; cases hi⟩
  · intro j hj hbetween
    by_cases hji : j = i
    · rw [hji, Function.update_self] at hbetween
      cases hbetween
    · rw [Function.update_of_ne hji] at hbetween
      exact List.mem_filter.mpr ⟨h.under_between j hj hbetween, decide_eq_true hji⟩
  · intro j hj hended
    obtain ⟨hj, hji⟩ := List.mem_filter.mp hj
    rw [Function.update_of_ne (of_decide_eq_true hji)] at hended
    exact h.under_ended j hj hended
  · intro hne id hid
    rcases (hnow id).mp hid with hid | hid
    · exact h.upper hne id hid
    · exact ⟨i, hi, hid⟩
  · intro j hj hended id hid
    by_cases hji : j = i
    · exact (hnow id).mpr (.inr (hji ▸ hid))
    · rw [Function.update_of_ne hji] at hended
      exact (hnow id).mpr (.inl (h.lower j hj hended id hid))

end LinksHeld

/-- **A move keeps the invariant.** -/
theorem LinksInvariant.proc [DecidableEq ι] {movers : List (Mover ι LinksStmt)} {phases : ι → LinksPhase}
    {w w' : World Db Time} {i : ι} {l : LinksStmt} {phase : LinksPhase}
    (h : LinksInvariant c itemID linked keep original movers phases w)
    (move : LinksMove c itemID (linked i) (phases i) l w w' phase) :
    LinksInvariant c itemID linked keep original (.proc i l :: movers) (Function.update phases i phase) w' where
  broken := by
    intro j hbroken
    by_cases hji : j = i
    · subst hji
      rw [Function.update_self] at hbroken
      subst hbroken
      generalize hold : phases j = old at move
      generalize hnew : LinksPhase.broken = new at move
      cases move with
      | clear => split_ifs at hnew
      | insert => cases hnew
      | failed => cases hnew
      | broken => exact took_self
    · rw [Function.update_of_ne hji] at hbroken
      rw [took_other fun hl => hji hl.1.symm]
      exact h.broken j hbroken
  held := by
    intro hkept
    have hheld := h.held (hkept.before move)
    have hsub : ∀ j ∈ underway .clear .insert (among keep movers), j ∈ overlapping .clear .insert (among keep movers) :=
      fun j hj => mem_overlapping_of_underway hj
    have hnew := hkept i
    rw [Function.update_self] at hnew
    cases hkeep : keep i with
    | false =>
      rw [if_neg (Bool.eq_false_iff.mp hkeep)] at hnew
      rw [among_other hkeep]
      generalize phases i = old at move
      cases move with
      | clear => split_ifs at hnew <;> simp at hnew
      | insert => simp at hnew
      | failed => exact hheld.other hkeep hsub
      | broken => simp at hnew
    | true =>
      rw [if_pos hkeep] at hnew
      rw [among_kept hkeep]
      generalize hphase : phases i = old at move
      cases move with
      | clear links =>
        rw [underway_first, overlapping_first]
        refine hheld.clear hkeep hsub (fun hended => ?_) links
        split_ifs at hended with hempty
        exact List.isEmpty_iff.mp hempty
      | insert links =>
        rw [underway_last (by decide), overlapping_other (by decide)]
        exact hheld.insert (hsub i (hheld.under_between i hkeep hphase)) links
      | failed => exact absurd rfl hnew.1
      | broken => exact absurd rfl hnew.2

/-- What is linked when all calls have returned: what those of them were given that overlap the last `DELETE`,
among those that have succeeded. -/
def linksLeft [DecidableEq ι] (linked : ι → List UUID) (original : UUID → Prop) (keep : ι → Bool)
    (movers : List (Mover ι LinksStmt)) (id : UUID) : Prop :=
  match overlapping .clear .insert (among keep movers) with
  | [] => original id
  | i :: others => ∃ j ∈ i :: others, id ∈ linked j

/-- **When all calls have returned, and no `INSERT` has failed**, that is what is linked. -/
theorem links_replaced [DecidableEq ι] {actor : ι → UUID} {Env : World Db Time → World Db Time → Prop}
    {w : World Db Time} {moves : List (Move ι LinksStmt (World Db Time))}
    {c' : Config ι LinksStmt Outcome (World Db Time) DbError Unit}
    (henv : ∀ w w', Env w w' → ∀ id, c.Linked w'.db itemID id ↔ c.Linked w.db itemID id)
    (h : History Env
      { state := w, procs := fun i => (replaceLinks c itemID (linked i) (actor i)).under Outcome.found } moves c')
    (hreturned : ∀ i, ∃ r, (c'.procs i).result = some r)
    (hkeep : ∀ i, keep i = true ↔ (c'.procs i).result = some (.ok ()))
    (hinsert : ∀ i, took .insert (moves.map Move.mover) i = true → keep i = true) (id : UUID) :
    c.Linked c'.state.db itemID id ↔
      linksLeft linked (c.Linked w.db itemID) keep (moves.map Move.mover) id := by
  obtain ⟨phases, hat, hinv⟩ := h.phases
    (J := LinksInvariant c itemID linked keep (c.Linked w.db itemID))
    (fun i => linksPhases) (fun i => ⟨_, rfl, .start⟩)
    { broken := fun i heq => by cases heq
      held := fun _ =>
        { kept := fun _ hi => by cases hi
          under_between := fun _ _ heq => by cases heq
          under_ended := fun _ hi => by cases hi
          upper := fun hne => absurd rfl hne
          lower := fun _ hi => by cases hi
          original := fun _ _ => Iff.rfl } }
    (fun movers phases s i l s' phase hinv move => hinv.proc move)
    (fun movers phases s s' hinv change =>
      { broken := hinv.broken
        held := fun hkept =>
          { hinv.held hkept with
            upper := fun hne id hid => (hinv.held hkept).upper hne id ((henv s s' change id).mp hid)
            lower := fun i hi hended id hid =>
              (henv s s' change id).mpr ((hinv.held hkept).lower i hi hended id hid)
            original := fun hnil id => (henv s s' change id).trans ((hinv.held hkept).original hnil id) } })
  have hended : ∀ i, if keep i then phases i = .ended else phases i = .failed := by
    intro i
    obtain ⟨q, hq, hphase⟩ := hat i
    obtain ⟨r, hr⟩ := hreturned i
    have hkeep' := hkeep i
    rw [hr] at hkeep'
    rw [hq, result_under] at hr
    rcases hphase.of_result hr with ⟨rfl, hended⟩ | ⟨hne, hfailed⟩
    · rw [if_pos (hkeep'.mpr rfl)]
      exact hended
    · have hnot : ¬ keep i = true := fun htrue => hne (Option.some.inj (hkeep'.mp htrue))
      rw [if_neg hnot]
      exact hfailed.resolve_right fun hbroken => hnot (hinsert i (hinv.broken i hbroken))
  have hkept : KeptLinks keep phases := by
    intro i
    have hi := hended i
    split_ifs at hi ⊢
    · rw [hi]
      exact ⟨by decide, by decide⟩
    · exact .inr hi
  have hheld := hinv.held hkept
  unfold linksLeft
  cases hT : overlapping .clear .insert (among keep (moves.map Move.mover)) with
  | nil => exact hheld.original hT id
  | cons i others =>
    rw [hT] at hheld
    constructor
    · exact hheld.upper (List.cons_ne_nil i others) id
    · rintro ⟨j, hj, hid⟩
      have hphase := hended j
      rw [if_pos (hheld.kept j hj)] at hphase
      exact hheld.lower j hj hphase id hid

end Calls

/-! ## Sets that were given -/

section Replaced

variable {ι : Type} [DecidableEq ι]

/-- Any number of calls have replaced the opening hours of a restaurant, and nothing else has changed them. -/
def HoursReplaced (calls : ι → HoursCall) (restaurantID : UUID) (w : World Db Time)
    (moves : List (Move ι HoursStmt (World Db Time))) (w' : World Db Time) : Prop :=
  HoursCalls calls restaurantID (w.db.hoursOf restaurantID) ∧
    ∃ (Env : World Db Time → World Db Time → Prop)
      (c : Config ι HoursStmt Outcome (World Db Time) DbError (List OpeningHoursRow)),
      (∀ w w', Env w w' → w'.db.hoursOf restaurantID = w.db.hoursOf restaurantID) ∧
      History Env { state := w, procs := fun i => (replaceOpeningHours (calls i)).under Outcome.found } moves c ∧
      (∀ i, ∃ r, (c.procs i).result = some r) ∧ c.state = w'

/-- Any number of calls have replaced the links of an item, those that are kept with success, and nothing else has
changed them. -/
def LinksReplaced (c : Classification) (itemID : UUID) (linked : ι → List UUID) (actor : ι → UUID)
    (keep : ι → Bool) (w : World Db Time) (moves : List (Move ι LinksStmt (World Db Time)))
    (w' : World Db Time) : Prop :=
  ∃ (Env : World Db Time → World Db Time → Prop) (c' : Config ι LinksStmt Outcome (World Db Time) DbError Unit),
    (∀ w w', Env w w' → ∀ id, c.Linked w'.db itemID id ↔ c.Linked w.db itemID id) ∧
    History Env
      { state := w, procs := fun i => (replaceLinks c itemID (linked i) (actor i)).under Outcome.found } moves c' ∧
    (∀ i, ∃ r, (c'.procs i).result = some r) ∧
    (∀ i, keep i = true ↔ (c'.procs i).result = some (.ok ())) ∧ c'.state = w'

/-- The hours of a restaurant are those that a call was given. -/
def HoursCall.Stored (call : HoursCall) (restaurantID : UUID) (db : Db) : Prop :=
  ((db.hoursOf restaurantID).map fun r => some r.hours).Perm call.given

end Replaced

/-- **What is there in the end is one of the sets that were given**, exactly when the sets of the calls that overlap
the last `DELETE` are together one of them; of links, as long as no `INSERT` has failed. -/
theorem replaced_iff {ι : Type} [DecidableEq ι] :
    (∀ (calls : ι → HoursCall) (restaurantID : UUID) (w w' : World Db Time)
      (moves : List (Move ι HoursStmt (World Db Time))),
      HoursReplaced calls restaurantID w moves w' →
      ((∃ i, (calls i).Stored restaurantID w'.db) ↔
        ∃ i, (hoursLeft calls (w.db.hoursOf restaurantID) (moves.map Move.mover)).Perm (calls i).given)) ∧
    ∀ (c : Classification) (itemID : UUID) (linked : ι → List UUID) (actor : ι → UUID) (keep : ι → Bool)
      (w w' : World Db Time) (moves : List (Move ι LinksStmt (World Db Time))),
      LinksReplaced c itemID linked actor keep w moves w' →
      (∀ i, took .insert (moves.map Move.mover) i = true → keep i = true) →
      ((∃ i, ∀ id, c.Linked w'.db itemID id ↔ id ∈ linked i) ↔
        ∃ i, ∀ id, linksLeft linked (c.Linked w.db itemID) keep (moves.map Move.mover) id ↔ id ∈ linked i) := by
  refine ⟨?_, ?_⟩
  · rintro calls restaurantID w w' moves ⟨hcalls, Env, c, henv, hhistory, hreturned, rfl⟩
    have hleft := hours_replaced hcalls henv hhistory hreturned
    exact exists_congr fun i => ⟨hleft.symm.trans, hleft.trans⟩
  · rintro c itemID linked actor keep w w' moves ⟨Env, c', henv, hhistory, hreturned, hkeep, rfl⟩ hinsert
    have hleft := links_replaced henv hhistory hreturned hkeep hinsert
    refine exists_congr fun i => forall_congr' fun id => ?_
    rw [hleft id]

/-! ## Two calls -/

/-- One of them opens on Mondays, the other on Tuesdays. -/
def weekdayHours (later : Bool) : HoursCall where
  restaurantID := ⟨2⟩
  actor := ⟨1⟩
  periods :=
    if later then [(⟨12⟩, { dayOfWeek := 2, start := "11:00", stop := "22:00" })]
    else [(⟨11⟩, { dayOfWeek := 1, start := "11:00", stop := "22:00" })]

/-- One of them makes the dish vegan, the other hot. -/
def dishTags (later : Bool) : List UUID := if later then [⟨21⟩] else [⟨20⟩]

def taggedLunch : Db := { lunch with tags := [{ id := ⟨20⟩, code := "vegan" }, { id := ⟨21⟩, code := "hot" }] }

def hoursStart : Config Bool HoursStmt Outcome (World Db Time) DbError (List OpeningHoursRow) :=
  { state := { db := lunch, now := 0 }, procs := fun i => (replaceOpeningHours (weekdayHours i)).under Outcome.found }

def tagsStart : Config Bool LinksStmt Outcome (World Db Time) DbError Unit :=
  { state := { db := taggedLunch, now := 0 }
    procs := fun i => (replaceLinks .tag ⟨4⟩ (dishTags i) ⟨1⟩).under Outcome.found }

theorem weekdayHours_calls : HoursCalls weekdayHours ⟨2⟩ (lunch.hoursOf ⟨2⟩) where
  restaurant := fun _ => rfl
  distinct := by decide
  new := by decide

/-- One after the other, the first call to its end. -/
def hoursInTurn : List (Move Bool HoursStmt (World Db Time)) :=
  (hoursStart.advance false [.ok, .ok, .ok, .ok, .ok]).movesOf true [.ok, .ok, .ok, .ok, .ok] ++
    (hoursStart.movesOf false [.ok, .ok, .ok, .ok, .ok] ++ [])

def tagsInTurn : List (Move Bool LinksStmt (World Db Time)) :=
  (tagsStart.advance false [.ok, .ok]).movesOf true [.ok, .ok] ++ (tagsStart.movesOf false [.ok, .ok] ++ [])

theorem replaced_inTurn :
    (∃ i, (weekdayHours i).Stored ⟨2⟩ ((hoursStart.advance false [.ok, .ok, .ok, .ok, .ok]).advance true
      [.ok, .ok, .ok, .ok, .ok]).state.db) ∧
    ∃ i, ∀ id, Classification.tag.Linked
      ((tagsStart.advance false [.ok, .ok]).advance true [.ok, .ok]).state.db ⟨4⟩ id ↔ id ∈ dishTags i := by
  refine ⟨?_, ?_⟩
  · refine (replaced_iff.1 weekdayHours ⟨2⟩ { db := lunch, now := 0 } _ hoursInTurn ?_).mpr ⟨true, by decide +kernel⟩
    refine ⟨weekdayHours_calls, fun _ _ => False, _, fun _ _ h => h.elim, ?_, ?_, rfl⟩
    · exact (History.advance .start false _).advance true _
    · exact fun i => Option.isSome_iff_exists.mp (by revert i; decide +kernel)
  · have htags : overlapping .clear .insert (among (fun _ => true) (tagsInTurn.map Move.mover)) = [true] := by
      decide +kernel
    refine (replaced_iff.2 .tag ⟨4⟩ dishTags (fun _ => ⟨1⟩) (fun _ => true) { db := taggedLunch, now := 0 } _
      tagsInTurn ?_ fun _ _ => rfl).mpr ⟨true, fun id => ?_⟩
    · refine ⟨fun _ _ => False, _, fun _ _ h => h.elim, (History.advance .start false _).advance true _, ?_, ?_, rfl⟩
      · exact fun i => Option.isSome_iff_exists.mp (by revert i; decide +kernel)
      · intro i
        cases i with
        | false => exact ⟨fun _ => rfl, fun _ => rfl⟩
        | true => exact ⟨fun _ => rfl, fun _ => rfl⟩
    · unfold linksLeft
      rw [htags]
      simp

/-- The second call runs to its end between the `DELETE` and the `INSERT` of the first. -/
def hoursAcross : Config Bool HoursStmt Outcome (World Db Time) DbError (List OpeningHoursRow) :=
  ((hoursStart.advance false [.ok, .ok]).advance true [.ok, .ok, .ok, .ok, .ok]).advance false [.ok, .ok, .ok]

def tagsAcross : Config Bool LinksStmt Outcome (World Db Time) DbError Unit :=
  ((tagsStart.advance false [.ok]).advance true [.ok, .ok]).advance false [.ok]

/-- The restaurant is open on two people's hours, and the dish has two people's tags. -/
theorem replaced_mixed :
    (¬ ∀ (calls : Bool → HoursCall) (restaurantID : UUID) (w w' : World Db Time)
      (moves : List (Move Bool HoursStmt (World Db Time))),
      HoursReplaced calls restaurantID w moves w' → ∃ i, (calls i).Stored restaurantID w'.db) ∧
    ¬ ∀ (c : Classification) (itemID : UUID) (linked : Bool → List UUID) (actor : Bool → UUID)
      (w w' : World Db Time) (moves : List (Move Bool LinksStmt (World Db Time))),
      LinksReplaced c itemID linked actor (fun _ => true) w moves w' →
      ∃ i, ∀ id, c.Linked w'.db itemID id ↔ id ∈ linked i := by
  refine ⟨fun hevery => ?_, fun hevery => ?_⟩
  · obtain ⟨moves, hhistory⟩ : ∃ moves, History (fun _ _ => False) hoursStart moves hoursAcross :=
      ⟨_, ((History.advance .start false _).advance true _).advance false _⟩
    have hreplaced : HoursReplaced weekdayHours ⟨2⟩ { db := lunch, now := 0 } moves hoursAcross.state := by
      refine ⟨weekdayHours_calls, fun _ _ => False, _, fun _ _ h => h.elim, hhistory, ?_, rfl⟩
      exact fun i => Option.isSome_iff_exists.mp (by revert i; decide +kernel)
    have htwo : ((hoursAcross.state.db.hoursOf ⟨2⟩).map fun r => some r.hours).length = 2 := by decide +kernel
    have hone : ∀ i, (weekdayHours i).given.length = 1 := by decide +kernel
    obtain ⟨i, hstored⟩ := hevery _ _ _ _ _ hreplaced
    have hlength := hstored.length_eq
    rw [htwo, hone i] at hlength
    cases hlength
  · obtain ⟨moves, hhistory⟩ : ∃ moves, History (fun _ _ => False) tagsStart moves tagsAcross :=
      ⟨_, ((History.advance .start false _).advance true _).advance false _⟩
    have hreplaced : LinksReplaced .tag ⟨4⟩ dishTags (fun _ => ⟨1⟩) (fun _ => true)
        { db := taggedLunch, now := 0 } moves tagsAcross.state := by
      refine ⟨fun _ _ => False, _, fun _ _ h => h.elim, hhistory, ?_, ?_, rfl⟩
      · exact fun i => Option.isSome_iff_exists.mp (by revert i; decide +kernel)
      · intro i
        cases i with
        | false => exact ⟨fun _ => rfl, fun _ => rfl⟩
        | true => exact ⟨fun _ => rfl, fun _ => rfl⟩
    obtain ⟨i, hlinked⟩ := hevery _ _ _ _ _ _ _ hreplaced
    have hvegan : Classification.tag.Linked tagsAcross.state.db ⟨4⟩ ⟨20⟩ := by
      unfold Classification.Linked
      decide +kernel
    have hhot : Classification.tag.Linked tagsAcross.state.db ⟨4⟩ ⟨21⟩ := by
      unfold Classification.Linked
      decide +kernel
    have hboth : ∀ i, ¬ ((⟨20⟩ : UUID) ∈ dishTags i ∧ (⟨21⟩ : UUID) ∈ dishTags i) := by decide
    exact hboth i ⟨(hlinked _).mp hvegan, (hlinked _).mp hhot⟩

end Doenerstag
