import Doenerstag.Lib.Failure

/-!
# A transaction that nobody disturbs

What a transaction comes to when nothing else is committed while it runs, and every statement that goes
through finds the rows that are there (`Outcome.found`). Its statements only stage their writes, so that up to
the commit nothing has changed.

* `Tx.query_found`, `Tx.queryRow_found`, `Tx.exec_found`, `Tx.insert_found` — each statement on the tables
  that the transaction sees; `query_found`, `select_found`, `run_exec_found` — one on the pool.
* `answered_bind_found` — one program after the other, when every statement goes well.
* `run_transaction` — **a transaction that ends with a value has put the tables it sees into the world.**
* `quiet_transaction` — **one that ends with an error has changed nothing.**
* `run_transaction_then`, `refused_transaction_then`, `failed_transaction_then` — the same with a read-back
  behind the commit.
-/

namespace Prog

variable {ℓ ℓ' ε ε' σ χ χ' α β : Type}

theorem under_within (f : ε' → ε) (g : ℓ → ℓ') (p : Prog ℓ ε σ χ α) :
    (p.within g).under f = (p.under f).within g := by
  induction p with
  | done a => rfl
  | fail x => rfl
  | step l effect next ih =>
    show step (g l) _ _ = step (g l) _ _
    congr 1
    funext e s
    exact ih (f e) s

/-- A run under other outcomes is the run that comes to these. -/
theorem run_under (f : ε' → ε) (ω : ℓ → ε') (p : Prog ℓ ε σ χ α) (s : σ) : (p.under f).run ω s = p.run (f ∘ ω) s := by
  induction p generalizing s with
  | done a => rfl
  | fail x => rfl
  | step l effect next ih => exact ih (f (ω l)) s _

/-- What every step does, it does under other outcomes. -/
theorem Steps.under {P : ℓ → σ → σ → Prop} {p : Prog ℓ ε σ χ α} (h : p.Steps P) (f : ε' → ε) :
    (p.under f).Steps P := by
  induction p with
  | done a => exact steps_done a
  | fail x => exact steps_fail x
  | step l effect next ih =>
    refine steps_step.mpr fun e s => ?_
    obtain ⟨hstep, hrest⟩ := steps_step.mp h (f e) s
    exact ⟨hstep, ih (f e) s hrest⟩

/-- What a program returns, it returns under other outcomes. -/
theorem Returns.under {I : σ → Prop} {A : α → Prop} {p : Prog ℓ ε σ χ α} (h : p.Returns I A)
    (f : ε' → ε) : (p.under f).Returns I A := by
  induction p with
  | done a => exact returns_done.mpr (returns_done.mp h)
  | fail x => exact returns_fail x
  | step l effect next ih =>
    refine returns_step.mpr fun e s hI => ?_
    exact ih (f e) s (returns_step.mp h (f e) s hI)

theorem Returns.and {I : σ → Prop} {A B : α → Prop} {p : Prog ℓ ε σ χ α} (hA : p.Returns I A) (hB : p.Returns I B) :
    p.Returns I fun a => A a ∧ B a := by
  induction p with
  | done a => exact returns_done.mpr ⟨returns_done.mp hA, returns_done.mp hB⟩
  | fail x => exact returns_fail x
  | step l effect next ih =>
    exact returns_step.mpr fun e s hI => ih e s (returns_step.mp hA e s hI) (returns_step.mp hB e s hI)

theorem Returns.under_within {I : σ → Prop} {A : α → Prop} {p : Prog ℓ ε σ χ α} {f : ε' → ε}
    (h : (p.under f).Returns I A) (g : ℓ → ℓ') : ((p.within g).under f).Returns I A := by
  rw [Prog.under_within]
  exact h.within g

end Prog

namespace ReadCommitted

open Prog

variable {ℓ δ τ φ χ β γ : Type} {ω : ℓ → Outcome} {w : World δ τ} {l : ℓ} {tx : Tx φ δ τ} {view : δ}

/-! ## The statements -/

/-- A transaction sees what is committed when it begins. -/
theorem begin_found (f : Outcome → Outcome) :
    ((begin l : Program ℓ δ τ (StmtError φ) (Tx φ δ τ)).under f).Returns (· = w) fun tx =>
      tx.began = w.now ∧ tx.view w.db = .ok w.db := by
  rw [begin, under_read]
  refine read_returns fun e w' tx hw htx => ?_
  rw [Outcome.rows_eq_ok htx, hw]
  exact ⟨rfl, rfl⟩

/-- A query on the pool finds the tables as they are. -/
theorem query_found {I : World δ τ → Prop} {db : δ} (hI : ∀ w, I w → w.db = db) (q : δ → β) :
    (query l q : Program ℓ δ τ (StmtError φ) β).Returns I (· = q db) := by
  refine read_returns fun e w b hw hb => ?_
  rw [← hI w hw]
  exact Outcome.rows_eq_ok hb

theorem select_found {I : World δ τ → Prop} {db : δ} (hI : ∀ w, I w → w.db = db) (q : δ → Except φ β) :
    (select l q : Program ℓ δ τ (StmtError φ) β).Returns I fun b => q db = .ok b := by
  refine read_returns fun e w b hw hb => ?_
  rw [← hI w hw]
  exact Outcome.selected_eq_ok hb

theorem Tx.query_found (hview : tx.view w.db = .ok view) (q : δ → β) (f : Outcome → Outcome) :
    ((tx.query l q).under f).Returns (· = w) (· = q view) := by
  rw [Tx.query, under_read]
  refine read_returns fun e w' b hw hb => ?_
  subst hw
  obtain ⟨seen, hseen, hrows⟩ := Tx.onView_eq_ok hb
  cases hview.symm.trans hseen
  exact Outcome.rows_eq_ok hrows

theorem Tx.queryRow_found (hview : tx.view w.db = .ok view) (q : δ → Option β) (f : Outcome → Outcome) :
    ((tx.queryRow l q).under f).Returns (· = w) fun b => q view = some b := by
  rw [Tx.queryRow, under_read]
  refine read_returns fun e w' b hw hb => ?_
  subst hw
  obtain ⟨seen, hseen, hrow⟩ := Tx.onView_eq_ok hb
  cases hview.symm.trans hseen
  exact Outcome.row_eq_ok hrow

theorem Tx.select_found (hview : tx.view w.db = .ok view) (q : δ → Except φ β) (f : Outcome → Outcome) :
    ((tx.select l q).under f).Returns (· = w) fun b => q view = .ok b := by
  rw [Tx.select, under_read]
  refine read_returns fun e w' b hw hb => ?_
  subst hw
  obtain ⟨seen, hseen, hrows⟩ := Tx.onView_eq_ok hb
  cases hview.symm.trans hseen
  exact Outcome.selected_eq_ok hrows

/-- A statement changes what the transaction sees as it says. -/
theorem Tx.exec_found (hview : tx.view w.db = .ok view) (u : δ → δ → Except φ δ) :
    ((tx.exec l u).under Outcome.found).Returns (· = w) fun tx' =>
      tx'.began = tx.began ∧ ∃ view', tx'.view w.db = .ok view' ∧ u view view = .ok view' := by
  rw [Tx.exec, under_read]
  refine read_returns fun e w' tx' hw htx => ?_
  subst hw
  cases e with
  | failure => cases htx
  | ok | noRow =>
    obtain ⟨seen, hseen, hstage⟩ := Tx.onView_eq_ok htx
    cases hview.symm.trans hseen
    exact Tx.view_of_stage hview hstage

theorem Tx.insert_found (hview : tx.view w.db = .ok view) (u : δ → Except φ δ) (f : Outcome → Outcome) :
    ((tx.insert l u).under f).Returns (· = w) fun tx' =>
      tx'.began = tx.began ∧ ∃ view', tx'.view w.db = .ok view' ∧ u view = .ok view' := by
  rw [Tx.insert, under_read]
  refine read_returns fun e w' tx' hw htx => ?_
  subst hw
  cases hf : f e with
  | failure =>
    rw [hf] at htx
    cases htx
  | ok | noRow =>
    rw [hf] at htx
    exact Tx.view_of_stage hview htx

/-- A statement on the pool, likewise, on what is committed -/
theorem run_exec_found {u : τ → δ → Except φ (δ × Nat)} {rows : Nat} {w' : World δ τ}
    (hrun : ((exec l u : Program ℓ δ τ (StmtError φ) Nat).under Outcome.found).run ω w = (.ok rows, w')) :
    ∃ db, u w.now w.db = .ok (db, rows) ∧ w' = { w with db } := by
  rw [exec, under_write, run_write] at hrun
  obtain ⟨hok, hstate⟩ := Prod.ext_iff.mp hrun
  obtain ⟨r, hr, hrows⟩ := exceptMap_eq_ok hok
  have hupdate : u w.now w.db = .ok r := by
    cases hω : ω l with
    | failure =>
      rw [hω] at hr
      cases hr
    | ok | noRow =>
      rw [hω] at hr
      exact exceptMapError_eq_ok hr
  refine ⟨r.1, hrows ▸ hupdate, ?_⟩
  have hafter : w.after ((ω l).found.changed w.db (u w.now w.db)) = w' := hstate
  rw [← hafter, hr]
  rfl

/-- One that fails has changed nothing. -/
theorem failed_exec_found {u : τ → δ → Except φ (δ × Nat)} {g : StmtError φ → χ} {x : χ} {w' : World δ τ}
    (hrun : (((exec l u : Program ℓ δ τ (StmtError φ) Nat).under Outcome.found).mapError g).run ω w =
      (.error x, w')) : w' = w := by
  have hquiet : (((exec l u : Program ℓ δ τ (StmtError φ) Nat).under Outcome.found).mapError g).Quiet
      (fun w => w) ω w := by
    rw [exec, under_write]
    exact write_quiet.mapError g
  have hsame := hquiet x (congrArg Prod.fst hrun)
  rwa [hrun] at hsame

/-! ## Programs that go well -/

/-- With statements that go through, nothing is to be found. -/
theorem run_under_found {χ α : Type} {p : Program ℓ δ τ χ α} (hω : ∀ l, ω l = .ok) (w : World δ τ) :
    (p.under Outcome.found).run ω w = p.run ω w := by
  induction p generalizing w with
  | done a => rfl
  | fail x => rfl
  | step l effect next ih =>
    show ((next (ω l).found w).under Outcome.found).run ω (effect (ω l).found w) = (next (ω l) w).run ω (effect (ω l) w)
    rw [hω l]
    exact ih .ok w _

/-- **A program that only reads, and then one that goes well with what it may return.** -/
theorem answered_bind_found {χ α : Type} {p : Program ℓ δ τ χ α} {k : α → Program ℓ δ τ χ β} {A : α → Prop}
    (hω : ∀ l, ω l = .ok) (hreads : p.ReadOnly) (hanswered : p.Answered ω w)
    (hreturns : (p.under Outcome.found).Returns (· = w) A) (hk : ∀ a, A a → (k a).Answered ω w) :
    (p >>= k).Answered ω w := by
  obtain ⟨a, ha⟩ := hanswered
  have hfound : ((p.under Outcome.found).run ω w).1 = .ok a := by
    rw [run_under_found hω]
    exact ha
  have hA : A a := hreturns.run (Steps.under (P := fun _ s s' => s' = s) hreads _) rfl hfound
  refine answered_bind.mpr ⟨a, ha, ?_⟩
  rw [run_readOnly hreads]
  exact hk a hA

/-! ## The whole -/

section Whole

variable {stage : Program ℓ δ τ χ (Tx φ δ τ)} {g : StmtError φ → χ} {P : δ → Prop}

/-- **What the transaction sees in the end is there once it has committed.** -/
theorem run_transaction (hreads : stage.ReadOnly)
    (hsees : (stage.under Outcome.found).Returns (· = w) fun tx => ∃ view, tx.view w.db = .ok view ∧ P view)
    {w' : World δ τ} {u : Unit}
    (hrun : ((stage >>= fun tx => (tx.commit l).mapError g).under Outcome.found).run ω w = (.ok u, w')) :
    ∃ view, P view ∧ w' = { w with db := view } := by
  have hquiet : (stage.under Outcome.found).ReadOnly := Steps.under hreads _
  rw [under_bind] at hrun
  obtain ⟨tx, hstage, hcommit⟩ := hquiet.run_bind_eq_ok hrun
  obtain ⟨view, hview, hP⟩ := hsees.run hquiet rfl (congrArg Prod.fst hstage)
  rw [under_mapError] at hcommit
  have hdone := run_mapError_eq_ok hcommit
  rw [Tx.commit, under_write, run_write] at hdone
  obtain ⟨hok, hstate⟩ := Prod.ext_iff.mp hdone
  obtain ⟨r, hr, -⟩ := exceptMap_eq_ok hok
  have hdb : tx.view w.db = .ok r.1 := tx.committed_eq_ok (u := r.2) hr
  cases hview.symm.trans hdb
  refine ⟨r.1, hP, ?_⟩
  have hafter : w.after (tx.committed (ω l).found w.db) = w' := hstate
  rw [← hafter, hr]
  rfl

/-- **A transaction that fails, at a statement or at its commit, has changed nothing.** -/
theorem quiet_transaction (observe : World δ τ → γ) (hreads : stage.ReadOnly) (f : Outcome → Outcome) :
    ((stage >>= fun tx => (tx.commit l).mapError g).under f).Quiet observe ω w := by
  have hquiet : (stage.under f).ReadOnly := Steps.under hreads _
  rw [under_bind]
  refine hquiet.quiet_bind fun tx _ => ?_
  rw [under_mapError, Tx.commit, under_write]
  exact write_quiet.mapError g

/-! ### A read-back behind it -/

variable {rest : Program ℓ δ τ χ β} {w' : World δ τ}

/-- A transaction and what is read after it -/
theorem run_transaction_then (hreads : stage.ReadOnly)
    (hsees : (stage.under Outcome.found).Returns (· = w) fun tx => ∃ view, tx.view w.db = .ok view ∧ P view)
    (hrest : rest.ReadOnly) {b : β}
    (hrun : (((stage >>= fun tx => (tx.commit l).mapError g) >>= fun _ => rest).under Outcome.found).run ω w =
      (.ok b, w')) :
    ∃ view, P view ∧ w' = { w with db := view } ∧ ((rest.under Outcome.found).run ω w').1 = .ok b := by
  rw [under_bind] at hrun
  obtain ⟨u, w₁, hcommitted, hread⟩ := run_bind_eq_ok hrun
  obtain ⟨view, hP, rfl⟩ := run_transaction hreads hsees hcommitted
  have hstate := run_readOnly (Steps.under (P := fun _ s s' => s' = s) hrest Outcome.found) ω
    { w with db := view }
  rw [hread] at hstate
  have hafter : w' = { w with db := view } := hstate
  refine ⟨view, hP, hafter, ?_⟩
  rw [hafter, hread]

/-- An error that the read-back never comes to is from before it, when nothing had changed. -/
theorem refused_transaction_then {X : χ → Prop} (hreads : stage.ReadOnly) (hthrows : rest.Throws X) {x : χ}
    (hx : ¬ X x)
    (hrun : (((stage >>= fun tx => (tx.commit l).mapError g) >>= fun _ => rest).under Outcome.found).run ω w =
      (.error x, w')) : w' = w := by
  have hquiet := quiet_transaction (l := l) (g := g) (ω := ω) (w := w) (fun w => w) hreads Outcome.found
  rw [under_bind, run_bind] at hrun
  rcases hcommitted : ((stage >>= fun tx => (tx.commit l).mapError g).under Outcome.found).run ω w with
    ⟨y | u, w₁⟩
  · have hsame := hquiet y (congrArg Prod.fst hcommitted)
    rw [hcommitted] at hrun hsame
    exact (congrArg Prod.snd hrun).symm.trans hsame
  · rw [hcommitted] at hrun
    exact absurd ((hthrows.under _).run (congrArg Prod.fst hrun)) hx

/-- A transaction that fails is not read back. -/
theorem failed_transaction_then (hreads : stage.ReadOnly) {x : χ}
    (hrun : ((stage >>= fun tx => (tx.commit l).mapError g).under Outcome.found).run ω w = (.error x, w')) :
    w' = w ∧ (((stage >>= fun tx => (tx.commit l).mapError g) >>= fun _ => rest).under Outcome.found).run ω w =
      (.error x, w) := by
  have hsame := quiet_transaction (l := l) (g := g) (ω := ω) (w := w) (fun w => w) hreads
    Outcome.found x (congrArg Prod.fst hrun)
  rw [hrun] at hsame
  refine ⟨hsame, ?_⟩
  rw [under_bind, run_bind, hrun]
  exact congrArg _ hsame

end Whole

end ReadCommitted
