import Doenerstag.Lib.ReadCommitted

/-!
# Runs that fail

What a program that ends with an error leaves behind, for runs without interference in which every
statement goes as an oracle says.

* `Prog.Answered` — the run ends with a value, with a rule for each way to compose programs.
* `Prog.Quiet` — a run that fails has changed nothing of what is observed.
* `Prog.quiet_bind_iff` — **a quiet program followed by one that only reads is quiet exactly when
  the second succeeds wherever the first has changed something.**
-/

namespace Prog

variable {ℓ ℓ' ε σ χ χ' α β γ : Type}

/-- The run ends with a value. -/
def Answered (ω : ℓ → ε) (p : Prog ℓ ε σ χ α) (s : σ) : Prop := ∃ a, (p.run ω s).1 = .ok a

/-- If the run fails, what is observed of the state is as it was. -/
def Quiet (view : σ → γ) (ω : ℓ → ε) (p : Prog ℓ ε σ χ α) (s : σ) : Prop :=
  ∀ x, (p.run ω s).1 = .error x → view (p.run ω s).2 = view s

/-! ## Composition -/

/-- What a program that only reads returns in a run. -/
theorem Returns.run {I : σ → Prop} {A : α → Prop} {p : Prog ℓ ε σ χ α} (h : p.Returns I A)
    (hp : p.ReadOnly) {ω : ℓ → ε} {s : σ} (hI : I s) {a : α} (ha : (p.run ω s).1 = .ok a) :
    A a := by
  induction p with
  | done b =>
    cases ha
    exact returns_done.mp h
  | fail x => cases ha
  | step l effect next ih =>
    obtain ⟨hsame, hrest⟩ := steps_step.mp hp (ω l) s
    rw [run_step, hsame] at ha
    exact ih (ω l) s (returns_step.mp h (ω l) s hI) hrest ha

/-- What every step does to the state, up to repetition, a run does. -/
theorem Steps.run {K : σ → σ → Prop} (hrefl : ∀ s, K s s)
    (htrans : ∀ s₁ s₂ s₃, K s₁ s₂ → K s₂ s₃ → K s₁ s₃) {p : Prog ℓ ε σ χ α}
    (h : p.Steps fun _ => K) (ω : ℓ → ε) (s : σ) : K s (p.run ω s).2 := by
  induction p generalizing s with
  | done a => exact hrefl s
  | fail x => exact hrefl s
  | step l effect next ih =>
    obtain ⟨hstep, hrest⟩ := steps_step.mp h (ω l) s
    exact htrans _ _ _ hstep (ih (ω l) s hrest _)

/-! ## The errors of a program -/

/-- Every error the program may end with satisfies `X`. -/
def Throws (X : χ → Prop) : Prog ℓ ε σ χ α → Prop
  | done _ => True
  | fail x => X x
  | step _ _ next => ∀ e s, (next e s).Throws X

namespace Throws

variable {X : χ → Prop}

theorem done (a : α) : (Prog.done a : Prog ℓ ε σ χ α).Throws X := trivial

theorem require {condition : Bool} {x : χ} (h : X x) :
    (Prog.require condition x : Prog ℓ ε σ χ Unit).Throws X := by
  cases condition
  · exact h
  · trivial

theorem bind {p : Prog ℓ ε σ χ α} {f : α → Prog ℓ ε σ χ β} (hp : p.Throws X)
    (hf : ∀ a, (f a).Throws X) : (p >>= f).Throws X := by
  induction p with
  | done a => exact hf a
  | fail x => exact hp
  | step l effect next ih => exact fun e s => ih e s (hp e s)

/-- Errors that are translated are translations. -/
theorem mapError (p : Prog ℓ ε σ χ' α) {f : χ' → χ} (h : ∀ x, X (f x)) :
    (p.mapError f).Throws X := by
  induction p with
  | done a => trivial
  | fail x => exact h x
  | step l effect next ih => exact fun e s => ih e s

theorem within {p : Prog ℓ ε σ χ α} (hp : p.Throws X) (f : ℓ → ℓ') : (p.within f).Throws X := by
  induction p with
  | done a => trivial
  | fail x => exact hp
  | step l effect next ih => exact fun e s => ih e s (hp e s)

theorem under {ε' : Type} {p : Prog ℓ ε σ χ α} (hp : p.Throws X) (f : ε' → ε) : (p.under f).Throws X := by
  induction p with
  | done a => trivial
  | fail x => exact hp
  | step l effect next ih => exact fun e s => ih (f e) s (hp (f e) s)

theorem run {p : Prog ℓ ε σ χ α} (hp : p.Throws X) {ω : ℓ → ε} {s : σ} {x : χ}
    (hx : (p.run ω s).1 = .error x) : X x := by
  induction p generalizing s with
  | done a => cases hx
  | fail y =>
    cases hx
    exact hp
  | step l effect next ih => exact ih (ω l) s (hp (ω l) s) hx

end Throws

/-! ## Runs taken apart -/

theorem run_bind_of_ok {p : Prog ℓ ε σ χ α} {k : α → Prog ℓ ε σ χ β} {ω : ℓ → ε} {s s' : σ} {a : α}
    (h : p.run ω s = (.ok a, s')) : (p >>= k).run ω s = (k a).run ω s' := by
  rw [run_bind, h]

theorem run_require_bind {condition : Bool} {x : χ} {k : Unit → Prog ℓ ε σ χ β} {ω : ℓ → ε} {s : σ}
    (h : condition = true) : (require condition x >>= k).run ω s = (k ()).run ω s := by
  rw [run_bind, run_require, if_pos h]

theorem run_mapError_of_ok {p : Prog ℓ ε σ χ α} {f : χ → χ'} {ω : ℓ → ε} {s s' : σ} {a : α}
    (h : p.run ω s = (.ok a, s')) : (p.mapError f).run ω s = (.ok a, s') := by
  rw [run_mapError, h]
  rfl

/-- A run that succeeds has a value. -/
theorem eq_ok_of_isOk {r : Except χ α × σ} (h : r.1.isOk = true) : ∃ a s, r = (.ok a, s) := by
  obtain ⟨x | a, s⟩ := r
  · cases h
  · exact ⟨a, s, rfl⟩

/-- A run of two programs that ends with a value, taken apart. -/
theorem run_bind_eq_ok {p : Prog ℓ ε σ χ α} {k : α → Prog ℓ ε σ χ β} {ω : ℓ → ε} {s s' : σ} {b : β}
    (h : (p >>= k).run ω s = (.ok b, s')) :
    ∃ a s₁, p.run ω s = (.ok a, s₁) ∧ (k a).run ω s₁ = (.ok b, s') := by
  rw [run_bind] at h
  rcases hr : p.run ω s with ⟨x | a, s₁⟩
  · rw [hr] at h
    cases h
  · rw [hr] at h
    exact ⟨a, s₁, rfl, h⟩

/-- The same when the first only reads. -/
theorem ReadOnly.run_bind_eq_ok {p : Prog ℓ ε σ χ α} (hp : p.ReadOnly) {k : α → Prog ℓ ε σ χ β}
    {ω : ℓ → ε} {s s' : σ} {b : β} (h : (p >>= k).run ω s = (.ok b, s')) :
    ∃ a, p.run ω s = (.ok a, s) ∧ (k a).run ω s = (.ok b, s') := by
  obtain ⟨a, s₁, hfirst, hsecond⟩ := Prog.run_bind_eq_ok h
  have hsame : s₁ = s := by
    have hstate := run_readOnly hp ω s
    rwa [hfirst] at hstate
  subst hsame
  exact ⟨a, hfirst, hsecond⟩

/-- A program that is followed by another one fails by itself, or goes on. -/
theorem run_bind_cases {p : Prog ℓ ε σ χ α} {k : α → Prog ℓ ε σ χ β} {ω : ℓ → ε} {s s' : σ} {r : Except χ β}
    (h : (p >>= k).run ω s = (r, s')) :
    (∃ x, p.run ω s = (.error x, s') ∧ r = .error x) ∨
      ∃ a s₁, p.run ω s = (.ok a, s₁) ∧ (k a).run ω s₁ = (r, s') := by
  rw [run_bind] at h
  rcases hr : p.run ω s with ⟨x | a, s₁⟩
  · rw [hr] at h
    cases h
    exact .inl ⟨x, rfl, rfl⟩
  · rw [hr] at h
    exact .inr ⟨a, s₁, rfl, h⟩

/-- Likewise, when the first only reads. -/
theorem ReadOnly.run_bind_cases {p : Prog ℓ ε σ χ α} (hp : p.ReadOnly) {k : α → Prog ℓ ε σ χ β} {ω : ℓ → ε}
    {s s' : σ} {r : Except χ β} (h : (p >>= k).run ω s = (r, s')) :
    (s' = s ∧ ∃ x, r = .error x) ∨ ∃ a, p.run ω s = (.ok a, s) ∧ (k a).run ω s = (r, s') := by
  have hstate := run_readOnly hp ω s
  obtain ⟨x, hfirst, rfl⟩ | ⟨a, s₁, hfirst, hsecond⟩ := Prog.run_bind_cases h
  · rw [hfirst] at hstate
    exact .inl ⟨hstate, x, rfl⟩
  · rw [hfirst] at hstate
    obtain rfl : s₁ = s := hstate
    exact .inr ⟨a, hfirst, hsecond⟩

theorem run_mapError_eq_ok {p : Prog ℓ ε σ χ α} {f : χ → χ'} {ω : ℓ → ε} {s s' : σ} {a : α}
    (h : (p.mapError f).run ω s = (.ok a, s')) : p.run ω s = (.ok a, s') := by
  rw [run_mapError] at h
  rcases hr : p.run ω s with ⟨x | b, s₁⟩
  · simp [hr] at h
  · simpa [hr] using h

/-! ## Programs that end with a value -/

section Answered

variable {ω : ℓ → ε} {s : σ}

@[simp] theorem answered_done (a : α) : (done a : Prog ℓ ε σ χ α).Answered ω s := ⟨a, rfl⟩

@[simp] theorem answered_fail (x : χ) : ¬ (fail x : Prog ℓ ε σ χ α).Answered ω s := by
  rintro ⟨a, ha⟩
  cases ha

theorem answered_congr {p : Prog ℓ ε σ χ α} {q : Prog ℓ ε σ χ α} {s' : σ}
    (h : p.run ω s = q.run ω s') : p.Answered ω s ↔ q.Answered ω s' := by
  rw [Answered, h, Answered]

theorem answered_bind {p : Prog ℓ ε σ χ α} {k : α → Prog ℓ ε σ χ β} :
    (p >>= k).Answered ω s ↔
      ∃ a, (p.run ω s).1 = .ok a ∧ (k a).Answered ω (p.run ω s).2 := by
  unfold Answered
  rw [run_bind]
  rcases p.run ω s with ⟨_ | a, s'⟩
  · simp
  · simp

/-- What follows goes well wherever something else does that follows. -/
theorem Answered.bind_mono {γ : Type} {p : Prog ℓ ε σ χ α} {k : α → Prog ℓ ε σ χ β} {k' : α → Prog ℓ ε σ χ γ}
    (h : (p >>= k).Answered ω s) (hk : ∀ a s', (k a).Answered ω s' → (k' a).Answered ω s') :
    (p >>= k').Answered ω s := by
  obtain ⟨a, ha, hnext⟩ := answered_bind.mp h
  exact answered_bind.mpr ⟨a, ha, hk a _ hnext⟩

/-- A program, and then one that goes well on a condition. -/
theorem answered_bind_iff {p : Prog ℓ ε σ χ α} {k : α → Prog ℓ ε σ χ β} {B : Prop}
    (hk : ∀ a s', p.run ω s = (.ok a, s') → ((k a).Answered ω s' ↔ B)) :
    (p >>= k).Answered ω s ↔ p.Answered ω s ∧ B := by
  rw [answered_bind]
  constructor
  · rintro ⟨a, ha, hnext⟩
    exact ⟨⟨a, ha⟩, (hk a _ (Prod.ext ha rfl)).mp hnext⟩
  · rintro ⟨⟨a, ha⟩, hB⟩
    exact ⟨a, ha, (hk a _ (Prod.ext ha rfl)).mpr hB⟩

/-- A program that only reads, and then one that goes well on a condition. -/
theorem ReadOnly.answered_bind {p : Prog ℓ ε σ χ α} (hp : p.ReadOnly) {k : α → Prog ℓ ε σ χ β}
    {B : Prop} (hk : ∀ a, (p.run ω s).1 = .ok a → ((k a).Answered ω s ↔ B)) :
    (p >>= k).Answered ω s ↔ p.Answered ω s ∧ B := by
  refine answered_bind_iff fun a s' hrun => ?_
  have hsame : s' = s := by
    have hstate := run_readOnly hp ω s
    rwa [hrun] at hstate
  rw [hsame]
  exact hk a (congrArg Prod.fst hrun)

@[simp] theorem answered_ofExcept_bind {r : Except χ α} {k : α → Prog ℓ ε σ χ β} :
    (ofExcept r >>= k).Answered ω s ↔ ∃ a, r = .ok a ∧ (k a).Answered ω s := by
  cases r with
  | error x => simp [ofExcept]
  | ok a => simp [ofExcept]

@[simp] theorem answered_mapError {p : Prog ℓ ε σ χ α} {f : χ → χ'} :
    (p.mapError f).Answered ω s ↔ p.Answered ω s := by
  unfold Answered
  rw [run_mapError]
  rcases p.run ω s with ⟨_ | a, s'⟩
  · simp
  · simp

@[simp] theorem answered_within {ω : ℓ' → ε} {p : Prog ℓ ε σ χ α} {f : ℓ → ℓ'} :
    (p.within f).Answered ω s ↔ p.Answered (ω ∘ f) s := by
  unfold Answered
  rw [run_within]

/-- Asking whether a program ends with a value always ends with one. -/
theorem answered_succeeds (p : Prog ℓ ε σ χ α) :
    (p.succeeds : Prog ℓ ε σ χ' Bool).Answered ω s := by
  unfold Answered Prog.succeeds
  rw [run_handle]
  rcases (p.bind fun _ => done true).run ω s with ⟨x | b, s'⟩
  · exact ⟨false, rfl⟩
  · exact ⟨b, rfl⟩

end Answered

/-! ## Programs that fail quietly -/

section Quiet

variable {view : σ → γ} {ω : ℓ → ε} {s : σ}

/-- To fail quietly is to succeed wherever something has changed. -/
theorem quiet_iff {p : Prog ℓ ε σ χ α} :
    p.Quiet view ω s ↔ (view (p.run ω s).2 ≠ view s → p.Answered ω s) := by
  unfold Quiet Answered
  cases (p.run ω s).1 with
  | error x => simp
  | ok a => simp

theorem ReadOnly.quiet {p : Prog ℓ ε σ χ α} (h : p.ReadOnly) : p.Quiet view ω s :=
  fun _ _ => by rw [run_readOnly h]

theorem Quiet.mapError {p : Prog ℓ ε σ χ α} (h : p.Quiet view ω s) (f : χ → χ') :
    (p.mapError f).Quiet view ω s := by
  intro x hx
  rw [run_mapError] at hx ⊢
  cases hr : (p.run ω s).1 with
  | ok a => simp [hr] at hx
  | error y => exact h y hr

theorem Quiet.within {ω : ℓ' → ε} {p : Prog ℓ ε σ χ α} {f : ℓ → ℓ'}
    (h : p.Quiet view (ω ∘ f) s) : (p.within f).Quiet view ω s := by
  intro x hx
  rw [run_within] at hx ⊢
  exact h x hx

/-- A program that only reads, and then a quiet one. -/
theorem ReadOnly.quiet_bind {p : Prog ℓ ε σ χ α} {k : α → Prog ℓ ε σ χ β} (hp : p.ReadOnly)
    (hk : ∀ a, (p.run ω s).1 = .ok a → (k a).Quiet view ω s) : (p >>= k).Quiet view ω s := by
  intro x hx
  have hstate : (p.run ω s).2 = s := run_readOnly hp ω s
  rw [run_bind] at hx ⊢
  cases hr : p.run ω s with
  | mk r s' =>
    rw [hr] at hx hstate
    rw [← hstate]
    cases r with
    | error y => rfl
    | ok a =>
      simp only at hx hstate
      subst hstate
      exact hk a (by rw [hr]) x hx

/-- **A quiet program, and then one that only reads**, when it is known what makes that one
succeed. -/
theorem quiet_bind_iff {p : Prog ℓ ε σ χ α} {k : α → Prog ℓ ε σ χ β} (hp : p.Quiet view ω s)
    (hk : ∀ a, (k a).ReadOnly) {B : Prop}
    (h : ∀ a s', p.run ω s = (.ok a, s') → view s' ≠ view s → ((k a).Answered ω s' ↔ B)) :
    (p >>= k).Quiet view ω s ↔ (view (p.run ω s).2 ≠ view s → B) := by
  rw [quiet_iff, answered_bind, run_bind]
  rcases hr : p.run ω s with ⟨x | a, s'⟩
  · have hview : view s' = view s := by
      have hsame := hp x (by rw [hr])
      rwa [hr] at hsame
    simp [hview]
  · have hread : ((k a).run ω s').2 = s' := run_readOnly (hk a) ω s'
    simp only [hread, Except.ok.injEq, exists_eq_left']
    exact forall_congr' fun hchanged => h a s' hr hchanged

/-- A program that begins quietly and changes something has got past its beginning. -/
theorem Quiet.ok_of_changed {p : Prog ℓ ε σ χ α} {k : α → Prog ℓ ε σ χ β} (hp : p.Quiet view ω s)
    (hchanged : view ((p >>= k).run ω s).2 ≠ view s) :
    ∃ a s', p.run ω s = (.ok a, s') ∧ (p >>= k).run ω s = (k a).run ω s' := by
  rw [run_bind] at hchanged ⊢
  rcases hr : p.run ω s with ⟨x | a, s'⟩
  · rw [hr] at hchanged
    have hsame := hp x (by rw [hr])
    rw [hr] at hsame
    exact absurd hsame hchanged
  · exact ⟨a, s', rfl, rfl⟩

theorem ReadOnly.ok_of_changed {p : Prog ℓ ε σ χ α} {k : α → Prog ℓ ε σ χ β} (hp : p.ReadOnly)
    (hchanged : view ((p >>= k).run ω s).2 ≠ view s) :
    ∃ a, p.run ω s = (.ok a, s) ∧ (p >>= k).run ω s = (k a).run ω s := by
  obtain ⟨a, s', hrun, hrest⟩ := hp.quiet.ok_of_changed hchanged
  have hsame : s' = s := by
    have hstate := run_readOnly hp ω s
    rwa [hrun] at hstate
  subst hsame
  exact ⟨a, hrun, hrest⟩

theorem Quiet.bind_done {p : Prog ℓ ε σ χ α} (hp : p.Quiet view ω s) (f : α → β) :
    (p >>= fun a => done (f a)).Quiet view ω s :=
  (quiet_bind_iff (B := True) hp (fun _ => steps_done _) fun _ _ _ _ =>
    iff_true_intro (answered_done _)).mpr fun _ => trivial

end Quiet

end Prog

namespace ReadCommitted

open Prog

variable {ℓ δ τ φ χ β γ : Type} {ω : ℓ → Outcome} {w : World δ τ} {l : ℓ}

/-- A write that fails has committed nothing. -/
theorem write_quiet {view : World δ τ → γ} {update : Outcome → World δ τ → Except χ (δ × β)} :
    (write l update).Quiet view ω w := by
  intro x hx
  rw [run_write] at hx ⊢
  cases hu : update (ω l) w with
  | error y => rfl
  | ok r => simp [hu, Except.map] at hx

theorem answered_queryRow {q : δ → Option β} :
    (queryRow l q : Program ℓ δ τ (StmtError φ) β).Answered ω w ↔
      ω l = .ok ∧ (q w.db).isSome := by
  unfold Answered queryRow
  rw [run_read]
  cases ω l <;> cases q w.db <;> simp [Outcome.row]

/-- A query for one row, and then a program that works with it. -/
theorem answered_queryRow_bind {α χ' : Type} {q : δ → Option β} {f : StmtError φ → χ'}
    {k : β → Program ℓ δ τ χ' α} :
    ((queryRow l q).mapError f >>= k).Answered ω w ↔
      ω l = .ok ∧ ∃ b, q w.db = some b ∧ (k b).Answered ω w := by
  rw [answered_bind, run_mapError, queryRow, run_read]
  cases ω l <;> cases q w.db <;> simp [Outcome.row]

/-- A query for any number of rows, and then a program that works with them. -/
theorem answered_query_bind {α χ' : Type} {q : δ → β} {f : StmtError φ → χ'}
    {k : β → Program ℓ δ τ χ' α} :
    ((query l q).mapError f >>= k).Answered ω w ↔
      ω l ≠ .failure ∧ (k (q w.db)).Answered ω w := by
  rw [answered_bind, run_mapError, query, run_read]
  cases ω l <;> simp [Outcome.rows]

/-- The same for a query with an expression that may fail on a row. -/
theorem answered_select_bind {α χ' : Type} {q : δ → Except φ β} {f : StmtError φ → χ'}
    {k : β → Program ℓ δ τ χ' α} :
    ((select l q).mapError f >>= k).Answered ω w ↔
      ω l ≠ .failure ∧ ∃ b, q w.db = .ok b ∧ (k b).Answered ω w := by
  rw [answered_bind, run_mapError, select, run_read]
  cases ω l <;> cases q w.db <;> simp [Outcome.selected]

theorem answered_exec {u : τ → δ → Except φ (δ × Nat)} :
    (exec l u : Program ℓ δ τ (StmtError φ) Nat).Answered ω w ↔
      ω l ≠ .failure ∧ (ω l = .ok → ∃ r, u w.now w.db = .ok r) := by
  unfold Answered exec
  rw [run_write]
  cases ω l <;> cases u w.now w.db <;> simp [Outcome.changed, Except.map]

/-- A statement that goes well leaves the world as it is, or does what its update says. -/
theorem run_exec_eq_ok {u : τ → δ → Except φ (δ × Nat)} {rows : Nat} {w' : World δ τ}
    (hrun : (exec l u : Program ℓ δ τ (StmtError φ) Nat).run ω w = (.ok rows, w')) :
    w' = w ∨ ∃ db, u w.now w.db = .ok (db, rows) ∧ w' = { w with db } := by
  rw [exec, run_write] at hrun
  cases hc : (ω l).changed w.db (u w.now w.db) with
  | error x => simp [hc, Except.map] at hrun
  | ok r =>
    simp only [hc, Except.map, World.after, Prod.mk.injEq, Except.ok.injEq] at hrun
    obtain ⟨rfl, rfl⟩ := hrun
    rcases Outcome.changed_eq_ok hc with hsame | hupdate
    · left
      rw [hsame]
    · exact .inr ⟨r.1, hupdate, rfl⟩

/-- A statement that returns a row does what its update says. -/
theorem run_returning_eq_ok {u : τ → δ → Except φ (δ × Option β)} {b : β} {w' : World δ τ}
    (hrun : (returning l u : Program ℓ δ τ (StmtError φ) β).run ω w = (.ok b, w')) :
    ∃ db, u w.now w.db = .ok (db, some b) ∧ w' = { w with db } := by
  rw [returning, run_write] at hrun
  cases hc : (ω l).returned (u w.now w.db) with
  | error x => simp [hc, Except.map] at hrun
  | ok r =>
    simp only [hc, Except.map, World.after, Prod.mk.injEq, Except.ok.injEq] at hrun
    obtain ⟨rfl, rfl⟩ := hrun
    exact ⟨r.1, Outcome.returned_eq_ok hc, rfl⟩

theorem answered_query {q : δ → β} :
    (query l q : Program ℓ δ τ (StmtError φ) β).Answered ω w ↔ ω l ≠ .failure := by
  unfold Answered query
  rw [run_read]
  cases ω l <;> simp [Outcome.rows]

/-! ## Queries that go well -/

theorem run_queryRow {q : δ → Option β} {b : β} (hl : ω l = .ok) (hq : q w.db = some b) :
    (queryRow l q : Program ℓ δ τ (StmtError φ) β).run ω w = (.ok b, w) := by
  rw [queryRow, run_read, hl, hq]
  rfl

theorem run_begin (hl : ω l = .ok) :
    (begin l : Program ℓ δ τ (StmtError φ) (Tx φ δ τ)).run ω w =
      (.ok { began := w.now, writes := [] }, w) := by
  rw [begin, run_read, hl]
  rfl

theorem Tx.run_query {tx : Tx φ δ τ} {view : δ} {q : δ → β} (hl : ω l = .ok)
    (hview : tx.view w.db = .ok view) : (tx.query l q).run ω w = (.ok (q view), w) := by
  rw [Tx.query, run_read, hl, Tx.onView, hview]
  rfl

theorem Tx.run_select {tx : Tx φ δ τ} {view : δ} {q : δ → Except φ β} {b : β} (hl : ω l = .ok)
    (hview : tx.view w.db = .ok view) (hq : q view = .ok b) : (tx.select l q).run ω w = (.ok b, w) := by
  rw [Tx.select, run_read, hl, Tx.onView, hview]
  show (Outcome.ok.selected (q view), w) = _
  rw [hq]
  rfl

theorem Tx.run_queryRow {tx : Tx φ δ τ} {view : δ} {q : δ → Option β} {b : β} (hl : ω l = .ok)
    (hview : tx.view w.db = .ok view) (hq : q view = some b) :
    (tx.queryRow l q).run ω w = (.ok b, w) := by
  rw [Tx.queryRow, run_read, hl, Tx.onView, hview]
  show (Outcome.ok.row (q view), w) = _
  rw [hq]
  rfl

/-! ## Transactions that go well -/

theorem Tx.stage_eq {tx : Tx φ δ τ} {db view view' : δ} {u : δ → Except φ δ}
    (hview : tx.view db = .ok view) (hu : u view = .ok view') :
    tx.stage db u = .ok (tx.push u) ∧ (tx.push u).view db = .ok view' := by
  constructor
  · rw [Tx.stage, Tx.onView, hview]
    show ((u view).mapError StmtError.rejected).map _ = _
    rw [hu]
    rfl
  · rw [Tx.view_push, hview]
    exact hu

theorem Tx.run_exec {tx : Tx φ δ τ} {view view' : δ} {u : δ → δ → Except φ δ} (hl : ω l = .ok)
    (hview : tx.view w.db = .ok view) (hu : u view view = .ok view') :
    (tx.exec l u).run ω w = (.ok (tx.push (u view)), w) ∧
      (tx.push (u view)).view w.db = .ok view' := by
  obtain ⟨hstage, hview'⟩ := Tx.stage_eq hview hu
  refine ⟨?_, hview'⟩
  rw [Tx.exec, run_read, hl]
  show (tx.onView w.db fun view => tx.stage w.db (u view), w) = _
  rw [Tx.onView, hview]
  show (tx.stage w.db (u view), w) = _
  rw [hstage]

theorem Tx.run_insert {tx : Tx φ δ τ} {view view' : δ} {u : δ → Except φ δ} (hl : ω l = .ok)
    (hview : tx.view w.db = .ok view) (hu : u view = .ok view') :
    (tx.insert l u).run ω w = (.ok (tx.push u), w) ∧ (tx.push u).view w.db = .ok view' := by
  obtain ⟨hstage, hview'⟩ := Tx.stage_eq hview hu
  refine ⟨?_, hview'⟩
  rw [Tx.insert, run_read, hl]
  show (tx.stage w.db u, w) = _
  rw [hstage]

theorem Tx.run_execRows {tx : Tx φ δ τ} {view view' : δ} {u : δ → δ → Except φ δ} {n : δ → Nat}
    (hl : ω l = .ok) (hview : tx.view w.db = .ok view) (hu : u view view = .ok view') :
    (tx.execRows l u n).run ω w = (.ok (tx.push (u view), n view), w) ∧
      (tx.push (u view)).view w.db = .ok view' := by
  obtain ⟨hstage, hview'⟩ := Tx.stage_eq hview hu
  refine ⟨?_, hview'⟩
  rw [Tx.execRows, run_read, hl]
  show (tx.onView w.db fun view => (tx.stage w.db (u view)).map fun tx' => (tx', n view), w) = _
  rw [Tx.onView, hview]
  show ((tx.stage w.db (u view)).map fun tx' => (tx', n view), w) = _
  rw [hstage]
  rfl

theorem Tx.run_commit {tx : Tx φ δ τ} {view : δ} (hl : ω l = .ok) (hview : tx.view w.db = .ok view) :
    (tx.commit l).run ω w = (.ok (), { w with db := view }) := by
  have hcommitted : tx.committed (ω l) w.db = .ok (view, ()) := by
    rw [hl]
    show ((tx.view w.db).mapError StmtError.rejected).map _ = _
    rw [hview]
    rfl
  rw [Tx.commit, run_write, hcommitted]
  rfl

end ReadCommitted
