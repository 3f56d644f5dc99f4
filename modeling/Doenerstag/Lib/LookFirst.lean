import Doenerstag.Lib.Paths

/-!
# Programs that look before they act

A call that may change something looks first: it reads what it needs to know whether it may, and then takes at
most one step that changes anything that matters. What it has learned may be out of date by then; what it was
true of is a state that the system has been in.

* `Manner` — which steps are quiet, what is learned from a state, and what the act is.
* `Looking`, `Acting` — what is left of such a program, before it has learned and after; with their rules.
* `Looked` — in a history every move is quiet, or it is the one act of its program, which has learned from an
  earlier state that it may. `History.looked` — **programs that look first make such histories.**
* `History.returns` — what a program returns, by the states that it finds.
* `Must` — the program does not end with a value before it has taken a step of a kind; `History.must`.
* `History.along` — an invariant of histories whose moves are judged by those before them.
* `History.path` — the moves of one program of a history are a way through it.
-/

namespace Prog

variable {ι ℓ ε σ τ χ α β κ : Type}

/-- How a program goes about it. -/
structure Manner (ℓ σ κ : Type) where
  quiet : ℓ → σ → σ → Prop
  learns : σ → κ → Prop
  acts : κ → ℓ → σ → σ → Prop

/-- The same on a larger state, of which a part matters. -/
def Manner.comap (get : τ → σ) (M : Manner ℓ σ κ) : Manner ℓ τ κ where
  quiet := fun l t t' => M.quiet l (get t) (get t')
  learns := fun t k => M.learns (get t) k
  acts := fun k l t t' => M.acts k l (get t) (get t')

/-- Quiet steps, and among them at most one act. -/
def Acting (M : Manner ℓ σ κ) (k : κ) : Prog ℓ ε σ χ α → Prop
  | .done _ => True
  | .fail _ => True
  | .step l effect next => ∀ e s,
    (M.quiet l s (effect e s) ∧ (next e s).Acting M k) ∨
      (M.acts k l s (effect e s) ∧ (next e s).Steps M.quiet)

/-- Quiet steps, until one of them learns enough. -/
def Looking (M : Manner ℓ σ κ) : Prog ℓ ε σ χ α → Prop
  | .done _ => True
  | .fail _ => True
  | .step l effect next => ∀ e s,
    M.quiet l s (effect e s) ∧ ((next e s).Looking M ∨ ∃ k, M.learns s k ∧ (next e s).Acting M k)

section Rules

variable {M : Manner ℓ σ κ} {k : κ} {p : Prog ℓ ε σ χ α} {f : α → Prog ℓ ε σ χ β}

@[simp] theorem acting_done (a : α) : (done a : Prog ℓ ε σ χ α).Acting M k := trivial

@[simp] theorem acting_fail (x : χ) : (fail x : Prog ℓ ε σ χ α).Acting M k := trivial

@[simp] theorem looking_done (a : α) : (done a : Prog ℓ ε σ χ α).Looking M := trivial

@[simp] theorem looking_fail (x : χ) : (fail x : Prog ℓ ε σ χ α).Looking M := trivial

theorem looking_step {l : ℓ} {effect : ε → σ → σ} {next : ε → σ → Prog ℓ ε σ χ α} :
    (step l effect next).Looking M ↔ ∀ e s, M.quiet l s (effect e s) ∧
      ((next e s).Looking M ∨ ∃ k, M.learns s k ∧ (next e s).Acting M k) := Iff.rfl

theorem Steps.require {P : ℓ → σ → σ → Prop} (condition : Bool) (x : χ) :
    (Prog.require condition x : Prog ℓ ε σ χ Unit).Steps P := by
  cases condition
  · exact steps_fail x
  · exact steps_done ()

theorem Steps.acting (h : p.Steps M.quiet) : p.Acting M k := by
  induction p with
  | done a => trivial
  | fail x => trivial
  | step l effect next ih => exact fun e s => .inl ⟨(steps_step.mp h e s).1, ih e s (steps_step.mp h e s).2⟩

theorem Steps.looking (h : p.Steps M.quiet) : p.Looking M := by
  induction p with
  | done a => trivial
  | fail x => trivial
  | step l effect next ih => exact fun e s => ⟨(steps_step.mp h e s).1, .inl (ih e s (steps_step.mp h e s).2)⟩

/-- After quiet steps, the act. -/
theorem Steps.bind_acting (h : p.Steps M.quiet) (hf : ∀ a, (f a).Acting M k) : (p >>= f).Acting M k := by
  induction p with
  | done a => exact hf a
  | fail x => trivial
  | step l effect next ih => exact fun e s => .inl ⟨(steps_step.mp h e s).1, ih e s (steps_step.mp h e s).2⟩

theorem Steps.bind_looking (h : p.Steps M.quiet) (hf : ∀ a, (f a).Looking M) : (p >>= f).Looking M := by
  induction p with
  | done a => exact hf a
  | fail x => trivial
  | step l effect next ih => exact fun e s => ⟨(steps_step.mp h e s).1, .inl (ih e s (steps_step.mp h e s).2)⟩

/-- After the act, quiet steps. -/
theorem Acting.bind (h : p.Acting M k) (hf : ∀ a, (f a).Steps M.quiet) : (p >>= f).Acting M k := by
  induction p with
  | done a => exact (hf a).acting
  | fail x => trivial
  | step l effect next ih =>
    intro e s
    rcases h e s with ⟨hquiet, hrest⟩ | ⟨hact, hrest⟩
    · exact .inl ⟨hquiet, ih e s hrest⟩
    · exact .inr ⟨hact, hrest.bind hf⟩

/-- A failure is dealt with quietly. -/
theorem Acting.handle {χ' : Type} {g : χ → Prog ℓ ε σ χ' α} (h : p.Acting M k) (hg : ∀ x, (g x).Steps M.quiet) :
    (p.handle g).Acting M k := by
  induction p with
  | done a => trivial
  | fail x => exact (hg x).acting
  | step l effect next ih =>
    intro e s
    rcases h e s with ⟨hquiet, hrest⟩ | ⟨hact, hrest⟩
    · exact .inl ⟨hquiet, ih e s hrest⟩
    · exact .inr ⟨hact, hrest.handle hg⟩

theorem Acting.mapError {χ' : Type} (h : p.Acting M k) (g : χ → χ') : (p.mapError g).Acting M k :=
  h.handle fun x => steps_fail (g x)

theorem Acting.succeeds {χ' : Type} (h : p.Acting M k) : (p.succeeds : Prog ℓ ε σ χ' Bool).Acting M k :=
  Acting.handle (h.bind fun _ => steps_done true) fun _ => steps_done false

theorem acting_ofExcept_bind {r : Except χ α} (hf : ∀ a, r = .ok a → (f a).Acting M k) :
    (ofExcept r >>= f : Prog ℓ ε σ χ β).Acting M k := by
  cases r with
  | error x => trivial
  | ok a => exact hf a rfl

theorem looking_ofExcept_bind {r : Except χ α} (hf : ∀ a, r = .ok a → (f a).Looking M) :
    (ofExcept r >>= f : Prog ℓ ε σ χ β).Looking M := by
  cases r with
  | error x => trivial
  | ok a => exact hf a rfl

theorem looking_require_bind {condition : Bool} {x : χ} {g : Unit → Prog ℓ ε σ χ β}
    (hg : condition = true → (g ()).Looking M) : (require condition x >>= g).Looking M := by
  cases condition with
  | false => trivial
  | true => exact hg rfl

/-- A part of a larger program, whose labels say where it stands. -/
theorem Acting.within {ℓ' : Type} {M : Manner ℓ' σ κ} {g : ℓ → ℓ'}
    (h : p.Acting ⟨fun l => M.quiet (g l), M.learns, fun k l => M.acts k (g l)⟩ k) :
    (p.within g).Acting M k := by
  induction p with
  | done a => trivial
  | fail x => trivial
  | step l effect next ih =>
    intro e s
    rcases h e s with ⟨hquiet, hrest⟩ | ⟨hact, hrest⟩
    · exact .inl ⟨hquiet, ih e s hrest⟩
    · exact .inr ⟨hact, .within hrest⟩

theorem Looking.within {ℓ' : Type} {M : Manner ℓ' σ κ} {g : ℓ → ℓ'}
    (h : p.Looking ⟨fun l => M.quiet (g l), M.learns, fun k l => M.acts k (g l)⟩) :
    (p.within g).Looking M := by
  induction p with
  | done a => trivial
  | fail x => trivial
  | step l effect next ih =>
    intro e s
    obtain ⟨hquiet, hrest | ⟨k, hlearns, hrest⟩⟩ := h e s
    · exact ⟨hquiet, .inl (ih e s hrest)⟩
    · exact ⟨hquiet, .inr ⟨k, hlearns, hrest.within⟩⟩

/-- The same on a larger state. -/
theorem Acting.onPart {get : τ → σ} {set : σ → τ → τ} (hget : ∀ s t, get (set s t) = s) (h : p.Acting M k) :
    (p.onPart get set).Acting (M.comap get) k := by
  have hstep : ∀ l s t, M.quiet l (get t) s → (M.comap get).quiet l t (set s t) := by
    intro l s t hquiet
    rw [← hget s t] at hquiet
    exact hquiet
  induction p with
  | done a => trivial
  | fail x => trivial
  | step l effect next ih =>
    intro e t
    rcases h e (get t) with ⟨hquiet, hrest⟩ | ⟨hact, hrest⟩
    · exact .inl ⟨hstep l _ t hquiet, ih e _ hrest⟩
    · refine .inr ⟨?_, .onPart hrest hstep⟩
      rw [← hget (effect e (get t)) t] at hact
      exact hact

theorem Looking.onPart {get : τ → σ} {set : σ → τ → τ} (hget : ∀ s t, get (set s t) = s) (h : p.Looking M) :
    (p.onPart get set).Looking (M.comap get) := by
  induction p with
  | done a => trivial
  | fail x => trivial
  | step l effect next ih =>
    intro e t
    obtain ⟨hquiet, hrest⟩ := h e (get t)
    constructor
    · rw [← hget (effect e (get t)) t] at hquiet
      exact hquiet
    · rcases hrest with hrest | ⟨k, hlearns, hrest⟩
      · exact .inl (ih e _ hrest)
      · exact .inr ⟨k, hlearns, hrest.onPart hget⟩

/-- What follows a program that looks, and may have learned. -/
theorem Looking.bind (h : p.Looking M) (hf : ∀ a, (f a).Steps M.quiet) : (p >>= f).Looking M := by
  induction p with
  | done a => exact (hf a).looking
  | fail x => trivial
  | step l effect next ih =>
    intro e s
    obtain ⟨hquiet, hrest | ⟨k, hlearns, hrest⟩⟩ := h e s
    · exact ⟨hquiet, .inl (ih e s hrest)⟩
    · exact ⟨hquiet, .inr ⟨k, hlearns, hrest.bind hf⟩⟩

end Rules

/-! ## What must have happened -/

/-- The program does not end with a value before it has taken a step of a kind. -/
def Must (A : ℓ → σ → σ → Prop) : Prog ℓ ε σ χ α → Prop
  | .done _ => False
  | .fail _ => True
  | .step l effect next => ∀ e s, A l s (effect e s) ∨ (next e s).Must A

section Must

variable {A : ℓ → σ → σ → Prop} {f : α → Prog ℓ ε σ χ β}

theorem must_fail (x : χ) : (fail x : Prog ℓ ε σ χ α).Must A := trivial

theorem must_bind (p : Prog ℓ ε σ χ α) (hf : ∀ a, (f a).Must A) : (p >>= f).Must A := by
  induction p with
  | done a => exact hf a
  | fail x => trivial
  | step l effect next ih => exact fun e s => .inr (ih e s)

theorem Must.bind {p : Prog ℓ ε σ χ α} (h : p.Must A) : (p >>= f).Must A := by
  induction p with
  | done a => exact h.elim
  | fail x => trivial
  | step l effect next ih => exact fun e s => (h e s).imp id (ih e s)

theorem Must.mapError {χ' : Type} {p : Prog ℓ ε σ χ α} (h : p.Must A) (g : χ → χ') :
    (p.mapError g).Must A := by
  induction p with
  | done a => exact h.elim
  | fail x => trivial
  | step l effect next ih => exact fun e s => (h e s).imp id (ih e s)

theorem Must.within {ℓ' : Type} {A : ℓ' → σ → σ → Prop} {g : ℓ → ℓ'} {p : Prog ℓ ε σ χ α}
    (h : p.Must fun l => A (g l)) : (p.within g).Must A := by
  induction p with
  | done a => exact h.elim
  | fail x => trivial
  | step l effect next ih => exact fun e s => (h e s).imp id (ih e s)

end Must

/-! ## Statements -/

section Statements

open ReadCommitted

variable {δ τ φ χ' : Type} {M : Manner ℓ (World δ τ) κ} {k : κ} {A : ℓ → World δ τ → World δ τ → Prop} {l : ℓ}

/-- A statement that reads, after which enough may be known. -/
theorem looking_read_bind {answer : Outcome → World δ τ → Except χ β} {f : β → Program ℓ δ τ χ α}
    (hquiet : ∀ w, M.quiet l w w)
    (hf : ∀ e w b, answer e w = .ok b → (f b).Looking M ∨ ∃ k, M.learns w k ∧ (f b).Acting M k) :
    (ReadCommitted.read l answer >>= f).Looking M := by
  intro e w
  refine ⟨hquiet w, ?_⟩
  show (ofExcept (answer e w) >>= f).Looking M ∨
    ∃ k, M.learns w k ∧ (ofExcept (answer e w) >>= f).Acting M k
  cases hanswer : answer e w with
  | error x => exact .inl trivial
  | ok b => exact hf e w b hanswer

/-- A query for one row, after which enough may be known. -/
theorem looking_queryRow_bind {q : δ → Option β} {f : StmtError φ → χ} {g : χ → χ'}
    {next : β → Program ℓ δ τ χ' α} (hquiet : ∀ w, M.quiet l w w)
    (hnext : ∀ w b, q w.db = some b → (next b).Looking M ∨ ∃ k, M.learns w k ∧ (next b).Acting M k) :
    (((queryRow l q : Program ℓ δ τ (StmtError φ) β).mapError f).mapError g >>= next).Looking M := by
  rw [queryRow, read_mapError, read_mapError]
  apply looking_read_bind hquiet
  intro e w b hb
  exact hnext w b (Outcome.row_eq_ok (exceptMapError_eq_ok (exceptMapError_eq_ok hb)))

/-- A statement that writes, and may be the act. -/
theorem acting_write {update : Outcome → World δ τ → Except χ (δ × β)}
    (h : ∀ e w, M.quiet l w (w.after (update e w)) ∨ M.acts k l w (w.after (update e w))) :
    (write l update : Program ℓ δ τ χ β).Acting M k := by
  intro e w
  rcases h e w with hquiet | hacts
  · exact .inl ⟨hquiet, (Steps.ofExcept _).acting⟩
  · exact .inr ⟨hacts, .ofExcept _⟩

/-- A statement that changes rows, or finds none to change. -/
theorem acting_exec {u : τ → δ → Except φ (δ × Nat)} (hquiet : ∀ w, M.quiet l w w)
    (hacts : ∀ w r, u w.now w.db = .ok r → M.acts k l w { w with db := r.1 }) :
    (exec l u : Program ℓ δ τ (StmtError φ) Nat).Acting M k := by
  apply acting_write
  intro e w
  cases hchanged : (e.changed w.db (u w.now w.db) : Except (StmtError φ) (δ × Nat)) with
  | error x => exact .inl (hquiet w)
  | ok r =>
    rcases Outcome.changed_eq_ok hchanged with hnone | hupdate
    · left
      show M.quiet l w { w with db := r.1 }
      rw [hnone]
      exact hquiet w
    · exact .inr (hacts w r hupdate)

/-- A statement that adds a row, or is refused. -/
theorem acting_returning {u : τ → δ → Except φ (δ × Option β)} (hquiet : ∀ w, M.quiet l w w)
    (hacts : ∀ w db b, u w.now w.db = .ok (db, some b) → M.acts k l w { w with db }) :
    (returning l u : Program ℓ δ τ (StmtError φ) β).Acting M k := by
  apply acting_write
  intro e w
  cases hreturned : (e.returned (u w.now w.db) : Except (StmtError φ) (δ × β)) with
  | error x => exact .inl (hquiet w)
  | ok r => exact .inr (hacts w r.1 r.2 (Outcome.returned_eq_ok hreturned))

/-- A statement that changes rows, where a program that finds none to change ends with an error. -/
theorem must_exec {u : τ → δ → Except φ (δ × Nat)} {f : StmtError φ → χ} {next : Nat → Program ℓ δ τ χ α}
    (hu : ∀ w r, u w.now w.db = .ok r → r.2 ≠ 0 → A l w { w with db := r.1 }) (hnone : (next 0).Must A) :
    ((exec l u : Program ℓ δ τ (StmtError φ) Nat).mapError f >>= next).Must A := by
  intro e w
  show A l w (w.after (e.changed w.db (u w.now w.db))) ∨
    ((ofExcept ((e.changed w.db (u w.now w.db)).map Prod.snd)).mapError f >>= next).Must A
  cases hchanged : (e.changed w.db (u w.now w.db) : Except (StmtError φ) (δ × Nat)) with
  | error x => exact .inr trivial
  | ok r =>
    rcases Outcome.changed_rows hchanged with rfl | hupdate
    · exact .inr hnone
    · by_cases hrows : r.2 = 0
      · right
        show (next r.2).Must A
        rw [hrows]
        exact hnone
      · exact .inl (hu w r hupdate hrows)

end Statements

/-! ## Histories -/

theorem done_of_result {p : Prog ℓ ε σ χ α} {a : α} (h : p.result = some (.ok a)) : p = .done a := by
  cases p with
  | done b =>
    cases h
    rfl
  | fail x => cases h
  | step l effect next => cases h

/-- A move of one of the programs. -/
def Move.By (i : ι) (m : Move ι ℓ σ) : Prop := ∃ l, m.mover = .proc i l

/-- Every move of a program is quiet, or its one act, for which it has learned what it needs to. -/
def Looked (M : ι → Manner ℓ σ κ) : List (Move ι ℓ σ) → Prop
  | [] => True
  | m :: earlier => Looked M earlier ∧ ∀ i l, m.mover = .proc i l →
      (M i).quiet l m.before m.after ∨
        ((∀ m₁ ∈ earlier, ∀ l₁, m₁.mover = .proc i l₁ → (M i).quiet l₁ m₁.before m₁.after) ∧
          ∃ k, (∃ m₀ ∈ earlier, m₀.By i ∧ (M i).learns m₀.before k) ∧ (M i).acts k l m.before m.after)

section Histories

variable [DecidableEq ι] {Env : σ → σ → Prop} {c c' : Config ι ℓ ε σ χ α} {moves : List (Move ι ℓ σ)}
  {M : ι → Manner ℓ σ κ}

/-- Where a program stands: it looks, or it has learned and may act, or it has acted. -/
def Stands (M : Manner ℓ σ κ) (i : ι) (moves : List (Move ι ℓ σ)) (p : Prog ℓ ε σ χ α) : Prop :=
  (∀ m ∈ moves, ∀ l, m.mover = .proc i l → M.quiet l m.before m.after) ∧
      (p.Looking M ∨ ∃ k, (∃ m ∈ moves, m.By i ∧ M.learns m.before k) ∧ p.Acting M k) ∨
    p.Steps M.quiet

omit [DecidableEq ι] in
/-- A move of another one. -/
theorem Stands.other {M : Manner ℓ σ κ} {i : ι} {p : Prog ℓ ε σ χ α} (h : Stands M i moves p)
    {m : Move ι ℓ σ} (hm : ∀ l, m.mover ≠ .proc i l) : Stands M i (m :: moves) p := by
  rcases h with ⟨hquiet, hlook⟩ | hquiet
  · refine .inl ⟨List.forall_mem_cons.mpr ⟨fun l hl => absurd hl (hm l), hquiet⟩, ?_⟩
    rcases hlook with hlook | ⟨k, ⟨m₀, hm₀, hlearns⟩, hacting⟩
    · exact .inl hlook
    · exact .inr ⟨k, ⟨m₀, List.mem_cons_of_mem _ hm₀, hlearns⟩, hacting⟩
  · exact .inr hquiet

omit [DecidableEq ι] in
/-- A step of its own. -/
theorem Stands.step {M : Manner ℓ σ κ} {i : ι} {l : ℓ} {effect : ε → σ → σ}
    {next : ε → σ → Prog ℓ ε σ χ α} (h : Stands M i moves (.step l effect next)) (e : ε) (s : σ) :
    Stands M i (⟨.proc i l, s, effect e s⟩ :: moves) (next e s) ∧
      (M.quiet l s (effect e s) ∨
        ((∀ m ∈ moves, ∀ l, m.mover = .proc i l → M.quiet l m.before m.after) ∧
          ∃ k, (∃ m ∈ moves, m.By i ∧ M.learns m.before k) ∧ M.acts k l s (effect e s))) := by
  have hcons : M.quiet l s (effect e s) →
      (∀ m ∈ moves, ∀ l, m.mover = .proc i l → M.quiet l m.before m.after) →
      ∀ m ∈ (⟨.proc i l, s, effect e s⟩ : Move ι ℓ σ) :: moves, ∀ l, m.mover = .proc i l →
        M.quiet l m.before m.after := by
    intro hstep hquiet
    refine List.forall_mem_cons.mpr ⟨?_, hquiet⟩
    rintro _ ⟨⟩
    exact hstep
  rcases h with ⟨hquiet, hlook | ⟨k, ⟨m₀, hm₀, hlearns⟩, hacting⟩⟩ | hquiet
  · obtain ⟨hstep, hrest | ⟨k, hlearns, hacting⟩⟩ := hlook e s
    · exact ⟨.inl ⟨hcons hstep hquiet, .inl hrest⟩, .inl hstep⟩
    · exact ⟨.inl ⟨hcons hstep hquiet, .inr ⟨k, ⟨_, List.mem_cons_self, ⟨l, rfl⟩, hlearns⟩, hacting⟩⟩, .inl hstep⟩
  · rcases hacting e s with ⟨hstep, hrest⟩ | ⟨hact, hrest⟩
    · exact ⟨.inl ⟨hcons hstep hquiet, .inr ⟨k, ⟨m₀, List.mem_cons_of_mem _ hm₀, hlearns⟩, hrest⟩⟩, .inl hstep⟩
    · exact ⟨.inr hrest, .inr ⟨hquiet, k, ⟨m₀, hm₀, hlearns⟩, hact⟩⟩
  · obtain ⟨hstep, hrest⟩ := steps_step.mp hquiet e s
    exact ⟨.inr hrest, .inl hstep⟩

/-- **Programs that look first.** -/
theorem History.looked (h : History Env c moves c') (hlook : ∀ i, (c.procs i).Looking (M i)) :
    Looked M moves ∧ ∀ i, Stands (M i) i moves (c'.procs i) := by
  induction h with
  | start => exact ⟨trivial, fun i => .inl ⟨nofun, .inl (hlook i)⟩⟩
  | @tail c' c'' moves m history move ih =>
    obtain ⟨hlooked, hstands⟩ := ih
    cases move with
    | env change =>
      exact ⟨⟨hlooked, fun i l hl => nomatch hl⟩, fun i => (hstands i).other fun l hl => nomatch hl⟩
    | @exec i l effect next hat e =>
      obtain ⟨hnext, hmove⟩ := (hat ▸ hstands i : Stands (M i) i moves (.step l effect next)).step e c'.state
      refine ⟨⟨hlooked, ?_⟩, fun j => ?_⟩
      · rintro _ _ ⟨⟩
        exact hmove
      · by_cases hj : j = i
        · subst hj
          simpa only [Function.update_self] using hnext
        · simp only [Function.update_of_ne hj]
          exact (hstands j).other fun l' hl' => hj (by cases hl'; rfl)

omit [DecidableEq ι] in
theorem Looked.of_append {recent moves : List (Move ι ℓ σ)} (h : Looked M (recent ++ moves)) : Looked M moves := by
  induction recent with
  | nil => exact h
  | cons m recent ih => exact ih h.1

/-- A history up to one of its moves. -/
theorem History.until {recent earlier : List (Move ι ℓ σ)} {m : Move ι ℓ σ}
    (h : History Env c (recent ++ m :: earlier) c') : ∃ c₁, History Env c earlier c₁ ∧ c₁.state = m.before := by
  generalize hmoves : recent ++ m :: earlier = moves at h
  induction h generalizing recent with
  | start => exact absurd hmoves (List.append_ne_nil_of_right_ne_nil _ (List.cons_ne_nil _ _))
  | @tail c₁ c₂ moves m' history move ih =>
    cases recent with
    | nil =>
      obtain ⟨rfl, rfl⟩ := List.cons.inj hmoves
      exact ⟨c₁, history, rfl⟩
    | cons m'' recent => exact ih (List.cons.inj hmoves).2

/-- **An invariant of histories**, each move of which is judged by those before it. -/
theorem History.along {J : List (Move ι ℓ σ) → σ → Prop} (h : History Env c moves c') (hstart : J [] c.state)
    (hstep : ∀ recent m earlier, moves = recent ++ m :: earlier → (m.mover = .env → Env m.before m.after) →
      J earlier m.before → J (m :: earlier) m.after) : J moves c'.state := by
  induction h with
  | start => exact hstart
  | @tail c' c'' moves m history move ih =>
    have hbefore : J moves c'.state := ih fun recent m' earlier hmoves => by
      subst hmoves
      exact hstep (_ :: recent) m' earlier rfl
    refine hstep [] _ moves rfl (fun henv => ?_) hbefore
    cases move with
    | env change => exact change
    | exec hat e => cases henv

/-- **What must have happened, has.** -/
theorem History.must {A : ℓ → σ → σ → Prop} (h : History Env c moves c') {i : ι} (hmust : (c.procs i).Must A)
    {a : α} (hended : (c'.procs i).result = some (.ok a)) :
    ∃ recent m earlier l, moves = recent ++ m :: earlier ∧ m.mover = .proc i l ∧ A l m.before m.after := by
  have hstage : (∃ recent m earlier l, moves = recent ++ m :: earlier ∧ m.mover = .proc i l ∧
      A l m.before m.after) ∨ (c'.procs i).Must A := by
    clear hended
    induction h with
    | start => exact .inr hmust
    | @tail c' c'' moves m history move ih =>
      rcases ih with ⟨recent, m', earlier, l, rfl, hm', hA⟩ | hmust
      · exact .inl ⟨_ :: recent, m', earlier, l, rfl, hm', hA⟩
      · cases move with
        | env change => exact .inr hmust
        | @exec j l effect next hat e =>
          by_cases hj : j = i
          · subst hj
            rw [hat] at hmust
            rcases hmust e c'.state with hA | hrest
            · exact .inl ⟨[], _, moves, l, rfl, rfl, hA⟩
            · exact .inr (by simpa only [Function.update_self] using hrest)
          · exact .inr (by simpa only [Function.update_of_ne (Ne.symm hj)] using hmust)
  rcases hstage with hdone | hmust
  · exact hdone
  · rw [done_of_result hended] at hmust
    exact hmust.elim

/-- What a program returns, when every state that it finds is of a kind. -/
theorem History.returns {I : σ → Prop} {A : α → Prop} (h : History Env c moves c') {i : ι}
    (hI : ∀ m ∈ moves, I m.before) (hreturns : (c.procs i).Returns I A) {a : α}
    (hended : (c'.procs i).result = some (.ok a)) : A a := by
  have hrest : (c'.procs i).Returns I A := by
    clear hended
    induction h with
    | start => exact hreturns
    | @tail c' c'' moves m history move ih =>
      have hbefore := ih fun m hm => hI m (List.mem_cons_of_mem _ hm)
      cases move with
      | env change => exact hbefore
      | @exec j l effect next hat e =>
        by_cases hj : j = i
        · subst hj
          rw [hat] at hbefore
          simpa only [Function.update_self] using returns_step.mp hbefore e c'.state (hI _ List.mem_cons_self)
        · simpa only [Function.update_of_ne (Ne.symm hj)] using hbefore
  rw [done_of_result hended] at hrest
  exact returns_done.mp hrest

/-- What a move of a program says of the way it goes. -/
def Move.of (i : ι) (m : Move ι ℓ σ) : Option (ℓ × σ) :=
  match m.mover with
  | .proc j l => if j = i then some (l, m.before) else none
  | .env => none

/-- A way from one program to what is left of it. -/
inductive Leads : Prog ℓ ε σ χ α → List (Taken ℓ ε σ) → Prog ℓ ε σ χ α → Prop where
  | refl (p : Prog ℓ ε σ χ α) : Leads p [] p
  | tail {p : Prog ℓ ε σ χ α} {steps : List (Taken ℓ ε σ)} {l : ℓ} {effect : ε → σ → σ}
      {next : ε → σ → Prog ℓ ε σ χ α} (leads : Leads p steps (.step l effect next)) (e : ε) (s : σ) :
      Leads p (steps ++ [⟨l, e, s⟩]) (next e s)

omit [DecidableEq ι] in
theorem Leads.path {p q : Prog ℓ ε σ χ α} {steps rest : List (Taken ℓ ε σ)} {r : Except χ α}
    (h : Leads p steps q) (hq : q.Path rest r) : p.Path (steps ++ rest) r := by
  induction h generalizing rest with
  | refl => exact hq
  | tail _ e s ih =>
    rw [List.append_assoc]
    exact ih (.step e s hq)

/-- **The moves of one program are a way through it.** -/
theorem History.path (h : History Env c moves c') (i : ι) :
    ∃ steps, Leads (c.procs i) steps (c'.procs i) ∧
      steps.map (fun t => (t.label, t.found)) = moves.reverse.filterMap (Move.of i) := by
  induction h with
  | start => exact ⟨[], .refl _, rfl⟩
  | @tail c' c'' moves m history move ih =>
    obtain ⟨steps, hleads, hsteps⟩ := ih
    rw [List.reverse_cons, List.filterMap_append, ← hsteps]
    cases move with
    | env change => exact ⟨steps, hleads, (List.append_nil _).symm⟩
    | @exec j l effect next hat e =>
      by_cases hj : j = i
      · subst hj
        refine ⟨steps ++ [⟨l, e, c'.state⟩], ?_, ?_⟩
        · simp only [Function.update_self]
          exact (hat ▸ hleads : Leads (c.procs j) steps (.step l effect next)).tail e c'.state
        · rw [List.map_append]
          simp [Move.of]
      · refine ⟨steps, ?_, ?_⟩
        · simp only [Function.update_of_ne (Ne.symm hj)]
          exact hleads
        · simp [Move.of, hj]

/-- A step of the way is one of the moves, and the rest of the way comes after it. -/
theorem exists_move {i : ι} {rest : List (Taken ℓ ε σ)} {t : Taken ℓ ε σ}
    (h : (t :: rest).map (fun t => (t.label, t.found)) = moves.reverse.filterMap (Move.of i)) :
    ∃ recent m earlier, moves = recent ++ m :: earlier ∧
      rest.map (fun t => (t.label, t.found)) = recent.reverse.filterMap (Move.of i) ∧
      m.mover = .proc i t.label ∧ m.before = t.found := by
  obtain ⟨others, m, later, hmoves, -, hm, hrest⟩ := List.filterMap_eq_cons_iff.mp h.symm
  refine ⟨later.reverse, m, others.reverse, ?_, ?_, ?_⟩
  · rw [← List.reverse_reverse moves, hmoves]
    simp
  · rw [List.reverse_reverse, hrest]
  · unfold Move.of at hm
    split at hm
    · rename_i j l hmover
      split at hm
      · rename_i hj
        obtain ⟨hlabel, hfound⟩ := Prod.mk.inj (Option.some.inj hm)
        exact ⟨by rw [hmover, hj, hlabel], hfound⟩
      · cases hm
    · cases hm

end Histories

attribute [irreducible] Acting Looking Must

end Prog
