import Doenerstag.Lib.Prog

/-!
# Programs side by side

Any number of programs run on one state, one atomic step at a time, and between their steps the
environment may change the state as well. What a program may assume of the others while it waits to
take a step, it states as a *rely*: a relation on states for each label. What it promises of its own
steps is a *guarantee*. A third predicate, the invariant, holds of every state.

* `Config`, `Step` — the system and its moves.
* `Holds` — a program keeps the invariant and its guarantee as long as its relies are met, from a
  given state on; `holds_bind`, `Steps.holds` are how it is proved.
* `History`, `PutBy` — a run with its moves, and where a value in its last state comes from; `HistoryWhen` —
  one whose moves meet a condition.
* `Undisturbed` — a move meets the relies of all who wait.
* `Config.Safe.step`, `Config.Safe.run` — **programs that hold, hold side by side**: along a run
  whose moves are undisturbed, every step meets its guarantee.
-/

namespace Prog

variable {ℓ ε σ χ α β ι : Type}

/-! ## The system -/

/-- The state, and what is left of each program. -/
structure Config (ι ℓ ε σ χ α : Type) where
  state : σ
  procs : ι → Prog ℓ ε σ χ α

/-- Who moves: a program, taking the step with that label, or the environment. -/
inductive Mover (ι ℓ : Type) where
  | proc (i : ι) (l : ℓ)
  | env

/-- One move of the system, in an environment that may change the state as `Env` says. -/
inductive Step [DecidableEq ι] (Env : σ → σ → Prop) :
    Config ι ℓ ε σ χ α → Mover ι ℓ → Config ι ℓ ε σ χ α → Prop where
  | exec {c : Config ι ℓ ε σ χ α} {i : ι} {l : ℓ} {effect : ε → σ → σ}
      {next : ε → σ → Prog ℓ ε σ χ α} (at_step : c.procs i = .step l effect next) (e : ε) :
      Step Env c (.proc i l)
        { state := effect e c.state, procs := Function.update c.procs i (next e c.state) }
  | env {c : Config ι ℓ ε σ χ α} {s : σ} (change : Env c.state s) :
      Step Env c .env { c with state := s }

/-- The label of the step a program waits to take. -/
def waitsAt : Prog ℓ ε σ χ α → Option ℓ
  | done _ => none
  | fail _ => none
  | step l _ _ => some l

/-- Where every program stands. -/
def Config.waits (c : Config ι ℓ ε σ χ α) (i : ι) : Option ℓ := (c.procs i).waitsAt

/-- What a program has ended with, if it has. -/
def result : Prog ℓ ε σ χ α → Option (Except χ α)
  | done a => some (.ok a)
  | fail x => some (.error x)
  | step _ _ _ => none

/-- A move meets the relies of every program but the one that makes it. -/
def Undisturbed (R : ℓ → σ → σ → Prop) (c : Config ι ℓ ε σ χ α) (m : Mover ι ℓ)
    (c' : Config ι ℓ ε σ χ α) : Prop :=
  ∀ i l, (c.procs i).waitsAt = some l → (∀ l', m ≠ .proc i l') → R l c.state c'.state

/-- A run, each of whose moves meets the relies. -/
inductive Run [DecidableEq ι] (Env : σ → σ → Prop) (R : ℓ → σ → σ → Prop) :
    Config ι ℓ ε σ χ α → Config ι ℓ ε σ χ α → Prop where
  | refl (c : Config ι ℓ ε σ χ α) : Run Env R c c
  | tail {c c' c'' : Config ι ℓ ε σ χ α} {m : Mover ι ℓ} (run : Run Env R c c')
      (move : Step Env c' m c'') (undisturbed : Undisturbed R c' m c'') : Run Env R c c''

/-- A run with the states it goes through, the last one first. -/
inductive Trace [DecidableEq ι] (Env : σ → σ → Prop) (R : ℓ → σ → σ → Prop) :
    Config ι ℓ ε σ χ α → List σ → Config ι ℓ ε σ χ α → Prop where
  | start (c : Config ι ℓ ε σ χ α) : Trace Env R c [c.state] c
  | tail {c c' c'' : Config ι ℓ ε σ χ α} {states : List σ} {m : Mover ι ℓ}
      (trace : Trace Env R c states c') (move : Step Env c' m c'')
      (undisturbed : Undisturbed R c' m c'') : Trace Env R c (c''.state :: states) c''

/-- Those who wait during a run may rely on its states being the ones it goes through. -/
theorem Trace.run [DecidableEq ι] {Env : σ → σ → Prop} {R : ℓ → σ → σ → Prop}
    {c c' : Config ι ℓ ε σ χ α} {states : List σ} (h : Trace Env R c states c') {S : σ → Prop}
    (hS : ∀ s ∈ states, S s) : Run Env (fun l s s' => R l s s' ∧ S s') c c' := by
  induction h with
  | start => exact .refl _
  | tail _ move undisturbed ih =>
    refine (ih fun s hs => hS s (List.mem_cons_of_mem _ hs)).tail move fun i l hl hother => ?_
    exact ⟨undisturbed i l hl hother, hS _ List.mem_cons_self⟩

theorem Trace.start_mem [DecidableEq ι] {Env : σ → σ → Prop} {R : ℓ → σ → σ → Prop}
    {c c' : Config ι ℓ ε σ χ α} {states : List σ} (h : Trace Env R c states c') :
    c.state ∈ states := by
  induction h with
  | start => exact List.mem_singleton.mpr rfl
  | tail _ _ _ ih => exact List.mem_cons_of_mem _ ih

/-! ## Scheduling -/

/-- Let one program take its next steps, with the given outcomes. -/
def Config.advance [DecidableEq ι] (c : Config ι ℓ ε σ χ α) (i : ι) : List ε → Config ι ℓ ε σ χ α
  | [] => c
  | e :: rest =>
    match c.procs i with
    | .step _ effect next =>
      Config.advance
        { state := effect e c.state, procs := Function.update c.procs i (next e c.state) } i rest
    | _ => c

/-- The states that gets the system into, the last one first. -/
def Config.passed [DecidableEq ι] (c : Config ι ℓ ε σ χ α) (i : ι) : List ε → List σ
  | [] => []
  | e :: rest =>
    match c.procs i with
    | .step _ effect next =>
      let c' : Config ι ℓ ε σ χ α :=
        { state := effect e c.state, procs := Function.update c.procs i (next e c.state) }
      c'.passed i rest ++ [c'.state]
    | _ => []

section Scheduling

variable [DecidableEq ι] {Env : σ → σ → Prop} {R : ℓ → σ → σ → Prop}

theorem Run.trans {c c' c'' : Config ι ℓ ε σ χ α} (h : Run Env R c c') (h' : Run Env R c' c'') :
    Run Env R c c'' := by
  induction h' with
  | refl => exact h
  | tail _ move undisturbed ih => exact ih.tail move undisturbed

/-- A schedule whose moves disturb nobody is a run. -/
theorem run_advance (hquiet : ∀ (c : Config ι ℓ ε σ χ α) m c', Undisturbed R c m c')
    (c : Config ι ℓ ε σ χ α) (i : ι) (es : List ε) : Run Env R c (c.advance i es) := by
  induction es generalizing c with
  | nil => exact .refl c
  | cons e rest ih =>
    unfold Config.advance
    split
    · rename_i l effect next hat
      exact ((Run.refl c).tail (.exec hat e) (hquiet _ _ _)).trans (ih _)
    · exact .refl c

/-- A schedule of one program disturbs nobody, when the others rely on nothing while they wait. -/
theorem run_advance_others {c : Config ι ℓ ε σ χ α} {i : ι}
    (hothers : ∀ j l, j ≠ i → (c.procs j).waitsAt = some l → ∀ s s', R l s s') (es : List ε) :
    Run Env R c (c.advance i es) := by
  induction es generalizing c with
  | nil => exact .refl c
  | cons e rest ih =>
    unfold Config.advance
    split
    · rename_i l effect next hat
      refine ((Run.refl c).tail (.exec hat e) fun j l' hl' hmover => ?_).trans (ih fun j l' hj hl' => ?_)
      · exact hothers j l' (fun heq => hmover l (by rw [heq])) hl' _ _
      · simp only [Function.update_of_ne hj] at hl'
        exact hothers j l' hj hl'
    · exact .refl c

theorem step_advance {c : Config ι ℓ ε σ χ α} {i : ι} {l : ℓ}
    (hat : (c.procs i).waitsAt = some l) (e : ε) : Step Env c (.proc i l) (c.advance i [e]) := by
  cases hp : c.procs i with
  | done a => simp [hp, waitsAt] at hat
  | fail x => simp [hp, waitsAt] at hat
  | step l' effect next =>
    simp only [hp, waitsAt, Option.some.injEq] at hat
    subst hat
    have hstep : Step Env c (.proc i l') _ := .exec hp e
    simpa [Config.advance, hp] using hstep

omit [DecidableEq ι] in
/-- Nobody disturbs a program that is alone. -/
theorem undisturbed_alone [Subsingleton ι] {c c' : Config ι ℓ ε σ χ α} {i : ι} {l : ℓ} :
    Undisturbed R c (.proc i l) c' :=
  fun j _ _ hother => absurd (by rw [Subsingleton.elim i j]) (hother l)

/-- A program that is alone runs undisturbed. -/
theorem run_alone [Subsingleton ι] (c : Config ι ℓ ε σ χ α) (i : ι) (es : List ε) :
    Run Env R c (c.advance i es) :=
  run_advance_others (fun j _ hj => absurd (Subsingleton.elim j i) hj) es

/-- A trace goes on with the steps of a program that is alone. -/
theorem trace_alone [Subsingleton ι] {c c' : Config ι ℓ ε σ χ α} {states : List σ}
    (h : Trace Env R c states c') (i : ι) (es : List ε) :
    Trace Env R c (c'.passed i es ++ states) (c'.advance i es) := by
  induction es generalizing c' states with
  | nil => exact h
  | cons e rest ih =>
    unfold Config.advance Config.passed
    split
    · rename_i l effect next hat
      rw [List.append_assoc]
      exact ih (h.tail (.exec hat e) undisturbed_alone)
    · exact h

end Scheduling

/-! ## Histories -/

/-- A move, with the state it found and the state it left. -/
structure Move (ι ℓ σ : Type) where
  mover : Mover ι ℓ
  before : σ
  after : σ

/-- A run that is known by its moves, the last one first. -/
inductive History [DecidableEq ι] (Env : σ → σ → Prop) (c : Config ι ℓ ε σ χ α) :
    List (Move ι ℓ σ) → Config ι ℓ ε σ χ α → Prop where
  | start : History Env c [] c
  | tail {c' c'' : Config ι ℓ ε σ χ α} {moves : List (Move ι ℓ σ)} {m : Mover ι ℓ}
      (history : History Env c moves c') (move : Step Env c' m c'') :
      History Env c (⟨m, c'.state, c''.state⟩ :: moves) c''

/-- A run that is known by its moves, the last one first, each of which meets a condition on what
was before it. -/
inductive HistoryWhen [DecidableEq ι] (Env : σ → σ → Prop)
    (C : List (Move ι ℓ σ) → Config ι ℓ ε σ χ α → Mover ι ℓ → Prop) (c : Config ι ℓ ε σ χ α) :
    List (Move ι ℓ σ) → Config ι ℓ ε σ χ α → Prop where
  | start : HistoryWhen Env C c [] c
  | tail {c' c'' : Config ι ℓ ε σ χ α} {moves : List (Move ι ℓ σ)} {m : Mover ι ℓ}
      (history : HistoryWhen Env C c moves c') (move : Step Env c' m c'')
      (condition : C moves c' m) : HistoryWhen Env C c (⟨m, c'.state, c''.state⟩ :: moves) c''

/-- A value came where it is by a move of a kind, and has been there since. -/
def PutBy {β : Type} (who : Mover ι ℓ → Prop) (value : σ → β) (v : β)
    (moves : List (Move ι ℓ σ)) : Prop :=
  ∃ recent m earlier, moves = recent ++ m :: earlier ∧ who m.mover ∧ value m.before ≠ v ∧
    value m.after = v ∧ ∀ m' ∈ recent, value m'.after = v

namespace PutBy

variable {γ : Type} {who : Mover ι ℓ → Prop} {value : σ → γ} {v : γ} {m : Move ι ℓ σ}
  {moves : List (Move ι ℓ σ)}

theorem now (hwho : who m.mover) (hbefore : value m.before ≠ v) (hafter : value m.after = v) :
    PutBy who value v (m :: moves) :=
  ⟨[], m, moves, rfl, hwho, hbefore, hafter, fun _ h => nomatch h⟩

theorem stays (h : PutBy who value v moves) (hafter : value m.after = v) :
    PutBy who value v (m :: moves) := by
  obtain ⟨recent, put, earlier, rfl, hwho, hbefore, hput, hrecent⟩ := h
  refine ⟨m :: recent, put, earlier, rfl, hwho, hbefore, hput, fun m' hm' => ?_⟩
  rcases List.mem_cons.mp hm' with rfl | hm'
  · exact hafter
  · exact hrecent m' hm'

/-- One of the moves put it there. -/
theorem exists_move (h : PutBy who value v moves) : ∃ m ∈ moves, who m.mover ∧ value m.after = v := by
  obtain ⟨recent, put, earlier, rfl, hwho, -, hput, -⟩ := h
  exact ⟨put, List.mem_append_right _ List.mem_cons_self, hwho, hput⟩

end PutBy

section Histories

variable [DecidableEq ι] {Env : σ → σ → Prop} {c c' : Config ι ℓ ε σ χ α} {moves : List (Move ι ℓ σ)}

/-- What is true of every step of the programs at their start, is true of what is left of them. -/
theorem History.steps {P : ℓ → σ → σ → Prop} (h : History Env c moves c')
    (hsteps : ∀ i, (c.procs i).Steps P) : ∀ i, (c'.procs i).Steps P := by
  induction h with
  | start => exact hsteps
  | tail _ move ih =>
    cases move with
    | env => exact ih
    | @exec i l effect next hat e =>
      intro j
      by_cases hj : j = i
      · subst hj
        have hi := ih j
        rw [hat, steps_step] at hi
        simpa using (hi e _).2
      · simpa only [Function.update_of_ne hj] using ih j

/-- **An invariant of histories**, which may speak of every move so far. -/
theorem History.invariant {P : ℓ → σ → σ → Prop} {J : List (Move ι ℓ σ) → σ → Prop}
    {C : Move ι ℓ σ → Prop} (h : History Env c moves c') (hsteps : ∀ i, (c.procs i).Steps P)
    (hstart : J [] c.state)
    (hproc : ∀ moves s s' i l, J moves s → P l s s' → C ⟨.proc i l, s, s'⟩ →
      J (⟨.proc i l, s, s'⟩ :: moves) s')
    (henv : ∀ moves s s', J moves s → Env s s' → J (⟨.env, s, s'⟩ :: moves) s')
    (hC : ∀ m ∈ moves, C m) : J moves c'.state := by
  induction h with
  | start => exact hstart
  | @tail c' c'' moves m history move ih =>
    have hJ := ih fun m hm => hC m (List.mem_cons_of_mem _ hm)
    have hlast := hC _ List.mem_cons_self
    cases move with
    | env change => exact henv _ _ _ hJ change
    | @exec i l effect next hat e =>
      have hi := history.steps hsteps i
      rw [hat, steps_step] at hi
      exact hproc _ _ _ i l hJ (hi e c'.state).1 hlast

/-- The moves of a schedule, the last one first. -/
def Config.movesOf (c : Config ι ℓ ε σ χ α) (i : ι) : List ε → List (Move ι ℓ σ)
  | [] => []
  | e :: rest =>
    match c.procs i with
    | .step l effect next =>
      let c' : Config ι ℓ ε σ χ α :=
        { state := effect e c.state, procs := Function.update c.procs i (next e c.state) }
      c'.movesOf i rest ++ [⟨.proc i l, c.state, c'.state⟩]
    | _ => []

/-- A history goes on with a schedule. -/
theorem History.advance (h : History Env c moves c') (i : ι) (es : List ε) :
    History Env c (c'.movesOf i es ++ moves) (c'.advance i es) := by
  induction es generalizing c' moves with
  | nil => exact h
  | cons e rest ih =>
    unfold Config.advance Config.movesOf
    split
    · rename_i l effect next hat
      rw [List.append_assoc]
      exact ih (h.tail (.exec hat e))
    · exact h

/-- A history goes on with the next step of a program that is alone. -/
theorem History.exec_alone {Env : σ → σ → Prop} {c : Config Unit ℓ ε σ χ α} {moves : List (Move Unit ℓ σ)}
    {s : σ} {p : Prog ℓ ε σ χ α} (h : History Env c moves { state := s, procs := fun _ => p }) {l : ℓ}
    {effect : ε → σ → σ} {next : ε → σ → Prog ℓ ε σ χ α} (hat : p = .step l effect next) (e : ε) :
    History Env c (⟨.proc () l, s, effect e s⟩ :: moves)
      { state := effect e s, procs := fun _ => next e s } := by
  have hstep := h.tail (.exec (i := ()) hat e)
  rwa [Function.update_eq_const_of_subsingleton] at hstep

end Histories

/-! ## One program among others -/

/-- From state `s` on, the program keeps the invariant and its guarantee, and ends in a state with
the postcondition, whatever others do within its relies between its steps. -/
def Holds (I : σ → Prop) (R G : ℓ → σ → σ → Prop) (Q : Except χ α → σ → Prop) :
    Prog ℓ ε σ χ α → σ → Prop
  | done a, s => Q (.ok a) s
  | fail x, s => Q (.error x) s
  | step l effect next, s =>
    ∀ s', Relation.ReflTransGen (R l) s s' → I s' →
      ∀ e, I (effect e s') ∧ G l s' (effect e s') ∧ (next e s').Holds I R G Q (effect e s')

/-- What every move keeps, any number of moves keeps. -/
theorem star_keeps {R : σ → σ → Prop} {F : σ → Prop} (hkeeps : ∀ s s', R s s' → F s → F s')
    {s s' : σ} (hwait : Relation.ReflTransGen R s s') (h : F s) : F s' := by
  induction hwait with
  | refl => exact h
  | tail _ hR ih => exact hkeeps _ _ hR ih

section Rules

variable {I : σ → Prop} {R G : ℓ → σ → σ → Prop} {Q Q' : Except χ α → σ → Prop}

@[simp] theorem holds_done {a : α} {s : σ} :
    (done a : Prog ℓ ε σ χ α).Holds I R G Q s ↔ Q (.ok a) s := Iff.rfl

@[simp] theorem holds_fail {x : χ} {s : σ} :
    (fail x : Prog ℓ ε σ χ α).Holds I R G Q s ↔ Q (.error x) s := Iff.rfl

theorem holds_step {l : ℓ} {effect : ε → σ → σ} {next : ε → σ → Prog ℓ ε σ χ α} {s : σ} :
    (step l effect next).Holds I R G Q s ↔ ∀ s', Relation.ReflTransGen (R l) s s' → I s' →
      ∀ e, I (effect e s') ∧ G l s' (effect e s') ∧ (next e s').Holds I R G Q (effect e s') :=
  Iff.rfl

theorem Holds.mono {p : Prog ℓ ε σ χ α} {s : σ} (h : p.Holds I R G Q s)
    (himp : ∀ r s, Q r s → Q' r s) : p.Holds I R G Q' s := by
  induction p generalizing s with
  | done a => exact himp _ _ h
  | fail x => exact himp _ _ h
  | step l effect next ih =>
    intro s' hwait hI e
    obtain ⟨hI', hG, hrest⟩ := h s' hwait hI e
    exact ⟨hI', hG, ih e s' hrest⟩

@[simp] theorem holds_ofExcept {r : Except χ α} {s : σ} :
    (ofExcept r : Prog ℓ ε σ χ α).Holds I R G Q s ↔ Q r s := by
  cases r <;> exact Iff.rfl

/-- **Sequencing.** The second program starts in a state the first one ends in. -/
theorem holds_bind {p : Prog ℓ ε σ χ α} {f : α → Prog ℓ ε σ χ β} {Q : Except χ β → σ → Prop}
    {s : σ} (M : α → σ → Prop)
    (hp : p.Holds I R G (fun r s => match r with
      | .ok a => M a s
      | .error x => Q (.error x) s) s)
    (hf : ∀ a s, M a s → (f a).Holds I R G Q s) : (p >>= f).Holds I R G Q s := by
  induction p generalizing s with
  | done a => exact hf a s hp
  | fail x => exact hp
  | step l effect next ih =>
    intro s' hwait hI e
    obtain ⟨hI', hG, hrest⟩ := hp s' hwait hI e
    exact ⟨hI', hG, ih e s' hrest⟩

/-- The postcondition that speaks of a value only: a program that fails may end anywhere. -/
def Ends (M : α → σ → Prop) (r : Except χ α) (s : σ) : Prop := ∀ a, r = .ok a → M a s

theorem holds_seq {p : Prog ℓ ε σ χ α} {f : α → Prog ℓ ε σ χ β} {M : α → σ → Prop}
    {N : β → σ → Prop} {s : σ} (hp : p.Holds I R G (Ends M) s)
    (hf : ∀ a s, M a s → (f a).Holds I R G (Ends N) s) : (p >>= f).Holds I R G (Ends N) s := by
  refine holds_bind M (hp.mono ?_) hf
  rintro (x | a) s h
  · exact fun b hb => by cases hb
  · exact h a rfl

theorem ends_done {M : α → σ → Prop} {a : α} {s : σ} (h : M a s) :
    (done a : Prog ℓ ε σ χ α).Holds I R G (Ends M) s :=
  holds_done.mpr fun b hb => by cases hb; exact h

theorem ends_fail {M : α → σ → Prop} (x : χ) (s : σ) :
    (fail x : Prog ℓ ε σ χ α).Holds I R G (Ends M) s :=
  holds_fail.mpr fun b hb => by cases hb

theorem ends_ofExcept {M : α → σ → Prop} {r : Except χ α} {s : σ} (h : ∀ a, r = .ok a → M a s) :
    (ofExcept r : Prog ℓ ε σ χ α).Holds I R G (Ends M) s :=
  holds_ofExcept.mpr h

theorem ends_require {M : Unit → σ → Prop} {condition : Bool} {x : χ} {s : σ}
    (h : condition = true → M () s) :
    (require condition x : Prog ℓ ε σ χ Unit).Holds I R G (Ends M) s := by
  cases condition
  · exact ends_fail x s
  · exact ends_done (h rfl)

theorem Holds.ends {p : Prog ℓ ε σ χ α} {M : α → σ → Prop} {s : σ} (h : p.Holds I R G (Ends M) s) :
    p.Holds I R G (fun _ _ => True) s :=
  h.mono fun _ _ _ => trivial

/-- What a program returns besides where it ends. -/
theorem Holds.returns {p : Prog ℓ ε σ χ α} {A : α → Prop} {s : σ} (h : p.Holds I R G Q s)
    (hA : p.Returns I A) : p.Holds I R G (fun r s => Q r s ∧ ∀ a, r = .ok a → A a) s := by
  induction p generalizing s with
  | done a => exact ⟨h, fun b hb => by cases hb; exact returns_done.mp hA⟩
  | fail x => exact ⟨h, fun b hb => by cases hb⟩
  | step l effect next ih =>
    intro s' hwait hI e
    obtain ⟨hI', hG, hrest⟩ := h s' hwait hI e
    exact ⟨hI', hG, ih e s' hrest (returns_step.mp hA e s' hI)⟩

theorem holds_handle {χ' : Type} {p : Prog ℓ ε σ χ α} {f : χ → Prog ℓ ε σ χ' α}
    {Q : Except χ' α → σ → Prop} {s : σ} (M : χ → σ → Prop)
    (hp : p.Holds I R G (fun r s => match r with
      | .ok a => Q (.ok a) s
      | .error x => M x s) s)
    (hf : ∀ x s, M x s → (f x).Holds I R G Q s) : (p.handle f).Holds I R G Q s := by
  induction p generalizing s with
  | done a => exact hp
  | fail x => exact hf x s hp
  | step l effect next ih =>
    intro s' hwait hI e
    obtain ⟨hI', hG, hrest⟩ := hp s' hwait hI e
    exact ⟨hI', hG, ih e s' hrest⟩

theorem holds_mapError {χ' : Type} {p : Prog ℓ ε σ χ α} {f : χ → χ'}
    {Q : Except χ' α → σ → Prop} {s : σ}
    (hp : p.Holds I R G (fun r s => Q (r.mapError f) s) s) : (p.mapError f).Holds I R G Q s := by
  refine holds_handle (fun x s => Q (.error (f x)) s) (hp.mono ?_) fun x s hx => hx
  rintro (x | a) s h
  · exact h
  · exact h

theorem ends_mapError {χ' : Type} {p : Prog ℓ ε σ χ α} {f : χ → χ'} {M : α → σ → Prop} {s : σ}
    (hp : p.Holds I R G (Ends M) s) : (p.mapError f).Holds I R G (Ends M) s := by
  refine holds_mapError (hp.mono ?_)
  rintro (x | a) s h
  · exact fun b hb => by cases hb
  · exact fun b hb => by cases hb; exact h a rfl

theorem holds_within {ℓ' : Type} {R G : ℓ' → σ → σ → Prop} {f : ℓ → ℓ'} {p : Prog ℓ ε σ χ α}
    {s : σ} (hp : p.Holds I (fun l => R (f l)) (fun l => G (f l)) Q s) :
    (p.within f).Holds I R G Q s := by
  induction p generalizing s with
  | done a => exact hp
  | fail x => exact hp
  | step l effect next ih =>
    intro s' hwait hI e
    obtain ⟨hI', hG, hrest⟩ := hp s' hwait hI e
    exact ⟨hI', hG, ih e s' hrest⟩

/-- **A program whose steps are all harmless needs to rely on nothing.** -/
theorem Steps.holds {p : Prog ℓ ε σ χ α}
    (h : p.Steps fun l s s' => I s → I s' ∧ G l s s') (s : σ) :
    p.Holds I R G (fun _ _ => True) s := by
  induction p generalizing s with
  | done a => trivial
  | fail x => trivial
  | step l effect next ih =>
    intro s' _ hI e
    obtain ⟨hI', hG⟩ := (steps_step.mp h e s').1 hI
    exact ⟨hI', hG, ih e s' (steps_step.mp h e s').2 _⟩

/-- A program of which nothing is asked holds. -/
theorem holds_unasked (p : Prog ℓ ε σ χ α) (hG : ∀ l s s', G l s s') (s : σ) :
    p.Holds (fun _ => True) R G (fun _ _ => True) s :=
  Steps.holds ((Steps.trivially p).mono fun l s s' _ _ => ⟨trivial, hG l s s'⟩) s

/-- **A fact that the relies keep is there at every step.** It may serve the guarantee of each. -/
theorem Steps.holds_under {F : σ → Prop} {p : Prog ℓ ε σ χ α}
    (h : p.Steps fun l s s' => (∀ s₁ s₂, R l s₁ s₂ → F s₁ → F s₂) ∧
      (I s → F s → I s' ∧ G l s s' ∧ F s')) {s : σ} (hF : F s) :
    p.Holds I R G (fun _ s => F s) s := by
  induction p generalizing s with
  | done a => exact hF
  | fail x => exact hF
  | step l effect next ih =>
    intro s' hwait hI e
    have hF' : F s' := star_keeps (steps_step.mp h e s).1.1 hwait hF
    obtain ⟨hI', hG, hF''⟩ := (steps_step.mp h e s').1.2 hI hF'
    exact ⟨hI', hG, ih e s' (steps_step.mp h e s').2 hF''⟩

/-- A program that only reads needs to rely on nothing. -/
theorem Reads.holds {L : ℓ → Prop} {p : Prog ℓ ε σ χ α} (h : p.Reads L)
    (hG : ∀ l s, L l → I s → G l s s) (s : σ) : p.Holds I R G (fun _ _ => True) s := by
  refine Steps.holds (Steps.mono h fun l s s' hl => ?_) s
  obtain ⟨rfl, hL⟩ := hl
  exact fun hI => ⟨hI, hG l _ hL hI⟩

/-- A program that only reads ends with every fact that the relies keep. -/
theorem Reads.holds_under {L : ℓ → Prop} {F : σ → Prop} {p : Prog ℓ ε σ χ α} (h : p.Reads L)
    (hkeeps : ∀ l s s', L l → R l s s' → F s → F s')
    (hG : ∀ l s, L l → I s → G l s s) {s : σ} (hF : F s) :
    p.Holds I R G (fun _ s => F s) s := by
  refine Steps.holds_under (F := F) (Steps.mono h fun l s s' hl => ?_) hF
  obtain ⟨rfl, hL⟩ := hl
  exact ⟨fun s₁ s₂ => hkeeps l s₁ s₂ hL, fun hI hF => ⟨hI, hG l _ hL hI, hF⟩⟩

/-- A program that only reads, with what it returns. -/
theorem Reads.ends {L : ℓ → Prop} {F : σ → Prop} {A : α → Prop} {p : Prog ℓ ε σ χ α}
    (h : p.Reads L) (hA : p.Returns I A)
    (hkeeps : ∀ l s s', L l → R l s s' → F s → F s')
    (hG : ∀ l s, L l → I s → G l s s) {s : σ} (hF : F s) :
    p.Holds I R G (Ends fun a s => F s ∧ A a) s :=
  ((h.holds_under hkeeps hG hF).returns hA).mono fun _ _ hend a ha => ⟨hend.1, hend.2 a ha⟩

/-- While a program waits, others within its rely do not disturb it. -/
theorem Holds.wait {p : Prog ℓ ε σ χ α} {s s' : σ} (h : p.Holds I R G Q s)
    (hR : ∀ l, p.waitsAt = some l → R l s s') (hQ : ∀ r, Q r s → Q r s') :
    p.Holds I R G Q s' := by
  cases p with
  | done a => exact hQ _ h
  | fail x => exact hQ _ h
  | step l effect next =>
    intro s'' hwait hI e
    exact h s'' (.head (hR l rfl) hwait) hI e

end Rules

/-! ## All together -/

variable [DecidableEq ι] {Env : σ → σ → Prop} {I : σ → Prop} {R G : ℓ → σ → σ → Prop}

/-- The invariant holds, and every program holds from here on. -/
structure Config.Safe (I : σ → Prop) (R G : ℓ → σ → σ → Prop) (c : Config ι ℓ ε σ χ α) : Prop where
  inv : I c.state
  procs : ∀ i, (c.procs i).Holds I R G (fun _ _ => True) c.state

/-- **One move.** Undisturbed, it keeps the system safe; and a program's step meets its
guarantee. -/
theorem Config.Safe.step {c c' : Config ι ℓ ε σ χ α} {m : Mover ι ℓ} (h : c.Safe I R G)
    (henv : ∀ s s', Env s s' → I s → I s') (hmove : Step Env c m c')
    (hquiet : Undisturbed R c m c') :
    c'.Safe I R G ∧ ∀ i l, m = .proc i l → G l c.state c'.state := by
  cases hmove with
  | @exec i l effect next hat e =>
    have hi := h.procs i
    rw [hat] at hi
    obtain ⟨hI, hG, hrest⟩ := hi c.state .refl h.inv e
    refine ⟨⟨hI, fun j => ?_⟩, ?_⟩
    · by_cases hj : j = i
      · subst hj
        simpa using hrest
      · -- another program waits while this one moves
        have hprocs := h.procs j
        simp only [Function.update_of_ne hj]
        refine hprocs.wait (fun l' hl' => hquiet j l' hl' fun l'' heq => ?_) fun _ _ => trivial
        cases heq
        exact hj rfl
    · rintro _ _ ⟨⟩
      exact hG
  | env hchange =>
    refine ⟨⟨henv _ _ hchange h.inv, fun j => ?_⟩, fun i l heq => by cases heq⟩
    exact (h.procs j).wait (fun l hl => hquiet j l hl fun _ heq => by cases heq) fun _ _ => trivial

/-- **A run.** Safe at its start, it is safe wherever it gets. -/
theorem Config.Safe.run {c c' : Config ι ℓ ε σ χ α} (h : c.Safe I R G)
    (henv : ∀ s s', Env s s' → I s → I s') (hrun : Run Env R c c') : c'.Safe I R G := by
  induction hrun with
  | refl => exact h
  | tail _ hmove hquiet ih => exact (ih.step henv hmove hquiet).1

/-- **After a run**, whatever step a program takes next meets its guarantee. The step itself need
not be undisturbed: it is the relies of others that it might break. -/
theorem Config.Safe.guarantee {c c' c'' : Config ι ℓ ε σ χ α} {i : ι} {l : ℓ} (h : c.Safe I R G)
    (henv : ∀ s s', Env s s' → I s → I s') (hrun : Run Env R c c')
    (hmove : Step Env c' (.proc i l) c'') : G l c'.state c''.state := by
  have hsafe := h.run henv hrun
  cases hmove with
  | exec hat e =>
    have hi := hsafe.procs i
    rw [hat] at hi
    exact (hi c'.state .refl hsafe.inv e).2.1

/-! ## Each with a postcondition of its own -/

/-- The invariant holds, and every program holds from here on, with relies, a guarantee and a
postcondition of its own. -/
structure Config.Ensures (I : σ → Prop) (R G : ι → ℓ → σ → σ → Prop)
    (Q : ι → Except χ α → σ → Prop) (c : Config ι ℓ ε σ χ α) : Prop where
  inv : I c.state
  procs : ∀ i, (c.procs i).Holds I (R i) (G i) (Q i) c.state

omit [DecidableEq ι] in
theorem Config.Ensures.result {R G : ι → ℓ → σ → σ → Prop} {Q : ι → Except χ α → σ → Prop}
    {c : Config ι ℓ ε σ χ α} (h : c.Ensures I R G Q) {i : ι} {r : Except χ α}
    (hr : (c.procs i).result = some r) : Q i r c.state := by
  have hi := h.procs i
  cases hp : c.procs i with
  | done a =>
    rw [hp] at hr hi
    cases hr
    exact hi
  | fail x =>
    rw [hp] at hr hi
    cases hr
    exact hi
  | step l effect next =>
    rw [hp] at hr
    cases hr

/-- **What one program guarantees, another may rely on**, while it waits and when it has ended. -/
theorem Config.Ensures.run {R' : ℓ → σ → σ → Prop} {R G : ι → ℓ → σ → σ → Prop}
    {Q : ι → Except χ α → σ → Prop} {c c' : Config ι ℓ ε σ χ α} (h : c.Ensures I R G Q)
    (henv : ∀ s s', Env s s' → I s → I s')
    (hothers : ∀ j s s', I s → (Env s s' ∨ ∃ i l, i ≠ j ∧ G i l s s') →
      (∀ l, R' l s s' → R j l s s') ∧ ∀ r, Q j r s → Q j r s')
    (hrun : Run Env R' c c') : c'.Ensures I R G Q := by
  induction hrun with
  | refl => exact h
  | @tail c' c'' m _ hmove hquiet ih =>
    cases hmove with
    | @exec i l effect next hat e =>
      have hi := ih.procs i
      rw [hat] at hi
      obtain ⟨hI, hG, hrest⟩ := hi c'.state .refl ih.inv e
      refine ⟨hI, fun j => ?_⟩
      by_cases hj : j = i
      · subst hj
        simpa using hrest
      · -- another program waits while this one moves
        obtain ⟨hwait, hended⟩ := hothers j _ _ ih.inv (.inr ⟨i, l, Ne.symm hj, hG⟩)
        simp only [Function.update_of_ne hj]
        refine (ih.procs j).wait (fun l' hl' => hwait l' (hquiet j l' hl' fun l'' heq => ?_)) hended
        cases heq
        exact hj rfl
    | env hchange =>
      refine ⟨henv _ _ hchange ih.inv, fun j => ?_⟩
      obtain ⟨hwait, hended⟩ := hothers j _ _ ih.inv (.inl hchange)
      exact (ih.procs j).wait
        (fun l hl => hwait l (hquiet j l hl fun _ heq => by cases heq)) hended

attribute [irreducible] Holds

end Prog
