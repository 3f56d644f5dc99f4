import Doenerstag.Lib.ReadCommitted

/-!
# The ways through a program

What one program may go through, whatever the others do to the state between its steps: the steps it
takes, each with its outcome and the state it finds, and what it ends with.

* `Path` — a way through a program; `path_bind`, `path_handle` take one apart.
* `ends` — where a way leads, to be computed; `path_iff_ends`.
* `path_read` — the ways through one statement; `path_read_bind`.
* `step_of_read`, `step_of_write` — the first step of a program that starts with a statement.
-/

namespace Prog

variable {ℓ ℓ' ε σ χ χ' α β : Type}

/-- A step as it was taken. -/
structure Taken (ℓ ε σ : Type) where
  label : ℓ
  outcome : ε
  found : σ

def Taken.within (f : ℓ → ℓ') (s : Taken ℓ ε σ) : Taken ℓ' ε σ :=
  { label := f s.label, outcome := s.outcome, found := s.found }

/-- The steps that a program takes, and what it ends with. -/
inductive Path : Prog ℓ ε σ χ α → List (Taken ℓ ε σ) → Except χ α → Prop where
  | done (a : α) : Path (.done a) [] (.ok a)
  | fail (x : χ) : Path (.fail x) [] (.error x)
  | step {l : ℓ} {effect : ε → σ → σ} {next : ε → σ → Prog ℓ ε σ χ α} {steps : List (Taken ℓ ε σ)}
      {r : Except χ α} (e : ε) (s : σ) (rest : Path (next e s) steps r) :
      Path (.step l effect next) (⟨l, e, s⟩ :: steps) r

/-- What a program ends with when it goes that way, if it can. -/
def ends [DecidableEq ℓ] : Prog ℓ ε σ χ α → List (Taken ℓ ε σ) → Option (Except χ α)
  | .done a, [] => some (.ok a)
  | .fail x, [] => some (.error x)
  | .step l _ next, t :: rest => if t.label = l then (next t.outcome t.found).ends rest else none
  | _, _ => none

section Ways

variable {steps : List (Taken ℓ ε σ)}

theorem path_done {a : α} {r : Except χ α} :
    (done a : Prog ℓ ε σ χ α).Path steps r ↔ steps = [] ∧ r = .ok a := by
  constructor
  · intro h
    cases h
    exact ⟨rfl, rfl⟩
  · rintro ⟨rfl, rfl⟩
    exact .done a

theorem path_fail {x : χ} {r : Except χ α} :
    (fail x : Prog ℓ ε σ χ α).Path steps r ↔ steps = [] ∧ r = .error x := by
  constructor
  · intro h
    cases h
    exact ⟨rfl, rfl⟩
  · rintro ⟨rfl, rfl⟩
    exact .fail x

theorem path_step {l : ℓ} {effect : ε → σ → σ} {next : ε → σ → Prog ℓ ε σ χ α} {r : Except χ α} :
    (step l effect next).Path steps r ↔
      ∃ e s rest, steps = ⟨l, e, s⟩ :: rest ∧ (next e s).Path rest r := by
  constructor
  · intro h
    cases h with
    | step e s rest => exact ⟨e, s, _, rfl, rest⟩
  · rintro ⟨e, s, rest, rfl, hrest⟩
    exact .step e s hrest

/-- A way through a program is one that it can go. -/
theorem path_iff_ends [DecidableEq ℓ] {p : Prog ℓ ε σ χ α} {r : Except χ α} :
    p.Path steps r ↔ p.ends steps = some r := by
  constructor
  · intro h
    induction h with
    | done a => rfl
    | fail x => rfl
    | step e s _ ih => simpa [ends] using ih
  · intro h
    induction p generalizing steps with
    | done a =>
      cases steps with
      | nil =>
        cases h
        exact .done a
      | cons t rest => cases h
    | fail x =>
      cases steps with
      | nil =>
        cases h
        exact .fail x
      | cons t rest => cases h
    | step l effect next ih =>
      cases steps with
      | nil => cases h
      | cons t rest =>
        obtain ⟨l', e, s⟩ := t
        unfold ends at h
        by_cases hlabel : l' = l
        · subst hlabel
          rw [if_pos rfl] at h
          exact .step e s (ih e s h)
        · rw [if_neg hlabel] at h
          cases h

theorem path_ofExcept {r r' : Except χ α} :
    (ofExcept r : Prog ℓ ε σ χ α).Path steps r' ↔ steps = [] ∧ r' = r := by
  cases r with
  | error x => exact path_fail
  | ok a => exact path_done

/-- **Sequencing.** A way through both is a way through the first, and then through the second if
the first ended with a value. -/
theorem path_bind {p : Prog ℓ ε σ χ α} {f : α → Prog ℓ ε σ χ β} {r : Except χ β} :
    (p >>= f).Path steps r ↔
      (∃ x, p.Path steps (.error x) ∧ r = .error x) ∨
        ∃ first a second, steps = first ++ second ∧ p.Path first (.ok a) ∧ (f a).Path second r := by
  constructor
  · intro h
    induction p generalizing steps with
    | done a => exact .inr ⟨[], a, steps, rfl, .done a, h⟩
    | fail x =>
      obtain ⟨rfl, rfl⟩ := path_fail.mp h
      exact .inl ⟨x, .fail x, rfl⟩
    | step l effect next ih =>
      obtain ⟨e, s, rest, rfl, hrest⟩ := path_step.mp h
      rcases ih e s hrest with ⟨x, hp, rfl⟩ | ⟨first, a, second, rfl, hp, hf⟩
      · exact .inl ⟨x, .step e s hp, rfl⟩
      · exact .inr ⟨_ :: first, a, second, rfl, .step e s hp, hf⟩
  · intro h
    induction p generalizing steps with
    | done a =>
      rcases h with ⟨x, hp, -⟩ | ⟨first, b, second, rfl, hp, hf⟩
      · cases hp
      · obtain ⟨rfl, hb⟩ := path_done.mp hp
        cases hb
        exact hf
    | fail x =>
      rcases h with ⟨y, hp, rfl⟩ | ⟨first, b, second, rfl, hp, hf⟩
      · obtain ⟨rfl, hy⟩ := path_fail.mp hp
        cases hy
        exact .fail x
      · cases hp
    | step l effect next ih =>
      rcases h with ⟨x, hp, rfl⟩ | ⟨first, a, second, rfl, hp, hf⟩
      · obtain ⟨e, s, rest, rfl, hrest⟩ := path_step.mp hp
        exact .step e s (ih e s (.inl ⟨x, hrest, rfl⟩))
      · obtain ⟨e, s, rest, rfl, hrest⟩ := path_step.mp hp
        exact .step e s (ih e s (.inr ⟨rest, a, second, rfl, hrest, hf⟩))

theorem path_ofExcept_bind {r : Except χ α} {f : α → Prog ℓ ε σ χ β} {r' : Except χ β} :
    (ofExcept r >>= f).Path steps r' ↔
      (∃ x, r = .error x ∧ steps = [] ∧ r' = .error x) ∨ ∃ a, r = .ok a ∧ (f a).Path steps r' := by
  cases r with
  | error x =>
    constructor
    · intro h
      exact .inl ⟨x, rfl, path_fail.mp h⟩
    · rintro (⟨y, hy, h⟩ | ⟨a, ha, -⟩)
      · cases hy
        exact path_fail.mpr h
      · cases ha
  | ok a =>
    constructor
    · intro h
      exact .inr ⟨a, rfl, h⟩
    · rintro (⟨y, hy, -⟩ | ⟨b, hb, h⟩)
      · cases hy
      · cases hb
        exact h

/-- **A failure that is dealt with.** -/
theorem path_handle {p : Prog ℓ ε σ χ α} {f : χ → Prog ℓ ε σ χ' α} {r : Except χ' α} :
    (p.handle f).Path steps r ↔
      (∃ a, p.Path steps (.ok a) ∧ r = .ok a) ∨
        ∃ first x second, steps = first ++ second ∧ p.Path first (.error x) ∧
          (f x).Path second r := by
  constructor
  · intro h
    induction p generalizing steps with
    | done a =>
      obtain ⟨rfl, rfl⟩ := path_done.mp h
      exact .inl ⟨a, .done a, rfl⟩
    | fail x => exact .inr ⟨[], x, steps, rfl, .fail x, h⟩
    | step l effect next ih =>
      obtain ⟨e, s, rest, rfl, hrest⟩ := path_step.mp h
      rcases ih e s hrest with ⟨a, hp, rfl⟩ | ⟨first, x, second, rfl, hp, hf⟩
      · exact .inl ⟨a, .step e s hp, rfl⟩
      · exact .inr ⟨_ :: first, x, second, rfl, .step e s hp, hf⟩
  · intro h
    induction p generalizing steps with
    | done a =>
      rcases h with ⟨b, hp, rfl⟩ | ⟨first, x, second, rfl, hp, hf⟩
      · obtain ⟨rfl, hb⟩ := path_done.mp hp
        cases hb
        exact .done a
      · cases hp
    | fail x =>
      rcases h with ⟨b, hp, -⟩ | ⟨first, y, second, rfl, hp, hf⟩
      · cases hp
      · obtain ⟨rfl, hy⟩ := path_fail.mp hp
        cases hy
        exact hf
    | step l effect next ih =>
      rcases h with ⟨a, hp, rfl⟩ | ⟨first, x, second, rfl, hp, hf⟩
      · obtain ⟨e, s, rest, rfl, hrest⟩ := path_step.mp hp
        exact .step e s (ih e s (.inl ⟨a, hrest, rfl⟩))
      · obtain ⟨e, s, rest, rfl, hrest⟩ := path_step.mp hp
        exact .step e s (ih e s (.inr ⟨rest, x, second, rfl, hrest, hf⟩))

/-- The labels on the way are labels of the program. -/
theorem Path.labels {L : ℓ → Prop} {p : Prog ℓ ε σ χ α} {r : Except χ α} (h : p.Path steps r)
    (hp : p.Steps fun l _ _ => L l) : ∀ t ∈ steps, L t.label := by
  induction h with
  | done a => exact fun t ht => nomatch ht
  | fail x => exact fun t ht => nomatch ht
  | step e s _ ih =>
    obtain ⟨hl, hrest⟩ := steps_step.mp hp e s
    intro t ht
    rcases List.mem_cons.mp ht with rfl | ht
    · exact hl
    · exact ih hrest t ht

theorem path_within {f : ℓ → ℓ'} {p : Prog ℓ ε σ χ α} {steps : List (Taken ℓ' ε σ)}
    {r : Except χ α} :
    (p.within f).Path steps r ↔ ∃ inner, steps = inner.map (Taken.within f) ∧ p.Path inner r := by
  constructor
  · intro h
    induction p generalizing steps with
    | done a =>
      obtain ⟨rfl, rfl⟩ := path_done.mp h
      exact ⟨[], rfl, .done a⟩
    | fail x =>
      obtain ⟨rfl, rfl⟩ := path_fail.mp h
      exact ⟨[], rfl, .fail x⟩
    | step l effect next ih =>
      obtain ⟨e, s, rest, rfl, hrest⟩ := path_step.mp h
      obtain ⟨inner, rfl, hinner⟩ := ih e s hrest
      exact ⟨_ :: inner, rfl, .step e s hinner⟩
  · rintro ⟨inner, rfl, h⟩
    induction h with
    | done a => exact .done a
    | fail x => exact .fail x
    | step e s _ ih => exact .step e s ih

/-- Who only asks whether a program succeeds goes the program's way. -/
theorem path_succeeds {p : Prog ℓ ε σ χ α} {r : Except χ' Bool} :
    (p.succeeds : Prog ℓ ε σ χ' Bool).Path steps r ↔ ∃ r', p.Path steps r' ∧ r = .ok r'.isOk := by
  have hbind : (p.bind fun _ => done true) = (p >>= fun _ => done true) := rfl
  rw [succeeds, hbind, path_handle]
  constructor
  · rintro (⟨a, hp, rfl⟩ | ⟨first, x, second, rfl, hp, hf⟩)
    · rcases path_bind.mp hp with ⟨x, -, hx⟩ | ⟨first, b, second, rfl, hfirst, hf⟩
      · cases hx
      · obtain ⟨rfl, ha⟩ := path_done.mp hf
        cases ha
        rw [List.append_nil]
        exact ⟨.ok b, hfirst, rfl⟩
    · obtain ⟨rfl, rfl⟩ := path_done.mp hf
      rw [List.append_nil]
      rcases path_bind.mp hp with ⟨y, hp, -⟩ | ⟨_, b, _, rfl, -, hf⟩
      · exact ⟨.error y, hp, rfl⟩
      · cases (path_done.mp hf).2
  · rintro ⟨r', hp, rfl⟩
    cases r' with
    | ok a =>
      exact .inl ⟨true, path_bind.mpr (.inr ⟨steps, a, [], (List.append_nil _).symm, hp, .done true⟩),
        rfl⟩
    | error x =>
      exact .inr ⟨steps, x, [], (List.append_nil _).symm, path_bind.mpr (.inl ⟨x, hp, rfl⟩),
        .done false⟩

end Ways

end Prog

namespace ReadCommitted

open Prog

variable {ℓ δ τ φ χ β : Type} {steps : List (Taken ℓ Outcome (World δ τ))}

/-- A query for one row that goes wrong finds none, or fails. -/
theorem Outcome.row_eq_error {e : Outcome} {found : Option β} {x : StmtError φ}
    (h : e.row found = .error x) : x = .noRows ∧ e ≠ .failure ∨ x = .failed ∧ e = .failure := by
  cases e with
  | failure =>
    cases h
    exact .inr ⟨rfl, rfl⟩
  | noRow =>
    cases h
    exact .inl ⟨rfl, by decide⟩
  | ok =>
    cases found with
    | none =>
      cases h
      exact .inl ⟨rfl, by decide⟩
    | some b => cases h

theorem path_read {l : ℓ} {answer : Outcome → World δ τ → Except χ β} {r : Except χ β} :
    (read l answer).Path steps r ↔ ∃ e w, steps = [⟨l, e, w⟩] ∧ r = answer e w := by
  rw [read, path_step]
  constructor
  · rintro ⟨e, w, rest, rfl, hrest⟩
    obtain ⟨rfl, rfl⟩ := path_ofExcept.mp hrest
    exact ⟨e, w, rfl, rfl⟩
  · rintro ⟨e, w, rfl, rfl⟩
    exact ⟨e, w, [], rfl, path_ofExcept.mpr ⟨rfl, rfl⟩⟩

/-- A statement that only reads, and what comes after it. -/
theorem path_read_bind {α : Type} {l : ℓ} {answer : Outcome → World δ τ → Except χ β}
    {f : β → Program ℓ δ τ χ α} {r : Except χ α} :
    (read l answer >>= f).Path steps r ↔
      ∃ e w rest, steps = ⟨l, e, w⟩ :: rest ∧ (ofExcept (answer e w) >>= f).Path rest r := by
  rw [read, step_bind, path_step]

theorem read_mapError {χ' : Type} {l : ℓ} {answer : Outcome → World δ τ → Except χ β}
    {f : χ → χ'} : (read l answer).mapError f = read l fun e w => (answer e w).mapError f := by
  show step l _ _ = step l _ _
  congr 1
  funext e w
  show (ofExcept (answer e w)).handle _ = ofExcept ((answer e w).mapError f)
  cases answer e w <;> rfl

theorem path_clock_bind {α : Type} {l : ℓ} {f : τ → Program ℓ δ τ χ α} {r : Except χ α} :
    (clock l >>= f).Path steps r ↔
      ∃ e w rest, steps = ⟨l, e, w⟩ :: rest ∧ (f w.now).Path rest r :=
  path_read_bind

/-- The first step of a program that reads, and where it leads. -/
theorem step_of_read {α χ' : Type} {l l' : ℓ} {answer : Outcome → World δ τ → Except χ β} {f : χ → χ'}
    {k : β → Program ℓ δ τ χ' α} {effect : Outcome → World δ τ → World δ τ}
    {next : Outcome → World δ τ → Program ℓ δ τ χ' α}
    (h : Prog.step l' effect next = (read l answer).mapError f >>= k) :
    l' = l ∧ ∀ e w, effect e w = w ∧
      ((∃ x, answer e w = .error x ∧ next e w = .fail (f x)) ∨ ∃ b, answer e w = .ok b ∧ next e w = k b) := by
  rw [read_mapError] at h
  obtain ⟨rfl, rfl, rfl⟩ := Prog.step.inj (show Prog.step l' effect next = Prog.step l _ _ from h)
  refine ⟨rfl, fun e w => ⟨rfl, ?_⟩⟩
  dsimp only
  cases answer e w with
  | error x => exact .inl ⟨x, rfl, rfl⟩
  | ok b => exact .inr ⟨b, rfl, rfl⟩

/-- The first step of a program that writes, and where it leads. -/
theorem step_of_write {α χ' : Type} {l l' : ℓ} {update : Outcome → World δ τ → Except χ (δ × β)} {f : χ → χ'}
    {k : β → Program ℓ δ τ χ' α} {effect : Outcome → World δ τ → World δ τ}
    {next : Outcome → World δ τ → Program ℓ δ τ χ' α}
    (h : Prog.step l' effect next = (write l update).mapError f >>= k) :
    l' = l ∧ ∀ e w, (∃ x, update e w = .error x ∧ effect e w = w ∧ next e w = .fail (f x)) ∨
      ∃ r, update e w = .ok r ∧ effect e w = { w with db := r.1 } ∧ next e w = k r.2 := by
  obtain ⟨rfl, rfl, rfl⟩ := Prog.step.inj (show Prog.step l' effect next = Prog.step l _ _ from h)
  refine ⟨rfl, fun e w => ?_⟩
  dsimp only
  cases update e w with
  | error x => exact .inl ⟨x, rfl, rfl, rfl⟩
  | ok r => exact .inr ⟨r, rfl, rfl, rfl⟩

end ReadCommitted
