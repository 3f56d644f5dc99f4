import Doenerstag.Lib.ReadCommitted
import Mathlib.Data.List.Forall2
import Mathlib.Data.Option.Basic

/-!
# Two runs of a program

What a program comes to is decided by what its steps find: an outcome and a state each. A relation
on states says which states an observer takes for the same. Two programs are *alike* for it when
runs whose steps find the same outcomes and related states come to the same error or to related
values.

* `Prog.along` — what a program comes to, given what its steps find.
* `Prog.Alike` — the judgement, with a rule for every construct.
* `Prog.Alike.along` — **alike programs come to the same thing** along corresponding findings.
-/

namespace Prog

variable {ℓ ℓ' ε σ χ χ' α α' β β' γ γ' : Type}

/-- What a program comes to when its steps find these outcomes and states, if it gets to an end. -/
def along : Prog ℓ ε σ χ α → List (ε × σ) → Option (Except χ α)
  | done a, _ => some (.ok a)
  | fail x, _ => some (.error x)
  | step _ _ _, [] => none
  | step _ _ next, (e, s) :: rest => (next e s).along rest

theorem Returns.along {A : α → Prop} {p : Prog ℓ ε σ χ α} (h : p.Returns (fun _ => True) A)
    {found : List (ε × σ)} {a : α} (ha : p.along found = some (.ok a)) : A a := by
  induction p generalizing found with
  | done b =>
    cases ha
    exact returns_done.mp h
  | fail x => cases ha
  | step l effect next ih =>
    cases found with
    | nil => cases ha
    | cons f rest => exact ih f.1 f.2 (returns_step.mp h f.1 f.2 trivial) ha

/-- The same error, or related values. -/
inductive Matches (Q : α → β → Prop) : Except χ α → Except χ β → Prop where
  | ok {a : α} {b : β} (related : Q a b) : Matches Q (.ok a) (.ok b)
  | error (x : χ) : Matches Q (.error x) (.error x)

/-- Two findings of the same outcome, in related states. -/
def SameFinding (E : σ → σ → Prop) (f f' : ε × σ) : Prop := f.1 = f'.1 ∧ E f.2 f'.2

/-- The programs come to matching results if their steps find the same in related states. -/
inductive Alike (E : σ → σ → Prop) (Q : α → β → Prop) :
    Prog ℓ ε σ χ α → Prog ℓ' ε σ χ β → Prop where
  | done {a : α} {b : β} (related : Q a b) : Alike E Q (done a) (done b)
  | fail (x : χ) : Alike E Q (fail x) (fail x)
  | step {l : ℓ} {l' : ℓ'} {effect effect' : ε → σ → σ} {next : ε → σ → Prog ℓ ε σ χ α}
      {next' : ε → σ → Prog ℓ' ε σ χ β}
      (rest : ∀ e s s', E s s' → Alike E Q (next e s) (next' e s')) :
      Alike E Q (step l effect next) (step l' effect' next')

namespace Alike

variable {E : σ → σ → Prop} {Q : α → β → Prop} {p : Prog ℓ ε σ χ α} {p' : Prog ℓ' ε σ χ β}

theorem ofExcept {r : Except χ α} {r' : Except χ β} (h : Matches Q r r') :
    Alike E Q (Prog.ofExcept r : Prog ℓ ε σ χ α) (Prog.ofExcept r' : Prog ℓ' ε σ χ β) := by
  cases h with
  | ok related => exact .done related
  | error x => exact .fail x

theorem bind {Q' : γ → γ' → Prop} {f : α → Prog ℓ ε σ χ γ} {f' : β → Prog ℓ' ε σ χ γ'}
    (hp : Alike E Q p p') (hf : ∀ a b, Q a b → Alike E Q' (f a) (f' b)) :
    Alike E Q' (p >>= f) (p' >>= f') := by
  induction hp with
  | done related => exact hf _ _ related
  | fail x => exact .fail x
  | step _ ih => exact .step fun e s s' hE => ih e s s' hE

theorem handle {f : χ → Prog ℓ ε σ χ' α} {f' : χ → Prog ℓ' ε σ χ' β} (hp : Alike E Q p p')
    (hf : ∀ x, Alike E Q (f x) (f' x)) : Alike E Q (p.handle f) (p'.handle f') := by
  induction hp with
  | done related => exact .done related
  | fail x => exact hf x
  | step _ ih => exact .step fun e s s' hE => ih e s s' hE

theorem mapError (hp : Alike E Q p p') (f : χ → χ') : Alike E Q (p.mapError f) (p'.mapError f) :=
  hp.handle fun x => .fail (f x)

theorem within {m m' : Type} (hp : Alike E Q p p') (f : ℓ → m) (f' : ℓ' → m') :
    Alike E Q (p.within f) (p'.within f') := by
  induction hp with
  | done related => exact .done related
  | fail x => exact .fail x
  | step _ ih => exact .step fun e s s' hE => ih e s s' hE

/-- The same program for each of two lists that correspond. -/
theorem mapM {P : γ → γ' → Prop} {f : γ → Prog ℓ ε σ χ α} {f' : γ' → Prog ℓ' ε σ χ β}
    (hf : ∀ x y, P x y → Alike E Q (f x) (f' y)) {xs : List γ} {ys : List γ'}
    (h : List.Forall₂ P xs ys) : Alike E (List.Forall₂ Q) (xs.mapM f) (ys.mapM f') := by
  induction h with
  | nil => exact .done .nil
  | cons hxy _ ih =>
    rw [List.mapM_cons, List.mapM_cons]
    exact (hf _ _ hxy).bind fun a b hab => ih.bind fun as bs hrest => .done (.cons hab hrest)

/-- **Alike programs come to the same thing.** -/
theorem along (h : Alike E Q p p') {found found' : List (ε × σ)}
    (hfound : List.Forall₂ (SameFinding E) found found') :
    Option.Rel (Matches Q) (p.along found) (p'.along found') := by
  induction h generalizing found found' with
  | done related => exact .some (.ok related)
  | fail x => exact .some (.error x)
  | step _ ih =>
    cases hfound with
    | nil => exact .none
    | @cons f f' rest rest' hsame hrest =>
      obtain ⟨e, s⟩ := f
      obtain ⟨e', s'⟩ := f'
      obtain ⟨rfl, hE⟩ := hsame
      exact ih e s s' hE hrest

theorem along_eq {p p' : Prog ℓ ε σ χ α} (h : Alike E (· = ·) p p') {found found' : List (ε × σ)}
    (hfound : List.Forall₂ (SameFinding E) found found') : p.along found = p'.along found' := by
  have hsame := h.along hfound
  revert hsame
  generalize p.along found = r, p'.along found' = r'
  intro hsame
  cases hsame with
  | none => rfl
  | some hmatch =>
    cases hmatch with
    | ok related => rw [related]
    | error x => rfl

end Alike

theorem Alike.option {E : σ → σ → Prop} {Q : α → β → Prop} {p : Prog ℓ ε σ χ α}
    {p' : Prog ℓ' ε σ χ β} (h : Alike E Q p p') :
    Alike E (Option.Rel Q) (p.option : Prog ℓ ε σ χ' (Option α))
      (p'.option : Prog ℓ' ε σ χ' (Option β)) :=
  (h.bind fun _ _ hab => .done (.some hab)).handle fun _ => .done .none

end Prog

namespace ReadCommitted

variable {ℓ ℓ' δ τ φ χ α β : Type}

section Rules

variable {E : World δ τ → World δ τ → Prop} {Q : α → β → Prop}

theorem alike_read {l : ℓ} {l' : ℓ'} {answer : Outcome → World δ τ → Except χ α}
    {answer' : Outcome → World δ τ → Except χ β}
    (h : ∀ e w w', E w w' → Prog.Matches Q (answer e w) (answer' e w')) :
    Prog.Alike E Q (read l answer) (read l' answer') :=
  .step fun e w w' hE => .ofExcept (h e w w' hE)

theorem alike_queryRow {l : ℓ} {l' : ℓ'} {q : δ → Option α} {q' : δ → Option β}
    (h : ∀ w w', E w w' → Option.Rel Q (q w.db) (q' w'.db)) :
    Prog.Alike E Q (queryRow l q : Program ℓ δ τ (StmtError φ) α)
      (queryRow l' q' : Program ℓ' δ τ (StmtError φ) β) := by
  refine alike_read fun e w w' hE => ?_
  have hrow := h w w' hE
  cases e with
  | ok =>
    revert hrow
    generalize q w.db = found, q' w'.db = found'
    intro hrow
    cases hrow with
    | some hab => exact .ok hab
    | none => exact .error _
  | noRow => exact .error _
  | failure => exact .error _

theorem alike_query {l : ℓ} {l' : ℓ'} {q : δ → α} {q' : δ → β}
    (h : ∀ w w', E w w' → Q (q w.db) (q' w'.db)) :
    Prog.Alike E Q (query l q : Program ℓ δ τ (StmtError φ) α)
      (query l' q' : Program ℓ' δ τ (StmtError φ) β) := by
  refine alike_read fun e w w' hE => ?_
  cases e with
  | ok | noRow => exact .ok (h w w' hE)
  | failure => exact .error _

theorem alike_clock {l : ℓ} {l' : ℓ'} (h : ∀ w w', E w w' → w.now = w'.now) :
    Prog.Alike E (fun t t' => t = t') (clock l : Program ℓ δ τ χ τ) (clock l' : Program ℓ' δ τ χ τ) :=
  alike_read fun _ w w' hE => .ok (h w w' hE)

end Rules

end ReadCommitted
