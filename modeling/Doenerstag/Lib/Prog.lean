import Mathlib.Logic.Function.Basic
import Mathlib.Logic.Relation

/-!
# Programs over a shared state

A program is a tree of atomic steps on a state that others may change between them. A step has a
label, which says which statement of the program it is, and an outcome, which the environment
chooses; both the effect on the state and the rest of the program depend on the outcome and on the
state the step finds. A program ends with a value or fails with an error.

* `Prog` — the trees, with their monad structure.
* `Prog.run` — a run without interference, the outcomes taken from an oracle.
* `Prog.Steps` — every step of a program is of some kind.
* `Prog.run_readOnly` — **a program whose steps only read leaves the state as it is.**
-/

/-- A program with step labels `ℓ`, outcomes `ε`, state `σ`, errors `χ` and values `α`. -/
inductive Prog (ℓ ε σ χ α : Type) : Type where
  | done (a : α)
  | fail (x : χ)
  | step (l : ℓ) (effect : ε → σ → σ) (next : ε → σ → Prog ℓ ε σ χ α)

namespace Prog

variable {ℓ ℓ' ε σ χ χ' α β : Type}

/-! ## Composition -/

/-- Run the first program, then the one its value selects. -/
def bind (p : Prog ℓ ε σ χ α) (f : α → Prog ℓ ε σ χ β) : Prog ℓ ε σ χ β :=
  match p with
  | done a => f a
  | fail x => fail x
  | step l effect next => step l effect fun e s => (next e s).bind f

instance : Monad (Prog ℓ ε σ χ) where
  pure := done
  bind := bind

/-- Continue a failure with another program, whose errors may be of another type. -/
def handle (p : Prog ℓ ε σ χ α) (f : χ → Prog ℓ ε σ χ' α) : Prog ℓ ε σ χ' α :=
  match p with
  | done a => done a
  | fail x => f x
  | step l effect next => step l effect fun e s => (next e s).handle f

instance : MonadExceptOf χ (Prog ℓ ε σ χ) where
  throw := fail
  tryCatch := handle

/-- Translate the error a program fails with. -/
def mapError (f : χ → χ') (p : Prog ℓ ε σ χ α) : Prog ℓ ε σ χ' α := p.handle fun x => fail (f x)

/-- The same program as a part of a larger one, whose labels say where it stands. -/
def within (f : ℓ → ℓ') : Prog ℓ ε σ χ α → Prog ℓ' ε σ χ α
  | done a => done a
  | fail x => fail x
  | step l effect next => step (f l) effect fun e s => (next e s).within f

/-- The same program when its statements come to outcomes of another kind. -/
def under {ε' : Type} (f : ε' → ε) : Prog ℓ ε σ χ α → Prog ℓ ε' σ χ α
  | done a => done a
  | fail x => fail x
  | step l effect next => step l (fun e => effect (f e)) fun e s => (next (f e) s).under f

/-- The same program on a larger state, of which it sees and changes a part. -/
def onPart {τ : Type} (get : τ → σ) (set : σ → τ → τ) : Prog ℓ ε σ χ α → Prog ℓ ε τ χ α
  | done a => done a
  | fail x => fail x
  | step l effect next =>
    step l (fun e t => set (effect e (get t)) t) fun e t => (next e (get t)).onPart get set

/-- One step that changes the state and says something about it, and cannot fail. -/
def atomic (l : ℓ) (f : σ → α × σ) : Prog ℓ ε σ χ α :=
  step l (fun _ s => (f s).2) fun _ s => done (f s).1

/-- A step that only takes its turn. -/
def mark (l : ℓ) : Prog ℓ ε σ χ Unit := atomic l fun s => ((), s)

/-- End with a result that is already there. -/
def ofExcept : Except χ α → Prog ℓ ε σ χ α
  | .ok a => done a
  | .error x => fail x

/-- Go on only if the condition holds. -/
def require (condition : Bool) (x : χ) : Prog ℓ ε σ χ Unit :=
  if condition then done () else fail x

@[simp] theorem pure_eq (a : α) : (pure a : Prog ℓ ε σ χ α) = done a := rfl

@[simp] theorem throw_eq (x : χ) : (throw x : Prog ℓ ε σ χ α) = fail x := rfl

@[simp] theorem done_bind (a : α) (f : α → Prog ℓ ε σ χ β) : done a >>= f = f a := rfl

@[simp] theorem fail_bind (x : χ) (f : α → Prog ℓ ε σ χ β) :
    (fail x : Prog ℓ ε σ χ α) >>= f = fail x := rfl

@[simp] theorem step_bind (l : ℓ) (effect : ε → σ → σ) (next : ε → σ → Prog ℓ ε σ χ α)
    (f : α → Prog ℓ ε σ χ β) :
    step l effect next >>= f = step l effect fun e s => next e s >>= f := rfl

theorem bind_assoc {γ : Type} (p : Prog ℓ ε σ χ α) (f : α → Prog ℓ ε σ χ β)
    (g : β → Prog ℓ ε σ χ γ) : p >>= f >>= g = p >>= fun a => f a >>= g := by
  induction p with
  | done a => rfl
  | fail x => rfl
  | step l effect next ih =>
    simp only [step_bind]
    congr 1
    funext e s
    exact ih e s

theorem bind_done (p : Prog ℓ ε σ χ α) : (p >>= fun a => done a) = p := by
  induction p with
  | done a => rfl
  | fail x => rfl
  | step l effect next ih =>
    simp only [step_bind]
    congr 1
    funext e s
    exact ih e s

instance : LawfulMonad (Prog ℓ ε σ χ) :=
  LawfulMonad.mk' _ bind_done (fun _ _ => rfl) bind_assoc

@[simp] theorem handle_done (a : α) (f : χ → Prog ℓ ε σ χ' α) : (done a).handle f = done a := rfl

@[simp] theorem handle_fail (x : χ) (f : χ → Prog ℓ ε σ χ' α) : (fail x).handle f = f x := rfl

@[simp] theorem handle_step (l : ℓ) (effect : ε → σ → σ) (next : ε → σ → Prog ℓ ε σ χ α)
    (f : χ → Prog ℓ ε σ χ' α) :
    (step l effect next).handle f = step l effect fun e s => (next e s).handle f := rfl

@[simp] theorem within_done (f : ℓ → ℓ') (a : α) :
    (done a : Prog ℓ ε σ χ α).within f = done a := rfl

@[simp] theorem within_fail (f : ℓ → ℓ') (x : χ) :
    (fail x : Prog ℓ ε σ χ α).within f = fail x := rfl

@[simp] theorem within_step (f : ℓ → ℓ') (l : ℓ) (effect : ε → σ → σ)
    (next : ε → σ → Prog ℓ ε σ χ α) :
    (step l effect next).within f = step (f l) effect fun e s => (next e s).within f := rfl

theorem within_bind (f : ℓ → ℓ') (p : Prog ℓ ε σ χ α) (k : α → Prog ℓ ε σ χ β) :
    (p >>= k).within f = p.within f >>= fun a => (k a).within f := by
  induction p with
  | done a => rfl
  | fail x => rfl
  | step l effect next ih =>
    simp only [step_bind, within_step]
    congr 1
    funext e s
    exact ih e s

theorem mapError_bind (f : χ → χ') (p : Prog ℓ ε σ χ α) (k : α → Prog ℓ ε σ χ β) :
    (p >>= k).mapError f = p.mapError f >>= fun a => (k a).mapError f := by
  induction p with
  | done a => rfl
  | fail x => rfl
  | step l effect next ih =>
    show step l effect _ = step l effect _
    congr 1
    funext e s
    exact ih e s

@[simp] theorem under_done {ε' : Type} (f : ε' → ε) (a : α) :
    (done a : Prog ℓ ε σ χ α).under f = done a := rfl

@[simp] theorem under_fail {ε' : Type} (f : ε' → ε) (x : χ) :
    (fail x : Prog ℓ ε σ χ α).under f = fail x := rfl

theorem under_bind {ε' : Type} (f : ε' → ε) (p : Prog ℓ ε σ χ α) (k : α → Prog ℓ ε σ χ β) :
    (p >>= k).under f = p.under f >>= fun a => (k a).under f := by
  induction p with
  | done a => rfl
  | fail x => rfl
  | step l effect next ih =>
    show step l _ _ = step l _ _
    congr 1
    funext e s
    exact ih (f e) s

theorem under_mapError {ε' : Type} (f : ε' → ε) (g : χ → χ') (p : Prog ℓ ε σ χ α) :
    (p.mapError g).under f = (p.under f).mapError g := by
  induction p with
  | done a => rfl
  | fail x => rfl
  | step l effect next ih =>
    show step l _ _ = step l _ _
    congr 1
    funext e s
    exact ih (f e) s

theorem under_require {ε' : Type} (f : ε' → ε) (condition : Bool) (x : χ) :
    (require condition x : Prog ℓ ε σ χ Unit).under f = require condition x := by
  cases condition <;> rfl

/-! ## Running undisturbed -/

/-- What a program comes to when nothing else touches the state and its statements go as the oracle
says. -/
def run (ω : ℓ → ε) : Prog ℓ ε σ χ α → σ → Except χ α × σ
  | done a, s => (.ok a, s)
  | fail x, s => (.error x, s)
  | step l effect next, s => (next (ω l) s).run ω (effect (ω l) s)

@[simp] theorem run_done (ω : ℓ → ε) (a : α) (s : σ) :
    (done a : Prog ℓ ε σ χ α).run ω s = (.ok a, s) := rfl

@[simp] theorem run_fail (ω : ℓ → ε) (x : χ) (s : σ) :
    (fail x : Prog ℓ ε σ χ α).run ω s = (.error x, s) := rfl

@[simp] theorem run_step (ω : ℓ → ε) (l : ℓ) (effect : ε → σ → σ)
    (next : ε → σ → Prog ℓ ε σ χ α) (s : σ) :
    (step l effect next).run ω s = (next (ω l) s).run ω (effect (ω l) s) := rfl

@[simp] theorem run_ofExcept (ω : ℓ → ε) (r : Except χ α) (s : σ) :
    (ofExcept r : Prog ℓ ε σ χ α).run ω s = (r, s) := by
  cases r <;> rfl

theorem run_require (ω : ℓ → ε) (condition : Bool) (x : χ) (s : σ) :
    (require condition x : Prog ℓ ε σ χ Unit).run ω s =
      (if condition then .ok () else .error x, s) := by
  cases condition <;> rfl

theorem run_bind (ω : ℓ → ε) (p : Prog ℓ ε σ χ α) (f : α → Prog ℓ ε σ χ β) (s : σ) :
    (p >>= f).run ω s =
      match p.run ω s with
      | (.ok a, s') => (f a).run ω s'
      | (.error x, s') => (.error x, s') := by
  induction p generalizing s with
  | done a => rfl
  | fail x => rfl
  | step l effect next ih => exact ih _ _ _

theorem run_handle (ω : ℓ → ε) (p : Prog ℓ ε σ χ α) (f : χ → Prog ℓ ε σ χ' α) (s : σ) :
    (p.handle f).run ω s =
      match p.run ω s with
      | (.ok a, s') => (.ok a, s')
      | (.error x, s') => (f x).run ω s' := by
  induction p generalizing s with
  | done a => rfl
  | fail x => rfl
  | step l effect next ih => exact ih _ _ _

@[simp] theorem exceptMapError_error (f : χ → χ') (x : χ) :
    (Except.error x : Except χ α).mapError f = .error (f x) := rfl

@[simp] theorem exceptMapError_ok (f : χ → χ') (a : α) :
    (Except.ok a : Except χ α).mapError f = .ok a := rfl

theorem exceptMapError_eq_ok {r : Except χ α} {f : χ → χ'} {a : α} (h : r.mapError f = .ok a) :
    r = .ok a := by
  cases r with
  | error x => cases h
  | ok b => exact congrArg _ (Except.ok.inj h)

theorem exceptMapError_eq_error {r : Except χ α} {f : χ → χ'} {y : χ'}
    (h : r.mapError f = .error y) : ∃ x, r = .error x ∧ y = f x := by
  cases r with
  | error x => exact ⟨x, rfl, (Except.error.inj h).symm⟩
  | ok a => cases h

theorem exceptMap_eq_ok {r : Except χ α} {f : α → β} {b : β} (h : r.map f = .ok b) :
    ∃ a, r = .ok a ∧ b = f a := by
  cases r with
  | error x => cases h
  | ok a => exact ⟨a, rfl, (Except.ok.inj h).symm⟩

/-- A step that is left out when there is nothing to do it with. -/
theorem exceptMapM_eq_ok {o : Option α} {f : α → Except χ β} {r : Option β} (h : o.mapM f = .ok r) :
    (o = none ∧ r = none) ∨ ∃ a b, o = some a ∧ f a = .ok b ∧ r = some b := by
  cases o with
  | none => exact .inl ⟨rfl, (Except.ok.inj h).symm⟩
  | some a =>
    obtain ⟨b, hb, rfl⟩ := exceptMap_eq_ok (r := f a) (f := some) h
    exact .inr ⟨a, b, rfl, hb, rfl⟩

/-- A sequence of results is a value when each of them is. -/
theorem exceptBind_eq_ok {r : Except χ α} {f : α → Except χ β} {b : β} (h : r >>= f = .ok b) :
    ∃ a, r = .ok a ∧ f a = .ok b := by
  cases r with
  | error x => cases h
  | ok a => exact ⟨a, rfl, h⟩

theorem run_mapError (ω : ℓ → ε) (f : χ → χ') (p : Prog ℓ ε σ χ α) (s : σ) :
    (p.mapError f).run ω s = ((p.run ω s).1.mapError f, (p.run ω s).2) := by
  rw [mapError, run_handle]
  rcases p.run ω s with ⟨_ | _, s'⟩ <;> rfl

theorem run_within (ω : ℓ' → ε) (f : ℓ → ℓ') (p : Prog ℓ ε σ χ α) (s : σ) :
    (p.within f).run ω s = p.run (ω ∘ f) s := by
  induction p generalizing s with
  | done a => rfl
  | fail x => rfl
  | step l effect next ih => exact ih _ _ _

/-- What runs on a part of the state runs there as it does alone. -/
theorem run_onPart {τ : Type} {get : τ → σ} {set : σ → τ → τ} (hget : ∀ s t, get (set s t) = s)
    (hset : ∀ s s' t, set s (set s' t) = set s t) (hsame : ∀ t, set (get t) t = t) (ω : ℓ → ε)
    (p : Prog ℓ ε σ χ α) (t : τ) : (p.onPart get set).run ω t =
      ((p.run ω (get t)).1, set (p.run ω (get t)).2 t) := by
  induction p generalizing t with
  | done a => exact Prod.ext rfl (hsame t).symm
  | fail x => exact Prod.ext rfl (hsame t).symm
  | step l effect next ih =>
    show ((next (ω l) (get t)).onPart get set).run ω (set (effect (ω l) (get t)) t) = _
    rw [ih, hget, hset]
    rfl

/-! ## The steps of a program -/

/-- Every step of the program is of a kind: its label and what it does to a state satisfy `P`. -/
def Steps (P : ℓ → σ → σ → Prop) : Prog ℓ ε σ χ α → Prop
  | done _ => True
  | fail _ => True
  | step l effect next => ∀ e s, P l s (effect e s) ∧ (next e s).Steps P

@[simp] theorem steps_done {P : ℓ → σ → σ → Prop} (a : α) :
    (done a : Prog ℓ ε σ χ α).Steps P := trivial

@[simp] theorem steps_fail {P : ℓ → σ → σ → Prop} (x : χ) :
    (fail x : Prog ℓ ε σ χ α).Steps P := trivial

theorem steps_step {P : ℓ → σ → σ → Prop} {l : ℓ} {effect : ε → σ → σ}
    {next : ε → σ → Prog ℓ ε σ χ α} :
    (step l effect next).Steps P ↔ ∀ e s, P l s (effect e s) ∧ (next e s).Steps P := Iff.rfl

namespace Steps

variable {P P' : ℓ → σ → σ → Prop}

theorem mono {p : Prog ℓ ε σ χ α} (h : p.Steps P) (himp : ∀ l s s', P l s s' → P' l s s') :
    p.Steps P' := by
  induction p with
  | done a => trivial
  | fail x => trivial
  | step l effect next ih => exact fun e s => ⟨himp _ _ _ (h e s).1, ih e s (h e s).2⟩

theorem trivially (p : Prog ℓ ε σ χ α) : p.Steps fun _ _ _ => True := by
  induction p with
  | done a => trivial
  | fail x => trivial
  | step l effect next ih => exact fun e s => ⟨trivial, ih e s⟩

theorem ofExcept (r : Except χ α) : (Prog.ofExcept r : Prog ℓ ε σ χ α).Steps P := by
  cases r <;> trivial

theorem bind {p : Prog ℓ ε σ χ α} {f : α → Prog ℓ ε σ χ β} (hp : p.Steps P)
    (hf : ∀ a, (f a).Steps P) : (p >>= f).Steps P := by
  induction p with
  | done a => exact hf a
  | fail x => trivial
  | step l effect next ih => exact fun e s => ⟨(hp e s).1, ih e s (hp e s).2⟩

theorem handle {p : Prog ℓ ε σ χ α} {f : χ → Prog ℓ ε σ χ' α} (hp : p.Steps P)
    (hf : ∀ x, (f x).Steps P) : (p.handle f).Steps P := by
  induction p with
  | done a => trivial
  | fail x => exact hf x
  | step l effect next ih => exact fun e s => ⟨(hp e s).1, ih e s (hp e s).2⟩

theorem mapError {p : Prog ℓ ε σ χ α} (hp : p.Steps P) (f : χ → χ') : (p.mapError f).Steps P :=
  hp.handle fun _ => trivial

theorem within {P : ℓ' → σ → σ → Prop} {p : Prog ℓ ε σ χ α} {f : ℓ → ℓ'}
    (hp : p.Steps fun l => P (f l)) : (p.within f).Steps P := by
  induction p with
  | done a => trivial
  | fail x => trivial
  | step l effect next ih => exact fun e s => ⟨(hp e s).1, ih e s (hp e s).2⟩

theorem atomic {P : ℓ → σ → σ → Prop} {l : ℓ} {f : σ → α × σ} (h : ∀ s, P l s (f s).2) :
    (Prog.atomic l f : Prog ℓ ε σ χ α).Steps P :=
  fun _ s => ⟨h s, trivial⟩

/-- What a program does to its part of a larger state. -/
theorem onPart {τ : Type} {P : ℓ → τ → τ → Prop} {get : τ → σ} {set : σ → τ → τ}
    {p : Prog ℓ ε σ χ α} {P' : ℓ → σ → σ → Prop} (hp : p.Steps P')
    (h : ∀ l s t, P' l (get t) s → P l t (set s t)) : (p.onPart get set).Steps P := by
  induction p with
  | done a => trivial
  | fail x => trivial
  | step l effect next ih =>
    exact fun e t => ⟨h l _ t (hp e (get t)).1, ih e (get t) (hp e (get t)).2⟩

end Steps

/-- Every step leaves the state as it is. -/
def ReadOnly (p : Prog ℓ ε σ χ α) : Prop := p.Steps fun _ s s' => s' = s

theorem run_readOnly {p : Prog ℓ ε σ χ α} (h : p.ReadOnly) (ω : ℓ → ε) (s : σ) :
    (p.run ω s).2 = s := by
  induction p generalizing s with
  | done a => rfl
  | fail x => rfl
  | step l effect next ih =>
    obtain ⟨hsame, hrest⟩ := h (ω l) s
    rw [run_step, hsame]
    exact ih (ω l) s hrest s

/-- Every step leaves the state as it is, and has a label of a kind. -/
def Reads (L : ℓ → Prop) (p : Prog ℓ ε σ χ α) : Prop := p.Steps fun l s s' => s' = s ∧ L l

namespace Reads

variable {L L' : ℓ → Prop}

theorem readOnly {p : Prog ℓ ε σ χ α} (h : p.Reads L) : p.ReadOnly :=
  Steps.mono h fun _ _ _ hl => hl.1

theorem mono {p : Prog ℓ ε σ χ α} (h : p.Reads L) (himp : ∀ l, L l → L' l) : p.Reads L' :=
  Steps.mono h fun l _ _ hl => ⟨hl.1, himp l hl.2⟩

theorem done (a : α) : (Prog.done a : Prog ℓ ε σ χ α).Reads L := trivial

theorem fail (x : χ) : (Prog.fail x : Prog ℓ ε σ χ α).Reads L := trivial

theorem ofExcept (r : Except χ α) : (Prog.ofExcept r : Prog ℓ ε σ χ α).Reads L :=
  Steps.ofExcept r

theorem require (condition : Bool) (x : χ) :
    (Prog.require condition x : Prog ℓ ε σ χ Unit).Reads L := by
  cases condition
  · exact fail x
  · exact done ()

theorem bind {p : Prog ℓ ε σ χ α} {f : α → Prog ℓ ε σ χ β} (hp : p.Reads L)
    (hf : ∀ a, (f a).Reads L) : (p >>= f).Reads L :=
  Steps.bind hp hf

theorem handle {p : Prog ℓ ε σ χ α} {f : χ → Prog ℓ ε σ χ' α} (hp : p.Reads L)
    (hf : ∀ x, (f x).Reads L) : (p.handle f).Reads L :=
  Steps.handle hp hf

theorem mapError {p : Prog ℓ ε σ χ α} (hp : p.Reads L) (f : χ → χ') : (p.mapError f).Reads L :=
  Steps.mapError hp f

theorem within {L : ℓ' → Prop} {p : Prog ℓ ε σ χ α} {f : ℓ → ℓ'}
    (hp : p.Reads fun l => L (f l)) : (p.within f).Reads L :=
  Steps.within hp

theorem mapM {γ : Type} {f : γ → Prog ℓ ε σ χ α} (hf : ∀ x, (f x).Reads L) (xs : List γ) :
    (xs.mapM f).Reads L := by
  induction xs with
  | nil => exact done []
  | cons x rest ih =>
    rw [List.mapM_cons]
    exact bind (hf x) fun _ => bind ih fun _ => done _

end Reads

/-! ## The values of a program -/

/-- Every value the program may end with satisfies `A`, if the states its steps find satisfy
`I`. -/
def Returns (I : σ → Prop) (A : α → Prop) : Prog ℓ ε σ χ α → Prop
  | done a => A a
  | fail _ => True
  | step _ _ next => ∀ e s, I s → (next e s).Returns I A

theorem returns_done {I : σ → Prop} {A : α → Prop} {a : α} :
    (done a : Prog ℓ ε σ χ α).Returns I A ↔ A a := Iff.rfl

theorem returns_fail {I : σ → Prop} {A : α → Prop} (x : χ) :
    (fail x : Prog ℓ ε σ χ α).Returns I A := trivial

theorem returns_step {I : σ → Prop} {A : α → Prop} {l : ℓ} {effect : ε → σ → σ}
    {next : ε → σ → Prog ℓ ε σ χ α} :
    (step l effect next).Returns I A ↔ ∀ e s, I s → (next e s).Returns I A := Iff.rfl

namespace Returns

variable {I : σ → Prop} {A A' : α → Prop}

theorem mono {p : Prog ℓ ε σ χ α} (h : p.Returns I A) (himp : ∀ a, A a → A' a) :
    p.Returns I A' := by
  induction p with
  | done a => exact himp a h
  | fail x => trivial
  | step l effect next ih => exact fun e s hI => ih e s (h e s hI)

theorem trivially (p : Prog ℓ ε σ χ α) : p.Returns I fun _ => True := by
  induction p with
  | done a => trivial
  | fail x => trivial
  | step l effect next ih => exact fun e s _ => ih e s

theorem ofExcept {r : Except χ α} (h : ∀ a, r = .ok a → A a) :
    (Prog.ofExcept r : Prog ℓ ε σ χ α).Returns I A := by
  cases r with
  | error x => trivial
  | ok a => exact h a rfl

theorem require (condition : Bool) (x : χ) :
    (Prog.require condition x : Prog ℓ ε σ χ Unit).Returns I fun _ => condition = true := by
  cases condition
  · trivial
  · exact rfl

theorem bind {p : Prog ℓ ε σ χ α} {f : α → Prog ℓ ε σ χ β} {B : β → Prop} (hp : p.Returns I A)
    (hf : ∀ a, A a → (f a).Returns I B) : (p >>= f).Returns I B := by
  induction p with
  | done a => exact hf a hp
  | fail x => trivial
  | step l effect next ih => exact fun e s hI => ih e s (hp e s hI)

theorem mapError {p : Prog ℓ ε σ χ α} (hp : p.Returns I A) (f : χ → χ') :
    (p.mapError f).Returns I A := by
  induction p with
  | done a => exact hp
  | fail x => trivial
  | step l effect next ih => exact fun e s hI => ih e s (hp e s hI)

theorem handle {p : Prog ℓ ε σ χ α} {f : χ → Prog ℓ ε σ χ' α} (hp : p.Returns I A)
    (hf : ∀ x, (f x).Returns I A) : (p.handle f).Returns I A := by
  induction p with
  | done a => exact hp
  | fail x => exact hf x
  | step l effect next ih => exact fun e s hI => ih e s (hp e s hI)

theorem within {p : Prog ℓ ε σ χ α} (hp : p.Returns I A) (f : ℓ → ℓ') :
    (p.within f).Returns I A := by
  induction p with
  | done a => exact hp
  | fail x => trivial
  | step l effect next ih => exact fun e s hI => ih e s (hp e s hI)

theorem onPart {τ : Type} {get : τ → σ} {set : σ → τ → τ} {J : τ → Prop} {p : Prog ℓ ε σ χ α}
    (hp : p.Returns I A) (hJ : ∀ t, J t → I (get t)) : (p.onPart get set).Returns J A := by
  induction p with
  | done a => exact hp
  | fail x => trivial
  | step l effect next ih => exact fun e t ht => ih e (get t) (hp e (get t) (hJ t ht))

end Returns

/-- The second program need only be of the kind for values the first may end with. -/
theorem Steps.bind_returns {P : ℓ → σ → σ → Prop} {A : α → Prop} {p : Prog ℓ ε σ χ α}
    {f : α → Prog ℓ ε σ χ β} (hp : p.Steps P) (hA : p.Returns (fun _ => True) A)
    (hf : ∀ a, A a → (f a).Steps P) : (p >>= f).Steps P := by
  induction p with
  | done a => exact hf a hA
  | fail x => trivial
  | step l effect next ih => exact fun e s => ⟨(hp e s).1, ih e s (hp e s).2 (hA e s trivial)⟩

/-- Whether the program ends with a value. -/
def succeeds (p : Prog ℓ ε σ χ α) : Prog ℓ ε σ χ' Bool :=
  (p.bind fun _ => done true).handle fun _ => done false

theorem Reads.succeeds {L : ℓ → Prop} {p : Prog ℓ ε σ χ α} (hp : p.Reads L) :
    (p.succeeds : Prog ℓ ε σ χ' Bool).Reads L :=
  (hp.bind fun _ => .done true).handle fun _ => .done false

theorem run_succeeds (ω : ℓ → ε) (p : Prog ℓ ε σ χ α) (s : σ) :
    (p.succeeds : Prog ℓ ε σ χ' Bool).run ω s = (.ok (p.run ω s).1.isOk, (p.run ω s).2) := by
  induction p generalizing s with
  | done a => rfl
  | fail x => rfl
  | step l effect next ih => exact ih _ _ _

/-- What the program ends with, if it does not fail. -/
def option (p : Prog ℓ ε σ χ α) : Prog ℓ ε σ χ' (Option α) :=
  (p.bind fun a => done (some a)).handle fun _ => done none

theorem Steps.succeeds {P : ℓ → σ → σ → Prop} {p : Prog ℓ ε σ χ α} (hp : p.Steps P) :
    (p.succeeds : Prog ℓ ε σ χ' Bool).Steps P :=
  (hp.bind fun _ => steps_done true).handle fun _ => steps_done false

theorem Steps.option {P : ℓ → σ → σ → Prop} {p : Prog ℓ ε σ χ α} (hp : p.Steps P) :
    (p.option : Prog ℓ ε σ χ' (Option α)).Steps P :=
  (hp.bind fun a => steps_done (some a)).handle fun _ => steps_done none

theorem Returns.option {I : σ → Prop} {A : α → Prop} {p : Prog ℓ ε σ χ α} (hp : p.Returns I A) :
    (p.option : Prog ℓ ε σ χ' (Option α)).Returns I fun found => ∀ a ∈ found, A a := by
  induction p with
  | done a => exact fun b hb => Option.some.inj hb ▸ hp
  | fail x => exact fun b hb => nomatch hb
  | step l effect next ih => exact fun e s hI => ih e s (hp e s hI)

/-- Who only waits for the program need not know what it ends with. -/
theorem option_bind_const (p : Prog ℓ ε σ χ α) (q : Prog ℓ ε σ χ' β) :
    (p.option >>= fun _ => q) = p.succeeds >>= fun _ => q := by
  induction p with
  | done a => rfl
  | fail x => rfl
  | step l effect next ih =>
    show step l effect _ = step l effect _
    congr 1
    funext e s
    exact ih e s

-- from here on the two are what their lemmas say, so that no elaborator runs a program to see
-- whether a statement about it is a function type
attribute [irreducible] Steps Returns

end Prog
