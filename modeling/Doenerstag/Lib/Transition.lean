import Mathlib.Logic.Relation

/-!
# Transition systems

A system is a relation on its states. A run is a sequence of steps each of which meets a condition,
which may be no condition at all.

* `Run.invariant` — **what every such step keeps, every run keeps.**
* `Run.invariant_under` — the same, with another invariant to build on.
-/

namespace Transition

variable {σ : Type*}

/-- The states that steps meeting a condition lead to. -/
def Run (step C : σ → σ → Prop) : σ → σ → Prop :=
  Relation.ReflTransGen fun s s' => step s s' ∧ C s s'

namespace Run

variable {step C : σ → σ → Prop} {s s' s'' : σ}

theorem refl (s : σ) : Run step C s s := Relation.ReflTransGen.refl

theorem tail (h : Run step C s s') (hstep : step s' s'') (hC : C s' s'') : Run step C s s'' :=
  Relation.ReflTransGen.tail h ⟨hstep, hC⟩

theorem trans (h : Run step C s s') (h' : Run step C s' s'') : Run step C s s'' :=
  Relation.ReflTransGen.trans h h'

theorem invariant {I : σ → Prop} (h : Run step C s s')
    (hstep : ∀ s s', step s s' → C s s' → I s → I s') (hstart : I s) : I s' := by
  induction h with
  | refl => exact hstart
  | tail _ hlast ih => exact hstep _ _ hlast.1 hlast.2 ih

theorem invariant_under {I J : σ → Prop} (h : Run step C s s')
    (hbase : ∀ s s', step s s' → J s → J s')
    (hstep : ∀ s s', step s s' → C s s' → J s → I s → I s') (hJ : J s) (hI : I s) : I s' := by
  have hboth : J s' ∧ I s' := h.invariant (I := fun s => J s ∧ I s)
    (fun s s' hs hC hJI => ⟨hbase s s' hs hJI.1, hstep s s' hs hC hJI.1 hJI.2⟩) ⟨hJ, hI⟩
  exact hboth.2

end Run

end Transition
