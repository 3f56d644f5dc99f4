import Doenerstag.Lib.Interleaving

/-!
# Programs in phases, and programs that overlap

What is left of a program is told by the phase it is in, with what it has found so far. A system of
programs is then a system of phases, and an invariant may speak of these.

Where every program takes a *first* step and later a *last* one, those are under way that have taken the
first and not the last; the last first step of a history overlaps those that are under way.

* `History.phases` — **an invariant of histories that speaks of the phases.**
* `underway`, `overlapping` — by the moves of a history, the last one first, or by those `among` them that
  are moves of some of the programs.
-/

namespace Prog

variable {ι ℓ ε σ χ α φ : Type}

/-! ## Phases -/

/-- Phases that tell what is left of a program, and what its steps do. -/
structure Phases (At : φ → Prog ℓ ε σ χ α → Prop) (M : φ → ℓ → σ → σ → φ → Prop) : Prop where
  step : ∀ {phase : φ} {l : ℓ} {effect : ε → σ → σ} {next : ε → σ → Prog ℓ ε σ χ α},
    At phase (.step l effect next) → ∀ e s, ∃ phase', At phase' (next e s) ∧ M phase l s (effect e s) phase'

/-- **An invariant of histories that speaks of the phases**, where every program has phases of its own. -/
theorem History.phases [DecidableEq ι] {Env : σ → σ → Prop} {c c' : Config ι ℓ ε σ χ α} {moves : List (Move ι ℓ σ)}
    {At : ι → φ → Prog ℓ ε σ χ α → Prop} {M : ι → φ → ℓ → σ → σ → φ → Prop}
    {J : List (Mover ι ℓ) → (ι → φ) → σ → Prop} (h : History Env c moves c')
    (hphases : ∀ i, Phases (At i) (M i)) {start : ι → φ} (hat : ∀ i, At i (start i) (c.procs i))
    (hstart : J [] start c.state)
    (hproc : ∀ movers phases s i l s' phase, J movers phases s → M i (phases i) l s s' phase →
      J (.proc i l :: movers) (Function.update phases i phase) s')
    (henv : ∀ movers phases s s', J movers phases s → Env s s' → J (.env :: movers) phases s') :
    ∃ phases, (∀ i, At i (phases i) (c'.procs i)) ∧ J (moves.map Move.mover) phases c'.state := by
  induction h with
  | start => exact ⟨start, hat, hstart⟩
  | @tail c' c'' moves m history move ih =>
    obtain ⟨phases, hnow, hJ⟩ := ih
    cases move with
    | env change => exact ⟨phases, hnow, henv _ _ _ _ hJ change⟩
    | @exec i l effect next hprog e =>
      obtain ⟨phase, hnext, hmove⟩ := (hphases i).step (hprog ▸ hnow i) e c'.state
      refine ⟨Function.update phases i phase, fun j => ?_, hproc _ _ _ i l _ phase hJ hmove⟩
      dsimp only
      by_cases hj : j = i
      · subst hj
        rw [Function.update_self, Function.update_self]
        exact hnext
      · rw [Function.update_of_ne hj, Function.update_of_ne hj]
        exact hnow j

/-- The phases of a program whose statements come to outcomes of another kind. -/
theorem Phases.under {ε' : Type} {At : φ → Prog ℓ ε σ χ α → Prop} {M : φ → ℓ → σ → σ → φ → Prop}
    (f : ε' → ε) (h : ∀ {phase : φ} {l : ℓ} {effect : ε → σ → σ} {next : ε → σ → Prog ℓ ε σ χ α},
      At phase (.step l effect next) → ∀ e s, ∃ phase', At phase' (next (f e) s) ∧
        M phase l s (effect (f e) s) phase') :
    Phases (fun phase p => ∃ q, p = q.under f ∧ At phase q) M where
  step := by
    rintro phase l effect next ⟨q, hq, hat⟩ e s
    cases q with
    | done a => cases hq
    | fail x => cases hq
    | step l' effect' next' =>
      cases hq
      obtain ⟨phase', hnext, hmove⟩ := h hat e s
      exact ⟨phase', ⟨_, rfl, hnext⟩, hmove⟩

theorem result_under {ε' : Type} (f : ε' → ε) (p : Prog ℓ ε σ χ α) : (p.under f).result = p.result := by
  cases p with
  | done => rfl
  | fail => rfl
  | step => rfl

/-! ## Overlaps -/

/-- The moves of some of the programs. -/
def among (keep : ι → Bool) : List (Mover ι ℓ) → List (Mover ι ℓ)
  | [] => []
  | .env :: earlier => among keep earlier
  | .proc i l :: earlier => if keep i then .proc i l :: among keep earlier else among keep earlier

theorem among_kept {keep : ι → Bool} {i : ι} {l : ℓ} {movers : List (Mover ι ℓ)} (h : keep i = true) :
    among keep (.proc i l :: movers) = .proc i l :: among keep movers := by
  rw [among, if_pos h]

theorem among_other {keep : ι → Bool} {i : ι} {l : ℓ} {movers : List (Mover ι ℓ)} (h : keep i = false) :
    among keep (.proc i l :: movers) = among keep movers := by
  rw [among, if_neg (Bool.eq_false_iff.mp h)]

section Took

variable [DecidableEq ι] [DecidableEq ℓ] (l : ℓ)

/-- Whether a program has taken a step. -/
def took : List (Mover ι ℓ) → ι → Bool
  | [], _ => false
  | .env :: earlier, i => took earlier i
  | .proc j l' :: earlier, i => decide (j = i ∧ l' = l) || took earlier i

variable {l} {movers : List (Mover ι ℓ)} {i j : ι}

theorem took_self : took l (.proc i l :: movers) i = true := by
  rw [took, decide_eq_true ⟨rfl, rfl⟩, Bool.true_or]

theorem took_other {l' : ℓ} (h : ¬ (j = i ∧ l' = l)) : took l (.proc j l' :: movers) i = took l movers i := by
  rw [took, decide_eq_false h, Bool.false_or]

end Took

section Overlaps

variable [DecidableEq ι] [DecidableEq ℓ] (first last : ℓ)

/-- Those that have taken the first of two steps and not the last. -/
def underway : List (Mover ι ℓ) → List ι
  | [] => []
  | .env :: earlier => underway earlier
  | .proc i l :: earlier =>
    if l = first then i :: underway earlier
    else if l = last then (underway earlier).filter (· ≠ i)
    else underway earlier

/-- Who has taken the last first step, and those that were under way then. -/
def overlapping : List (Mover ι ℓ) → List ι
  | [] => []
  | .env :: earlier => overlapping earlier
  | .proc i l :: earlier => if l = first then i :: underway first last earlier else overlapping earlier

variable {first last} {movers : List (Mover ι ℓ)} {i : ι} {l : ℓ}

/-- Whoever is under way overlaps the last first step. -/
theorem mem_overlapping_of_underway {j : ι} (h : j ∈ underway first last movers) :
    j ∈ overlapping first last movers := by
  induction movers with
  | nil => exact h
  | cons m earlier ih =>
    cases m with
    | env => exact ih h
    | proc i l =>
      rw [underway] at h
      rw [overlapping]
      by_cases hfirst : l = first
      · rw [if_pos hfirst] at h ⊢
        exact h
      rw [if_neg hfirst] at h ⊢
      by_cases hlast : l = last
      · rw [if_pos hlast] at h
        exact ih (List.mem_filter.mp h).1
      · rw [if_neg hlast] at h
        exact ih h

theorem underway_first : underway first last (.proc i first :: movers) = i :: underway first last movers := by
  rw [underway, if_pos rfl]

theorem overlapping_first :
    overlapping first last (.proc i first :: movers) = i :: underway first last movers := by
  rw [overlapping, if_pos rfl]

theorem underway_last (hne : last ≠ first) : underway first last (.proc i last :: movers) =
    (underway first last movers).filter (· ≠ i) := by
  rw [underway, if_neg hne, if_pos rfl]

theorem underway_other (hfirst : l ≠ first) (hlast : l ≠ last) :
    underway first last (.proc i l :: movers) = underway first last movers := by
  rw [underway, if_neg hfirst, if_neg hlast]

theorem overlapping_other (hfirst : l ≠ first) :
    overlapping first last (.proc i l :: movers) = overlapping first last movers := by
  rw [overlapping, if_neg hfirst]

end Overlaps

end Prog
