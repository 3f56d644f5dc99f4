import Mathlib.Order.Basic

/-!
# Loops that try again

A loop whose rounds end it or go on from another state. It is run for a number of rounds; a round may itself
contain loops, and not be done in the number it is given.

* `retry` — the loop.
* `retry_mono` — with more rounds, outer or inner, it comes to the same.
* `retry_result` — what it returns, its last round has returned.
* `retry_ends` — **it ends if something gets less with every round.**
* `retry_never` — **it does not end from where every round goes on to a state of the same kind.**
-/

namespace Retries

variable {σ ρ : Type}

inductive Next (σ ρ : Type) where
  | stop (r : ρ)
  | again (s : σ)

def retry (round : σ → Option (Next σ ρ)) : Nat → σ → Option ρ
  | 0, _ => none
  | n + 1, s =>
    match round s with
    | none => none
    | some (.stop r) => some r
    | some (.again s') => retry round n s'

variable {round round' : σ → Option (Next σ ρ)} {s s' : σ} {r : ρ}

theorem retry_stop (h : round s = some (.stop r)) (n : Nat) : retry round (n + 1) s = some r := by
  simp only [retry, h]

theorem retry_again (h : round s = some (.again s')) (n : Nat) : retry round (n + 1) s = retry round n s' := by
  simp only [retry, h]

theorem retry_unfinished (h : round s = none) (n : Nat) : retry round n s = none := by
  cases n with
  | zero => rfl
  | succ n => simp only [retry, h]

theorem retry_mono (hround : ∀ s x, round s = some x → round' s = some x) :
    ∀ {n m : Nat} {s : σ}, n ≤ m → retry round n s = some r → retry round' m s = some r := by
  intro n
  induction n with
  | zero =>
    intro m s _ h
    cases h
  | succ n ih =>
    intro m s hle h
    obtain ⟨m, rfl⟩ := Nat.exists_eq_succ_of_ne_zero (Nat.ne_of_gt (Nat.lt_of_lt_of_le n.succ_pos hle))
    cases hs : round s with
    | none =>
      rw [retry_unfinished hs] at h
      cases h
    | some x =>
      cases x with
      | stop r' =>
        rw [retry_stop hs] at h
        rw [retry_stop (hround s _ hs), h]
      | again s' =>
        rw [retry_again hs] at h
        rw [retry_again (hround s _ hs)]
        exact ih (Nat.le_of_succ_le_succ hle) h

/-- What is returned comes out of a round. -/
theorem retry_result {n : Nat} (h : retry round n s = some r) : ∃ s', round s' = some (.stop r) := by
  induction n generalizing s with
  | zero => cases h
  | succ n ih =>
    cases hs : round s with
    | none =>
      rw [retry_unfinished hs] at h
      cases h
    | some x =>
      cases x with
      | stop r' =>
        rw [retry_stop hs] at h
        cases h
        exact ⟨s, hs⟩
      | again s' =>
        rw [retry_again hs] at h
        exact ih h

theorem retry_ends (measure : σ → Nat)
    (h : ∀ s, ∃ x, round s = some x ∧ ∀ s', x = .again s' → measure s' < measure s) :
    ∀ (n : Nat) (s : σ), measure s < n → ∃ r, retry round n s = some r := by
  intro n
  induction n with
  | zero => exact fun s hlt => absurd hlt (Nat.not_lt_zero _)
  | succ n ih =>
    intro s hlt
    obtain ⟨x, hs, hless⟩ := h s
    cases x with
    | stop r => exact ⟨r, retry_stop hs n⟩
    | again s' =>
      rw [retry_again hs]
      exact ih s' (Nat.lt_of_lt_of_le (hless s' rfl) (Nat.le_of_lt_succ hlt))

theorem retry_never {I : σ → Prop}
    (h : ∀ s, I s → round s = none ∨ ∃ s', round s = some (.again s') ∧ I s') :
    ∀ (n : Nat) {s : σ}, I s → retry round n s = none := by
  intro n
  induction n with
  | zero => exact fun _ => rfl
  | succ n ih =>
    intro s hs
    rcases h s hs with hnone | ⟨s', hagain, hs'⟩
    · exact retry_unfinished hnone _
    · rw [retry_again hagain]
      exact ih hs'

end Retries
