import Mathlib.Algebra.Order.Group.Defs
import Mathlib.Data.List.Basic
import Mathlib.Order.Lattice

/-!
# Counting in fixed windows

Marks are counted in windows of one length. A window opens with the first mark after the last window
has elapsed. Marks are given by their times, the last one first.

* `window` — the last window, with the marks in it.
* `window_decomp` — the marks are those of the last window, and those before it opened.
* `count_interval` — **an interval as long as a window has the marks of two windows at most**: if no
  window ever has more than `n`, the interval has no more than `2 * n`.
-/

namespace FixedWindow

structure Window (τ : Type*) where
  opened : τ
  marks : Nat
  deriving DecidableEq, Repr

section Windows

variable {τ : Type*} [Add τ] [LinearOrder τ] {w t : τ} {ts : List τ} {v : Window τ}

/-- The mark is in the window. -/
def Window.Has (w : τ) (v : Window τ) (t : τ) : Prop := t < v.opened + w

instance (w : τ) (v : Window τ) (t : τ) : Decidable (v.Has w t) :=
  inferInstanceAs (Decidable (t < v.opened + w))

/-- One more mark, given the last window. -/
def mark (w t : τ) : Option (Window τ) → Window τ
  | none => { opened := t, marks := 1 }
  | some v => if v.Has w t then { v with marks := v.marks + 1 } else { opened := t, marks := 1 }

/-- The last window, if there has been a mark. -/
def window (w : τ) : List τ → Option (Window τ)
  | [] => none
  | t :: earlier => some (mark w t (window w earlier))

@[simp] theorem window_nil : window w [] = none := rfl

@[simp] theorem window_cons (earlier : List τ) :
    window w (t :: earlier) = some (mark w t (window w earlier)) := rfl

/-- A mark is in the last window, or it opens one. -/
theorem mark_cases (w t : τ) (last : Option (Window τ)) :
    (∃ v, last = some v ∧ v.Has w t ∧ mark w t last = { v with marks := v.marks + 1 }) ∨
      (∀ v, last = some v → ¬ v.Has w t) ∧ mark w t last = { opened := t, marks := 1 } := by
  cases last with
  | none => exact .inr ⟨nofun, rfl⟩
  | some v =>
    by_cases hhas : v.Has w t
    · exact .inl ⟨v, rfl, hhas, if_pos hhas⟩
    · refine .inr ⟨?_, if_neg hhas⟩
      rintro _ ⟨⟩
      exact hhas

theorem window_eq_none_iff : window w ts = none ↔ ts = [] := by
  cases ts <;> simp

/-- **The last window**: the marks in it, the mark that opened it among them, and before them the
marks whose last window had elapsed when it opened. -/
theorem window_decomp (h : window w ts = some v) :
    ∃ recent earlier, ts = recent ++ v.opened :: earlier ∧ v.marks = recent.length + 1 ∧
      (∀ t ∈ recent, v.Has w t) ∧ ∀ v', window w earlier = some v' → ¬ v'.Has w v.opened := by
  induction ts generalizing v with
  | nil => cases h
  | cons t rest ih =>
    cases h
    rcases mark_cases w t (window w rest) with ⟨v, hlast, hhas, hmark⟩ | ⟨helapsed, hmark⟩
    · obtain ⟨recent, earlier, rfl, hmarks, hrecent, hearlier⟩ := ih hlast
      rw [hmark]
      refine ⟨t :: recent, earlier, rfl, congrArg (· + 1) hmarks, ?_, hearlier⟩
      intro t' ht'
      rcases List.mem_cons.mp ht' with rfl | ht'
      · exact hhas
      · exact hrecent t' ht'
    · rw [hmark]
      exact ⟨[], rest, rfl, rfl, nofun, helapsed⟩

/-- A window has as many marks as fall into it. -/
theorem window_countP (hsorted : ts.Pairwise (· ≥ ·)) (h : window w ts = some v) (now : τ)
    (hnow : ∀ t ∈ ts, t ≤ now) :
    v.marks ≤ ts.countP fun t => v.opened ≤ t ∧ t ≤ now := by
  obtain ⟨recent, earlier, rfl, hmarks, -, -⟩ := window_decomp h
  have hafter : ∀ t ∈ recent, v.opened ≤ t := fun t ht =>
    (List.pairwise_append.mp hsorted).2.2 t ht v.opened List.mem_cons_self
  have hrecent : recent.countP (fun t => v.opened ≤ t ∧ t ≤ now) = recent.length := by
    refine List.countP_eq_length.mpr fun t ht => ?_
    exact decide_eq_true ⟨hafter t ht, hnow t (List.mem_append_left _ ht)⟩
  have hopened : v.opened ≤ now := hnow _ (List.mem_append_right _ List.mem_cons_self)
  rw [List.countP_append, hrecent, List.countP_cons_of_pos (by simpa using hopened), hmarks]
  omega

end Windows

section Intervals

variable {τ : Type*} [AddCommGroup τ] [LinearOrder τ] [IsOrderedAddMonoid τ] {w a : τ} {ts : List τ}

/-- **Two windows.** If the last window never has more than `n` marks, then every interval as long as
a window has no more than `2 * n`. -/
theorem count_interval (hsorted : ts.Pairwise (· ≥ ·)) {n : Nat}
    (hbound : ∀ later earlier v, ts = later ++ earlier → window w earlier = some v → v.marks ≤ n) :
    (ts.countP fun t => a ≤ t ∧ t < a + w) ≤ 2 * n := by
  induction ts with
  | nil => exact Nat.zero_le _
  | cons t rest ih =>
    by_cases hlate : t < a + w
    · -- the last mark is not after the interval
      obtain ⟨recent, earlier, hts, hmarks, -, helapsed⟩ := window_decomp (window_cons (w := w) rest)
      have hn := hbound [] _ _ rfl (window_cons (w := w) rest)
      generalize mark w t (window w rest) = v at hts hmarks helapsed hn
      have hopened : v.opened ≤ t := by
        cases recent with
        | nil => exact (List.cons.inj hts).1.ge
        | cons t' recent =>
          obtain ⟨rfl, hrest⟩ := List.cons.inj hts
          have hmem : v.opened ∈ rest := hrest ▸ List.mem_append_right _ List.mem_cons_self
          exact (List.pairwise_cons.mp hsorted).1 _ hmem
      rw [hts] at hsorted ⊢
      have hlast : (recent ++ [v.opened]).countP (fun t => a ≤ t ∧ t < a + w) ≤ n := by
        refine (List.countP_le_length).trans ?_
        rw [List.length_append, List.length_singleton, ← hmarks]
        exact hn
      have hbefore : earlier.countP (fun t => a ≤ t ∧ t < a + w) ≤ n := by
        cases hwindow : window w earlier with
        | none =>
          rw [window_eq_none_iff.mp hwindow]
          exact Nat.zero_le _
        | some v' =>
          obtain ⟨recent', earlier', rfl, hmarks', -, -⟩ := window_decomp hwindow
          have hn' := hbound (recent ++ [v.opened]) _ v' (by rw [hts, List.append_assoc]; rfl) hwindow
          -- the window before this one opened before the interval
          have hold : v'.opened < a := by
            have helapsed' : v'.opened + w ≤ v.opened := not_lt.mp (helapsed v' hwindow)
            exact lt_of_add_lt_add_right ((helapsed'.trans hopened).trans_lt hlate)
          have hnone : (v'.opened :: earlier').countP (fun t => a ≤ t ∧ t < a + w) = 0 := by
            refine List.countP_eq_zero.mpr fun t' ht' => ?_
            have hle : t' ≤ v'.opened := by
              rcases List.mem_cons.mp ht' with rfl | ht'
              · exact le_rfl
              · have hearlier := (List.pairwise_cons.mp (List.pairwise_append.mp hsorted).2.1).2
                exact (List.pairwise_cons.mp (List.pairwise_append.mp hearlier).2.1).1 t' ht'
            simpa using fun hge => absurd (hge.trans hle) (not_le.mpr hold)
          rw [List.countP_append, hnone, Nat.add_zero]
          refine (List.countP_le_length).trans ?_
          omega
      have hsplit : recent ++ v.opened :: earlier = (recent ++ [v.opened]) ++ earlier := by
        rw [List.append_assoc]
        rfl
      rw [hsplit, List.countP_append]
      omega
    · rw [List.countP_cons_of_neg (by simpa using fun _ => not_lt.mp hlate)]
      refine ih (List.pairwise_cons.mp hsorted).2 fun later earlier v heq hv => ?_
      exact hbound (t :: later) earlier v (congrArg (t :: ·) heq) hv

end Intervals

end FixedWindow
