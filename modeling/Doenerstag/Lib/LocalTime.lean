import Mathlib.Algebra.Order.Group.Unbundled.Int
import Mathlib.Data.List.Basic

/-!
# Local times

The clocks of a time zone show a local time at every instant. They may be put forward and back, so that a local time
is shown once, more than once or never.

* `Zone.toInstant` — the instant that a local time is read as: the first that shows it, or, when it is skipped, the
  one at which the clocks would have shown it if they had not been put forward.
* `Zone.IsFirst`, `Zone.IsSkipped` — these two.
* `Zone.toInstant_eq_iff` — **a local time is read as one of them, and as nothing else.**
-/

namespace LocalTime

/-- A time zone, by how many seconds its clocks are ahead at an instant, which are never more than `span` -/
structure Zone where
  offset : Int → Int
  span : Nat
  offset_le : ∀ t, offset t ≤ span
  le_offset : ∀ t, -(span : Int) ≤ offset t

namespace Zone

variable (z : Zone)

/-- The zone of clocks that are never put forward or back -/
def utc : Zone where
  offset _ := 0
  span := 0
  offset_le _ := le_rfl
  le_offset _ := by simp

/-- What the clocks show at an instant -/
def shown (t : Int) : Int := t + z.offset t

@[simp] theorem shown_utc (t : Int) : utc.shown t = t := Int.add_zero t

/-- The first instant that shows a local time -/
def first (l : Int) : Option Int :=
  ((List.range (2 * z.span + 1)).find? fun k : Nat => z.shown (l - z.span + k) = l).map fun k : Nat => l - z.span + k

/-- The last instant that shows a local time -/
def last (l : Int) : Option Int :=
  ((List.range (2 * z.span + 1)).find? fun k : Nat => z.shown (l + z.span - k) = l).map fun k : Nat => l + z.span - k

/-- The last instant that shows the greatest local time below this one that is shown at all -/
def lastBefore (l : Int) : Option Int :=
  ((List.range (2 * z.span + 1)).find? fun k : Nat => (z.last (l - 1 - k)).isSome).bind fun k : Nat =>
    z.last (l - 1 - k)

/-- The instant that a local time is read as -/
def toInstant (l : Int) : Int :=
  match z.first l with
  | some t => t
  | none => l - ((z.lastBefore l).map z.offset).getD 0

/-! ## The instants that show a local time -/

variable {z} {l s t : Int}

theorem mem_span (h : z.shown t = l) : l - z.span ≤ t ∧ t ≤ l + z.span := by
  have hle := z.offset_le t
  have hge := z.le_offset t
  unfold shown at h
  omega

theorem first_eq_some_iff : z.first l = some t ↔ z.shown t = l ∧ ∀ u < t, z.shown u ≠ l := by
  simp only [first, Option.map_eq_some_iff, List.find?_range_eq_some, decide_eq_true_eq, List.mem_range,
    Bool.not_eq_true', decide_eq_false_iff_not]
  constructor
  · rintro ⟨k, ⟨hk, -, hearlier⟩, rfl⟩
    refine ⟨hk, fun u hu hshown => ?_⟩
    obtain ⟨j, hj⟩ := Int.eq_ofNat_of_zero_le (Int.sub_nonneg_of_le (mem_span hshown).1)
    obtain rfl : u = l - z.span + j := by omega
    exact hearlier j (by omega) hshown
  · rintro ⟨hshown, hearlier⟩
    have hspan := mem_span hshown
    obtain ⟨k, hk⟩ := Int.eq_ofNat_of_zero_le (Int.sub_nonneg_of_le hspan.1)
    obtain rfl : t = l - z.span + k := by omega
    exact ⟨k, ⟨hshown, by omega, fun j hj => hearlier _ (by omega)⟩, rfl⟩

theorem last_eq_some_iff : z.last l = some t ↔ z.shown t = l ∧ ∀ u, t < u → z.shown u ≠ l := by
  simp only [last, Option.map_eq_some_iff, List.find?_range_eq_some, decide_eq_true_eq, List.mem_range,
    Bool.not_eq_true', decide_eq_false_iff_not]
  constructor
  · rintro ⟨k, ⟨hk, -, hlater⟩, rfl⟩
    refine ⟨hk, fun u hu hshown => ?_⟩
    obtain ⟨j, hj⟩ := Int.eq_ofNat_of_zero_le (Int.sub_nonneg_of_le (mem_span hshown).2)
    obtain rfl : u = l + z.span - j := by omega
    exact hlater j (by omega) hshown
  · rintro ⟨hshown, hlater⟩
    have hspan := mem_span hshown
    obtain ⟨k, hk⟩ := Int.eq_ofNat_of_zero_le (Int.sub_nonneg_of_le hspan.2)
    obtain rfl : t = l + z.span - k := by omega
    exact ⟨k, ⟨hshown, by omega, fun j hj => hlater _ (by omega)⟩, rfl⟩

theorem first_eq_none_iff : z.first l = none ↔ ∀ t, z.shown t ≠ l := by
  constructor
  · intro hnone t hshown
    have hspan := mem_span hshown
    obtain ⟨k, hk⟩ := Int.eq_ofNat_of_zero_le (Int.sub_nonneg_of_le hspan.1)
    obtain rfl : t = l - z.span + k := by omega
    rw [first, Option.map_eq_none_iff, List.find?_range_eq_none] at hnone
    have hk := hnone k (by omega)
    simp [hshown] at hk
  · intro hnever
    rw [first, Option.map_eq_none_iff, List.find?_range_eq_none]
    exact fun k _ => by simpa using hnever _

/-- Of the instants that show what one of them shows, there is a last one. -/
theorem last_isSome (h : z.shown t = l) : (z.last l).isSome := by
  have hspan := mem_span h
  obtain ⟨k, hk⟩ := Int.eq_ofNat_of_zero_le (Int.sub_nonneg_of_le hspan.2)
  obtain rfl : t = l + z.span - k := by omega
  rw [last, Option.isSome_map, List.find?_isSome]
  exact ⟨k, List.mem_range.mpr (by omega), by simpa using h⟩

theorem lastBefore_eq_some_iff : z.lastBefore l = some t ↔
    z.shown t < l ∧ (∀ u, z.shown u < l → z.shown u ≤ z.shown t) ∧ ∀ u, t < u → z.shown u ≠ z.shown t := by
  simp only [lastBefore, Option.bind_eq_some_iff, List.find?_range_eq_some, List.mem_range, Bool.not_eq_true']
  constructor
  · rintro ⟨k, ⟨-, -, hgreater⟩, hlast⟩
    obtain ⟨hshown, hlater⟩ := last_eq_some_iff.mp hlast
    refine ⟨by omega, fun u hu => ?_, by rwa [hshown]⟩
    by_contra hless
    obtain ⟨j, hj⟩ := Int.eq_ofNat_of_zero_le (Int.sub_nonneg_of_le (Int.le_sub_one_of_lt hu))
    have hnone := hgreater j (by omega)
    rw [last_isSome (t := u) (by omega)] at hnone
    cases hnone
  · rintro ⟨hless, hgreatest, hlater⟩
    -- there is an instant that shows a local time not far below
    have hnear := hgreatest (l - 1 - z.span) (by have := z.offset_le (l - 1 - z.span); unfold shown; omega)
    have hge := z.le_offset (l - 1 - z.span)
    unfold shown at hnear
    obtain ⟨k, hk⟩ := Int.eq_ofNat_of_zero_le (Int.sub_nonneg_of_le (Int.le_sub_one_of_lt hless))
    have hlast : z.last (l - 1 - k) = some t := last_eq_some_iff.mpr ⟨by omega, fun u hu => by
      rw [show l - 1 - (k : Int) = z.shown t by omega]
      exact hlater u hu⟩
    refine ⟨k, ⟨by rw [hlast]; rfl, by unfold shown at hk; omega, fun j hj => ?_⟩, hlast⟩
    rw [Bool.eq_false_iff]
    intro hsome
    obtain ⟨u, hu⟩ := Option.isSome_iff_exists.mp hsome
    have hbetween := (last_eq_some_iff.mp hu).1
    have hle := hgreatest u (by omega)
    omega

theorem lastBefore_isSome (l : Int) : (z.lastBefore l).isSome := by
  have hspan := z.offset_le (l - 1 - z.span)
  have hge := z.le_offset (l - 1 - z.span)
  obtain ⟨k, hk⟩ := Int.eq_ofNat_of_zero_le (show 0 ≤ l - 1 - z.shown (l - 1 - z.span) by unfold shown; omega)
  have hfound : ((List.range (2 * z.span + 1)).find? fun k : Nat => (z.last (l - 1 - k)).isSome).isSome := by
    rw [List.find?_isSome]
    exact ⟨k, List.mem_range.mpr (by unfold shown at hk; omega), last_isSome (t := l - 1 - z.span) (by omega)⟩
  obtain ⟨j, hj⟩ := Option.isSome_iff_exists.mp hfound
  rw [lastBefore, hj]
  exact (List.find?_range_eq_some.mp hj).1

/-! ## What a local time is read as -/

variable (z l s)

/-- The instant is the first that shows the local time. -/
def IsFirst : Prop := z.shown s = l ∧ ∀ t < s, z.shown t ≠ l

/-- No instant shows the local time, and this one is where the clocks that were put forward would have shown it. -/
def IsSkipped : Prop :=
  (∀ t, z.shown t ≠ l) ∧ ∃ t, z.shown t < l ∧ (∀ u, z.shown u < l → z.shown u ≤ z.shown t) ∧
    (∀ u, t < u → z.shown u ≠ z.shown t) ∧ s = l - z.offset t

variable {z l s}

/-- **A local time is read as the first instant that shows it**, or is skipped and read as if it was not. -/
theorem toInstant_eq_iff : z.toInstant l = s ↔ z.IsFirst l s ∨ z.IsSkipped l s := by
  unfold toInstant
  cases hfirst : z.first l with
  | some t =>
    obtain ⟨hshown, hearlier⟩ := first_eq_some_iff.mp hfirst
    constructor
    · rintro rfl
      exact .inl ⟨hshown, hearlier⟩
    · rintro (hfirst' | ⟨hnever, -⟩)
      · exact Option.some.inj (hfirst.symm.trans (first_eq_some_iff.mpr hfirst'))
      · exact absurd hshown (hnever t)
  | none =>
    have hnever := first_eq_none_iff.mp hfirst
    obtain ⟨t, ht⟩ := Option.isSome_iff_exists.mp (lastBefore_isSome (z := z) l)
    rw [ht]
    constructor
    · rintro rfl
      obtain ⟨hless, hgreatest, hlater⟩ := lastBefore_eq_some_iff.mp ht
      exact .inr ⟨hnever, t, hless, hgreatest, hlater, rfl⟩
    · rintro (⟨hshown, -⟩ | ⟨-, u, hless, hgreatest, hlater, rfl⟩)
      · exact absurd hshown (hnever s)
      · obtain rfl : t = u := Option.some.inj (ht.symm.trans (lastBefore_eq_some_iff.mpr ⟨hless, hgreatest, hlater⟩))
        rfl

end Zone

end LocalTime
