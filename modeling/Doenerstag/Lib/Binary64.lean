import Mathlib.Algebra.Order.Floor.Ring
import Mathlib.Data.Int.Log
import Mathlib.Data.Rat.Floor
import Mathlib.Tactic.FieldSimp
import Mathlib.Tactic.Linarith
import Mathlib.Tactic.NormNum
import Mathlib.Tactic.Positivity
import Mathlib.Tactic.Ring

/-!
# Binary floating point of 64 bits

A finite value is a whole multiple of a power of two, with 53 bits for the multiple. The two zeros are
one value: nothing here divides by them. What an operation gives is the value nearest to the exact
result, and where two are equally near, the one with the even multiple.

* `nearest_of_representable` — **a value is its own nearest.**
* `representable_nearest` — what is nearest is a value.
* `Value.ofRat_natCast` — the whole numbers below 2^53 are values.
-/

namespace Binary64

/-- The nearest whole number, and the even one of two. -/
def roundEven (x : ℚ) : ℤ :=
  if x - ⌊x⌋ < 1 / 2 then ⌊x⌋
  else if 1 / 2 < x - ⌊x⌋ then ⌊x⌋ + 1
  else ⌊x⌋ + ⌊x⌋ % 2

/-- The exponent of the last bit of the values near a number. -/
def lastBit (x : ℚ) : ℤ := max (Int.log 2 |x| - 52) (-1074)

/-- The nearest value, were there no largest one. -/
def nearest (x : ℚ) : ℚ := roundEven (x / 2 ^ lastBit x) * 2 ^ lastBit x

/-- Towards zero, to a whole number. -/
def truncate (x : ℚ) : ℤ := if x < 0 then ⌈x⌉ else ⌊x⌋

def Representable (x : ℚ) : Prop :=
  ∃ m e : ℤ, |m| < 2 ^ 53 ∧ -1074 ≤ e ∧ x = m * 2 ^ e

/-! ## Rounding -/

theorem roundEven_intCast (n : ℤ) : roundEven (n : ℚ) = n := by
  unfold roundEven
  rw [Int.floor_intCast, sub_self, if_pos (by norm_num)]

theorem roundEven_bounds (x : ℚ) : ⌊x⌋ ≤ roundEven x ∧ roundEven x ≤ ⌊x⌋ + 1 := by
  unfold roundEven
  split_ifs <;> omega

/-- A number within a bound is not rounded beyond it. -/
theorem abs_roundEven_le {x : ℚ} {n : ℤ} (h : |x| < n) : |roundEven x| ≤ n := by
  obtain ⟨hlow, hhigh⟩ := roundEven_bounds x
  obtain ⟨hneg, hpos⟩ := abs_lt.mp h
  have hfloor : ⌊x⌋ < n := Int.floor_lt.mpr hpos
  have hceil : -n ≤ ⌊x⌋ := by
    rw [Int.le_floor]
    push_cast
    exact le_of_lt hneg
  exact abs_le.mpr ⟨by omega, by omega⟩

theorem two_zpow_pos (e : ℤ) : (0 : ℚ) < 2 ^ e := zpow_pos (by norm_num) e

/-- What a value has beyond the last bit is nothing. -/
theorem lastBit_le {m e : ℤ} (hm : |m| < 2 ^ 53) (he : -1074 ≤ e) (hne : m ≠ 0) :
    lastBit (m * 2 ^ e : ℚ) ≤ e := by
  have hpos : (0 : ℚ) < |(m : ℚ) * 2 ^ e| :=
    abs_pos.mpr (mul_ne_zero (Int.cast_ne_zero.mpr hne) (two_zpow_pos e).ne')
  have hlt : |(m : ℚ) * 2 ^ e| < ((2 : ℕ) : ℚ) ^ (53 + e) := by
    rw [abs_mul, abs_of_pos (two_zpow_pos e), Nat.cast_ofNat, zpow_add₀ (by norm_num)]
    refine mul_lt_mul_of_pos_right ?_ (two_zpow_pos e)
    exact_mod_cast hm
  have hlog := (Int.lt_zpow_iff_log_lt (by norm_num) hpos).mp hlt
  unfold lastBit
  omega

/-- **A value is its own nearest.** -/
theorem nearest_of_representable {x : ℚ} (h : Representable x) : nearest x = x := by
  obtain ⟨m, e, hm, he, rfl⟩ := h
  by_cases hne : m = 0
  · rw [hne]
    norm_num [nearest, roundEven]
  obtain ⟨k, hk⟩ := Int.le.dest (lastBit_le hm he hne)
  unfold nearest
  generalize lastBit (m * 2 ^ e : ℚ) = q at hk
  have hwhole : (m : ℚ) * 2 ^ e / 2 ^ q = ((m * 2 ^ k : ℤ) : ℚ) := by
    rw [← hk, zpow_add₀ (by norm_num), zpow_natCast]
    have := (two_zpow_pos q).ne'
    field_simp
    push_cast
    ring
  rw [hwhole, roundEven_intCast, ← hwhole, div_mul_cancel₀ _ (two_zpow_pos q).ne']

/-- **What is nearest is a value.** -/
theorem representable_nearest (x : ℚ) : Representable (nearest x) := by
  have hlast : -1074 ≤ lastBit x := le_max_right _ _
  have hbound : |x / 2 ^ lastBit x| < ((2 ^ 53 : ℤ) : ℚ) := by
    rw [abs_div, abs_of_pos (two_zpow_pos _), div_lt_iff₀ (two_zpow_pos _)]
    have hlog := Int.lt_zpow_succ_log_self (b := 2) (by norm_num) |x|
    have hmax : Int.log 2 |x| - 52 ≤ lastBit x := le_max_left _ _
    have hscale : ((2 ^ 53 : ℤ) : ℚ) * 2 ^ lastBit x = 2 ^ (53 + lastBit x) := by
      rw [zpow_add₀ (by norm_num)]
      norm_num
    rw [hscale]
    exact lt_of_lt_of_le hlog (zpow_le_zpow_right₀ (by norm_num) (by omega))
  have habs := abs_roundEven_le hbound
  unfold nearest
  by_cases hfull : |roundEven (x / 2 ^ lastBit x)| < 2 ^ 53
  · exact ⟨_, _, hfull, hlast, rfl⟩
  -- one bit too many, the last of which is not set
  have hedge : |roundEven (x / 2 ^ lastBit x)| = 2 ^ 53 := by omega
  have hdouble : ∀ s : ℤ, (s * 2 ^ 53 : ℚ) * 2 ^ lastBit x = (s * 2 ^ 52) * 2 ^ (lastBit x + 1) := by
    intro s
    rw [zpow_add₀ (by norm_num)]
    ring
  rcases abs_eq (by norm_num) |>.mp hedge with heq | heq
  · refine ⟨2 ^ 52, lastBit x + 1, by norm_num, by omega, ?_⟩
    rw [heq]
    have h := hdouble 1
    push_cast at h ⊢
    linarith
  · refine ⟨-2 ^ 52, lastBit x + 1, by norm_num, by omega, ?_⟩
    rw [heq]
    have h := hdouble (-1)
    push_cast at h ⊢
    linarith

theorem nearest_nonneg {x : ℚ} (hx : 0 ≤ x) : 0 ≤ nearest x := by
  have hdiv : 0 ≤ x / 2 ^ lastBit x := div_nonneg hx (two_zpow_pos _).le
  have hround := le_trans (Int.floor_nonneg.mpr hdiv) (roundEven_bounds _).1
  exact mul_nonneg (by exact_mod_cast hround) (two_zpow_pos _).le

theorem representable_intCast {n : ℤ} (h : |n| < 2 ^ 53) : Representable (n : ℚ) :=
  ⟨n, 0, h, by norm_num, by rw [zpow_zero, mul_one]⟩

/-- The whole part of a value is a value. -/
theorem representable_truncate {x : ℚ} (h : Representable x) : Representable (truncate x : ℚ) := by
  obtain ⟨m, e, hm, he, rfl⟩ := h
  rcases Int.le_total 0 e with hwhole | hsmall
  · obtain ⟨k, rfl⟩ := Int.eq_ofNat_of_zero_le hwhole
    have hint : (m : ℚ) * 2 ^ (k : ℤ) = ((m * 2 ^ k : ℤ) : ℚ) := by
      rw [zpow_natCast]
      push_cast
      ring
    rw [hint, truncate, Int.ceil_intCast, Int.floor_intCast, ite_self, ← hint]
    exact ⟨m, k, hm, he, rfl⟩
  · have hpow : (2 : ℚ) ^ e ≤ 1 := zpow_le_one_of_nonpos₀ (by norm_num) hsmall
    have hbound : |(m : ℚ) * 2 ^ e| < ((2 ^ 53 : ℤ) : ℚ) := by
      rw [abs_mul, abs_of_pos (two_zpow_pos e)]
      have habs : |(m : ℚ)| < ((2 ^ 53 : ℤ) : ℚ) := by exact_mod_cast hm
      exact lt_of_le_of_lt (mul_le_of_le_one_right (abs_nonneg _) hpow) habs
    obtain ⟨hlow, hhigh⟩ := abs_lt.mp hbound
    refine representable_intCast ?_
    generalize (m : ℚ) * 2 ^ e = x at hlow hhigh ⊢
    unfold truncate
    split_ifs with hneg
    · have hle : ⌈x⌉ ≤ 0 := Int.ceil_le.mpr (by push_cast; exact hneg.le)
      have hge : -(2 ^ 53 : ℤ) < ⌈x⌉ := Int.lt_ceil.mpr (by push_cast at hlow ⊢; exact hlow)
      exact abs_lt.mpr ⟨hge, by omega⟩
    · have hge : 0 ≤ ⌊x⌋ := Int.floor_nonneg.mpr (not_lt.mp hneg)
      have hlt : ⌊x⌋ < 2 ^ 53 := Int.floor_lt.mpr hhigh
      exact abs_lt.mpr ⟨by omega, hlt⟩

/-! ## Values -/

/-- The largest values are below this. -/
def limit : ℚ := 2 ^ 1024

inductive Value where
  | finite (x : ℚ) (exact : Representable x)
  | infinite (negative : Bool)
  | nan
  deriving DecidableEq

namespace Value

/-- The nearest value. -/
def ofRat (x : ℚ) : Value :=
  if |nearest x| < limit then .finite (nearest x) (representable_nearest x)
  else .infinite (decide (x < 0))

def mul : Value → Value → Value
  | .finite x _, .finite y _ => ofRat (x * y)
  | .infinite s, .infinite t => .infinite (s != t)
  | .infinite s, .finite y _ | .finite y _, .infinite s =>
    if y = 0 then .nan else .infinite (s != decide (y < 0))
  | _, _ => .nan

def isNegative : Value → Bool
  | .finite x _ => decide (x < 0)
  | .infinite negative => negative
  | .nan => false

theorem isNegative_ofRat {x : ℚ} (hx : 0 ≤ x) : (ofRat x).isNegative = false := by
  unfold ofRat
  split_ifs
  · exact decide_eq_false (not_lt.mpr (nearest_nonneg hx))
  · exact decide_eq_false (not_lt.mpr hx)

/-- A product of numbers that are not negative is none. -/
theorem isNegative_mul {v w : Value} (hv : v.isNegative = false) (hw : w.isNegative = false) :
    (v.mul w).isNegative = false := by
  have hfinite : ∀ {x : ℚ} {exact : Representable x}, (finite x exact).isNegative = false → 0 ≤ x :=
    fun h => not_lt.mp (of_decide_eq_false h)
  have hinfinite : ∀ {x : ℚ} {s : Bool}, 0 ≤ x → s = false →
      (if x = 0 then nan else infinite (s != decide (x < 0))).isNegative = false := by
    rintro x s hx rfl
    split_ifs
    · rfl
    · show (false != decide (x < 0)) = false
      rw [decide_eq_false (not_lt.mpr hx)]
      rfl
  cases v with
  | finite x _ =>
    cases w with
    | finite y _ => exact isNegative_ofRat (mul_nonneg (hfinite hv) (hfinite hw))
    | infinite s => exact hinfinite (hfinite hv) hw
    | nan => rfl
  | infinite s =>
    cases w with
    | finite y _ => exact hinfinite (hfinite hw) hv
    | infinite t =>
      have hs : s = false := hv
      have ht : t = false := hw
      rw [hs, ht]
      rfl
    | nan => rfl
  | nan => cases w <;> rfl

theorem ofRat_representable {x : ℚ} (h : Representable x) (hlimit : |x| < limit) :
    ofRat x = .finite x h := by
  have hsame := nearest_of_representable h
  unfold ofRat
  simp only [hsame, hlimit, if_true]

/-- The whole numbers below 2^53 are values. -/
theorem ofRat_natCast {n : ℕ} (h : n < 2 ^ 53) :
    ∃ exact, ofRat (n : ℚ) = .finite (n : ℚ) exact := by
  have habs : |(n : ℤ)| < 2 ^ 53 := by
    rw [Nat.abs_cast]
    exact_mod_cast h
  have hrep : Representable (n : ℚ) := by exact_mod_cast representable_intCast habs
  refine ⟨hrep, ofRat_representable hrep ?_⟩
  rw [Nat.abs_cast]
  unfold limit
  have hlt : (n : ℚ) < 2 ^ 53 := by exact_mod_cast h
  exact lt_trans hlt (pow_lt_pow_right₀ (by norm_num) (by norm_num))

end Value

end Binary64
