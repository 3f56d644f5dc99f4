import Mathlib.Algebra.BigOperators.Group.List.Basic
import Mathlib.Algebra.Ring.Int.Defs

/-!
# Machine integers and the numbers they stand for

The operations of `Int64` are those of the integers modulo 2⁶⁴. What a calculation comes to is therefore
the exact number whenever that number fits, whatever its intermediate results did.

* `Wrapped.Holds` — the machine integer is the number, up to a multiple of 2⁶⁴.
* `Wrapped.Holds.exact_iff` — **it is the number itself exactly when the number fits.**
-/

namespace Wrapped

/-- Addition wraps around, and is associative and commutative all the same. -/
instance addCommMonoidInt64 : AddCommMonoid Int64 where
  add_assoc := Int64.add_assoc
  zero_add := Int64.zero_add
  add_zero := Int64.add_zero
  add_comm := Int64.add_comm
  nsmul := nsmulRec

/-- The machine integer is the number, up to a multiple of 2⁶⁴. -/
def Holds (x : Int64) (z : ℤ) : Prop := x = Int64.ofInt z

/-- A signed machine integer has room for the number. -/
def Fits (z : ℤ) : Prop := -2 ^ 63 ≤ z ∧ z < 2 ^ 63

instance (z : ℤ) : Decidable (Fits z) := inferInstanceAs (Decidable (_ ∧ _))

theorem holds_toInt (x : Int64) : Holds x x.toInt := (Int64.ofInt_toInt x).symm

theorem holds_zero : Holds 0 0 := rfl

theorem fits_toInt (x : Int64) : Fits x.toInt := ⟨Int64.le_toInt x, Int64.toInt_lt x⟩

namespace Holds

variable {x y : Int64} {a b : ℤ}

theorem add (hx : Holds x a) (hy : Holds y b) : Holds (x + y) (a + b) := by
  unfold Holds at *
  rw [hx, hy, Int64.ofInt_add]

theorem mul (hx : Holds x a) (hy : Holds y b) : Holds (x * y) (a * b) := by
  unfold Holds at *
  rw [hx, hy, Int64.ofInt_mul]

/-- A sum taken in the machine -/
theorem sum {α : Type*} {f : α → Int64} {g : α → ℤ} (h : ∀ a, Holds (f a) (g a)) (xs : List α) :
    Holds (xs.map f).sum (xs.map g).sum := by
  induction xs with
  | nil => exact holds_zero
  | cons a rest ih =>
    rw [List.map_cons, List.map_cons, List.sum_cons, List.sum_cons]
    exact (h a).add ih

/-- A sum taken in a loop -/
theorem foldl {α : Type*} {f : α → Int64} {g : α → ℤ} (h : ∀ a, Holds (f a) (g a)) (xs : List α)
    (hx : Holds x a) : Holds (xs.foldl (fun s a => s + f a) x) (a + (xs.map g).sum) := by
  induction xs generalizing x a with
  | nil => simpa using hx
  | cons c rest ih =>
    rw [List.foldl_cons, List.map_cons, List.sum_cons, ← add_assoc]
    exact ih (hx.add (h c))

/-- **A machine integer is the number it holds exactly when there is room for it.** -/
theorem exact_iff (h : Holds x a) : x.toInt = a ↔ Fits a := by
  constructor
  · intro hexact
    rw [← hexact]
    exact fits_toInt x
  · rintro ⟨hlow, hhigh⟩
    rw [h]
    exact Int64.toInt_ofInt_of_le hlow hhigh

end Holds

end Wrapped
