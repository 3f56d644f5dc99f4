import Doenerstag.Go.Floats
import Mathlib.Algebra.Order.Floor.Ring
import Mathlib.Data.Rat.Floor
import Mathlib.Tactic.FieldSimp
import Mathlib.Tactic.Linarith

/-!
# Amounts of money in a form (`frontend/src/format.ts`)

An editor shows an amount as text and reads it when it is saved. Numbers are exact here.

* `matchAmount` — the regular expression of `parseMoney`.
* `round_written` — the written scale is at least as fine as the minor units, so that rounding to it and
  back gives the same amount.
* `parseMoney_moneyInputValue` — **an amount is read as it was shown.**
-/

namespace Doenerstag

/-- `MoneyFormat` -/
structure MoneyFormat where
  digits : ℕ
  perMajor : ℤ
  deriving DecidableEq, Repr

/-! ## The functions -/

/-- `Math.round`: halves go up. -/
def mathRound (x : ℚ) : ℤ := ⌊x + 1 / 2⌋

/-- `\s` -/
def isWhiteSpace (c : Char) : Bool :=
  let n := c.toNat
  (9 ≤ n && n ≤ 13) || n == 0x20 || n == 0xA0 || n == 0x1680 || (0x2000 ≤ n && n ≤ 0x200A) ||
    n == 0x2028 || n == 0x2029 || n == 0x202F || n == 0x205F || n == 0x3000 || n == 0xFEFF

/-- `[\d.,-]` -/
def isAmountChar (c : Char) : Bool := c.isDigit || c == '.' || c == ',' || c == '-'

/-- `String.padStart` and `String.padEnd` -/
def padStart (width : ℕ) (fill : Char) (s : Text) : Text :=
  List.replicate (width - s.length) fill ++ s

def padEnd (width : ℕ) (fill : Char) (s : Text) : Text :=
  s ++ List.replicate (width - s.length) fill

/-- `/^(-?)(\d*)(?:[.,](\d*))?$/u`: whether there is a sign, and the digits before and behind the mark -/
def matchAmount (s : Text) : Option (Bool × Text × Text) :=
  let (sign, rest) := match s with
    | '-' :: rest => (true, rest)
    | rest => (false, rest)
  match rest.dropWhile Char.isDigit with
  | [] => some (sign, rest.takeWhile Char.isDigit, [])
  | mark :: fraction =>
    if (mark = '.' ∨ mark = ',') ∧ fraction.all Char.isDigit then
      some (sign, rest.takeWhile Char.isDigit, fraction)
    else
      none

def parseMoney (text : Text) (money : MoneyFormat) : Option ℤ :=
  let trimmed := text.filter fun c => !isWhiteSpace c
  if trimmed = [] then none
  else (matchAmount (trimmed.filter isAmountChar)).bind fun (sign, whole, fraction) =>
    if whole = [] ∧ fraction = [] then none
    else
      let scaled := (padEnd money.digits '0' fraction).take money.digits
      let written := Nat.ofDigitChars 10 ((if whole = [] then ['0'] else whole) ++ scaled) 0
      let value := mathRound ((written : ℚ) * money.perMajor / 10 ^ money.digits)
      some (if sign then -value else value)

/-- What `moneyInputValue` writes of an amount in the written scale -/
def writtenAmount (digits : ℕ) (written : ℤ) : Text :=
  let places := padStart (digits + 1) '0' (itoa written.natAbs)
  (if written < 0 then ['-'] else []) ++
    (places.take (places.length - digits) ++ '.' :: places.drop (places.length - digits))

def moneyInputValue (minorUnits : ℤ) (money : MoneyFormat) : Text :=
  if money.digits = 0 then itoa minorUnits
  else writtenAmount money.digits (mathRound ((minorUnits : ℚ) * 10 ^ money.digits / money.perMajor))

/-! ## Rounding -/

theorem mathRound_eq_iff {x : ℚ} {n : ℤ} : mathRound x = n ↔ (n : ℚ) - 1 / 2 ≤ x ∧ x < n + 1 / 2 := by
  unfold mathRound
  rw [Int.floor_eq_iff]
  constructor <;> rintro ⟨hlow, hhigh⟩ <;> constructor <;> linarith

theorem mathRound_intCast (n : ℤ) : mathRound (n : ℚ) = n :=
  mathRound_eq_iff.mpr ⟨by linarith, by linarith⟩

/-- Rounding a quotient of whole numbers, in whole numbers -/
theorem mathRound_div_eq_iff {a b w : ℤ} (hb : 0 < b) :
    mathRound ((a : ℚ) / b) = w ↔ -b < 2 * (w * b - a) ∧ 2 * (w * b - a) ≤ b := by
  have hpos : (0 : ℚ) < b := by exact_mod_cast hb
  rw [mathRound_eq_iff, le_div_iff₀ hpos, div_lt_iff₀ hpos]
  constructor
  · rintro ⟨hlow, hhigh⟩
    have hlow : ((2 * (w * b - a) : ℤ) : ℚ) ≤ b := by push_cast; linarith
    have hhigh : ((-b : ℤ) : ℚ) < ((2 * (w * b - a) : ℤ) : ℚ) := by push_cast; linarith
    exact ⟨by exact_mod_cast hhigh, by exact_mod_cast hlow⟩
  · rintro ⟨hlow, hhigh⟩
    have hlow : ((-b : ℤ) : ℚ) < ((2 * (w * b - a) : ℤ) : ℚ) := by exact_mod_cast hlow
    have hhigh : ((2 * (w * b - a) : ℤ) : ℚ) ≤ b := by exact_mod_cast hhigh
    push_cast at hlow hhigh
    exact ⟨by linarith, by linarith⟩

/-- The nearest amount of the written scale has the sign of the amount, and the amount is the nearest one
to it. -/
theorem round_written {n p scale w : ℤ} (hlow : 1 ≤ p) (hhigh : p ≤ scale)
    (hw : mathRound ((n * scale : ℤ) / (p : ℚ)) = w) :
    (w < 0 ↔ n < 0) ∧ mathRound ((w.natAbs * p : ℤ) / (scale : ℚ)) = n.natAbs := by
  obtain ⟨hbelow, habove⟩ := (mathRound_div_eq_iff (by omega)).mp hw
  have hsign : w < 0 ↔ n < 0 := by
    constructor <;> intro hneg <;> by_contra hpos
    · have hn : 0 ≤ n * scale := Int.mul_nonneg (by omega) (by omega)
      have hwp : w * p ≤ -1 * p := Int.mul_le_mul_of_nonneg_right (by omega) (by omega)
      omega
    · have hn : n * scale ≤ -1 * scale := Int.mul_le_mul_of_nonneg_right (by omega) (by omega)
      have hwp : 0 ≤ w * p := Int.mul_nonneg (by omega) (by omega)
      omega
  refine ⟨hsign, (mathRound_div_eq_iff (by omega)).mpr ?_⟩
  by_cases hneg : n < 0
  · have hw' : (w.natAbs : ℤ) = -w := by have := hsign.mpr hneg; omega
    have hn' : (n.natAbs : ℤ) = -n := by omega
    rw [hw', hn', Int.neg_mul, Int.neg_mul]
    omega
  · have hw' : (w.natAbs : ℤ) = w := by have := mt hsign.mp hneg; omega
    have hn' : (n.natAbs : ℤ) = n := by omega
    rw [hw', hn']
    refine ⟨?_, by omega⟩
    -- a half would be left over if the scales were the same, and there is none
    rcases Int.lt_or_eq_of_le hhigh with hlt | rfl
    · omega
    · have hwhole : w * p - n * p = (w - n) * p := by ring
      by_contra hhalf
      have hone : 2 * (w - n) * p = 1 * p := by rw [Int.mul_assoc, ← hwhole]; omega
      have hodd := Int.eq_of_mul_eq_mul_right (by omega) hone
      omega

/-! ## The text -/

theorem ofDigitChars_padStart (width : ℕ) (s : Text) :
    Nat.ofDigitChars 10 (padStart width '0' s) 0 = Nat.ofDigitChars 10 s 0 := by
  unfold padStart
  induction width - s.length with
  | zero => rfl
  | succ k ih =>
    rw [List.replicate_succ, List.cons_append, Nat.ofDigitChars_cons]
    exact ih

theorem padStart_length (width : ℕ) (fill : Char) (s : Text) : width ≤ (padStart width fill s).length := by
  unfold padStart
  rw [List.length_append, List.length_replicate]
  omega

theorem isDigit_padStart (width : ℕ) {s : Text} (hs : ∀ c ∈ s, c.isDigit = true) :
    ∀ c ∈ padStart width '0' s, c.isDigit = true := by
  intro c hc
  rcases List.mem_append.mp hc with hc | hc
  · rw [List.eq_of_mem_replicate hc]
    rfl
  · exact hs c hc

/-- What is written of an amount has nothing in it that `parseMoney` leaves out. -/
theorem amountChar_plain {c : Char} (hc : c.isDigit = true ∨ c = '.' ∨ c = '-') :
    isWhiteSpace c = false ∧ isAmountChar c = true := by
  rcases hc with hdigit | rfl | rfl
  · exact forall_digit (P := fun c => isWhiteSpace c = false ∧ isAmountChar c = true) (by decide) hdigit
  · decide
  · decide

/-- A sign in front of digits -/
def signText (negative : Bool) : Text := if negative then ['-'] else []

/-- `s` is a numeral: a minus sign at most, digits, and digits behind one decimal mark at most. -/
structure Numeral (negative : Bool) (whole fraction s : Text) : Prop where
  isDigit_whole : ∀ c ∈ whole, c.isDigit = true
  isDigit_fraction : ∀ c ∈ fraction, c.isDigit = true
  parts : ∃ tail, s = signText negative ++ (whole ++ tail) ∧
    (tail = [] ∧ fraction = [] ∨ tail = '.' :: fraction ∨ tail = ',' :: fraction)

/-- Digits, and something behind them that does not begin with one -/
theorem span_digits {whole tail : Text} (hwhole : ∀ c ∈ whole, c.isDigit = true)
    (htail : ∀ c, tail.head? = some c → c.isDigit = false) :
    (whole ++ tail).takeWhile Char.isDigit = whole ∧ (whole ++ tail).dropWhile Char.isDigit = tail := by
  rw [List.takeWhile_append_of_pos hwhole, List.dropWhile_append_of_pos hwhole]
  cases tail with
  | nil => simp
  | cons c rest => simp [htail c rfl]

/-- The sign, the digits, and digits behind a mark are told apart. -/
theorem Numeral.matchAmount_eq {negative : Bool} {whole fraction s : Text} (h : Numeral negative whole fraction s) :
    matchAmount s = some (negative, whole, fraction) := by
  obtain ⟨tail, rfl, htail⟩ := h.parts
  have hall : fraction.all Char.isDigit = true := List.all_eq_true.mpr h.isDigit_fraction
  have hhead : ∀ c, tail.head? = some c → c.isDigit = false := by
    intro c hc
    rcases htail with ⟨rfl, -⟩ | rfl | rfl
    · cases hc
    · obtain rfl := Option.some.inj hc; decide
    · obtain rfl := Option.some.inj hc; decide
  obtain ⟨htake, hdrop⟩ := span_digits h.isDigit_whole hhead
  cases negative with
  | true =>
    show matchAmount ('-' :: (whole ++ tail)) = _
    simp only [matchAmount, htake, hdrop]
    rcases htail with ⟨rfl, rfl⟩ | rfl | rfl <;> simp [hall]
  | false =>
    show matchAmount (whole ++ tail) = _
    unfold matchAmount
    split
    rename_i sign rest hsign
    split at hsign
    · -- neither a digit nor a mark is the minus sign
      rename_i other hdash
      cases whole with
      | cons c digits => exact absurd (List.cons.inj hdash).1 (digit_plain (h.isDigit_whole c List.mem_cons_self)).1
      | nil => rcases htail with ⟨rfl, -⟩ | rfl | rfl <;> simp at hdash
    · obtain ⟨rfl, rfl⟩ := Prod.mk.inj hsign
      rw [htake, hdrop]
      rcases htail with ⟨rfl, rfl⟩ | rfl | rfl <;> simp [hall]

/-- What `parseMoney` makes of a sign, digits, and digits behind a mark as many as there are places -/
theorem parseMoney_digits (money : MoneyFormat) (negative : Bool) {whole fraction tail : Text}
    (hwhole : ∀ c ∈ whole, c.isDigit = true) (hfraction : ∀ c ∈ fraction, c.isDigit = true)
    (hne : whole ≠ []) (hplaces : fraction.length = money.digits)
    (htail : tail = '.' :: fraction ∨ tail = [] ∧ fraction = []) :
    parseMoney (signText negative ++ (whole ++ tail)) money =
      let value := mathRound ((Nat.ofDigitChars 10 (whole ++ fraction) 0 * money.perMajor : ℤ) /
        ((10 ^ money.digits : ℤ) : ℚ))
      some (if negative then -value else value) := by
  have hplain : ∀ c ∈ signText negative ++ (whole ++ tail), isWhiteSpace c = false ∧ isAmountChar c = true := by
    intro c hc
    apply amountChar_plain
    rcases List.mem_append.mp hc with hc | hc
    · unfold signText at hc
      split_ifs at hc
      · exact .inr (.inr (List.mem_singleton.mp hc))
      · cases hc
    rcases List.mem_append.mp hc with hc | hc
    · exact .inl (hwhole c hc)
    rcases htail with rfl | ⟨rfl, -⟩
    · rcases List.mem_cons.mp hc with rfl | hc
      · exact .inr (.inl rfl)
      · exact .inl (hfraction c hc)
    · cases hc
  have hspace : (signText negative ++ (whole ++ tail)).filter (fun c => !isWhiteSpace c) =
      signText negative ++ (whole ++ tail) :=
    List.filter_eq_self.mpr fun c hc => by rw [(hplain c hc).1]; rfl
  have hkept : (signText negative ++ (whole ++ tail)).filter isAmountChar =
      signText negative ++ (whole ++ tail) :=
    List.filter_eq_self.mpr fun c hc => (hplain c hc).2
  have hsome : signText negative ++ (whole ++ tail) ≠ [] := fun hnil =>
    hne (List.append_eq_nil_iff.mp (List.append_eq_nil_iff.mp hnil).2).1
  have hscaled : (padEnd money.digits '0' fraction).take money.digits = fraction := by
    unfold padEnd
    rw [← hplaces, Nat.sub_self, List.replicate_zero, List.append_nil, List.take_length]
  have hnumeral : Numeral negative whole fraction (signText negative ++ (whole ++ tail)) :=
    ⟨hwhole, hfraction, tail, rfl, htail.elim (fun h => .inr (.inl h)) .inl⟩
  unfold parseMoney
  dsimp only
  rw [hspace, if_neg hsome, hkept, hnumeral.matchAmount_eq, Option.bind_some]
  dsimp only
  rw [if_neg fun h => hne h.1, if_neg hne, hscaled]
  push_cast
  rfl

theorem signed_natAbs (n : ℤ) : (if decide (n < 0) then -(n.natAbs : ℤ) else n.natAbs) = n := by
  by_cases hneg : n < 0
  · rw [if_pos (decide_eq_true hneg)]
    omega
  · rw [if_neg (by simpa using hneg)]
    omega

theorem itoa_signed (n : ℤ) : itoa n = signText (decide (n < 0)) ++ Nat.toDigits 10 n.natAbs := by
  cases n with
  | ofNat m => exact itoa_natCast m
  | negSucc m =>
    rw [itoa_negSucc, decide_eq_true (Int.negSucc_lt_zero m)]
    rfl

/-- **An amount is read as it was shown.** The written scale has to be at least as fine as the minor units.
Without places they are the same. -/
theorem parseMoney_moneyInputValue (money : MoneyFormat) (hlow : 1 ≤ money.perMajor)
    (hhigh : money.perMajor ≤ 10 ^ money.digits) (n : ℤ) :
    parseMoney (moneyInputValue n money) money = some n := by
  have hdigits : ∀ k, ∀ c ∈ Nat.toDigits 10 k, c.isDigit = true := fun k c hc => mem_toDigits hc
  unfold moneyInputValue
  split_ifs with hzero
  · have hone : money.perMajor = 1 := by
      rw [hzero, pow_zero] at hhigh
      omega
    have hread := parseMoney_digits money (decide (n < 0))
      (hdigits n.natAbs) (List.forall_mem_nil _) Nat.toDigits_ne_nil hzero.symm (.inr ⟨rfl, rfl⟩)
    rw [List.append_nil, ← itoa_signed] at hread
    rw [hread, Nat.ofDigitChars_ten_toDigits, hone, hzero]
    have hvalue : mathRound (((n.natAbs * 1 : ℤ) : ℚ) / ((10 ^ 0 : ℤ) : ℚ)) = n.natAbs := by
      rw [pow_zero, Int.mul_one, Int.cast_one, div_one]
      exact mathRound_intCast _
    dsimp only
    rw [hvalue, signed_natAbs]
  · have hscale : (n : ℚ) * 10 ^ money.digits / money.perMajor =
        ((n * 10 ^ money.digits : ℤ) : ℚ) / (money.perMajor : ℚ) := by push_cast; rfl
    rw [hscale]
    obtain ⟨hsign, hvalue⟩ := round_written (n := n) hlow hhigh rfl
    generalize mathRound (((n * 10 ^ money.digits : ℤ) : ℚ) / (money.perMajor : ℚ)) = w at hsign hvalue
    have hplaces := isDigit_padStart (money.digits + 1) (hdigits w.natAbs)
    have hlength := padStart_length (money.digits + 1) '0' (Nat.toDigits 10 w.natAbs)
    have hnumber : Nat.ofDigitChars 10 (padStart (money.digits + 1) '0' (Nat.toDigits 10 w.natAbs)) 0 =
        w.natAbs := by
      rw [ofDigitChars_padStart, Nat.ofDigitChars_ten_toDigits]
    have htext : writtenAmount money.digits w = signText (decide (w < 0)) ++
        ((padStart (money.digits + 1) '0' (Nat.toDigits 10 w.natAbs)).take
          ((padStart (money.digits + 1) '0' (Nat.toDigits 10 w.natAbs)).length - money.digits) ++
        '.' :: (padStart (money.digits + 1) '0' (Nat.toDigits 10 w.natAbs)).drop
          ((padStart (money.digits + 1) '0' (Nat.toDigits 10 w.natAbs)).length - money.digits)) := by
      unfold writtenAmount signText
      rw [itoa_natCast]
      simp only [decide_eq_true_eq]
    generalize padStart (money.digits + 1) '0' (Nat.toDigits 10 w.natAbs) = places at *
    have hwhole : ∀ c ∈ places.take (places.length - money.digits), c.isDigit = true :=
      fun c hc => hplaces c (List.mem_of_mem_take hc)
    have hfraction : ∀ c ∈ places.drop (places.length - money.digits), c.isDigit = true :=
      fun c hc => hplaces c (List.mem_of_mem_drop hc)
    have hne : places.take (places.length - money.digits) ≠ [] := by
      intro hnil
      have hlen := congrArg List.length hnil
      rw [List.length_take, List.length_nil] at hlen
      omega
    have hcount : (places.drop (places.length - money.digits)).length = money.digits := by
      rw [List.length_drop]
      omega
    rw [htext, parseMoney_digits money _ hwhole hfraction hne hcount (.inl rfl), List.take_append_drop, hnumber]
    dsimp only
    rw [hvalue, decide_eq_decide.mpr hsign, signed_natAbs]

/-- Cents, and the ariary, which has five parts and is written with one place -/
theorem parseMoney_moneyInputValue_examples :
    parseMoney (moneyInputValue (-5) ⟨2, 100⟩) ⟨2, 100⟩ = some (-5) ∧
      parseMoney (moneyInputValue 12 ⟨1, 5⟩) ⟨1, 5⟩ = some 12 :=
  ⟨parseMoney_moneyInputValue ⟨2, 100⟩ (by decide) (by decide) (-5),
    parseMoney_moneyInputValue ⟨1, 5⟩ (by decide) (by decide) 12⟩

example : moneyInputValue (-5) ⟨2, 100⟩ = "-0.05".toList ∧ moneyInputValue 12 ⟨1, 5⟩ = "2.4".toList := by
  decide +kernel

end Doenerstag
