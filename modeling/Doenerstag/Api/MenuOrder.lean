import Doenerstag.Api.Summary
import Doenerstag.Db.MenuItemOrder
import Mathlib.Data.Prod.Lex
import Mathlib.Data.String.Basic

/-!
# The order of the menu (`internal/api/summary.go`, `internal/db/menu.go`)

The summary sorts its lines as the menu is printed (F4.6). Each order here compares a rank (numbers,
other texts, none), a number, the text and the name, one after the other.

* `numericID_eq` — the number of a text of digits, wrapped to 64 bits.
* `lessByMenuOrder_iff_key` — `lessByMenuOrder` compares with the wrapped number.
* `lessByMenuOrder_menuLess_iff` — **so it is a strict weak order, and that of the menu wherever wrapping
  keeps the order of the two numbers.**
* `menuItemOrder_iff` — the menu is in the order of F4.6, where its numbers are `bigint`s.
-/

namespace Doenerstag

/-! ## The identifiers -/

/-- `externalIDShape` without its anchors: what the schema and the API admit. -/
def ExternalIDShape (id : String) : Prop :=
  1 ≤ id.length ∧ id.length ≤ 32 ∧
    ∀ c ∈ id.toList, c.isAlpha = true ∨ c.isDigit = true ∨ c = '.' ∨ c = '_' ∨ c = '-'

/-- The identifier of a line: one that is admitted, or none. -/
def AdmittedID (id : String) : Prop := id = "" ∨ ExternalIDShape id

/-- Numbers, then the others, then those without one -/
def rankOf (id : String) : Nat := if isNumber id then 0 else if id = "" then 2 else 1

/-- A number, as `int64` arithmetic has it. -/
def wrapped (n : Nat) : Int := Int.bmod n (2 ^ 64)

/-! ## F4.6 -/

/-- What is compared, with a number for each identifier. -/
def sortKey (rt : Runtime) (number : String → Int) (line : AggregatedLine) : ℕ ×ₗ ℤ ×ₗ String ×ₗ String :=
  toLex (rankOf line.externalID, toLex (number line.externalID,
    toLex (line.externalID, rt.toLower line.itemName)))

/-- **F4.6.** Items with a number before items without; first the numbers by their value, then by their
text, then the texts; then by name. -/
def MenuLess (rt : Runtime) (a b : AggregatedLine) : Prop :=
  sortKey rt (fun id => numberOf id) a < sortKey rt (fun id => numberOf id) b

theorem sortKey_lt {rt : Runtime} {number : String → Int} {a b : AggregatedLine} :
    sortKey rt number a < sortKey rt number b ↔
      rankOf a.externalID < rankOf b.externalID ∨ rankOf a.externalID = rankOf b.externalID ∧
        (number a.externalID < number b.externalID ∨ number a.externalID = number b.externalID ∧
          (a.externalID < b.externalID ∨ a.externalID = b.externalID ∧
            rt.toLower a.itemName < rt.toLower b.itemName)) := by
  unfold sortKey
  rw [Prod.Lex.toLex_lt_toLex, Prod.Lex.toLex_lt_toLex, Prod.Lex.toLex_lt_toLex]

/-! ## The number -/

theorem digit_eq {c : Char} (h : c.isDigit = true) : ¬ (c < '0' ∨ '9' < c) := by
  simp only [Char.isDigit, Bool.and_eq_true, decide_eq_true_eq] at h
  exact not_or.mpr ⟨not_lt.mpr h.1, not_lt.mpr h.2⟩

theorem not_digit {c : Char} (h : c.isDigit = false) : c < '0' ∨ '9' < c := by
  by_contra hnot
  obtain ⟨hlow, hhigh⟩ := not_or.mp hnot
  have hdigit : c.isDigit = true := by
    simp only [Char.isDigit, Bool.and_eq_true, decide_eq_true_eq]
    exact ⟨not_lt.mp hlow, not_lt.mp hhigh⟩
  rw [hdigit] at h
  cases h

/-- One turn of the loop of `numericID` -/
def takeDigit (n : Option Int64) (r : Char) : Option Int64 :=
  n.bind fun n =>
    if r < '0' ∨ '9' < r then none else some (n * 10 + Int64.ofNat (r.toNat - '0'.toNat))

theorem foldl_takeDigit_none (digits : List Char) : digits.foldl takeDigit none = none := by
  induction digits with
  | nil => rfl
  | cons c digits ih => exact ih

theorem foldl_takeDigit (digits : List Char) (n : Nat) :
    digits.foldl takeDigit (some (Int64.ofNat n)) =
      if digits.all Char.isDigit then some (Int64.ofNat (Nat.ofDigitChars 10 digits n)) else none := by
  induction digits generalizing n with
  | nil => rfl
  | cons c digits ih =>
    rw [List.foldl_cons, List.all_cons]
    cases hc : c.isDigit with
    | false =>
      have hstep : takeDigit (some (Int64.ofNat n)) c = none := if_pos (not_digit hc)
      rw [hstep, foldl_takeDigit_none, Bool.false_and, if_neg Bool.false_ne_true]
    | true =>
      have hstep : takeDigit (some (Int64.ofNat n)) c =
          some (Int64.ofNat (10 * n + (c.toNat - '0'.toNat))) := by
        rw [Int64.ofNat_add, Int64.ofNat_mul, Int64.mul_comm]
        exact if_neg (digit_eq hc)
      rw [hstep, ih, Bool.true_and, Nat.ofDigitChars_cons]

/-- **The number of a text of digits, wrapped to 64 bits** -/
theorem numericID_eq (id : String) :
    numericID id = if isNumber id then some (Int64.ofNat (numberOf id)) else none := by
  unfold numericID numberOf isNumber
  by_cases hempty : id = ""
  · rw [if_pos hempty, hempty]
    rfl
  · have hfold := foldl_takeDigit id.toList 0
    rw [if_neg hempty, decide_eq_true hempty, Bool.true_and]
    refine hfold.trans ?_
    split_ifs <;> rfl

theorem isNumber_empty : isNumber "" = false := rfl

theorem toInt_ofNat (n : Nat) : (Int64.ofNat n).toInt = wrapped n := Int64.toInt_ofNat' ..

/-! ## The two orders -/

section Orders

variable {rt : Runtime} {a b : AggregatedLine}

/-- Two things compared one after the other -/
theorem ite_ne_iff {α : Type*} [LT α] [DecidableEq α] (hirrefl : ∀ x : α, ¬ x < x) {x y : α}
    {P Q : Bool} (hQ : Q = true ↔ x < y) :
    (if x ≠ y then Q else P) = true ↔ x < y ∨ x = y ∧ P = true := by
  split_ifs with hne
  · rw [hQ]
    exact ⟨.inl, fun h => h.resolve_right fun h => hne h.1⟩
  · have heq : x = y := not_not.mp hne
    exact ⟨fun h => .inr ⟨heq, h⟩, fun h => (h.resolve_left (by rw [heq]; exact hirrefl _)).2⟩

/-- The text and then the name -/
theorem textThenName : (if a.externalID ≠ b.externalID then decide (a.externalID < b.externalID)
      else decide (rt.toLower a.itemName < rt.toLower b.itemName)) = true ↔
    a.externalID < b.externalID ∨ a.externalID = b.externalID ∧
      rt.toLower a.itemName < rt.toLower b.itemName := by
  rw [ite_ne_iff lt_irrefl decide_eq_true_iff, decide_eq_true_iff]

theorem numberOf_other {id : String} (h : isNumber id = false) : numberOf id = 0 := by
  unfold numberOf
  rw [h]
  rfl

/-- **`lessByMenuOrder` compares with the wrapped number.** -/
theorem lessByMenuOrder_iff_key : lessByMenuOrder rt a b = true ↔
    sortKey rt (fun id => wrapped (numberOf id)) a < sortKey rt (fun id => wrapped (numberOf id)) b := by
  rw [sortKey_lt]
  unfold lessByMenuOrder
  dsimp only
  rw [numericID_eq, numericID_eq]
  unfold rankOf
  by_cases ha : a.externalID = ""
  · by_cases hb : b.externalID = ""
    · rw [ha, hb, isNumber_empty]
      simp
    · rw [ha, isNumber_empty]
      cases isNumber b.externalID <;> simp [hb]
  · by_cases hb : b.externalID = ""
    · rw [hb, isNumber_empty]
      cases isNumber a.externalID <;> simp [ha]
    · rw [if_neg fun h => ha h.1, if_neg fun h => hb h.2]
      cases hna : isNumber a.externalID with
      | false =>
        cases hnb : isNumber b.externalID with
        | false =>
          -- two texts
          rw [numberOf_other hna, numberOf_other hnb, if_neg Bool.false_ne_true,
            if_neg fun h => Bool.false_ne_true h.1, if_neg fun h => h rfl, textThenName]
          simp only [Bool.false_eq_true, if_false, ha, hb, lt_irrefl, true_and, false_or]
        | true => simp [ha]
      | true =>
        cases hnb : isNumber b.externalID with
        | false => simp [hb]
        | true =>
          -- two numbers
          rw [if_pos rfl, if_pos rfl, Option.getD_some, Option.getD_some]
          have hne : (some (Int64.ofNat (numberOf a.externalID))).isSome =
              (some (Int64.ofNat (numberOf b.externalID))).isSome := rfl
          rw [if_neg (not_not.mpr hne)]
          simp only [Option.isSome_some, true_and, if_true, lt_irrefl, false_or]
          rw [ite_ne_iff (fun _ => Int64.lt_irrefl) decide_eq_true_iff, textThenName, ← Int64.toInt_inj, Int64.lt_iff_toInt_lt,
            toInt_ofNat, toInt_ofNat]

/-! ## Where they agree -/

instance strictWeakOrder_lessByMenuOrder (rt : Runtime) :
    IsStrictWeakOrder AggregatedLine fun a b => lessByMenuOrder rt a b = true := by
  have hkey : (fun a b => lessByMenuOrder rt a b = true) =
      Order.Preimage (sortKey rt fun id => wrapped (numberOf id)) (· < ·) := by
    funext a b
    exact propext lessByMenuOrder_iff_key
  have hlex : IsStrictWeakOrder (ℕ ×ₗ ℤ ×ₗ String ×ₗ String) (· < ·) :=
    isStrictWeakOrder_of_isOrderConnected
  rw [hkey]
  infer_instance

/-- Of two numbers the smaller one comes first as an `int64`, too, or by its text if both are the same
there. -/
def KeepsOrder (id id' : String) : Prop :=
  isNumber id = true → isNumber id' = true → numberOf id < numberOf id' →
    wrapped (numberOf id) < wrapped (numberOf id') ∨
      wrapped (numberOf id) = wrapped (numberOf id') ∧ id < id'

instance (id id' : String) : Decidable (KeepsOrder id id') := by
  unfold KeepsOrder
  infer_instance

/-- What fits in an `int64` is the same there. -/
theorem wrapped_of_lt {n : Nat} (h : n < 2 ^ 63) : wrapped n = n :=
  Int.bmod_eq_of_le (by omega) (by omega)

theorem keepsOrder_of_lt {id id' : String} (hid' : numberOf id' < 2 ^ 63) : KeepsOrder id id' := by
  intro _ _ hlt
  rw [wrapped_of_lt hid', wrapped_of_lt (lt_trans hlt hid')]
  exact .inl (Int.ofNat_lt.mpr hlt)

/-- Two pairs are compared alike, once with the numbers and once with what they became. -/
theorem compared_alike_iff {α : Type*} [LinearOrder α] {x y : ℕ} {wx wy : ℤ} {s t : α} {P Q : Prop}
    (hwrap : x = y → wx = wy) (htext : s = t → x = y) :
    (((wx < wy ∨ wx = wy ∧ (s < t ∨ s = t ∧ P)) ↔ ((x : ℤ) < y ∨ (x : ℤ) = y ∧ (s < t ∨ s = t ∧ P))) ∧
      ((wy < wx ∨ wy = wx ∧ (t < s ∨ t = s ∧ Q)) ↔ ((y : ℤ) < x ∨ (y : ℤ) = x ∧ (t < s ∨ t = s ∧ Q)))) ↔
      (x < y → wx < wy ∨ wx = wy ∧ s < t) ∧ (y < x → wy < wx ∨ wy = wx ∧ t < s) := by
  rcases lt_trichotomy x y with hlt | heq | hgt
  · have hne : s ≠ t := fun h => absurd (htext h) hlt.ne
    grind
  · grind
  · have hne : s ≠ t := fun h => absurd (htext h) hgt.ne'
    grind

/-- **The order of the summary is that of F4.6 wherever wrapping keeps the order of the numbers.** -/
theorem agree_iff_keepsOrder :
    ((lessByMenuOrder rt a b = true ↔ MenuLess rt a b) ∧ (lessByMenuOrder rt b a = true ↔ MenuLess rt b a)) ↔
      KeepsOrder a.externalID b.externalID ∧ KeepsOrder b.externalID a.externalID := by
  rw [lessByMenuOrder_iff_key, lessByMenuOrder_iff_key]
  unfold MenuLess
  simp only [sortKey_lt]
  unfold KeepsOrder
  -- only two numbers are compared by their numbers
  by_cases hboth : isNumber a.externalID = true ∧ isNumber b.externalID = true
  · obtain ⟨ha, hb⟩ := hboth
    have hrank : rankOf a.externalID = rankOf b.externalID := by
      unfold rankOf
      rw [if_pos ha, if_pos hb]
    simp only [hrank, ha, hb, lt_irrefl, false_or, true_and, forall_const]
    exact compared_alike_iff (congrArg wrapped) (congrArg numberOf)
  · have hzero : rankOf a.externalID = rankOf b.externalID →
        numberOf a.externalID = 0 ∧ numberOf b.externalID = 0 := by
      intro hrank
      unfold rankOf at hrank
      cases hna : isNumber a.externalID with
      | true =>
        have hnb : isNumber b.externalID = false := eq_false_of_ne_true fun h => hboth ⟨hna, h⟩
        rw [hna, hnb, if_pos rfl, if_neg Bool.false_ne_true] at hrank
        split_ifs at hrank
      | false =>
        refine ⟨numberOf_other hna, numberOf_other (eq_false_of_ne_true fun hnb => ?_)⟩
        rw [hna, hnb, if_pos rfl, if_neg Bool.false_ne_true] at hrank
        split_ifs at hrank
    refine iff_of_true ⟨?_, ?_⟩ ⟨fun ha hb => absurd ⟨ha, hb⟩ hboth, fun hb ha => absurd ⟨ha, hb⟩ hboth⟩
    · refine or_congr_right (and_congr_right fun hrank => ?_)
      obtain ⟨ha, hb⟩ := hzero hrank
      rw [ha, hb]
      exact Iff.rfl
    · refine or_congr_right (and_congr_right fun hrank => ?_)
      obtain ⟨ha, hb⟩ := hzero hrank.symm
      rw [ha, hb]
      exact Iff.rfl

end Orders

/-! ## The order of the menu, in the database -/

/-- Texts are compared as they are in the program. -/
structure SameTexts (rt : Runtime) : Prop where
  before : ∀ s t, rt.sortsBefore s t = decide (s < t)
  lower : ∀ s, rt.lower s = rt.toLower s

/-- The row of the menu that a line is about. -/
def AggregatedLine.row (line : AggregatedLine) : MenuItemKey :=
  { externalID := if line.externalID = "" then none else some line.externalID
    name := line.itemName }

section Menu

variable {rt : Runtime} {a b : AggregatedLine}

/-- **The menu is in the order of F4.6 wherever its numbers can be cast.** -/
theorem menuItemOrder_iff (htexts : SameTexts rt) {less : Bool}
    (hless : menuItemOrder rt a.row b.row = some less) : less = true ↔ MenuLess rt a b := by
  unfold MenuLess
  rw [sortKey_lt]
  unfold menuItemOrder AggregatedLine.row at hless
  unfold rankOf
  by_cases ha : a.externalID = ""
  · by_cases hb : b.externalID = ""
    · rw [if_pos ha, if_pos hb] at hless
      obtain rfl := Option.some.inj hless
      rw [ha, hb, isNumber_empty, ← htexts.lower, ← htexts.lower]
      simp [htexts.before]
    · rw [if_pos ha, if_neg hb] at hless
      obtain ⟨an, -, hless⟩ := Option.bind_eq_some_iff.mp hless
      obtain ⟨bn, -, hless⟩ := Option.bind_eq_some_iff.mp hless
      obtain rfl := Option.some.inj hless
      rw [ha, isNumber_empty]
      cases isNumber b.externalID <;> simp [hb]
  · by_cases hb : b.externalID = ""
    · rw [if_neg ha, if_pos hb] at hless
      obtain ⟨an, -, hless⟩ := Option.bind_eq_some_iff.mp hless
      obtain ⟨bn, -, hless⟩ := Option.bind_eq_some_iff.mp hless
      obtain rfl := Option.some.inj hless
      rw [hb, isNumber_empty]
      cases isNumber a.externalID <;> simp [ha]
    · rw [if_neg ha, if_neg hb] at hless
      obtain ⟨an, hna, hless⟩ := Option.bind_eq_some_iff.mp hless
      obtain ⟨bn, hnb, hless⟩ := Option.bind_eq_some_iff.mp hless
      unfold menuNumber at hna hnb
      dsimp only at hna hnb
      obtain rfl := Option.some.inj hless
      dsimp only
      rw [htexts.before, htexts.before, htexts.lower, htexts.lower]
      have hsome : (some a.externalID).isNone = (some b.externalID).isNone := rfl
      rw [if_neg (not_not.mpr hsome)]
      split_ifs at hna hnb with hia hca hib hcb hib hcb
      · -- two numbers
        obtain rfl := Option.some.inj hna
        obtain rfl := Option.some.inj hnb
        dsimp only
        rw [ite_ne_iff (fun _ => lt_irrefl _) decide_eq_true_iff, textThenName]
        simp only [hia, hib, if_true, lt_irrefl, false_or, true_and, Int.ofNat_lt, Int.ofNat_inj]
      · obtain rfl := Option.some.inj hna
        obtain rfl := Option.some.inj hnb
        simp [hia, hib, hb]
      · obtain rfl := Option.some.inj hna
        obtain rfl := Option.some.inj hnb
        simp [hia, hib, ha]
      · -- two texts
        obtain rfl := Option.some.inj hna
        obtain rfl := Option.some.inj hnb
        dsimp only
        rw [textThenName, numberOf_other (eq_false_of_ne_true hia), numberOf_other (eq_false_of_ne_true hib)]
        simp only [hia, hib, if_false, ha, hb, lt_irrefl, false_or, true_and]

end Menu

/-- **The summary is sorted by a strict weak order. It is that of the menu for the lines whose numbers
wrapping leaves in order, and for no others.** -/
theorem lessByMenuOrder_menuLess_iff (rt : Runtime) :
    IsStrictWeakOrder AggregatedLine (fun a b => lessByMenuOrder rt a b = true) ∧
      (∀ a b, ((lessByMenuOrder rt a b = true ↔ MenuLess rt a b) ∧
          (lessByMenuOrder rt b a = true ↔ MenuLess rt b a)) ↔
        KeepsOrder a.externalID b.externalID ∧ KeepsOrder b.externalID a.externalID) ∧
      (SameTexts rt → ∀ a b less, menuItemOrder rt a.row b.row = some less →
        (less = true ↔ MenuLess rt a b)) :=
  ⟨strictWeakOrder_lessByMenuOrder rt, fun _ _ => agree_iff_keepsOrder,
    fun htexts _ _ _ => menuItemOrder_iff htexts⟩

namespace LongNumbers

/-- A line with this number -/
def numbered (id : String) : AggregatedLine := ⟨"Döner", id, [], none, 1, 700, 700⟩

theorem sameTexts_ascii : SameTexts .ascii where
  before := fun _ _ => rfl
  lower := fun s => by
    show s.map Char.toLower = String.ofList (s.toList.map Char.toLower)
    rw [← String.toList_inj, String.toList_map, String.toList_ofList]

end LongNumbers

open LongNumbers

theorem lessByMenuOrder_menuLess_ascii :
    true = true ↔ MenuLess .ascii (numbered "2") (numbered "10") :=
  (lessByMenuOrder_menuLess_iff .ascii).2.2 sameTexts_ascii (numbered "2") (numbered "10") true (by decide)

/-- 9223372036854775808 comes before 1. -/
theorem lessByMenuOrder_wraps : ¬ ∀ (rt : Runtime) (a b : AggregatedLine), AdmittedID a.externalID →
    AdmittedID b.externalID → (lessByMenuOrder rt a b = true ↔ MenuLess rt a b) := by
  intro hall
  have hlong : AdmittedID "9223372036854775808" := .inr ⟨by decide, by decide, by decide⟩
  have hshort : AdmittedID "1" := .inr ⟨by decide, by decide, by decide⟩
  have hless := (hall .ascii (numbered "9223372036854775808") (numbered "1") hlong hshort).mp (by decide)
  unfold MenuLess at hless
  rw [sortKey_lt] at hless
  exact absurd hless (by decide)

end Doenerstag
