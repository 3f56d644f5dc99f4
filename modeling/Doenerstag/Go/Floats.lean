import Doenerstag.Go.Strings
import Doenerstag.Lib.Binary64

/-!
# Floating-point numbers as texts (`strconv`)

* `parseFloat` — `strconv.ParseFloat(_, 64)`; a number that is too large is an error.
* `formatFloat` — `strconv.FormatFloat(_, 'f', -1, 64)`: the fewest digits that are read back.
* `parseFloat_toDigits`, `formatFloat_natCast` — a whole number is read and written as one.
-/

namespace Doenerstag

open Binary64 (Value)

/-- A sign in front of a number, and whether it is a minus. -/
def splitSign : Text → Bool × Text
  | '-' :: rest => (true, rest)
  | '+' :: rest => (false, rest)
  | s => (false, s)

/-! ## Reading -/

/-- What a digit stands for. -/
def digitOf (base : Nat) (c : Char) : Option Nat :=
  let n := c.toLower.toNat
  if 48 ≤ n ∧ n ≤ 57 then some (n - 48)
  else if base = 16 ∧ 97 ≤ n ∧ n ≤ 102 then some (n - 87)
  else none

/-- `underscoreOK`: an underscore stands between digits. `after` is whether a digit is before. -/
def underscoresOK (base : Nat) (after : Bool) : Text → Bool
  | [] => true
  | '_' :: rest => after && (rest.head?.any fun c => (digitOf base c).isSome) &&
      underscoresOK base false rest
  | c :: rest => underscoresOK base (digitOf base c).isSome rest

/-- The exponent behind the mantissa, if it is one. -/
def parseExponent (s : Text) : Option Int :=
  let (negative, rest) := splitSign s
  match rest with
  | [] => none
  | c :: _ =>
    if c.isDigit && rest.all fun c => c.isDigit || c == '_' then
      let n := Nat.ofDigitChars 10 (rest.filter Char.isDigit) 0
      some (if negative then -(n : Int) else n)
    else
      none

/-- `readFloat`, from behind the sign and the base prefix on: the number that is written, if the whole
text is one. An exponent is due for a hexadecimal number. -/
def readFloat (base : Nat) (s : Text) : Option ℚ :=
  let isPart := fun c => (digitOf base c).isSome || c == '_' || c == '.'
  let mantissa := s.takeWhile isPart
  let digits := mantissa.filterMap (digitOf base)
  let fraction := ((mantissa.dropWhile (· != '.')).filterMap (digitOf base)).length
  let n : Nat := digits.foldl (fun n d => base * n + d) 0
  if digits = [] ∨ 1 < mantissa.count '.' then none
  else match s.dropWhile isPart with
    | [] => if base = 16 then none else some ((n : ℚ) / 10 ^ fraction)
    | e :: rest =>
      if e.toLower = (if base = 16 then 'p' else 'e') then
        (parseExponent rest).map fun exp =>
          if base = 16 then (n : ℚ) / 16 ^ fraction * 2 ^ exp else (n : ℚ) / 10 ^ fraction * 10 ^ exp
      else
        none

/-- A number without its sign. -/
def readUnsigned (s : Text) : Option ℚ :=
  match s with
  | '0' :: x :: c :: rest =>
    if x.toLower = 'x' then
      if underscoresOK 16 true (c :: rest) then readFloat 16 (c :: rest) else none
    else if underscoresOK 10 false s then readFloat 10 s
    else none
  | s => if underscoresOK 10 false s then readFloat 10 s else none

/-- A number beyond the largest value is out of range. -/
def inRange : Value → Option Value
  | .finite x exact => some (.finite x exact)
  | _ => none

/-- `strconv.ParseFloat(s, 64)` -/
def parseFloat (s : Text) : Option Value :=
  let (negative, rest) := splitSign s
  let folded := rest.map Char.toLower
  if s.map Char.toLower = "nan".toList then some .nan
  else if folded = "inf".toList ∨ folded = "infinity".toList then some (.infinite negative)
  else (readUnsigned rest).bind fun x => inRange (Value.ofRat (if negative then -x else x))

/-! ### Whole numbers -/

/-- What holds of the ten digits holds of every digit. -/
theorem forall_digit {P : Char → Prop} (h : ∀ d < 10, P (Nat.digitChar d)) {c : Char}
    (hc : c.isDigit = true) : P c := by
  obtain ⟨hlow, hhigh⟩ := isDigit_range hc
  have heq : Nat.digitChar (c.toNat - 48) = c := by
    apply Char.toNat_inj.mp
    rw [Nat.toNat_digitChar_of_lt_ten (by omega)]
    omega
  exact heq ▸ h _ (by omega)

theorem digitOf_digit {c : Char} (hc : c.isDigit = true) : digitOf 10 c = some (c.toNat - 48) :=
  forall_digit (P := fun c => digitOf 10 c = some (c.toNat - 48)) (by decide) hc

theorem toLower_digit {c : Char} (hc : c.isDigit = true) : c.toLower = c :=
  forall_digit (P := fun c => c.toLower = c) (by decide) hc

/-- A digit is none of the signs in a number. -/
theorem digit_plain {c : Char} (hc : c.isDigit = true) :
    c ≠ '-' ∧ c ≠ '+' ∧ c ≠ '.' ∧ c ≠ '_' ∧ c ≠ 'x' ∧ c ≠ 'i' ∧ c ≠ 'n' :=
  forall_digit (P := fun c => c ≠ '-' ∧ c ≠ '+' ∧ c ≠ '.' ∧ c ≠ '_' ∧ c ≠ 'x' ∧ c ≠ 'i' ∧ c ≠ 'n')
    (by decide) hc

section Digits

variable {ds : Text}

theorem splitSign_digits (hds : ∀ c ∈ ds, c.isDigit = true) : splitSign ds = (false, ds) := by
  cases ds with
  | nil => rfl
  | cons c rest =>
    obtain ⟨hminus, hplus, -⟩ := digit_plain (hds c List.mem_cons_self)
    unfold splitSign
    split
    · rename_i heq
      cases heq
      exact absurd rfl hminus
    · rename_i heq
      cases heq
      exact absurd rfl hplus
    · rfl

theorem underscoresOK_digits (hds : ∀ c ∈ ds, c.isDigit = true) (after : Bool) :
    underscoresOK 10 after ds = true := by
  induction ds generalizing after with
  | nil => rfl
  | cons c rest ih =>
    have hplain := (digit_plain (hds c List.mem_cons_self)).2.2.2.1
    rw [underscoresOK]
    · exact ih (fun c hc => hds c (List.mem_cons_of_mem _ hc)) _
    · intro heq
      exact hplain heq

theorem filterMap_digits (hds : ∀ c ∈ ds, c.isDigit = true) :
    ds.filterMap (digitOf 10) = ds.map fun c => c.toNat - 48 := by
  induction ds with
  | nil => rfl
  | cons c rest ih =>
    rw [List.filterMap_cons_some (digitOf_digit (hds c List.mem_cons_self)), List.map_cons,
      ih fun c hc => hds c (List.mem_cons_of_mem _ hc)]

/-- Digits alone write a whole number. -/
theorem readFloat_digits (hds : ∀ c ∈ ds, c.isDigit = true) (hne : ds ≠ []) :
    readFloat 10 ds = some (Nat.ofDigitChars 10 ds 0 : ℚ) := by
  have hpart : ∀ c ∈ ds, ((digitOf 10 c).isSome || c == '_' || c == '.') = true := by
    intro c hc
    rw [digitOf_digit (hds c hc)]
    rfl
  have hpoint : ∀ c ∈ ds, (c != '.') = true := fun c hc =>
    bne_iff_ne.mpr (digit_plain (hds c hc)).2.2.1
  have htake := @List.takeWhile_append_of_pos _ _ _ [] hpart
  have hdrop := @List.dropWhile_append_of_pos _ _ _ [] hpart
  have hwhole := @List.dropWhile_append_of_pos _ _ _ [] hpoint
  rw [List.append_nil] at htake hdrop hwhole
  have hsome : ¬ (ds.filterMap (digitOf 10) = [] ∨ 1 < ds.count '.') := by
    rw [filterMap_digits hds, List.map_eq_nil_iff,
      List.count_eq_zero.mpr fun hc => (digit_plain (hds _ hc)).2.2.1 rfl]
    exact not_or.mpr ⟨hne, by decide⟩
  unfold readFloat
  simp only [htake, hdrop, hwhole, List.takeWhile_nil, List.dropWhile_nil, List.append_nil]
  rw [if_neg hsome, filterMap_digits hds, List.foldl_map]
  simp [Nat.ofDigitChars_eq_foldl]

theorem readUnsigned_digits (hds : ∀ c ∈ ds, c.isDigit = true) (hne : ds ≠ []) :
    readUnsigned ds = some (Nat.ofDigitChars 10 ds 0 : ℚ) := by
  unfold readUnsigned
  split
  · rename_i x c rest
    have hx : x.isDigit = true := hds x (List.mem_cons_of_mem _ List.mem_cons_self)
    rw [if_neg (by rw [toLower_digit hx]; exact (digit_plain hx).2.2.2.2.1),
      if_pos (underscoresOK_digits hds false)]
    exact readFloat_digits hds hne
  · rw [if_pos (underscoresOK_digits hds false)]
    exact readFloat_digits hds hne

end Digits

/-- What digits write is not one of the special words. -/
theorem toDigits_ne_word (n : Nat) :
    Nat.toDigits 10 n ≠ "inf".toList ∧ Nat.toDigits 10 n ≠ "infinity".toList ∧
      Nat.toDigits 10 n ≠ "nan".toList := by
  have hword : ∀ c ∈ Nat.toDigits 10 n, c ≠ 'i' ∧ c ≠ 'n' := fun c hc =>
    (digit_plain (mem_toDigits hc)).2.2.2.2.2
  refine ⟨fun heq => ?_, fun heq => ?_, fun heq => ?_⟩
  · exact (hword 'i' (heq ▸ by decide)).1 rfl
  · exact (hword 'i' (heq ▸ by decide)).1 rfl
  · exact (hword 'n' (heq ▸ by decide)).2 rfl

theorem toLower_toDigits (n : Nat) : (Nat.toDigits 10 n).map Char.toLower = Nat.toDigits 10 n :=
  (List.map_congr_left fun _ hc => toLower_digit (mem_toDigits hc)).trans (List.map_id _)

section Whole

variable {n : Nat} {x : ℚ} {exact : Binary64.Representable x}

theorem readUnsigned_toDigits : readUnsigned (Nat.toDigits 10 n) = some (n : ℚ) := by
  rw [readUnsigned_digits (fun c hc => mem_toDigits hc) Nat.toDigits_ne_nil, Nat.ofDigitChars_ten_toDigits]

/-- **A whole number is read** as the nearest value. -/
theorem parseFloat_toDigits (h : Value.ofRat (n : ℚ) = .finite x exact) :
    parseFloat (Nat.toDigits 10 n) = some (.finite x exact) := by
  obtain ⟨hinf, hinfinity, hnan⟩ := toDigits_ne_word n
  unfold parseFloat
  simp only [splitSign_digits fun c hc => mem_toDigits (n := n) hc, toLower_toDigits]
  rw [if_neg hnan, if_neg (not_or.mpr ⟨hinf, hinfinity⟩), readUnsigned_toDigits]
  show inRange (Value.ofRat (n : ℚ)) = _
  rw [h]
  rfl

theorem parseFloat_minus (h : Value.ofRat (-n : ℚ) = .finite x exact) :
    parseFloat ('-' :: Nat.toDigits 10 n) = some (.finite x exact) := by
  obtain ⟨hinf, hinfinity, -⟩ := toDigits_ne_word n
  have hnan : ('-' :: Nat.toDigits 10 n).map Char.toLower ≠ "nan".toList := fun heq => by
    have hfirst := (List.cons.inj heq).1
    exact absurd hfirst (by decide)
  unfold parseFloat
  rw [show splitSign ('-' :: Nat.toDigits 10 n) = (true, Nat.toDigits 10 n) from rfl]
  dsimp only
  rw [if_neg hnan, toLower_toDigits, if_neg (not_or.mpr ⟨hinf, hinfinity⟩), readUnsigned_toDigits]
  show inRange (Value.ofRat (-n : ℚ)) = _
  rw [h]
  rfl

end Whole

/-! ## Writing -/

/-- The numbers of `k` significant digits on both sides of a positive number, the nearer one first. -/
def significant (k : Nat) (x : ℚ) : List ℚ :=
  let unit : ℚ := 10 ^ (Int.log 10 x + 1 - k)
  let below := ⌊x / unit⌋ * unit
  let above := ⌈x / unit⌉ * unit
  if x - below ≤ above - x then [below, above] else [above, below]

/-- The number of the fewest digits whose nearest value this positive one is. -/
def shortest (x : ℚ) : ℚ :=
  (((List.range 17).flatMap fun k => significant (k + 1) x).find?
    fun y => Binary64.nearest y = x).getD x

/-- The digits behind the point. -/
def fractionDigits : Nat → ℚ → Text
  | 0, _ => []
  | n + 1, x => if x = 0 then [] else
      let d := ⌊x * 10⌋
      Nat.digitChar d.toNat :: fractionDigits n (x * 10 - d)

/-- A number that is not negative, with all its digits. -/
def decimal (x : ℚ) : Text :=
  let whole := ⌊x⌋
  itoa whole ++ if x = whole then [] else '.' :: fractionDigits 400 (x - whole)

/-- `strconv.FormatFloat(v, 'f', -1, 64)` -/
def formatFloat : Value → Text
  | .finite x _ =>
    if x = 0 then ['0'] else if x < 0 then '-' :: decimal (shortest (-x)) else decimal (shortest x)
  | .infinite negative => if negative then "-Inf".toList else "+Inf".toList
  | .nan => "NaN".toList

/-! ### Whole numbers -/

/-- What has few digits and a whole number as its nearest value is that number. -/
theorem significant_natCast {n k : Nat} (hpos : 0 < n) (hn : n < 10 ^ 15) {y : ℚ}
    (hy : y ∈ significant (k + 1) n) (hnearest : Binary64.nearest y = n) : y = n := by
  have hq : (0 : ℚ) < n := by exact_mod_cast hpos
  have hlog : (10 : ℚ) ^ Int.log 10 (n : ℚ) ≤ n := Int.zpow_log_le_self (b := 10) (by norm_num) hq
  unfold significant at hy
  dsimp only at hy
  generalize hj : Int.log 10 (n : ℚ) + 1 - ((k + 1 : ℕ) : ℤ) = j at hy
  have hunit : (0 : ℚ) < 10 ^ j := zpow_pos (by norm_num) j
  obtain ⟨m, hm, rfl⟩ : ∃ m : ℤ, (m = ⌊(n : ℚ) / 10 ^ j⌋ ∨ m = ⌈(n : ℚ) / 10 ^ j⌉) ∧ y = m * 10 ^ j := by
    split_ifs at hy
    · rcases List.mem_cons.mp hy with rfl | hy
      · exact ⟨_, .inl rfl, rfl⟩
      · exact ⟨_, .inr rfl, List.mem_singleton.mp hy⟩
    · rcases List.mem_cons.mp hy with rfl | hy
      · exact ⟨_, .inr rfl, rfl⟩
      · exact ⟨_, .inl rfl, List.mem_singleton.mp hy⟩
  rcases Int.le_total 0 j with hj0 | hj0
  · -- the unit is a whole number, and so is what is found
    obtain ⟨i, rfl⟩ := Int.eq_ofNat_of_zero_le hj0
    have hle : (10 : ℚ) ^ (i : ℤ) ≤ n := by
      refine le_trans (zpow_le_zpow_right₀ (by norm_num) ?_) hlog
      push_cast at hj
      omega
    have hdiv : 0 < (n : ℚ) / 10 ^ (i : ℤ) := div_pos hq hunit
    have hlow : 0 ≤ m := by
      rcases hm with rfl | rfl
      · exact Int.floor_nonneg.mpr hdiv.le
      · exact (Int.ceil_pos.mpr hdiv).le
    have hhigh : (m : ℚ) * 10 ^ (i : ℤ) < 2 * n := by
      have hstep : (m : ℚ) < (n : ℚ) / 10 ^ (i : ℤ) + 1 := by
        rcases hm with rfl | rfl
        · exact lt_of_le_of_lt (Int.floor_le _) (lt_add_one _)
        · exact Int.ceil_lt_add_one _
      have hmul := mul_lt_mul_of_pos_right hstep hunit
      rw [add_mul, div_mul_cancel₀ _ hunit.ne', one_mul] at hmul
      linarith
    have hwhole : (m : ℚ) * 10 ^ (i : ℤ) = ((m * 10 ^ i : ℤ) : ℚ) := by
      rw [zpow_natCast]
      push_cast
      ring
    rw [hwhole] at hnearest hhigh ⊢
    have hsmall : |m * 10 ^ i| < 2 ^ 53 := by
      rw [abs_of_nonneg (mul_nonneg hlow (by positivity))]
      have hbound : m * 10 ^ i < 2 * (n : ℤ) := by exact_mod_cast hhigh
      omega
    rwa [Binary64.nearest_of_representable (Binary64.representable_intCast hsmall)] at hnearest
  · -- the unit divides it
    obtain ⟨i, hi⟩ := Int.eq_ofNat_of_zero_le (Int.neg_nonneg.mpr hj0)
    have hwhole : (n : ℚ) / 10 ^ j = ((n * 10 ^ i : ℤ) : ℚ) := by
      rw [show j = -(i : ℤ) by omega, zpow_neg, zpow_natCast, div_inv_eq_mul]
      push_cast
      ring
    have hm : (m : ℚ) = (n : ℚ) / 10 ^ j := by
      rw [hwhole] at hm ⊢
      rw [Int.floor_intCast, Int.ceil_intCast, or_self] at hm
      rw [hm]
    rw [hm, div_mul_cancel₀ _ hunit.ne']

/-- With seventeen digits a whole number of fifteen is found. -/
theorem mem_significant_natCast {n : Nat} (hpos : 0 < n) (hn : n < 10 ^ 15) :
    (n : ℚ) ∈ significant (16 + 1) n := by
  have hq : (0 : ℚ) < n := by exact_mod_cast hpos
  have hlog : Int.log 10 (n : ℚ) < 15 := by
    refine (Int.lt_zpow_iff_log_lt (b := 10) (by norm_num) hq).mp ?_
    exact_mod_cast hn
  unfold significant
  dsimp only
  generalize hj : Int.log 10 (n : ℚ) + 1 - ((16 + 1 : ℕ) : ℤ) = j
  obtain ⟨i, hi⟩ := Int.eq_ofNat_of_zero_le (show 0 ≤ -j by push_cast at hj; omega)
  have hunit : (0 : ℚ) < 10 ^ j := zpow_pos (by norm_num) j
  have hwhole : (n : ℚ) / 10 ^ j = ((n * 10 ^ i : ℤ) : ℚ) := by
    rw [show j = -(i : ℤ) by omega, zpow_neg, zpow_natCast, div_inv_eq_mul]
    push_cast
    ring
  rw [hwhole, Int.floor_intCast, Int.ceil_intCast, ← hwhole, div_mul_cancel₀ _ hunit.ne', if_pos le_rfl]
  exact List.mem_cons_self

theorem shortest_natCast {n : Nat} (hpos : 0 < n) (hn : n < 10 ^ 15) : shortest n = n := by
  have hsmall : |(n : ℤ)| < 2 ^ 53 := by
    rw [Nat.abs_cast]
    omega
  have hself : Binary64.nearest (n : ℚ) = n := by
    exact_mod_cast Binary64.nearest_of_representable (Binary64.representable_intCast hsmall)
  unfold shortest
  cases hfind : ((List.range 17).flatMap fun k => significant (k + 1) (n : ℚ)).find?
      fun y => Binary64.nearest y = n with
  | none =>
    have hnone := List.find?_eq_none.mp hfind n
      (List.mem_flatMap.mpr ⟨16, by decide, mem_significant_natCast hpos hn⟩)
    exact absurd (decide_eq_true hself) hnone
  | some y =>
    obtain ⟨k, -, hy⟩ := List.mem_flatMap.mp (List.mem_of_find?_eq_some hfind)
    have hnearest := List.find?_some hfind
    simp only [decide_eq_true_eq] at hnearest
    exact significant_natCast hpos hn hy hnearest

/-- **A whole number is written** with its digits. -/
theorem formatFloat_natCast {n : Nat} (hn : n < 10 ^ 15) (exact : Binary64.Representable n) :
    formatFloat (.finite n exact) = Nat.toDigits 10 n := by
  rcases Nat.eq_zero_or_pos n with rfl | hpos
  · rfl
  · have hq : (0 : ℚ) < n := by exact_mod_cast hpos
    rw [formatFloat, if_neg hq.ne', if_neg (not_lt.mpr hq.le), shortest_natCast hpos hn]
    have hwhole : ((n : ℤ) : ℚ) = n := Int.cast_natCast n
    unfold decimal
    rw [Int.floor_natCast]
    dsimp only
    rw [if_pos hwhole.symm, List.append_nil, itoa_natCast]

end Doenerstag
