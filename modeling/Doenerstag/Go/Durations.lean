import Doenerstag.Go.Floats

/-!
# Durations as texts (`time`)

* `durationString` — `Duration.String`
* `timeParseDuration` — `time.ParseDuration`
* `components_step` — one number with its unit is read as what it stands for.
* `timeParseDuration_durationString` — **a duration is read as it was written.**
-/

namespace Doenerstag

/-! ## Writing -/

/-- `fmtFrac`: the last `prec` digits as a fraction without trailing zeros, in front of `buf`, and the
number without them. -/
def fmtFrac : Nat → Nat → Text → Nat × Text
  | 0, v, buf => (v, buf)
  | prec + 1, v, buf =>
    fmtFrac prec (v / 10) (if buf ≠ [] ∨ v % 10 ≠ 0 then Nat.digitChar (v % 10) :: buf else buf)

/-- A number with the fraction, if there is one, and the unit. -/
def component (v : Nat) (frac unit : Text) : Text :=
  Nat.toDigits 10 v ++ ((if frac = [] then [] else '.' :: frac) ++ unit)

/-- The units below a second, and how many digits they leave to the fraction. -/
def smallUnit (u : Nat) : Nat × Text :=
  if u < 1000 then (0, ['n', 's']) else if u < 1000000 then (3, ['µ', 's']) else (6, ['m', 's'])

/-- `Duration.String`, of a duration that is not negative. -/
def absoluteString (u : Nat) : Text :=
  if u = 0 then ['0', 's']
  else if u < 1000000000 then
    let (v, frac) := fmtFrac (smallUnit u).1 u []
    component v frac (smallUnit u).2
  else
    let (v, frac) := fmtFrac 9 u []
    (if 3600 ≤ v then component (v / 3600) [] ['h'] else []) ++
      ((if 60 ≤ v then component (v / 60 % 60) [] ['m'] else []) ++ component (v % 60) frac ['s'])

/-- `Duration.String` -/
def durationString (d : Int) : Text :=
  if d < 0 then '-' :: absoluteString d.natAbs else absoluteString d.natAbs

/-! ## Reading -/

/-- `unitMap` -/
def unitMap (u : Text) : Option Nat :=
  if u = ['n', 's'] then some 1
  else if u = ['u', 's'] ∨ u = ['µ', 's'] ∨ u = ['μ', 's'] then some 1000
  else if u = ['m', 's'] then some 1000000
  else if u = ['s'] then some 1000000000
  else if u = ['m'] then some 60000000000
  else if u = ['h'] then some 3600000000000
  else none

/-- `leadingInt`, from `x` on. -/
def leadingInt (x : Nat) : Text → Option (Nat × Text)
  | [] => some (x, [])
  | c :: rest =>
    if c.isDigit then
      if 2 ^ 63 / 10 < x ∨ 2 ^ 63 < 10 * x + (c.toNat - 48) then none
      else leadingInt (10 * x + (c.toNat - 48)) rest
    else
      some (x, c :: rest)

/-- `leadingFraction`, from `x` on. Once the digits are too many, the rest of them is passed over. -/
def leadingFraction (x scale : Nat) (overflow : Bool) : Text → Nat × Nat × Text
  | [] => (x, scale, [])
  | c :: rest =>
    if c.isDigit then
      if overflow ∨ (2 ^ 63 - 1) / 10 < x ∨ 2 ^ 63 < 10 * x + (c.toNat - 48) then
        leadingFraction x scale true rest
      else
        leadingFraction (10 * x + (c.toNat - 48)) (scale * 10) false rest
    else
      (x, scale, c :: rest)

/-- `uint64(float64(f) * (float64(unit) / scale))` -/
def fractionOf (f scale unit : Nat) : Nat :=
  ⌊Binary64.nearest (Binary64.nearest f * Binary64.nearest (unit / scale))⌋.toNat

/-- What a number consists of. -/
def isNumeric (c : Char) : Bool := c.isDigit || c == '.'

/-- The number before a unit: its whole part, and its fraction over its scale. -/
def leadingNumber (s : Text) : Option (Nat × Nat × Nat × Text) :=
  (leadingInt 0 s).bind fun (v, rest) =>
    let pre := rest.length ≠ s.length
    match rest with
    | '.' :: digits =>
      let (f, scale, rest) := leadingFraction 0 1 false digits
      if pre ∨ rest.length ≠ digits.length then some (v, f, scale, rest) else none
    | rest => if pre then some (v, 0, 1, rest) else none

/-- The loop of `time.ParseDuration`: every turn adds a number with its unit to `d`. -/
def components : Nat → Nat → Text → Option Nat
  | _, d, [] => some d
  | 0, _, _ => none
  | fuel + 1, d, s =>
    (leadingNumber s).bind fun (v, f, scale, rest) =>
      let u := rest.takeWhile fun c => !isNumeric c
      (unitMap u).bind fun unit =>
        let v' := v * unit + if 0 < f then fractionOf f scale unit else 0
        if 2 ^ 63 / unit < v ∨ 2 ^ 63 < v' ∨ 2 ^ 63 < (d + v') % 2 ^ 64 then none
        else components fuel ((d + v') % 2 ^ 64) (rest.dropWhile fun c => !isNumeric c)

/-- `time.ParseDuration` -/
def timeParseDuration (s : Text) : Option Int :=
  let (negative, rest) := splitSign s
  if rest = ['0'] then some 0
  else if rest = [] then none
  else (components rest.length 0 rest).bind fun d =>
    if negative then some (-(d : Int)) else if d < 2 ^ 63 then some (d : Int) else none

/-! ## One number and its unit -/

/-- Digits only make a number larger. -/
theorem le_ofDigitChars (ds : Text) (x : Nat) : x ≤ Nat.ofDigitChars 10 ds x := by
  induction ds generalizing x with
  | nil => exact Nat.le_refl x
  | cons c ds ih =>
    rw [Nat.ofDigitChars_cons]
    have h := ih (10 * x + (c.toNat - 48))
    show x ≤ Nat.ofDigitChars 10 ds (10 * x + (c.toNat - 48))
    omega

section Leading

variable {ds tail : Text}

theorem leadingInt_digits (hds : ∀ c ∈ ds, c.isDigit = true)
    (htail : ∀ c, tail.head? = some c → c.isDigit = false) {x : Nat}
    (hmax : Nat.ofDigitChars 10 ds x ≤ 2 ^ 63) :
    leadingInt x (ds ++ tail) = some (Nat.ofDigitChars 10 ds x, tail) := by
  induction ds generalizing x with
  | nil =>
    cases tail with
    | nil => rfl
    | cons c rest => rw [List.nil_append, leadingInt, htail c rfl]; rfl
  | cons c ds ih =>
    rw [Nat.ofDigitChars_cons] at hmax ⊢
    have hmax : Nat.ofDigitChars 10 ds (10 * x + (c.toNat - 48)) ≤ 2 ^ 63 := hmax
    have hle := le_ofDigitChars ds (10 * x + (c.toNat - 48))
    have hsmall : ¬ (2 ^ 63 / 10 < x ∨ 2 ^ 63 < 10 * x + (c.toNat - 48)) := by omega
    rw [List.cons_append, leadingInt, if_pos (hds c List.mem_cons_self), if_neg hsmall]
    exact ih (fun c hc => hds c (List.mem_cons_of_mem _ hc)) hmax

theorem leadingFraction_digits (hds : ∀ c ∈ ds, c.isDigit = true)
    (htail : ∀ c, tail.head? = some c → c.isDigit = false) {x : Nat} (scale : Nat)
    (hmax : Nat.ofDigitChars 10 ds x < 2 ^ 63) :
    leadingFraction x scale false (ds ++ tail) =
      (Nat.ofDigitChars 10 ds x, scale * 10 ^ ds.length, tail) := by
  induction ds generalizing x scale with
  | nil =>
    rw [List.length_nil, pow_zero, Nat.mul_one]
    cases tail with
    | nil => rfl
    | cons c rest => rw [List.nil_append, leadingFraction, htail c rfl]; rfl
  | cons c ds ih =>
    rw [Nat.ofDigitChars_cons] at hmax ⊢
    have hmax : Nat.ofDigitChars 10 ds (10 * x + (c.toNat - 48)) < 2 ^ 63 := hmax
    have hle := le_ofDigitChars ds (10 * x + (c.toNat - 48))
    have hsmall : ¬ (false = true ∨ (2 ^ 63 - 1) / 10 < x ∨ 2 ^ 63 < 10 * x + (c.toNat - 48)) := by
      rw [Bool.false_eq_true, false_or]
      omega
    rw [List.cons_append, leadingFraction, if_pos (hds c List.mem_cons_self), if_neg hsmall,
      ih (fun c hc => hds c (List.mem_cons_of_mem _ hc)) _ hmax, List.length_cons, pow_succ',
      ← Nat.mul_assoc]
    rfl

end Leading

theorem nearest_natCast {n : Nat} (h : n < 2 ^ 53) : Binary64.nearest (n : ℚ) = n := by
  have habs : |(n : ℤ)| < 2 ^ 53 := by
    rw [Nat.abs_cast]
    omega
  exact_mod_cast Binary64.nearest_of_representable (Binary64.representable_intCast habs)

/-- A fraction whose scale divides the unit is exact. -/
theorem fractionOf_exact {f scale m : Nat} (hscale : 0 < scale) (hf : f < scale)
    (hunit : scale * m < 2 ^ 53) : fractionOf f scale (scale * m) = f * m := by
  have hm : m ≤ scale * m := Nat.le_mul_of_pos_left m hscale
  have hmul : f * m ≤ scale * m := Nat.mul_le_mul_right m hf.le
  have hdiv : ((scale * m : ℕ) : ℚ) / scale = m := by
    rw [Nat.cast_mul]
    exact mul_div_cancel_left₀ _ (Nat.cast_ne_zero.mpr hscale.ne')
  have hquot : f < 2 ^ 53 ∨ m = 0 := by
    rcases Nat.eq_zero_or_pos m with hm0 | hpos
    · exact .inr hm0
    · exact .inl (by have := Nat.le_mul_of_pos_right scale hpos; omega)
  unfold fractionOf
  rw [hdiv, nearest_natCast (n := m) (by omega)]
  rcases hquot with hf53 | rfl
  · rw [nearest_natCast hf53, ← Nat.cast_mul, nearest_natCast (by omega), Int.floor_natCast, Int.toNat_natCast]
  · rw [Nat.cast_zero, mul_zero, ← Nat.cast_zero, nearest_natCast (by norm_num), Int.floor_natCast,
      Int.toNat_natCast, Nat.mul_zero]

section Component

variable {v : Nat} {frac u rest : Text}

/-- What follows a number is no digit. -/
theorem head_unit (rest : Text) (hu : ∀ c ∈ u, isNumeric c = false) (hne : u ≠ []) :
    ∀ c, (u ++ rest).head? = some c → c.isDigit = false ∧ c ≠ '.' := by
  intro c hc
  rw [List.head?_append_of_ne_nil _ hne] at hc
  have hnumeric := hu c (List.mem_of_mem_head? hc)
  unfold isNumeric at hnumeric
  rw [Bool.or_eq_false_iff, beq_eq_false_iff_ne] at hnumeric
  exact hnumeric

theorem leadingNumber_component (rest : Text) (hv : v ≤ 2 ^ 63) (hfrac : ∀ c ∈ frac, c.isDigit = true)
    (hf : Nat.ofDigitChars 10 frac 0 < 2 ^ 63) (hu : ∀ c ∈ u, isNumeric c = false) (hne : u ≠ []) :
    leadingNumber (component v frac u ++ rest) =
      some (v, Nat.ofDigitChars 10 frac 0, 10 ^ frac.length, u ++ rest) := by
  have hds : ∀ c ∈ Nat.toDigits 10 v, c.isDigit = true := fun c hc => mem_toDigits hc
  have hvalue : Nat.ofDigitChars 10 (Nat.toDigits 10 v) 0 ≤ 2 ^ 63 := by
    rwa [Nat.ofDigitChars_ten_toDigits]
  have hhead := head_unit rest hu hne
  have hlonger : ∀ (ds tail : Text), ds ≠ [] → tail.length ≠ (ds ++ tail).length := by
    intro ds tail hds
    have hpos := List.length_pos_iff.mpr hds
    rw [List.length_append]
    omega
  unfold leadingNumber component
  rw [List.append_assoc, List.append_assoc]
  by_cases hnone : frac = []
  · subst hnone
    rw [if_pos rfl, List.nil_append, leadingInt_digits hds (fun c hc => (hhead c hc).1) hvalue,
      Option.bind_some, Nat.ofDigitChars_ten_toDigits]
    have hpre := hlonger (Nat.toDigits 10 v) (u ++ rest) Nat.toDigits_ne_nil
    dsimp only
    split
    · rename_i digits heq
      exact absurd rfl (hhead '.' (by rw [heq]; rfl)).2
    · rw [if_pos hpre]
      rfl
  · rw [if_neg hnone, leadingInt_digits hds ?_ hvalue, Option.bind_some,
      Nat.ofDigitChars_ten_toDigits]
    · have hpre := hlonger (Nat.toDigits 10 v) ('.' :: frac ++ (u ++ rest)) Nat.toDigits_ne_nil
      dsimp only
      split
      · rename_i digits heq
        rw [List.cons_append] at heq
        obtain rfl := (List.cons.inj heq).2
        rw [leadingFraction_digits hfrac (fun c hc => (hhead c hc).1) 1 hf]
        dsimp only
        rw [if_pos (.inl hpre), Nat.one_mul]
      · rename_i hpoint
        exact absurd rfl (hpoint (frac ++ (u ++ rest)))
    · intro c hc
      cases hc
      rfl

/-- **One number with its unit** is read as what it stands for. -/
theorem components_step {fuel d m : Nat} (rest : Text) (hfuel : 0 < fuel) (hfrac : ∀ c ∈ frac, c.isDigit = true)
    (hf : Nat.ofDigitChars 10 frac 0 < 10 ^ frac.length)
    (hu : ∀ c ∈ u, isNumeric c = false) (hunit : unitMap u = some (10 ^ frac.length * m))
    (hm : 0 < m) (hsmall : 10 ^ frac.length * m < 2 ^ 53)
    (hrest : ∀ c, rest.head? = some c → isNumeric c = true)
    (hmax : d + (v * (10 ^ frac.length * m) + Nat.ofDigitChars 10 frac 0 * m) ≤ 2 ^ 63) :
    components fuel d (component v frac u ++ rest) =
      components (fuel - 1) (d + (v * (10 ^ frac.length * m) + Nat.ofDigitChars 10 frac 0 * m)) rest := by
  obtain ⟨fuel, rfl⟩ := Nat.exists_eq_add_of_lt hfuel
  generalize hscale : 10 ^ frac.length = scale at *
  generalize hvalue : Nat.ofDigitChars 10 frac 0 = f at *
  have hpos : 0 < scale := hscale ▸ Nat.pow_pos (by decide)
  have hne : u ≠ [] := by
    rintro rfl
    cases hunit
  have hunitpos : 0 < scale * m := Nat.mul_pos hpos hm
  have hv : v ≤ 2 ^ 63 := by
    have hle := Nat.le_mul_of_pos_right v hunitpos
    omega
  have hf63 : f < 2 ^ 63 := by
    have hle := Nat.le_mul_of_pos_right scale hm
    omega
  have htake : (u ++ rest).takeWhile (fun c => !isNumeric c) = u := by
    rw [List.takeWhile_append_of_pos fun c hc => by rw [hu c hc]; rfl]
    cases rest with
    | nil => rw [List.takeWhile_nil, List.append_nil]
    | cons c cs => rw [List.takeWhile_cons_of_neg (by rw [hrest c rfl]; decide), List.append_nil]
  have hdrop : (u ++ rest).dropWhile (fun c => !isNumeric c) = rest := by
    rw [List.dropWhile_append_of_pos fun c hc => by rw [hu c hc]; rfl]
    cases rest with
    | nil => rfl
    | cons c cs => rw [List.dropWhile_cons_of_neg (by rw [hrest c rfl]; decide)]
  have hfraction : (if 0 < f then fractionOf f scale (scale * m) else 0) = f * m := by
    split_ifs with h0
    · exact fractionOf_exact hpos hf hsmall
    · rw [Nat.eq_zero_of_not_pos h0, Nat.zero_mul]
  have hdiv : ¬ 2 ^ 63 / (scale * m) < v := by
    rw [Nat.not_lt, Nat.le_div_iff_mul_le hunitpos]
    omega
  have hsome : component v frac u ++ rest ≠ [] := fun h =>
    Nat.toDigits_ne_nil (List.append_eq_nil_iff.mp (List.append_eq_nil_iff.mp h).1).1
  have hmod : (d + (v * (scale * m) + f * m)) % 2 ^ 64 = d + (v * (scale * m) + f * m) :=
    Nat.mod_eq_of_lt (by omega)
  have hnumber := leadingNumber_component rest hv hfrac (hvalue ▸ hf63) hu hne
  rw [hvalue, hscale] at hnumber
  have hrange : ¬ (2 ^ 63 / (scale * m) < v ∨ 2 ^ 63 < v * (scale * m) + f * m ∨
      2 ^ 63 < d + (v * (scale * m) + f * m)) := by omega
  rw [show 0 + fuel + 1 - 1 = fuel by omega, show 0 + fuel + 1 = fuel + 1 by omega, components,
    hnumber, Option.bind_some]
  · dsimp only
    rw [htake, hdrop, hunit, Option.bind_some, hfraction, hmod, if_neg hrange]
  · exact hsome

end Component

/-! ## The round trip -/

/-- Once a digit is written, all the others are. -/
theorem fmtFrac_written {prec v : Nat} {buf : Text} (hne : buf ≠ [])
    (hbuf : ∀ c ∈ buf, c.isDigit = true) :
    (fmtFrac prec v buf).1 = v / 10 ^ prec ∧ (∀ c ∈ (fmtFrac prec v buf).2, c.isDigit = true) ∧
      (fmtFrac prec v buf).2.length = prec + buf.length ∧
      Nat.ofDigitChars 10 (fmtFrac prec v buf).2 0 =
        v % 10 ^ prec * 10 ^ buf.length + Nat.ofDigitChars 10 buf 0 := by
  induction prec generalizing v buf with
  | zero =>
    refine ⟨(Nat.div_one v).symm, hbuf, (Nat.zero_add _).symm, ?_⟩
    rw [pow_zero, Nat.mod_one, Nat.zero_mul, Nat.zero_add]
    rfl
  | succ prec ih =>
    have hdigit : v % 10 < 10 := Nat.mod_lt _ (by decide)
    rw [fmtFrac, if_pos (.inl hne)]
    obtain ⟨hrest, hdigits, hlength, hvalue⟩ := ih (v := v / 10)
      (List.cons_ne_nil _ _) (by
        intro c hc
        rcases List.mem_cons.mp hc with rfl | hc
        · rw [Nat.isDigit_digitChar]
          exact decide_eq_true hdigit
        · exact hbuf c hc)
    refine ⟨?_, hdigits, ?_, ?_⟩
    · rw [hrest, Nat.div_div_eq_div_mul, pow_succ']
    · rw [hlength, List.length_cons]
      omega
    · rw [hvalue, List.length_cons, Nat.ofDigitChars_cons_digitChar_of_lt_ten hdigit,
        Nat.ofDigitChars_eq_ofDigitChars_zero, Nat.mul_zero, Nat.zero_add, pow_succ' 10 prec,
        Nat.mod_mul, pow_succ' 10 buf.length]
      ring

/-- The fraction stands for the last digits. -/
theorem fmtFrac_nil (prec v : Nat) :
    (fmtFrac prec v []).1 = v / 10 ^ prec ∧ (∀ c ∈ (fmtFrac prec v []).2, c.isDigit = true) ∧
      ∃ zeros, (fmtFrac prec v []).2.length + zeros = prec ∧
        Nat.ofDigitChars 10 (fmtFrac prec v []).2 0 * 10 ^ zeros = v % 10 ^ prec := by
  induction prec generalizing v with
  | zero =>
    refine ⟨(Nat.div_one v).symm, fun _ hc => (nomatch hc), 0, rfl, ?_⟩
    rw [pow_zero, Nat.mod_one]
    rfl
  | succ prec ih =>
    have hsplit : v % 10 ^ (prec + 1) = v % 10 + 10 * (v / 10 % 10 ^ prec) := by
      rw [pow_succ', Nat.mod_mul]
    have hdiv : v / 10 / 10 ^ prec = v / 10 ^ (prec + 1) := by
      rw [Nat.div_div_eq_div_mul, pow_succ']
    by_cases hzero : v % 10 = 0
    · obtain ⟨hrest, hdigits, zeros, hlength, hvalue⟩ := ih (v / 10)
      rw [fmtFrac, if_neg (not_or.mpr ⟨fun h => h rfl, fun h => h hzero⟩)]
      refine ⟨hrest.trans hdiv, hdigits, zeros + 1, by omega, ?_⟩
      rw [pow_succ, ← Nat.mul_assoc, hvalue, hsplit, hzero]
      ring
    · have hdigit : v % 10 < 10 := Nat.mod_lt _ (by decide)
      rw [fmtFrac, if_pos (.inr hzero)]
      obtain ⟨hrest, hdigits, hlength, hvalue⟩ := fmtFrac_written (v := v / 10)
        (List.cons_ne_nil _ _) (by
          intro c hc
          rw [List.mem_singleton.mp hc, Nat.isDigit_digitChar]
          exact decide_eq_true hdigit)
      refine ⟨hrest.trans hdiv, hdigits, 0, hlength, ?_⟩
      rw [hvalue, hsplit, Nat.ofDigitChars_cons_digitChar_of_lt_ten hdigit, Nat.ofDigitChars_nil,
        List.length_singleton]
      ring

/-- What is written of a number with a fraction is read in full. -/
theorem components_fraction {fuel d k v prec : Nat} {u : Text} (hfuel : 0 < fuel)
    (hprec : prec ≤ 9) (hu : ∀ c ∈ u, isNumeric c = false) (hunit : unitMap u = some (10 ^ prec))
    (hmax : d + (k * 10 ^ prec + v % 10 ^ prec) ≤ 2 ^ 63) :
    components fuel d (component k (fmtFrac prec v []).2 u) =
      some (d + (k * 10 ^ prec + v % 10 ^ prec)) := by
  obtain ⟨-, hdigits, zeros, hlength, hvalue⟩ := fmtFrac_nil prec v
  have hpow : 10 ^ (fmtFrac prec v []).2.length * 10 ^ zeros = 10 ^ prec := by
    rw [← pow_add, hlength]
  have hzeros : 0 < 10 ^ zeros := Nat.pow_pos (by decide)
  have hf : Nat.ofDigitChars 10 (fmtFrac prec v []).2 0 < 10 ^ (fmtFrac prec v []).2.length := by
    refine Nat.lt_of_mul_lt_mul_right (a := 10 ^ zeros) ?_
    rw [hvalue, hpow]
    exact Nat.mod_lt _ (Nat.pow_pos (by decide))
  have hsmall : 10 ^ prec < 2 ^ 53 :=
    Nat.lt_of_le_of_lt (Nat.pow_le_pow_right (by decide) hprec) (by norm_num)
  have hstep := components_step (v := k) (d := d) [] hfuel hdigits hf hu
    (hunit.trans (congrArg some hpow.symm)) hzeros (by rwa [hpow]) (fun _ hc => nomatch hc)
    (by rwa [hpow, hvalue])
  rw [List.append_nil, hpow, hvalue] at hstep
  rw [hstep, components]

/-- A text that starts with a number and does not end with it. -/
def Started (s : Text) : Prop := 2 ≤ s.length ∧ ∀ c, s.head? = some c → isNumeric c = true

theorem started_component {v : Nat} {frac u : Text} (hu : u ≠ []) : Started (component v frac u) := by
  have hdigits := List.length_pos_iff.mpr (Nat.toDigits_ne_nil (b := 10) (n := v))
  have hunit := List.length_pos_iff.mpr hu
  unfold component
  constructor
  · rw [List.length_append, List.length_append]
    omega
  · intro c hc
    rw [List.head?_append_of_ne_nil _ Nat.toDigits_ne_nil] at hc
    unfold isNumeric
    rw [mem_toDigits (List.mem_of_mem_head? hc), Bool.true_or]

theorem Started.append {s : Text} (h : Started s) (rest : Text) : Started (s ++ rest) := by
  refine ⟨?_, fun c hc => h.2 c ?_⟩
  · rw [List.length_append]
    exact Nat.le_add_right_of_le h.1
  · rwa [List.head?_append_of_ne_nil] at hc
    exact List.ne_nil_of_length_pos (Nat.lt_of_lt_of_le (by decide) h.1)

theorem smallUnit_unit (u : Nat) :
    (smallUnit u).1 ≤ 9 ∧ (∀ c ∈ (smallUnit u).2, isNumeric c = false) ∧
      unitMap (smallUnit u).2 = some (10 ^ (smallUnit u).1) := by
  unfold smallUnit
  split_ifs
  · exact ⟨by decide, by decide, rfl⟩
  · exact ⟨by decide, by decide, rfl⟩
  · exact ⟨by decide, by decide, rfl⟩

theorem smallUnit_ne_nil (u : Nat) : (smallUnit u).2 ≠ [] := by
  unfold smallUnit
  split_ifs <;> exact List.cons_ne_nil _ _

/-- A number of whole units, with something else behind it. -/
theorem components_whole {fuel d v n : Nat} {c : Char} {rest : Text} (hfuel : 0 < fuel)
    (hc : isNumeric c = false) (hunit : unitMap [c] = some n) (hn : 0 < n) (hsmall : n < 2 ^ 53)
    (hrest : ∀ c, rest.head? = some c → isNumeric c = true) (hmax : d + v * n ≤ 2 ^ 63) :
    components fuel d (component v [] [c] ++ rest) = components (fuel - 1) (d + v * n) rest := by
  have hscale : 10 ^ ([] : Text).length * n = n := Nat.one_mul n
  have hvalue : v * n + Nat.ofDigitChars 10 [] 0 * n = v * n := by
    rw [Nat.ofDigitChars_nil, Nat.zero_mul, Nat.add_zero]
  have hnone : ∀ c ∈ ([] : Text), c.isDigit = true := fun _ hc => nomatch hc
  have hstep := components_step (v := v) (u := [c]) (d := d) (m := n) rest hfuel
    hnone (by decide) (fun c' hc' => by rwa [List.mem_singleton.mp hc'])
    (hunit.trans (congrArg some hscale.symm)) hn (by rwa [hscale]) hrest (by rwa [hscale, hvalue])
  rwa [hscale, hvalue] at hstep

/-- **A duration that is not negative** is read as it was written. -/
theorem components_absolute {u : Nat} (hu : u ≤ 2 ^ 63) :
    components (absoluteString u).length 0 (absoluteString u) = some u := by
  unfold absoluteString
  split_ifs with hzero hsecond
  · rw [hzero]
    decide +kernel
  · obtain ⟨hprec, hnumeric, hunit⟩ := smallUnit_unit u
    obtain ⟨hwhole, -⟩ := fmtFrac_nil (smallUnit u).1 u
    have hstarted : Started (component (fmtFrac (smallUnit u).1 u []).1
        (fmtFrac (smallUnit u).1 u []).2 (smallUnit u).2) := started_component (smallUnit_ne_nil u)
    have hlength := hstarted.1
    dsimp only
    rw [components_fraction (by omega) hprec hnumeric hunit]
    · rw [hwhole, Nat.zero_add, Nat.div_add_mod' u]
    · rw [hwhole, Nat.zero_add, Nat.div_add_mod' u]
      exact hu
  · obtain ⟨hwhole, -⟩ := fmtFrac_nil 9 u
    have hseconds := Nat.div_add_mod' u (10 ^ 9)
    dsimp only
    rw [hwhole]
    generalize hw : u / 10 ^ 9 = w at hseconds ⊢
    have hs : Started (component (w % 60) (fmtFrac 9 u []).2 ['s']) :=
      started_component (List.cons_ne_nil _ _)
    have hm : Started (component (w / 60 % 60) [] ['m']) := started_component (List.cons_ne_nil _ _)
    have hh : Started (component (w / 3600) [] ['h']) := started_component (List.cons_ne_nil _ _)
    have hslength := hs.1
    have hmlength := hm.1
    have hhlength := hh.1
    have hparts : w = w / 3600 * 3600 + w / 60 % 60 * 60 + w % 60 := by omega
    have hlast : ∀ fuel d, 0 < fuel → d + (w % 60 * 10 ^ 9 + u % 10 ^ 9) = u →
        components fuel d (component (w % 60) (fmtFrac 9 u []).2 ['s']) = some u := by
      intro fuel d hfuel hd
      rw [components_fraction hfuel (by decide) (by decide) rfl (by rw [hd]; exact hu), hd]
    have hminutes : ∀ fuel d, 1 < fuel → d + w / 60 % 60 * 60000000000 +
        (w % 60 * 10 ^ 9 + u % 10 ^ 9) = u → components fuel d (component (w / 60 % 60) [] ['m'] ++
          component (w % 60) (fmtFrac 9 u []).2 ['s']) = some u := by
      intro fuel d hfuel hd
      rw [components_whole (n := 60000000000) (by omega) (by decide) rfl (by decide) (by norm_num)
        hs.2 (by omega)]
      exact hlast _ _ (by omega) hd
    by_cases hhour : 3600 ≤ w
    · rw [if_pos hhour, if_pos (show 60 ≤ w by omega), List.length_append, List.length_append,
        components_whole (n := 3600000000000) (by omega) (by decide) rfl (by decide) (by norm_num)
          (hm.append _).2 (by omega)]
      exact hminutes _ _ (by omega) (by omega)
    · rw [if_neg hhour, List.nil_append]
      by_cases hminute : 60 ≤ w
      · rw [if_pos hminute, List.length_append]
        exact hminutes _ _ (by omega) (by omega)
      · rw [if_neg hminute, List.nil_append]
        exact hlast _ _ (by omega) (by omega)

theorem started_absoluteString (u : Nat) : Started (absoluteString u) := by
  unfold absoluteString
  split_ifs
  · refine ⟨by decide, fun c hc => ?_⟩
    cases hc
    decide
  · exact started_component (smallUnit_ne_nil u)
  · dsimp only
    split_ifs
    · exact (started_component (List.cons_ne_nil _ _)).append _
    · exact (started_component (List.cons_ne_nil _ _)).append _
    · exact (started_component (List.cons_ne_nil _ _)).append _
    · exact started_component (List.cons_ne_nil _ _)

theorem splitSign_minus (s : Text) : splitSign ('-' :: s) = (true, s) := rfl

theorem splitSign_numeric {s : Text} (hs : ∀ c, s.head? = some c → isNumeric c = true) :
    splitSign s = (false, s) := by
  unfold splitSign
  split
  · cases hs '-' rfl
  · cases hs '+' rfl
  · rfl

section Signed

variable {s : Text} {u : Nat}

theorem Started.ne (hs : Started s) : s ≠ ['0'] ∧ s ≠ [] := by
  constructor <;> rintro rfl <;> exact absurd hs.1 (by decide)

theorem timeParseDuration_positive (hs : Started s) (hread : components s.length 0 s = some u)
    (hu : u < 2 ^ 63) : timeParseDuration s = some (u : Int) := by
  unfold timeParseDuration
  rw [splitSign_numeric hs.2]
  dsimp only
  rw [if_neg hs.ne.1, if_neg hs.ne.2, hread, Option.bind_some, if_neg Bool.false_ne_true, if_pos hu]

theorem timeParseDuration_negative (hs : Started s) (hread : components s.length 0 s = some u) :
    timeParseDuration ('-' :: s) = some (-(u : Int)) := by
  unfold timeParseDuration
  rw [splitSign_minus]
  dsimp only
  rw [if_neg hs.ne.1, if_neg hs.ne.2, hread, Option.bind_some, if_pos rfl]

end Signed

/-- **A duration is read as it was written.** -/
theorem timeParseDuration_durationString {d : Int} (hlow : -2 ^ 63 ≤ d) (hhigh : d < 2 ^ 63) :
    timeParseDuration (durationString d) = some d := by
  have hread := components_absolute (u := d.natAbs) (by omega)
  unfold durationString
  split_ifs with hneg
  · rw [timeParseDuration_negative (started_absoluteString _) hread]
    exact congrArg some (by omega)
  · rw [timeParseDuration_positive (started_absoluteString _) hread (by omega)]
    exact congrArg some (by omega)

end Doenerstag
