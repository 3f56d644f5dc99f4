import Doenerstag.Go.Durations
import Mathlib.Data.Int.ModEq

/-!
# Durations and byte sizes (`internal/config/duration.go`, `bytesize.go`)

* `parseDuration_formatDuration` — **a duration is read as it was written**, but for the least one.
* `parseByteSize_formatByteSize` — **a byte size is read as it was written**, if it is a value of
  floating point.
* `parseByteSize_range` — what is read is such a value, or no size at all.
-/

namespace Doenerstag

open Binary64 (Value)

/-- What is wrong with the text of a setting. -/
inductive ValueError where
  /-- "duration is empty" -/
  | durationEmpty
  /-- "invalid duration … is not a number", with the text and the number in it -/
  | durationNumber (s number : Text)
  /-- "invalid duration …: expected a value such as 30s, 15m, 6h, 7d or 2w" -/
  | durationInvalid (s : Text)
  /-- "byte size is empty" -/
  | sizeEmpty
  /-- "invalid byte size …: no number before the unit" -/
  | sizeNumberless (s : Text)
  /-- "invalid byte size …: expected a value such as 5MiB, 512KB or 1048576" -/
  | sizeInvalid (s : Text)
  /-- "invalid byte size …: must not be negative" -/
  | sizeNegative (s : Text)
  /-- "log level is empty, expected one of …" -/
  | levelEmpty
  /-- "unknown log level …, expected one of …" -/
  | levelUnknown (s : Text)
  deriving DecidableEq

/-- What a function of the library returns, with the error in the words of this one. -/
def orError {α : Type} (e : ValueError) : Option α → Except ValueError α
  | some a => .ok a
  | none => .error e

/-! ## Durations -/

/-- The hours of a day and of a week -/
def hoursPer (unit : Text) : Option ℚ :=
  if unit = ['d'] then some 24 else if unit = ['w'] then some 168 else none

/-- The loop of `expandDayAndWeekUnits`. -/
def expandUnits (whole : Text) : Nat → Text → Except ValueError Text
  | _, [] => .ok []
  | 0, s => .ok s
  | fuel + 1, s => do
    let number := s.takeWhile isNumeric
    -- where no number is, the rest is handed on
    if number = [] then return s
    let rest := s.dropWhile isNumeric
    let unit := rest.takeWhile fun c => !isNumeric c
    let head ← match hoursPer unit with
      | some hours => do
        let v ← orError (.durationNumber whole number) (parseFloat number)
        pure (formatFloat (v.mul (Value.ofRat hours)) ++ ['h'])
      | none => pure (number ++ unit)
    let tail ← expandUnits whole fuel (rest.dropWhile fun c => !isNumeric c)
    return head ++ tail

def expandDayAndWeekUnits (s : Text) : Except ValueError Text :=
  match s with
  | '+' :: rest => ('+' :: ·) <$> expandUnits s rest.length rest
  | '-' :: rest => ('-' :: ·) <$> expandUnits s rest.length rest
  | rest => expandUnits s rest.length rest

/-- `ParseDuration` -/
def parseDuration (s : Text) : Except ValueError Int64 := do
  let trimmed := trim s
  if trimmed = [] then throw .durationEmpty
  let normalised ← expandDayAndWeekUnits trimmed
  let d ← orError (.durationInvalid s) (timeParseDuration normalised)
  return Int64.ofInt d

def durationUnits : List (Int64 × Char) :=
  [(86400000000000, 'd'), (3600000000000, 'h'), (60000000000, 'm'), (1000000000, 's')]

/-- `FormatDuration`, behind the sign -/
def wholeUnits (d : Int64) : Text :=
  match durationUnits.find? fun unit => d % unit.1 = 0 with
  | some (size, suffix) => itoa (d / size).toInt ++ [suffix]
  | none => durationString d.toInt

/-- `FormatDuration` -/
def formatDuration (d : Int64) : Text :=
  if d = 0 then ['0', 's'] else if d < 0 then '-' :: wholeUnits (-d) else wholeUnits d

/-! ### The round trip -/

theorem mem_component {v : Nat} {frac u : Text} (hfrac : ∀ c ∈ frac, c.isDigit = true) {c : Char}
    (hc : c ∈ component v frac u) : c.isDigit = true ∨ c = '.' ∨ c ∈ u := by
  unfold component at hc
  rcases List.mem_append.mp hc with hc | hc
  · exact .inl (mem_toDigits hc)
  rcases List.mem_append.mp hc with hc | hc
  · split_ifs at hc
    · cases hc
    · rcases List.mem_cons.mp hc with rfl | hc
      · exact .inr (.inl rfl)
      · exact .inl (hfrac c hc)
  · exact .inr (.inr hc)

/-- What a duration is written with. -/
def IsDurationChar (c : Char) : Prop := c.isDigit = true ∨ c ∈ ['.', 'n', 's', 'µ', 'm', 'h']

theorem mem_absoluteString {u : Nat} {c : Char} (hc : c ∈ absoluteString u) : IsDurationChar c := by
  have hcomponent : ∀ {v : Nat} {frac unit : Text}, (∀ c ∈ frac, c.isDigit = true) →
      (∀ c ∈ unit, c ∈ ['.', 'n', 's', 'µ', 'm', 'h']) → c ∈ component v frac unit →
      IsDurationChar c := by
    intro v frac unit hfrac hunit hc
    rcases mem_component hfrac hc with hdigit | rfl | hc
    · exact .inl hdigit
    · exact .inr (by decide)
    · exact .inr (hunit c hc)
  have hfrac := fun prec => (fmtFrac_nil prec u).2.1
  unfold absoluteString at hc
  split_ifs at hc
  · rcases List.mem_cons.mp hc with rfl | hc
    · exact .inl (by decide)
    · exact .inr (by rw [List.mem_singleton.mp hc]; decide)
  · refine hcomponent (hfrac _) ?_ hc
    unfold smallUnit
    split_ifs <;> decide
  · dsimp only at hc
    have hnone : ∀ c ∈ ([] : Text), c.isDigit = true := fun _ hc => nomatch hc
    rcases List.mem_append.mp hc with hc | hc
    · split_ifs at hc
      · exact hcomponent hnone (by decide) hc
      · cases hc
    rcases List.mem_append.mp hc with hc | hc
    · split_ifs at hc
      · exact hcomponent hnone (by decide) hc
      · cases hc
    · exact hcomponent (hfrac 9) (by decide) hc

/-- What has no day and no week in it stays as it is. -/
theorem expandUnits_plain {whole : Text} (fuel : Nat) {s : Text} (hs : ∀ c ∈ s, c ≠ 'd' ∧ c ≠ 'w') :
    expandUnits whole fuel s = .ok s := by
  induction fuel generalizing s with
  | zero => cases s <;> rfl
  | succ fuel ih =>
    cases hcons : s with
    | nil => rfl
    | cons c cs =>
      rw [← hcons]
      have hnone : hoursPer ((s.dropWhile isNumeric).takeWhile fun c => !isNumeric c) = none := by
        have hmem : ∀ c ∈ (s.dropWhile isNumeric).takeWhile fun c => !isNumeric c, c ≠ 'd' ∧ c ≠ 'w' :=
          fun c hc => hs c (List.dropWhile_sublist _ |>.subset (List.takeWhile_sublist _ |>.subset hc))
        unfold hoursPer
        rw [if_neg, if_neg]
        · intro heq
          exact (hmem 'w' (heq ▸ List.mem_singleton_self _)).2 rfl
        · intro heq
          exact (hmem 'd' (heq ▸ List.mem_singleton_self _)).1 rfl
      have htail := ih (s := (s.dropWhile isNumeric).dropWhile fun c => !isNumeric c) fun c hc =>
        hs c (List.dropWhile_sublist _ |>.subset (List.dropWhile_sublist _ |>.subset hc))
      rw [expandUnits]
      · dsimp only
        split_ifs
        · rfl
        · rw [hnone, htail]
          show Except.ok _ = Except.ok _
          rw [List.append_assoc, List.takeWhile_append_dropWhile, List.takeWhile_append_dropWhile]
      · rw [hcons]
        exact fun h => nomatch h

theorem expandUnits_nil (whole : Text) (fuel : Nat) : expandUnits whole fuel [] = .ok [] := by
  cases fuel <;> rfl

theorem expandDayAndWeekUnits_numeric {s : Text} (hs : ∀ c, s.head? = some c → isNumeric c = true) :
    expandDayAndWeekUnits s = expandUnits s s.length s := by
  unfold expandDayAndWeekUnits
  split
  · cases hs '+' rfl
  · cases hs '-' rfl
  · rfl

/-- Days are read as hours. -/
theorem expandUnits_days {whole : Text} {fuel k : Nat} (hfuel : 0 < fuel) (hk : k < 10 ^ 13) :
    expandUnits whole fuel (component k [] ['d']) = .ok (component (k * 24) [] ['h']) := by
  obtain ⟨fuel, rfl⟩ := Nat.exists_eq_add_of_lt hfuel
  have hnumeric : ∀ c ∈ Nat.toDigits 10 k, isNumeric c = true := fun c hc => by
    unfold isNumeric
    rw [mem_toDigits hc, Bool.true_or]
  have htext : component k [] ['d'] = Nat.toDigits 10 k ++ ['d'] := rfl
  have htake : (component k [] ['d']).takeWhile isNumeric = Nat.toDigits 10 k := by
    rw [htext, List.takeWhile_append_of_pos hnumeric, List.takeWhile_cons_of_neg (by decide),
      List.append_nil]
  have hdrop : (component k [] ['d']).dropWhile isNumeric = ['d'] := by
    rw [htext, List.dropWhile_append_of_pos hnumeric]
    rfl
  obtain ⟨exact, hvalue⟩ := Value.ofRat_natCast (n := k) (by omega)
  obtain ⟨exact', hproduct⟩ := Value.ofRat_natCast (n := k * 24) (by omega)
  obtain ⟨exact'', hhours⟩ := Value.ofRat_natCast (n := 24) (by norm_num)
  have hmul : (Value.finite (k : ℚ) exact).mul (Value.ofRat 24) = .finite ((k * 24 : ℕ) : ℚ) exact' := by
    rw [← hproduct, show (24 : ℚ) = ((24 : ℕ) : ℚ) by norm_num, hhours]
    show Value.ofRat ((k : ℚ) * ((24 : ℕ) : ℚ)) = _
    rw [← Nat.cast_mul]
  rw [expandUnits]
  · dsimp only
    have hunit : hoursPer ((['d'] : Text).takeWhile fun c => !isNumeric c) = some 24 := by
      decide +kernel
    have hrest : ((['d'] : Text).dropWhile fun c => !isNumeric c) = [] := by decide
    rw [htake, hdrop, if_neg Nat.toDigits_ne_nil, hunit, parseFloat_toDigits hvalue, hrest,
      expandUnits_nil]
    show Except.ok (formatFloat ((Value.finite (k : ℚ) exact).mul (Value.ofRat 24)) ++ ['h'] ++ []) = _
    rw [hmul, formatFloat_natCast (by omega), List.append_nil]
    rfl
  · exact fun h => Nat.toDigits_ne_nil (List.append_eq_nil_iff.mp h).1

/-- `FormatDuration`, of a duration that is positive. -/
def durationText (u : Nat) : Text :=
  if u % 86400000000000 = 0 then component (u / 86400000000000) [] ['d']
  else if u % 3600000000000 = 0 then component (u / 3600000000000) [] ['h']
  else if u % 60000000000 = 0 then component (u / 60000000000) [] ['m']
  else if u % 1000000000 = 0 then component (u / 1000000000) [] ['s']
  else absoluteString u

section Int64

variable {d size : Int64} {u n : Nat}

theorem mod_eq_zero_iff (hd : d.toInt = u) (hsize : size.toInt = n) : d % size = 0 ↔ u % n = 0 := by
  rw [← Int64.toInt_inj, Int64.toInt_mod, hd, hsize, Int64.toInt_zero, ← Int.ofNat_tmod]
  omega

theorem toInt_div_natCast (hd : d.toInt = u) (hsize : size.toInt = n) :
    (d / size).toInt = ((u / n : Nat) : Int) := by
  have hne : size ≠ -1 := by
    rintro rfl
    have hneg : (-1 : Int64).toInt = -1 := by decide
    omega
  rw [Int64.toInt_div_of_ne_right _ _ hne, hd, hsize, ← Int.ofNat_tdiv]

end Int64

theorem wholeUnits_eq {d : Int64} {u : Nat} (hd : d.toInt = u) : wholeUnits d = durationText u := by
  have hday : (86400000000000 : Int64).toInt = ((86400000000000 : Nat) : Int) := by decide
  have hhour : (3600000000000 : Int64).toInt = ((3600000000000 : Nat) : Int) := by decide
  have hminute : (60000000000 : Int64).toInt = ((60000000000 : Nat) : Int) := by decide
  have hsecond : (1000000000 : Int64).toInt = ((1000000000 : Nat) : Int) := by decide
  unfold wholeUnits durationUnits durationText
  simp only [List.find?_cons, List.find?_nil, mod_eq_zero_iff hd hday, mod_eq_zero_iff hd hhour,
    mod_eq_zero_iff hd hminute, mod_eq_zero_iff hd hsecond]
  by_cases h1 : u % 86400000000000 = 0
  · simp only [h1, decide_true, if_true]
    rw [toInt_div_natCast hd hday, itoa_natCast]
    rfl
  by_cases h2 : u % 3600000000000 = 0
  · simp only [h1, h2, decide_true, decide_false, if_true, if_false]
    rw [toInt_div_natCast hd hhour, itoa_natCast]
    rfl
  by_cases h3 : u % 60000000000 = 0
  · simp only [h1, h2, h3, decide_true, decide_false, if_true, if_false]
    rw [toInt_div_natCast hd hminute, itoa_natCast]
    rfl
  by_cases h4 : u % 1000000000 = 0
  · simp only [h1, h2, h3, h4, decide_true, decide_false, if_true, if_false]
    rw [toInt_div_natCast hd hsecond, itoa_natCast]
    rfl
  · simp only [h1, h2, h3, h4, decide_false, if_false]
    unfold durationString
    rw [hd, if_neg (by omega), Int.natAbs_natCast]

theorem formatDuration_eq {d : Int64} (hzero : d ≠ 0) (hmin : d ≠ Int64.minValue) :
    formatDuration d =
      if d < 0 then '-' :: durationText d.toInt.natAbs else durationText d.toInt.natAbs := by
  have hrange : -2 ^ 63 < d.toInt := by
    have hle := Int64.le_toInt d
    have hne : d.toInt ≠ -2 ^ 63 := fun h => hmin (Int64.toInt_inj.mp (h.trans Int64.toInt_minValue.symm))
    omega
  have hhigh := Int64.toInt_lt d
  have hneg : d < 0 ↔ d.toInt < 0 := Int64.lt_iff_toInt_lt
  unfold formatDuration
  rw [if_neg hzero]
  split_ifs with hnegative
  · rw [wholeUnits_eq]
    have hlow := hneg.mp hnegative
    rw [Int64.toInt_neg, Int.bmod_eq_of_le (by omega) (by omega)]
    omega
  · rw [wholeUnits_eq]
    have hlow : ¬ d.toInt < 0 := fun h => hnegative (hneg.mpr h)
    omega

/-- Whole units, or what `time` writes, are read in full. -/
theorem expand_durationText (whole : Text) {u : Nat} (hpos : 0 < u) (hu : u < 2 ^ 63) :
    ∃ t, expandUnits whole (durationText u).length (durationText u) = .ok t ∧ Started t ∧
      components t.length 0 t = some u := by
  have hwhole : ∀ {k n : Nat} {c : Char}, isNumeric c = false → unitMap [c] = some n → 0 < n →
      n < 2 ^ 53 → k * n = u → components (component k [] [c]).length 0 (component k [] [c]) = some u := by
    intro k n c hc hunit hn hsmall hk
    have hstarted : Started (component k [] [c]) := started_component (List.cons_ne_nil _ _)
    have hlength := hstarted.1
    have hend : ∀ c, ([] : Text).head? = some c → isNumeric c = true := fun _ hc => nomatch hc
    have hfuel : 0 < (component k [] [c]).length := by omega
    have hstep := components_whole (v := k) (d := 0) hfuel hc hunit hn hsmall hend (by omega)
    rw [List.append_nil, hk, Nat.zero_add] at hstep
    rw [hstep, components]
  have hplain : ∀ {k : Nat} {c : Char}, c ≠ 'd' → c ≠ 'w' → ∀ c' ∈ component k [] [c],
      c' ≠ 'd' ∧ c' ≠ 'w' := by
    intro k c hd hw c' hc'
    rcases mem_component (fun c hc => by cases hc) hc' with hdigit | rfl | hc'
    · exact ⟨fun h => (by rw [h] at hdigit; cases hdigit), fun h => (by rw [h] at hdigit; cases hdigit)⟩
    · decide
    · rw [List.mem_singleton.mp hc']
      exact ⟨hd, hw⟩
  have hstart : ∀ {k : Nat} {c : Char}, Started (component k [] [c]) :=
    started_component (List.cons_ne_nil _ _)
  unfold durationText
  split_ifs with h1 h2 h3 h4
  · refine ⟨component (u / 86400000000000 * 24) [] ['h'], expandUnits_days ?_ (by omega), hstart, ?_⟩
    · exact Nat.lt_of_lt_of_le (by decide) hstart.1
    · exact hwhole (n := 3600000000000) (by decide) rfl (by decide) (by norm_num) (by omega)
  · refine ⟨_, expandUnits_plain _ (hplain (by decide) (by decide)), hstart, ?_⟩
    exact hwhole (n := 3600000000000) (by decide) rfl (by decide) (by norm_num) (by omega)
  · refine ⟨_, expandUnits_plain _ (hplain (by decide) (by decide)), hstart, ?_⟩
    exact hwhole (n := 60000000000) (by decide) rfl (by decide) (by norm_num) (by omega)
  · refine ⟨_, expandUnits_plain _ (hplain (by decide) (by decide)), hstart, ?_⟩
    exact hwhole (n := 1000000000) (by decide) rfl (by decide) (by norm_num) (by omega)
  · refine ⟨_, expandUnits_plain _ fun c hc => ?_, started_absoluteString u,
      components_absolute (by omega)⟩
    rcases mem_absoluteString hc with hdigit | hmem
    · exact ⟨fun h => (by rw [h] at hdigit; cases hdigit), fun h => (by rw [h] at hdigit; cases hdigit)⟩
    · exact ⟨fun h => (by rw [h] at hmem; exact absurd hmem (by decide)),
        fun h => (by rw [h] at hmem; exact absurd hmem (by decide))⟩

theorem started_durationText (u : Nat) : Started (durationText u) := by
  unfold durationText
  split_ifs
  · exact started_component (List.cons_ne_nil _ _)
  · exact started_component (List.cons_ne_nil _ _)
  · exact started_component (List.cons_ne_nil _ _)
  · exact started_component (List.cons_ne_nil _ _)
  · exact started_absoluteString u

/-- What a duration is written with. -/
theorem mem_formatDuration {d : Int64} (hzero : d ≠ 0) (hmin : d ≠ Int64.minValue) {c : Char}
    (hc : c ∈ formatDuration d) :
    c.isDigit = true ∨ c ∈ ['.', 'n', 's', 'µ', 'm', 'h', 'd', '-'] := by
  have hcomponent : ∀ {k : Nat} {unit : Char}, unit ∈ ['.', 'n', 's', 'µ', 'm', 'h', 'd', '-'] →
      c ∈ component k [] [unit] → c.isDigit = true ∨ c ∈ ['.', 'n', 's', 'µ', 'm', 'h', 'd', '-'] := by
    intro k unit hunit hc
    rcases mem_component (fun c hc => by cases hc) hc with hdigit | rfl | hc
    · exact .inl hdigit
    · exact .inr (by decide)
    · exact .inr (List.mem_singleton.mp hc ▸ hunit)
  have htext : c ∈ durationText d.toInt.natAbs →
      c.isDigit = true ∨ c ∈ ['.', 'n', 's', 'µ', 'm', 'h', 'd', '-'] := by
    intro hc
    unfold durationText at hc
    split_ifs at hc
    · exact hcomponent (by decide) hc
    · exact hcomponent (by decide) hc
    · exact hcomponent (by decide) hc
    · exact hcomponent (by decide) hc
    · exact (mem_absoluteString hc).imp_right fun hmem => List.mem_append_left ['d', '-'] hmem
  rw [formatDuration_eq hzero hmin] at hc
  split_ifs at hc
  · rcases List.mem_cons.mp hc with rfl | hc
    · exact .inr (by decide)
    · exact htext hc
  · exact htext hc

/-- **A duration is read as it was written**, but for the least one. -/
theorem parseDuration_formatDuration {d : Int64} (hmin : d ≠ Int64.minValue) :
    parseDuration (formatDuration d) = .ok d := by
  by_cases hzero : d = 0
  · rw [hzero]
    decide +kernel
  have hhigh := Int64.toInt_lt d
  have hlow := Int64.le_toInt d
  have hne : d.toInt ≠ 0 := fun h => hzero (Int64.toInt_inj.mp (h.trans Int64.toInt_zero.symm))
  have hnemin : d.toInt ≠ -2 ^ 63 := fun h =>
    hmin (Int64.toInt_inj.mp (h.trans Int64.toInt_minValue.symm))
  have hletters : ∀ c ∈ ['.', 'n', 's', 'µ', 'm', 'h', 'd', '-'], isSpace c = false := by decide
  have hsolid : Solid (formatDuration d) := by
    refine solid_of_forall ?_ fun c hc => ?_
    · rw [formatDuration_eq hzero hmin]
      split_ifs
      · exact List.cons_ne_nil _ _
      · exact (started_durationText _).ne.2
    · exact (mem_formatDuration hzero hmin hc).elim isSpace_of_isDigit (hletters c)
  obtain ⟨t, hexpand, hstart, hread⟩ :=
    expand_durationText (formatDuration d) (u := d.toInt.natAbs) (by omega) (by omega)
  have hparse : ∀ t' : Text, expandDayAndWeekUnits (formatDuration d) = .ok t' →
      timeParseDuration t' = some d.toInt → parseDuration (formatDuration d) = .ok d := by
    intro t' ht' hd
    unfold parseDuration
    rw [hsolid.trim]
    dsimp only
    rw [if_neg hsolid.nonempty, ht']
    show orError _ (timeParseDuration t') >>= _ = _
    rw [hd]
    exact congrArg Except.ok (Int64.ofInt_toInt d)
  have hneg : d < 0 ↔ d.toInt < 0 := Int64.lt_iff_toInt_lt
  by_cases hnegative : d < 0
  · have htext : formatDuration d = '-' :: durationText d.toInt.natAbs := by
      rw [formatDuration_eq hzero hmin, if_pos hnegative]
    refine hparse ('-' :: t) ?_ ?_
    · rw [htext] at hexpand ⊢
      rw [expandDayAndWeekUnits, hexpand]
      rfl
    · rw [timeParseDuration_negative hstart hread]
      have hlow := hneg.mp hnegative
      exact congrArg some (by omega)
  · have htext : formatDuration d = durationText d.toInt.natAbs := by
      rw [formatDuration_eq hzero hmin, if_neg hnegative]
    refine hparse t ?_ ?_
    · rw [htext] at hexpand ⊢
      rw [expandDayAndWeekUnits_numeric (started_durationText _).2, hexpand]
    · rw [timeParseDuration_positive hstart hread (by omega)]
      have hlow : ¬ d.toInt < 0 := fun h => hnegative (hneg.mpr h)
      exact congrArg some (by omega)

/-- The least duration gets two signs. -/
theorem parseDuration_minValue : parseDuration (formatDuration Int64.minValue) =
    .error (.durationInvalid (formatDuration Int64.minValue)) := by
  decide +kernel

/-- **A duration is read as it was written if and only if** it is not the least one. -/
theorem durationText_read_iff (d : Int64) :
    parseDuration (formatDuration d) = .ok d ↔ d ≠ Int64.minValue := by
  constructor
  · rintro hread rfl
    rw [parseDuration_minValue] at hread
    cases hread
  · exact parseDuration_formatDuration

/-- The negation of the least duration is the least duration again. -/
theorem leastDuration_unread : ¬ ∀ d : Int64, parseDuration (formatDuration d) = .ok d := by
  intro hread
  have hleast := hread Int64.minValue
  rw [parseDuration_minValue] at hleast
  cases hleast

/-! ## Byte sizes -/

/-- The processors the program is built for. They convert a float that no `int64` is in their own
ways. -/
inductive Arch where
  | amd64
  | arm64
  deriving DecidableEq, Repr

def Arch.saturate : Arch → Value → Int64
  | .amd64, _ => Int64.minValue
  | .arm64, .nan => 0
  | .arm64, .infinite negative => if negative then Int64.minValue else Int64.maxValue
  | .arm64, .finite x _ => if x < 0 then Int64.minValue else Int64.maxValue

/-- `int64` of a float: towards zero, where an `int64` is there. -/
def Arch.toInt64 (arch : Arch) : Value → Int64
  | .finite x exact =>
    if -2 ^ 63 ≤ Binary64.truncate x ∧ Binary64.truncate x < 2 ^ 63 then
      Int64.ofInt (Binary64.truncate x)
    else
      arch.saturate (.finite x exact)
  | v => arch.saturate v

/-- `byteUnits`, the longest suffixes first -/
def byteUnits : List (Text × ℚ) :=
  [("KIB".toList, 1024), ("MIB".toList, 1048576), ("GIB".toList, 1073741824),
    ("KB".toList, 1000), ("MB".toList, 1000000), ("GB".toList, 1000000000),
    ("K".toList, 1000), ("M".toList, 1000000), ("G".toList, 1000000000), ("B".toList, 1)]

/-- `unicode.ToUpper`, of the characters that become a letter of ASCII. -/
def toUpper (c : Char) : Char := if c = 'ı' then 'I' else if c = 'ſ' then 'S' else c.toUpper

/-- What stands before a suffix. -/
def trimSuffix (s suffix : Text) : Option Text :=
  if suffix.isSuffixOf s then some (s.take (s.length - suffix.length)) else none

/-- The number, and the factor of the first unit that is behind it. -/
def splitUnit (upper : Text) : Text × ℚ :=
  (byteUnits.findSome? fun unit => (trimSuffix upper unit.1).map fun s => (trim s, unit.2)).getD
    (upper, 1)

/-- `ParseByteSize` -/
def parseByteSize (arch : Arch) (s : Text) : Except ValueError Int64 := do
  let trimmed := trim s
  if trimmed = [] then throw .sizeEmpty
  let (numeric, factor) := splitUnit (trimmed.map toUpper)
  if numeric = [] then throw (.sizeNumberless s)
  let value ← orError (.sizeInvalid s) (parseFloat numeric)
  if value.isNegative then throw (.sizeNegative s)
  return arch.toInt64 (value.mul (Value.ofRat factor))

def sizeUnits : List (Text × Int64) :=
  [("GiB".toList, 1073741824), ("MiB".toList, 1048576), ("KiB".toList, 1024)]

/-- `FormatByteSize` -/
def formatByteSize (n : Int64) : Text :=
  if n < 0 then itoa n.toInt
  else match sizeUnits.find? fun unit => decide (unit.2 ≤ n ∧ n % unit.2 = 0) with
    | some (suffix, factor) => itoa (n / factor).toInt ++ suffix
    | none => itoa n.toInt

/-! ### The round trip -/

/-- A size that is not negative is a value, or the largest one on the processors that saturate. -/
theorem toInt64_range {arch : Arch} {v : Value} (hpos : 0 ≤ (arch.toInt64 v).toInt) :
    Binary64.Representable ((arch.toInt64 v).toInt : ℚ) ∨
      arch = .arm64 ∧ arch.toInt64 v = Int64.maxValue := by
  have hsaturate : 0 ≤ (arch.saturate v).toInt →
      Binary64.Representable ((arch.saturate v).toInt : ℚ) ∨
        arch = .arm64 ∧ arch.saturate v = Int64.maxValue := by
    intro hpos
    cases arch with
    | amd64 =>
      rw [Arch.saturate] at hpos
      exact absurd hpos (by decide)
    | arm64 =>
      cases v with
      | nan => exact .inl (by exact_mod_cast Binary64.representable_intCast (n := 0) (by norm_num))
      | infinite negative =>
        cases negative with
        | true => exact absurd hpos (by decide)
        | false => exact .inr ⟨rfl, rfl⟩
      | finite x exact =>
        by_cases hneg : x < 0
        · rw [Arch.saturate, if_pos hneg] at hpos
          exact absurd hpos (by decide)
        · rw [Arch.saturate, if_neg hneg]
          exact .inr ⟨rfl, rfl⟩
  cases v with
  | finite x exact =>
    unfold Arch.toInt64 at hpos ⊢
    dsimp only at hpos ⊢
    split_ifs at hpos ⊢ with hrange
    · rw [Int64.toInt_ofInt_of_le hrange.1 hrange.2]
      exact .inl (Binary64.representable_truncate exact)
    · exact hsaturate hpos
  | infinite negative => exact hsaturate hpos
  | nan => exact hsaturate hpos

theorem parseByteSize_eq {arch : Arch} {s numeric : Text} {factor : ℚ} {value : Value} (hs : Solid s)
    (hsplit : splitUnit (s.map toUpper) = (numeric, factor)) (hne : numeric ≠ [])
    (hvalue : parseFloat numeric = some value) (hpos : value.isNegative = false) :
    parseByteSize arch s = .ok (arch.toInt64 (value.mul (Value.ofRat factor))) := by
  unfold parseByteSize
  rw [hs.trim]
  dsimp only
  rw [if_neg hs.nonempty, hsplit]
  dsimp only
  rw [if_neg hne, hvalue]
  show (if value.isNegative = true then _ else _) = _
  rw [hpos]
  rfl

theorem parseByteSize_negative {arch : Arch} {s numeric : Text} {factor : ℚ} {value : Value}
    (hs : Solid s) (hsplit : splitUnit (s.map toUpper) = (numeric, factor)) (hne : numeric ≠ [])
    (hvalue : parseFloat numeric = some value) (hneg : value.isNegative = true) :
    parseByteSize arch s = .error (.sizeNegative s) := by
  unfold parseByteSize
  rw [hs.trim]
  dsimp only
  rw [if_neg hs.nonempty, hsplit]
  dsimp only
  rw [if_neg hne, hvalue]
  show (if value.isNegative = true then _ else _) = _
  rw [hneg]
  rfl

section Suffix

variable {ds suffix suffix' : Text}

theorem trimSuffix_append : trimSuffix (ds ++ suffix) suffix = some ds := by
  have hsuffix : suffix.isSuffixOf (ds ++ suffix) = true :=
    List.isSuffixOf_iff_suffix.mpr (List.suffix_append ds suffix)
  unfold trimSuffix
  rw [if_pos hsuffix, List.length_append, Nat.add_sub_cancel, List.take_left]

/-- Another suffix of the same length is not there. -/
theorem trimSuffix_other (hlength : suffix'.length = suffix.length) (hne : suffix' ≠ suffix) :
    trimSuffix (ds ++ suffix) suffix' = none := by
  unfold trimSuffix
  rw [if_neg]
  intro hsuffix
  have hother := List.isSuffixOf_iff_suffix.mp hsuffix
  have hle := List.suffix_of_suffix_length_le hother (List.suffix_append ds suffix) hlength.le
  exact hne (hle.eq_of_length hlength)

/-- A suffix is not there without each of its characters. -/
theorem trimSuffix_absent {c : Char} (hc : c ∈ suffix) (habsent : c ∉ ds) :
    trimSuffix ds suffix = none := by
  unfold trimSuffix
  rw [if_neg]
  intro hsuffix
  exact habsent ((List.isSuffixOf_iff_suffix.mp hsuffix).subset hc)

end Suffix

theorem toUpper_digits {ds : Text} (hds : ∀ c ∈ ds, c.isDigit = true) : ds.map toUpper = ds := by
  refine (List.map_congr_left fun c hc => ?_).trans (List.map_id ds)
  exact forall_digit (P := fun c => toUpper c = c) (by decide) (hds c hc)

/-- Without the last letter of a unit there is none. -/
theorem splitUnit_none {s : Text} (hs : ∀ c ∈ s, c.isDigit = true ∨ c = '-') :
    splitUnit s = (s, 1) := by
  have hletter : ∀ unit ∈ byteUnits, ∃ c ∈ unit.1, c.isDigit = false ∧ c ≠ '-' := by decide +kernel
  have hnone : (byteUnits.findSome? fun unit =>
      (trimSuffix s unit.1).map fun s => (trim s, unit.2)) = none := by
    rw [List.findSome?_eq_none_iff]
    intro unit hunit
    obtain ⟨c, hc, hdigit, hminus⟩ := hletter unit hunit
    rw [trimSuffix_absent hc, Option.map_none]
    intro hmem
    rcases hs c hmem with h | h
    · rw [hdigit] at h
      cases h
    · exact hminus h
  unfold splitUnit
  rw [hnone]
  rfl

/-- The units in which a size is written are found again. -/
theorem splitUnit_digits {ds : Text} (hds : ∀ c ∈ ds, c.isDigit = true) (hne : ds ≠ []) :
    splitUnit (ds.map toUpper) = (ds, 1) ∧
      splitUnit ((ds ++ "KiB".toList).map toUpper) = (ds, 1024) ∧
      splitUnit ((ds ++ "MiB".toList).map toUpper) = (ds, 1048576) ∧
      splitUnit ((ds ++ "GiB".toList).map toUpper) = (ds, 1073741824) := by
  have htrim : trim ds = ds :=
    (solid_of_forall hne fun c hc => isSpace_of_isDigit (hds c hc)).trim
  have hK : ("KiB".toList).map toUpper = "KIB".toList := by decide
  have hM : ("MiB".toList).map toUpper = "MIB".toList := by decide
  have hG : ("GiB".toList).map toUpper = "GIB".toList := by decide
  have hunits : ∀ s : Text, splitUnit s = ((
      ((trimSuffix s "KIB".toList).map fun s => (trim s, (1024 : ℚ))) <|>
      ((trimSuffix s "MIB".toList).map fun s => (trim s, (1048576 : ℚ))) <|>
      ((trimSuffix s "GIB".toList).map fun s => (trim s, (1073741824 : ℚ))) <|>
      (byteUnits.drop 3).findSome? fun unit => (trimSuffix s unit.1).map fun s => (trim s, unit.2)).getD
        (s, 1)) := by
    intro s
    unfold splitUnit byteUnits
    simp only [List.findSome?_cons]
    cases (trimSuffix s "KIB".toList) <;> cases (trimSuffix s "MIB".toList) <;>
      cases (trimSuffix s "GIB".toList) <;> rfl
  simp only [List.map_append, toUpper_digits hds, hK, hM, hG]
  refine ⟨?_, ?_, ?_, ?_⟩
  · exact splitUnit_none fun c hc => .inl (hds c hc)
  · rw [hunits, trimSuffix_append, Option.map_some, htrim]
    rfl
  · rw [hunits, trimSuffix_other (by decide) (by decide), trimSuffix_append, Option.map_some, htrim]
    rfl
  · rw [hunits, trimSuffix_other (by decide) (by decide),
      trimSuffix_other (by decide) (by decide), trimSuffix_append,
      Option.map_some, htrim]
    rfl

/-- A size that is not negative is written as a number and a unit. -/
theorem formatByteSize_form {n : Int64} {u : Nat} (hn : n.toInt = u) :
    ∃ (k f : Nat) (suffix : Text), formatByteSize n = Nat.toDigits 10 k ++ suffix ∧
      splitUnit ((Nat.toDigits 10 k ++ suffix).map toUpper) = (Nat.toDigits 10 k, (f : ℚ)) ∧
      (∀ c ∈ suffix, c ∈ ['G', 'M', 'K', 'i', 'B']) ∧ k * f = u ∧ 0 < f ∧ f < 2 ^ 53 ∧
      (f = 1 ∨ k < 2 ^ 53) := by
  have hmax := Int64.toInt_lt n
  have hneg : ¬ n < 0 := by
    rw [Int64.lt_iff_toInt_lt, Int64.toInt_zero]
    omega
  have hgib : (1073741824 : Int64).toInt = ((1073741824 : Nat) : Int) := by decide
  have hmib : (1048576 : Int64).toInt = ((1048576 : Nat) : Int) := by decide
  have hkib : (1024 : Int64).toInt = ((1024 : Nat) : Int) := by decide
  have hds : ∀ k, ∀ c ∈ Nat.toDigits 10 k, c.isDigit = true := fun k c hc => mem_toDigits hc
  have hsplit := fun k => splitUnit_digits (hds k) Nat.toDigits_ne_nil
  unfold formatByteSize sizeUnits
  rw [if_neg hneg]
  simp only [List.find?_cons, List.find?_nil, mod_eq_zero_iff hn hgib, mod_eq_zero_iff hn hmib,
    mod_eq_zero_iff hn hkib]
  by_cases hg : (1073741824 : Int64) ≤ n ∧ u % 1073741824 = 0
  · refine ⟨u / 1073741824, 1073741824, "GiB".toList, ?_, ?_, by decide, by omega, by norm_num,
      by norm_num, .inr (by omega)⟩
    · simp only [hg, decide_true, and_self]
      rw [toInt_div_natCast hn hgib, itoa_natCast]
    · exact_mod_cast (hsplit _).2.2.2
  by_cases hm : (1048576 : Int64) ≤ n ∧ u % 1048576 = 0
  · refine ⟨u / 1048576, 1048576, "MiB".toList, ?_, ?_, by decide, by omega, by norm_num,
      by norm_num, .inr (by omega)⟩
    · simp only [hg, hm, decide_true, decide_false, and_self]
      rw [toInt_div_natCast hn hmib, itoa_natCast]
    · exact_mod_cast (hsplit _).2.2.1
  by_cases hk : (1024 : Int64) ≤ n ∧ u % 1024 = 0
  · refine ⟨u / 1024, 1024, "KiB".toList, ?_, ?_, by decide, by omega, by norm_num,
      by norm_num, .inr (by omega)⟩
    · simp only [hg, hm, hk, decide_true, decide_false, and_self]
      rw [toInt_div_natCast hn hkib, itoa_natCast]
    · exact_mod_cast (hsplit _).2.1
  · refine ⟨u, 1, [], ?_, ?_, fun _ hc => (nomatch hc), Nat.mul_one u, by norm_num, by norm_num,
      .inl rfl⟩
    · simp only [hg, hm, hk, decide_false]
      rw [hn, itoa_natCast, List.append_nil]
    · rw [List.append_nil]
      exact_mod_cast (hsplit _).1

/-- The largest `int64` is read as the value above it. -/
theorem ofRat_maxValue :
    ∃ exact, Value.ofRat ((9223372036854775807 : ℕ) : ℚ) = .finite 9223372036854775808 exact := by
  have hlog : Int.log 2 |((9223372036854775807 : ℕ) : ℚ)| = 62 := by
    rw [Nat.abs_cast, Int.log_natCast]
    exact congrArg Int.ofNat (Nat.log_eq_of_pow_le_of_lt_pow (by norm_num) (by norm_num))
  have hlast : Binary64.lastBit ((9223372036854775807 : ℕ) : ℚ) = 10 := by
    unfold Binary64.lastBit
    rw [hlog]
    rfl
  have hfloor : ⌊((9223372036854775807 : ℕ) : ℚ) / 2 ^ (10 : ℤ)⌋ = 9007199254740991 := by
    rw [Int.floor_eq_iff]
    norm_num
  have hnearest : Binary64.nearest ((9223372036854775807 : ℕ) : ℚ) = 9223372036854775808 := by
    unfold Binary64.nearest Binary64.roundEven
    rw [hlast, hfloor]
    norm_num
  have hrep := Binary64.representable_nearest ((9223372036854775807 : ℕ) : ℚ)
  rw [hnearest] at hrep
  refine ⟨hrep, ?_⟩
  unfold Value.ofRat
  simp only [hnearest]
  rw [if_pos]
  have hpow : (9223372036854775808 : ℚ) = 2 ^ 63 := by norm_num
  rw [abs_of_pos (by norm_num), hpow]
  exact pow_lt_pow_right₀ (by norm_num) (by norm_num)

/-- **A byte size is read as it was written**, if it is one that is read at all. -/
theorem parseByteSize_formatByteSize {arch : Arch} {v : Value}
    (hpos : 0 ≤ (arch.toInt64 v).toInt) :
    parseByteSize arch (formatByteSize (arch.toInt64 v)) = .ok (arch.toInt64 v) := by
  obtain ⟨u, hu⟩ := Int.eq_ofNat_of_zero_le hpos
  have hrange := toInt64_range hpos
  generalize arch.toInt64 v = n at hu hrange
  have hmax := Int64.toInt_lt n
  rcases hrange with hrep | ⟨rfl, rfl⟩
  · obtain ⟨k, f, suffix, htext, hsplit, hsuffix, hkf, hf, hfsmall, hk⟩ := formatByteSize_form hu
    have hletters : ∀ c ∈ ['G', 'M', 'K', 'i', 'B'], isSpace c = false := by decide
    have hsolid : Solid (Nat.toDigits 10 k ++ suffix) := by
      refine solid_of_forall (List.append_ne_nil_of_left_ne_nil Nat.toDigits_ne_nil _) fun c hc => ?_
      rcases List.mem_append.mp hc with hc | hc
      · exact isSpace_of_isDigit (mem_toDigits hc)
      · exact hletters c (hsuffix c hc)
    have hrep : Binary64.Representable (u : ℚ) := by
      rw [hu] at hrep
      exact_mod_cast hrep
    have hlimit : |(u : ℚ)| < Binary64.limit := by
      have hlt : (u : ℚ) < 2 ^ 63 := by
        have hlt : u < 2 ^ 63 := by omega
        exact_mod_cast hlt
      rw [Nat.abs_cast]
      exact lt_trans hlt (pow_lt_pow_right₀ (by norm_num) (by norm_num))
    obtain ⟨exact, hvalue⟩ : ∃ exact, Value.ofRat (k : ℚ) = .finite (k : ℚ) exact := by
      rcases hk with rfl | hk
      · rw [Nat.mul_one] at hkf
        rw [hkf]
        exact ⟨hrep, Value.ofRat_representable hrep hlimit⟩
      · exact Value.ofRat_natCast hk
    obtain ⟨exact', hfactor⟩ := Value.ofRat_natCast hfsmall
    have hproduct : (Value.finite (k : ℚ) exact).mul (Value.ofRat (f : ℚ)) = .finite (u : ℚ) hrep := by
      rw [hfactor]
      show Value.ofRat ((k : ℚ) * (f : ℚ)) = _
      rw [← Nat.cast_mul, hkf]
      exact Value.ofRat_representable hrep hlimit
    have hpositive : (Value.finite (k : ℚ) exact).isNegative = false :=
      decide_eq_false (not_lt.mpr (Nat.cast_nonneg k))
    rw [htext, parseByteSize_eq hsolid hsplit Nat.toDigits_ne_nil (parseFloat_toDigits hvalue) hpositive,
      hproduct]
    have htruncate : Binary64.truncate (u : ℚ) = u := by
      unfold Binary64.truncate
      rw [Int.ceil_natCast, Int.floor_natCast, ite_self]
    unfold Arch.toInt64
    dsimp only
    rw [htruncate, if_pos (by omega), ← hu, Int64.ofInt_toInt]
  · have htext : formatByteSize Int64.maxValue = Nat.toDigits 10 9223372036854775807 := by
      decide +kernel
    have hds : ∀ c ∈ Nat.toDigits 10 9223372036854775807, c.isDigit = true := fun c hc => mem_toDigits hc
    have hsolid : Solid (Nat.toDigits 10 9223372036854775807) :=
      solid_of_forall Nat.toDigits_ne_nil fun c hc => isSpace_of_isDigit (hds c hc)
    obtain ⟨exact, hvalue⟩ := ofRat_maxValue
    obtain ⟨exact', hone⟩ := Value.ofRat_natCast (n := 1) (by norm_num)
    have hpositive : (Value.finite 9223372036854775808 exact).isNegative = false := by
      unfold Value.isNegative
      exact decide_eq_false (by norm_num)
    have hproduct : (Value.finite 9223372036854775808 exact).mul (Value.ofRat 1) =
        .finite 9223372036854775808 exact := by
      rw [show (1 : ℚ) = ((1 : ℕ) : ℚ) by norm_num, hone]
      show Value.ofRat (9223372036854775808 * ((1 : ℕ) : ℚ)) = _
      rw [Nat.cast_one, mul_one]
      refine Value.ofRat_representable exact ?_
      have hpow : (9223372036854775808 : ℚ) = 2 ^ 63 := by norm_num
      rw [abs_of_pos (by norm_num), hpow]
      exact pow_lt_pow_right₀ (by norm_num) (by norm_num)
    have htruncate : Binary64.truncate 9223372036854775808 = 9223372036854775808 := by
      unfold Binary64.truncate
      rw [if_neg (by norm_num)]
      exact_mod_cast Int.floor_intCast (R := ℚ) 9223372036854775808
    rw [htext, parseByteSize_eq hsolid (splitUnit_digits hds Nat.toDigits_ne_nil).1 Nat.toDigits_ne_nil
      (parseFloat_toDigits hvalue) hpositive, hproduct]
    unfold Arch.toInt64 Arch.saturate
    dsimp only
    rw [htruncate, if_neg (by norm_num), if_neg (by norm_num)]

/-- The size that `amd64` makes of a number beyond `int64` is not read again. -/
theorem parseByteSize_minValue (arch : Arch) (n : Int64) :
    parseByteSize arch (formatByteSize Int64.minValue) ≠ .ok n := by
  have htext : formatByteSize Int64.minValue = '-' :: Nat.toDigits 10 9223372036854775808 := by
    decide +kernel
  have hds : ∀ c ∈ Nat.toDigits 10 9223372036854775808, c.isDigit = true := fun c hc => mem_toDigits hc
  have hsolid : Solid ('-' :: Nat.toDigits 10 9223372036854775808) := by
    refine solid_of_forall (List.cons_ne_nil _ _) fun c hc => ?_
    rcases List.mem_cons.mp hc with rfl | hc
    · decide
    · exact isSpace_of_isDigit (hds c hc)
  have hupper : ('-' :: Nat.toDigits 10 9223372036854775808).map toUpper =
      '-' :: Nat.toDigits 10 9223372036854775808 := by
    rw [List.map_cons, toUpper_digits hds]
    rfl
  have hsplit : splitUnit (('-' :: Nat.toDigits 10 9223372036854775808).map toUpper) =
      ('-' :: Nat.toDigits 10 9223372036854775808, 1) := by
    rw [hupper]
    refine splitUnit_none fun c hc => ?_
    exact (List.mem_cons.mp hc).elim .inr fun hc => .inl (hds c hc)
  have hrep : Binary64.Representable (-(9223372036854775808 : ℕ) : ℚ) :=
    ⟨-1, 63, by norm_num, by norm_num, by norm_num⟩
  have hvalue : parseFloat ('-' :: Nat.toDigits 10 9223372036854775808) = some (.finite _ hrep) := by
    refine parseFloat_minus (Value.ofRat_representable hrep ?_)
    have hpow : ((9223372036854775808 : ℕ) : ℚ) = 2 ^ 63 := by norm_num
    rw [abs_neg, Nat.abs_cast, hpow]
    exact pow_lt_pow_right₀ (by norm_num) (by norm_num)
  rw [htext, parseByteSize_negative hsolid hsplit (List.cons_ne_nil _ _) hvalue]
  · exact fun h => nomatch h
  · unfold Value.isNegative
    exact decide_eq_true (by norm_num)

/-- A number that is not negative is converted to one that is not, or to the least one. -/
theorem toInt64_nonneg {arch : Arch} {v : Value} (hv : v.isNegative = false) :
    0 ≤ (arch.toInt64 v).toInt ∨ arch.toInt64 v = Int64.minValue := by
  have hsaturate : 0 ≤ (arch.saturate v).toInt ∨ arch.saturate v = Int64.minValue := by
    cases arch with
    | amd64 =>
      rw [Arch.saturate]
      exact .inr rfl
    | arm64 =>
      cases v with
      | nan => exact .inl (by decide)
      | infinite negative =>
        cases negative with
        | true => cases hv
        | false => exact .inl (by decide)
      | finite x exact =>
        rw [Arch.saturate, if_neg (of_decide_eq_false hv)]
        exact .inl (by decide)
  cases v with
  | finite x exact =>
    have hx : ¬ x < 0 := of_decide_eq_false hv
    unfold Arch.toInt64
    dsimp only
    split_ifs with hrange
    · rw [Int64.toInt_ofInt_of_le hrange.1 hrange.2]
      unfold Binary64.truncate
      rw [if_neg hx]
      exact .inl (Int.floor_nonneg.mpr (not_lt.mp hx))
    · exact hsaturate
  | infinite negative => exact hsaturate
  | nan => exact hsaturate

/-- What a size is read as. -/
theorem parseByteSize_range {arch : Arch} {s : Text} {n : Int64} (h : parseByteSize arch s = .ok n) :
    (∃ v, arch.toInt64 v = n) ∧ (0 ≤ n.toInt ∨ n = Int64.minValue) := by
  have hfactor : ∀ upper, 0 ≤ (splitUnit upper).2 := by
    have hunits : ∀ unit ∈ byteUnits, 0 ≤ unit.2 := by decide +kernel
    intro upper
    unfold splitUnit
    cases hfind : byteUnits.findSome? fun unit =>
        (trimSuffix upper unit.1).map fun s => (trim s, unit.2) with
    | none => norm_num
    | some found =>
      obtain ⟨unit, hmem, hunit⟩ := List.exists_of_findSome?_eq_some hfind
      obtain ⟨number, -, rfl⟩ := Option.map_eq_some_iff.mp hunit
      exact hunits unit hmem
  rcases hsplit : splitUnit ((trim s).map toUpper) with ⟨numeric, factor⟩
  have hpos := hfactor ((trim s).map toUpper)
  rw [hsplit] at hpos
  unfold parseByteSize at h
  dsimp only at h
  rw [hsplit] at h
  dsimp only at h
  by_cases hempty : trim s = []
  · rw [if_pos hempty] at h
    cases h
  by_cases hnumber : numeric = []
  · rw [if_neg hempty, if_pos hnumber] at h
    cases h
  rw [if_neg hempty, if_neg hnumber] at h
  cases hvalue : parseFloat numeric with
  | none =>
    rw [hvalue] at h
    cases h
  | some value =>
    rw [hvalue] at h
    have h : (if value.isNegative = true then _ else _) = Except.ok n := h
    split_ifs at h with hneg
    · cases h
    · cases h
      refine ⟨⟨_, rfl⟩, toInt64_nonneg (Value.isNegative_mul ?_ (Value.isNegative_ofRat hpos))⟩
      exact Bool.eq_false_iff.mpr hneg

/-! ## Log levels (`internal/logging/level.go`) -/

inductive Level where
  | fatal
  | error
  | warn
  | info
  | debug
  deriving DecidableEq, Repr

/-- `Level.String` -/
def Level.name : Level → Text
  | .fatal => "FATAL".toList
  | .error => "ERROR".toList
  | .warn => "WARN".toList
  | .info => "INFO".toList
  | .debug => "DEBUG".toList

/-- The levels by their numbers, from 1 on -/
def levels : List Level := [.fatal, .error, .warn, .info, .debug]

def defaultLevel : Level := .info

/-- `Level(n)`, of the last byte of a number, if it is valid. -/
def levelOf (n : Int) : Option Level := if n % 256 = 0 then none else levels[(n % 256 - 1).toNat]?

/-- `ParseLevel` -/
def parseLevel (s : Text) : Except ValueError Level :=
  let normalised := (trim s).map toUpper
  if normalised = [] then .error .levelEmpty
  else match levels.find? fun level => level.name = normalised with
    | some level => .ok level
    | none =>
      if normalised = "WARNING".toList then .ok .warn
      else orError (.levelUnknown s) ((parseInt64 normalised).bind levelOf)

theorem parseLevel_name (level : Level) : parseLevel level.name = .ok level := by
  cases level <;> decide +kernel

end Doenerstag
