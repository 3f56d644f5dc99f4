import Doenerstag.Config.Units

/-!
# Byte sizes that are read exactly (`internal/config/bytesize.go`)

`ParseByteSize` takes the number and its product with the factor of the unit as floating point, and
converts what comes out.

* `writtenSize` — the number of bytes that a text is written to be, as a fraction.
* `ExactOrRefused` — what is read is its whole part, or nothing.
* `KeptByRounding` — the two roundings leave the whole part as it is, and an `int64` has room for it.
* `parseByteSize_exact_iff` — **a size is read exactly or refused if and only if its number is none of the
  special words and, unless it is negative or beyond the largest float, the roundings keep it.**
* `keptByRounding_whole` — they keep the whole numbers below 2^53.
-/

namespace Doenerstag

open Binary64 (Value nearest)

/-! ## What is written -/

/-- The number that a text writes, as a fraction. -/
def readNumber (s : Text) : Option ℚ :=
  (readUnsigned (splitSign s).2).map fun x => if (splitSign s).1 then -x else x

/-- The words that `strconv.ParseFloat` takes for a value without being a number, `-inf` apart. -/
def IsSpecialWord (s : Text) : Prop :=
  s.map Char.toLower = "nan".toList ∨
    (splitSign s).1 = false ∧ ((splitSign s).2.map Char.toLower = "inf".toList ∨
      (splitSign s).2.map Char.toLower = "infinity".toList)

/-- The number in front of the unit -/
def sizeNumber (s : Text) : Text := (splitUnit ((trim s).map toUpper)).1

/-- The bytes of the unit -/
def sizeFactor (s : Text) : ℚ := (splitUnit ((trim s).map toUpper)).2

/-- The number of bytes that is written -/
def writtenSize (s : Text) : Option ℚ := (readNumber (sizeNumber s)).map fun x => x * sizeFactor s

/-- What `ParseByteSize` returns is the whole part of what is written, and a size, or an error. -/
def ExactOrRefused (s : Text) (result : Except ValueError Int64) : Prop :=
  ∀ n, result = .ok n → 0 ≤ n.toInt ∧ ∃ x, writtenSize s = some x ∧ n.toInt = ⌊x⌋

/-- The number and its product with the factor are rounded to binary floating point of 64 bits. That
crosses no whole number, and the size is below 2^63. -/
def KeptByRounding (x factor : ℚ) : Prop :=
  ⌊nearest (nearest x * factor)⌋ = ⌊x * factor⌋ ∧ ⌊x * factor⌋ < 2 ^ 63

/-- A number that is refused: a negative one, or one beyond the largest float -/
def NumberRefused (x : ℚ) : Prop := nearest x < 0 ∨ Binary64.limit ≤ |nearest x|

/-! ## The conversion -/

section Conversion

variable {arch : Arch} {y : ℚ}

/-- Where there is room, the conversion cuts the fraction off. -/
theorem toInt64_ofRat (hy : 0 ≤ y) (hroom : ⌊nearest y⌋ < 2 ^ 63) :
    arch.toInt64 (Value.ofRat y) = Int64.ofInt ⌊nearest y⌋ := by
  have hpos := Binary64.nearest_nonneg hy
  have hfloor : 0 ≤ ⌊nearest y⌋ := Int.floor_nonneg.mpr hpos
  have htruncate : Binary64.truncate (nearest y) = ⌊nearest y⌋ := by
    unfold Binary64.truncate
    rw [if_neg (not_lt.mpr hpos)]
  have hlimit : |nearest y| < Binary64.limit := by
    have hlt : nearest y < 2 ^ 63 := by exact_mod_cast Int.floor_lt.mp hroom
    rw [abs_of_nonneg hpos]
    exact lt_trans hlt (pow_lt_pow_right₀ (by norm_num) (by norm_num))
  unfold Value.ofRat
  rw [if_pos hlimit]
  unfold Arch.toInt64
  dsimp only
  rw [htruncate, if_pos ⟨by omega, hroom⟩]

/-- Where there is none, one of the processors makes a negative number of it. -/
theorem toInt64_noRoom (hy : 0 ≤ y) (hroom : ¬ ⌊nearest y⌋ < 2 ^ 63) :
    Arch.amd64.toInt64 (Value.ofRat y) = Int64.minValue := by
  have hpos := Binary64.nearest_nonneg hy
  have htruncate : Binary64.truncate (nearest y) = ⌊nearest y⌋ := by
    unfold Binary64.truncate
    rw [if_neg (not_lt.mpr hpos)]
  unfold Value.ofRat
  split_ifs
  · unfold Arch.toInt64
    dsimp only
    rw [htruncate, if_neg fun h => hroom h.2]
    rfl
  · rfl

end Conversion

/-- Every factor is a whole number that floating point has. -/
theorem sizeFactor_eq (s : Text) : ∃ n : ℕ, n < 2 ^ 53 ∧ sizeFactor s = n := by
  have hunits : ∀ unit ∈ byteUnits, ∃ n : ℕ, n < 2 ^ 53 ∧ unit.2 = n := by
    have hbounds : ∀ unit ∈ byteUnits,
        unit.2.num.toNat < 2 ^ 53 ∧ unit.2 = unit.2.num.toNat := by decide +kernel
    exact fun unit hunit => ⟨_, hbounds unit hunit⟩
  unfold sizeFactor splitUnit
  cases hfound : byteUnits.findSome? fun unit =>
      (trimSuffix ((trim s).map toUpper) unit.1).map fun s => (trim s, unit.2) with
  | none => exact ⟨1, by norm_num, by norm_num⟩
  | some found =>
    obtain ⟨unit, hunit, hsuffix⟩ := List.exists_of_findSome?_eq_some hfound
    obtain ⟨before, -, rfl⟩ := Option.map_eq_some_iff.mp hsuffix
    exact hunits unit hunit

/-! ## Reading -/

section Reading

variable {arch : Arch} {s : Text}

/-- `ParseByteSize`, by what `strconv.ParseFloat` makes of the number -/
theorem parseByteSize_number {v : Value} (hne : sizeNumber s ≠ [])
    (hfloat : parseFloat (sizeNumber s) = some v) (hpos : v.isNegative = false) :
    parseByteSize arch s = .ok (arch.toInt64 (v.mul (Value.ofRat (sizeFactor s)))) := by
  have hsome : trim s ≠ [] := by
    intro hnil
    refine hne ?_
    unfold sizeNumber
    rw [hnil]
    decide
  have hne' : (splitUnit ((trim s).map toUpper)).1 ≠ [] := hne
  have hfloat' : parseFloat (splitUnit ((trim s).map toUpper)).1 = some v := hfloat
  unfold parseByteSize
  dsimp only
  rw [if_neg hsome]
  show (if (splitUnit ((trim s).map toUpper)).1 = [] then _ else _) = _
  rw [if_neg hne', hfloat']
  show (if v.isNegative = true then _ else _) = _
  rw [hpos]
  rfl

/-- What is read was a number or a word, and not negative. -/
theorem parseByteSize_ok {n : Int64} (h : parseByteSize arch s = .ok n) :
    ∃ v, sizeNumber s ≠ [] ∧ parseFloat (sizeNumber s) = some v ∧ v.isNegative = false := by
  unfold parseByteSize at h
  dsimp only at h
  by_cases htrim : trim s = []
  · rw [if_pos htrim] at h
    cases h
  rw [if_neg htrim] at h
  change (if sizeNumber s = [] then _ else _) = _ at h
  by_cases hne : sizeNumber s = []
  · rw [if_pos hne] at h
    cases h
  rw [if_neg hne] at h
  change orError _ (parseFloat (sizeNumber s)) >>= _ = _ at h
  cases hfloat : parseFloat (sizeNumber s) with
  | none =>
    rw [hfloat] at h
    cases h
  | some v =>
    rw [hfloat] at h
    change (if v.isNegative = true then _ else _) = _ at h
    cases hneg : v.isNegative with
    | true =>
      rw [hneg] at h
      cases h
    | false => exact ⟨v, hne, rfl, hneg⟩

end Reading

theorem IsSpecialWord.ne {s : Text} (hs : IsSpecialWord s) : s ≠ [] := by
  rintro rfl
  exact absurd hs (by unfold IsSpecialWord; decide)

/-- A special word is a value that no product makes a number of. -/
theorem parseFloat_special {s : Text} (hs : IsSpecialWord s) :
    ∃ v, parseFloat s = some v ∧ (v = .nan ∨ v = .infinite false) := by
  unfold parseFloat
  dsimp only
  rcases hs with hnan | ⟨hsign, hword⟩
  · exact ⟨.nan, if_pos hnan, .inl rfl⟩
  · split_ifs with hnan
    · exact ⟨.nan, rfl, .inl rfl⟩
    · refine ⟨.infinite (splitSign s).1, rfl, .inr ?_⟩
      rw [hsign]

/-- What is read otherwise is a number, `-inf` apart. -/
theorem parseFloat_ordinary {s : Text} {v : Value} (hs : ¬ IsSpecialWord s)
    (hfloat : parseFloat s = some v) (hpos : v.isNegative = false) :
    ∃ x, readNumber s = some x ∧ |nearest x| < Binary64.limit ∧ 0 ≤ nearest x ∧
      v = Value.ofRat x := by
  obtain ⟨hnan, hword⟩ := not_or.mp hs
  unfold parseFloat at hfloat
  dsimp only at hfloat
  rw [if_neg hnan] at hfloat
  by_cases hinf : (splitSign s).2.map Char.toLower = "inf".toList ∨
      (splitSign s).2.map Char.toLower = "infinity".toList
  · rw [if_pos hinf] at hfloat
    cases hfloat
    exact absurd ⟨hpos, hinf⟩ hword
  rw [if_neg hinf] at hfloat
  obtain ⟨x, hx, hrange⟩ := Option.bind_eq_some_iff.mp hfloat
  have hread : readNumber s = some (if (splitSign s).1 = true then -x else x) := by
    unfold readNumber
    rw [hx]
    rfl
  generalize (if (splitSign s).1 = true then -x else x) = y at hread hrange
  refine ⟨y, hread, ?_⟩
  unfold Value.ofRat at hrange ⊢
  by_cases hlimit : |nearest y| < Binary64.limit
  · rw [if_pos hlimit] at hrange ⊢
    cases hrange
    exact ⟨hlimit, not_lt.mp (of_decide_eq_false hpos), rfl⟩
  · rw [if_neg hlimit] at hrange
    cases hrange

theorem isNegative_accepted {x : ℚ} (haccepted : ¬ NumberRefused x) :
    (Value.ofRat x).isNegative = false := by
  obtain ⟨hpos, hlimit⟩ := not_or.mp haccepted
  unfold Value.ofRat
  rw [if_pos (not_le.mp hlimit)]
  exact decide_eq_false hpos

/-- What starts with a letter is no number. -/
theorem readUnsigned_letter {c : Char} {rest : Text} (hc : c.toLower = 'i') :
    readUnsigned (c :: rest) = none := by
  have hpart : ((digitOf 10 c).isSome || c == '_' || c == '.') = false := by
    have hdigit : digitOf 10 c = none := by
      unfold digitOf
      rw [hc]
      rfl
    have hmark : c ≠ '_' ∧ c ≠ '.' := by
      constructor <;> rintro rfl <;> exact absurd hc (by decide)
    rw [hdigit, beq_false_of_ne hmark.1, beq_false_of_ne hmark.2]
    rfl
  have hfloat : readFloat 10 (c :: rest) = none := by
    have hnone : (c :: rest).takeWhile (fun c => (digitOf 10 c).isSome || c == '_' || c == '.') = [] :=
      List.takeWhile_cons_of_neg (by rw [hpart]; decide)
    unfold readFloat
    dsimp only
    rw [hnone]
    exact if_pos (.inl rfl)
  unfold readUnsigned
  split
  · rename_i heq
    rw [(List.cons.inj heq).1] at hc
    exact absurd hc (by decide)
  · rw [hfloat, ite_self]

/-- A number that is not refused is read. -/
theorem parseFloat_number {s : Text} {x : ℚ} (hs : ¬ IsSpecialWord s) (hread : readNumber s = some x)
    (haccepted : ¬ NumberRefused x) : parseFloat s = some (Value.ofRat x) := by
  obtain ⟨hpos, hlimit⟩ := not_or.mp haccepted
  obtain ⟨hnan, hword⟩ := not_or.mp hs
  obtain ⟨y, hy, rfl⟩ := Option.map_eq_some_iff.mp hread
  -- a number is no word, whatever its sign
  have hinf : ¬ ((splitSign s).2.map Char.toLower = "inf".toList ∨
      (splitSign s).2.map Char.toLower = "infinity".toList) := by
    intro hword
    cases hrest : (splitSign s).2 with
    | nil =>
      rw [hrest] at hword
      exact absurd hword (by decide)
    | cons c rest =>
      rw [hrest] at hword hy
      have hc : c.toLower = 'i' := hword.elim (fun h => (List.cons.inj h).1) fun h => (List.cons.inj h).1
      rw [readUnsigned_letter hc] at hy
      cases hy
  unfold parseFloat
  dsimp only
  rw [if_neg hnan, if_neg hinf, hy, Option.bind_some]
  unfold Value.ofRat
  rw [if_pos (not_le.mp hlimit)]
  rfl
/-! ## The sizes that are exact -/

/-- What comes of a number that is not refused -/
theorem rounded_iff {x factor : ℚ} {n : ℕ} (hfactor : factor = n) (hsmall : n < 2 ^ 53)
    (haccepted : ¬ NumberRefused x) :
    (∀ arch : Arch, 0 ≤ (arch.toInt64 ((Value.ofRat x).mul (Value.ofRat factor))).toInt ∧
      (arch.toInt64 ((Value.ofRat x).mul (Value.ofRat factor))).toInt = ⌊x * factor⌋) ↔
    KeptByRounding x factor := by
  obtain ⟨hneg, hlimit⟩ := not_or.mp haccepted
  have hpos : 0 ≤ nearest x * factor := by
    rw [hfactor]
    exact mul_nonneg (not_lt.mp hneg) (Nat.cast_nonneg n)
  have hproduct : (Value.ofRat x).mul (Value.ofRat factor) = Value.ofRat (nearest x * factor) := by
    obtain ⟨exact, hvalue⟩ := Value.ofRat_natCast hsmall
    rw [hfactor, hvalue]
    unfold Value.ofRat
    rw [if_pos (not_le.mp hlimit)]
    rfl
  have hfloor : 0 ≤ ⌊nearest (nearest x * factor)⌋ := Int.floor_nonneg.mpr (Binary64.nearest_nonneg hpos)
  rw [hproduct]
  by_cases hroom : ⌊nearest (nearest x * factor)⌋ < 2 ^ 63
  · have hread : (Int64.ofInt ⌊nearest (nearest x * factor)⌋).toInt = ⌊nearest (nearest x * factor)⌋ :=
      Int64.toInt_ofInt_of_le (by omega) hroom
    simp only [toInt64_ofRat hpos hroom, hread]
    constructor
    · intro hexact
      have heq := (hexact .amd64).2
      exact ⟨heq, heq ▸ hroom⟩
    · rintro ⟨heq, -⟩ -
      exact ⟨hfloor, heq⟩
  · refine iff_of_false (fun hexact => ?_) fun hkept => hroom (hkept.1.symm ▸ hkept.2)
    have hnonneg := (hexact .amd64).1
    rw [toInt64_noRoom hpos hroom] at hnonneg
    exact absurd hnonneg (by decide)

/-- **A size is read exactly or refused, whatever the processor, if and only if** its number is none of
the special words and, unless it is refused for being negative or too large for a float, the roundings
keep its whole part. -/
theorem parseByteSize_exact_iff (s : Text) :
    (∀ arch, ExactOrRefused s (parseByteSize arch s)) ↔
      ¬ IsSpecialWord (sizeNumber s) ∧
        ∀ x, readNumber (sizeNumber s) = some x → NumberRefused x ∨ KeptByRounding x (sizeFactor s) := by
  obtain ⟨n, hsmall, hfactor⟩ := sizeFactor_eq s
  constructor
  · intro hexact
    have hword : ¬ IsSpecialWord (sizeNumber s) := by
      intro hword
      obtain ⟨v, hfloat, hv⟩ := parseFloat_special hword
      have hnegative : v.isNegative = false := by rcases hv with rfl | rfl <;> rfl
      have hread := (hexact .amd64 _ (parseByteSize_number hword.ne hfloat hnegative)).1
      obtain ⟨exact, hvalue⟩ := Value.ofRat_natCast hsmall
      have hmin : Arch.amd64.toInt64 (v.mul (Value.ofRat (sizeFactor s))) = Int64.minValue := by
        rw [hfactor, hvalue]
        rcases hv with rfl | rfl
        · rfl
        · show Arch.amd64.toInt64 (if (n : ℚ) = 0 then Value.nan else _) = _
          split_ifs <;> rfl
      rw [hmin] at hread
      exact absurd hread (by decide)
    refine ⟨hword, fun x hread => ?_⟩
    by_cases haccepted : NumberRefused x
    · exact .inl haccepted
    refine .inr ((rounded_iff hfactor hsmall haccepted).mp fun arch => ?_)
    have hfloat := parseFloat_number hword hread haccepted
    have hne : sizeNumber s ≠ [] := by
      intro hnil
      rw [hnil] at hread
      cases hread
    obtain ⟨hpos, y, hy, hfloor⟩ := hexact arch _
      (parseByteSize_number hne hfloat (isNegative_accepted haccepted))
    rw [writtenSize, hread] at hy
    cases hy
    exact ⟨hpos, hfloor⟩
  · rintro ⟨hword, hkept⟩ arch m hm
    obtain ⟨v, hne, hfloat, hpos⟩ := parseByteSize_ok hm
    obtain ⟨x, hread, hlimit, hnonneg, rfl⟩ := parseFloat_ordinary hword hfloat hpos
    have haccepted : ¬ NumberRefused x := not_or.mpr ⟨not_lt.mpr hnonneg, not_le.mpr hlimit⟩
    have hround := (rounded_iff hfactor hsmall haccepted).mpr ((hkept x hread).resolve_left haccepted) arch
    rw [parseByteSize_number hne hfloat hpos] at hm
    cases hm
    exact ⟨hround.1, _, by rw [writtenSize, hread, Option.map_some], hround.2⟩

/-- A whole number below 2^53 is kept. -/
theorem keptByRounding_whole {k n : ℕ} (hsize : k * n < 2 ^ 53) (hn : 0 < n) :
    KeptByRounding (k : ℚ) (n : ℚ) := by
  have hself : ∀ m : ℕ, m < 2 ^ 53 → nearest (m : ℚ) = m := by
    intro m hm
    have habs : |(m : ℤ)| < 2 ^ 53 := by
      rw [Nat.abs_cast]
      exact_mod_cast hm
    exact_mod_cast Binary64.nearest_of_representable (Binary64.representable_intCast habs)
  have hk : k < 2 ^ 53 := lt_of_le_of_lt (Nat.le_mul_of_pos_right k hn) hsize
  unfold KeptByRounding
  rw [hself k hk, ← Nat.cast_mul, hself _ hsize]
  refine ⟨rfl, ?_⟩
  rw [Int.floor_natCast]
  omega

/-- Beyond 2^53 a number is rounded. -/
theorem largeSize_rounded :
    ¬ ∀ s arch, ExactOrRefused s (parseByteSize arch s) := by
  intro hexact
  have hread : parseByteSize .amd64 "9007199254740993".toList = .ok 9007199254740992 := by decide +kernel
  have hwritten : writtenSize "9007199254740993".toList = some 9007199254740993 := by decide +kernel
  obtain ⟨-, x, hx, hfloor⟩ := hexact _ _ _ hread
  rw [hwritten] at hx
  cases hx
  have hwhole : ⌊(9007199254740993 : ℚ)⌋ = 9007199254740993 := by norm_num
  rw [hwhole] at hfloor
  exact absurd hfloor (by decide)

end Doenerstag
