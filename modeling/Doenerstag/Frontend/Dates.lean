import Doenerstag.Frontend.Money
import Doenerstag.Go.Dates
import Doenerstag.Lib.LocalTime

/-!
# Dates in the browser (`frontend/src/format.ts`)

An instant that the server has written, as the control of a dialog shows it and reads it again: in local time, and in
minutes.

* `Browser.date` — `new Date`. `Browser.localInputValue`, `toISOString` — what it is written as.
* `Browser.reread` — an instant of the server after it has been through the control.
* `Browser.KeepsTime` — it is a whole second, and the first instant of its minute.
* `reread_eq_iff` — **it is read as itself if and only if it is this.**
-/

namespace Doenerstag

open LocalTime (Zone)

/-! ## Texts -/

/-- `pad` -/
def pad (part : Int) : Text := padStart 2 '0' (itoa part)

/-- `2006-01-02T15:04`, with the year as it is written -/
def minuteText (year : Text) (c : CivilTime) : Text :=
  year ++ '-' :: (pad c.month ++ '-' :: (pad c.day ++ 'T' :: (pad c.hour ++ ':' :: pad c.minute)))

/-- The number that stands in a text -/
def numberAt (text : Text) (start len : Nat) : Option Nat := parseNatural ((text.drop start).take len)

/-- A minute in the standard format, in seconds. What is read here has been written from a date, so that the numbers
are in their ranges. -/
def readMinute (text : Text) : Option Int := do
  let year ← numberAt text 0 4
  let month ← numberAt text 5 2
  let day ← numberAt text 8 2
  let hour ← numberAt text 11 2
  let minute ← numberAt text 14 2
  if text.length = 16 ∧ text[4]? = some '-' ∧ text[7]? = some '-' ∧ text[10]? = some 'T' ∧ text[13]? = some ':' then
    some (daysFromCivil year month day * 86400 + hour * 3600 + minute * 60)
  else
    none

/-- A second in the standard format, in UTC -/
def readUTC (text : Text) : Option Int := do
  let minute ← readMinute (text.take 16)
  let second ← numberAt text 17 2
  if text.length = 20 ∧ text[16]? = some ':' ∧ text[19]? = some 'Z' then some (minute + second) else none

/-- The year of `toISOString`, with a sign if it has not four digits -/
def isoYear (year : Int) : Text :=
  if 0 ≤ year ∧ year ≤ 9999 then padStart 4 '0' (itoa year)
  else (if year < 0 then '-' else '+') :: padStart 6 '0' (itoa year.natAbs)

/-- `Date.prototype.toISOString`, of the milliseconds since the epoch -/
def toISOString (ms : Int) : String :=
  let c := Time.civil (ms * 1000000) 0
  String.ofList
    (minuteText (isoYear c.year) c ++ ':' :: (pad c.second ++ '.' :: (padStart 3 '0' (itoa (ms % 1000)) ++ ['Z'])))

/-! ## The browser -/

/-- The value of a control of the type `datetime-local` that was given a text: a year has four digits or more. -/
def sanitized (text : Text) : Text := if 4 ≤ (text.takeWhile Char.isDigit).length then text else []

structure Browser where
  /-- the zone of the viewer -/
  zone : Zone
  /-- what `Date` makes of a text that is not in the standard format, in milliseconds -/
  other : Text → Option Int

namespace Browser

variable (b : Browser)

/-- `new Date(text)`, in milliseconds, unless it is no date -/
def date (text : Text) : Option Int :=
  if text = [] then none
  else match (readUTC text).or ((readMinute text).map b.zone.toInstant) with
    | some s => some (1000 * s)
    | none => b.other text

/-- What the clocks of the viewer show -/
def shown (ms : Int) : CivilTime := Time.civil (ms * 1000000) (b.zone.offset (ms / 1000))

def localInputValue (ms : Int) : Text :=
  let date := b.shown ms
  minuteText (itoa date.year) date

/-- A control of the type `datetime-local` that was given `localInputValue` of a date; one that is none is written
with `NaN`, which is no year. -/
def control (text : Text) : Text := ((b.date text).map fun ms => sanitized (b.localInputValue ms)).getD []

/-- A date that was put into a control and taken from it -/
def reread (text : Text) : Option Int := b.date (b.control text)

/-- The instant is where the minute that the clocks show is read. -/
def FirstOfMinute (s : Int) : Prop :=
  b.zone.IsFirst (b.zone.shown s - b.zone.shown s % 60) s ∨ b.zone.IsSkipped (b.zone.shown s - b.zone.shown s % 60) s

/-- The years that the instant is in are written with four digits. -/
def Usual (x : Time) : Prop :=
  (0 ≤ (x.civil 0).year ∧ (x.civil 0).year ≤ 9999) ∧ (x.civil (b.zone.offset (x / Time.second))).year ≤ 9999

instance (x : Time) : Decidable (b.Usual x) := inferInstanceAs (Decidable (_ ∧ _))

/-- The instant is a whole second and the first of its minute, or what the browser makes of its year keeps it. -/
def KeepsTime (x : Time) : Prop :=
  (b.Usual x ∧ Time.second ∣ x ∧ b.FirstOfMinute (x / Time.second)) ∨
    (¬ b.Usual x ∧ ∃ ms, b.reread x.rfc3339.toList = some ms ∧ ms * 1000000 = x)

end Browser

/-! ## What was written is read -/

theorem padded_eq (width : Nat) {part : Int} (h : 0 ≤ part) :
    (padded width part).toList = padStart width '0' (itoa part) := by
  obtain ⟨n, rfl⟩ := Int.eq_ofNat_of_zero_le h
  have hdigits : toString (n : Int).natAbs = String.ofList (itoa n) := by rw [itoa_natCast]; rfl
  have hneg : ¬ (n : Int) < 0 := by omega
  unfold padded padStart
  simp only [hdigits, if_neg hneg, String.toList_append, String.toList_ofList, String.length_ofList]
  rfl

theorem length_digits {width n : Nat} (hwidth : 0 < width) (hn : n < 10 ^ width) :
    (padStart width '0' (itoa n)).length = width := by
  have hlength : (itoa n).length ≤ width := by
    rw [itoa_natCast]
    exact (Nat.length_toDigits_le_iff (by decide) hwidth).mpr hn
  unfold padStart
  rw [List.length_append, List.length_replicate]
  omega

theorem parseNatural_digits (width n : Nat) : parseNatural (padStart width '0' (itoa n)) = some n := by
  have hdigit := isDigit_padStart width (s := itoa n) fun c hc => mem_toDigits (itoa_natCast n ▸ hc)
  have hne : padStart width '0' (itoa n) ≠ [] := List.append_ne_nil_of_right_ne_nil _ (itoa_ne_nil n)
  rw [parseNatural, if_pos ⟨hne, List.all_eq_true.mpr hdigit⟩, ofDigitChars_padStart, itoa_natCast,
    Nat.ofDigitChars_ten_toDigits]

/-- Two digits write the parts of a date. -/
structure CivilTime.TwoDigits (c : CivilTime) : Prop where
  month : 0 ≤ c.month ∧ c.month < 100
  day : 0 ≤ c.day ∧ c.day < 100
  hour : 0 ≤ c.hour ∧ c.hour < 100
  minute : 0 ≤ c.minute ∧ c.minute < 100
  second : 0 ≤ c.second ∧ c.second < 100

theorem Time.civil_twoDigits (t : Time) (offset : Int) : (t.civil offset).TwoDigits := by
  have hmonth : 1 ≤ (t.civil offset).month ∧ (t.civil offset).month ≤ 12 := civilDate_month _
  have hday : 1 ≤ (t.civil offset).day ∧ (t.civil offset).day ≤ 31 := civilDate_day _
  have hhour : (t.civil offset).hour = (t / Time.second + offset) % 86400 / 3600 := rfl
  have hminute : (t.civil offset).minute = (t / Time.second + offset) % 86400 / 60 % 60 := rfl
  have hsecond : (t.civil offset).second = (t / Time.second + offset) % 86400 % 60 := rfl
  constructor <;> omega

theorem length_pad {part : Int} (h : 0 ≤ part ∧ part < 100) : (pad part).length = 2 := by
  obtain ⟨n, rfl⟩ := Int.eq_ofNat_of_zero_le h.1
  exact length_digits (by decide) (by omega)

theorem parseNatural_pad {part : Int} (h : 0 ≤ part) : parseNatural (pad part) = some part.toNat := by
  obtain ⟨n, rfl⟩ := Int.eq_ofNat_of_zero_le h
  exact parseNatural_digits 2 n

/-- Where the parts of a minute stand -/
theorem readMinute_parts {year month day hour minute : Text} {y mo d h mi : Nat} (hlength : year.length = 4)
    (hyear : parseNatural year = some y) (hmonth : month.length = 2 ∧ parseNatural month = some mo)
    (hday : day.length = 2 ∧ parseNatural day = some d) (hhour : hour.length = 2 ∧ parseNatural hour = some h)
    (hminute : minute.length = 2 ∧ parseNatural minute = some mi) :
    readMinute (year ++ '-' :: (month ++ '-' :: (day ++ 'T' :: (hour ++ ':' :: minute)))) =
      some (daysFromCivil y mo d * 86400 + h * 3600 + mi * 60) := by
  obtain ⟨hmonth, hmonth'⟩ := hmonth
  obtain ⟨hday, hday'⟩ := hday
  obtain ⟨hhour, hhour'⟩ := hhour
  obtain ⟨hminute, hminute'⟩ := hminute
  obtain ⟨m₁, m₂, rfl⟩ := List.length_eq_two.mp hmonth
  obtain ⟨d₁, d₂, rfl⟩ := List.length_eq_two.mp hday
  obtain ⟨h₁, h₂, rfl⟩ := List.length_eq_two.mp hhour
  obtain ⟨n₁, n₂, rfl⟩ := List.length_eq_two.mp hminute
  obtain ⟨y₁, y₂, y₃, y₄, rfl⟩ : ∃ y₁ y₂ y₃ y₄, year = [y₁, y₂, y₃, y₄] := by
    match year, hlength with
    | [y₁, y₂, y₃, y₄], _ => exact ⟨y₁, y₂, y₃, y₄, rfl⟩
  simp [readMinute, numberAt, hyear, hmonth', hday', hhour', hminute']

theorem readMinute_minuteText {year : Text} {c : CivilTime} (hlength : year.length = 4) (hyear : 0 ≤ c.year)
    (hread : parseNatural year = some c.year.toNat) (hc : c.TwoDigits) :
    readMinute (minuteText year c) =
      some (daysFromCivil c.year c.month c.day * 86400 + c.hour * 3600 + c.minute * 60) := by
  have hpart {part : Int} (h : 0 ≤ part ∧ part < 100) :
      (pad part).length = 2 ∧ parseNatural (pad part) = some part.toNat := ⟨length_pad h, parseNatural_pad h.1⟩
  unfold minuteText
  rw [readMinute_parts hlength hread (hpart hc.month) (hpart hc.day) (hpart hc.hour) (hpart hc.minute)]
  simp only [Int.toNat_of_nonneg hyear, Int.toNat_of_nonneg hc.month.1,
    Int.toNat_of_nonneg hc.day.1, Int.toNat_of_nonneg hc.hour.1, Int.toNat_of_nonneg hc.minute.1]

theorem minuteText_length {year : Text} {c : CivilTime} (hlength : year.length = 4) (hc : c.TwoDigits) :
    (minuteText year c).length = 16 := by
  simp [minuteText, hlength, length_pad hc.month, length_pad hc.day, length_pad hc.hour, length_pad hc.minute]

theorem rfc3339_toList {x : Time} (hyear : 0 ≤ (x.civil 0).year) : x.rfc3339.toList =
    minuteText (padStart 4 '0' (itoa (x.civil 0).year)) (x.civil 0) ++ ':' :: (pad (x.civil 0).second ++ ['Z']) := by
  have hc := x.civil_twoDigits 0
  unfold Time.rfc3339 minuteText pad
  simp only [String.toList_append, padded_eq 4 hyear, padded_eq 2 hc.month.1, padded_eq 2 hc.day.1,
    padded_eq 2 hc.hour.1, padded_eq 2 hc.minute.1, padded_eq 2 hc.second.1]
  simp

theorem isSpace_padStart {width : Nat} {part : Int} : ∀ c ∈ padStart width '0' (itoa part), isSpace c = false := by
  intro c hc
  rcases List.mem_append.mp hc with hc | hc
  · rw [List.eq_of_mem_replicate hc]
    rfl
  · exact isSpace_itoa hc

theorem isSpace_isoYear (year : Int) : ∀ c ∈ isoYear year, isSpace c = false := by
  unfold isoYear
  split_ifs
  · exact isSpace_padStart
  · exact List.forall_mem_cons.mpr ⟨rfl, isSpace_padStart⟩
  · exact List.forall_mem_cons.mpr ⟨rfl, isSpace_padStart⟩

/-- There is no white space in an instant that is written. -/
theorem trimSpace_toISOString (ms : Int) : trimSpace (toISOString ms) = toISOString ms := by
  refine trimSpace_eq_self ?_
  simp only [toISOString, minuteText, pad, String.toList_ofList, List.forall_mem_append, List.forall_mem_cons]
  exact ⟨⟨isSpace_isoYear _, rfl, isSpace_padStart, rfl, isSpace_padStart, rfl, isSpace_padStart, rfl,
    isSpace_padStart⟩, rfl, isSpace_padStart, rfl, isSpace_padStart, rfl, by simp⟩

section Browser

variable {b : Browser} {x : Time}

theorem readUTC_append {minute second : Text} {m : Int} {s : Nat} (hlength : minute.length = 16)
    (hminute : readMinute minute = some m) (hsecond : second.length = 2) (hnumber : parseNatural second = some s) :
    readUTC (minute ++ ':' :: (second ++ ['Z'])) = some (m + s) := by
  obtain ⟨s₁, s₂, rfl⟩ := List.length_eq_two.mp hsecond
  have htake : (minute ++ ':' :: ([s₁, s₂] ++ ['Z'])).take 16 = minute := by
    rw [← hlength, List.take_left]
  have hdrop : (minute ++ ':' :: ([s₁, s₂] ++ ['Z'])).drop 17 = [s₁, s₂, 'Z'] := by
    rw [← List.drop_drop (i := 1) (j := 16), ← hlength, List.drop_left]
    rfl
  have hget (k : Nat) : (minute ++ ':' :: ([s₁, s₂] ++ ['Z']))[16 + k]? = (':' :: ([s₁, s₂] ++ ['Z']))[k]? := by
    rw [List.getElem?_append_right (by omega), hlength, Nat.add_sub_cancel_left]
  unfold readUTC numberAt
  rw [htake, hdrop, hget 0, hget 3]
  simp [hminute, hnumber, hlength]

/-- What is written of a year of four digits is read to the second. -/
theorem date_rfc3339 (hlow : 0 ≤ (x.civil 0).year) (hhigh : (x.civil 0).year ≤ 9999) :
    b.date x.rfc3339.toList = some (1000 * (x / Time.second)) := by
  have hc := x.civil_twoDigits 0
  obtain ⟨n, hn⟩ := Int.eq_ofNat_of_zero_le hlow
  have hlength : (padStart 4 '0' (itoa (x.civil 0).year)).length = 4 := by
    rw [hn]
    exact length_digits (by decide) (by omega)
  have hread : parseNatural (padStart 4 '0' (itoa (x.civil 0).year)) = some (x.civil 0).year.toNat := by
    rw [hn]
    exact parseNatural_digits 4 n
  have hutc := readUTC_append (minuteText_length hlength hc) (readMinute_minuteText hlength hlow hread hc)
    (length_pad hc.second) (parseNatural_pad hc.second.1)
  have hseconds := x.civil_seconds 0
  rw [Int.add_zero] at hseconds
  rw [Int.toNat_of_nonneg hc.second.1, hseconds] at hutc
  have hne : x.rfc3339.toList ≠ [] := by
    rw [rfc3339_toList hlow]
    exact List.append_ne_nil_of_right_ne_nil _ (List.cons_ne_nil _ _)
  rw [Browser.date, if_neg hne, rfc3339_toList hlow, hutc]
  rfl

theorem readUTC_short {text : Text} (h : text.length = 16) : readUTC text = none := by
  have hdrop : text.drop 17 = [] := List.drop_of_length_le (by omega)
  have hnone : numberAt text 17 2 = none := by
    rw [numberAt, hdrop]
    rfl
  unfold readUTC
  rw [hnone]
  cases readMinute (text.take 16) <;> rfl

/-- A minute that is written is read in the zone of the viewer. -/
theorem date_minuteText {year : Text} {c : CivilTime} (hlength : year.length = 4) (hyear : 0 ≤ c.year)
    (hread : parseNatural year = some c.year.toNat) (hc : c.TwoDigits) : b.date (minuteText year c) =
      some (1000 * b.zone.toInstant
        (daysFromCivil c.year c.month c.day * 86400 + c.hour * 3600 + c.minute * 60)) := by
  have htext := minuteText_length hlength hc
  have hne : minuteText year c ≠ [] := List.ne_nil_of_length_pos (by omega)
  rw [Browser.date, if_neg hne, readUTC_short htext, readMinute_minuteText hlength hyear hread hc]
  rfl

theorem itoa_length {n : Nat} (hlow : 1000 ≤ n) (hhigh : n ≤ 9999) : (itoa n).length = 4 := by
  rw [itoa_natCast]
  have hmost : (Nat.toDigits 10 n).length ≤ 4 := (Nat.length_toDigits_le_iff (by decide) (by decide)).mpr (by omega)
  have hleast : ¬ (Nat.toDigits 10 n).length ≤ 3 := by
    rw [Nat.length_toDigits_le_iff (by decide) (by decide)]
    omega
  omega

/-- Of a year of four digits the control keeps what it is given. -/
theorem sanitized_year {n : Nat} (hlow : 1000 ≤ n) (hhigh : n ≤ 9999) (c : CivilTime) :
    sanitized (minuteText (itoa n) c) = minuteText (itoa n) c := by
  have hdigits : ∀ d ∈ itoa n, d.isDigit = true := fun d hd => mem_toDigits (itoa_natCast n ▸ hd)
  have hlength := itoa_length hlow hhigh
  unfold sanitized minuteText
  rw [List.takeWhile_append_of_pos hdigits, if_pos]
  rw [List.length_append, hlength]
  exact Nat.le_add_right _ _

/-- Of a year of fewer digits it keeps nothing. -/
theorem sanitized_early {year : Int} (hyear : year < 1000) (c : CivilTime) :
    sanitized (minuteText (itoa year) c) = [] := by
  unfold sanitized minuteText
  rw [if_neg]
  cases year with
  | ofNat n =>
    have hlength : (itoa n).length ≤ 3 := by
      rw [itoa_natCast]
      exact (Nat.length_toDigits_le_iff (by decide) (by decide)).mpr (by simpa using hyear)
    have hdigits : ∀ d ∈ itoa n, d.isDigit = true := fun d hd => mem_toDigits (itoa_natCast n ▸ hd)
    rw [Int.ofNat_eq_natCast, List.takeWhile_append_of_pos hdigits]
    simp
    omega
  | negSucc n =>
    rw [itoa_negSucc]
    simp

theorem shown_seconds : b.shown (1000 * (x / Time.second)) = x.civil (b.zone.offset (x / Time.second)) := by
  have hmilli (s : Int) : 1000 * s / 1000 = s := by omega
  have hsecond (s : Int) : 1000 * s * 1000000 / Time.second = s := by
    unfold Time.second
    omega
  unfold Browser.shown Time.civil
  rw [hmilli, hsecond]

/-- **An instant goes to where the minute that the clocks show is read.** -/
theorem reread_usual (husual : b.Usual x) : b.reread x.rfc3339.toList =
    if 1000 ≤ (x.civil (b.zone.offset (x / Time.second))).year then
      some (1000 * b.zone.toInstant
        (b.zone.shown (x / Time.second) - b.zone.shown (x / Time.second) % 60))
    else none := by
  obtain ⟨⟨hlow, hhigh⟩, hlocal⟩ := husual
  rw [Browser.reread, Browser.control, date_rfc3339 hlow hhigh, Option.map_some, Option.getD_some,
    Browser.localInputValue, shown_seconds]
  have hc := x.civil_twoDigits (b.zone.offset (x / Time.second))
  have hseconds := x.civil_seconds (b.zone.offset (x / Time.second))
  have hsecond : (x.civil (b.zone.offset (x / Time.second))).second =
      (x / Time.second + b.zone.offset (x / Time.second)) % 86400 % 60 := rfl
  generalize x.civil (b.zone.offset (x / Time.second)) = c at *
  split_ifs with hyear
  · obtain ⟨n, hn⟩ := Int.eq_ofNat_of_zero_le (show 0 ≤ c.year by omega)
    rw [hn, sanitized_year (by omega) (by omega), date_minuteText (itoa_length (by omega) (by omega)) (by omega)
      (by rw [hn, itoa_natCast]; exact parseNatural_toDigits n) hc]
    unfold Zone.shown
    congr 3
    omega
  · rw [sanitized_early (by omega)]
    rfl

/-- **It is read as itself if and only if it is a whole second and the first of its minute**, if it is read at all. -/
theorem reread_eq_iff {ms : Int} (hread : b.reread x.rfc3339.toList = some ms) :
    ms * 1000000 = x ↔ b.KeepsTime x := by
  by_cases husual : b.Usual x
  · rw [reread_usual husual] at hread
    split_ifs at hread
    obtain rfl := Option.some.inj hread
    rw [Browser.KeepsTime, or_iff_left fun h => h.1 husual, and_iff_right husual, Browser.FirstOfMinute,
      ← Zone.toInstant_eq_iff]
    generalize b.zone.toInstant _ = s
    constructor
    · rintro rfl
      have hsecond : 1000 * s * 1000000 = Time.second * s := by
        unfold Time.second
        omega
      rw [hsecond]
      exact ⟨Int.dvd_mul_right _ _, (Int.mul_ediv_cancel_left s (by decide)).symm⟩
    · rintro ⟨⟨k, rfl⟩, hs⟩
      rw [hs, Int.mul_ediv_cancel_left k (by decide)]
      unfold Time.second
      omega
  · constructor
    · exact fun hsame => .inr ⟨husual, ms, hread, hsame⟩
    · rintro (⟨husual', -⟩ | ⟨-, ms', hread', hsame⟩)
      · exact absurd husual' husual
      · rwa [Option.some.inj (hread.symm.trans hread')]

end Browser

end Doenerstag
