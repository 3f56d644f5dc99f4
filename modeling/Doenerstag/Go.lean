import Doenerstag.Lib.Wrapped
import Mathlib.Data.List.Sort
import Mathlib.Data.String.Basic

/-!
# What the code takes from Go

The parts of the Go standard library and of `google/uuid` that the modelled functions call:
identifiers, instants and their rendering, and the string functions. The arithmetic of `int64` is that of
`Wrapped`.

What a Go program is linked with, rather than written in, are fields of `Runtime`: the Unicode
table behind `unicode.ToLower`, the time zone of the server, the two parsers of `uuid.Parse` and
`time.Parse(time.RFC3339, _)`, and the order in which the database sorts text. Nothing is assumed
about them.
-/

namespace Doenerstag

/-- What is said of the characters of a list is decided by looking at these only. -/
instance (priority := high) decidableForallMem {p : Char → Prop} [DecidablePred p] (text : List Char) :
    Decidable (∀ c ∈ text, p c) :=
  List.decidableBAll p text

instance (priority := high) decidableExistsMem {p : Char → Prop} [DecidablePred p] (text : List Char) :
    Decidable (∃ c ∈ text, p c) :=
  List.decidableBEx p text

/-! ## Identifiers -/

/-- A `uuid.UUID`, as the 128-bit number it is. -/
structure UUID where
  n : Nat
  deriving DecidableEq, Repr

/-- The hexadecimal digits of `n`, `width` of them. -/
def hexDigits (width n : Nat) : List Char :=
  ((List.range width).map fun i => Nat.digitChar (n / 16 ^ i % 16)).reverse

/-- `UUID.String`: 32 digits in groups of 8, 4, 4, 4 and 12. -/
def UUID.string (id : UUID) : String :=
  let digits := hexDigits 32 id.n
  let group := fun start len => String.ofList ((digits.drop start).take len)
  "-".intercalate [group 0 8, group 8 4, group 12 4, group 16 4, group 20 12]

/-- The digits of a number, that many of them, determine it. -/
theorem hexDigits_inj {width a b : Nat} (ha : a < 16 ^ width) (hb : b < 16 ^ width)
    (h : hexDigits width a = hexDigits width b) : a = b := by
  have hdigit : ∀ i < width, a / 16 ^ i % 16 = b / 16 ^ i % 16 := by
    intro i hi
    have hmap := List.reverse_injective h
    have hchar : Nat.digitChar (a / 16 ^ i % 16) = Nat.digitChar (b / 16 ^ i % 16) := by
      have hget := congrArg (fun cs : List Char => cs[i]?) hmap
      simpa [hi] using hget
    have hinj : ∀ x < 16, ∀ y < 16, Nat.digitChar x = Nat.digitChar y → x = y := by decide
    exact hinj _ (Nat.mod_lt _ (by decide)) _ (Nat.mod_lt _ (by decide)) hchar
  have hmod : ∀ w ≤ width, a % 16 ^ w = b % 16 ^ w := by
    intro w
    induction w with
    | zero =>
      intro _
      rw [Nat.pow_zero, Nat.mod_one, Nat.mod_one]
    | succ w ih =>
      intro hw
      rw [Nat.mod_pow_succ, Nat.mod_pow_succ, ih (Nat.le_of_succ_le hw), hdigit w hw]
  have hwhole := hmod width (Nat.le_refl width)
  rwa [Nat.mod_eq_of_lt ha, Nat.mod_eq_of_lt hb] at hwhole

theorem hexDigits_ne_dash (width n : Nat) : ∀ c ∈ hexDigits width n, c ≠ '-' := by
  intro c hc
  obtain ⟨i, -, rfl⟩ := List.mem_map.mp (List.mem_reverse.mp hc)
  have hne : ∀ x < 16, Nat.digitChar x ≠ '-' := by decide
  exact hne _ (Nat.mod_lt _ (by decide))

theorem hexDigits_length (width n : Nat) : (hexDigits width n).length = width := by
  simp [hexDigits]

/-- The text of an identifier is made of digits and dashes. -/
theorem UUID.mem_string {id : UUID} {c : Char} (hc : c ∈ id.string.toList) :
    c = '-' ∨ ∃ x < 16, c = Nat.digitChar x := by
  have hgroup : ∀ start len, c ∈ ((hexDigits 32 id.n).drop start).take len →
      ∃ x < 16, c = Nat.digitChar x := by
    intro start len hc
    have hdigit : c ∈ hexDigits 32 id.n := List.mem_of_mem_drop (List.mem_of_mem_take hc)
    obtain ⟨i, -, rfl⟩ := List.mem_map.mp (List.mem_reverse.mp hdigit)
    exact ⟨_, Nat.mod_lt _ (by decide), rfl⟩
  have hdash : c ∈ ("-" : String).toList → c = '-' := by simp
  unfold UUID.string at hc
  simp only [String.intercalate_cons_cons, String.intercalate_singleton, String.toList_append,
    String.toList_ofList, List.mem_append] at hc
  rcases hc with (hc | hc) | (hc | hc) | (hc | hc) | (hc | hc) | hc
  all_goals first | exact .inl (hdash hc) | exact .inr (hgroup _ _ hc)

/-- The digits of an identifier are those of its text. -/
theorem UUID.string_digits (id : UUID) : id.string.toList.filter (· != '-') = hexDigits 32 id.n := by
  have hkeep : ∀ cs : List Char, cs.Sublist (hexDigits 32 id.n) → cs.filter (· != '-') = cs := by
    intro cs hcs
    rw [List.filter_eq_self]
    intro c hc
    simpa using hexDigits_ne_dash 32 id.n c (hcs.subset hc)
  have hgroup : ∀ start len, (((hexDigits 32 id.n).drop start).take len).filter (· != '-') =
      ((hexDigits 32 id.n).drop start).take len :=
    fun start len => hkeep _ ((List.take_sublist _ _).trans (List.drop_sublist _ _))
  have hdash : ("-" : String).toList.filter (· != '-') = [] := by decide
  have hlength := hexDigits_length 32 id.n
  unfold UUID.string
  simp only [String.intercalate_cons_cons, String.intercalate_singleton, String.toList_append,
    String.toList_ofList, List.filter_append, hgroup, hdash, List.append_nil]
  generalize hexDigits 32 id.n = ds at hlength
  -- each group goes on where the one before it ended
  have hcut : ∀ start len, (ds.drop start).take len ++ ds.drop (start + len) = ds.drop start := by
    intro start len
    rw [← List.drop_drop, List.take_append_drop]
  have hlast : (ds.drop 20).take 12 = ds.drop 20 :=
    List.take_of_length_le (by rw [List.length_drop, hlength])
  rw [hlast, hcut 16 4, hcut 12 4, hcut 8 4, hcut 0 8, List.drop_zero]

/-- The text of an identifier of 128 bits determines it. -/
theorem UUID.string_inj {a b : UUID} (ha : a.n < 2 ^ 128) (hb : b.n < 2 ^ 128)
    (h : a.string = b.string) : a = b := by
  have hwide : (2 : Nat) ^ 128 = 16 ^ 32 := by decide
  have hdigits : hexDigits 32 a.n = hexDigits 32 b.n := by
    rw [← a.string_digits, ← b.string_digits, h]
  exact congrArg UUID.mk (hexDigits_inj (hwide ▸ ha) (hwide ▸ hb) hdigits)

/-! ## Instants -/

/-- A `time.Time`: nanoseconds since the Unix epoch. -/
abbrev Time := Int

/-- A `time.Duration`, in nanoseconds. -/
abbrev Duration := Int

def Time.second : Duration := 1000000000
def Time.hour : Duration := 3600 * Time.second

/-- What is linked into the program rather than written in it. -/
structure Runtime where
  /-- `unicode.ToLower` -/
  toLowerRune : Char → Char
  /-- seconds east of UTC of the server's zone, at an instant -/
  zoneOffset : Time → Int
  /-- `uuid.Parse` -/
  parseUUID : String → Option UUID
  /-- `time.Parse(time.RFC3339, _)`, as an instant -/
  parseTime : String → Option Time
  /-- the database's collation: the first text sorts before the second -/
  sortsBefore : String → String → Bool
  /-- the database's `lower` -/
  lower : String → String

/-- A date and a time of day. -/
structure CivilTime where
  year : Int
  month : Int
  day : Int
  hour : Int
  minute : Int
  second : Int
  deriving DecidableEq, Repr

/-- The proleptic Gregorian date of a day counted from the epoch. The years are counted from
March, so that a leap day is the last day of its year, in eras of 400 years. -/
def civilDate (daysSinceEpoch : Int) : Int × Int × Int :=
  let z := daysSinceEpoch + 719468
  let era := z / 146097
  let dayOfEra := z % 146097
  let yearOfEra :=
    (dayOfEra - dayOfEra / 1460 + dayOfEra / 36524 - dayOfEra / 146096) / 365
  let dayOfYear := dayOfEra - (365 * yearOfEra + yearOfEra / 4 - yearOfEra / 100)
  let monthFromMarch := (5 * dayOfYear + 2) / 153
  let day := dayOfYear - (153 * monthFromMarch + 2) / 5 + 1
  let month := if monthFromMarch < 10 then monthFromMarch + 3 else monthFromMarch - 9
  let year := yearOfEra + era * 400
  (if month ≤ 2 then year + 1 else year, month, day)

/-- What a clock `offset` seconds east of UTC shows at an instant. -/
def Time.civil (t : Time) (offset : Int) : CivilTime :=
  let seconds := t / Time.second + offset
  let (year, month, day) := civilDate (seconds / 86400)
  let ofDay := seconds % 86400
  { year, month, day, hour := ofDay / 3600, minute := ofDay / 60 % 60, second := ofDay % 60 }

/-- A number with at least `width` digits. -/
def padded (width : Nat) (n : Int) : String :=
  let digits := toString n.natAbs
  let zeros := String.ofList (List.replicate (width - digits.length) '0')
  (if n < 0 then "-" else "") ++ zeros ++ digits

/-- The two digits of a number below 100. -/
theorem padded_two {n : Nat} (hn : n < 100) :
    (padded 2 n).toList = [Nat.digitChar (n / 10), Nat.digitChar (n % 10)] := by
  have hall : ∀ k < 100, (padded 2 (k : Nat)).toList =
      [Nat.digitChar (k / 10), Nat.digitChar (k % 10)] := by decide +kernel
  exact hall n hn

/-- `t.UTC().Format(time.RFC3339)` -/
def Time.rfc3339 (t : Time) : String :=
  let c := t.civil 0
  padded 4 c.year ++ "-" ++ padded 2 c.month ++ "-" ++ padded 2 c.day ++ "T" ++
    padded 2 c.hour ++ ":" ++ padded 2 c.minute ++ ":" ++ padded 2 c.second ++ "Z"

/-- `t.Format("2006-01-02 15:04")`, in the server's zone. -/
def Time.dateAndMinute (rt : Runtime) (t : Time) : String :=
  let c := t.civil (rt.zoneOffset t)
  padded 4 c.year ++ "-" ++ padded 2 c.month ++ "-" ++ padded 2 c.day ++ " " ++
    padded 2 c.hour ++ ":" ++ padded 2 c.minute

/-! ## Strings -/

/-- `unicode.IsSpace` -/
def isSpace (c : Char) : Bool :=
  let n := c.toNat
  (9 ≤ n && n ≤ 13) || n == 0x20 || n == 0x85 || n == 0xA0 || n == 0x1680 ||
    (0x2000 ≤ n && n ≤ 0x200A) || n == 0x2028 || n == 0x2029 || n == 0x202F || n == 0x205F ||
    n == 0x3000

/-- `strings.TrimSpace` -/
def trimSpace (s : String) : String :=
  String.ofList ((s.toList.dropWhile isSpace).reverse.dropWhile isSpace).reverse

/-- Text without white space is as it was. -/
theorem trimSpace_eq_self {s : String} (h : ∀ c ∈ s.toList, isSpace c = false) : trimSpace s = s := by
  have hdrop : ∀ cs : List Char, (∀ c ∈ cs, isSpace c = false) → cs.dropWhile isSpace = cs := by
    intro cs hcs
    cases cs with
    | nil => rfl
    | cons c rest => rw [List.dropWhile_cons_of_neg (by simp [hcs c List.mem_cons_self])]
  unfold trimSpace
  rw [hdrop _ h, hdrop _ fun c hc => h c (List.mem_reverse.mp hc), List.reverse_reverse, String.ofList_toList]

theorem UUID.trimSpace_string (id : UUID) : trimSpace id.string = id.string := by
  refine trimSpace_eq_self fun c hc => ?_
  have hdigit : ∀ x < 16, isSpace (Nat.digitChar x) = false := by decide
  obtain rfl | ⟨x, hx, rfl⟩ := UUID.mem_string hc
  · decide
  · exact hdigit x hx

/-- `strings.ToLower` -/
def Runtime.toLower (rt : Runtime) (s : String) : String :=
  String.ofList (s.toList.map rt.toLowerRune)

/-- `strings.Join` -/
def join (elems : List String) (sep : String) : String := sep.intercalate elems

/-- `sort.Strings` -/
def sortStrings (xs : List String) : List String := xs.insertionSort fun a b => a ≤ b

/-- `sort.SliceStable`: an element moves only past those it is `less` than. -/
def sliceStable {α : Type} (less : α → α → Bool) (xs : List α) : List α :=
  xs.insertionSort fun a b => less b a = false

theorem sliceStable_perm {α : Type} (less : α → α → Bool) (xs : List α) :
    (sliceStable less xs).Perm xs :=
  List.perm_insertionSort _ _

/-- A sort that only looks at a part of its elements. -/
theorem sliceStable_map {α β : Type} {less : α → α → Bool} {less' : β → β → Bool} {f : α → β}
    (h : ∀ a b, less' (f a) (f b) = less a b) (xs : List α) :
    (sliceStable less xs).map f = sliceStable less' (xs.map f) := by
  apply List.map_insertionSort
  intro a _ b _
  rw [h]

/-- Elements that look the same in two slices look the same in them sorted, if the sort goes by a key
of the look and no two looks have the same key. -/
theorem sliceStable_map_eq {α β κ : Type} [LinearOrder κ] {less : α → α → Bool} {look : α → β}
    {key : β → κ} (hless : ∀ a b, less a b = true ↔ key (look a) < key (look b)) {xs ys : List α}
    (hsame : (xs.map look).Perm (ys.map look))
    (hkeys : ∀ b ∈ xs.map look, ∀ c ∈ xs.map look, key b = key c → b = c) :
    (sliceStable less xs).map look = (sliceStable less ys).map look := by
  have hmap : ∀ zs : List α, (sliceStable less zs).map look =
      (zs.map look).insertionSort fun b c => key b ≤ key c := by
    intro zs
    apply List.map_insertionSort
    intro a _ b _
    rw [← Bool.not_eq_true, hless, not_lt]
  have : Std.Total fun b c : β => key b ≤ key c := ⟨fun b c => le_total _ _⟩
  have : IsTrans β fun b c : β => key b ≤ key c := ⟨fun b c d => le_trans⟩
  have hsorted : ∀ zs : List β,
      (zs.insertionSort fun b c => key b ≤ key c).Pairwise fun b c => key b ≤ key c :=
    fun zs => List.pairwise_insertionSort _ zs
  rw [hmap, hmap]
  apply List.Perm.eq_of_pairwise _ (hsorted _) (hsorted _)
  · exact ((List.perm_insertionSort _ _).trans hsame).trans (List.perm_insertionSort _ _).symm
  · intro b c hb hc hbc hcb
    have hb : b ∈ xs.map look := (List.mem_insertionSort _).mp hb
    have hc : c ∈ xs.map look := hsame.symm.subset ((List.mem_insertionSort _).mp hc)
    exact hkeys b hb c hc (le_antisymm hbc hcb)

/-! ## A server to evaluate the definitions on -/

/-- The number that digits in a base write, when they all are digits. -/
def parseDigits (base : Nat) (digits : List Char) : Option Nat :=
  digits.foldlM (fun n (c : Char) =>
    let d := c.toNat
    if 48 ≤ d && d ≤ 57 then some (n * base + (d - 48))
    else if 97 ≤ d && d < 87 + base then some (n * base + (d - 87))
    else none) 0

/-- The day, counted from the epoch, of a proleptic Gregorian date. -/
def daysFromCivil (year month day : Int) : Int :=
  let year := if month ≤ 2 then year - 1 else year
  let monthFromMarch := if month > 2 then month - 3 else month + 9
  let dayOfYear := (153 * monthFromMarch + 2) / 5 + day - 1
  let yearOfEra := year % 400
  year / 400 * 146097 + yearOfEra * 365 + yearOfEra / 4 - yearOfEra / 100 + dayOfYear - 719468

/-- An RFC 3339 timestamp in UTC without a fraction: `2006-01-02T15:04:05Z`. -/
def parseRFC3339 (s : String) : Option Time := do
  let part := fun start len => parseDigits 10 ((s.toList.drop start).take len)
  let (year, month, day) := (← part 0 4, ← part 5 2, ← part 8 2)
  let (hour, minute, second) := (← part 11 2, ← part 14 2, ← part 17 2)
  if s.length = 20 && s.toList.getLast? == some 'Z' then
    let seconds := daysFromCivil year month day * 86400 + hour * 3600 + minute * 60 + second
    some (seconds * Time.second)
  else
    none

/-- A server in UTC whose texts are plain ASCII and whose timestamps are in UTC. -/
def Runtime.ascii : Runtime where
  toLowerRune := Char.toLower
  zoneOffset := fun _ => 0
  parseUUID := fun s =>
    if s.length = 36 then (parseDigits 16 (s.toList.filter (· != '-'))).map UUID.mk else none
  parseTime := parseRFC3339
  sortsBefore := fun a b => a < b
  lower := String.toLower

example : Runtime.ascii.parseUUID (UUID.string ⟨1024⟩) = some ⟨1024⟩ := by decide

example : (Runtime.ascii.parseTime "2026-07-31T12:30:05Z").map Time.rfc3339 =
    some "2026-07-31T12:30:05Z" := by decide

end Doenerstag
