import Doenerstag.Auth.Complexity
import Doenerstag.Lib.Utf16

/-!
# The password rules in the browser (`frontend/src/password.ts`)

The form says what the server will decide. It works on UTF-16 text, the server on code points.

* `shownClass_units` — the two give a character the same class.
* `password_judged_alike` — **the form and the server judge every password alike.**
-/

namespace Doenerstag

namespace PasswordForm

/-- `PasswordClass` -/
inductive ShownClass where
  | upper
  | lower
  | digit
  | special
  | other
  deriving DecidableEq, Repr

/-- `CLASSES` -/
def classes : List ShownClass := [.upper, .lower, .digit, .special, .other]

/-- `SPECIAL_CHARACTERS` -/
def specialUnits : List Nat := Utf16.encode "<>|-_.:,;#'!\"§$%&/()[]\x7b\x7d?@".toList

def minLength : Nat := 10
def maxLength : Nat := 256
def requiredClasses : Nat := 3

/-- `from <= character && character <= to` -/
def between (low high : Char) (character : List Nat) : Bool :=
  Utf16.le (Utf16.units low) character && Utf16.le character (Utf16.units high)

/-- `SPECIAL_CHARACTERS.includes(character)` -/
def isSpecial (character : List Nat) : Bool := decide (character <:+: specialUnits)

variable (u : UnicodeTables)

def isExtended (character : List Nat) : Bool :=
  if character = Utf16.units ' ' then false
  else if !u.printing (Utf16.codePoint character) then false
  else !isSpecial character

/-- The class that `satisfiedClasses` adds for a character. -/
def shownClass (character : List Nat) : Option ShownClass :=
  if between 'A' 'Z' character then some .upper
  else if between 'a' 'z' character then some .lower
  else if between '0' '9' character then some .digit
  else if isSpecial character then some .special
  else if isExtended u character then some .other
  else none

/-- The characters of `password.normalize("NFC")`. -/
def characters (password : List Char) : List (List Nat) :=
  Utf16.characters (Utf16.encode (u.nfc password))

def satisfiedClasses (password : List Char) : List ShownClass :=
  classes.filter fun name => (characters u password).any fun c => shownClass u c == some name

def passwordLength (password : List Char) : Nat := (characters u password).length

/-- `PasswordVerdict` -/
structure Verdict where
  satisfied : List ShownClass
  longEnough : Bool
  tooLong : Bool
  acceptable : Bool
  deriving DecidableEq, Repr

def checkPassword (password : List Char) : Verdict :=
  let satisfied := satisfiedClasses u password
  let length := passwordLength u password
  let longEnough := decide (minLength ≤ length)
  let tooLong := decide (maxLength < length)
  { satisfied, longEnough, tooLong
    acceptable := longEnough && !tooLong && decide (requiredClasses ≤ satisfied.length) }

end PasswordForm

namespace Auth.PasswordClass

/-- The browser's name of a class. -/
def shown : Auth.PasswordClass → PasswordForm.ShownClass
  | .upper => .upper
  | .lower => .lower
  | .digit => .digit
  | .special => .special
  | .extended => .other

theorem shown_inj {c d : Auth.PasswordClass} (h : c.shown = d.shown) : c = d := by
  cases c <;> cases d <;> first | rfl | cases h

end Auth.PasswordClass

namespace PasswordForm

variable (u : UnicodeTables)

theorem between_units {low high : Char} (hlow : low.toNat < 0xD800) (hhigh : high.toNat < 0xD800)
    (r : Char) : between low high (Utf16.units r) = decide (low ≤ r ∧ r ≤ high) := by
  unfold between
  rw [Utf16.units_first (c := low) (by omega), Utf16.units_first (c := high) (by omega),
    Utf16.le_units hlow, Utf16.units_le hhigh, Bool.decide_and]
  rfl

theorem isSpecial_units (r : Char) :
    isSpecial (Utf16.units r) = Auth.specialCharacters.contains r := by
  have hall : Auth.specialCharacters.all (fun c => decide (c.toNat < 0xD800)) = true := by
    decide +kernel
  have hfirst : ∀ c ∈ Auth.specialCharacters, c.toNat < 0xD800 := fun c hc =>
    of_decide_eq_true (List.all_eq_true.mp hall c hc)
  have hwithin := Utf16.infix_encode_iff hfirst r
  unfold isSpecial
  rw [List.contains_eq_mem]
  exact decide_eq_decide.mpr hwithin

theorem units_inj {r s : Char} (h : Utf16.units r = Utf16.units s) : r = s := by
  have hpoint := congrArg Utf16.codePoint h
  rw [Utf16.codePoint_units, Utf16.codePoint_units] at hpoint
  exact Char.toNat_inj.mp hpoint

/-- **A character has the same class** in the browser and on the server. -/
theorem shownClass_units (r : Char) :
    shownClass u (Utf16.units r) = (Auth.classOf u r).map Auth.PasswordClass.shown := by
  unfold shownClass Auth.classOf
  rw [between_units (by decide) (by decide), between_units (by decide) (by decide),
    between_units (by decide) (by decide), isSpecial_units]
  by_cases hupper : 'A' ≤ r ∧ r ≤ 'Z'
  · rw [decide_eq_true hupper, if_pos rfl, if_pos hupper]
    rfl
  rw [decide_eq_false hupper, if_neg Bool.false_ne_true, if_neg hupper]
  by_cases hlower : 'a' ≤ r ∧ r ≤ 'z'
  · rw [decide_eq_true hlower, if_pos rfl, if_pos hlower]
    rfl
  rw [decide_eq_false hlower, if_neg Bool.false_ne_true, if_neg hlower]
  by_cases hdigit : '0' ≤ r ∧ r ≤ '9'
  · rw [decide_eq_true hdigit, if_pos rfl, if_pos hdigit]
    rfl
  rw [decide_eq_false hdigit, if_neg Bool.false_ne_true, if_neg hdigit]
  -- what is left has none of the first three classes
  have hothers : ¬ ('A' ≤ r ∧ r ≤ 'Z' ∨ 'a' ≤ r ∧ r ≤ 'z' ∨ '0' ≤ r ∧ r ≤ '9') := by
    rintro (h | h | h)
    · exact hupper h
    · exact hlower h
    · exact hdigit h
  have hextended : isExtended u (Utf16.units r) = Auth.isExtended u r := by
    unfold isExtended Auth.isExtended Auth.isPrint
    rw [Utf16.codePoint_units, isSpecial_units, if_neg hothers]
    by_cases hspace : r = ' '
    · rw [if_pos (congrArg Utf16.units hspace), if_pos hspace]
    · rw [if_neg fun h => hspace (units_inj h), if_neg hspace, beq_eq_false_iff_ne.mpr hspace,
        Bool.false_or]
  rw [hextended]
  split_ifs <;> rfl

/-- **The form shows the classes** that the server finds. -/
theorem satisfiedClasses_shown (password : List Char) :
    satisfiedClasses u password = (Auth.satisfiedClasses u password).map Auth.PasswordClass.shown := by
  have hclass : ∀ c : Auth.PasswordClass,
      ((characters u password).any fun units => shownClass u units == some c.shown) =
        (u.nfc password).any fun r => Auth.classOf u r == some c := by
    intro c
    unfold characters
    rw [Utf16.characters_encode, List.any_map]
    congr 1
    funext r
    show (shownClass u (Utf16.units r) == some c.shown) = (Auth.classOf u r == some c)
    rw [shownClass_units]
    cases Auth.classOf u r with
    | none => rfl
    | some d =>
      refine Bool.eq_iff_iff.mpr ?_
      rw [Option.map_some, beq_iff_eq, beq_iff_eq, Option.some_inj, Option.some_inj]
      exact ⟨Auth.PasswordClass.shown_inj, congrArg _⟩
  have hclasses : classes = Auth.allClasses.map Auth.PasswordClass.shown := rfl
  unfold satisfiedClasses Auth.satisfiedClasses
  rw [hclasses, List.filter_map]
  congr 2
  funext c
  exact hclass c

theorem passwordLength_eq (password : List Char) :
    passwordLength u password = (u.nfc password).length := by
  unfold passwordLength characters
  rw [Utf16.characters_encode, List.length_map]

end PasswordForm

open PasswordForm in
/-- **The form and the server judge alike.** For every password the form finds it acceptable just if
the server accepts it, both find the same classes, and both find it too short or too long together. -/
theorem password_judged_alike (u : UnicodeTables) (password : List Char) :
    ((checkPassword u password).acceptable = true ↔ Auth.validateComplexity u password = .ok ()) ∧
    (checkPassword u password).satisfied =
      (Auth.satisfiedClasses u password).map Auth.PasswordClass.shown ∧
    ((checkPassword u password).longEnough = false ↔
      ∃ e, Auth.validateComplexity u password = .error e ∧ e.tooShort = true) ∧
    ((checkPassword u password).tooLong = true ↔
      ∃ e, Auth.validateComplexity u password = .error e ∧ e.tooLong = true) ∧
    ∀ e, Auth.validateComplexity u password = .error e → e.tooShort = false → e.tooLong = false →
      (checkPassword u password).satisfied = e.satisfied.map Auth.PasswordClass.shown := by
  have hclasses := satisfiedClasses_shown u password
  have hnormal : Auth.satisfiedClasses u (u.nfc password) = Auth.satisfiedClasses u password := by
    unfold Auth.satisfiedClasses
    rw [u.nfc_nfc]
  unfold checkPassword Auth.validateComplexity
  simp only [passwordLength_eq, hclasses, hnormal, List.length_map]
  generalize (u.nfc password).length = n, Auth.satisfiedClasses u password = found
  unfold minLength maxLength requiredClasses Auth.minPasswordLength Auth.maxPasswordLength
    Auth.requiredClasses
  by_cases hshort : n < 10
  · simp [hshort]
    omega
  by_cases hlong : 256 < n
  · simp [hshort, hlong]
  by_cases hfew : found.length < 3
  · simp [hshort, hlong, hfew]
  · simp [hshort, hlong, hfew]
    omega

/-- Texts of ASCII are in normal form as they are. -/
def asciiTables : UnicodeTables where
  letter := fun r => 65 ≤ r && r ≤ 90 || (97 ≤ r && r ≤ 122)
  mark := fun _ => false
  number := fun r => 48 ≤ r && r ≤ 57
  punctuation := fun r => [33, 34, 35, 37, 38, 39, 40, 41, 42, 44, 45, 46, 47, 58, 59, 63].contains r
  symbol := fun r => [36, 43, 60, 61, 62, 94, 96, 124, 126].contains r
  nfc := fun text => text
  nfc_nfc := fun _ => rfl

-- a space earns nothing, but it counts
example : PasswordForm.checkPassword asciiTables "Hello world".toList =
    { satisfied := [.upper, .lower], longEnough := true, tooLong := false, acceptable := false } := by
  decide +kernel

end Doenerstag
