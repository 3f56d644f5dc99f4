import Mathlib.Data.List.Basic

/-!
# What a password has to have (`internal/auth/complexity.go`)

A password is a text of Unicode characters. The tables that say what the characters are, and what a
text looks like in normal form, are the Unicode standard's.
-/

namespace Doenerstag

/-- The Unicode tables, by code point, and the normal form NFC. -/
structure UnicodeTables where
  letter : Nat → Bool
  mark : Nat → Bool
  number : Nat → Bool
  punctuation : Nat → Bool
  symbol : Nat → Bool
  nfc : List Char → List Char
  /-- A text in normal form is left as it is. -/
  nfc_nfc : ∀ text, nfc (nfc text) = nfc text

/-- `PrintRanges`, and what the browser's expression names: L, M, N, P and S. -/
def UnicodeTables.printing (u : UnicodeTables) (r : Nat) : Bool :=
  u.letter r || u.mark r || u.number r || u.punctuation r || u.symbol r

namespace Auth

def minPasswordLength : Nat := 10
def maxPasswordLength : Nat := 256
def requiredClasses : Nat := 3

def specialCharacters : List Char := "<>|-_.:,;#'!\"§$%&/()[]\x7b\x7d?@".toList

/-- `Class` -/
inductive PasswordClass where
  | upper
  | lower
  | digit
  | special
  | extended
  deriving DecidableEq, Repr

def allClasses : List PasswordClass := [.upper, .lower, .digit, .special, .extended]

structure ComplexityError where
  tooShort : Bool
  tooLong : Bool
  length : Nat
  satisfied : List PasswordClass
  deriving DecidableEq, Repr

variable (u : UnicodeTables)

/-- `unicode.IsPrint` -/
def isPrint (r : Char) : Bool := r == ' ' || u.printing r.toNat

def isExtended (r : Char) : Bool :=
  if r = ' ' then false
  else if !isPrint u r then false
  else if 'A' ≤ r ∧ r ≤ 'Z' ∨ 'a' ≤ r ∧ r ≤ 'z' ∨ '0' ≤ r ∧ r ≤ '9' then false
  else !specialCharacters.contains r

/-- The class of a character, if it has one. -/
def classOf (r : Char) : Option PasswordClass :=
  if 'A' ≤ r ∧ r ≤ 'Z' then some .upper
  else if 'a' ≤ r ∧ r ≤ 'z' then some .lower
  else if '0' ≤ r ∧ r ≤ '9' then some .digit
  else if specialCharacters.contains r then some .special
  else if isExtended u r then some .extended
  else none

def satisfiedClasses (password : List Char) : List PasswordClass :=
  let normalised := u.nfc password
  allClasses.filter fun c => normalised.any fun r => classOf u r == some c

def validateComplexity (password : List Char) : Except ComplexityError Unit :=
  let normalised := u.nfc password
  let length := normalised.length
  if length < minPasswordLength then
    .error { tooShort := true, tooLong := false, length, satisfied := [] }
  else if maxPasswordLength < length then
    .error { tooShort := false, tooLong := true, length, satisfied := [] }
  else
    let satisfied := satisfiedClasses u normalised
    if satisfied.length < requiredClasses then
      .error { tooShort := false, tooLong := false, length := 0, satisfied }
    else .ok ()

end Auth

end Doenerstag
