import Doenerstag.Lib.Utf16
import Mathlib.Data.Nat.Cast.Basic
import Mathlib.Algebra.Order.Field.Rat

/-!
# JSON texts

A JSON text as it is read, unit of UTF-16 by unit, and as it is written without any blanks. What a writer makes of
the characters of a string is up to it.

* `Tree` — a value, over the strings and the numbers that it is made of.
* `parse` — reading, by the grammar; what follows a value has to be blank.
* `write` — writing, with integers for numbers.
* `Escapes` — what is written for a character is read as that character.
* `parse_write` — **what was written is read as it was**, whatever is nested in whatever.
* `plain_write` — every character of a text is one of the punctuation or comes from the writer of strings.
-/

namespace JsonText

/-- A value. The members of an object stand in their order, with those that occur again. -/
inductive Tree (σ ν : Type) where
  | null
  | bool (b : Bool)
  | number (n : ν)
  | string (s : σ)
  | array (elements : List (Tree σ ν))
  | object (members : List (σ × Tree σ ν))

/-! ## Reading -/

/-- A value as it is read: its strings in UTF-16, and its numbers as the literals say. -/
abbrev Value := Tree (List Nat) ℚ

/-- What is read from the beginning of a text, and the rest of the text -/
abbrev Reads (α : Type) := List Nat → Option (α × List Nat)

def isSpace (u : Nat) : Bool := u = 0x20 || u = 0x09 || u = 0x0A || u = 0x0D

def skipSpace (text : List Nat) : List Nat := text.dropWhile isSpace

def isDigit (u : Nat) : Bool := 0x30 ≤ u && u ≤ 0x39

def hexValue (u : Nat) : Option Nat :=
  if 0x30 ≤ u ∧ u ≤ 0x39 then some (u - 0x30)
  else if 0x61 ≤ u ∧ u ≤ 0x66 then some (u - 0x61 + 10)
  else if 0x41 ≤ u ∧ u ≤ 0x46 then some (u - 0x41 + 10)
  else none

/-- The unit of four hexadecimal digits -/
def hexUnit (a b c d : Nat) : Option Nat := do
  let a ← hexValue a
  let b ← hexValue b
  let c ← hexValue c
  let d ← hexValue d
  pure (((a * 16 + b) * 16 + c) * 16 + d)

/-- What stands after a backslash, but for `u` -/
def escaped (u : Nat) : Option Nat :=
  if u = '"'.toNat ∨ u = '\\'.toNat ∨ u = '/'.toNat then some u
  else if u = 'b'.toNat then some 0x08
  else if u = 'f'.toNat then some 0x0C
  else if u = 'n'.toNat then some 0x0A
  else if u = 'r'.toNat then some 0x0D
  else if u = 't'.toNat then some 0x09
  else none

/-- The rest of a string, with its closing quotation mark -/
def stringBody : Reads (List Nat)
  | [] => none
  | u :: rest =>
    if u = '"'.toNat then some ([], rest)
    else if u = '\\'.toNat then
      match rest with
      | [] => none
      | e :: rest =>
        if e = 'u'.toNat then
          match rest with
          | a :: b :: c :: d :: rest => do
            let unit ← hexUnit a b c d
            let (units, rest) ← stringBody rest
            pure (unit :: units, rest)
          | _ => none
        else do
          let unit ← escaped e
          let (units, rest) ← stringBody rest
          pure (unit :: units, rest)
    else if u < 0x20 then none
    else do
      let (units, rest) ← stringBody rest
      pure (u :: units, rest)

/-- Elements up to the closing bracket. Each takes at least one unit, so `n` may be the length of the text. -/
def elementsFrom {α : Type} (close : Nat) (item : Reads α) : Nat → Reads (List α)
  | 0, _ => none
  | n + 1, text => do
    let (a, text) ← item text
    match skipSpace text with
    | [] => none
    | u :: rest =>
      if u = close then pure ([a], rest)
      else if u = ','.toNat then do
        let (as, rest) ← elementsFrom close item n rest
        pure (a :: as, rest)
      else none

/-- What stands between brackets, after the opening one -/
def bracketed {α : Type} (close : Nat) (item : Reads α) : Reads (List α) := fun text =>
  match skipSpace text with
  | [] => none
  | u :: rest => if u = close then some ([], rest) else elementsFrom close item text.length text

def member {α : Type} (item : Reads α) : Reads (List Nat × α) := fun text =>
  match skipSpace text with
  | [] => none
  | u :: rest =>
    if u = '"'.toNat then do
      let (key, rest) ← stringBody rest
      match skipSpace rest with
      | [] => none
      | u :: rest =>
        if u = ':'.toNat then do
          let (a, rest) ← item rest
          pure ((key, a), rest)
        else none
    else none

def keyword (word : List Char) (v : Value) : Reads Value := fun text =>
  if (word.map Char.toNat).isPrefixOf text then some (v, text.drop word.length) else none

def digitsValue (digits : List Nat) : Nat := digits.foldl (fun n u => 10 * n + (u - 0x30)) 0

/-- A sign, where there is one -/
def sign (plusAllowed : Bool) : List Nat → Bool × List Nat
  | [] => (false, [])
  | u :: rest =>
    if u = '-'.toNat then (true, rest)
    else if plusAllowed && u = '+'.toNat then (false, rest)
    else (false, u :: rest)

/-- The digits after a point, where there is one -/
def fraction : Reads (List Nat)
  | [] => some ([], [])
  | u :: rest =>
    if u = '.'.toNat then
      if rest.takeWhile isDigit = [] then none
      else some (rest.takeWhile isDigit, rest.dropWhile isDigit)
    else some ([], u :: rest)

/-- The exponent of ten, where there is one -/
def exponent : Reads Int
  | [] => some (0, [])
  | u :: rest =>
    if u = 'e'.toNat ∨ u = 'E'.toNat then
      let (negative, rest) := sign true rest
      let n : Int := digitsValue (rest.takeWhile isDigit)
      if rest.takeWhile isDigit = [] then none
      else some (if negative then -n else n, rest.dropWhile isDigit)
    else some (0, u :: rest)

def number : Reads Value := fun text => do
  let (negative, text) := sign false text
  let digits := text.takeWhile isDigit
  if digits = [] ∨ digits.head? = some 0x30 ∧ digits.length ≠ 1 then none
  else do
    let (after, text) ← fraction (text.dropWhile isDigit)
    let (exp, text) ← exponent text
    let q : ℚ := digitsValue (digits ++ after) * (10 : ℚ) ^ (exp - after.length)
    pure (.number (if negative then -q else q), text)

/-- A value, with the reader of what is nested in it -/
def valueOf (item : Reads Value) : Reads Value := fun text =>
  match skipSpace text with
  | [] => none
  | u :: rest =>
    if u = '"'.toNat then (stringBody rest).map fun r => (.string r.1, r.2)
    else if u = '['.toNat then (bracketed ']'.toNat item rest).map fun r => (.array r.1, r.2)
    else if u = '{'.toNat then (bracketed '}'.toNat (member item) rest).map fun r => (.object r.1, r.2)
    else keyword "true".toList (.bool true) (u :: rest) <|> keyword "false".toList (.bool false) (u :: rest) <|>
      keyword "null".toList .null (u :: rest) <|> number (u :: rest)

/-- A value with at most `n` brackets inside each other -/
def value : Nat → Reads Value
  | 0 => fun _ => none
  | n + 1 => valueOf (value n)

/-- A text is a value with blanks around it. -/
def parse (text : List Nat) : Option Value :=
  match value (text.length + 1) text with
  | some (v, rest) => if skipSpace rest = [] then some v else none
  | none => none

/-! ## Writing -/

/-- A value as it is written -/
abbrev Doc := Tree String Int

def integer (n : Int) : List Char := (if n < 0 then ['-'] else []) ++ Nat.toDigits 10 n.natAbs

def quoted (escape : Char → List Char) (s : String) : List Char := '"' :: s.toList.flatMap escape ++ ['"']

mutual

def write (escape : Char → List Char) : Doc → List Char
  | .null => "null".toList
  | .bool b => if b then "true".toList else "false".toList
  | .number n => integer n
  | .string s => quoted escape s
  | .array elements => '[' :: writeElements escape elements
  | .object members => '{' :: writeMembers escape members

/-- The elements and the closing bracket -/
def writeElements (escape : Char → List Char) : List Doc → List Char
  | [] => [']']
  | [a] => write escape a ++ [']']
  | a :: as => write escape a ++ ',' :: writeElements escape as

def writeMembers (escape : Char → List Char) : List (String × Doc) → List Char
  | [] => ['}']
  | [(key, a)] => quoted escape key ++ ':' :: write escape a ++ ['}']
  | (key, a) :: ms => quoted escape key ++ ':' :: write escape a ++ ',' :: writeMembers escape ms

end

/-! ## What was written -/

mutual

/-- What a reader has of a value -/
def meaning : Doc → Value
  | .null => .null
  | .bool b => .bool b
  | .number n => .number n
  | .string s => .string (Utf16.encode s.toList)
  | .array elements => .array (meanings elements)
  | .object members => .object (memberMeanings members)

def meanings : List Doc → List Value
  | [] => []
  | a :: as => meaning a :: meanings as

def memberMeanings : List (String × Doc) → List (List Nat × Value)
  | [] => []
  | (key, a) :: ms => (Utf16.encode key.toList, meaning a) :: memberMeanings ms

end

/-- What is written for a character is read as that character. -/
structure Escapes (escape : Char → List Char) : Prop where
  reads : ∀ c rest, stringBody (Utf16.encode (escape c) ++ rest) =
    (stringBody rest).map fun r => (Utf16.units c ++ r.1, r.2)

/-- Nothing that a number goes on with -/
def Stops (text : List Nat) : Prop :=
  ∀ u ∈ text.head?, isDigit u = false ∧ u ≠ '.'.toNat ∧ u ≠ 'e'.toNat ∧ u ≠ 'E'.toNat

section Numbers

theorem encode_append (a b : List Char) : Utf16.encode (a ++ b) = Utf16.encode a ++ Utf16.encode b :=
  List.flatMap_append

theorem head_toDigits {n : Nat} (h : 0 < n) : (Nat.toDigits 10 n).head? ≠ some '0' := by
  induction n using Nat.strongRecOn with
  | _ n ih =>
    by_cases hsmall : n < 10
    · rw [Nat.toDigits_of_lt_base hsmall]
      have hall : ∀ m < 10, 0 < m → m.digitChar ≠ '0' := by decide
      exact fun heq => hall n hsmall h (Option.some.inj heq)
    · have hquot : 0 < n / 10 := by omega
      rw [Nat.toDigits_of_base_le (by decide) (by omega), List.head?_append_of_ne_nil _ Nat.toDigits_ne_nil]
      exact ih (n / 10) (by omega) hquot

theorem isDigit_toNat {c : Char} (h : c.isDigit = true) : isDigit c.toNat = true := h

variable {n : Nat} {rest : List Nat}

theorem digits_digits (n : Nat) : ∀ u ∈ (Nat.toDigits 10 n).map Char.toNat, isDigit u = true := by
  intro u hu
  obtain ⟨c, hc, rfl⟩ := List.mem_map.mp hu
  exact isDigit_toNat (Nat.isDigit_of_mem_toDigits (by decide) (by decide) hc)

theorem digitsValue_toDigits (n : Nat) : digitsValue ((Nat.toDigits 10 n).map Char.toNat) = n := by
  unfold digitsValue
  rw [List.foldl_map]
  exact Nat.ofDigitChars_ten_toDigits

theorem takeWhile_digits (hstops : Stops rest) :
    ((Nat.toDigits 10 n).map Char.toNat ++ rest).takeWhile isDigit = (Nat.toDigits 10 n).map Char.toNat ∧
      ((Nat.toDigits 10 n).map Char.toNat ++ rest).dropWhile isDigit = rest := by
  rw [List.takeWhile_append_of_pos (digits_digits n), List.dropWhile_append_of_pos (digits_digits n)]
  cases rest with
  | nil => exact ⟨List.append_nil _, rfl⟩
  | cons u rest =>
    have hu := (hstops u rfl).1
    rw [List.takeWhile_cons_of_neg (by simp [hu]), List.dropWhile_cons_of_neg (by simp [hu])]
    exact ⟨List.append_nil _, rfl⟩

theorem fraction_stops (h : Stops rest) : fraction rest = some ([], rest) := by
  cases rest with
  | nil => rfl
  | cons u rest => exact if_neg (h u rfl).2.1

theorem exponent_stops (h : Stops rest) : exponent rest = some (0, rest) := by
  cases rest with
  | nil => rfl
  | cons u rest => exact if_neg (not_or.mpr (h u rfl).2.2)

theorem integer_units (n : Int) : Utf16.encode (integer n) =
    (if n < 0 then ['-'.toNat] else []) ++ (Nat.toDigits 10 n.natAbs).map Char.toNat := by
  have hdigits : Utf16.encode (Nat.toDigits 10 n.natAbs) = (Nat.toDigits 10 n.natAbs).map Char.toNat :=
    Utf16.encode_first fun c hc => by
      have hdigit := Nat.isDigit_of_mem_toDigits (by decide) (by decide) hc
      have hrange : 0x30 ≤ c.toNat ∧ c.toNat ≤ 0x39 := by
        simpa [isDigit] using isDigit_toNat hdigit
      omega
  unfold integer
  rw [encode_append, hdigits]
  split_ifs <;> rfl

/-- The digits of a number, with its sign read -/
theorem number_digits (negative : Bool) {text : List Nat} (hstops : Stops rest)
    (hsign : sign false text = (negative, (Nat.toDigits 10 n).map Char.toNat ++ rest)) :
    number text = some (.number (if negative then -(n : ℚ) else n), rest) := by
  obtain ⟨htake, hdrop⟩ := takeWhile_digits (n := n) hstops
  have hne : (Nat.toDigits 10 n).map Char.toNat ≠ [] := by simp
  have hzero : ¬ (((Nat.toDigits 10 n).map Char.toNat).head? = some 0x30 ∧
      ((Nat.toDigits 10 n).map Char.toNat).length ≠ 1) := by
    rintro ⟨hhead, hlength⟩
    rcases Nat.eq_zero_or_pos n with rfl | hpos
    · exact hlength rfl
    · rw [List.head?_map, Option.map_eq_some_iff] at hhead
      obtain ⟨c, hc, heq⟩ := hhead
      have hc' : c = '0' := Char.toNat_inj.mp heq
      exact head_toDigits hpos (by rw [hc, hc'])
  unfold number
  rw [hsign]
  dsimp only
  rw [htake, hdrop, if_neg (not_or.mpr ⟨hne, hzero⟩), fraction_stops hstops]
  dsimp only [Option.bind_eq_bind, Option.bind_some]
  rw [exponent_stops hstops]
  dsimp only [Option.bind_some]
  rw [List.append_nil, digitsValue_toDigits]
  simp

theorem number_integer (n : Int) (hstops : Stops rest) :
    number (Utf16.encode (integer n) ++ rest) = some (.number n, rest) := by
  rw [integer_units]
  by_cases hneg : n < 0
  · rw [if_pos hneg, number_digits true (n := n.natAbs) hstops rfl]
    have habs : ((n.natAbs : ℤ) : ℚ) = ((-n : ℤ) : ℚ) := by rw [Int.ofNat_natAbs_of_nonpos (by omega)]
    rw [if_pos rfl, ← Int.cast_natCast n.natAbs, habs, Int.cast_neg, neg_neg]
  · rw [if_neg hneg, List.nil_append, number_digits false (n := n.natAbs) hstops ?_]
    · have habs : ((n.natAbs : ℤ) : ℚ) = (n : ℚ) := by rw [Int.natAbs_of_nonneg (by omega)]
      rw [if_neg (by decide), ← Int.cast_natCast n.natAbs, habs]
    · cases hdigits : (Nat.toDigits 10 n.natAbs).map Char.toNat with
      | nil => simp at hdigits
      | cons u us =>
        have hdigit := digits_digits n.natAbs u (hdigits ▸ List.mem_cons_self)
        have hu : u ≠ '-'.toNat := fun heq => by
          rw [heq] at hdigit
          cases hdigit
        show (if u = '-'.toNat then _ else _) = _
        rw [if_neg hu]
        rfl

end Numbers

/-! ## Strings, lists and members -/

theorem skipSpace_cons {u : Nat} (h : isSpace u = false) (rest : List Nat) : skipSpace (u :: rest) = u :: rest :=
  List.dropWhile_cons_of_neg (by simp [h])

section Strings

variable {escape : Char → List Char}

theorem stringBody_unit {u : Nat} (hquote : u ≠ '"'.toNat) (hslash : u ≠ '\\'.toNat) (hcontrol : ¬ u < 0x20)
    (rest : List Nat) : stringBody (u :: rest) = (stringBody rest).map fun r => (u :: r.1, r.2) := by
  rw [stringBody.eq_def]
  dsimp only
  rw [if_neg hquote, if_neg hslash, if_neg hcontrol]
  cases stringBody rest <;> rfl

theorem stringBody_escaped {e unit : Nat} (he : e ≠ 'u'.toNat) (hunit : escaped e = some unit) (rest : List Nat) :
    stringBody ('\\'.toNat :: e :: rest) = (stringBody rest).map fun r => (unit :: r.1, r.2) := by
  rw [stringBody.eq_def]
  dsimp only
  rw [if_neg (by decide), if_pos rfl, if_neg he, hunit]
  cases stringBody rest <;> rfl

theorem stringBody_hex {a b c d unit : Nat} (hunit : hexUnit a b c d = some unit) (rest : List Nat) :
    stringBody ('\\'.toNat :: 'u'.toNat :: a :: b :: c :: d :: rest) =
      (stringBody rest).map fun r => (unit :: r.1, r.2) := by
  rw [stringBody.eq_def]
  dsimp only
  rw [if_neg (by decide), if_pos rfl, if_pos rfl, hunit]
  cases stringBody rest <;> rfl

theorem stringBody_quoted (hescape : Escapes escape) (text : List Char) (rest : List Nat) :
    stringBody (Utf16.encode (text.flatMap escape) ++ '"'.toNat :: rest) = some (Utf16.encode text, rest) := by
  induction text with
  | nil =>
    show stringBody ('"'.toNat :: rest) = _
    unfold stringBody
    exact if_pos rfl
  | cons c text ih =>
    rw [List.flatMap_cons, encode_append, List.append_assoc, hescape.reads, ih]
    rfl

theorem encode_quoted (s : String) : Utf16.encode (quoted escape s) =
    '"'.toNat :: (Utf16.encode (s.toList.flatMap escape) ++ ['"'.toNat]) := by
  show Utf16.units '"' ++ Utf16.encode (s.toList.flatMap escape ++ ['"']) = _
  rw [encode_append]
  rfl

end Strings

section Lists

variable {α β : Type} {close : Nat} {encode : α → List Nat} {item : Reads β} {out : α → β} {as : List α}

/-- Elements with commas between them, and the closing bracket -/
def listed (close : Nat) (encode : α → List Nat) : List α → List Nat
  | [] => [close]
  | [a] => encode a ++ [close]
  | a :: as => encode a ++ ','.toNat :: listed close encode as

/-- A closing bracket -/
structure Closes (close : Nat) : Prop where
  space : isSpace close = false
  comma : ','.toNat ≠ close
  stops : ∀ rest, Stops (close :: rest)

theorem stops_comma (rest : List Nat) : Stops (','.toNat :: rest) := by
  intro u hu
  obtain rfl := Option.some.inj hu
  decide

theorem length_le_listed (as : List α) : as.length ≤ (listed close encode as).length := by
  induction as with
  | nil => exact Nat.zero_le _
  | cons a as ih =>
    cases as with
    | nil =>
      show 1 ≤ (encode a ++ [close]).length
      simp
    | cons b as =>
      show (b :: as).length + 1 ≤ (encode a ++ ','.toNat :: listed close encode (b :: as)).length
      rw [List.length_append, List.length_cons (a := ','.toNat)]
      omega

theorem elementsFrom_listed (hclose : Closes close)
    (hitem : ∀ a ∈ as, ∀ rest, Stops rest → item (encode a ++ rest) = some (out a, rest)) (hne : as ≠ []) {n : Nat}
    (hn : as.length ≤ n) (rest : List Nat) :
    elementsFrom close item n (listed close encode as ++ rest) = some (as.map out, rest) := by
  induction as generalizing n with
  | nil => exact absurd rfl hne
  | cons a as ih =>
    obtain ⟨m, rfl⟩ : ∃ m, n = m + 1 := ⟨n - 1, by simp at hn; omega⟩
    have ha := hitem a List.mem_cons_self
    cases as with
    | nil =>
      show elementsFrom close item (m + 1) ((encode a ++ [close]) ++ rest) = _
      rw [List.append_assoc, elementsFrom, List.singleton_append, ha _ (hclose.stops rest)]
      dsimp only [Option.bind_eq_bind, Option.bind_some]
      rw [skipSpace_cons hclose.space]
      exact if_pos rfl
    | cons b as =>
      have hrest := ih (fun a ha => hitem a (List.mem_cons_of_mem _ ha)) (List.cons_ne_nil b as)
        (Nat.le_of_succ_le_succ hn)
      show elementsFrom close item (m + 1)
        ((encode a ++ ','.toNat :: listed close encode (b :: as)) ++ rest) = _
      rw [List.append_assoc, elementsFrom, List.cons_append, ha _ (stops_comma _)]
      dsimp only [Option.bind_eq_bind, Option.bind_some]
      rw [skipSpace_cons (by decide)]
      dsimp only
      rw [if_neg hclose.comma, if_pos rfl, hrest]
      rfl

theorem bracketed_listed (encode : α → List Nat) (out : α → β) (hclose : Closes close)
    (hitem : ∀ a ∈ as, ∀ rest, Stops rest → item (encode a ++ rest) = some (out a, rest))
    (hbegins : ∀ a ∈ as, ∃ u us, encode a = u :: us ∧ isSpace u = false ∧ u ≠ close) (rest : List Nat) :
    bracketed close item (listed close encode as ++ rest) = some (as.map out, rest) := by
  cases as with
  | nil =>
    unfold bracketed
    show (match skipSpace (close :: rest) with | [] => none | u :: rest' => _) = _
    rw [skipSpace_cons hclose.space]
    exact if_pos rfl
  | cons a as =>
    obtain ⟨u, us, ha, hspace, hne⟩ := hbegins a List.mem_cons_self
    obtain ⟨more, hmore⟩ : ∃ more, listed close encode (a :: as) ++ rest = u :: more := by
      cases as with
      | nil => exact ⟨us ++ [close] ++ rest, by rw [listed, ha]; simp⟩
      | cons b as =>
        refine ⟨us ++ ','.toNat :: listed close encode (b :: as) ++ rest, ?_⟩
        show (encode a ++ ','.toNat :: listed close encode (b :: as)) ++ rest = _
        rw [ha]
        rfl
    have hlength : (a :: as).length ≤ (listed close encode (a :: as) ++ rest).length := by
      rw [List.length_append]
      exact Nat.le_trans (length_le_listed _) (Nat.le_add_right _ _)
    have hread := elementsFrom_listed hclose hitem (List.cons_ne_nil a as) hlength rest
    unfold bracketed
    rw [hmore] at hread hlength ⊢
    rw [skipSpace_cons hspace]
    dsimp only
    rw [if_neg hne, hread]

end Lists

/-! ## Round trip -/

theorem closes_bracket : Closes ']'.toNat where
  space := by decide
  comma := by decide
  stops := fun rest u hu => by
    obtain rfl := Option.some.inj hu
    decide

theorem closes_brace : Closes '}'.toNat where
  space := by decide
  comma := by decide
  stops := fun rest u hu => by
    obtain rfl := Option.some.inj hu
    decide

section RoundTrip

variable {escape : Char → List Char}

theorem writeElements_listed (as : List Doc) : Utf16.encode (writeElements escape as) =
    listed ']'.toNat (fun a => Utf16.encode (write escape a)) as := by
  induction as with
  | nil =>
    unfold writeElements
    rfl
  | cons a as ih =>
    cases as with
    | nil =>
      unfold writeElements listed
      exact encode_append _ _
    | cons b as =>
      show Utf16.encode (write escape a ++ ',' :: writeElements escape (b :: as)) =
        Utf16.encode (write escape a) ++ ','.toNat :: listed _ _ (b :: as)
      rw [encode_append, ← ih]
      rfl

/-- A key and its value -/
def writeMember (escape : Char → List Char) (m : String × Doc) : List Char :=
  quoted escape m.1 ++ ':' :: write escape m.2

theorem writeMembers_listed (ms : List (String × Doc)) : Utf16.encode (writeMembers escape ms) =
    listed '}'.toNat (fun m => Utf16.encode (writeMember escape m)) ms := by
  induction ms with
  | nil =>
    unfold writeMembers
    rfl
  | cons m ms ih =>
    obtain ⟨key, a⟩ := m
    cases ms with
    | nil =>
      unfold writeMembers listed
      exact encode_append _ _
    | cons b ms =>
      show Utf16.encode (writeMember escape (key, a) ++ ',' :: writeMembers escape (b :: ms)) =
        Utf16.encode (writeMember escape (key, a)) ++ ','.toNat :: listed _ _ (b :: ms)
      rw [encode_append, ← ih]
      rfl

theorem meanings_eq (as : List Doc) : meanings as = as.map meaning := by
  induction as with
  | nil => rfl
  | cons a as ih => exact congrArg (meaning a :: ·) ih

theorem memberMeanings_eq (ms : List (String × Doc)) :
    memberMeanings ms = ms.map fun m => (Utf16.encode m.1.toList, meaning m.2) := by
  induction ms with
  | nil => rfl
  | cons m ms ih => exact congrArg ((Utf16.encode m.1.toList, meaning m.2) :: ·) ih

/-- A value begins with none of the blanks, and no closing bracket. -/
theorem head_write (escape : Char → List Char) (v : Doc) : ∃ u us, Utf16.encode (write escape v) = u :: us ∧
    isSpace u = false ∧ u ≠ ']'.toNat ∧ u ≠ '}'.toNat := by
  cases v with
  | null => exact ⟨_, _, rfl, by decide, by decide, by decide⟩
  | bool b => cases b <;> exact ⟨_, _, rfl, by decide, by decide, by decide⟩
  | string s => exact ⟨_, _, encode_quoted s, by decide, by decide, by decide⟩
  | array as => exact ⟨_, _, rfl, by decide, by decide, by decide⟩
  | object ms => exact ⟨_, _, rfl, by decide, by decide, by decide⟩
  | number n =>
    show ∃ u us, Utf16.encode (integer n) = u :: us ∧ _
    rw [integer_units]
    by_cases hneg : n < 0
    · rw [if_pos hneg]
      exact ⟨_, _, rfl, by decide, by decide, by decide⟩
    · rw [if_neg hneg, List.nil_append]
      cases hdigits : (Nat.toDigits 10 n.natAbs).map Char.toNat with
      | nil => simp at hdigits
      | cons u us =>
        have hdigit := digits_digits n.natAbs u (hdigits ▸ List.mem_cons_self)
        have hrange : 0x30 ≤ u ∧ u ≤ 0x39 := by simpa [isDigit] using hdigit
        refine ⟨u, us, rfl, ?_, ?_, ?_⟩
        · unfold isSpace
          simp only [Bool.or_eq_false_iff, decide_eq_false_iff_not]
          omega
        · show u ≠ 0x5D
          omega
        · show u ≠ 0x7D
          omega

/-- A member is read where its value is. -/
theorem member_write (hescape : Escapes escape) {item : Reads Value} {m : String × Doc} {rest : List Nat}
    (hitem : item (Utf16.encode (write escape m.2) ++ rest) = some (meaning m.2, rest)) :
    member item (Utf16.encode (writeMember escape m) ++ rest) =
      some ((Utf16.encode m.1.toList, meaning m.2), rest) := by
  have htext : Utf16.encode (writeMember escape m) ++ rest =
      '"'.toNat :: (Utf16.encode (m.1.toList.flatMap escape) ++
        '"'.toNat :: (':'.toNat :: (Utf16.encode (write escape m.2) ++ rest))) := by
    unfold writeMember
    rw [encode_append, encode_quoted, List.append_assoc]
    show '"'.toNat :: ((Utf16.encode _ ++ ['"'.toNat]) ++ ((':'.toNat :: Utf16.encode (write escape m.2)) ++ rest)) = _
    rw [List.append_assoc]
    rfl
  rw [htext]
  unfold member
  rw [skipSpace_cons (by decide)]
  dsimp only
  rw [if_pos rfl, stringBody_quoted hescape]
  dsimp only [Option.bind_eq_bind, Option.bind_some]
  rw [skipSpace_cons (by decide)]
  dsimp only
  rw [if_pos rfl, hitem]
  rfl

theorem length_mem_elements (escape : Char → List Char) {a : Doc} {as : List Doc} (h : a ∈ as) :
    (write escape a).length < (writeElements escape as).length := by
  induction as with
  | nil => cases h
  | cons b as ih =>
    cases as with
    | nil =>
      obtain rfl := List.mem_singleton.mp h
      show _ < (write escape a ++ [']']).length
      simp
    | cons c as =>
      show _ < (write escape b ++ ',' :: writeElements escape (c :: as)).length
      rw [List.length_append, List.length_cons]
      rcases List.mem_cons.mp h with rfl | h
      · omega
      · have := ih h
        omega

theorem length_mem_members (escape : Char → List Char) {m : String × Doc} {ms : List (String × Doc)} (h : m ∈ ms) :
    (write escape m.2).length < (writeMembers escape ms).length := by
  induction ms with
  | nil => cases h
  | cons b ms ih =>
    have hb : (write escape b.2).length < (writeMember escape b).length := by
      unfold writeMember
      rw [List.length_append, List.length_cons]
      omega
    cases ms with
    | nil =>
      obtain rfl := List.mem_singleton.mp h
      show _ < (writeMember escape m ++ ['}']).length
      rw [List.length_append]
      omega
    | cons c ms =>
      show _ < (writeMember escape b ++ ',' :: writeMembers escape (c :: ms)).length
      rw [List.length_append, List.length_cons]
      rcases List.mem_cons.mp h with rfl | h
      · omega
      · have := ih h
        omega

/-- What is nested in a text is shorter than the text, so that as many brackets may be inside each other as the text
is long. -/
theorem value_write (hescape : Escapes escape) (n : Nat) {v : Doc} {rest : List Nat}
    (hlength : (write escape v).length ≤ n) (hstops : Stops rest) :
    value n (Utf16.encode (write escape v) ++ rest) = some (meaning v, rest) := by
  induction n generalizing v rest with
  | zero =>
    obtain ⟨u, us, hhead, -⟩ := head_write escape v
    rw [List.eq_nil_of_length_eq_zero (Nat.le_zero.mp hlength)] at hhead
    cases hhead
  | succ n ih =>
    cases v with
    | null => rfl
    | bool b => cases b <;> rfl
    | string s =>
      show valueOf (value n) (Utf16.encode (quoted escape s) ++ rest) = _
      rw [encode_quoted]
      show valueOf (value n) ('"'.toNat :: ((Utf16.encode _ ++ ['"'.toNat]) ++ rest)) = _
      rw [List.append_assoc]
      unfold valueOf
      rw [skipSpace_cons (by decide)]
      dsimp only
      rw [if_pos rfl, List.singleton_append, stringBody_quoted hescape]
      rfl
    | array as =>
      show valueOf (value n) ('['.toNat :: (Utf16.encode (writeElements escape as) ++ rest)) = _
      have hlist := bracketed_listed (fun a => Utf16.encode (write escape a)) meaning closes_bracket
        (fun a (ha : a ∈ as) rest' hrest' => ih (by
          have hshort := length_mem_elements escape ha
          have hlong : (write escape (.array as)).length = (writeElements escape as).length + 1 := rfl
          omega) hrest')
        (fun a _ => by
          obtain ⟨u, us, heq, hspace, hne, -⟩ := head_write escape a
          exact ⟨u, us, heq, hspace, hne⟩) rest
      rw [writeElements_listed]
      unfold valueOf
      rw [skipSpace_cons (by decide)]
      dsimp only
      rw [if_neg (by decide), if_pos rfl, hlist, ← meanings_eq]
      rfl
    | object ms =>
      show valueOf (value n) ('{'.toNat :: (Utf16.encode (writeMembers escape ms) ++ rest)) = _
      have hlist := bracketed_listed (fun m => Utf16.encode (writeMember escape m))
        (fun m : String × Doc => (Utf16.encode m.1.toList, meaning m.2)) closes_brace
        (fun m (hm : m ∈ ms) rest' hrest' => member_write hescape (ih (by
          have hshort := length_mem_members escape hm
          have hlong : (write escape (.object ms)).length = (writeMembers escape ms).length + 1 := rfl
          omega) hrest'))
        (fun m _ => ⟨'"'.toNat, _, by
          unfold writeMember
          rw [encode_append, encode_quoted]
          rfl, by decide, by decide⟩) rest
      rw [writeMembers_listed]
      unfold valueOf
      rw [skipSpace_cons (by decide)]
      dsimp only
      rw [if_neg (by decide), if_neg (by decide), if_pos rfl, hlist, ← memberMeanings_eq]
      rfl
    | number k =>
      have hnumber := number_integer k hstops
      obtain ⟨u, us, hhead, hspace, -⟩ := head_write escape (.number k)
      have hunits : Utf16.encode (integer k) = u :: us := hhead
      have hfirst : u = '-'.toNat ∨ isDigit u = true := by
        rw [integer_units] at hunits
        by_cases hneg : k < 0
        · rw [if_pos hneg] at hunits
          exact .inl (List.cons.inj hunits).1.symm
        · rw [if_neg hneg, List.nil_append] at hunits
          exact .inr (digits_digits _ u (hunits ▸ List.mem_cons_self))
      have hword : ∀ (c : Char) (word : List Char) (w : Value), u ≠ c.toNat →
          keyword (c :: word) w (u :: (us ++ rest)) = none := fun c word w hne => by
        unfold keyword
        rw [List.map_cons, List.isPrefixOf_cons_cons, beq_eq_false_iff_ne.mpr hne.symm]
        rfl
      have hother : ∀ c ∈ ['"', '[', '{', 't', 'f', 'n'], u ≠ c.toNat := by
        have hrange : u = 0x2D ∨ 0x30 ≤ u ∧ u ≤ 0x39 := by simpa [isDigit] using hfirst
        intro c hc
        have hall : ∀ c ∈ ['"', '[', '{', 't', 'f', 'n'], c.toNat ≠ 0x2D ∧ (c.toNat < 0x30 ∨ 0x39 < c.toNat) := by
          simp
        have hc' := hall c hc
        omega
      show valueOf (value n) (Utf16.encode (integer k) ++ rest) = some (.number k, rest)
      rw [hunits, List.cons_append] at hnumber ⊢
      unfold valueOf
      rw [skipSpace_cons hspace]
      dsimp only
      rw [if_neg (hother '"' (by simp)), if_neg (hother '[' (by simp)), if_neg (hother '{' (by simp)),
        show "true".toList = 't' :: "rue".toList from rfl, show "false".toList = 'f' :: "alse".toList from rfl,
        show "null".toList = 'n' :: "ull".toList from rfl, hword 't' _ _ (hother 't' (by simp)),
        hword 'f' _ _ (hother 'f' (by simp)), hword 'n' _ _ (hother 'n' (by simp)), hnumber]
      rfl

theorem length_le_encode (text : List Char) : text.length ≤ (Utf16.encode text).length := by
  induction text with
  | nil => exact Nat.zero_le _
  | cons c text ih =>
    have hunits : 1 ≤ (Utf16.units c).length := by
      unfold Utf16.units
      split_ifs <;> simp
    show text.length + 1 ≤ (Utf16.units c ++ Utf16.encode text).length
    rw [List.length_append]
    omega

/-- **What was written is read as it was.** -/
theorem parse_write (hescape : Escapes escape) (v : Doc) :
    parse (Utf16.encode (write escape v)) = some (meaning v) := by
  have hlength := Nat.le_succ_of_le (length_le_encode (write escape v))
  have hread : value _ (_ ++ []) = some (meaning v, []) := value_write hescape _ hlength nofun
  rw [List.append_nil] at hread
  unfold parse
  rw [hread]
  exact if_pos rfl

/-! ## Characters -/

/-- The characters of a text that are of no string -/
def punctuation : List Char := "truefalsn-0123456789\"[],:".toList ++ ['{', '}']

theorem mem_integer {n : Int} {c : Char} (h : c ∈ integer n) : c = '-' ∨ c.isDigit = true := by
  unfold integer at h
  rcases List.mem_append.mp h with h | h
  · split_ifs at h
    · exact .inl (List.mem_singleton.mp h)
    · cases h
  · exact .inr (Nat.isDigit_of_mem_toDigits (by decide) (by decide) h)

end RoundTrip

section Characters

variable {escape : Char → List Char} {P : Char → Prop}

/-- What holds of the punctuation, and of everything that is written for a character of a string -/
structure Throughout (escape : Char → List Char) (P : Char → Prop) : Prop where
  punctuation : ∀ c ∈ punctuation, P c
  digits : ∀ c, c.isDigit = true → P c
  strings : ∀ d, ∀ c ∈ escape d, P c

theorem plain_quoted (h : Throughout escape P) (s : String) : ∀ c ∈ quoted escape s, P c := by
  intro c hc
  have hquote : P '"' := h.punctuation '"' (by decide)
  unfold quoted at hc
  rcases List.mem_append.mp hc with hc | hc
  · rcases List.mem_cons.mp hc with rfl | hc
    · exact hquote
    · obtain ⟨d, -, hd⟩ := List.mem_flatMap.mp hc
      exact h.strings d c hd
  · rw [List.mem_singleton.mp hc]
    exact hquote

mutual

/-- **What holds of the punctuation and of what is written for strings holds of every text.** -/
theorem plain_write (h : Throughout escape P) : ∀ v : Doc, ∀ c ∈ write escape v, P c
  | .null, c, hc => h.punctuation c ((show "null".toList ⊆ punctuation by decide) hc)
  | .bool true, c, hc => h.punctuation c ((show "true".toList ⊆ punctuation by decide) hc)
  | .bool false, c, hc => h.punctuation c ((show "false".toList ⊆ punctuation by decide) hc)
  | .number n, c, hc => by
    rcases mem_integer hc with rfl | hdigit
    · exact h.punctuation '-' (by decide)
    · exact h.digits c hdigit
  | .string s, c, hc => plain_quoted h s c hc
  | .array as, c, hc => by
    rcases List.mem_cons.mp hc with rfl | hc
    · exact h.punctuation '[' (by decide)
    · exact plain_writeElements h as c hc
  | .object ms, c, hc => by
    rcases List.mem_cons.mp hc with rfl | hc
    · exact h.punctuation '{' (by decide)
    · exact plain_writeMembers h ms c hc

theorem plain_writeElements (h : Throughout escape P) : ∀ as : List Doc, ∀ c ∈ writeElements escape as, P c
  | [], c, hc => by
    rw [List.mem_singleton.mp hc]
    exact h.punctuation ']' (by decide)
  | [a], c, hc => by
    rcases List.mem_append.mp hc with hc | hc
    · exact plain_write h a c hc
    · rw [List.mem_singleton.mp hc]
      exact h.punctuation ']' (by decide)
  | a :: b :: as, c, hc => by
    rcases List.mem_append.mp hc with hc | hc
    · exact plain_write h a c hc
    · rcases List.mem_cons.mp hc with rfl | hc
      · exact h.punctuation ',' (by decide)
      · exact plain_writeElements h (b :: as) c hc

theorem plain_writeMembers (h : Throughout escape P) :
    ∀ ms : List (String × Doc), ∀ c ∈ writeMembers escape ms, P c
  | [], c, hc => by
    rw [List.mem_singleton.mp hc]
    exact h.punctuation '}' (by decide)
  | [(key, a)], c, hc => by
    rcases List.mem_append.mp hc with hc | hc
    · rcases List.mem_append.mp hc with hc | hc
      · exact plain_quoted h key c hc
      · rcases List.mem_cons.mp hc with rfl | hc
        · exact h.punctuation ':' (by decide)
        · exact plain_write h a c hc
    · rw [List.mem_singleton.mp hc]
      exact h.punctuation '}' (by decide)
  | (key, a) :: b :: ms, c, hc => by
    rcases List.mem_append.mp hc with hc | hc
    · rcases List.mem_append.mp hc with hc | hc
      · exact plain_quoted h key c hc
      · rcases List.mem_cons.mp hc with rfl | hc
        · exact h.punctuation ':' (by decide)
        · exact plain_write h a c hc
    · rcases List.mem_cons.mp hc with rfl | hc
      · exact h.punctuation ',' (by decide)
      · exact plain_writeMembers h (b :: ms) c hc

end

end Characters

end JsonText
