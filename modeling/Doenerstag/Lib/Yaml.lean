import Doenerstag.Lib.Utf8

/-!
# Double-quoted scalars of YAML

What stands between two double quotes, read as the specification has it: escapes, and lines that are folded.
The versions agree in ASCII, and not in which characters beyond it a document may hold and which of them end
a line.

* `scan` — what follows the opening quote, up to a closing quote at the end.
* `scan_plain`, `scan_escaped` — on one line, a character that stands for itself, and an escape.
* `readScalar` — a scalar in UTF-8.
-/

namespace Yaml

/-! ## Characters -/

/-- What a version says of the characters beyond ASCII -/
structure Rules where
  /-- A document may hold the character. -/
  prints : Char → Bool
  /-- The character ends a line, and is read as this one. -/
  breaks : Char → Option Char

/-- YAML 1.1: its line breaks are NEL and the two separators as well, which stay what they are. -/
def Rules.v1_1 : Rules where
  prints := fun c => c.toNat = 0x85 || (0xA0 ≤ c.toNat && c.toNat ≤ 0xFFFD) || 0x10000 ≤ c.toNat
  breaks := fun c =>
    if c.toNat = 0x85 then some '\n' else if c.toNat = 0x2028 || c.toNat = 0x2029 then some c else none

/-- YAML 1.2, between quotes -/
def Rules.v1_2 : Rules where
  prints := fun _ => true
  breaks := fun _ => none

namespace Rules

variable (y : Rules)

def printable (c : Char) : Bool :=
  c == '\t' || c == '\n' || c == '\r' || (0x20 ≤ c.toNat && c.toNat ≤ 0x7E) || (0x7E < c.toNat && y.prints c)

def lineBreak (c : Char) : Option Char :=
  if c = '\n' ∨ c = '\r' then some '\n' else if c.toNat ≤ 0x7E then none else y.breaks c

end Rules

def isBlank (c : Char) : Bool := c == ' ' || c == '\t'

/-- The escapes of one character -/
def simpleEscape : Char → Option Char
  | '0' => some (Char.ofNat 0)
  | 'a' => some (Char.ofNat 7)
  | 'b' => some (Char.ofNat 8)
  | 't' => some '\t'
  | '\t' => some '\t'
  | 'n' => some '\n'
  | 'v' => some (Char.ofNat 11)
  | 'f' => some (Char.ofNat 12)
  | 'r' => some '\r'
  | 'e' => some (Char.ofNat 27)
  | ' ' => some ' '
  | '"' => some '"'
  | '/' => some '/'
  | '\\' => some '\\'
  | 'N' => some (Char.ofNat 0x85)
  | '_' => some (Char.ofNat 0xA0)
  | 'L' => some (Char.ofNat 0x2028)
  | 'P' => some (Char.ofNat 0x2029)
  | _ => none

/-- How many hexadecimal digits follow. -/
def hexWidth : Char → Option Nat
  | 'x' => some 2
  | 'u' => some 4
  | 'U' => some 8
  | _ => none

def hexDigit (c : Char) : Option Nat :=
  if '0' ≤ c ∧ c ≤ '9' then some (c.toNat - 48)
  else if 'a' ≤ c ∧ c ≤ 'f' then some (c.toNat - 87)
  else if 'A' ≤ c ∧ c ≤ 'F' then some (c.toNat - 55)
  else none

/-- The character of exactly so many digits -/
def hexCharacter (width : Nat) (digits : List Char) : Option Char :=
  if digits.length ≠ width then none
  else (digits.foldlM (fun n c => (hexDigit c).map fun d => n * 16 + d) 0).bind fun n =>
    if n.isValidChar then some (Char.ofNat n) else none

/-! ## Lines -/

/-- What is at the end of a line: the breaks, whether the text goes on in the first column, and the text -/
structure LineEnd where
  breaks : List Char
  firstColumn : Bool
  rest : List Char

namespace Rules

variable (y : Rules)

/-- White space up to the next text -/
def lineEnd (firstColumn : Bool) : List Char → LineEnd
  | [] => ⟨[], firstColumn, []⟩
  | c :: rest =>
    if isBlank c then lineEnd false rest
    else match y.lineBreak c with
      | none => ⟨[], firstColumn, c :: rest⟩
      | some b =>
        let next := lineEnd true rest
        -- `\r\n` is one break
        if c = '\r' ∧ rest.head? = some '\n' then next else { next with breaks := b :: next.breaks }

/-- The text is at the end of a line, but for white space. -/
def atLineEnd (text : List Char) : Bool := ((text.dropWhile isBlank).head?.bind y.lineBreak).isSome

/-- `---` or `...`, which no line of a scalar begins with -/
def isIndicator : List Char → Bool
  | a :: b :: c :: rest =>
    ((a == '-' && b == '-' && c == '-') || (a == '.' && b == '.' && c == '.')) &&
      rest.head?.all fun d => isBlank d || (y.lineBreak d).isSome
  | _ => false

end Rules

/-- One break is a space, of more the first goes. One that stays what it is stays. -/
def fold : List Char → List Char
  | [] => []
  | ['\n'] => [' ']
  | '\n' :: rest => rest
  | breaks => breaks

/-! ## Scalars -/

namespace Rules

variable (y : Rules)

/-- What is between the quotes, in at most so many steps. The closing quote is the last character. -/
def scan : Nat → List Char → Option (List Char)
  | 0, _ => none
  | _ + 1, [] => none
  | n + 1, c :: rest =>
    if y.atLineEnd (c :: rest) then
      let line := y.lineEnd false (c :: rest)
      if line.firstColumn && y.isIndicator line.rest then none
      else (scan n line.rest).map (fold line.breaks ++ ·)
    else if c = '"' then (if rest = [] then some [] else none)
    else if c = '\\' then
      match rest with
      | [] => none
      | e :: after =>
        if (y.lineBreak e).isSome then
          -- an escaped break is none, and those after it are kept
          let line := y.lineEnd false (e :: after)
          if line.firstColumn && y.isIndicator line.rest then none
          else (scan n line.rest).map (line.breaks.tail ++ ·)
        else match simpleEscape e with
          | some c => (scan n after).map (c :: ·)
          | none => (hexWidth e).bind fun width => (hexCharacter width (after.take width)).bind fun c =>
            (scan n (after.drop width)).map (c :: ·)
    else (scan n rest).map (c :: ·)

/-- The text that a scalar stands for, in UTF-8 -/
def readText (text : List Char) : Option (List UInt8) :=
  if text.all y.printable then
    match text with
    | '"' :: rest => (y.scan rest.length rest).map Utf8.encode
    | _ => none
  else none

def readScalar (bytes : List UInt8) : Option (List UInt8) := (Utf8.decode bytes).bind y.readText

theorem readScalar_encode (text : List Char) : y.readScalar (Utf8.encode text) = y.readText text := by
  unfold readScalar
  rw [Utf8.decode_encode, Option.bind_some]

variable {y} {n : Nat} {c e : Char} {rest text : List Char}

/-! ## On one line -/

theorem atLineEnd_of_oneLine (h : ∀ c ∈ text, y.lineBreak c = none) : y.atLineEnd text = false := by
  unfold atLineEnd
  cases hhead : (text.dropWhile isBlank).head? with
  | none => rfl
  | some c =>
    have hc : c ∈ text := (List.dropWhile_sublist isBlank).subset (List.mem_of_head? hhead)
    rw [Option.bind_some, h c hc]
    rfl

theorem scan_close (h : y.lineBreak '"' = none) : y.scan (n + 1) ['"'] = some [] := by
  unfold scan
  rw [atLineEnd_of_oneLine (by simpa using h)]
  rfl

/-- A character that stands for itself -/
theorem scan_plain (hline : ∀ d ∈ c :: rest, y.lineBreak d = none) (hquote : c ≠ '"') (hescape : c ≠ '\\') :
    y.scan (n + 1) (c :: rest) = (y.scan n rest).map (c :: ·) := by
  conv_lhs => unfold scan
  rw [atLineEnd_of_oneLine hline, if_neg Bool.false_ne_true, if_neg hquote, if_neg hescape]

theorem scan_escaped (hline : ∀ d ∈ '\\' :: e :: rest, y.lineBreak d = none) (hescape : simpleEscape e = some c) :
    y.scan (n + 1) ('\\' :: e :: rest) = (y.scan n rest).map (c :: ·) := by
  have he : y.lineBreak e = none := hline e (List.mem_cons_of_mem _ List.mem_cons_self)
  conv_lhs => unfold scan
  rw [atLineEnd_of_oneLine hline, if_neg Bool.false_ne_true, if_neg (by decide), if_pos rfl]
  dsimp only
  rw [he, if_neg (by decide), hescape]

end Rules

end Yaml
