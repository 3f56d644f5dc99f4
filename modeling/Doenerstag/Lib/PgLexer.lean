import Mathlib.Data.List.Basic

/-!
# Tokens of PostgreSQL

The lexical rules of PostgreSQL, with `standard_conforming_strings` on. A statement is its bytes.

* `token` — the token at the beginning of a text, and what comes after it. `Lexes` — the tokens of a text, with
  white space and comments between them; `Lexes.unique` — there is at most one such list.
* `quoted_doubled` — **what is put between quotes with its own quotes doubled is read as it was**, whatever it is.
* `Piece`, `render` — a statement made of words, quoted names and quoted strings. `lexes_render` — **its tokens
  are its pieces.**

Constants with a prefix, and numbers, are kept as they are written.
-/

namespace PgLexer

/-! ## Bytes -/

def squote : UInt8 := 39
def dquote : UInt8 := 34
def backslash : UInt8 := 92
def dollar : UInt8 := 36
def dash : UInt8 := 45
def slash : UInt8 := 47
def star : UInt8 := 42
def blank : UInt8 := 32
def comma : UInt8 := 44
def dot : UInt8 := 46

def isNewline (b : UInt8) : Bool := b == 10 || b == 13

def isSpace (b : UInt8) : Bool := b == 32 || (9 ≤ b && b ≤ 13)

def isDigit (b : UInt8) : Bool := 48 ≤ b && b ≤ 57

def isLetter (b : UInt8) : Bool := (65 ≤ b && b ≤ 90) || (97 ≤ b && b ≤ 122)

def identStart (b : UInt8) : Bool := isLetter b || b == 95 || 128 ≤ b

def identCont (b : UInt8) : Bool := identStart b || isDigit b || b == dollar

/-- `~ ! @ # % ^ & | ? + - * / < > =` and the backtick -/
def isOperator (b : UInt8) : Bool :=
  [126, 33, 64, 35, 37, 94, 38, 124, 63, 96, 43, 45, 42, 47, 60, 62, 61].contains b

/-- `, ( ) [ ] . ; :` and the operators of one byte that are in the grammar -/
def isSelf (b : UInt8) : Bool := [44, 40, 41, 91, 93, 46, 59, 58, 43, 45, 42, 47, 37, 94, 60, 62, 61].contains b

def toLower (b : UInt8) : UInt8 := if 65 ≤ b && b ≤ 90 then b + 32 else b

/-! ## White space and comments -/

/-- What comes after a comment that is nested so deep; none when it is not closed -/
def comment : Nat → List UInt8 → Option (List UInt8)
  | depth, a :: b :: rest =>
    if a = slash ∧ b = star then comment (depth + 1) rest
    else if a = star ∧ b = slash then if depth = 0 then some rest else comment (depth - 1) rest
    else comment depth (b :: rest)
  | _, _ => none

/-- What comes after white space and comments -/
def skipBlanks : Nat → List UInt8 → Option (List UInt8)
  | 0, s => some s
  | _ + 1, [] => some []
  | fuel + 1, b :: rest =>
    if isSpace b then skipBlanks fuel rest
    else if b = dash ∧ rest.head? = some dash then skipBlanks fuel (rest.dropWhile fun c => !isNewline c)
    else if b = slash ∧ rest.head? = some star then (comment 0 rest.tail).bind (skipBlanks fuel)
    else some (b :: rest)

/-! ## Quotes -/

/-- What is between quotes, two of them standing for one, and what comes after the closing one -/
def quoted (q : UInt8) : List UInt8 → Option (List UInt8 × List UInt8)
  | [] => none
  | [b] => if b = q then some ([], []) else none
  | b :: c :: rest =>
    if b = q then
      if c = q then (quoted q rest).map fun r => (q :: r.1, r.2) else some ([], c :: rest)
    else (quoted q (c :: rest)).map fun r => (b :: r.1, r.2)

/-- What comes after the quote that goes on with a string after a line break -/
def continuation (inComment newline : Bool) : List UInt8 → Option (List UInt8)
  | [] => none
  | b :: rest =>
    if inComment then continuation (!isNewline b) (newline || isNewline b) rest
    else if b = squote then if newline then some rest else none
    else if isNewline b then continuation false true rest
    else if isSpace b then continuation false newline rest
    else if b = dash ∧ rest.head? = some dash then continuation true newline rest
    else none

/-- A string, after its first quote, with all that goes on with it -/
def stringFrom : Nat → List UInt8 → Option (List UInt8 × List UInt8)
  | 0, _ => none
  | fuel + 1, s =>
    (quoted squote s).bind fun r =>
      match continuation false false r.2 with
      | none => some r
      | some more => (stringFrom fuel more).map fun r' => (r.1 ++ r'.1, r'.2)

/-- A string with escapes, as it is written -/
def escaped : List UInt8 → Option (List UInt8 × List UInt8)
  | [] => none
  | [b] => if b = squote then some ([], []) else none
  | b :: c :: rest =>
    if b = backslash then (escaped rest).map fun r => (b :: c :: r.1, r.2)
    else if b = squote then
      if c = squote then (escaped rest).map fun r => (b :: c :: r.1, r.2) else some ([], c :: rest)
    else (escaped (c :: rest)).map fun r => (b :: r.1, r.2)

/-- What is before the delimiter, and what comes after it -/
def upTo (delimiter : List UInt8) : List UInt8 → Option (List UInt8 × List UInt8)
  | [] => if delimiter = [] then some ([], []) else none
  | b :: rest =>
    if delimiter.isPrefixOf (b :: rest) then some ([], (b :: rest).drop delimiter.length)
    else (upTo delimiter rest).map fun r => (b :: r.1, r.2)

/-! ## Names -/

/-- How a name is cut that is too long: between two characters of the database's encoding -/
structure Clip where
  clip : List UInt8 → List UInt8
  isPrefix : ∀ s, clip s <+: s
  bounded : ∀ s, (clip s).length ≤ 63
  keeps : ∀ s, s.length ≤ 63 → clip s = s

/-- In an encoding of one byte for a character -/
def Clip.bytes : Clip where
  clip := List.take 63
  isPrefix := List.take_prefix 63
  bounded := List.length_take_le 63
  keeps := fun _ => List.take_of_length_le

/-! ## Tokens -/

inductive Token where
  /-- a key word or an identifier, in lower case -/
  | word (name : List UInt8)
  | quotedIdentifier (name : List UInt8)
  | string (value : List UInt8)
  /-- `B''`, `X''`, `N''` -/
  | prefixed (kind : UInt8) (text : List UInt8)
  /-- `E''` -/
  | escapeString (text : List UInt8)
  /-- `U&""` -/
  | unicodeIdentifier (text : List UInt8)
  /-- `U&''` -/
  | unicodeString (text : List UInt8)
  | dollarString (value : List UInt8)
  | number (text : List UInt8)
  | parameter (digits : List UInt8)
  | operator (name : List UInt8)
  | symbol (b : UInt8)
  deriving DecidableEq, Repr

/-- A number: digits with a fraction and an exponent, and no letter right after it -/
def number (s : List UInt8) : Option (Token × List UInt8) :=
  let whole := s.takeWhile isDigit
  let fraction :=
    match s.drop whole.length with
    | b :: rest => if b = dot then b :: rest.takeWhile isDigit else []
    | [] => []
  let mantissa := whole ++ fraction
  let exponent :=
    match s.drop mantissa.length with
    | e :: rest =>
      if e = 69 ∨ e = 101 then
        let sign := rest.take (if rest.head? = some 43 ∨ rest.head? = some dash then 1 else 0)
        let digits := (rest.drop sign.length).takeWhile isDigit
        if digits = [] then [] else e :: (sign ++ digits)
      else []
    | [] => []
  let text := mantissa ++ exponent
  let rest := s.drop text.length
  if (rest.head?.map identStart).getD false then none else some (.number text, rest)

/-- An operator: up to a comment, and not ending with a sign unless it has another character that says so -/
def operatorName (s : List UInt8) : List UInt8 :=
  let all := s.takeWhile isOperator
  let startsComment (i : Nat) : Bool := [dash, dash].isPrefixOf (all.drop i) || [slash, star].isPrefixOf (all.drop i)
  let beforeComment := all.take (((List.range all.length).find? startsComment).getD all.length)
  if beforeComment.any fun b => [126, 33, 64, 35, 37, 94, 38, 124, 63, 96].contains b then beforeComment
  else beforeComment.take 1 ++
    ((beforeComment.drop 1).reverse.dropWhile fun b => b == 43 || b == dash).reverse

/-- The token at the beginning, where no white space and no comment is -/
def token (names : Clip) : List UInt8 → Option (Token × List UInt8)
  | [] => none
  | b :: rest =>
    if b = dquote then
      (quoted dquote rest).bind fun r => if r.1 = [] then none else some (.quotedIdentifier (names.clip r.1), r.2)
    else if b = squote then (stringFrom rest.length rest).map fun r => (.string r.1, r.2)
    else if identStart b then
      if (toLower b = 101) ∧ rest.head? = some squote then (escaped rest.tail).map fun r => (.escapeString r.1, r.2)
      else if (toLower b = 98 ∨ toLower b = 120 ∨ toLower b = 110) ∧ rest.head? = some squote then
        (quoted squote rest.tail).map fun r => (.prefixed (toLower b) r.1, r.2)
      else if toLower b = 117 ∧ rest.take 2 = [38, dquote] then
        (quoted dquote (rest.drop 2)).map fun r => (.unicodeIdentifier r.1, r.2)
      else if toLower b = 117 ∧ rest.take 2 = [38, squote] then
        (quoted squote (rest.drop 2)).map fun r => (.unicodeString r.1, r.2)
      else
        let name := b :: rest.takeWhile identCont
        some (.word (names.clip (name.map toLower)), rest.dropWhile identCont)
    else if b = dollar then
      let digits := rest.takeWhile isDigit
      if digits ≠ [] then some (.parameter digits, rest.drop digits.length)
      else
        let tag := rest.takeWhile fun c => identCont c && c != dollar
        if (rest.drop tag.length).head? = some dollar then
          (upTo (dollar :: (tag ++ [dollar])) (rest.drop (tag.length + 1))).map fun r => (.dollarString r.1, r.2)
        else none
    else if isDigit b || (b == dot && (rest.head?.map isDigit).getD false) then number (b :: rest)
    else if isOperator b then
      let name := operatorName (b :: rest)
      if name.length = 1 ∧ isSelf b then some (.symbol b, rest)
      else some (.operator name, (b :: rest).drop name.length)
    else if isSelf b then some (.symbol b, rest)
    else none

/-- The tokens of a text -/
inductive Lexes (names : Clip) : List UInt8 → List Token → Prop where
  | done {s : List UInt8} (hblank : skipBlanks s.length s = some []) : Lexes names s []
  | token {s s' rest : List UInt8} {t : Token} {ts : List Token} (hblank : skipBlanks s.length s = some s')
      (htoken : token names s' = some (t, rest)) (more : Lexes names rest ts) : Lexes names s (t :: ts)

theorem Lexes.unique {names : Clip} {s : List UInt8} {ts ts' : List Token} (h : Lexes names s ts)
    (h' : Lexes names s ts') : ts = ts' := by
  induction h generalizing ts' with
  | done hblank =>
    cases h' with
    | done _ => rfl
    | token hblank' htoken _ =>
      rw [hblank] at hblank'
      cases hblank'
      cases htoken
  | token hblank htoken _ ih =>
    cases h' with
    | done hblank' =>
      rw [hblank] at hblank'
      cases hblank'
      cases htoken
    | token hblank' htoken' more' =>
      rw [hblank] at hblank'
      cases hblank'
      rw [htoken] at htoken'
      cases htoken'
      rw [ih more']

/-! ## Quoted text -/

/-- The text with each quote in it twice -/
def doubled (q : UInt8) (s : List UInt8) : List UInt8 := s.flatMap fun b => if b = q then [q, q] else [b]

/-- **What was put between quotes is read as it was**, where another quote does not follow. -/
theorem quoted_doubled {q : UInt8} {rest : List UInt8} (hrest : rest.head? ≠ some q) (s : List UInt8) :
    quoted q (doubled q s ++ q :: rest) = some (s, rest) := by
  unfold doubled
  induction s with
  | nil =>
    cases rest with
    | nil => exact if_pos rfl
    | cons c rest =>
      have hc : c ≠ q := fun h => hrest (congrArg some h)
      exact (if_pos rfl).trans (if_neg hc)
  | cons b s ih =>
    rw [List.flatMap_cons, List.append_assoc]
    split_ifs with hb
    · rw [List.cons_append, List.cons_append, List.nil_append, quoted, if_pos rfl, if_pos rfl, ih, hb]
      rfl
    · -- what follows a byte that is no quote is not empty
      obtain ⟨c, more, hmore⟩ : ∃ c more,
          (s.flatMap fun b => if b = q then [q, q] else [b]) ++ q :: rest = c :: more := by
        cases hs : s.flatMap fun b => if b = q then [q, q] else [b] with
        | nil => exact ⟨_, _, rfl⟩
        | cons c more => exact ⟨_, _, rfl⟩
      rw [hmore] at ih ⊢
      rw [List.singleton_append, quoted, if_neg hb, ih]
      rfl

theorem stringFrom_doubled {rest : List UInt8} (hrest : rest.head? ≠ some squote)
    (hends : continuation false false rest = none) (s : List UInt8) {fuel : Nat} :
    stringFrom (fuel + 1) (doubled squote s ++ squote :: rest) = some (s, rest) := by
  rw [stringFrom, quoted_doubled hrest, Option.bind_some]
  dsimp only
  rw [hends]

/-! ## Statements -/

/-- What a statement is made of -/
inductive Piece where
  | word (name : List UInt8)
  | comma
  | identifier (name : List UInt8)
  | string (value : List UInt8)
  deriving DecidableEq

/-- The bytes of a piece -/
def Piece.text : Piece → List UInt8
  | word name => name
  | comma => [PgLexer.comma]
  | identifier name => dquote :: (doubled dquote name ++ [dquote])
  | string value => squote :: (doubled squote value ++ [squote])

def Piece.token (names : Clip) : Piece → Token
  | word name => .word (names.clip (name.map toLower))
  | comma => .symbol PgLexer.comma
  | identifier name => .quotedIdentifier (names.clip name)
  | string value => .string value

/-- A word begins and goes on like a name. -/
def isWord : List UInt8 → Bool
  | [] => false
  | b :: rest => identStart b && rest.all identCont

theorem isWord_cons {name : List UInt8} (h : isWord name = true) :
    ∃ b rest, name = b :: rest ∧ identStart b = true ∧ ∀ c ∈ rest, identCont c = true := by
  cases name with
  | nil => cases h
  | cons b rest =>
    obtain ⟨hstart, hcont⟩ := Bool.and_eq_true_iff.mp h
    exact ⟨b, rest, rfl, hstart, List.all_eq_true.mp hcont⟩

/-- A word is one, and a quoted name is not empty. -/
def Piece.Valid : Piece → Prop
  | word name => isWord name = true
  | identifier name => name ≠ []
  | _ => True

/-- The pieces with a blank before each that is not a comma -/
def spaced (ps : List Piece) : List UInt8 :=
  ps.flatMap fun p => if p = .comma then p.text else blank :: p.text

/-- The statement: blanks between its pieces, but not before a comma -/
def render : List Piece → List UInt8
  | [] => []
  | p :: ps => p.text ++ spaced ps

/-- What may come after a piece -/
structure Apart (rest : List UInt8) : Prop where
  head : ∀ b ∈ rest.head?, b = blank ∨ b = comma
  ends : continuation false false rest = none

theorem identStart_apart {b : UInt8} (h : identStart b = true) :
    isSpace b = false ∧ b ≠ dash ∧ b ≠ slash ∧ b ≠ squote ∧ b ≠ dquote := by
  simp only [identStart, isLetter, isSpace, dash, slash, squote, dquote, Bool.or_eq_true, Bool.and_eq_true,
    decide_eq_true_eq, beq_iff_eq, Bool.or_eq_false_iff, Bool.and_eq_false_iff, beq_eq_false_iff_ne,
    decide_eq_false_iff_not, UInt8.le_iff_toNat_le, ne_eq, ← UInt8.toNat_inj, UInt8.reduceToNat] at h ⊢
  omega

theorem identCont_apart {b : UInt8} (h : identCont b = true) : b ≠ squote ∧ b ≠ 38 := by
  simp only [identCont, identStart, isLetter, isDigit, dollar, squote, Bool.or_eq_true, Bool.and_eq_true,
    decide_eq_true_eq, beq_iff_eq, UInt8.le_iff_toNat_le, ne_eq, ← UInt8.toNat_inj, UInt8.reduceToNat] at h ⊢
  omega

theorem isNewline_isSpace {b : UInt8} (h : isSpace b = false) : isNewline b = false := by
  simp only [isSpace, isNewline, Bool.or_eq_false_iff, Bool.and_eq_false_iff, beq_eq_false_iff_ne,
    decide_eq_false_iff_not, UInt8.le_iff_toNat_le, ne_eq, ← UInt8.toNat_inj, UInt8.reduceToNat] at h ⊢
  omega

namespace Piece

variable {names : Clip} {p : Piece} {rest : List UInt8}

/-- A piece begins with a byte that is neither white space nor a comment, and with which no string goes on. -/
theorem text_cons (hp : p.Valid) : ∃ b more, p.text = b :: more ∧ isSpace b = false ∧ b ≠ dash ∧ b ≠ slash := by
  cases p with
  | word name =>
    obtain ⟨b, more, rfl, hstart, -⟩ := isWord_cons hp
    obtain ⟨hspace, hdash, hslash, -, -⟩ := identStart_apart hstart
    exact ⟨b, more, rfl, hspace, hdash, hslash⟩
  | comma => exact ⟨_, _, rfl, rfl, by decide, by decide⟩
  | identifier name => exact ⟨_, _, rfl, rfl, by decide, by decide⟩
  | string value => exact ⟨_, _, rfl, rfl, by decide, by decide⟩

theorem skipBlanks_text (hp : p.Valid) {fuel : Nat} :
    skipBlanks (fuel + 1) (p.text ++ rest) = some (p.text ++ rest) := by
  obtain ⟨b, more, htext, hspace, hdash, hslash⟩ := text_cons hp
  rw [htext, List.cons_append, skipBlanks, if_neg (by simp [hspace]), if_neg fun h => hdash h.1,
    if_neg fun h => hslash h.1]

theorem continuation_text (hp : p.Valid) : continuation false false (p.text ++ rest) = none := by
  obtain ⟨b, more, htext, hspace, hdash, -⟩ := text_cons hp
  rw [htext, List.cons_append, continuation, if_neg Bool.false_ne_true]
  by_cases hquote : b = squote
  · rw [if_pos hquote, if_neg Bool.false_ne_true]
  · rw [if_neg hquote, if_neg (by simp [isNewline_isSpace hspace]), if_neg (by simp [hspace]),
      if_neg fun h => hdash h.1]

end Piece

theorem Apart.head_ne {rest : List UInt8} (h : Apart rest) {q : UInt8} (hq : q ≠ blank ∧ q ≠ comma) :
    rest.head? ≠ some q :=
  fun hhead => (h.head q hhead).elim hq.1 hq.2

/-- A word is read to the blank or the comma after it. -/
theorem token_word {names : Clip} {b : UInt8} {more rest : List UInt8} (hstart : identStart b = true)
    (hcont : ∀ c ∈ more, identCont c = true) (hrest : Apart rest) :
    token names (b :: (more ++ rest)) = some (.word (names.clip ((b :: more).map toLower)), rest) := by
  obtain ⟨-, -, -, hquote, hdquote⟩ := identStart_apart hstart
  have hstop : ∀ c ∈ rest.head?, identCont c = false := by
    intro c hc
    obtain rfl | rfl := hrest.head c hc
    · decide
    · decide
  have htake : (more ++ rest).takeWhile identCont = more := by
    rw [List.takeWhile_append_of_pos hcont]
    cases rest with
    | nil => simp
    | cons c rest => simp [hstop c rfl]
  have hdrop : (more ++ rest).dropWhile identCont = rest := by
    rw [List.dropWhile_append_of_pos hcont]
    cases rest with
    | nil => simp
    | cons c rest => simp [hstop c rfl]
  -- no quote follows the first letter, so that it begins no constant with a prefix
  have hnext : ∀ c ∈ (more ++ rest).head?, c ≠ squote ∧ c ≠ 38 := by
    intro c hc
    cases more with
    | nil =>
      obtain rfl | rfl := hrest.head c hc
      · decide
      · decide
    | cons d more =>
      cases hc
      exact identCont_apart (hcont c List.mem_cons_self)
  have hunquoted : (more ++ rest).head? ≠ some squote := fun h => (hnext squote h).1 rfl
  have hplain (q : UInt8) : (more ++ rest).take 2 ≠ [38, q] := by
    intro h
    have hhead : (more ++ rest).head? = some 38 := by
      cases hall : more ++ rest with
      | nil =>
        rw [hall] at h
        cases h
      | cons c all =>
        rw [hall] at h
        simpa using (List.cons.inj h).1
    exact (hnext 38 hhead).2 rfl
  rw [token, if_neg hdquote, if_neg hquote, if_pos hstart, if_neg fun h => hunquoted h.2, if_neg fun h => hunquoted h.2,
    if_neg fun h => hplain dquote h.2, if_neg fun h => hplain squote h.2, htake, hdrop]

theorem token_identifier {names : Clip} {name rest : List UInt8} (hname : name ≠ [])
    (hrest : rest.head? ≠ some dquote) :
    token names ((Piece.identifier name).text ++ rest) = some (.quotedIdentifier (names.clip name), rest) := by
  have htext : (Piece.identifier name).text ++ rest = dquote :: (doubled dquote name ++ dquote :: rest) := by
    simp [Piece.text]
  rw [htext, token, if_pos rfl, quoted_doubled hrest, Option.bind_some, if_neg hname]

theorem token_string {names : Clip} {value rest : List UInt8} (hrest : rest.head? ≠ some squote)
    (hends : continuation false false rest = none) :
    token names ((Piece.string value).text ++ rest) = some (.string value, rest) := by
  have htext : (Piece.string value).text ++ rest = squote :: (doubled squote value ++ squote :: rest) := by
    simp [Piece.text]
  have hlength : (doubled squote value ++ squote :: rest).length =
      (doubled squote value ++ squote :: rest).length - 1 + 1 := by
    rw [List.length_append, List.length_cons]
    omega
  rw [htext, token, if_neg (by decide), if_pos rfl, hlength, stringFrom_doubled hrest hends, Option.map_some]

/-- **A piece is one token**, and the rest of the statement is left. -/
theorem token_piece {names : Clip} {p : Piece} (hp : p.Valid) {rest : List UInt8} (hrest : Apart rest) :
    token names (p.text ++ rest) = some (p.token names, rest) := by
  cases p with
  | word name =>
    obtain ⟨b, more, rfl, hstart, hcont⟩ := isWord_cons hp
    exact token_word hstart hcont hrest
  | comma => rfl
  | identifier name => exact token_identifier hp (hrest.head_ne (by decide))
  | string value => exact token_string (hrest.head_ne (by decide)) hrest.ends

theorem spaced_cons {p : Piece} {ps : List Piece} :
    spaced (p :: ps) = (if p = .comma then [] else [blank]) ++ (p.text ++ spaced ps) := by
  unfold spaced
  rw [List.flatMap_cons]
  split_ifs
  · rfl
  · rfl

theorem spaced_append (ps qs : List Piece) : spaced (ps ++ qs) = spaced ps ++ spaced qs := List.flatMap_append

theorem spaced_nil : spaced [] = [] := rfl

theorem spaced_identifier (name : List UInt8) (ps : List Piece) :
    spaced (.identifier name :: ps) = blank :: ((Piece.identifier name).text ++ spaced ps) := spaced_cons

theorem spaced_string (value : List UInt8) (ps : List Piece) :
    spaced (.string value :: ps) = blank :: ((Piece.string value).text ++ spaced ps) := spaced_cons

theorem render_append {ps : List Piece} (hps : ps ≠ []) (qs : List Piece) :
    render (ps ++ qs) = render ps ++ spaced qs := by
  cases ps with
  | nil => exact absurd rfl hps
  | cons p ps =>
    show p.text ++ spaced (ps ++ qs) = p.text ++ spaced ps ++ spaced qs
    rw [spaced_append, List.append_assoc]

/-- Bytes that are in no piece, and are no blank, are not in the statement. -/
theorem not_mem_render {ps : List Piece} {b : UInt8} (hb : b ≠ blank) (hps : ∀ p ∈ ps, b ∉ p.text) :
    b ∉ render ps := by
  have hspaced : ∀ qs : List Piece, (∀ p ∈ qs, b ∉ p.text) → b ∉ spaced qs := by
    intro qs hqs hmem
    obtain ⟨p, hp, hbyte⟩ := List.mem_flatMap.mp hmem
    split_ifs at hbyte
    · exact hqs p hp hbyte
    · exact (List.mem_cons.mp hbyte).elim hb (hqs p hp)
  cases ps with
  | nil => exact List.not_mem_nil
  | cons p ps =>
    intro hmem
    exact (List.mem_append.mp hmem).elim (hps p List.mem_cons_self)
      (hspaced ps fun p' hp' => hps p' (List.mem_cons_of_mem _ hp'))

theorem mem_doubled {q b : UInt8} {s : List UInt8} : b ∈ doubled q s → b ∈ s := by
  intro hb
  obtain ⟨c, hc, hbyte⟩ := List.mem_flatMap.mp hb
  split_ifs at hbyte with hq
  · obtain rfl : b = q := by simpa using hbyte
    exact hq ▸ hc
  · obtain rfl := List.mem_singleton.mp hbyte
    exact hc

theorem apart_spaced {ps : List Piece} (hps : ∀ p ∈ ps, p.Valid) : Apart (spaced ps) := by
  cases ps with
  | nil =>
    refine ⟨fun b hb => ?_, rfl⟩
    cases hb
  | cons p ps =>
    have hp := hps p List.mem_cons_self
    rw [spaced_cons]
    split_ifs with hcomma
    · rw [hcomma]
      exact ⟨fun b hb => .inr (Option.some.inj hb).symm, rfl⟩
    · exact ⟨fun b hb => .inl (Option.some.inj hb).symm, Piece.continuation_text hp⟩

theorem lexes_spaced {names : Clip} {ps : List Piece} (hps : ∀ p ∈ ps, p.Valid) :
    Lexes names (spaced ps) (ps.map (Piece.token names)) := by
  induction ps with
  | nil => exact .done rfl
  | cons p ps ih =>
    have hp := hps p List.mem_cons_self
    have hrest : ∀ p' ∈ ps, p'.Valid := fun p' hp' => hps p' (List.mem_cons_of_mem _ hp')
    have htoken : token names (p.text ++ spaced ps) = some (p.token names, spaced ps) :=
      token_piece hp (apart_spaced hrest)
    refine .token ?_ htoken (ih hrest)
    obtain ⟨b, more, htext, -⟩ := Piece.text_cons hp
    have hlength : (p.text ++ spaced ps).length = (p.text ++ spaced ps).length - 1 + 1 := by simp [htext]
    rw [spaced_cons]
    split_ifs
    · rw [List.nil_append, hlength]
      exact Piece.skipBlanks_text hp
    · rw [List.singleton_append, List.length_cons, hlength]
      exact Piece.skipBlanks_text hp

/-- **The tokens of a statement are its pieces.** -/
theorem lexes_render {names : Clip} {ps : List Piece} (hps : ∀ p ∈ ps, p.Valid) :
    Lexes names (render ps) (ps.map (Piece.token names)) := by
  cases ps with
  | nil => exact .done rfl
  | cons p ps =>
    have hp := hps p List.mem_cons_self
    have hrest : ∀ p' ∈ ps, p'.Valid := fun p' hp' => hps p' (List.mem_cons_of_mem _ hp')
    have htoken : token names (p.text ++ spaced ps) = some (p.token names, spaced ps) :=
      token_piece hp (apart_spaced hrest)
    refine .token ?_ htoken (lexes_spaced hrest)
    obtain ⟨b, more, htext, -⟩ := Piece.text_cons hp
    have hlength : (p.text ++ spaced ps).length = (p.text ++ spaced ps).length - 1 + 1 := by simp [htext]
    unfold render
    rw [hlength]
    exact Piece.skipBlanks_text hp

end PgLexer
