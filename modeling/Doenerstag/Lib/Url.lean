import Mathlib.Data.List.DropRight
import Mathlib.Data.Nat.Digits.Defs

/-!
# Resolving references

The first states of the URL parser, for a reference on a page that was fetched over http: what it does to
the input before it looks at it, and how far the input decides where the URL leads.

* `cleaned` — the input without the characters that are dropped.
* `resolve` — the origin of the URL, if the input gives one.
* `resolve_rooted` — **a reference that begins with one slash stays where it is, and one that begins with
  two leads to the host behind them.**
-/

namespace Url

inductive Scheme where
  | http
  | https
  deriving DecidableEq, Repr

/-- The port that is left out of a URL of the scheme -/
def Scheme.defaultPort : Scheme → ℕ
  | .http => 80
  | .https => 443

/-- Hosts are whatever the host parser makes of their names. -/
structure Origin (η : Type) where
  scheme : Scheme
  host : η
  port : Option ℕ
  deriving DecidableEq, Repr

/-- What the parser leaves to others: host names, and input that begins with a scheme -/
structure Parsers (η : Type) where
  host : List Char → Option η
  absolute : Origin η → List Char → Option (Origin η)

/-! ## The input -/

/-- A C0 control or space -/
def isControlOrSpace (c : Char) : Bool := c.toNat ≤ 0x20

def isTabOrNewline (c : Char) : Bool := c == '\t' || c == '\n' || c == '\r'

/-- Without what is dropped behind and inside the input -/
def cleanedTail (input : List Char) : List Char :=
  (input.rdropWhile isControlOrSpace).filter fun c => !isTabOrNewline c

def cleaned (input : List Char) : List Char := cleanedTail (input.dropWhile isControlOrSpace)

/-- A slash, or what stands for one in a special URL -/
def isSlash (c : Char) : Bool := c == '/' || c == '\\'

/-! ## The states -/

/-- The scheme start state and the scheme state: whether the input begins with a scheme -/
def hasScheme : List Char → Bool
  | [] => false
  | c :: rest => c.isAlpha &&
    (rest.dropWhile fun c => c.isAlphanum || c == '+' || c == '-' || c == '.').head? = some ':'

/-- The host state: up to a colon outside brackets, and what is behind it -/
def splitPort (inside : Bool) : List Char → List Char × Option (List Char)
  | [] => ([], none)
  | c :: rest =>
    if c = ':' ∧ inside = false then ([], some rest)
    else
      let (name, port) := splitPort (if c = '[' then true else if c = ']' then false else inside) rest
      (c :: name, port)

/-- The port state; no port is the default one. -/
def readPort (scheme : Scheme) (text : List Char) : Option (Option ℕ) :=
  if text.all Char.isDigit then
    let port := Nat.ofDigitChars 10 text 0
    if port > 65535 then none
    else some (if text = [] ∨ port = scheme.defaultPort then none else some port)
  else none

section Parsers

variable {η : Type} (P : Parsers η)

/-- The authority state, with the host and port states -/
def authority (scheme : Scheme) (input : List Char) : Option (Origin η) :=
  let text := input.takeWhile fun c => !(isSlash c || c == '?' || c == '#')
  -- credentials end at the last at sign
  let (name, port) := splitPort false ((text.splitOn '@').getLastD [])
  if name = [] then none
  else (P.host name).bind fun host => (readPort scheme (port.getD [])).map fun port => ⟨scheme, host, port⟩

/-- The relative slash state, and the special authority ignore slashes state -/
def relativeSlash (base : Origin η) (input : List Char) : Option (Origin η) :=
  if input.head?.any isSlash then authority P base.scheme (input.dropWhile isSlash) else some base

/-- The relative state -/
def relative (base : Origin η) (input : List Char) : Option (Origin η) :=
  if input.head?.any isSlash then relativeSlash P base input.tail else some base

def resolve (base : Origin η) (input : List Char) : Option (Origin η) :=
  if hasScheme (cleaned input) then P.absolute base (cleaned input) else relative P base (cleaned input)

end Parsers

/-! ## Slashes in front -/

theorem rdropWhile_append_cons {α : Type} {p : α → Bool} {a : α} (ha : p a = false) (front l : List α) :
    (front ++ a :: l).rdropWhile p = front ++ a :: l.rdropWhile p := by
  have hneg : ¬ p a = true := by simp [ha]
  induction l using List.reverseRecOn with
  | nil => rw [List.rdropWhile_concat_neg _ _ _ hneg, List.rdropWhile_nil]
  | append_singleton l b ih =>
    rw [show front ++ a :: (l ++ [b]) = front ++ a :: l ++ [b] by simp]
    cases hb : p b with
    | true => rw [List.rdropWhile_concat_pos _ _ _ hb, List.rdropWhile_concat_pos _ _ _ hb, ih]
    | false =>
      have hb : ¬ p b = true := by simp [hb]
      rw [List.rdropWhile_concat_neg _ _ _ hb, List.rdropWhile_concat_neg _ _ _ hb]
      simp

/-- A character that is not dropped stays where it is, and the tabs and newlines before it go. -/
theorem cleanedTail_append_cons {gap : List Char} {c : Char} (hgap : ∀ c ∈ gap, isTabOrNewline c = true)
    (hcontrol : isControlOrSpace c = false) (hc : isTabOrNewline c = false) (more : List Char) :
    cleanedTail (gap ++ c :: more) = c :: cleanedTail more := by
  have hnone : gap.filter (fun c => !isTabOrNewline c) = [] := by simpa using hgap
  unfold cleanedTail
  rw [rdropWhile_append_cons hcontrol, List.filter_append, hnone, List.filter_cons_of_pos (by simp [hc]),
    List.nil_append]

theorem isSlash_plain {c : Char} (hc : isSlash c = true) : isControlOrSpace c = false ∧ isTabOrNewline c = false := by
  obtain rfl | rfl : c = '/' ∨ c = '\\' := by simpa [isSlash] using hc
  · decide
  · decide

/-- What is left begins with a slash if there was one with nothing but tabs and newlines before it. -/
theorem head_cleanedTail_iff (input : List Char) : (cleanedTail input).head?.any isSlash = true ↔
    ∃ gap c more, input = gap ++ c :: more ∧ (∀ c ∈ gap, isTabOrNewline c = true) ∧ isSlash c = true := by
  constructor
  · intro h
    obtain ⟨c, hhead, hslash⟩ := (Option.any_eq_true _ _).mp h
    obtain ⟨tail, htail⟩ := List.head?_eq_some_iff.mp hhead
    obtain ⟨gap, more, hkept, hgap, hc, -⟩ := List.filter_eq_cons_iff.mp htail
    obtain ⟨dropped, hdropped⟩ := List.rdropWhile_prefix isControlOrSpace input
    refine ⟨gap, c, more ++ dropped, ?_, fun c hc => ?_, hslash⟩
    · rw [← hdropped, hkept]
      simp
    · simpa using hgap c hc
  · rintro ⟨gap, c, more, rfl, hgap, hslash⟩
    obtain ⟨hcontrol, hc⟩ := isSlash_plain hslash
    rw [cleanedTail_append_cons hgap hcontrol hc]
    simpa using hslash

section Rooted

variable {η : Type} (P : Parsers η) (base : Origin η)

/-- Behind the slash that a reference begins with, the relative slash state decides. -/
theorem resolve_slash (rest : List Char) : resolve P base ('/' :: rest) = relativeSlash P base (cleanedTail rest) := by
  have hcleaned : cleaned ('/' :: rest) = '/' :: cleanedTail rest := by
    unfold cleaned
    rw [List.dropWhile_cons_of_neg (by decide)]
    exact cleanedTail_append_cons (List.forall_mem_nil _) (by decide) (by decide) rest
  have hscheme : hasScheme ('/' :: cleanedTail rest) = false := by
    unfold hasScheme
    simp [show Char.isAlpha '/' = false from rfl]
  unfold resolve
  rw [hcleaned, hscheme]
  rfl

/-- **A reference that begins with one slash stays where it is.** -/
theorem resolve_rooted {rest : List Char}
    (hrooted : ∀ gap c more, rest = gap ++ c :: more → (∀ c ∈ gap, isTabOrNewline c = true) → isSlash c = false) :
    resolve P base ('/' :: rest) = some base := by
  rw [resolve_slash]
  unfold relativeSlash
  rw [if_neg]
  intro h
  obtain ⟨gap, c, more, hrest, hgap, hslash⟩ := (head_cleanedTail_iff rest).mp h
  rw [hrooted gap c more hrest hgap] at hslash
  cases hslash

/-- **One that begins with two leads to the host behind them.** -/
theorem resolve_doubled {gap more : List Char} {c : Char} (hgap : ∀ c ∈ gap, isTabOrNewline c = true)
    (hslash : isSlash c = true) : resolve P base ('/' :: (gap ++ c :: more)) =
      authority P base.scheme ((cleanedTail more).dropWhile isSlash) := by
  obtain ⟨hcontrol, hc⟩ := isSlash_plain hslash
  rw [resolve_slash, cleanedTail_append_cons hgap hcontrol hc]
  unfold relativeSlash
  rw [if_pos (by simpa using hslash), List.dropWhile_cons_of_pos hslash]

end Rooted

end Url
