import Mathlib.Data.List.Basic

/-!
# Addresses by RFC 5322

The productions of an address, with characters beyond ASCII as in RFC 6532. White space and comments may
stand around each part of one.

* `Address` — a mailbox with a name or without one, or a group. `BareAddrSpec` — the address itself.
* `unquoted` — the characters outside quoted strings and domain literals.
* `Address.bare_iff` — **an address is the bare one unless it has a blank or a parenthesis among these, or
  ends like a name-addr or a group.**
-/

namespace Rfc5322

/-! ## Characters -/

def beyondAscii (c : Char) : Bool := 0x80 ≤ c.toNat

def isAtext (c : Char) : Bool := c.isAlphanum || "!#$%&'*+-/=?^_\x60\x7b|\x7d~".toList.contains c || beyondAscii c

def isVchar (c : Char) : Bool := (0x21 ≤ c.toNat && c.toNat ≤ 0x7E) || beyondAscii c

def isQtext (c : Char) : Bool := isVchar c && c != '"' && c != '\\'

def isDtext (c : Char) : Bool := isVchar c && c != '[' && c != ']' && c != '\\'

def isCtext (c : Char) : Bool := isVchar c && c != '(' && c != ')' && c != '\\'

/-- Blanks, and the line breaks of folded lines -/
def isBlank (c : Char) : Bool := c == ' ' || c == '\t' || c == '\r' || c == '\n'

/-! ## Productions -/

/-- What is between the parentheses of a comment -/
inductive CContent : List Char → Prop where
  | nil : CContent []
  | char {c : Char} {rest : List Char} (text : isCtext c = true ∨ isBlank c = true) (more : CContent rest) :
      CContent (c :: rest)
  | pair {c : Char} {rest : List Char} (more : CContent rest) : CContent ('\\' :: c :: rest)
  | comment {inner rest : List Char} (nested : CContent inner) (more : CContent rest) :
      CContent ('(' :: (inner ++ ')' :: rest))

/-- Comments and folding white space, or nothing -/
inductive Cfws : List Char → Prop where
  | nil : Cfws []
  | blank {c : Char} {rest : List Char} (blank : isBlank c = true) (more : Cfws rest) : Cfws (c :: rest)
  | comment {inner rest : List Char} (content : CContent inner) (more : Cfws rest) :
      Cfws ('(' :: (inner ++ ')' :: rest))

/-- Atoms with dots between them -/
inductive DotAtomText : List Char → Prop where
  | atom {text : List Char} (nonempty : text ≠ []) (isAtext : ∀ c ∈ text, isAtext c = true) : DotAtomText text
  | dot {text rest : List Char} (nonempty : text ≠ []) (isAtext : ∀ c ∈ text, isAtext c = true)
      (more : DotAtomText rest) : DotAtomText (text ++ '.' :: rest)

/-- What is between the quotes of a quoted string -/
inductive QContent : List Char → Prop where
  | nil : QContent []
  | char {c : Char} {rest : List Char} (text : isQtext c = true ∨ isBlank c = true) (more : QContent rest) :
      QContent (c :: rest)
  | pair {c : Char} {rest : List Char} (more : QContent rest) : QContent ('\\' :: c :: rest)

def QuotedString (s : List Char) : Prop := ∃ content, QContent content ∧ s = '"' :: (content ++ ['"'])

def DomainLiteral (s : List Char) : Prop :=
  ∃ content : List Char, (∀ c ∈ content, isDtext c = true ∨ isBlank c = true) ∧ s = '[' :: (content ++ [']'])

def LocalPart (s : List Char) : Prop := DotAtomText s ∨ QuotedString s

def Domain (s : List Char) : Prop := DotAtomText s ∨ DomainLiteral s

/-- `addr-spec` without comments and white space around its parts -/
def BareAddrSpec (s : List Char) : Prop := ∃ l d, LocalPart l ∧ Domain d ∧ s = l ++ '@' :: d

/-- `addr-spec` -/
def AddrSpec (s : List Char) : Prop :=
  ∃ a l b c d e, Cfws a ∧ LocalPart l ∧ Cfws b ∧ Cfws c ∧ Domain d ∧ Cfws e ∧
    s = a ++ (l ++ (b ++ '@' :: (c ++ (d ++ e))))

/-- `address`. What a display name is, and the members of a group, are left open. -/
inductive Address : List Char → Prop where
  | addrSpec {s : List Char} (spec : AddrSpec s) : Address s
  | nameAddr (name : List Char) {spec after : List Char} (addrSpec : AddrSpec spec) (cfws : Cfws after) :
      Address (name ++ '<' :: (spec ++ '>' :: after))
  | group (name members : List Char) {after : List Char} (cfws : Cfws after) :
      Address (name ++ ':' :: (members ++ ';' :: after))

/-! ## Outside quotes -/

inductive Mode where
  | plain
  | quoted
  | escaped
  | literal
  deriving DecidableEq, Repr

/-- The characters outside quoted strings and domain literals -/
def unquoted : Mode → List Char → List Char
  | _, [] => []
  | .plain, c :: rest =>
    if c = '"' then unquoted .quoted rest
    else if c = '[' then unquoted .literal rest
    else c :: unquoted .plain rest
  | .quoted, c :: rest =>
    if c = '"' then unquoted .plain rest
    else if c = '\\' then unquoted .escaped rest
    else unquoted .quoted rest
  | .escaped, _ :: rest => unquoted .quoted rest
  | .literal, c :: rest => if c = ']' then unquoted .plain rest else unquoted .literal rest

/-- A character that begins or is white space or a comment -/
def isSpacing (c : Char) : Bool := isBlank c || c == '('

theorem unquoted_plain {c : Char} (hquote : c ≠ '"') (hliteral : c ≠ '[') (rest : List Char) :
    unquoted .plain (c :: rest) = c :: unquoted .plain rest := by
  simp [unquoted, hquote, hliteral]

/-- Text in which nothing is quoted -/
theorem unquoted_append {front : List Char} (hplain : ∀ c ∈ front, c ≠ '"' ∧ c ≠ '[') (rest : List Char) :
    unquoted .plain (front ++ rest) = front ++ unquoted .plain rest := by
  induction front with
  | nil => rfl
  | cons c front ih =>
    obtain ⟨hquote, hliteral⟩ := hplain c List.mem_cons_self
    rw [List.cons_append, unquoted_plain hquote hliteral, ih fun c' hc' => hplain c' (List.mem_cons_of_mem _ hc')]
    rfl

theorem QContent.unquoted_eq {content : List Char} (h : QContent content) (rest : List Char) :
    unquoted .quoted (content ++ '"' :: rest) = unquoted .plain rest := by
  induction h with
  | nil => simp [unquoted]
  | @char c content text more ih =>
    have hc : c ≠ '"' ∧ c ≠ '\\' := by
      constructor <;> rintro rfl <;> simp [isQtext, isBlank] at text
    simp [unquoted, hc, ih]
  | pair more ih => simp [unquoted, ih]

theorem QuotedString.unquoted_eq {s : List Char} (h : QuotedString s) (rest : List Char) :
    unquoted .plain (s ++ rest) = unquoted .plain rest := by
  obtain ⟨content, hcontent, rfl⟩ := h
  have hopen : unquoted .plain ('"' :: (content ++ '"' :: rest)) = unquoted .quoted (content ++ '"' :: rest) := by
    simp [unquoted]
  simpa using hopen.trans (hcontent.unquoted_eq rest)

theorem DomainLiteral.unquoted_eq {s : List Char} (h : DomainLiteral s) (rest : List Char) :
    unquoted .plain (s ++ rest) = unquoted .plain rest := by
  obtain ⟨content, hcontent, rfl⟩ := h
  have hclose : unquoted .literal (content ++ ']' :: rest) = unquoted .plain rest := by
    induction content with
    | nil => simp [unquoted]
    | cons c content ih =>
      have hc : c ≠ ']' := by
        rintro rfl
        simpa [isDtext, isBlank] using hcontent _ List.mem_cons_self
      simp [unquoted, hc, ih fun c' hc' => hcontent c' (List.mem_cons_of_mem _ hc')]
  have hopen : unquoted .plain ('[' :: (content ++ ']' :: rest)) = unquoted .literal (content ++ ']' :: rest) := by
    simp [unquoted]
  simpa using hopen.trans hclose

/-! ## Parts of an address -/

/-- No white space and no comment begins in `s` outside quotes, and nothing is left open in it. -/
def Closed (s : List Char) : Prop :=
  ∃ front : List Char, (∀ c ∈ front, isSpacing c = false) ∧
    ∀ rest, unquoted .plain (s ++ rest) = front ++ unquoted .plain rest

/-- The characters that an address neither ends with nor has outside quotes -/
theorem isAtext_plain {c : Char} (hc : isAtext c = true ∨ c = '.') :
    (c ≠ '"' ∧ c ≠ '[') ∧ (c ≠ '>' ∧ c ≠ ';' ∧ c ≠ ')' ∧ isBlank c = false) ∧ isSpacing c = false := by
  have hnot : ∀ d : Char, isAtext d = false → d ≠ '.' → c ≠ d := by
    rintro d hd hdot rfl
    rcases hc with hc | hc
    · rw [hd] at hc
      cases hc
    · exact hdot hc
  have hblank : isBlank c = false := by
    simp [isBlank, hnot ' ' rfl (by decide), hnot '\t' rfl (by decide), hnot '\r' rfl (by decide),
      hnot '\n' rfl (by decide)]
  refine ⟨⟨hnot _ rfl (by decide), hnot _ rfl (by decide)⟩,
    ⟨hnot _ rfl (by decide), hnot _ rfl (by decide), hnot _ rfl (by decide), hblank⟩, ?_⟩
  simp [isSpacing, hblank, hnot '(' rfl (by decide)]

theorem DotAtomText.chars {s : List Char} (h : DotAtomText s) : s ≠ [] ∧ ∀ c ∈ s, isAtext c = true ∨ c = '.' := by
  induction h with
  | atom nonempty text => exact ⟨nonempty, fun c hc => .inl (text c hc)⟩
  | @dot front rest nonempty text more ih =>
    refine ⟨by simp, fun c hc => ?_⟩
    rcases List.mem_append.mp hc with hc | hc
    · exact .inl (text c hc)
    rcases List.mem_cons.mp hc with rfl | hc
    · exact .inr rfl
    · exact ih.2 c hc

theorem DotAtomText.closed {s : List Char} (h : DotAtomText s) : Closed s :=
  ⟨s, fun c hc => (isAtext_plain (h.chars.2 c hc)).2.2,
    unquoted_append fun c hc => (isAtext_plain (h.chars.2 c hc)).1⟩

theorem LocalPart.closed {s : List Char} (h : LocalPart s) : Closed s := by
  rcases h with h | h
  · exact h.closed
  · exact ⟨[], by simp, fun rest => by rw [h.unquoted_eq, List.nil_append]⟩

theorem Domain.closed {s : List Char} (h : Domain s) : Closed s := by
  rcases h with h | h
  · exact h.closed
  · exact ⟨[], by simp, fun rest => by rw [h.unquoted_eq, List.nil_append]⟩

theorem closed_at : Closed ['@'] :=
  ⟨['@'], List.forall_mem_singleton.mpr (by decide), fun rest => unquoted_plain (by decide) (by decide) rest⟩

/-- Behind a part, it is as if the part was not there. -/
theorem Closed.outside {s rest : List Char} (h : Closed s) :
    (∀ c ∈ unquoted .plain (s ++ rest), isSpacing c = false) ↔ ∀ c ∈ unquoted .plain rest, isSpacing c = false := by
  obtain ⟨front, hfront, heq⟩ := h
  rw [heq, List.forall_mem_append]
  exact and_iff_right hfront

/-- Where no white space and no comment begins, there is none. -/
theorem Cfws.eq_nil {s rest : List Char} (h : Cfws s)
    (houtside : ∀ c ∈ unquoted .plain (s ++ rest), isSpacing c = false) : s = [] := by
  cases h with
  | nil => rfl
  | @blank c more hblank _ =>
    have hplain : c ≠ '"' ∧ c ≠ '[' := by constructor <;> rintro rfl <;> simp [isBlank] at hblank
    have hc := houtside c (by rw [List.cons_append, unquoted_plain hplain.1 hplain.2]; exact List.mem_cons_self)
    simp [isSpacing, hblank] at hc
  | @comment inner more _ _ =>
    have hc := houtside '(' (by
      rw [List.cons_append, unquoted_plain (by decide) (by decide)]
      exact List.mem_cons_self)
    cases hc

/-- What an address ends with if white space and comments are behind the character -/
theorem Cfws.ending {after : List Char} (h : Cfws after) (front : List Char) (last : Char) :
    ∃ c, (front ++ last :: after).getLast? = some c ∧ (c = last ∨ c = ')' ∨ isBlank c = true) := by
  induction h generalizing front last with
  | nil => exact ⟨last, by simp, .inl rfl⟩
  | @blank c rest hblank _ ih =>
    obtain ⟨d, hlast, hd⟩ := ih (front ++ [last]) c
    refine ⟨d, by simpa using hlast, ?_⟩
    rcases hd with rfl | hd
    · exact .inr (.inr hblank)
    · exact .inr hd
  | @comment inner rest _ _ ih =>
    obtain ⟨d, hlast, hd⟩ := ih (front ++ last :: '(' :: inner) ')'
    refine ⟨d, by simpa using hlast, ?_⟩
    rcases hd with rfl | hd
    · exact .inr (.inl rfl)
    · exact .inr hd

/-! ## Bare addresses -/

/-- The text ends as neither a name-addr nor a group does, and outside quotes no white space and no comment
begins. -/
structure Unadorned (s : List Char) : Prop where
  ends : ∀ c ∈ s.getLast?, c ≠ '>' ∧ c ≠ ';' ∧ c ≠ ')' ∧ isBlank c = false
  outside : ∀ c ∈ unquoted .plain s, isSpacing c = false

theorem Unadorned.not_ending {front after : List Char} {last : Char} (hlast : last = '>' ∨ last = ';')
    (hafter : Cfws after) : ¬ Unadorned (front ++ last :: after) := by
  intro h
  obtain ⟨c, hc, hcase⟩ := hafter.ending front last
  obtain ⟨hangle, hsemicolon, hparen, hblank⟩ := h.ends c hc
  rcases hcase with rfl | rfl | htrue
  · exact hlast.elim hangle hsemicolon
  · exact hparen rfl
  · rw [hblank] at htrue
    cases htrue

theorem BareAddrSpec.unadorned {s : List Char} (h : BareAddrSpec s) : Unadorned s := by
  obtain ⟨l, d, hl, hd, rfl⟩ := h
  constructor
  · intro c hc
    have hend : c ∈ d.getLast? ∧ d ≠ [] := by
      have hne : d ≠ [] := by
        rcases hd with hd | ⟨content, -, rfl⟩
        · exact hd.chars.1
        · simp
      refine ⟨?_, hne⟩
      rw [show l ++ '@' :: d = (l ++ ['@']) ++ d by simp, List.getLast?_append_of_ne_nil _ hne] at hc
      exact hc
    rcases hd with hd | ⟨content, -, rfl⟩
    · exact (isAtext_plain (hd.chars.2 c (List.mem_of_getLast? hend.1))).2.1
    · have hbracket : some ']' = some c := by
        rw [← hend.1, ← List.cons_append, List.getLast?_concat]
      obtain rfl := Option.some.inj hbracket
      decide
  · have hnone : ∀ c ∈ unquoted .plain ([] : List Char), isSpacing c = false := by simp [unquoted]
    rw [hl.closed.outside, show '@' :: d = ['@'] ++ (d ++ []) by simp, closed_at.outside, hd.closed.outside]
    exact hnone

/-- **An address is the bare one unless it is adorned.** -/
theorem Address.bare_iff {s : List Char} (h : Address s) : BareAddrSpec s ↔ Unadorned s := by
  refine ⟨BareAddrSpec.unadorned, fun hs => ?_⟩
  cases h with
  | addrSpec spec =>
    obtain ⟨a, l, b, c, d, e, ha, hl, hb, hc, hd, he, rfl⟩ := spec
    -- from the front to the back, every place for white space is empty
    have hout := hs.outside
    obtain rfl := ha.eq_nil hout
    rw [List.nil_append, hl.closed.outside] at hout
    obtain rfl := hb.eq_nil hout
    rw [List.nil_append, show '@' :: (c ++ (d ++ e)) = ['@'] ++ (c ++ (d ++ e)) from rfl, closed_at.outside] at hout
    obtain rfl := hc.eq_nil hout
    rw [List.nil_append, hd.closed.outside, ← List.append_nil e] at hout
    obtain rfl := he.eq_nil hout
    exact ⟨l, d, hl, hd, by simp⟩
  | @nameAddr name spec after _ cfws =>
    rw [show name ++ '<' :: (spec ++ '>' :: after) = (name ++ '<' :: spec) ++ '>' :: after by simp] at hs
    exact absurd hs (Unadorned.not_ending (.inl rfl) cfws)
  | @group name members after cfws =>
    rw [show name ++ ':' :: (members ++ ';' :: after) = (name ++ ':' :: members) ++ ';' :: after by simp] at hs
    exact absurd hs (Unadorned.not_ending (.inr rfl) cfws)

end Rfc5322
