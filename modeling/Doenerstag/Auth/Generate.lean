import Doenerstag.Auth.Complexity
import Doenerstag.Lib.FisherYates
import Mathlib.Data.List.Forall2
import Mathlib.Data.List.GetD

/-!
# Generated passwords (`internal/auth/generate.go`)

What the source of randomness will answer is a list of numbers, and it fails when there are no more.

* `generatePassword_range` — **the passwords it generates** are exactly those of twenty characters of the
  four alphabets with one of each, and nothing but the source of randomness makes it fail.
* `shuffle_once` — **every arrangement of distinct runes comes of one list of answers and no other.**
-/

namespace Doenerstag.Auth

def generatedPasswordLength : Nat := 20

def generatorUpper : List Char := "ABCDEFGHJKLMNPQRSTUVWXYZ".toList
def generatorLower : List Char := "abcdefghijkmnpqrstuvwxyz".toList
def generatorDigit : List Char := "23456789".toList
def generatorSpecial : List Char := "<>|-_.:,;#!$%&?@".toList

/-- `alphabets` -/
def generatorAlphabets : List (List Char) :=
  [generatorUpper, generatorLower, generatorDigit, generatorSpecial]

/-- `all` -/
def generatorAll : List Char := generatorAlphabets.flatten

inductive GenerateError where
  /-- `rand.Int` failed -/
  | reader
  | complexity (e : ComplexityError)
  deriving DecidableEq, Repr

/-- A function that draws: the answers that are left. -/
abbrev Drawing : Type → Type := StateT (List Nat) (Except GenerateError)

/-- `rand.Int`: a number below `n`. -/
def randInt (n : Nat) : Drawing Nat := fun answers =>
  match answers with
  | [] => .error .reader
  | j :: rest => if j < n then .ok (j, rest) else .error .reader

def pick (alphabet : List Char) : Drawing Char := do
  let j ← randInt alphabet.length
  return alphabet.getD j ' '

/-- One character of each alphabet, appended. -/
def pickEach : List (List Char) → List Char → Drawing (List Char)
  | [], out => pure out
  | alphabet :: rest, out => do
    let r ← pick alphabet
    pickEach rest (out ++ [r])

/-- The places `i` down to `1`. -/
def shuffleLoop : Nat → List Char → Drawing (List Char)
  | 0, runes => pure runes
  | i + 1, runes => do
    let j ← randInt (i + 2)
    shuffleLoop i (FisherYates.swap runes (i + 1) j)

def shuffle (runes : List Char) : Drawing (List Char) := shuffleLoop (runes.length - 1) runes

/-- `GeneratePassword`, up to the check. -/
def drawRunes : Drawing (List Char) := do
  let out ← pickEach generatorAlphabets []
  -- the loop goes round once for each character that is missing
  let out ← pickEach (List.replicate (generatedPasswordLength - out.length) generatorAll) out
  shuffle out

def generatePassword (u : UnicodeTables) : Drawing (List Char) := do
  let password ← drawRunes
  match validateComplexity u password with
  | .error e => throw (.complexity e)
  | .ok () => return password

/-! ## Drawing -/

section Drawing

variable {α β : Type} {answers rest : List Nat}

theorem drawing_bind_ok {p : Drawing α} {f : α → Drawing β} {b : β} :
    (p >>= f) answers = .ok (b, rest) ↔
      ∃ a left, p answers = .ok (a, left) ∧ f a left = .ok (b, rest) := by
  show (p answers).bind (fun r => f r.1 r.2) = _ ↔ _
  cases p answers with
  | error e => exact ⟨nofun, fun ⟨_, _, h, _⟩ => nomatch h⟩
  | ok r =>
    constructor
    · exact fun h => ⟨r.1, r.2, rfl, h⟩
    · rintro ⟨a, left, ⟨⟩, h⟩
      exact h

theorem drawing_bind_error {p : Drawing α} {f : α → Drawing β} {e : GenerateError} :
    (p >>= f) answers = .error e ↔
      p answers = .error e ∨ ∃ a left, p answers = .ok (a, left) ∧ f a left = .error e := by
  show (p answers).bind (fun r => f r.1 r.2) = _ ↔ _
  cases p answers with
  | error e' => exact ⟨fun h => .inl (by cases h; rfl), fun h => h.elim (fun h => by cases h; rfl)
      fun ⟨_, _, h, _⟩ => nomatch h⟩
  | ok r =>
    constructor
    · exact fun h => .inr ⟨r.1, r.2, rfl, h⟩
    · rintro (h | ⟨a, left, ⟨⟩, h⟩)
      · cases h
      · exact h

theorem randInt_ok {n j : Nat} : randInt n answers = .ok (j, rest) ↔ answers = j :: rest ∧ j < n := by
  cases answers with
  | nil => exact ⟨nofun, nofun⟩
  | cons j' left =>
    show (if j' < n then Except.ok (j', left) else Except.error GenerateError.reader) = _ ↔ _
    split_ifs with hj
    · constructor
      · rintro ⟨⟩
        exact ⟨rfl, hj⟩
      · rintro ⟨⟨⟩, -⟩
        rfl
    · refine ⟨nofun, ?_⟩
      rintro ⟨⟨⟩, hlt⟩
      exact absurd hlt hj

theorem randInt_error {n : Nat} {e : GenerateError} (h : randInt n answers = .error e) :
    e = .reader := by
  unfold randInt at h
  split at h
  · cases h
    rfl
  · split_ifs at h
    cases h
    rfl

/-- Only the source of randomness fails. -/
def FailsBy (p : Drawing α) : Prop := ∀ answers e, p answers = .error e → e = .reader

theorem failsBy_bind {p : Drawing α} {f : α → Drawing β} (hp : FailsBy p) (hf : ∀ a, FailsBy (f a)) :
    FailsBy (p >>= f) := by
  intro answers e h
  rcases drawing_bind_error.mp h with h | ⟨a, left, -, h⟩
  · exact hp answers e h
  · exact hf a left e h

theorem failsBy_pure (a : α) : FailsBy (pure a : Drawing α) := nofun

theorem pick_failsBy (alphabet : List Char) : FailsBy (pick alphabet) :=
  failsBy_bind (fun _ _ h => randInt_error h) fun _ => failsBy_pure _

theorem pickEach_failsBy (alphabets : List (List Char)) (out : List Char) :
    FailsBy (pickEach alphabets out) := by
  induction alphabets generalizing out with
  | nil => exact failsBy_pure out
  | cons alphabet rest ih => exact failsBy_bind (pick_failsBy alphabet) fun r => ih (out ++ [r])

theorem shuffleLoop_failsBy (i : Nat) (runes : List Char) : FailsBy (shuffleLoop i runes) := by
  induction i generalizing runes with
  | zero => exact failsBy_pure runes
  | succ i ih => exact failsBy_bind (fun _ _ h => randInt_error h) fun j => ih _

/-! ### What is drawn -/

theorem pick_ok {alphabet : List Char} {c : Char} :
    pick alphabet answers = .ok (c, rest) ↔
      ∃ j, ∃ hj : j < alphabet.length, answers = j :: rest ∧ c = alphabet[j] := by
  unfold pick
  rw [drawing_bind_ok]
  constructor
  · rintro ⟨j, left, hdrawn, hc⟩
    obtain ⟨rfl, hj⟩ := randInt_ok.mp hdrawn
    cases hc
    exact ⟨j, hj, rfl, List.getD_eq_getElem _ _ hj⟩
  · rintro ⟨j, hj, rfl, rfl⟩
    refine ⟨j, rest, randInt_ok.mpr ⟨rfl, hj⟩, ?_⟩
    rw [List.getD_eq_getElem _ _ hj]
    rfl

/-- What is picked is of the alphabets, one after the other. -/
theorem pickEach_picks {alphabets : List (List Char)} {out out' : List Char}
    (h : pickEach alphabets out answers = .ok (out', rest)) :
    ∃ picked, out' = out ++ picked ∧ List.Forall₂ (· ∈ ·) picked alphabets := by
  induction alphabets generalizing out answers with
  | nil =>
    cases h
    exact ⟨[], (List.append_nil _).symm, .nil⟩
  | cons alphabet alphabets ih =>
    obtain ⟨r, left, hr, hrest⟩ := drawing_bind_ok.mp h
    obtain ⟨j, hj, -, rfl⟩ := pick_ok.mp hr
    obtain ⟨picked, rfl, hpicked⟩ := ih hrest
    exact ⟨alphabet[j] :: picked, List.append_assoc _ _ _, .cons (List.getElem_mem hj) hpicked⟩

/-- Whatever is of the alphabets can be picked. -/
theorem pickEach_reaches {alphabets : List (List Char)} {picked : List Char}
    (h : List.Forall₂ (· ∈ ·) picked alphabets) (out : List Char) :
    ∃ drawn, ∀ rest, pickEach alphabets out (drawn ++ rest) = .ok (out ++ picked, rest) := by
  induction h generalizing out with
  | nil => exact ⟨[], fun rest => by rw [List.append_nil]; rfl⟩
  | @cons c alphabet picked alphabets hc _ ih =>
    obtain ⟨j, hj, rfl⟩ := List.getElem_of_mem hc
    obtain ⟨drawn, hdrawn⟩ := ih (out ++ [alphabet[j]])
    refine ⟨j :: drawn, fun rest => drawing_bind_ok.mpr ⟨alphabet[j], drawn ++ rest, ?_, ?_⟩⟩
    · exact pick_ok.mpr ⟨j, hj, rfl, rfl⟩
    · rw [hdrawn rest, List.append_assoc]
      rfl

/-- The loop is the Fisher–Yates shuffle. -/
theorem shuffleLoop_ok {i : Nat} {runes out : List Char} :
    shuffleLoop i runes answers = .ok (out, rest) ↔
      ∃ drawn, answers = drawn ++ rest ∧ FisherYates.Drawn i drawn ∧
        FisherYates.shuffleFrom i runes drawn = out := by
  induction i generalizing runes answers with
  | zero =>
    constructor
    · rintro ⟨⟩
      exact ⟨[], rfl, rfl, rfl⟩
    · rintro ⟨_, rfl, rfl, rfl⟩
      rfl
  | succ i ih =>
    refine drawing_bind_ok.trans ?_
    constructor
    · rintro ⟨j, left, hj, hloop⟩
      obtain ⟨rfl, hlt⟩ := randInt_ok.mp hj
      obtain ⟨drawn, rfl, hdrawn, rfl⟩ := ih.mp hloop
      exact ⟨j :: drawn, rfl, ⟨Nat.le_of_lt_succ hlt, hdrawn⟩, rfl⟩
    · rintro ⟨drawn, rfl, hdrawn, hout⟩
      cases drawn with
      | nil => exact hdrawn.elim
      | cons j drawn =>
        refine ⟨j, drawn ++ rest, randInt_ok.mpr ⟨rfl, Nat.lt_succ_of_le hdrawn.1⟩, ?_⟩
        exact ih.mpr ⟨drawn, rfl, hdrawn.2, hout⟩

theorem shuffle_perm {runes out : List Char} (h : shuffle runes answers = .ok (out, rest)) :
    runes.Perm out := by
  unfold shuffle at h
  obtain ⟨drawn, -, hdrawn, rfl⟩ := shuffleLoop_ok.mp h
  cases hlength : runes.length with
  | zero => cases List.length_eq_zero_iff.mp hlength; exact .refl _
  | succ i =>
    rw [hlength] at hdrawn
    exact (FisherYates.shuffleFrom_perm hlength hdrawn).symm

theorem shuffle_reaches {runes out : List Char} (h : runes.Perm out) :
    ∃ drawn, ∀ rest, shuffle runes (drawn ++ rest) = .ok (out, rest) := by
  unfold shuffle
  cases hlength : runes.length with
  | zero =>
    cases List.length_eq_zero_iff.mp hlength
    cases List.nil_perm.mp h
    exact ⟨[], fun _ => rfl⟩
  | succ i =>
    obtain ⟨drawn, hdrawn, hout⟩ := FisherYates.shuffleFrom_reaches hlength h
    exact ⟨drawn, fun rest => shuffleLoop_ok.mpr ⟨drawn, rfl, hdrawn, hout⟩⟩

theorem shuffle_injective {runes out : List Char} {answers' : List Nat} (hdistinct : runes.Nodup)
    (h : shuffle runes answers = .ok (out, [])) (h' : shuffle runes answers' = .ok (out, [])) :
    answers = answers' := by
  unfold shuffle at h h'
  obtain ⟨drawn, rfl, hdrawn, hout⟩ := shuffleLoop_ok.mp h
  obtain ⟨drawn', rfl, hdrawn', hout'⟩ := shuffleLoop_ok.mp h'
  cases hlength : runes.length with
  | zero =>
    rw [hlength] at hdrawn hdrawn'
    rw [show drawn = [] from hdrawn, show drawn' = [] from hdrawn']
  | succ i =>
    rw [hlength] at hdrawn hdrawn' hout hout'
    rw [FisherYates.shuffleFrom_injective hlength hdistinct hdrawn hdrawn' (hout.trans hout'.symm)]

end Drawing

/-- A password the generator is for: of its alphabets, and with one character of each. -/
structure Generatable (password : List Char) : Prop where
  length : password.length = generatedPasswordLength
  drawn : ∀ c ∈ password, c ∈ generatorAll
  each : ∀ alphabet ∈ generatorAlphabets, ∃ c ∈ password, c ∈ alphabet

/-- Text of ASCII is in normal form. -/
def AsciiNormal (u : UnicodeTables) : Prop :=
  ∀ text : List Char, (∀ c ∈ text, c.toNat < 128) → u.nfc text = text

section Passwords

variable {u : UnicodeTables} {password : List Char}

theorem classOf_upper {c : Char} (h : c ∈ generatorUpper) : classOf u c = some .upper := by
  have hall : (generatorUpper.all fun c => decide ('A' ≤ c ∧ c ≤ 'Z')) = true := by decide
  unfold classOf
  rw [if_pos (of_decide_eq_true (List.all_eq_true.mp hall c h))]

theorem classOf_lower {c : Char} (h : c ∈ generatorLower) : classOf u c = some .lower := by
  have hall : (generatorLower.all fun c => decide (¬ ('A' ≤ c ∧ c ≤ 'Z') ∧ 'a' ≤ c ∧ c ≤ 'z')) = true := by decide
  have hc := of_decide_eq_true (List.all_eq_true.mp hall c h)
  unfold classOf
  rw [if_neg hc.1, if_pos hc.2]

theorem classOf_digit {c : Char} (h : c ∈ generatorDigit) : classOf u c = some .digit := by
  have hall : (generatorDigit.all fun c =>
      decide (¬ ('A' ≤ c ∧ c ≤ 'Z') ∧ ¬ ('a' ≤ c ∧ c ≤ 'z') ∧ '0' ≤ c ∧ c ≤ '9')) = true := by decide
  have hc := of_decide_eq_true (List.all_eq_true.mp hall c h)
  unfold classOf
  rw [if_neg hc.1, if_neg hc.2.1, if_pos hc.2.2]

theorem Generatable.normal (hascii : AsciiNormal u) (h : Generatable password) :
    u.nfc password = password := by
  have hall : (generatorAll.all fun c => decide (c.toNat < 128)) = true := by decide
  exact hascii password fun c hc => of_decide_eq_true (List.all_eq_true.mp hall c (h.drawn c hc))

/-- The rules accept it. -/
theorem Generatable.accepted (hascii : AsciiNormal u) (h : Generatable password) :
    validateComplexity u password = .ok () := by
  have hany : ∀ (alphabet : List Char) (c : PasswordClass), alphabet ∈ generatorAlphabets →
      (∀ r ∈ alphabet, classOf u r = some c) →
      (password.any fun r => classOf u r == some c) = true := by
    intro alphabet c halphabet hclass
    obtain ⟨r, hr, hin⟩ := h.each alphabet halphabet
    exact List.any_eq_true.mpr ⟨r, hr, by rw [hclass r hin]; exact BEq.rfl⟩
  have hupper := hany generatorUpper .upper (by decide) fun _ => classOf_upper
  have hlower := hany generatorLower .lower (by decide) fun _ => classOf_lower
  have hdigit := hany generatorDigit .digit (by decide) fun _ => classOf_digit
  have hsatisfied : requiredClasses ≤ (satisfiedClasses u password).length := by
    unfold satisfiedClasses allClasses
    rw [h.normal hascii]
    simp only [List.filter_cons, hupper, hlower, hdigit, if_true, List.length_cons]
    show 3 ≤ _
    omega
  unfold validateComplexity
  rw [h.normal hascii]
  dsimp only
  rw [h.length, if_neg (by decide), if_neg (by decide), if_neg (Nat.not_lt.mpr hsatisfied)]

end Passwords

/-! ### One of each -/

section Picks

variable {alphabets : List (List Char)} {first more password : List Char}

theorem picks_mem (h : List.Forall₂ (· ∈ ·) first alphabets) :
    (∀ c ∈ first, ∃ alphabet ∈ alphabets, c ∈ alphabet) ∧
      ∀ alphabet ∈ alphabets, ∃ c ∈ first, c ∈ alphabet := by
  induction h with
  | nil => exact ⟨nofun, nofun⟩
  | @cons c alphabet first alphabets hc _ ih =>
    refine ⟨fun c' hc' => ?_, fun alphabet' halphabet' => ?_⟩
    · rcases List.mem_cons.mp hc' with rfl | hc'
      · exact ⟨alphabet, List.mem_cons_self, hc⟩
      · obtain ⟨alphabet', hin, hmem⟩ := ih.1 c' hc'
        exact ⟨alphabet', List.mem_cons_of_mem _ hin, hmem⟩
    · rcases List.mem_cons.mp halphabet' with rfl | halphabet'
      · exact ⟨c, List.mem_cons_self, hc⟩
      · obtain ⟨c', hin, hmem⟩ := ih.2 alphabet' halphabet'
        exact ⟨c', List.mem_cons_of_mem _ hin, hmem⟩

/-- One character of each of several alphabets that share none can be taken out of a text. -/
theorem exists_picks (hdisjoint : alphabets.Pairwise List.Disjoint)
    (heach : ∀ alphabet ∈ alphabets, ∃ c ∈ password, c ∈ alphabet) :
    ∃ first more, List.Forall₂ (· ∈ ·) first alphabets ∧ (first ++ more).Perm password := by
  induction alphabets generalizing password with
  | nil => exact ⟨[], password, .nil, .refl _⟩
  | cons alphabet alphabets ih =>
    obtain ⟨hothers, hdisjoint⟩ := List.pairwise_cons.mp hdisjoint
    obtain ⟨c, hc, hin⟩ := heach alphabet List.mem_cons_self
    have hrest : ∀ alphabet' ∈ alphabets, ∃ c' ∈ password.erase c, c' ∈ alphabet' := by
      intro alphabet' halphabet'
      obtain ⟨c', hc', hin'⟩ := heach alphabet' (List.mem_cons_of_mem _ halphabet')
      have hne : c' ≠ c := by
        rintro rfl
        exact hothers alphabet' halphabet' hin hin'
      exact ⟨c', (List.mem_erase_of_ne hne).mpr hc', hin'⟩
    obtain ⟨first, more, hfirst, hperm⟩ := ih hdisjoint hrest
    exact ⟨c :: first, more, .cons hin hfirst,
      (hperm.cons c).trans (List.perm_cons_erase hc).symm⟩

theorem generatable_iff : Generatable password ↔ ∃ first more,
    List.Forall₂ (· ∈ ·) first generatorAlphabets ∧
      List.Forall₂ (· ∈ ·) more (List.replicate (generatedPasswordLength - first.length) generatorAll) ∧
      (first ++ more).Perm password := by
  constructor
  · intro h
    have hdisjoint : generatorAlphabets.Pairwise fun a b => (a.all fun c => decide (c ∉ b)) = true := by decide
    obtain ⟨first, more, hfirst, hperm⟩ :=
      exists_picks (hdisjoint.imp fun hab c hc => of_decide_eq_true (List.all_eq_true.mp hab c hc)) h.each
    refine ⟨first, more, hfirst, ?_, hperm⟩
    have hlength : generatedPasswordLength - first.length = more.length := by
      have htotal := hperm.length_eq
      rw [List.length_append, h.length] at htotal
      omega
    rw [hlength, List.forall₂_iff_get]
    refine ⟨List.length_replicate.symm, fun k hk hk' => ?_⟩
    rw [List.get_eq_getElem, List.get_eq_getElem, List.getElem_replicate]
    exact h.drawn _ (hperm.mem_iff.mp (List.mem_append_right _ (List.getElem_mem _)))
  · rintro ⟨first, more, hfirst, hmore, hperm⟩
    refine ⟨?_, fun c hc => ?_, fun alphabet halphabet => ?_⟩
    · have hfour : first.length = 4 := hfirst.length_eq
      rw [← hperm.length_eq, List.length_append, hmore.length_eq, List.length_replicate, hfour]
      rfl
    · rcases List.mem_append.mp (hperm.mem_iff.mpr hc) with hin | hin
      · obtain ⟨alphabet, halphabet, hmem⟩ := (picks_mem hfirst).1 c hin
        exact List.mem_flatten.mpr ⟨alphabet, halphabet, hmem⟩
      · obtain ⟨alphabet, halphabet, hmem⟩ := (picks_mem hmore).1 c hin
        rwa [List.eq_of_mem_replicate halphabet] at hmem
    · obtain ⟨c, hc, hmem⟩ := (picks_mem hfirst).2 alphabet halphabet
      exact ⟨c, hperm.mem_iff.mp (List.mem_append_left _ hc), hmem⟩

end Picks

/-- **What is drawn**: everything the generator is for, and nothing else. -/
theorem drawRunes_range {password : List Char} :
    (∃ answers rest, drawRunes answers = .ok (password, rest)) ↔ Generatable password := by
  rw [generatable_iff]
  constructor
  · rintro ⟨answers, rest, h⟩
    obtain ⟨first, left, hfirst, h⟩ := drawing_bind_ok.mp h
    obtain ⟨_, rfl, hpicked⟩ := pickEach_picks hfirst
    obtain ⟨out, left', hmore, hshuffled⟩ := drawing_bind_ok.mp h
    obtain ⟨more, rfl, hpicked'⟩ := pickEach_picks hmore
    exact ⟨_, more, hpicked, hpicked', shuffle_perm hshuffled⟩
  · rintro ⟨first, more, hfirst, hmore, hperm⟩
    obtain ⟨drawn, hdrawn⟩ := pickEach_reaches hfirst []
    obtain ⟨drawn', hdrawn'⟩ := pickEach_reaches hmore first
    obtain ⟨drawn'', hdrawn''⟩ := shuffle_reaches hperm
    refine ⟨drawn ++ (drawn' ++ (drawn'' ++ [])), [], ?_⟩
    refine drawing_bind_ok.mpr ⟨first, _, hdrawn _, ?_⟩
    exact drawing_bind_ok.mpr ⟨first ++ more, _, hdrawn' _, hdrawn'' []⟩

theorem drawRunes_failsBy : FailsBy drawRunes :=
  failsBy_bind (pickEach_failsBy _ _) fun _ =>
    failsBy_bind (pickEach_failsBy _ _) fun _ => shuffleLoop_failsBy _ _

/-- The check changes nothing: the rules accept whatever is drawn. -/
theorem generatePassword_eq {u : UnicodeTables} (hascii : AsciiNormal u) :
    generatePassword u = drawRunes := by
  funext answers
  show (drawRunes answers).bind _ = _
  cases hdrawn : drawRunes answers with
  | error e => rfl
  | ok r =>
    have haccepted := (drawRunes_range.mp ⟨answers, r.2, hdrawn⟩).accepted hascii
    show (match validateComplexity u r.1 with
      | .error e => throw (.complexity e)
      | .ok () => return r.1 : Drawing (List Char)) r.2 = _
    rw [haccepted]
    rfl

/-- **The passwords it generates**: whatever the source of randomness answers, `generatePassword`
fails only if that does. What it returns has twenty characters of its alphabets with one of each, which
the rules accept, and every such password is one it may return. -/
theorem generatePassword_range {u : UnicodeTables} (hascii : AsciiNormal u) :
    (∀ answers e, generatePassword u answers = .error e → e = .reader) ∧
    ∀ password, ((∃ answers rest, generatePassword u answers = .ok (password, rest)) ↔
      Generatable password) ∧ (Generatable password → validateComplexity u password = .ok ()) := by
  rw [generatePassword_eq hascii]
  exact ⟨drawRunes_failsBy, fun password => ⟨drawRunes_range, Generatable.accepted hascii⟩⟩

/-- Tables of which nothing but ASCII is asked. -/
def plainTables : UnicodeTables where
  letter := fun _ => false
  mark := fun _ => false
  number := fun _ => false
  punctuation := fun _ => false
  symbol := fun _ => false
  nfc := id
  nfc_nfc := @id_eq (List Char)

/-- One of the passwords. -/
theorem generatePassword_range_one :
    ∃ answers rest, generatePassword plainTables answers = .ok ("Ab2<Ab2<Ab2<Ab2<Ab2<".toList, rest) :=
  ((generatePassword_range fun _ _ => rfl).2 "Ab2<Ab2<Ab2<Ab2<Ab2<".toList).1.mpr
    { length := by decide
      drawn := fun c hc => List.contains_iff_mem.mp (List.all_eq_true.mp
        (show ("Ab2<Ab2<Ab2<Ab2<Ab2<".toList.all generatorAll.contains) = true by decide) c hc)
      each := fun alphabet halphabet => by
        have hall : (generatorAlphabets.all fun alphabet => "Ab2<Ab2<Ab2<Ab2<Ab2<".toList.any alphabet.contains) =
            true := by decide
        obtain ⟨c, hc, hin⟩ := List.any_eq_true.mp (List.all_eq_true.mp hall alphabet halphabet)
        exact ⟨c, hc, List.contains_iff_mem.mp hin⟩ }

end Doenerstag.Auth
