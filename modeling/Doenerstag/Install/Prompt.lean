import Doenerstag.Go.Strings
import Doenerstag.Lib.Retries

/-!
# The interview (`internal/install/prompt.go`)

Questions to the operator of the installation, answered line by line. Standard input is no terminal here, so
that a secret is read like any other line, and the input is a text that ends.

* `readString`, `entries` — the input, and the answers in it.
* `readAnswer`, `ask`, `askSecretTwice`, `askInt`, `askBool` — the functions as they are in the source, for a
  number of rounds; the prompts that they write are left out.
* `Answerable` — when a question comes to an end.
* `ends_iff` — **a question is answered, or ends with an error, exactly when it is no secret, or its secret is
  somewhere in what is left of the input, or the empty answer will do.**
-/

namespace Doenerstag.Install

open Retries

/-! ## The input -/

/-- `ReadString('\n')`: the line, whether the input has ended before it did, and what is left -/
def readString : Text → Text × Bool × Text
  | [] => ([], true, [])
  | c :: cs =>
    if c = '\n' then (['\n'], false, cs)
    else
      let (line, ended, rest) := readString cs
      (c :: line, ended, rest)

/-- The lines of the input, with their ends -/
def lines : Text → List Text
  | [] => []
  | c :: cs =>
    if c = '\n' then ['\n'] :: lines cs
    else
      match lines cs with
      | [] => [[c]]
      | line :: rest => (c :: line) :: rest

/-- What `readAnswer` makes of a line -/
def entry (line : Text) : String := trimSpace (String.ofList line)

/-- The answers that are left -/
def entries (s : Text) : List String := (lines s).map entry

/-! ## Questions -/

structure Question where
  prompt : String
  default : String
  flag : String
  env : String
  /-- the error that it returns; a nil one accepts everything. -/
  validate : Option (String → Option String)
  secret : Bool
  allowEmpty : Bool

inductive AskError where
  /-- `MissingValueError` -/
  | missingValue (question flag env : String)
  /-- `%s: %w` -/
  | refused (prompt reason : String)
  /-- `input ended while asking %q; …` -/
  | inputEnded (prompt : String)
  /-- of `strconv.Atoi` -/
  | notANumber (answer : String)
  deriving DecidableEq

def Question.refusal (q : Question) (answer : String) : Option String := q.validate.bind fun validate => validate answer

def unattended (q : Question) : Except AskError String :=
  if q.default = "" && !q.allowEmpty then .error (.missingValue q.prompt q.flag q.env)
  else
    match q.refusal q.default with
    | some reason => .error (.refused q.prompt reason)
    | none => .ok q.default

/-- `readAnswer`, with `secret`, which passes over the end of the input -/
def readAnswer (q : Question) (s : Text) : Except AskError String × Text :=
  let (line, ended, rest) := readString s
  if q.secret then (.ok (entry line), rest)
  else if ended && line = [] then (.error (.inputEnded q.prompt), rest)
  else (.ok (entry line), rest)

/-- An empty answer takes the default. -/
def Question.settle (q : Question) (answer : String) : String := if answer = "" then q.default else answer

/-- One round of the loop of `Ask` -/
def askRound (q : Question) (s : Text) : Next Text (Except AskError String × Text) :=
  match readAnswer q s with
  | (.error e, rest) => .stop (.error e, rest)
  | (.ok answer, rest) =>
    let answer := q.settle answer
    if answer = "" && !q.allowEmpty then .again rest
    else
      match q.refusal answer with
      | some _ => .again rest
      | none => .stop (.ok answer, rest)

def ask (nonInteractive : Bool) (q : Question) (fuel : Nat) (s : Text) : Option (Except AskError String × Text) :=
  if nonInteractive then some (unattended q, s)
  else retry (fun s => some (askRound q s)) fuel s

/-- The two questions of `AskSecretTwice`; neither has the default. -/
def Question.first (q : Question) : Question :=
  { prompt := q.prompt, default := "", flag := q.flag, env := q.env, validate := q.validate, secret := true
    allowEmpty := q.allowEmpty }

def Question.again (q : Question) : Question :=
  { prompt := q.prompt ++ " (again)", default := "", flag := "", env := "", validate := none, secret := true
    allowEmpty := true }

/-- One round of the loop of `AskSecretTwice` -/
def twiceRound (q : Question) (fuel : Nat) (s : Text) : Option (Next Text (Except AskError String × Text)) := do
  match ← ask false q.first fuel s with
  | (.error e, s) => some (.stop (.error e, s))
  | (.ok first, s) =>
    match ← ask false q.again fuel s with
    | (.error e, s) => some (.stop (.error e, s))
    | (.ok second, s) => if first = second then some (.stop (.ok first, s)) else some (.again s)

def askSecretTwice (nonInteractive : Bool) (q : Question) (fuel : Nat) (s : Text) :
    Option (Except AskError String × Text) :=
  if nonInteractive then some (unattended q, s)
  else retry (twiceRound q fuel) fuel s

/-- `strconv.Atoi` -/
def atoi (s : String) : Option Int := parseInt64 s.toList

/-- The question of `AskInt` -/
def Question.numeric (q : Question) : Question :=
  { q with
    validate := some fun s =>
      match atoi s with
      | none => some (s.quote ++ " is not a whole number")
      | some _ => q.refusal s
    secret := false
    allowEmpty := false }

def askInt (nonInteractive : Bool) (q : Question) (fuel : Nat) (s : Text) : Option (Except AskError Int × Text) :=
  (ask nonInteractive q.numeric fuel s).map fun (answer, s) =>
    (answer.bind fun answer =>
      match atoi answer with
      | some n => .ok n
      | none => .error (.notANumber answer), s)

/-- `boolWord` -/
def boolWord (b : Bool) : String := if b then "yes" else "no"

/-- `parseBoolWord`; of the letters of its words, `strings.ToLower` makes none but those of ASCII. -/
def parseBoolWord (s : String) : Option Bool :=
  let word := (trimSpace s).map Char.toLower
  if word ∈ ["y", "yes", "true", "1"] then some true
  else if word ∈ ["n", "no", "false", "0"] then some false
  else none

/-- The question of `AskBool` -/
def boolQuestion (prompt : String) (default : Bool) : Question :=
  { prompt := prompt, default := boolWord default, flag := "", env := ""
    validate := some fun s =>
      match parseBoolWord s with
      | none => some ("answer yes or no, not " ++ s.quote)
      | some _ => none
    secret := false, allowEmpty := false }

def askBool (nonInteractive : Bool) (prompt : String) (default : Bool) (fuel : Nat) (s : Text) :
    Option (Except AskError Bool × Text) :=
  (ask nonInteractive (boolQuestion prompt default) fuel s).map fun (answer, s) =>
    (answer.map fun answer => (parseBoolWord answer).getD false, s)

/-! ## Reading -/

section Reading

variable {s : Text}

theorem readString_cons {c : Char} (hc : c ≠ '\n') (cs : Text) :
    readString (c :: cs) = (c :: (readString cs).1, (readString cs).2.1, (readString cs).2.2) := by
  simp [readString, hc]

theorem lines_eq (hs : s ≠ []) : lines s = (readString s).1 :: lines (readString s).2.2 := by
  induction s with
  | nil => exact (hs rfl).elim
  | cons c cs ih =>
    by_cases hc : c = '\n'
    · subst hc
      rfl
    · rw [readString_cons hc]
      cases cs with
      | nil => simp [lines, readString, hc]
      | cons c' cs =>
        have hrest := ih (List.cons_ne_nil _ _)
        rw [lines, if_neg hc, hrest]

theorem readString_shorter (hs : s ≠ []) : (readString s).2.2.length < s.length := by
  induction s with
  | nil => exact (hs rfl).elim
  | cons c cs ih =>
    by_cases hc : c = '\n'
    · subst hc
      exact Nat.lt_succ_self _
    · rw [readString_cons hc]
      cases cs with
      | nil => exact Nat.zero_lt_one
      | cons c' cs => exact Nat.lt_succ_of_lt (ih (List.cons_ne_nil _ _))

theorem readString_nonempty (hs : s ≠ []) : (readString s).1 ≠ [] := by
  cases s with
  | nil => exact (hs rfl).elim
  | cons c cs =>
    by_cases hc : c = '\n'
    · subst hc
      exact List.cons_ne_nil _ _
    · rw [readString_cons hc]
      exact List.cons_ne_nil _ _

/-- A secret is the next answer, or empty when there is none. -/
theorem readAnswer_secret {q : Question} (hq : q.secret = true) (s : Text) :
    ∃ rest, readAnswer q s = (.ok ((entries s).headD ""), rest) ∧ entries rest = (entries s).tail := by
  unfold readAnswer
  rw [hq]
  refine ⟨(readString s).2.2, ?_, ?_⟩
  · cases s with
    | nil => rfl
    | cons c cs =>
      show (Except.ok (entry (readString (c :: cs)).1), _) = _
      unfold entries
      rw [lines_eq (List.cons_ne_nil _ _)]
      rfl
  · cases s with
    | nil => rfl
    | cons c cs =>
      unfold entries
      rw [lines_eq (List.cons_ne_nil c cs)]
      rfl

end Reading

/-! ## What is accepted -/

/-- An answer that ends the loop -/
def Question.accepts (q : Question) (answer : String) : Bool :=
  (answer ≠ "" || q.allowEmpty) && (q.refusal answer).isNone

theorem unattended_accepts {q : Question} {answer : String} (h : unattended q = .ok answer) :
    q.accepts answer = true := by
  unfold unattended at h
  split_ifs at h with hempty
  cases hrefusal : q.refusal q.default with
  | some reason => simp [hrefusal] at h
  | none =>
    simp only [hrefusal, Except.ok.injEq] at h
    subst h
    simp only [Question.accepts, hrefusal, Option.isNone_none, Bool.and_true]
    by_cases hdefault : q.default = "" <;> simp_all

/-- A round ends with an answer that is accepted, or goes on. -/
theorem askRound_eq (q : Question) (s : Text) {answer : String} {rest : Text}
    (h : readAnswer q s = (.ok answer, rest)) :
    askRound q s = if q.accepts (q.settle answer) then .stop (.ok (q.settle answer), rest) else .again rest := by
  unfold askRound
  simp only [h]
  unfold Question.accepts
  cases q.refusal (q.settle answer) <;> by_cases hempty : q.settle answer = "" <;>
    cases hallow : q.allowEmpty <;> simp [hempty]

theorem askRound_accepts {q : Question} {s rest : Text} {answer : String}
    (h : askRound q s = .stop (.ok answer, rest)) : q.accepts answer = true := by
  rcases hread : readAnswer q s with ⟨e | a, s'⟩
  · unfold askRound at h
    simp [hread] at h
  · rw [askRound_eq q s hread] at h
    split_ifs at h with haccepts
    cases h
    exact haccepts

/-- **What `Ask` returns is accepted.** -/
theorem ask_accepts {nonInteractive : Bool} {q : Question} {fuel : Nat} {s rest : Text} {answer : String}
    (h : ask nonInteractive q fuel s = some (.ok answer, rest)) : q.accepts answer = true := by
  unfold ask at h
  split_ifs at h with hmode
  · exact unattended_accepts (congrArg Prod.fst (Option.some.inj h))
  · obtain ⟨s', hround⟩ := retry_result h
    exact askRound_accepts (Option.some.inj hround)

/-- **A question that is no secret ends**, at the end of the input at the latest. -/
theorem ask_ends {q : Question} (hq : q.secret = false) (s : Text) :
    ∃ r, ask false q (s.length + 1) s = some r := by
  show ∃ r, retry (fun s => some (askRound q s)) (s.length + 1) s = some r
  refine retry_ends List.length (fun s => ⟨_, rfl, fun s' hagain => ?_⟩) (s.length + 1) s (Nat.lt_succ_self _)
  rcases hread : readString s with ⟨line, ended, rest⟩
  by_cases hs : s = []
  · subst hs
    unfold askRound readAnswer at hagain
    rw [hq] at hagain
    cases hagain
  · have hshorter := readString_shorter hs
    have hline := readString_nonempty hs
    rw [hread] at hshorter hline
    have hanswer : readAnswer q s = (.ok (entry line), rest) := by
      unfold readAnswer
      rw [hread, hq]
      simp [show line ≠ [] from hline]
    rw [askRound_eq q s hanswer] at hagain
    split_ifs at hagain
    cases hagain
    exact hshorter

/-! ## A secret -/

/-- The first answer that is accepted, and those behind it; behind the last one all answers are empty. -/
def Question.search (q : Question) : List String → Option (String × List String)
  | [] => if q.accepts q.default then some (q.default, []) else none
  | answer :: answers => if q.accepts (q.settle answer) then some (q.settle answer, answers) else q.search answers

section Secret

variable {q : Question} {s : Text} {answers rest : List String} {answer : String}

theorem search_isSome_iff :
    (q.search answers).isSome = true ↔
      (∃ answer ∈ answers, q.accepts (q.settle answer) = true) ∨ q.accepts q.default = true := by
  induction answers with
  | nil =>
    unfold Question.search
    split_ifs with h <;> simp [h]
  | cons answer answers ih =>
    unfold Question.search
    split_ifs with h
    · simp [h]
    · simp [ih, h]

theorem search_eq (q : Question) (answers : List String) :
    q.search answers =
      if q.accepts (q.settle (answers.headD "")) then some (q.settle (answers.headD ""), answers.tail)
      else if answers = [] then none else q.search answers.tail := by
  cases answers with
  | nil => rfl
  | cons answer answers =>
    show (if _ then _ else _) = (if _ then _ else if answer :: answers = [] then none else _)
    rw [if_neg (List.cons_ne_nil answer answers)]
    rfl

theorem askRound_secret (hq : q.secret = true) (s : Text) :
    ∃ rest, entries rest = (entries s).tail ∧
      askRound q s = if q.accepts (q.settle ((entries s).headD "")) then
        .stop (.ok (q.settle ((entries s).headD "")), rest) else .again rest := by
  obtain ⟨rest, hread, hrest⟩ := readAnswer_secret hq s
  exact ⟨rest, hrest, askRound_eq q s hread⟩

theorem ask_stop {r : Except AskError String × Text} (h : askRound q s = .stop r) (n : Nat) :
    ask false q (n + 1) s = some r := by
  show retry (fun s => some (askRound q s)) (n + 1) s = some r
  exact retry_stop (congrArg some h) n

theorem ask_again {s' : Text} (h : askRound q s = .again s') (n : Nat) :
    ask false q (n + 1) s = ask false q n s' := by
  show retry (fun s => some (askRound q s)) (n + 1) s = _
  exact retry_again (congrArg some h) n

/-- What is found is returned, once there are rounds enough. -/
theorem ask_found (hq : q.secret = true) (h : q.search (entries s) = some (answer, rest)) :
    ∃ s', entries s' = rest ∧
      ∀ n, (entries s).length ≤ n → ask false q (n + 1) s = some (.ok answer, s') := by
  generalize hentries : entries s = answers at h
  induction answers generalizing s with
  | nil =>
    obtain ⟨s', hs', hround⟩ := askRound_secret hq s
    rw [hentries] at hs' hround
    rw [search_eq] at h
    split_ifs at h hround with haccepts hnil
    · obtain ⟨rfl, rfl⟩ := Prod.mk.inj (Option.some.inj h)
      exact ⟨s', hs', fun n _ => ask_stop hround n⟩
    · exact (hnil rfl).elim
  | cons a answers ih =>
    obtain ⟨s', hs', hround⟩ := askRound_secret hq s
    rw [hentries] at hs' hround
    rw [search_eq] at h
    split_ifs at h hround with haccepts hnil
    · obtain ⟨rfl, rfl⟩ := Prod.mk.inj (Option.some.inj h)
      exact ⟨s', hs', fun n _ => ask_stop hround n⟩
    · obtain ⟨s'', hs'', hask⟩ := ih hs' h
      refine ⟨s'', hs'', fun n hn => ?_⟩
      obtain ⟨m, rfl⟩ := Nat.exists_eq_succ_of_ne_zero (Nat.ne_of_gt (Nat.lt_of_lt_of_le (Nat.succ_pos _) hn))
      rw [ask_again hround]
      exact hask m (Nat.le_of_succ_le_succ hn)

/-- **What is not found is asked for without end.** -/
theorem ask_never (hq : q.secret = true) (h : q.search (entries s) = none) (fuel : Nat) :
    ask false q fuel s = none := by
  show retry (fun s => some (askRound q s)) fuel s = none
  refine retry_never (I := fun s => q.search (entries s) = none) (fun s hs => ?_) fuel h
  obtain ⟨s', hs', hround⟩ := askRound_secret hq s
  rw [search_eq] at hs
  split_ifs at hs hround with haccepts hnil
  · refine .inr ⟨s', congrArg some hround, ?_⟩
    rw [hnil] at haccepts
    rw [hs', hnil, List.tail_nil, search_eq, if_neg haccepts]
    rfl
  · refine .inr ⟨s', congrArg some hround, ?_⟩
    rw [hs']
    exact hs

theorem ask_mono {nonInteractive : Bool} {r : Except AskError String × Text} {n m : Nat} (hle : n ≤ m)
    (h : ask nonInteractive q n s = some r) : ask nonInteractive q m s = some r := by
  unfold ask at h ⊢
  split_ifs at h ⊢ with hmode
  · exact h
  · exact retry_mono (fun _ _ hround => hround) hle h

/-- What is returned of a secret was found. -/
theorem search_of_ask (hq : q.secret = true) {fuel : Nat} {r : Except AskError String} {s' : Text}
    (h : ask false q fuel s = some (r, s')) :
    ∃ answer, r = .ok answer ∧ q.search (entries s) = some (answer, entries s') := by
  cases hsearch : q.search (entries s) with
  | none =>
    rw [ask_never hq hsearch] at h
    cases h
  | some found =>
    obtain ⟨answer, rest⟩ := found
    obtain ⟨s'', hs'', hask⟩ := ask_found hq hsearch
    have hmore := ask_mono (Nat.le_add_right fuel ((entries s).length + 1)) h
    rw [← Nat.add_assoc, hask _ (Nat.le_add_left _ _)] at hmore
    obtain ⟨rfl, rfl⟩ := Prod.mk.inj (Option.some.inj hmore)
    exact ⟨answer, rfl, by rw [hs'']⟩

end Secret

/-! ## A secret that is repeated -/

/-- Looked through in pairs, once an answer is accepted: it is followed by itself, or in the end the empty
answer will do. -/
def Question.repeated (q : Question) : List String → Bool
  | [] => q.accepts ""
  | [_] => q.accepts ""
  | first :: second :: answers =>
    if q.accepts first then first = second || q.repeated answers else q.repeated (second :: answers)

section Twice

variable {q : Question} {s : Text}

theorem settle_first (q : Question) (answer : String) : q.first.settle answer = answer := by
  unfold Question.settle
  split_ifs with h
  · exact h.symm
  · rfl

theorem repeated_pair (q : Question) (first second : String) (answers : List String) :
    q.repeated (first :: second :: answers) =
      if q.accepts first then first = second || q.repeated answers else q.repeated (second :: answers) := by
  rw [Question.repeated]

theorem search_first_nil (q : Question) :
    q.first.search [] = if q.accepts "" then some ("", []) else none := rfl

theorem search_first_cons (q : Question) (answer : String) (answers : List String) :
    q.first.search (answer :: answers) =
      if q.accepts answer then some (answer, answers) else q.first.search answers := by
  have hsame : q.first.accepts answer = q.accepts answer := rfl
  rw [Question.search, settle_first, hsame]

/-- Without an answer that is accepted there is none that is repeated. -/
theorem repeated_of_none {answers : List String} (h : q.first.search answers = none) : q.repeated answers = false := by
  induction answers with
  | nil =>
    rw [search_first_nil] at h
    split_ifs at h with hempty
    exact Bool.eq_false_of_not_eq_true hempty
  | cons first answers ih =>
    rw [search_first_cons] at h
    split_ifs at h with hfirst
    cases answers with
    | nil => exact ih h
    | cons second answers =>
      rw [repeated_pair, if_neg hfirst]
      exact ih h

/-- The answer that is accepted is followed by itself, or the search goes on behind the two. -/
theorem repeated_of_some {answers rest : List String} {first : String}
    (h : q.first.search answers = some (first, rest)) :
    q.repeated answers = (first = rest.headD "" || q.repeated rest.tail) := by
  induction answers with
  | nil =>
    rw [search_first_nil] at h
    split_ifs at h with hempty
    obtain ⟨rfl, rfl⟩ := Prod.mk.inj (Option.some.inj h)
    exact hempty
  | cons answer answers ih =>
    rw [search_first_cons] at h
    split_ifs at h with hfirst
    · obtain ⟨rfl, rfl⟩ := Prod.mk.inj (Option.some.inj h)
      cases answers with
      | nil =>
        show q.accepts "" = (decide (answer = "") || q.accepts "")
        by_cases hempty : answer = ""
        · rw [← hempty, hfirst]
          exact (Bool.or_true _).symm
        · rw [decide_eq_false hempty]
          rfl
      | cons second answers =>
        rw [repeated_pair, if_pos hfirst]
        rfl
    · cases answers with
      | nil => exact ih h
      | cons second answers =>
        rw [repeated_pair, if_neg hfirst]
        exact ih h

/-- The second question takes any answer. -/
theorem search_again (q : Question) (answers : List String) :
    q.again.search answers = some (answers.headD "", answers.tail) := by
  have haccepts (answer : String) : q.again.accepts answer = true := by
    simp [Question.accepts, Question.again, Question.refusal]
  have hsettle (answer : String) : q.again.settle answer = answer := settle_first q answer
  rw [search_eq, if_pos (haccepts _), hsettle]

/-- A round whose questions are both answered -/
theorem twiceRound_of_asked {fuel : Nat} {first second : String} {s₁ s₂ : Text}
    (hfirst : ask false q.first fuel s = some (.ok first, s₁))
    (hsecond : ask false q.again fuel s₁ = some (.ok second, s₂)) :
    twiceRound q fuel s = if first = second then some (.stop (.ok first, s₂)) else some (.again s₂) := by
  unfold twiceRound
  simp only [hfirst, hsecond, Option.bind_eq_bind, Option.bind_some]

theorem twiceRound_unfinished {fuel : Nat} (hfirst : ask false q.first fuel s = none) :
    twiceRound q fuel s = none := by
  unfold twiceRound
  simp only [hfirst, Option.bind_eq_bind, Option.bind_none]

theorem twiceRound_unrepeated {fuel : Nat} {first : String} {s₁ : Text}
    (hfirst : ask false q.first fuel s = some (.ok first, s₁)) (hsecond : ask false q.again fuel s₁ = none) :
    twiceRound q fuel s = none := by
  unfold twiceRound
  simp only [hfirst, hsecond, Option.bind_eq_bind, Option.bind_some, Option.bind_none]

theorem search_shorter {answers rest : List String} {answer : String} (h : q.search answers = some (answer, rest)) :
    rest.length < answers.length ∨ answer = q.default ∧ rest = [] := by
  induction answers with
  | nil =>
    unfold Question.search at h
    split_ifs at h
    obtain ⟨rfl, rfl⟩ := Prod.mk.inj (Option.some.inj h)
    exact .inr ⟨rfl, rfl⟩
  | cons a answers ih =>
    unfold Question.search at h
    split_ifs at h
    · obtain ⟨rfl, rfl⟩ := Prod.mk.inj (Option.some.inj h)
      exact .inl (Nat.lt_succ_self _)
    · exact (ih h).imp_left Nat.lt_succ_of_lt

/-- **A secret that is not repeated is asked for without end.** -/
theorem twice_never (h : q.repeated (entries s) = false) (fuel : Nat) : askSecretTwice false q fuel s = none := by
  show retry (twiceRound q fuel) fuel s = none
  refine retry_never (I := fun s => q.repeated (entries s) = false) (fun s hs => ?_) fuel h
  rcases hfirst : ask false q.first fuel s with _ | ⟨r, s₁⟩
  · exact .inl (twiceRound_unfinished hfirst)
  obtain ⟨first, rfl, hsearch⟩ := search_of_ask rfl hfirst
  rcases hsecond : ask false q.again fuel s₁ with _ | ⟨r', s₂⟩
  · exact .inl (twiceRound_unrepeated hfirst hsecond)
  obtain ⟨second, rfl, hsearch'⟩ := search_of_ask rfl hsecond
  rw [search_again] at hsearch'
  obtain ⟨hhead, htail⟩ := Prod.mk.inj (Option.some.inj hsearch')
  rw [repeated_of_some hsearch, Bool.or_eq_false_iff, hhead, htail, decide_eq_false_iff_not] at hs
  refine .inr ⟨s₂, ?_, hs.2⟩
  rw [twiceRound_of_asked hfirst hsecond, if_neg hs.1]

/-- A round ends the loop, or leaves less to look through. -/
theorem twice_step {m : Nat} (h : q.repeated (entries s) = true) (hle : (entries s).length ≤ m) :
    (∃ r, twiceRound q (m + 1) s = some (.stop r)) ∨
      ∃ s', twiceRound q (m + 1) s = some (.again s') ∧ (entries s').length < (entries s).length ∧
        q.repeated (entries s') = true := by
  cases hsearch : q.first.search (entries s) with
  | none =>
    rw [repeated_of_none hsearch] at h
    cases h
  | some found =>
    obtain ⟨first, rest⟩ := found
    rw [repeated_of_some hsearch, Bool.or_eq_true, decide_eq_true_eq] at h
    have hlength : rest.length ≤ (entries s).length := by
      rcases search_shorter hsearch with hlt | ⟨-, hnil⟩
      · exact Nat.le_of_lt hlt
      · rw [hnil]
        exact Nat.zero_le _
    obtain ⟨s₁, hs₁, hask⟩ := ask_found rfl hsearch
    have hfirst := hask m hle
    obtain ⟨s₂, hs₂, hask'⟩ := ask_found rfl (search_again q (entries s₁))
    have hsecond := hask' m (by rw [hs₁]; exact Nat.le_trans hlength hle)
    rw [hs₁] at hs₂ hsecond
    rw [twiceRound_of_asked hfirst hsecond]
    by_cases hsame : first = rest.headD ""
    · exact .inl ⟨_, if_pos hsame⟩
    · refine .inr ⟨s₂, if_neg hsame, ?_, ?_⟩
      · rcases search_shorter hsearch with hlt | ⟨hdefault, hnil⟩
        · rw [hs₂, List.length_tail]
          omega
        · rw [hnil] at hsame
          exact (hsame hdefault).elim
      · rw [hs₂]
        exact h.resolve_left hsame

/-- **One that is repeated is returned.** -/
theorem twice_ends {m : Nat} (n : Nat) :
    ∀ {s : Text}, (entries s).length < n → (entries s).length ≤ m → q.repeated (entries s) = true →
      ∃ r, retry (twiceRound q (m + 1)) n s = some r := by
  induction n with
  | zero => exact fun hlt => absurd hlt (Nat.not_lt_zero _)
  | succ n ih =>
    intro s hlt hle h
    rcases twice_step h hle with ⟨r, hstop⟩ | ⟨s', hagain, hless, hrepeated⟩
    · exact ⟨r, retry_stop hstop n⟩
    · rw [retry_again hagain]
      exact ih (Nat.lt_of_lt_of_le hless (Nat.le_of_lt_succ hlt)) (Nat.le_trans (Nat.le_of_lt hless) hle) hrepeated

theorem twice_accepts {nonInteractive : Bool} {fuel : Nat} {rest : Text} {answer : String}
    (h : askSecretTwice nonInteractive q fuel s = some (.ok answer, rest)) : q.accepts answer = true := by
  unfold askSecretTwice at h
  split_ifs at h with hmode
  · exact unattended_accepts (congrArg Prod.fst (Option.some.inj h))
  · obtain ⟨s', hround⟩ := retry_result h
    rcases hfirst : ask false q.first fuel s' with _ | ⟨r, s₁⟩
    · rw [twiceRound_unfinished hfirst] at hround
      cases hround
    obtain ⟨first, rfl, -⟩ := search_of_ask rfl hfirst
    rcases hsecond : ask false q.again fuel s₁ with _ | ⟨r', s₂⟩
    · rw [twiceRound_unrepeated hfirst hsecond] at hround
      cases hround
    obtain ⟨second, rfl, -⟩ := search_of_ask rfl hsecond
    rw [twiceRound_of_asked hfirst hsecond] at hround
    split_ifs at hround
    · cases hround
      exact (ask_accepts hfirst : q.first.accepts answer = true)
    · cases hround

end Twice

/-! ## The interview -/

/-- One call -/
inductive Call where
  | ask (q : Question)
  | askInt (q : Question)
  | askBool (prompt : String) (default : Bool)
  | askSecretTwice (q : Question)

inductive Answer where
  | text (s : String)
  | number (n : Int)
  | truth (b : Bool)
  deriving DecidableEq

namespace Call

def run (nonInteractive : Bool) (fuel : Nat) (s : Text) : Call → Option (Except AskError Answer × Text)
  | ask q => (Install.ask nonInteractive q fuel s).map fun r => (r.1.map Answer.text, r.2)
  | askInt q => (Install.askInt nonInteractive q fuel s).map fun r => (r.1.map Answer.number, r.2)
  | askBool prompt default =>
    (Install.askBool nonInteractive prompt default fuel s).map fun r => (r.1.map Answer.truth, r.2)
  | askSecretTwice q =>
    (Install.askSecretTwice nonInteractive q fuel s).map fun r => (r.1.map Answer.text, r.2)

/-- What the caller may be given: the text is not empty unless it may be, and the validator accepts it. -/
def Satisfies : Call → Answer → Prop
  | ask q, .text a | askSecretTwice q, .text a => (a ≠ "" ∨ q.allowEmpty = true) ∧ q.refusal a = none
  | askInt q, .number n => ∃ a, a ≠ "" ∧ atoi a = some n ∧ q.refusal a = none
  | askBool _ _, .truth b => ∃ a, a ≠ "" ∧ parseBoolWord a = some b
  | _, _ => False

/-- The call returns after finitely many rounds, with an answer that satisfies it or with an error. -/
def Ends (c : Call) (nonInteractive : Bool) (s : Text) : Prop :=
  ∃ fuel r rest, c.run nonInteractive fuel s = some (r, rest) ∧ ∀ a, r = .ok a → c.Satisfies a

/-- When it does, from the answers that are left in the input -/
def Answerable (nonInteractive : Bool) (answers : List String) : Call → Prop
  | ask q => nonInteractive = true ∨ q.secret = false ∨
      (∃ answer ∈ answers, q.accepts (q.settle answer) = true) ∨ q.accepts q.default = true
  | askInt _ | askBool _ _ => True
  | askSecretTwice q => nonInteractive = true ∨ q.repeated answers = true

end Call

theorem accepts_iff {q : Question} {answer : String} :
    q.accepts answer = true ↔ (answer ≠ "" ∨ q.allowEmpty = true) ∧ q.refusal answer = none := by
  simp [Question.accepts]

section Ends

variable {q : Question} {s : Text} {nonInteractive : Bool}

theorem ask_returns_iff : (∃ fuel r, ask nonInteractive q fuel s = some r) ↔
    nonInteractive = true ∨ q.secret = false ∨
      (∃ answer ∈ entries s, q.accepts (q.settle answer) = true) ∨ q.accepts q.default = true := by
  cases nonInteractive with
  | true => exact iff_of_true ⟨0, _, rfl⟩ (.inl rfl)
  | false =>
    cases hsecret : q.secret with
    | false => exact iff_of_true ⟨_, ask_ends hsecret s⟩ (.inr (.inl rfl))
    | true =>
      rw [← search_isSome_iff]
      simp only [Bool.false_eq_true, Bool.true_eq_false, false_or]
      constructor
      · rintro ⟨fuel, ⟨r, rest⟩, hask⟩
        obtain ⟨answer, -, hsearch⟩ := search_of_ask hsecret hask
        rw [hsearch]
        rfl
      · intro hsome
        obtain ⟨⟨answer, rest⟩, hsearch⟩ := Option.isSome_iff_exists.mp hsome
        obtain ⟨s', -, hask⟩ := ask_found hsecret hsearch
        exact ⟨_, _, hask _ (Nat.le_refl _)⟩

theorem twice_returns_iff : (∃ fuel r, askSecretTwice nonInteractive q fuel s = some r) ↔
    nonInteractive = true ∨ q.repeated (entries s) = true := by
  cases nonInteractive with
  | true => exact iff_of_true ⟨0, _, rfl⟩ (.inl rfl)
  | false =>
    simp only [Bool.false_eq_true, false_or]
    constructor
    · rintro ⟨fuel, r, htwice⟩
      by_contra hrepeated
      rw [twice_never (Bool.eq_false_of_not_eq_true hrepeated)] at htwice
      cases htwice
    · intro hrepeated
      obtain ⟨r, hr⟩ := twice_ends ((entries s).length + 1) (Nat.lt_succ_self _) (Nat.le_refl _) hrepeated
      refine ⟨(entries s).length + 1, r, ?_⟩
      unfold askSecretTwice
      rw [if_neg Bool.false_ne_true]
      exact hr

theorem numeric_refusal {answer : String} {n : Int} (hn : atoi answer = some n) :
    q.numeric.refusal answer = q.refusal answer := by
  have hvalidate : q.numeric.refusal answer =
      match atoi answer with
      | none => some (answer.quote ++ " is not a whole number")
      | some _ => q.refusal answer := rfl
  rw [hvalidate, hn]

theorem numeric_accepts {answer : String} {n : Int} (h : q.numeric.accepts answer = true) (hn : atoi answer = some n) :
    answer ≠ "" ∧ q.refusal answer = none := by
  obtain ⟨hempty, hrefusal⟩ := accepts_iff.mp h
  rw [numeric_refusal hn] at hrefusal
  exact ⟨hempty.resolve_right (by simp [Question.numeric]), hrefusal⟩

theorem bool_accepts {prompt answer : String} {default : Bool}
    (h : (boolQuestion prompt default).accepts answer = true) :
    answer ≠ "" ∧ (parseBoolWord answer).isSome = true := by
  obtain ⟨hempty, hrefusal⟩ := accepts_iff.mp h
  refine ⟨hempty.resolve_right (by simp [boolQuestion]), ?_⟩
  cases hparse : parseBoolWord answer with
  | some b => rfl
  | none => simp [Question.refusal, boolQuestion, hparse] at hrefusal

theorem eq_some_ok_of_map {α β : Type} {f : α → β} {asked : Option (Except AskError α × Text)} {b : β} {rest : Text}
    (h : asked.map (fun r => (r.1.map f, r.2)) = some (.ok b, rest)) :
    ∃ a, asked = some (.ok a, rest) ∧ f a = b := by
  obtain ⟨⟨r, rest'⟩, hasked, heq⟩ := Option.map_eq_some_iff.mp h
  cases r with
  | error e => cases heq
  | ok a =>
    cases heq
    exact ⟨a, hasked, rfl⟩

theorem askInt_eq_ok {nonInteractive : Bool} {q : Question} {fuel : Nat} {rest : Text} {n : Int}
    (h : askInt nonInteractive q fuel s = some (.ok n, rest)) :
    ∃ answer, ask nonInteractive q.numeric fuel s = some (.ok answer, rest) ∧ atoi answer = some n := by
  obtain ⟨⟨r, rest'⟩, hask, heq⟩ := Option.map_eq_some_iff.mp h
  cases r with
  | error e => cases heq
  | ok answer =>
    cases hn : atoi answer with
    | none =>
      simp only [Except.bind, hn] at heq
      cases heq
    | some n' =>
      simp only [Except.bind, hn] at heq
      cases heq
      exact ⟨answer, hask, hn⟩

/-- **What is returned satisfies the call.** -/
theorem run_satisfies {c : Call} {fuel : Nat} {rest : Text} {a : Answer}
    (h : c.run nonInteractive fuel s = some (.ok a, rest)) : c.Satisfies a := by
  cases c with
  | ask q =>
    obtain ⟨answer, hask, rfl⟩ := eq_some_ok_of_map h
    exact accepts_iff.mp (ask_accepts hask)
  | askSecretTwice q =>
    obtain ⟨answer, htwice, rfl⟩ := eq_some_ok_of_map h
    exact accepts_iff.mp (twice_accepts htwice)
  | askInt q =>
    obtain ⟨n, hint, rfl⟩ := eq_some_ok_of_map h
    obtain ⟨answer, hask, hn⟩ := askInt_eq_ok hint
    obtain ⟨hempty, hrefusal⟩ := numeric_accepts (ask_accepts hask) hn
    exact ⟨answer, hempty, hn, hrefusal⟩
  | askBool prompt default =>
    obtain ⟨truth, hbool, rfl⟩ := eq_some_ok_of_map h
    obtain ⟨answer, hask, rfl⟩ := eq_some_ok_of_map hbool
    obtain ⟨hempty, hparse⟩ := bool_accepts (ask_accepts hask)
    obtain ⟨b, hb⟩ := Option.isSome_iff_exists.mp hparse
    refine ⟨answer, hempty, ?_⟩
    rw [hb]
    rfl

theorem exists_map_iff {α β : Type} {o : Option α} (f : α → β) :
    (∃ r, o.map f = some r) ↔ ∃ r, o = some r := by
  cases o <;> simp

/-- A call returns when the question that it asks does. -/
theorem run_returns_iff (c : Call) (nonInteractive : Bool) (s : Text) :
    (∃ fuel r, c.run nonInteractive fuel s = some r) ↔ c.Answerable nonInteractive (entries s) := by
  have hplain {q : Question} (hq : q.secret = false) : ∃ fuel r, ask nonInteractive q fuel s = some r :=
    ask_returns_iff.mpr (.inr (.inl hq))
  cases c with
  | ask q =>
    exact Iff.trans (exists_congr fun fuel => exists_map_iff _) ask_returns_iff
  | askSecretTwice q =>
    exact Iff.trans (exists_congr fun fuel => exists_map_iff _) twice_returns_iff
  | askInt q =>
    obtain ⟨fuel, r, hask⟩ := hplain (q := q.numeric) rfl
    exact iff_of_true ⟨fuel, (exists_map_iff _).mpr ((exists_map_iff _).mpr ⟨r, hask⟩)⟩ trivial
  | askBool prompt default =>
    obtain ⟨fuel, r, hask⟩ := hplain (q := boolQuestion prompt default) rfl
    exact iff_of_true ⟨fuel, (exists_map_iff _).mpr ((exists_map_iff _).mpr ⟨r, hask⟩)⟩ trivial

end Ends

/-- **A question comes to an end exactly when it is no secret, or the secret is still to be found in the input,
or the empty answer will do.** -/
theorem ends_iff (c : Call) (nonInteractive : Bool) (s : Text) :
    c.Ends nonInteractive s ↔ c.Answerable nonInteractive (entries s) := by
  rw [← run_returns_iff]
  constructor
  · rintro ⟨fuel, r, rest, hrun, -⟩
    exact ⟨fuel, _, hrun⟩
  · rintro ⟨fuel, ⟨r, rest⟩, hrun⟩
    refine ⟨fuel, r, rest, hrun, ?_⟩
    rintro a rfl
    exact run_satisfies hrun

/-- The password of the account that the server runs as, as `install` asks for it -/
def runtimePassword : Question :=
  { prompt := "Password for doenerstag", default := "", flag := "", env := "DOENER_DATABASE_PASSWORD"
    validate := none, secret := false, allowEmpty := false }

/-- The input has ended: the password is asked for without end. -/
theorem runtimePassword_never :
    (∀ fuel, (Call.askSecretTwice runtimePassword).run false fuel [] = none) ∧
      ¬ (Call.askSecretTwice runtimePassword).Ends false [] := by
  have hnever : ∀ fuel, (Call.askSecretTwice runtimePassword).run false fuel [] = none := by
    intro fuel
    show (askSecretTwice false runtimePassword fuel []).map _ = none
    rw [twice_never (q := runtimePassword) (s := []) rfl]
    rfl
  refine ⟨hnever, ?_⟩
  rintro ⟨fuel, r, rest, hrun, -⟩
  rw [hnever] at hrun
  cases hrun

end Doenerstag.Install
