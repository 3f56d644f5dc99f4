import Doenerstag.Auth.Complexity
import Doenerstag.Go.Strings
import Doenerstag.Lib.Base64

/-!
# Stored password hashes (`internal/auth/password.go`)

A hash is stored as a PHC string, which has the parameters it was made with. They are scanned from it, and
Argon2 is asked for a key with them. It panics when it is asked for no pass, no lane or no byte.

* `scanUint_eq_some_iff`, `scanInt_eq_some_iff` — what `%d` reads.
* `Written`, `parsePHC_ok_iff` — **the texts that `parsePHC` accepts.**
* `verify_answers_iff` — **`Verify` answers every password, and what `parsePHC` accepts is in the domain of
  Argon2, if and only if the text is not a well-formed one with no pass, no lane or a key of no length.**
* `verify_hashWith` — a hash that is made is read back with its parameters.
-/

namespace Doenerstag

namespace Auth

/-! ## `fmt.Sscanf` -/

/-- `SkipSpace` stops at a line break, which is an error in front of a number. -/
def skipped (c : Char) : Bool := isSpace c && c != '\n'

/-- What the format has between two verbs -/
def scanLiteral (literal s : Text) : Option Text :=
  if literal.isPrefixOf s then some (s.drop literal.length) else none

/-- `scanUint`: the number and what is left. -/
def scanUint (bits : Nat) (s : Text) : Option (Nat × Text) :=
  let token := s.dropWhile skipped
  (parseNatural (token.takeWhile Char.isDigit)).bind fun n =>
    if n < 2 ^ bits then some (n, token.dropWhile Char.isDigit) else none

/-- `accept(sign)` -/
def acceptSign (s : Text) : Text × Text :=
  match s with
  | '+' :: rest => (['+'], rest)
  | '-' :: rest => (['-'], rest)
  | rest => ([], rest)

/-- `scanInt` -/
def scanInt (s : Text) : Option (Int × Text) :=
  let (sign, token) := acceptSign (s.dropWhile skipped)
  (parseInt64 (sign ++ token.takeWhile Char.isDigit)).map fun n => (n, token.dropWhile Char.isDigit)

/-- `Sscanf(_, "v=%d", &version)`. What is behind the last number is not looked at. -/
def scanVersion (s : Text) : Option Int := do
  let s ← scanLiteral "v=".toList s
  let (version, _) ← scanInt s
  pure version

/-- `Sscanf(_, "m=%d,t=%d,p=%d", &p.Memory, &p.Iterations, &p.Parallelism)` -/
def scanCosts (s : Text) : Option (UInt32 × UInt32 × UInt8) := do
  let s ← scanLiteral "m=".toList s
  let (memory, s) ← scanUint 32 s
  let s ← scanLiteral ",t=".toList s
  let (iterations, s) ← scanUint 32 s
  let s ← scanLiteral ",p=".toList s
  let (parallelism, _) ← scanUint 8 s
  pure (.ofNat memory, .ofNat iterations, .ofNat parallelism)

/-- A number as `%d` reads it: white space, its token and what starts with no digit. -/
inductive Numeral {α : Type} (Token : Text → α → Prop) : Text → α → Text → Prop where
  | mk {spaces token rest : Text} {n : α} (hspaces : ∀ c ∈ spaces, skipped c = true)
      (htoken : Token token n) (hends : ∀ c, rest.head? = some c → c.isDigit = false) :
      Numeral Token (spaces ++ (token ++ rest)) n rest

/-- Digits of a number below `2 ^ bits` -/
def UintToken (bits : Nat) (token : Text) (n : Nat) : Prop :=
  parseNatural token = some n ∧ n < 2 ^ bits

/-- Digits, behind a sign or not, of an `int` -/
def IntToken (token : Text) (n : Int) : Prop :=
  (∃ sign digits, token = sign ++ digits ∧ sign ∈ [[], ['+'], ['-']] ∧ digits ≠ [] ∧
    ∀ c ∈ digits, c.isDigit = true) ∧
  parseInt64 token = some n

theorem scanLiteral_eq_some_iff {literal s rest : Text} :
    scanLiteral literal s = some rest ↔ s = literal ++ rest := by
  unfold scanLiteral
  constructor
  · intro h
    split_ifs at h with hprefix
    obtain ⟨after, rfl⟩ := List.isPrefixOf_iff_prefix.mp hprefix
    rw [List.drop_left, Option.some.injEq] at h
    rw [h]
  · rintro rfl
    rw [if_pos (List.isPrefixOf_iff_prefix.mpr (List.prefix_append _ _)), List.drop_left]

theorem skipped_of_isDigit {c : Char} (h : c.isDigit = true) : skipped c = false := by
  rw [skipped, isSpace_of_isDigit h, Bool.false_and]

/-- What was skipped has the first character that is not in front. -/
theorem dropWhile_skipped {spaces rest : Text} (hspaces : ∀ c ∈ spaces, skipped c = true)
    (hrest : ∀ c, rest.head? = some c → skipped c = false) : (spaces ++ rest).dropWhile skipped = rest := by
  rw [List.dropWhile_append_of_pos hspaces]
  cases rest with
  | nil => rfl
  | cons c rest => exact List.dropWhile_cons_of_neg (by rw [hrest c rfl]; decide)

theorem digits_of_parseNatural {token : Text} {n : Nat} (h : parseNatural token = some n) :
    token ≠ [] ∧ ∀ c ∈ token, c.isDigit = true := by
  unfold parseNatural at h
  split_ifs at h with hall
  exact ⟨hall.1, List.all_eq_true.mp hall.2⟩

/-- Digits and what starts with none are told apart. -/
theorem digits_apart {digits rest : Text} (hdigits : ∀ c ∈ digits, c.isDigit = true)
    (hends : ∀ c, rest.head? = some c → c.isDigit = false) :
    (digits ++ rest).takeWhile Char.isDigit = digits ∧ (digits ++ rest).dropWhile Char.isDigit = rest := by
  rw [List.takeWhile_append_of_pos hdigits, List.dropWhile_append_of_pos hdigits]
  cases rest with
  | nil => exact ⟨List.append_nil _, rfl⟩
  | cons c rest =>
    have hc : ¬ c.isDigit = true := by rw [hends c rfl]; decide
    exact ⟨by rw [List.takeWhile_cons_of_neg hc, List.append_nil], List.dropWhile_cons_of_neg hc⟩

theorem head_dropWhile_isDigit {s : Text} {c : Char} (h : (s.dropWhile Char.isDigit).head? = some c) :
    c.isDigit = false := by
  have hnot := List.head?_dropWhile_not Char.isDigit s
  rw [h] at hnot
  exact hnot

theorem takeWhile_skipped (s : Text) : ∀ c ∈ s.takeWhile skipped, skipped c = true :=
  List.all_eq_true.mp List.all_takeWhile

/-- What `%d` reads into a number without a sign. -/
theorem scanUint_eq_some_iff {bits n : Nat} {s rest : Text} :
    scanUint bits s = some (n, rest) ↔ Numeral (UintToken bits) s n rest := by
  constructor
  · intro h
    obtain ⟨value, hvalue, hbound⟩ := Option.bind_eq_some_iff.mp h
    split_ifs at hbound with hlt
    cases hbound
    have htoken : Numeral (UintToken bits) (s.takeWhile skipped ++
        ((s.dropWhile skipped).takeWhile Char.isDigit ++ (s.dropWhile skipped).dropWhile Char.isDigit))
        n ((s.dropWhile skipped).dropWhile Char.isDigit) :=
      .mk (takeWhile_skipped s) ⟨hvalue, hlt⟩ fun c => head_dropWhile_isDigit
    rwa [List.takeWhile_append_dropWhile, List.takeWhile_append_dropWhile] at htoken
  · rintro (@⟨spaces, token, _, _, hspaces, ⟨hvalue, hlt⟩, hends⟩)
    obtain ⟨hne, hdigits⟩ := digits_of_parseNatural hvalue
    have hfirst : ∀ c, (token ++ rest).head? = some c → skipped c = false := by
      intro c hc
      rw [List.head?_append_of_ne_nil _ hne] at hc
      exact skipped_of_isDigit (hdigits c (List.mem_of_mem_head? hc))
    obtain ⟨htake, hdrop⟩ := digits_apart hdigits hends
    unfold scanUint
    dsimp only
    rw [dropWhile_skipped hspaces hfirst, htake, hdrop, hvalue, Option.bind_some, if_pos hlt]

theorem acceptSign_append (s : Text) :
    (acceptSign s).1 ++ (acceptSign s).2 = s ∧ (acceptSign s).1 ∈ [[], ['+'], ['-']] := by
  unfold acceptSign
  split <;> exact ⟨rfl, by simp⟩

/-- A sign in front of a digit is taken off. -/
theorem acceptSign_digits {sign digits : Text} (hsign : sign ∈ [[], ['+'], ['-']]) (hne : digits ≠ [])
    (hdigits : ∀ c ∈ digits, c.isDigit = true) (rest : Text) :
    acceptSign (sign ++ (digits ++ rest)) = (sign, digits ++ rest) := by
  simp only [List.mem_cons, List.not_mem_nil, or_false] at hsign
  rcases hsign with rfl | rfl | rfl
  · cases digits with
    | nil => exact absurd rfl hne
    | cons c more =>
      have hc := hdigits c List.mem_cons_self
      rw [List.nil_append, List.cons_append]
      unfold acceptSign
      split
      · rename_i heq
        rw [(List.cons.inj heq).1] at hc
        exact absurd hc (by decide)
      · rename_i heq
        rw [(List.cons.inj heq).1] at hc
        exact absurd hc (by decide)
      · rfl
  · rfl
  · rfl

theorem digits_of_parseInt64 {sign digits : Text} {n : Int} (hsign : sign ∈ [[], ['+'], ['-']])
    (h : parseInt64 (sign ++ digits) = some n) : digits ≠ [] := by
  rintro rfl
  simp only [List.mem_cons, List.not_mem_nil, or_false] at hsign
  rcases hsign with rfl | rfl | rfl <;> cases h

/-- What `%d` reads into an `int`. -/
theorem scanInt_eq_some_iff {n : Int} {s rest : Text} :
    scanInt s = some (n, rest) ↔ Numeral IntToken s n rest := by
  constructor
  · intro h
    obtain ⟨value, hvalue, hpair⟩ := Option.map_eq_some_iff.mp h
    cases hpair
    obtain ⟨hparts, hsign⟩ := acceptSign_append (s.dropWhile skipped)
    have htoken : Numeral IntToken (s.takeWhile skipped ++
        (((acceptSign (s.dropWhile skipped)).1 ++
            (acceptSign (s.dropWhile skipped)).2.takeWhile Char.isDigit) ++
          (acceptSign (s.dropWhile skipped)).2.dropWhile Char.isDigit))
        n ((acceptSign (s.dropWhile skipped)).2.dropWhile Char.isDigit) :=
      .mk (takeWhile_skipped s)
        ⟨⟨_, _, rfl, hsign, digits_of_parseInt64 hsign hvalue,
          List.all_eq_true.mp List.all_takeWhile⟩, hvalue⟩
        fun c => head_dropWhile_isDigit
    rwa [List.append_assoc, List.takeWhile_append_dropWhile, hparts,
      List.takeWhile_append_dropWhile] at htoken
  · rintro ⟨hspaces, ⟨⟨sign, digits, rfl, hsign, hne, hdigits⟩, hvalue⟩, hends⟩
    have hfirst : ∀ c, ((sign ++ digits) ++ rest).head? = some c → skipped c = false := by
      intro c hc
      simp only [List.mem_cons, List.not_mem_nil, or_false] at hsign
      rcases hsign with rfl | rfl | rfl
      · rw [List.nil_append, List.head?_append_of_ne_nil _ hne] at hc
        exact skipped_of_isDigit (hdigits c (List.mem_of_mem_head? hc))
      · cases hc
        decide
      · cases hc
        decide
    obtain ⟨htake, hdrop⟩ := digits_apart hdigits hends
    unfold scanInt
    rw [dropWhile_skipped hspaces hfirst, List.append_assoc, acceptSign_digits hsign hne hdigits]
    dsimp only
    rw [htake, hdrop, hvalue]
    rfl

/-! ## The hash -/

structure Params where
  memory : UInt32
  iterations : UInt32
  parallelism : UInt8
  keyLength : UInt32
  deriving DecidableEq, Repr

def currentParams : Params :=
  { memory := 64 * 1024, iterations := 3, parallelism := 2, keyLength := 32 }

def argonVersion : Int := 19

/-- What `Verify` returns for an error. -/
inductive VerifyError where
  | mismatch
  | malformedHash
  | unsupportedVersion (version : Int)
  deriving DecidableEq, Repr

def VerifyError.message : VerifyError → String
  | .mismatch => "password does not match"
  | .malformedHash => "malformed password hash"
  | .unsupportedVersion version =>
    "malformed password hash: unsupported Argon2 version " ++ toString version

def orMalformed {α : Type} : Option α → Except VerifyError α
  | some a => .ok a
  | none => .error .malformedHash

/-- What is done with the parts that `$` separates. -/
def parseParts (version costs salt key : Text) :
    Except VerifyError (Params × List Nat × List Nat) := do
  let version ← orMalformed (scanVersion version)
  if version ≠ argonVersion then throw (.unsupportedVersion version)
  let (memory, iterations, parallelism) ← orMalformed (scanCosts costs)
  let decodedSalt ← orMalformed (Base64.decodeStandard salt)
  let decodedKey ← orMalformed (Base64.decodeStandard key)
  if decodedSalt = [] ∨ decodedKey = [] then throw .malformedHash
  pure ({ memory, iterations, parallelism, keyLength := .ofNat decodedKey.length }, decodedSalt, decodedKey)

/-- `parsePHC` -/
def parsePHC (encoded : Text) : Except VerifyError (Params × List Nat × List Nat) :=
  match encoded.splitOn '$' with
  | [first, algorithm, version, costs, salt, key] =>
    if first ≠ [] ∨ algorithm ≠ "argon2id".toList then .error .malformedHash
    else parseParts version costs salt key
  | _ => .error .malformedHash

/-- The bytes of a text -/
def utf8 (s : Text) : List Nat := s.flatMap fun c => (String.utf8EncodeChar c).map UInt8.toNat

/-- `argon2.IDKey`: the key, unless it panics. -/
abbrev IDKey : Type :=
  (password salt : List Nat) → (time memory : UInt32) → (threads : UInt8) → (keyLen : UInt32) →
    Option (List Nat)

/-- `Verify`, unless it panics. -/
def verify (u : UnicodeTables) (idKey : IDKey) (password encoded : Text) :
    Option (Except VerifyError Unit) :=
  match parsePHC encoded with
  | .error e => some (.error e)
  | .ok (params, salt, want) =>
    (idKey (utf8 (u.nfc password)) salt params.iterations params.memory params.parallelism
      params.keyLength).map fun got => if got = want then .ok () else .error .mismatch

/-- `NeedsRehash`, which asks Argon2 for nothing. -/
def needsRehash (encoded : Text) : Bool :=
  match parsePHC encoded with
  | .error _ => true
  | .ok (params, _, _) =>
    params.memory < currentParams.memory || params.iterations < currentParams.iterations ||
      params.parallelism < currentParams.parallelism || params.keyLength < currentParams.keyLength

/-- `hashWith`, unless Argon2 panics. -/
def hashWith (u : UnicodeTables) (idKey : IDKey) (salt : List Nat) (password : Text) (p : Params) :
    Option Text :=
  (idKey (utf8 (u.nfc password)) salt p.iterations p.memory p.parallelism p.keyLength).map fun key =>
    "$argon2id$v=".toList ++ itoa argonVersion ++ "$m=".toList ++ itoa p.memory.toNat ++
      ",t=".toList ++ itoa p.iterations.toNat ++ ",p=".toList ++ itoa p.parallelism.toNat ++
      "$".toList ++ Base64.encodeStandard salt ++ "$".toList ++ Base64.encodeStandard key

/-! ## What is accepted -/

/-- The version of Argon2, and anything behind the number -/
def VersionText (s : Text) (version : Int) : Prop :=
  ∃ number rest, s = "v=".toList ++ number ∧ Numeral IntToken number version rest

/-- The costs, and anything behind the last number -/
def CostsText (s : Text) (memory iterations parallelism : Nat) : Prop :=
  ∃ first second third rest, s = "m=".toList ++ first ∧
    Numeral (UintToken 32) first memory (",t=".toList ++ second) ∧
    Numeral (UintToken 32) second iterations (",p=".toList ++ third) ∧
    Numeral (UintToken 8) third parallelism rest

/-- A well-formed hash, by what is written in it. -/
inductive Written : Text → (memory iterations parallelism : Nat) → (salt key : List Nat) → Prop where
  | mk {version costs saltText keyText : Text} {memory iterations parallelism : Nat} {salt key : List Nat}
      (hversion : VersionText version argonVersion)
      (hcosts : CostsText costs memory iterations parallelism)
      (hsalt : Base64.decodeStandard saltText = some salt ∧ salt ≠ [])
      (hkey : Base64.decodeStandard keyText = some key ∧ key ≠ [])
      (hparts : ∀ part ∈ [version, costs, saltText, keyText], '$' ∉ part) :
      Written (['$'].intercalate [[], "argon2id".toList, version, costs, saltText, keyText])
        memory iterations parallelism salt key

theorem scanVersion_eq_some_iff {s : Text} {version : Int} :
    scanVersion s = some version ↔ VersionText s version := by
  unfold scanVersion VersionText
  simp only [bind, Option.bind_eq_some_iff, pure, Option.some.injEq]
  constructor
  · rintro ⟨number, hnumber, ⟨n, rest⟩, hscan, rfl⟩
    exact ⟨number, rest, scanLiteral_eq_some_iff.mp hnumber, scanInt_eq_some_iff.mp hscan⟩
  · rintro ⟨number, rest, hnumber, hscan⟩
    exact ⟨number, scanLiteral_eq_some_iff.mpr hnumber, (version, rest), scanInt_eq_some_iff.mpr hscan, rfl⟩

theorem scanCosts_eq_some_iff {s : Text} {costs : UInt32 × UInt32 × UInt8} :
    scanCosts s = some costs ↔ ∃ memory iterations parallelism,
      CostsText s memory iterations parallelism ∧
        costs = (.ofNat memory, .ofNat iterations, .ofNat parallelism) := by
  unfold scanCosts CostsText
  simp only [bind, Option.bind_eq_some_iff, pure, Option.some.injEq]
  constructor
  · rintro ⟨first, hfirst, ⟨memory, afterMemory⟩, hmemory, second, hsecond, ⟨iterations, afterIterations⟩,
      hiterations, third, hthird, ⟨parallelism, rest⟩, hparallelism, rfl⟩
    rw [scanLiteral_eq_some_iff] at hfirst hsecond hthird
    rw [scanUint_eq_some_iff] at hmemory hiterations hparallelism
    dsimp only at hsecond hthird
    subst hsecond hthird
    exact ⟨memory, iterations, parallelism, ⟨first, second, third, rest, hfirst, hmemory, hiterations,
      hparallelism⟩, rfl⟩
  · rintro ⟨memory, iterations, parallelism, ⟨first, second, third, rest, hfirst, hmemory, hiterations,
      hparallelism⟩, rfl⟩
    exact ⟨first, scanLiteral_eq_some_iff.mpr hfirst, (memory, _), scanUint_eq_some_iff.mpr hmemory,
      second, scanLiteral_eq_some_iff.mpr rfl, (iterations, _), scanUint_eq_some_iff.mpr hiterations,
      third, scanLiteral_eq_some_iff.mpr rfl, (parallelism, rest),
      scanUint_eq_some_iff.mpr hparallelism, rfl⟩

theorem orMalformed_bind_ok_iff {α β : Type} {x : Option α} {f : α → Except VerifyError β} {b : β} :
    (orMalformed x >>= f) = .ok b ↔ ∃ a, x = some a ∧ f a = .ok b := by
  cases x with
  | none => exact iff_of_false (fun h => nomatch h) (fun ⟨_, h, _⟩ => nomatch h)
  | some a => exact ⟨fun h => ⟨a, rfl, h⟩, fun ⟨_, ha, h⟩ => Option.some.inj ha ▸ h⟩

theorem parseParts_ok_iff {version costs saltText keyText : Text} {p : Params} {salt key : List Nat} :
    parseParts version costs saltText keyText = .ok (p, salt, key) ↔
      VersionText version argonVersion ∧
      (∃ memory iterations parallelism, CostsText costs memory iterations parallelism ∧
        p = ⟨.ofNat memory, .ofNat iterations, .ofNat parallelism, .ofNat key.length⟩) ∧
      (Base64.decodeStandard saltText = some salt ∧ salt ≠ []) ∧
      Base64.decodeStandard keyText = some key ∧ key ≠ [] := by
  unfold parseParts
  rw [orMalformed_bind_ok_iff]
  constructor
  · rintro ⟨n, hversion, h⟩
    by_cases hn : n ≠ argonVersion
    · rw [if_pos hn] at h
      cases h
    rw [if_neg hn] at h
    obtain ⟨⟨m, t, k⟩, hcosts, h⟩ := orMalformed_bind_ok_iff.mp h
    obtain ⟨decodedSalt, hsalt, h⟩ := orMalformed_bind_ok_iff.mp h
    obtain ⟨decodedKey, hkey, h⟩ := orMalformed_bind_ok_iff.mp h
    by_cases hempty : decodedSalt = [] ∨ decodedKey = []
    · rw [if_pos hempty] at h
      cases h
    rw [if_neg hempty] at h
    cases h
    obtain ⟨memory, iterations, parallelism, htext, heq⟩ := scanCosts_eq_some_iff.mp hcosts
    cases heq
    rw [not_not.mp hn] at hversion
    exact ⟨scanVersion_eq_some_iff.mp hversion, ⟨memory, iterations, parallelism, htext, rfl⟩,
      ⟨hsalt, fun h => hempty (.inl h)⟩, hkey, fun h => hempty (.inr h)⟩
  · rintro ⟨hversion, ⟨memory, iterations, parallelism, hcosts, rfl⟩, ⟨hsalt, hsome⟩, hkey, hlong⟩
    refine ⟨argonVersion, scanVersion_eq_some_iff.mpr hversion, ?_⟩
    rw [if_neg (not_not.mpr rfl)]
    refine orMalformed_bind_ok_iff.mpr
      ⟨_, scanCosts_eq_some_iff.mpr ⟨memory, iterations, parallelism, hcosts, rfl⟩, ?_⟩
    refine orMalformed_bind_ok_iff.mpr ⟨salt, hsalt, orMalformed_bind_ok_iff.mpr ⟨key, hkey, ?_⟩⟩
    rw [if_neg (not_or.mpr ⟨hsome, hlong⟩)]
    rfl

/-- **What `parsePHC` accepts** is a well-formed hash, with the parameters written in it. -/
theorem parsePHC_ok_iff {encoded : Text} {p : Params} {salt key : List Nat} :
    parsePHC encoded = .ok (p, salt, key) ↔ ∃ memory iterations parallelism,
      Written encoded memory iterations parallelism salt key ∧
        p = ⟨.ofNat memory, .ofNat iterations, .ofNat parallelism, .ofNat key.length⟩ := by
  unfold parsePHC
  constructor
  · intro h
    split at h
    · rename_i first algorithm version costs saltText keyText hsplit
      by_cases hhead : first ≠ [] ∨ algorithm ≠ "argon2id".toList
      · rw [if_pos hhead] at h
        cases h
      rw [if_neg hhead] at h
      obtain ⟨hfirst, halgorithm⟩ := not_or.mp hhead
      rw [not_not.mp hfirst, not_not.mp halgorithm] at hsplit
      obtain ⟨hversion, ⟨memory, iterations, parallelism, hcosts, hp⟩, hsalt, hkey⟩ :=
        parseParts_ok_iff.mp h
      obtain ⟨-, hparts, hencoded⟩ := splitOn_eq_iff.mp hsplit
      rw [← hencoded]
      exact ⟨memory, iterations, parallelism, .mk hversion hcosts hsalt hkey fun part hpart =>
        hparts part (List.mem_cons_of_mem _ (List.mem_cons_of_mem _ hpart)), hp⟩
    · cases h
  · rintro ⟨memory, iterations, parallelism, @⟨version, costs, saltText, keyText, _, _, _, _, _, hversion,
      hcosts, hsalt, hkey, hparts⟩, hp⟩
    have hsplit : (['$'].intercalate
        [[], "argon2id".toList, version, costs, saltText, keyText]).splitOn '$' =
          [[], "argon2id".toList, version, costs, saltText, keyText] :=
      splitOn_eq_iff.mpr ⟨List.cons_ne_nil _ _, List.forall_mem_cons.mpr ⟨List.not_mem_nil,
        List.forall_mem_cons.mpr ⟨by decide, hparts⟩⟩, rfl⟩
    rw [hsplit]
    exact parseParts_ok_iff.mpr ⟨hversion, ⟨memory, iterations, parallelism, hcosts, hp⟩, hsalt, hkey⟩

/-! ## What Argon2 is asked for -/

/-- Argon2 has a key for at least one pass, one lane and one byte. -/
def InDomain (time : UInt32) (threads : UInt8) (keyLen : UInt32) : Prop :=
  1 ≤ time ∧ 1 ≤ threads ∧ 1 ≤ keyLen

/-- It panics when it is asked for anything else. -/
def PanicsOutside (idKey : IDKey) : Prop :=
  ∀ password salt time memory threads keyLen,
    idKey password salt time memory threads keyLen = none ↔ ¬ InDomain time threads keyLen

/-- A well-formed hash of no pass, of no lane, or with a key whose length is no length in 32 bits. -/
def WrittenOutside (encoded : Text) : Prop :=
  ∃ memory iterations parallelism salt key,
    Written encoded memory iterations parallelism salt key ∧
      (iterations = 0 ∨ parallelism = 0 ∨ 2 ^ 32 ∣ key.length)

theorem Written.bounds {encoded : Text} {memory iterations parallelism : Nat} {salt key : List Nat}
    (h : Written encoded memory iterations parallelism salt key) :
    memory < 2 ^ 32 ∧ iterations < 2 ^ 32 ∧ parallelism < 2 ^ 8 := by
  obtain ⟨-, ⟨_, _, _, _, -, ⟨-, ⟨-, hmemory⟩, -⟩, hiterations, hparallelism⟩, -, -, -⟩ := h
  cases hiterations with
  | mk _ hiterations _ =>
    cases hparallelism with
    | mk _ hparallelism _ => exact ⟨hmemory, hiterations.2, hparallelism.2⟩

theorem one_le_ofNat32 (n : Nat) : 1 ≤ UInt32.ofNat n ↔ ¬ 2 ^ 32 ∣ n := by
  rw [UInt32.le_iff_toNat_le, UInt32.toNat_ofNat']
  show 1 ≤ n % 2 ^ 32 ↔ _
  rw [Nat.dvd_iff_mod_eq_zero]
  omega

theorem one_le_ofNat8 {n : Nat} (hn : n < 2 ^ 8) : 1 ≤ UInt8.ofNat n ↔ n ≠ 0 := by
  rw [UInt8.le_iff_toNat_le, UInt8.toNat_ofNat']
  show 1 ≤ n % 2 ^ 8 ↔ _
  omega

/-- What is accepted is in the domain, unless it is written outside. -/
theorem Written.inDomain_iff {encoded : Text} {memory iterations parallelism : Nat} {salt key : List Nat}
    (h : Written encoded memory iterations parallelism salt key) :
    InDomain (.ofNat iterations) (.ofNat parallelism) (.ofNat key.length) ↔
      ¬ (iterations = 0 ∨ parallelism = 0 ∨ 2 ^ 32 ∣ key.length) := by
  obtain ⟨-, hiterations, hparallelism⟩ := h.bounds
  unfold InDomain
  rw [one_le_ofNat32, one_le_ofNat32, one_le_ofNat8 hparallelism, not_or, not_or]
  refine and_congr ?_ Iff.rfl
  rw [Nat.dvd_iff_mod_eq_zero, Nat.mod_eq_of_lt hiterations]

/-- `Verify` panics on a hash that is written outside, whatever the password. -/
theorem verify_eq_none_iff (u : UnicodeTables) {idKey : IDKey} (hargon : PanicsOutside idKey)
    (password encoded : Text) : verify u idKey password encoded = none ↔ WrittenOutside encoded := by
  unfold verify
  cases hparsed : parsePHC encoded with
  | error e =>
    refine iff_of_false (Option.some_ne_none _) ?_
    rintro ⟨memory, iterations, parallelism, salt, key, hwritten, -⟩
    rw [parsePHC_ok_iff.mpr ⟨memory, iterations, parallelism, hwritten, rfl⟩] at hparsed
    cases hparsed
  | ok parsed =>
    obtain ⟨p, salt, want⟩ := parsed
    dsimp only
    rw [Option.map_eq_none_iff, hargon]
    constructor
    · intro houtside
      obtain ⟨memory, iterations, parallelism, hwritten, rfl⟩ := parsePHC_ok_iff.mp hparsed
      exact ⟨memory, iterations, parallelism, salt, want, hwritten,
        not_not.mp (mt hwritten.inDomain_iff.mpr houtside)⟩
    · rintro ⟨memory, iterations, parallelism, salt', key, hwritten, houtside⟩ hin
      have hsame := parsePHC_ok_iff.mpr ⟨memory, iterations, parallelism, hwritten, rfl⟩
      rw [hparsed] at hsame
      cases hsame
      exact hwritten.inDomain_iff.mp hin houtside

/-- **`Verify` answers for every password, and what `parsePHC` accepts is in the domain of Argon2, if and
only if** the hash is not written outside of it. -/
theorem verify_answers_iff (u : UnicodeTables) {idKey : IDKey} (hargon : PanicsOutside idKey)
    (encoded : Text) :
    ((∀ password, ∃ result, verify u idKey password encoded = some result) ∧
      ∀ p salt key, parsePHC encoded = .ok (p, salt, key) →
        InDomain p.iterations p.parallelism p.keyLength) ↔ ¬ WrittenOutside encoded := by
  constructor
  · rintro ⟨hanswers, -⟩ houtside
    obtain ⟨result, hresult⟩ := hanswers []
    rw [(verify_eq_none_iff u hargon [] encoded).mpr houtside] at hresult
    cases hresult
  · intro hinside
    refine ⟨fun password => ?_, fun p salt key hparsed => ?_⟩
    · exact Option.ne_none_iff_exists'.mp (mt (verify_eq_none_iff u hargon password encoded).mp hinside)
    · obtain ⟨memory, iterations, parallelism, hwritten, rfl⟩ := parsePHC_ok_iff.mp hparsed
      exact hwritten.inDomain_iff.mpr fun houtside =>
        hinside ⟨memory, iterations, parallelism, salt, key, hwritten, houtside⟩

instance (time : UInt32) (threads : UInt8) (keyLen : UInt32) : Decidable (InDomain time threads keyLen) :=
  inferInstanceAs (Decidable (_ ∧ _ ∧ _))

/-- A primitive with the domain of Argon2, whose keys are all zeros. -/
def zeroKey : IDKey := fun _ _ time _ threads keyLen =>
  if InDomain time threads keyLen then some (List.replicate keyLen.toNat 0) else none

theorem zeroKey_panics : PanicsOutside zeroKey := by
  intro password salt time memory threads keyLen
  unfold zeroKey
  by_cases hin : InDomain time threads keyLen
  · rw [if_pos hin]
    exact iff_of_false (Option.some_ne_none _) (not_not.mpr hin)
  · rw [if_neg hin]
    exact iff_of_true rfl hin

/-- The letters and the digits of ASCII, and no text that is not normal -/
def asciiTables : UnicodeTables where
  letter := fun r => (65 ≤ r && r ≤ 90) || (97 ≤ r && r ≤ 122)
  mark := fun _ => false
  number := fun r => 48 ≤ r && r ≤ 57
  punctuation := fun _ => false
  symbol := fun _ => false
  nfc := id
  nfc_nfc := fun _ => rfl

/-- The hash of the placeholder for deleted accounts is answered. -/
theorem verify_answers_unusable :
    (∀ password, ∃ result, verify asciiTables zeroKey password "*".toList = some result) ∧
      ∀ p salt key, parsePHC "*".toList = .ok (p, salt, key) →
        InDomain p.iterations p.parallelism p.keyLength := by
  refine (verify_answers_iff asciiTables zeroKey_panics "*".toList).mpr ?_
  rintro ⟨memory, iterations, parallelism, salt, key, hwritten, -⟩
  have hparsed := parsePHC_ok_iff.mpr ⟨memory, iterations, parallelism, hwritten, rfl⟩
  have hrefused : parsePHC "*".toList = .error .malformedHash := by decide
  rw [hrefused] at hparsed
  cases hparsed

/-- A hash of no pass is accepted, and every password makes `Verify` panic. -/
theorem verify_noPass :
    parsePHC "$argon2id$v=19$m=65536,t=0,p=2$AAAA$AAAA".toList =
      .ok (⟨65536, 0, 2, 3⟩, [0, 0, 0], [0, 0, 0]) ∧
    ¬ InDomain 0 2 3 ∧
    ∀ (u : UnicodeTables) (password : Text),
      verify u zeroKey password "$argon2id$v=19$m=65536,t=0,p=2$AAAA$AAAA".toList = none := by
  have hparsed : parsePHC "$argon2id$v=19$m=65536,t=0,p=2$AAAA$AAAA".toList =
      .ok (⟨65536, 0, 2, 3⟩, [0, 0, 0], [0, 0, 0]) := by decide +kernel
  refine ⟨hparsed, by decide, fun u password => ?_⟩
  unfold verify
  rw [hparsed]
  rfl

/-! ## Hashes that are made -/

theorem numeral_itoa {bits n : Nat} {rest : Text} (hn : n < 2 ^ bits)
    (hends : ∀ c, rest.head? = some c → c.isDigit = false) :
    Numeral (UintToken bits) (itoa n ++ rest) n rest := by
  have hspaces : ∀ c ∈ ([] : Text), skipped c = true := List.forall_mem_nil _
  exact .mk hspaces ⟨(congrArg parseNatural (itoa_natCast n)).trans (parseNatural_toDigits n), hn⟩ hends

/-- A key that Argon2 may derive: bytes, as many as it is asked for. -/
def IsKey (keyLen : UInt32) (key : List Nat) : Prop :=
  key ≠ [] ∧ (∀ b ∈ key, b < 256) ∧ UInt32.ofNat key.length = keyLen

section Made

variable {u : UnicodeTables} {idKey : IDKey} {salt key : List Nat} {password encoded : Text} {p : Params}

theorem not_mem_encodeStandard {bs : List Nat} (h : ∀ b ∈ bs, b < 256) :
    '$' ∉ Base64.encodeStandard bs := by
  have halphabet : '$' ∉ Base64.standardAlphabet := by decide
  exact fun hmem => halphabet (Base64.mem_encodeStandard h _ hmem)

theorem not_mem_itoa (n : Int) : '$' ∉ itoa n := by
  intro hmem
  rcases mem_itoa hmem with h | h <;> revert h <;> decide

/-- What is written for a key is well-formed. -/
theorem written_made (hsalt : salt ≠ [] ∧ ∀ b ∈ salt, b < 256) (hkey : key ≠ [] ∧ ∀ b ∈ key, b < 256) :
    Written ("$argon2id$v=".toList ++ itoa argonVersion ++ "$m=".toList ++ itoa p.memory.toNat ++
      ",t=".toList ++ itoa p.iterations.toNat ++ ",p=".toList ++ itoa p.parallelism.toNat ++
      "$".toList ++ Base64.encodeStandard salt ++ "$".toList ++ Base64.encodeStandard key)
      p.memory.toNat p.iterations.toNat p.parallelism.toNat salt key := by
  have hnumber : Numeral IntToken (itoa argonVersion) argonVersion [] := by
    have hspaces : ∀ c ∈ ([] : Text), skipped c = true := List.forall_mem_nil _
    have htoken : IntToken (itoa argonVersion) argonVersion :=
      ⟨⟨[], itoa argonVersion, rfl, by decide, by decide, by decide⟩, by decide⟩
    have hends : ∀ c, ([] : Text).head? = some c → c.isDigit = false := by
      intro c hc
      cases hc
    exact .mk hspaces htoken hends
  have hversion : VersionText ("v=".toList ++ itoa argonVersion) argonVersion :=
    ⟨itoa argonVersion, [], rfl, hnumber⟩
  have hcosts : CostsText ("m=".toList ++ (itoa p.memory.toNat ++ (",t=".toList ++
      (itoa p.iterations.toNat ++ (",p=".toList ++ (itoa p.parallelism.toNat ++ []))))))
      p.memory.toNat p.iterations.toNat p.parallelism.toNat :=
    ⟨_, _, _, _, rfl, numeral_itoa p.memory.toNat_lt (fun _ hc => by cases hc; rfl),
      numeral_itoa p.iterations.toNat_lt (fun _ hc => by cases hc; rfl),
      numeral_itoa p.parallelism.toNat_lt (fun _ hc => nomatch hc)⟩
  have hwritten := Written.mk hversion hcosts
    ⟨Base64.decodeStandard_encodeStandard hsalt.2, hsalt.1⟩
    ⟨Base64.decodeStandard_encodeStandard hkey.2, hkey.1⟩ ?_
  · have htext : "$argon2id$v=".toList = '$' :: ("argon2id".toList ++ '$' :: "v=".toList) := by decide
    have hcost : "$m=".toList = '$' :: "m=".toList := by decide
    have hdollar : "$".toList = ['$'] := by decide
    rw [htext, hcost, hdollar]
    simpa only [List.intercalate, List.intersperse, List.flatten_cons, List.flatten_nil, List.append_assoc,
      List.nil_append, List.cons_append, List.append_nil] using hwritten
  · have hletters : '$' ∉ "v=".toList ∧ '$' ∉ "m=".toList ∧ '$' ∉ ",t=".toList ∧ '$' ∉ ",p=".toList := by
      decide
    simp only [List.forall_mem_cons, List.mem_append, not_or, hletters, not_mem_itoa, List.not_mem_nil,
      not_false_eq_true, not_mem_encodeStandard hsalt.2, not_mem_encodeStandard hkey.2, and_self, false_imp_iff,
      implies_true]

/-- **A hash that is made is read back** with its parameters, its salt and its key. -/
theorem parsePHC_hashWith (hsalt : salt ≠ [] ∧ ∀ b ∈ salt, b < 256)
    (hkey : ∀ key, idKey (utf8 (u.nfc password)) salt p.iterations p.memory p.parallelism p.keyLength =
      some key → IsKey p.keyLength key)
    (hmade : hashWith u idKey salt password p = some encoded) :
    ∃ key, idKey (utf8 (u.nfc password)) salt p.iterations p.memory p.parallelism p.keyLength = some key ∧
      parsePHC encoded = .ok (p, salt, key) := by
  obtain ⟨key, hderived, rfl⟩ := Option.map_eq_some_iff.mp hmade
  obtain ⟨hne, hbytes, hlength⟩ := hkey key hderived
  refine ⟨key, hderived, parsePHC_ok_iff.mpr
    ⟨_, _, _, written_made (p := p) hsalt ⟨hne, hbytes⟩, ?_⟩⟩
  rw [UInt32.ofNat_toNat, UInt32.ofNat_toNat, UInt8.ofNat_toNat, hlength]

/-- **The password a hash was made of is accepted**, and with the current parameters it needs no new one. -/
theorem verify_hashWith (hsalt : salt ≠ [] ∧ ∀ b ∈ salt, b < 256)
    (hkey : ∀ key, idKey (utf8 (u.nfc password)) salt p.iterations p.memory p.parallelism p.keyLength =
      some key → IsKey p.keyLength key)
    (hmade : hashWith u idKey salt password p = some encoded) :
    verify u idKey password encoded = some (.ok ()) ∧ (p = currentParams → needsRehash encoded = false) := by
  obtain ⟨key, hderived, hparsed⟩ := parsePHC_hashWith hsalt hkey hmade
  constructor
  · unfold verify
    rw [hparsed]
    dsimp only
    rw [hderived, Option.map_some, if_pos rfl]
  · rintro rfl
    unfold needsRehash
    rw [hparsed]
    rfl

end Made

end Auth

end Doenerstag
