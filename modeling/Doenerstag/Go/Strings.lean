import Doenerstag.Go

/-!
# Texts, taken apart (`strings`, `strconv`)

A text is the list of its characters here.

* `trim_padded` — what white space is put around comes off again.
* `parseInt64_toString` — **an `int64` is read as it was written.**
-/

namespace Doenerstag

/-- A text, by its characters. -/
abbrev Text := List Char

/-! ## `strings` -/

/-- `strings.TrimSpace` -/
def trim (s : Text) : Text := ((s.dropWhile isSpace).reverse.dropWhile isSpace).reverse

/-- `strings.Cut` at one character. -/
def cut (sep : Char) (s : List Char) : Option (List Char × List Char) :=
  if sep ∈ s then some (s.takeWhile (· != sep), (s.dropWhile (· != sep)).tail) else none

theorem cut_append {sep : Char} {a : List Char} (ha : sep ∉ a) (b : List Char) :
    cut sep (a ++ sep :: b) = some (a, b) := by
  have hall : ∀ c ∈ a, (c != sep) = true := fun c hc => bne_iff_ne.mpr fun h => ha (h ▸ hc)
  have hmem : sep ∈ a ++ sep :: b := List.mem_append_right _ List.mem_cons_self
  rw [cut, if_pos hmem, List.takeWhile_append_of_pos hall, List.dropWhile_append_of_pos hall]
  simp

theorem cut_eq_some_iff {sep : Char} {s a b : List Char} :
    cut sep s = some (a, b) ↔ sep ∉ a ∧ s = a ++ sep :: b := by
  constructor
  · intro h
    unfold cut at h
    split_ifs at h with hmem
    cases h
    refine ⟨fun hsep => ?_, ?_⟩
    · have hbefore := List.all_eq_true.mp List.all_takeWhile sep hsep
      exact absurd hbefore (by simp)
    · -- what is dropped starts with the separator
      have hdrop : s.dropWhile (· != sep) = sep :: (s.dropWhile (· != sep)).tail := by
        induction s with
        | nil => cases hmem
        | cons c rest ih =>
          have hcons : (c :: rest).dropWhile (· != sep) =
              if (c != sep) = true then rest.dropWhile (· != sep) else c :: rest := List.dropWhile_cons
          by_cases hc : c = sep
          · rw [hcons, if_neg (by simp [hc]), hc, List.tail_cons]
          · rw [hcons, if_pos (bne_iff_ne.mpr hc)]
            exact ih ((List.mem_cons.mp hmem).resolve_left (Ne.symm hc))
      conv_lhs => rw [← List.takeWhile_append_dropWhile (p := (· != sep)) (l := s), hdrop]
  · rintro ⟨ha, rfl⟩
    exact cut_append ha b

/-- `strings.ReplaceAll`, where the next so many elements have been replaced already -/
def replaceFrom {α : Type} [DecidableEq α] (old new : List α) : Nat → List α → List α
  | _, [] => []
  | skip + 1, _ :: rest => replaceFrom old new skip rest
  | 0, c :: rest =>
    if old.isPrefixOf (c :: rest) then new ++ replaceFrom old new (old.length - 1) rest
    else c :: replaceFrom old new 0 rest

/-- `strings.ReplaceAll`, for an `old` that is not empty -/
def replaceAll {α : Type} [DecidableEq α] (s old new : List α) : List α := replaceFrom old new 0 s

theorem replaceAll_singleton {α : Type} [DecidableEq α] (s : List α) (a : α) (new : List α) :
    replaceAll s [a] new = s.flatMap fun c => if c = a then new else [c] := by
  unfold replaceAll
  induction s with
  | nil => rfl
  | cons c rest ih =>
    rw [replaceFrom, List.flatMap_cons, List.length_singleton, Nat.sub_self, ih]
    by_cases hc : c = a
    · simp [hc, List.isPrefixOf]
    · simp [hc, Ne.symm hc, List.isPrefixOf]

theorem replaceAll_pair {α : Type} [DecidableEq α] (a b : α) (new : List α) (c d : α) (rest : List α) :
    replaceAll (c :: d :: rest) [a, b] new =
      if c = a ∧ d = b then new ++ replaceAll rest [a, b] new else c :: replaceAll (d :: rest) [a, b] new := by
  unfold replaceAll
  rw [replaceFrom]
  by_cases hc : c = a <;> by_cases hd : d = b
  · simp [hc, hd, List.isPrefixOf, replaceFrom]
  · simp [hc, Ne.symm hd, hd, List.isPrefixOf]
  · simp [Ne.symm hc, hc, List.isPrefixOf]
  · simp [Ne.symm hc, hc, List.isPrefixOf]

/-- `strings.Split` at one character: the parts have none, and it is between them. -/
theorem splitOn_eq_iff {sep : Char} {s : Text} {parts : List Text} : s.splitOn sep = parts ↔
    parts ≠ [] ∧ (∀ part ∈ parts, sep ∉ part) ∧ [sep].intercalate parts = s := by
  constructor
  · rintro rfl
    refine ⟨List.splitOn_ne_nil _ _, ?_, List.intercalate_splitOn sep⟩
    induction s with
    | nil =>
      intro part hpart
      rw [List.splitOn_nil, List.mem_singleton] at hpart
      rw [hpart]
      exact List.not_mem_nil
    | cons c rest ih =>
      rw [List.splitOn_cons_eq_if_modifyHead]
      split_ifs with hc
      · exact List.forall_mem_cons.mpr ⟨List.not_mem_nil, ih⟩
      · cases hrest : rest.splitOn sep with
        | nil => exact absurd hrest (List.splitOn_ne_nil _ _)
        | cons first others =>
          rw [hrest] at ih
          obtain ⟨hfirst, hothers⟩ := List.forall_mem_cons.mp ih
          rw [List.modifyHead_cons]
          refine List.forall_mem_cons.mpr ⟨fun hmem => ?_, hothers⟩
          rcases List.mem_cons.mp hmem with rfl | hmem
          · exact hc (beq_self_eq_true _)
          · exact hfirst hmem
  · rintro ⟨hne, hparts, rfl⟩
    exact List.splitOn_intercalate sep hparts hne

/-- A text with no white space at its ends. -/
structure Solid (s : Text) : Prop where
  nonempty : s ≠ []
  first : ∀ c, s.head? = some c → isSpace c = false
  last : ∀ c, s.getLast? = some c → isSpace c = false

theorem dropWhile_space {before s : Text} (hbefore : ∀ c ∈ before, isSpace c = true)
    (hfirst : ∀ c, s.head? = some c → isSpace c = false) :
    (before ++ s).dropWhile isSpace = s := by
  rw [List.dropWhile_append_of_pos hbefore]
  cases s with
  | nil => rfl
  | cons c cs => exact List.dropWhile_cons_of_neg (by rw [hfirst c rfl]; decide)

/-- What white space is put around comes off again. -/
theorem trim_padded {before s after : Text} (hs : Solid s) (hbefore : ∀ c ∈ before, isSpace c = true)
    (hafter : ∀ c ∈ after, isSpace c = true) : trim (before ++ (s ++ after)) = s := by
  have hfirst : ∀ c, (s ++ after).head? = some c → isSpace c = false := by
    intro c hc
    rw [List.head?_append_of_ne_nil _ hs.nonempty] at hc
    exact hs.first c hc
  have hlast : ∀ c, s.reverse.head? = some c → isSpace c = false := by
    intro c hc
    rw [List.head?_reverse] at hc
    exact hs.last c hc
  have hafter : ∀ c ∈ after.reverse, isSpace c = true := fun c hc =>
    hafter c (List.mem_reverse.mp hc)
  unfold trim
  rw [dropWhile_space hbefore hfirst, List.reverse_append, dropWhile_space hafter hlast,
    List.reverse_reverse]

theorem solid_of_forall {s : Text} (hne : s ≠ []) (hs : ∀ c ∈ s, isSpace c = false) : Solid s where
  nonempty := hne
  first := fun c hc => hs c (List.mem_of_mem_head? hc)
  last := fun c hc => hs c (List.mem_of_mem_getLast? hc)

theorem Solid.trim {s : Text} (hs : Solid s) : trim s = s := by
  have h : Doenerstag.trim ([] ++ (s ++ [])) = s :=
    trim_padded hs (fun _ hc => nomatch hc) (fun _ hc => nomatch hc)
  rwa [List.nil_append, List.append_nil] at h

/-! ## `strconv` -/

/-- `strconv.Itoa` -/
def itoa (n : Int) : Text := (toString n).toList

/-- The number that decimal digits write. -/
def parseNatural (digits : List Char) : Option Nat :=
  if digits ≠ [] ∧ digits.all Char.isDigit then some (Nat.ofDigitChars 10 digits 0) else none

/-- `strconv.ParseInt(_, 10, 64)` -/
def parseInt64 (s : List Char) : Option Int :=
  match s with
  | '-' :: digits => (parseNatural digits).bind fun n => if n ≤ 2 ^ 63 then some (-n) else none
  | '+' :: digits => (parseNatural digits).bind fun n => if n < 2 ^ 63 then some (n : Int) else none
  | digits => (parseNatural digits).bind fun n => if n < 2 ^ 63 then some (n : Int) else none

theorem parseNatural_toDigits (n : Nat) : parseNatural (Nat.toDigits 10 n) = some n := by
  have hall : (Nat.toDigits 10 n).all Char.isDigit = true :=
    List.all_eq_true.mpr fun c hc => Nat.isDigit_of_mem_toDigits (by decide) (by decide) hc
  rw [parseNatural, if_pos ⟨Nat.toDigits_ne_nil, hall⟩, Nat.ofDigitChars_ten_toDigits]

/-- An `int64` is read as it was written. -/
theorem parseInt64_toString (n : Int64) : parseInt64 (toString n.toInt).toList = some n.toInt := by
  have hmin := Int64.le_toInt n
  have hmax := Int64.toInt_lt n
  cases hn : n.toInt with
  | ofNat m =>
    have hm : m < 2 ^ 63 := by
      rw [hn] at hmax
      exact Int.ofNat_lt.mp hmax
    have hdigits : (toString (Int.ofNat m)).toList = Nat.toDigits 10 m := Nat.toList_repr
    -- the first character is a digit, and so no sign
    have hplain : parseInt64 (Nat.toDigits 10 m) =
        (parseNatural (Nat.toDigits 10 m)).bind fun n => if n < 2 ^ 63 then some (n : Int) else none := by
      unfold parseInt64
      split
      · rename_i digits heq
        have hsign : ('-' : Char).isDigit = true :=
          Nat.isDigit_of_mem_toDigits (n := m) (by decide) (by decide) (heq ▸ List.mem_cons_self)
        cases hsign
      · rename_i digits heq
        have hsign : ('+' : Char).isDigit = true :=
          Nat.isDigit_of_mem_toDigits (n := m) (by decide) (by decide) (heq ▸ List.mem_cons_self)
        cases hsign
      · rfl
    rw [hdigits, hplain, parseNatural_toDigits, Option.bind_some, if_pos hm]
    rfl
  | negSucc m =>
    have hm : m + 1 ≤ 2 ^ 63 := by
      rw [hn] at hmin
      omega
    have hdigits : (toString (Int.negSucc m)).toList = '-' :: Nat.toDigits 10 (m + 1) := by
      show ("-" ++ (m + 1).repr).toList = _
      rw [String.toList_append, Nat.toList_repr]
      rfl
    rw [hdigits, parseInt64, parseNatural_toDigits, Option.bind_some, if_pos hm]
    rfl

theorem itoa_natCast (n : Nat) : itoa n = Nat.toDigits 10 n := Nat.toList_repr

theorem itoa_negSucc (n : Nat) : itoa (Int.negSucc n) = '-' :: Nat.toDigits 10 (n + 1) := by
  show ("-" ++ (n + 1).repr).toList = _
  rw [String.toList_append, Nat.toList_repr]
  rfl

theorem mem_toDigits {n : Nat} {c : Char} (hc : c ∈ Nat.toDigits 10 n) : c.isDigit = true :=
  Nat.isDigit_of_mem_toDigits (by decide) (by decide) hc

/-- A digit is between `0` and `9`. -/
theorem isDigit_range {c : Char} (h : c.isDigit = true) : 48 ≤ c.toNat ∧ c.toNat ≤ 57 := by
  simp only [Char.isDigit, Bool.and_eq_true, decide_eq_true_eq] at h
  exact ⟨h.1, h.2⟩

theorem isSpace_of_isDigit {c : Char} (h : c.isDigit = true) : isSpace c = false := by
  obtain ⟨hlow, hhigh⟩ := isDigit_range h
  unfold isSpace
  simp only [Bool.or_eq_false_iff, Bool.and_eq_false_iff, decide_eq_false_iff_not,
    beq_eq_false_iff_ne]
  omega

theorem mem_itoa {n : Int} {c : Char} (hc : c ∈ itoa n) : c = '-' ∨ c.isDigit = true := by
  cases n with
  | ofNat m => exact .inr (mem_toDigits ((itoa_natCast m).subst (motive := fun s => c ∈ s) hc))
  | negSucc m =>
    rw [itoa_negSucc] at hc
    exact (List.mem_cons.mp hc).imp_right mem_toDigits

theorem isSpace_itoa {n : Int} {c : Char} (hc : c ∈ itoa n) : isSpace c = false := by
  rcases mem_itoa hc with rfl | hdigit
  · decide
  · exact isSpace_of_isDigit hdigit

theorem itoa_ne_nil (n : Int) : itoa n ≠ [] := by
  cases n with
  | ofNat m => exact itoa_natCast m ▸ Nat.toDigits_ne_nil
  | negSucc m => exact itoa_negSucc m ▸ List.cons_ne_nil _ _

theorem itoa_solid (n : Int) : Solid (itoa n) := solid_of_forall (itoa_ne_nil n) fun _ => isSpace_itoa

theorem mem_intString {n : Int} : ∀ c ∈ (toString n).toList, c.toNat < 128 := by
  intro c hc
  rcases mem_itoa hc with rfl | hdigit
  · decide
  · exact Nat.lt_of_le_of_lt (isDigit_range hdigit).2 (by decide)

end Doenerstag
