import Doenerstag.Go
import Doenerstag.Lib.FreshNames

/-!
# The name of a copy (`internal/db/menucopy.go`)

* `copySuffix`, `copyCandidate` — a round of `CopyName`: the suffix, and the base cut to the room it leaves.
* `copyName` — the rounds.
* `copyCandidate_injective` — no two rounds come to the same name, whatever the base and the label.
* `copyName_usable` — **it finds a free name, of at most 200 characters, that says it is a copy.**
-/

namespace Doenerstag

open FreshNames

/-- `maxCopyNameLength` -/
def maxCopyNameLength : Nat := 200

/-- `" (" + label + ")"`, and from the second round on with its number -/
def copySuffix (label : String) (n : Nat) : String :=
  if 1 < n then " (" ++ label ++ " " ++ toString n ++ ")" else " (" ++ label ++ ")"

/-- The name of a round. Room below nothing makes the slice panic. -/
def copyCandidate (base label : String) (n : Nat) : Option String :=
  let suffix := copySuffix label n
  let room : Int := maxCopyNameLength - suffix.length
  if room < base.length then
    if room < 0 then none else some (trimSpace (String.ofList (base.toList.take room.toNat)) ++ suffix)
  else some (base ++ suffix)

/-- `CopyName`, for a number of rounds: the name, and the names that are taken then -/
def copyName (rt : Runtime) (base label : String) (taken : Finset String) (rounds : Nat) :
    Option (String × Finset String) :=
  (search (copyCandidate base label) rt.toLower taken rounds 1).map fun name =>
    (name, insert (rt.toLower name) taken)

/-- `unicode.ToLower` leaves what the suffix is made of as it is. -/
structure Runtime.KeepsSuffix (rt : Runtime) : Prop where
  space : rt.toLowerRune ' ' = ' '
  opening : rt.toLowerRune '(' = '('
  closing : rt.toLowerRune ')' = ')'
  digits : ∀ c : Char, c.isDigit = true → rt.toLowerRune c = c

theorem ascii_keepsSuffix : Runtime.ascii.KeepsSuffix where
  space := by decide
  opening := by decide
  closing := by decide
  digits := by
    intro c hc
    show c.toLower = c
    unfold Char.toLower
    simp only [Char.isDigit, Bool.and_eq_true, decide_eq_true_eq] at hc
    rw [dif_neg]
    intro hupper
    have hle : ('A' : Char).val ≤ '9'.val := UInt32.le_trans hupper.1 hc.2
    exact absurd hle (by decide)

section Rounds

variable {rt : Runtime} {base label name name' : String} {n m : Nat}

/-- What stands between the parentheses of the suffix -/
def copyWords (label : String) (n : Nat) : List Char :=
  label.toList ++ if 1 < n then ' ' :: Nat.toDigits 10 n else []

theorem toList_copySuffix (label : String) (n : Nat) :
    (copySuffix label n).toList = ' ' :: '(' :: (copyWords label n ++ [')']) := by
  unfold copySuffix copyWords
  split_ifs <;> simp

theorem copyCandidate_suffix (h : copyCandidate base label n = some name) :
    ∃ front, name = front ++ copySuffix label n := by
  unfold copyCandidate at h
  simp only at h
  split_ifs at h
  · exact ⟨_, (Option.some.inj h).symm⟩
  · exact ⟨_, (Option.some.inj h).symm⟩

/-- The number of a round is read off its words. -/
theorem copyWords_injective (hn : 1 ≤ n) (hm : 1 ≤ m) (h : copyWords label n = copyWords label m) : n = m := by
  unfold copyWords at h
  have hrest := List.append_cancel_left h
  split_ifs at hrest
  · have hdigits := (List.cons.inj hrest).2
    rw [← Nat.ofDigitChars_ten_toDigits (n := n), hdigits, Nat.ofDigitChars_ten_toDigits]
  · omega

/-- Lower-casing changes the label alone. -/
theorem map_copyWords (hlower : rt.KeepsSuffix) : (copyWords label n).map rt.toLowerRune =
    copyWords (rt.toLower label) n := by
  have hdigits : (Nat.toDigits 10 n).map rt.toLowerRune = Nat.toDigits 10 n := by
    refine (List.map_congr_left fun c hc => ?_).trans (List.map_id _)
    exact hlower.digits c (Nat.isDigit_of_mem_toDigits (by decide) (by decide) hc)
  unfold copyWords Runtime.toLower
  rw [List.map_append, String.toList_ofList]
  split_ifs with h
  · rw [List.map_cons, hlower.space, hdigits]
  · rfl

theorem count_copyWords (label : String) (n : Nat) :
    (copyWords label n).count '(' = label.toList.count '(' := by
  have hdigits : (Nat.toDigits 10 n).count '(' = 0 := by
    rw [List.count_eq_zero]
    intro hmem
    have hdigit : ('(' : Char).isDigit = true := Nat.isDigit_of_mem_toDigits (by decide) (by decide) hmem
    cases hdigit
  unfold copyWords
  rw [List.count_append]
  split_ifs
  · rw [List.count_cons_of_ne (by decide), hdigits, Nat.add_zero]
  · rfl

/-- **No two rounds come to the same name**, however the base was cut. -/
theorem copyCandidate_injective (hlower : rt.KeepsSuffix) (hn : 1 ≤ n) (hm : 1 ≤ m)
    (hname : copyCandidate base label n = some name) (hname' : copyCandidate base label m = some name')
    (h : rt.toLower name = rt.toLower name') : n = m := by
  obtain ⟨front, rfl⟩ := copyCandidate_suffix hname
  obtain ⟨front', rfl⟩ := copyCandidate_suffix hname'
  -- the words of the suffix, between the same parentheses on both sides
  have hkey : ∀ (front : String) (n : Nat), (rt.toLower (front ++ copySuffix label n)).toList =
      (front.toList.map rt.toLowerRune ++ [' ']) ++ '(' :: (copyWords (rt.toLower label) n ++ [')']) := by
    intro front n
    rw [Runtime.toLower, String.toList_ofList, String.toList_append, List.map_append, toList_copySuffix,
      List.map_cons, List.map_cons, List.map_append, map_copyWords hlower, hlower.space, hlower.opening]
    simp [hlower.closing]
  have hlists := congrArg String.toList h
  rw [hkey, hkey] at hlists
  have hwords := eq_of_count_eq hlists (by rw [List.count_append, List.count_append, count_copyWords, count_copyWords])
  exact copyWords_injective hn hm (List.append_cancel_right hwords)

/-- The suffix of a round among the first `2 ^ 31` is short. -/
theorem length_copySuffix_le (hn : n ≤ 2 ^ 31) : (copySuffix label n).length ≤ label.length + 14 := by
  have hdigits : (Nat.toDigits 10 n).length ≤ 10 :=
    (Nat.length_toDigits_le_iff (by decide) (by decide)).mpr (by omega)
  rw [← String.length_toList, toList_copySuffix, ← String.length_toList]
  unfold copyWords
  split_ifs
  · simp only [List.length_cons, List.length_append, List.length_nil]
    omega
  · simp

theorem length_trimSpace_le (s : String) : (trimSpace s).length ≤ s.length := by
  rw [← String.length_toList, ← String.length_toList]
  unfold trimSpace
  rw [String.toList_ofList, List.length_reverse]
  calc ((s.toList.dropWhile isSpace).reverse.dropWhile isSpace).length
      ≤ (s.toList.dropWhile isSpace).reverse.length := (List.dropWhile_suffix _).length_le
    _ = (s.toList.dropWhile isSpace).length := List.length_reverse
    _ ≤ s.toList.length := (List.dropWhile_suffix _).length_le

/-- With a suffix that leaves room, every round has a name, and it is not too long. -/
theorem copyCandidate_length (h : (copySuffix label n).length ≤ maxCopyNameLength) :
    ∃ name, copyCandidate base label n = some name ∧ name.length ≤ maxCopyNameLength := by
  unfold copyCandidate
  simp only
  split_ifs with hlong hroom
  · omega
  · refine ⟨_, rfl, ?_⟩
    have htrim := length_trimSpace_le
      (String.ofList (base.toList.take ((maxCopyNameLength : Int) - (copySuffix label n).length).toNat))
    rw [String.length_ofList, List.length_take] at htrim
    rw [String.length_append]
    omega
  · refine ⟨_, rfl, ?_⟩
    rw [String.length_append]
    omega

end Rounds

/-- `CopyName` ends with the name of a round that is free. -/
theorem copyName_round (rt : Runtime) (hlower : rt.KeepsSuffix) (base label : String) (taken : Finset String)
    (hlabel : label.length ≤ 32) (htaken : taken.card < 2 ^ 31) :
    ∃ name n, 1 ≤ n ∧ copyCandidate base label n = some name ∧ name.length ≤ 200 ∧ rt.toLower name ∉ taken ∧
      ∀ rounds, taken.card < rounds →
        copyName rt base label taken rounds = some (name, insert (rt.toLower name) taken) := by
  have hround : ∀ j ≤ taken.card, ∃ name, copyCandidate base label (1 + j) = some name ∧ name.length ≤ 200 := by
    intro j hj
    have hsuffix : (copySuffix label (1 + j)).length ≤ label.length + 14 := length_copySuffix_le (by omega)
    refine copyCandidate_length ?_
    show _ ≤ 200
    omega
  have hdistinct : ∀ i ≤ taken.card, ∀ j ≤ taken.card, ∀ a b, copyCandidate base label (1 + i) = some a →
      copyCandidate base label (1 + j) = some b → rt.toLower a = rt.toLower b → i = j := by
    intro i _ j _ a b ha hb hab
    have hsame := copyCandidate_injective hlower (Nat.le_add_right 1 i) (Nat.le_add_right 1 j) ha hb hab
    omega
  obtain ⟨j, hj, name, hname, hfree, hsearch⟩ :=
    search_isSome (fun j hj => (hround j hj).imp fun _ h => h.1) hdistinct
  refine ⟨name, 1 + j, Nat.le_add_right 1 j, hname, ?_, hfree, fun rounds hrounds => ?_⟩
  · obtain ⟨name', hname', hlength⟩ := hround j hj
    rwa [Option.some.inj (hname.symm.trans hname')]
  · rw [copyName, hsearch rounds hrounds]
    rfl

/-- **`CopyName` finds a usable name**: after at most one round more than names are taken it returns one that
is free, no longer than the column and with the suffix at its end, and takes it. -/
theorem copyName_usable (rt : Runtime) (hlower : rt.KeepsSuffix) (base label : String) (taken : Finset String)
    (hlabel : label.length ≤ 32) (htaken : taken.card < 2 ^ 31) :
    ∃ name n, 1 ≤ n ∧ (∃ front, name = front ++ copySuffix label n) ∧ name.length ≤ 200 ∧
      rt.toLower name ∉ taken ∧
      ∀ rounds, taken.card < rounds →
        copyName rt base label taken rounds = some (name, insert (rt.toLower name) taken) := by
  obtain ⟨name, n, hn, hname, hlength, hfree, hrounds⟩ := copyName_round rt hlower base label taken hlabel htaken
  exact ⟨name, n, hn, copyCandidate_suffix hname, hlength, hfree, hrounds⟩

/-- Two copies of the kebab are there already. -/
theorem copyName_usable_kebab : ∃ name n, 1 ≤ n ∧ (∃ front, name = front ++ copySuffix "copy" n) ∧
    name.length ≤ 200 ∧ Runtime.ascii.toLower name ∉ ({"kebab (copy)", "kebab (copy 2)"} : Finset String) ∧
    ∀ rounds, ({"kebab (copy)", "kebab (copy 2)"} : Finset String).card < rounds →
      copyName Runtime.ascii "Kebab" "copy" {"kebab (copy)", "kebab (copy 2)"} rounds =
        some (name, insert (Runtime.ascii.toLower name) {"kebab (copy)", "kebab (copy 2)"}) := by
  exact copyName_usable Runtime.ascii ascii_keepsSuffix "Kebab" "copy" {"kebab (copy)", "kebab (copy 2)"} (by decide)
    (by decide)

end Doenerstag
