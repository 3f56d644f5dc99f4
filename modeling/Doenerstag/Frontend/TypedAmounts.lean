import Doenerstag.Frontend.Money

/-!
# What counts as an amount (`frontend/src/format.ts`, `parseMoney`)

`parseMoney` deletes every character that no numeral has, and reads what is left.

* `matchAmount_eq_some_iff` — the regular expression matches the numerals, and the parts are theirs.
* `parseMoney_isSome_iff` — an amount is read if what is kept, pushed together, is a numeral.
* `isPrice_iff` — a price is that numeral in one piece, with a currency marker on one side at most.
* `reads_only_prices_iff` — **only a price is read, unless what is deleted stands between the digits, on
  both sides of them, or is no currency marker.**
-/

namespace Doenerstag

/-! ## Numerals -/

theorem isAmountChar_digit {c : Char} (hc : c.isDigit = true) : isAmountChar c = true :=
  (amountChar_plain (.inl hc)).2

theorem Numeral.isAmountChar {negative : Bool} {whole fraction s : Text} (h : Numeral negative whole fraction s) :
    ∀ c ∈ s, isAmountChar c = true := by
  obtain ⟨tail, rfl, htail⟩ := h.parts
  intro c hc
  rcases List.mem_append.mp hc with hc | hc
  · unfold signText at hc
    split_ifs at hc
    · rw [List.mem_singleton.mp hc]
      decide
    · cases hc
  rcases List.mem_append.mp hc with hc | hc
  · exact isAmountChar_digit (h.isDigit_whole c hc)
  rcases htail with ⟨rfl, -⟩ | rfl | rfl
  · cases hc
  all_goals
    rcases List.mem_cons.mp hc with rfl | hc
    · decide
    · exact isAmountChar_digit (h.isDigit_fraction c hc)

theorem takeWhile_digits (s : Text) : ∀ c ∈ s.takeWhile Char.isDigit, c.isDigit = true :=
  fun _ hc => List.all_eq_true.mp List.all_takeWhile _ hc

/-- What the regular expression matches is a numeral with these parts. -/
theorem numeral_of_matchAmount {negative : Bool} {whole fraction s : Text}
    (h : matchAmount s = some (negative, whole, fraction)) : Numeral negative whole fraction s := by
  unfold matchAmount at h
  split at h
  rename_i sign rest hsign
  -- the sign is taken off `s`
  have hs : s = signText sign ++ rest := by
    split at hsign <;> obtain ⟨rfl, rfl⟩ := Prod.mk.inj hsign <;> rfl
  have hrest : rest = rest.takeWhile Char.isDigit ++ rest.dropWhile Char.isDigit :=
    List.takeWhile_append_dropWhile.symm
  split at h
  · rename_i hnil
    obtain ⟨rfl, rfl, rfl⟩ : sign = negative ∧ rest.takeWhile Char.isDigit = whole ∧ [] = fraction := by
      simpa using h
    rw [hnil] at hrest
    refine ⟨takeWhile_digits rest, by simp, [], ?_, .inl ⟨rfl, rfl⟩⟩
    rw [hs, ← hrest]
  · rename_i mark digits hcons
    split_ifs at h with hmark
    obtain ⟨rfl, rfl, rfl⟩ : sign = negative ∧ rest.takeWhile Char.isDigit = whole ∧ digits = fraction := by
      simpa using h
    rw [hcons] at hrest
    refine ⟨takeWhile_digits rest, List.all_eq_true.mp hmark.2, mark :: digits, ?_, .inr ?_⟩
    · rw [hs, ← hrest]
    · rcases hmark.1 with rfl | rfl
      · exact .inl rfl
      · exact .inr rfl

/-- The regular expression matches the numerals. -/
theorem matchAmount_eq_some_iff {negative : Bool} {whole fraction s : Text} :
    matchAmount s = some (negative, whole, fraction) ↔ Numeral negative whole fraction s :=
  ⟨numeral_of_matchAmount, Numeral.matchAmount_eq⟩

/-- A numeral that has a digit -/
def IsNumeral (s : Text) : Prop :=
  ∃ negative whole fraction, Numeral negative whole fraction s ∧ ¬ (whole = [] ∧ fraction = [])

theorem IsNumeral.isAmountChar {s : Text} (h : IsNumeral s) : ∀ c ∈ s, isAmountChar c = true := by
  obtain ⟨negative, whole, fraction, hnumeral, -⟩ := h
  exact hnumeral.isAmountChar

theorem IsNumeral.ne_nil {s : Text} (h : IsNumeral s) : s ≠ [] := by
  rintro rfl
  obtain ⟨negative, whole, fraction, hnumeral, hdigit⟩ := h
  apply hdigit
  have hmatch := hnumeral.matchAmount_eq
  have hparts : negative = false ∧ whole = [] ∧ fraction = [] := by simpa [matchAmount] using hmatch
  exact hparts.2

/-! ## What is read -/

/-- The text without its white space -/
def unspaced (text : Text) : Text := text.filter fun c => !isWhiteSpace c

/-- What `parseMoney` reads of a text, and what it leaves out besides white space -/
def keptChars (text : Text) : Text := (unspaced text).filter isAmountChar

def deletedChars (text : Text) : Text := (unspaced text).filter fun c => !isAmountChar c

/-- An amount is read if what is kept is a numeral. -/
theorem parseMoney_isSome_iff (text : Text) (money : MoneyFormat) :
    (parseMoney text money).isSome = true ↔ IsNumeral (keptChars text) := by
  unfold parseMoney
  change (if unspaced text = [] then none else (matchAmount (keptChars text)).bind _).isSome = true ↔ _
  split_ifs with hnil
  · have hkept : keptChars text = [] := by rw [keptChars, hnil, List.filter_nil]
    rw [hkept]
    constructor
    · intro h
      cases h
    · intro h
      exact absurd rfl h.ne_nil
  constructor
  · intro h
    cases hmatch : matchAmount (keptChars text) with
    | none =>
      rw [hmatch] at h
      cases h
    | some parts =>
      obtain ⟨negative, whole, fraction⟩ := parts
      rw [hmatch, Option.bind_some] at h
      refine ⟨negative, whole, fraction, numeral_of_matchAmount hmatch, fun hnone => ?_⟩
      dsimp only at h
      rw [if_pos hnone] at h
      cases h
  · rintro ⟨negative, whole, fraction, hnumeral, hdigit⟩
    rw [hnumeral.matchAmount_eq, Option.bind_some]
    dsimp only
    rw [if_neg hdigit]
    rfl

/-! ## Prices -/

/-- What is taken for a currency marker. No marker has a character that a numeral may have. -/
structure Markers where
  IsMarker : Text → Prop
  plain : ∀ {marker : Text}, IsMarker marker → ∀ c ∈ marker, isAmountChar c = false

/-- Every text that has no such character, which is the widest reading of the word -/
def Markers.any : Markers where
  IsMarker marker := ∀ c ∈ marker, isAmountChar c = false
  plain h := h

/-- Without white space, the text is a numeral, or one with a currency marker at the beginning or at the
end. -/
def IsPrice (M : Markers) (text : Text) : Prop :=
  ∃ marker numeral, (marker = [] ∨ M.IsMarker marker) ∧ IsNumeral numeral ∧
    (unspaced text = marker ++ numeral ∨ unspaced text = numeral ++ marker)

/-- What is left out is in one piece at the beginning or at the end, and is a currency marker. -/
def DeletesMarker (M : Markers) (text : Text) : Prop :=
  (deletedChars text = [] ∨ M.IsMarker (deletedChars text)) ∧
    (deletedChars text <+: unspaced text ∨ deletedChars text <:+ unspaced text)

/-- Of two pieces, one that is kept and one that is left out -/
theorem filter_pieces {α : Type} {p : α → Bool} {kept deleted l : List α} (hkept : ∀ c ∈ kept, p c = true)
    (hdeleted : ∀ c ∈ deleted, p c = false) (hl : l = deleted ++ kept ∨ l = kept ++ deleted) :
    l.filter p = kept ∧ l.filter (fun c => !p c) = deleted := by
  have hkeep : kept.filter p = kept := List.filter_eq_self.mpr hkept
  have hnone : kept.filter (fun c => !p c) = [] := by simpa using hkept
  have hdelete : deleted.filter p = [] := by simpa using hdeleted
  have hall : deleted.filter (fun c => !p c) = deleted := by simpa using hdeleted
  rcases hl with rfl | rfl
  · simp only [List.filter_append, hkeep, hnone, hdelete, hall, List.nil_append, List.append_nil, and_self]
  · simp only [List.filter_append, hkeep, hnone, hdelete, hall, List.nil_append, List.append_nil, and_self]

/-- What is left out in one piece at an end leaves the rest in one piece. -/
theorem pieces_of_filter {α : Type} {p : α → Bool} {l : List α}
    (h : l.filter (fun c => !p c) <+: l ∨ l.filter (fun c => !p c) <:+ l) :
    l = l.filter (fun c => !p c) ++ l.filter p ∨ l = l.filter p ++ l.filter (fun c => !p c) := by
  generalize hdeleted : l.filter (fun c => !p c) = deleted at h
  have hfalse : ∀ c ∈ deleted, p c = false := by
    intro c hc
    rw [← hdeleted] at hc
    simpa using (List.mem_filter.mp hc).2
  have hself : deleted.filter (fun c => !p c) = deleted := by simpa using hfalse
  -- the rest has none of them, or they would be counted twice
  rcases h with ⟨rest, rfl⟩ | ⟨rest, rfl⟩
  · rw [List.filter_append, hself] at hdeleted
    have hrest : ∀ c ∈ rest, p c = true := by simpa using hdeleted
    rw [(filter_pieces hrest hfalse (.inl rfl)).1]
    exact .inl rfl
  · rw [List.filter_append, hself] at hdeleted
    have hrest : ∀ c ∈ rest, p c = true := by simpa using hdeleted
    rw [(filter_pieces hrest hfalse (.inr rfl)).1]
    exact .inr rfl

/-- **A price is the numeral that is read, in one piece, with a currency marker on one side at most.** -/
theorem isPrice_iff (M : Markers) (text : Text) :
    IsPrice M text ↔ IsNumeral (keptChars text) ∧ DeletesMarker M text := by
  constructor
  · rintro ⟨marker, numeral, hmarker, hnumeral, htext⟩
    have hplain : ∀ c ∈ marker, isAmountChar c = false := by
      rcases hmarker with rfl | hmarker
      · simp
      · exact M.plain hmarker
    obtain ⟨hkept, hdeleted⟩ := filter_pieces hnumeral.isAmountChar hplain htext
    change keptChars text = numeral at hkept
    change deletedChars text = marker at hdeleted
    rw [DeletesMarker, hkept, hdeleted]
    refine ⟨hnumeral, hmarker, ?_⟩
    rcases htext with htext | htext
    · exact .inl ⟨numeral, htext.symm⟩
    · exact .inr ⟨numeral, htext.symm⟩
  · rintro ⟨hnumeral, hmarker, hside⟩
    exact ⟨deletedChars text, keptChars text, hmarker, hnumeral, pieces_of_filter hside⟩

/-- **Only a price is read, if what is deleted around a numeral is a currency marker at one end of it.** -/
theorem reads_only_prices_iff (M : Markers) (text : Text) (money : MoneyFormat) :
    ((parseMoney text money).isSome = true → IsPrice M text) ↔
      (IsNumeral (keptChars text) → DeletesMarker M text) := by
  rw [parseMoney_isSome_iff, isPrice_iff]
  exact forall_congr' fun hnumeral => and_iff_right hnumeral

/-- Ten and a half, typed with a letter for the nought, is one and a half. -/
theorem reads_mistyped : ¬ ∀ text, (parseMoney text ⟨2, 100⟩).isSome = true → IsPrice Markers.any text := by
  intro h
  have hread : (parseMoney "1o.50".toList ⟨2, 100⟩).isSome = true := by decide +kernel
  obtain ⟨-, -, hside⟩ := (isPrice_iff _ _).mp (h _ hread)
  revert hside
  decide

example : parseMoney "1o.50".toList ⟨2, 100⟩ = some 150 := by decide +kernel

end Doenerstag
