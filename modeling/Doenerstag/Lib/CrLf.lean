import Mathlib.Data.List.Basic

/-!
# Lines that end with CR LF

Texts over any alphabet with two letters that break lines.

* `Paired` — neither of the two stands without the other: `Paired.after_cr`, `Paired.before_lf`.
* `readMessage` — the lines up to the first empty one, and what comes after it. `readMessage_lines` — **it reads
  what lines with an empty one after them were put together to.**
* `textLines` — the lines of a text that breaks them in any way; `textLines_crlf` — they stay what they are when
  all of them are broken with CR LF.
-/

namespace CrLf

variable {α : Type} (cr lf : α)

/-- CR and LF stand in pairs only. -/
inductive Paired : List α → Prop where
  | nil : Paired []
  | other {c : α} {rest : List α} (hcr : c ≠ cr) (hlf : c ≠ lf) (more : Paired rest) : Paired (c :: rest)
  | pair {rest : List α} (more : Paired rest) : Paired (cr :: lf :: rest)

namespace Paired

variable {cr lf} {s t : List α}

theorem append (hs : Paired cr lf s) (ht : Paired cr lf t) : Paired cr lf (s ++ t) := by
  induction hs with
  | nil => exact ht
  | other hcr hlf _ ih => exact .other hcr hlf ih
  | pair _ ih => exact .pair ih

theorem of_plain (hcr : cr ∉ s) (hlf : lf ∉ s) : Paired cr lf s := by
  induction s with
  | nil => exact .nil
  | cons c rest ih =>
    obtain ⟨hc, hrest⟩ := not_or.mp (mt List.mem_cons.mpr hcr)
    obtain ⟨hl, hrest'⟩ := not_or.mp (mt List.mem_cons.mpr hlf)
    exact .other (Ne.symm hc) (Ne.symm hl) (ih hrest hrest')

theorem flatMap {β : Type} {f : β → List α} {l : List β} (h : ∀ b ∈ l, Paired cr lf (f b)) :
    Paired cr lf (l.flatMap f) := by
  induction l with
  | nil => exact .nil
  | cons b rest ih =>
    rw [List.flatMap_cons]
    exact (h b List.mem_cons_self).append (ih fun b' hb' => h b' (List.mem_cons_of_mem _ hb'))

/-- **A CR is before every LF.** -/
theorem before_lf (hne : cr ≠ lf) (hs : Paired cr lf s) {before after : List α} (h : s = before ++ lf :: after) :
    ∃ start, before = start ++ [cr] := by
  induction hs generalizing before with
  | nil => simp at h
  | other hcr hlf _ ih =>
    cases before with
    | nil =>
      obtain ⟨hc, -⟩ := List.cons.inj h
      exact absurd hc hlf
    | cons b before =>
      obtain ⟨rfl, hrest⟩ := List.cons.inj h
      obtain ⟨start, rfl⟩ := ih hrest
      exact ⟨_ :: start, rfl⟩
  | pair _ ih =>
    cases before with
    | nil =>
      obtain ⟨hc, -⟩ := List.cons.inj h
      exact absurd hc hne
    | cons b before =>
      obtain ⟨rfl, hrest⟩ := List.cons.inj h
      cases before with
      | nil => exact ⟨[], rfl⟩
      | cons b' before =>
        obtain ⟨rfl, hmore⟩ := List.cons.inj hrest
        obtain ⟨start, rfl⟩ := ih hmore
        exact ⟨_ :: _ :: start, rfl⟩

/-- **An LF is after every CR.** -/
theorem after_cr (hne : cr ≠ lf) (hs : Paired cr lf s) {before after : List α} (h : s = before ++ cr :: after) :
    ∃ rest, after = lf :: rest := by
  induction hs generalizing before with
  | nil => simp at h
  | other hcr hlf _ ih =>
    cases before with
    | nil =>
      obtain ⟨hc, -⟩ := List.cons.inj h
      exact absurd hc hcr
    | cons b before => exact ih (List.cons.inj h).2
  | pair _ ih =>
    cases before with
    | nil => exact ⟨_, (List.cons.inj h).2.symm⟩
    | cons b before =>
      obtain ⟨-, hrest⟩ := List.cons.inj h
      cases before with
      | nil => exact absurd (List.cons.inj hrest).1.symm hne
      | cons b' before => exact ih (List.cons.inj hrest).2

end Paired

variable [DecidableEq α]

/-! ## Headers and a body -/

/-- The lines of a message up to the empty one, and its body; `line` has been read of the first one already. -/
def readMessage (line : List α) : List α → Option (List (List α) × List α)
  | a :: b :: rest =>
    if a = cr ∧ b = lf then
      if line = [] then some ([], rest) else (readMessage [] rest).map fun m => (line :: m.1, m.2)
    else readMessage (line ++ [a]) (b :: rest)
  | _ => none

variable {cr lf}

/-- A line is read to its end. -/
theorem readMessage_line {line text rest : List α} (hcr : cr ∉ text) (hne : line ++ text ≠ []) :
    readMessage cr lf line (text ++ cr :: lf :: rest) =
      (readMessage cr lf [] rest).map fun m => ((line ++ text) :: m.1, m.2) := by
  induction text generalizing line with
  | nil =>
    rw [List.append_nil] at hne ⊢
    rw [List.nil_append, readMessage, if_pos ⟨rfl, rfl⟩, if_neg hne]
  | cons c text ih =>
    obtain ⟨hc, htext⟩ := not_or.mp (mt List.mem_cons.mpr hcr)
    have hstep : readMessage cr lf line (c :: (text ++ cr :: lf :: rest)) =
        readMessage cr lf (line ++ [c]) (text ++ cr :: lf :: rest) := by
      cases text with
      | nil => exact if_neg fun h => hc h.1.symm
      | cons d text => exact if_neg fun h => hc h.1.symm
    have hline : line ++ [c] ++ text = line ++ c :: text := by simp
    rw [List.cons_append, hstep, ih htext (by simp), hline]

/-- **The lines that were put together are read, and what comes after the empty one.** -/
theorem readMessage_lines {lines : List (List α)} (hcr : ∀ l ∈ lines, cr ∉ l) (hne : ∀ l ∈ lines, l ≠ [])
    (body : List α) :
    readMessage cr lf [] ((lines.flatMap fun l => l ++ [cr, lf]) ++ cr :: lf :: body) = some (lines, body) := by
  induction lines with
  | nil => exact (if_pos ⟨rfl, rfl⟩).trans (if_pos rfl)
  | cons l rest ih =>
    have hsplit : ((l :: rest).flatMap fun l => l ++ [cr, lf]) ++ cr :: lf :: body =
        l ++ cr :: lf :: ((rest.flatMap fun l => l ++ [cr, lf]) ++ cr :: lf :: body) := by
      simp
    rw [hsplit, readMessage_line (hcr l List.mem_cons_self) (by simpa using hne l List.mem_cons_self),
      ih (fun l' hl' => hcr l' (List.mem_cons_of_mem _ hl')) fun l' hl' => hne l' (List.mem_cons_of_mem _ hl')]
    rfl

/-! ## The lines of any text -/

variable (cr lf)

/-- A letter that is part of the first line -/
def consLine (c : α) : List (List α) → List (List α)
  | [] => [[c]]
  | line :: rest => (c :: line) :: rest

/-- The lines of a text in which a CR, an LF and a CR with an LF after it each break one -/
def textLines : List α → List (List α)
  | [] => [[]]
  | [a] => if a = cr ∨ a = lf then [[], []] else [[a]]
  | a :: b :: rest =>
    if a = cr ∧ b = lf then [] :: textLines rest
    else if a = cr ∨ a = lf then [] :: textLines (b :: rest)
    else consLine a (textLines (b :: rest))

/-- The text with an LF for each of these -/
def unix : List α → List α
  | [] => []
  | [a] => if a = cr then [lf] else [a]
  | a :: b :: rest =>
    if a = cr ∧ b = lf then lf :: unix rest else (if a = cr then lf else a) :: unix (b :: rest)

/-- The text with CR LF for each LF -/
def crlf (s : List α) : List α := s.flatMap fun c => if c = lf then [cr, lf] else [c]

variable {cr lf}

theorem not_mem_unix (hne : cr ≠ lf) (s : List α) : cr ∉ unix cr lf s := by
  fun_induction unix cr lf s with
  | case1 => exact List.not_mem_nil
  | case2 => simpa using hne
  | case3 a hcr => simpa using Ne.symm hcr
  | case4 a b rest hbreak ih => simpa [hne] using ih
  | case5 a b rest hbreak ih =>
    rw [List.mem_cons, not_or]
    refine ⟨?_, ih⟩
    split_ifs with hcr
    · exact hne
    · exact Ne.symm hcr

theorem paired_crlf {s : List α} (hcr : cr ∉ s) : Paired cr lf (crlf cr lf s) := by
  refine Paired.flatMap fun c hc => ?_
  split_ifs with hlf
  · exact .pair .nil
  · exact .other (fun h => hcr (h ▸ hc)) hlf .nil

theorem textLines_lf (hne : cr ≠ lf) (rest : List α) : textLines cr lf (lf :: rest) = [] :: textLines cr lf rest := by
  cases rest with
  | nil => exact if_pos (.inr rfl)
  | cons b rest => exact (if_neg fun h => hne h.1.symm).trans (if_pos (.inr rfl))

theorem textLines_other {c : α} (hcr : c ≠ cr) (hlf : c ≠ lf) (rest : List α) :
    textLines cr lf (c :: rest) = consLine c (textLines cr lf rest) := by
  cases rest with
  | nil => exact if_neg (by simp [hcr, hlf])
  | cons b rest => exact (if_neg fun h => hcr h.1).trans (if_neg (by simp [hcr, hlf]))

theorem textLines_unix (hne : cr ≠ lf) (s : List α) : textLines cr lf (unix cr lf s) = textLines cr lf s := by
  fun_induction unix cr lf s with
  | case1 => rfl
  | case2 => simp [textLines]
  | case3 a hcr => rfl
  | case4 a b rest hbreak ih =>
    rw [textLines_lf hne, ih, textLines, if_pos hbreak]
  | case5 a b rest hbreak ih =>
    by_cases hcr : a = cr
    · rw [if_pos hcr, textLines_lf hne, ih, textLines, if_neg hbreak, if_pos (.inl hcr)]
    · rw [if_neg hcr]
      by_cases hlf : a = lf
      · rw [hlf, textLines_lf hne, textLines_lf hne, ih]
      · rw [textLines_other hcr hlf, textLines_other hcr hlf, ih]

theorem textLines_crlf_of_no_cr (hne : cr ≠ lf) {s : List α} (hcr : cr ∉ s) :
    textLines cr lf (crlf cr lf s) = textLines cr lf s := by
  induction s with
  | nil => rfl
  | cons c rest ih =>
    obtain ⟨hc, hrest⟩ := not_or.mp (mt List.mem_cons.mpr hcr)
    unfold crlf at ih ⊢
    rw [List.flatMap_cons]
    split_ifs with hlf
    · rw [hlf, textLines_lf hne]
      exact (if_pos ⟨rfl, rfl⟩).trans (congrArg ([] :: ·) (ih hrest))
    · rw [List.singleton_append, textLines_other (Ne.symm hc) hlf, textLines_other (Ne.symm hc) hlf, ih hrest]

/-- **Lines stay what they are when all of them are broken with CR LF.** -/
theorem textLines_crlf (hne : cr ≠ lf) (s : List α) :
    textLines cr lf (crlf cr lf (unix cr lf s)) = textLines cr lf s :=
  (textLines_crlf_of_no_cr hne (not_mem_unix hne s)).trans (textLines_unix hne s)

end CrLf
