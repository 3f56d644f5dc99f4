import Doenerstag.Frontend.ItemDialog
import Mathlib.Data.List.DropRight

/-!
# Texts in a form (`frontend/src/components/forms.ts`)

What becomes of a text that is shown in a control of a form and sent from there untouched. A control takes line
breaks away or rewrites them, `trim` and `strings.TrimSpace` take white space off the ends, each what it holds to
be white space.

* `inputValue`, `textareaValue` — the controls.
* `KeepsText` — the text has no line breaks that the control does not keep, and no white space at its ends.
* `inputValue_keeps_iff`, `textareaValue_keeps_iff` — **such a text comes to the server as it is, and no other one.**
* `checkboxGroup` — a group of boxes, of which those that are ticked are sent.
-/

namespace Doenerstag

/-! ## The controls -/

/-- The characters of a one-line control: line breaks are taken out of what it is given. -/
def inputChars (s : Text) : Text := s.filter fun c => c != '\n' && c != '\r'

def inputValue (s : String) : String := String.ofList (inputChars s.toList)

/-- The characters of a `textarea`: a line break of any kind is a line feed. -/
def textareaChars : Text → Text
  | [] => []
  | '\r' :: '\n' :: rest => '\n' :: textareaChars rest
  | '\r' :: rest => '\n' :: textareaChars rest
  | c :: rest => c :: textareaChars rest

def textareaValue (s : String) : String := String.ofList (textareaChars s.toList)

/-- `checkboxGroup`: the boxes are found by their ids, and `selected` has those that are ticked. -/
def checkboxGroup (entries : List String) (checked : String → Bool) : List String :=
  entries.eraseDups.filter checked

theorem mem_checkboxGroup {entries : List String} {checked : String → Bool} {id : String} :
    id ∈ checkboxGroup entries checked ↔ id ∈ entries ∧ checked id = true := by
  rw [checkboxGroup, List.mem_filter, List.mem_eraseDups]

/-! ## White space at the ends -/

/-- Nothing at the ends of the text is white space, for the browser or for the server. -/
def BareEnds (s : Text) : Prop :=
  ∀ c, s.head? = some c ∨ s.getLast? = some c → isWhiteSpace c = false ∧ isSpace c = false

section Ends

variable {p : Char → Bool} {s : Text}

theorem dropWhile_eq_self_iff_head : s.dropWhile p = s ↔ ∀ c, s.head? = some c → p c = false := by
  cases s with
  | nil => simp
  | cons c rest => simp [List.dropWhile_eq_self_iff]

theorem rdropWhile_eq_self_iff_last : s.rdropWhile p = s ↔ ∀ c, s.getLast? = some c → p c = false := by
  rw [List.rdropWhile, List.reverse_eq_iff, dropWhile_eq_self_iff_head, List.head?_reverse]

/-- Taking characters off both ends leaves a text that has none of them there. -/
theorem dropWhile_both_eq_self_iff :
    (s.dropWhile p).rdropWhile p = s ↔ ∀ c, s.head? = some c ∨ s.getLast? = some c → p c = false := by
  have hboth : (s.dropWhile p).rdropWhile p = s ↔ s.dropWhile p = s ∧ s.rdropWhile p = s := by
    constructor
    · intro hsame
      have hshort : s.length ≤ (s.dropWhile p).length := by
        conv_lhs => rw [← hsame]
        exact (List.rdropWhile_prefix p _).length_le
      have hfirst : s.dropWhile p = s := (List.dropWhile_suffix p).eq_of_length_le hshort
      rw [hfirst] at hsame
      exact ⟨hfirst, hsame⟩
    · rintro ⟨hfirst, hlast⟩
      rw [hfirst, hlast]
  rw [hboth, dropWhile_eq_self_iff_head, rdropWhile_eq_self_iff_last]
  constructor
  · rintro ⟨hhead, hlast⟩ c (hc | hc)
    · exact hhead c hc
    · exact hlast c hc
  · exact fun h => ⟨fun c hc => h c (.inl hc), fun c hc => h c (.inr hc)⟩

theorem trimText_sublist (s : String) : (trimText s).toList.Sublist s.toList := by
  rw [trimText, String.toList_ofList]
  exact (List.rdropWhile_prefix _ _).sublist.trans (List.dropWhile_suffix _).sublist

theorem trimSpace_sublist (s : String) : (trimSpace s).toList.Sublist s.toList := by
  rw [trimSpace, String.toList_ofList]
  exact (List.rdropWhile_prefix _ _).sublist.trans (List.dropWhile_suffix _).sublist

/-- `trim`, and then `strings.TrimSpace`, leave a text with bare ends. -/
theorem trimSpace_trimText_eq_self_iff {s : String} : trimSpace (trimText s) = s ↔ BareEnds s.toList := by
  have hboth : trimSpace (trimText s) = s ↔ trimText s = s ∧ trimSpace s = s := by
    constructor
    · intro hsame
      have hlong : s.toList.length ≤ (trimText s).toList.length := by
        conv_lhs => rw [← hsame]
        exact (trimSpace_sublist _).length_le
      have hfirst : trimText s = s := String.toList_inj.mp ((trimText_sublist s).eq_of_length_le hlong)
      rw [hfirst] at hsame
      exact ⟨hfirst, hsame⟩
    · rintro ⟨hfirst, hlast⟩
      rw [hfirst, hlast]
  have hbrowser : trimText s = s ↔ ∀ c, s.toList.head? = some c ∨ s.toList.getLast? = some c →
      isWhiteSpace c = false := by
    rw [← dropWhile_both_eq_self_iff, ← String.toList_inj, trimText, String.toList_ofList]
    rfl
  have hserver : trimSpace s = s ↔ ∀ c, s.toList.head? = some c ∨ s.toList.getLast? = some c →
      isSpace c = false := by
    rw [← dropWhile_both_eq_self_iff, ← String.toList_inj, trimSpace, String.toList_ofList]
    rfl
  rw [hboth, hbrowser, hserver]
  constructor
  · exact fun h c hc => ⟨h.1 c hc, h.2 c hc⟩
  · exact fun h => ⟨fun c hc => (h c hc).1, fun c hc => (h c hc).2⟩

end Ends

/-! ## Untouched texts -/

/-- The text has none of the line breaks that a control does away with, and bare ends. -/
structure KeepsText (breaks : List Char) (s : String) : Prop where
  plain : ∀ c ∈ s.toList, c ∉ breaks
  ends : BareEnds s.toList

/-- What a one-line control and a `textarea` do away with -/
def oneLine : List Char := ['\n', '\r']

def manyLines : List Char := ['\r']

section Untouched

variable {breaks : List Char} {control : String → String} {s : String}

/-- A control that does away with some characters, and changes nothing else -/
theorem control_keeps_iff (hout : ∀ c ∈ (control s).toList, c ∉ breaks)
    (hsame : (∀ c ∈ s.toList, c ∉ breaks) → control s = s) :
    trimSpace (trimText (control s)) = s ↔ KeepsText breaks s := by
  constructor
  · intro hkept
    have hplain : ∀ c ∈ s.toList, c ∉ breaks := by
      intro c hc
      rw [← hkept] at hc
      exact hout c ((trimText_sublist _).subset ((trimSpace_sublist _).subset hc))
    rw [hsame hplain] at hkept
    exact ⟨hplain, trimSpace_trimText_eq_self_iff.mp hkept⟩
  · intro hkeeps
    rw [hsame hkeeps.plain]
    exact trimSpace_trimText_eq_self_iff.mpr hkeeps.ends

theorem mem_inputChars {c : Char} {s : Text} : c ∈ inputChars s ↔ c ∈ s ∧ c ∉ oneLine := by
  simp [inputChars, oneLine]

/-- **A one-line text comes to the server as it is if and only if the control and the trims keep it.** -/
theorem inputValue_keeps_iff : trimSpace (trimText (inputValue s)) = s ↔ KeepsText oneLine s := by
  refine control_keeps_iff (fun c hc => ?_) fun hplain => ?_
  · rw [inputValue, String.toList_ofList] at hc
    exact (mem_inputChars.mp hc).2
  · have hall : inputChars s.toList = s.toList := by
      refine List.filter_eq_self.mpr fun c hc => ?_
      have hbreak := hplain c hc
      simpa [oneLine] using hbreak
    rw [inputValue, hall, String.ofList_toList]

theorem textareaChars_plain (s : Text) : ∀ c ∈ textareaChars s, c ∉ manyLines := by
  induction s using textareaChars.induct with
  | case1 => simp [textareaChars]
  | case2 rest ih =>
    simpa [textareaChars, manyLines] using ih
  | case3 rest hnot ih =>
    rw [textareaChars]
    · simpa [manyLines] using ih
    · exact hnot
  | case4 c rest hpair hcr ih =>
    rw [textareaChars]
    · have hc : c ≠ '\r' := fun heq => hcr heq
      simpa [manyLines, hc] using ih
    all_goals assumption

theorem textareaChars_eq_self {s : Text} (h : ∀ c ∈ s, c ∉ manyLines) : textareaChars s = s := by
  induction s with
  | nil => rfl
  | cons c rest ih =>
    have hc : c ≠ '\r' := by simpa [manyLines] using h c List.mem_cons_self
    rw [textareaChars, ih fun c' hc' => h c' (List.mem_cons_of_mem _ hc')]
    · exact fun rest' heq => absurd heq hc
    · exact hc

/-- **A text of several lines, likewise** -/
theorem textareaValue_keeps_iff : trimSpace (trimText (textareaValue s)) = s ↔ KeepsText manyLines s := by
  refine control_keeps_iff (fun c hc => ?_) fun hplain => ?_
  · rw [textareaValue, String.toList_ofList] at hc
    exact textareaChars_plain _ c hc
  · rw [textareaValue, textareaChars_eq_self hplain, String.ofList_toList]

/-- An amount is read from a control as from the text that it was given. -/
theorem parseMoney_inputChars (s : Text) (money : MoneyFormat) :
    parseMoney (inputChars s) money = parseMoney s money := by
  have hspaces : (inputChars s).filter (fun c => !isWhiteSpace c) = s.filter fun c => !isWhiteSpace c := by
    rw [inputChars, List.filter_filter]
    refine List.filter_congr fun c _ => ?_
    by_cases hn : c = '\n'
    · subst hn
      decide
    by_cases hr : c = '\r'
    · subst hr
      decide
    simp [hn, hr]
  unfold parseMoney
  rw [hspaces]

end Untouched

example : trimSpace (trimText (inputValue " Döner\n")) = "Döner" := by decide +kernel

end Doenerstag
