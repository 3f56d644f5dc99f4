import Doenerstag.Go.Strings
import Doenerstag.Lib.Url

/-!
# Where to go back to (`frontend/src/returnto.ts`)

After a login the page goes to a path out of the query, if it is one on this site. The check looks at the
text; where the browser goes is up to its URL parser, which does not look at tabs and newlines.

* `Leaves` — a second slash with tabs and newlines before it, and another site behind it.
* `returnPath_stays_iff` — **an accepted path leads to this site, unless it is one of these.**
-/

namespace Doenerstag

open Url

def isSafeReturnPath (value : Text) : Bool :=
  value.head? == some '/' && !("//".toList.isPrefixOf value) && !("/\\".toList.isPrefixOf value) &&
    !value.contains '\\'

section Resolve

variable {η : Type}

/-- Behind the first slash there is a second one, with nothing but tabs and newlines before it, and what
is behind that is not this site. -/
def Leaves (P : Parsers η) (site : Origin η) (value : Text) : Prop :=
  ∃ gap more, value = '/' :: (gap ++ '/' :: more) ∧ (∀ c ∈ gap, isTabOrNewline c = true) ∧
    authority P site.scheme ((cleanedTail more).dropWhile isSlash) ≠ some site

theorem isSafeReturnPath_rooted {value : Text} (h : isSafeReturnPath value = true) :
    (∃ rest, value = '/' :: rest) ∧ '\\' ∉ value := by
  simp only [isSafeReturnPath, Bool.and_eq_true, Bool.not_eq_true', List.contains_eq_mem] at h
  obtain ⟨⟨⟨hhead, -⟩, -⟩, hslash⟩ := h
  cases value with
  | nil => simp at hhead
  | cons c rest =>
    obtain rfl : c = '/' := by simpa using hhead
    exact ⟨⟨rest, rfl⟩, by simpa using hslash⟩

/-- **An accepted path leads to this site**, whatever host names the browser knows, unless it leaves it. -/
theorem returnPath_stays_iff (P : Parsers η) (site : Origin η) (value : Text) :
    (isSafeReturnPath value = true → resolve P site value = some site) ↔
      (isSafeReturnPath value = true → ¬ Leaves P site value) := by
  refine forall_congr' fun hsafe => ?_
  obtain ⟨⟨rest, rfl⟩, hbackslash⟩ := isSafeReturnPath_rooted hsafe
  constructor
  · rintro hstays ⟨gap, more, heq, hgap, haway⟩
    obtain ⟨-, rfl⟩ := List.cons.inj heq
    rw [resolve_doubled P site hgap (by decide)] at hstays
    exact haway hstays
  · intro hstays
    by_cases hdoubled : ∃ gap c more, rest = gap ++ c :: more ∧ (∀ c ∈ gap, isTabOrNewline c = true) ∧ isSlash c = true
    · obtain ⟨gap, c, more, rfl, hgap, hslash⟩ := hdoubled
      -- it is no backslash, which was refused
      obtain rfl : c = '/' := by
        obtain h | rfl : c = '/' ∨ c = '\\' := by simpa [isSlash] using hslash
        · exact h
        · simp at hbackslash
      rw [resolve_doubled P site hgap hslash]
      by_contra haway
      exact hstays ⟨gap, more, rfl, hgap, haway⟩
    · apply resolve_rooted
      intro gap c more hrest hgap
      by_contra hslash
      exact hdoubled ⟨gap, c, more, hrest, hgap, by simpa using hslash⟩

end Resolve

/-- A tab after the slash, and the browser is at another site. -/
theorem returnPath_leaves : ¬ ∀ (site : Origin Text) (value : Text), isSafeReturnPath value = true →
    resolve ⟨some, fun _ _ => none⟩ site value = some site := by
  intro h
  have haway := h ⟨.https, "doener.example".toList, none⟩ "/\t/evil.example/login".toList (by decide +kernel)
  revert haway
  decide +kernel

end Doenerstag
