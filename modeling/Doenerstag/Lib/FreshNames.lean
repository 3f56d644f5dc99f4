import Mathlib.Combinatorics.Pigeonhole
import Mathlib.Data.Finset.Card
import Mathlib.Data.Finset.Insert

/-!
# Counting up to a free name

Candidates are tried one after the other until the key of one is not taken. As long as their keys are distinct,
one more of them than are taken is enough.

* `search` — the search, for a number of rounds; it ends early where there is no candidate to be had.
* `search_of_free` — up to a free candidate it finds one, and more rounds change nothing.
* `exists_free` — **among more candidates than are taken, one is free.**
* `eq_of_count_eq` — what follows the last but so many occurrences of a character.
-/

namespace FreshNames

variable {α κ : Type} [DecidableEq κ]

/-- The first of `candidate n`, `candidate (n + 1)`, … that is not taken -/
def search (candidate : Nat → Option α) (key : α → κ) (taken : Finset κ) : Nat → Nat → Option α
  | 0, _ => none
  | rounds + 1, n =>
    match candidate n with
    | none => none
    | some a => if key a ∈ taken then search candidate key taken rounds (n + 1) else some a

variable {candidate : Nat → Option α} {key : α → κ} {taken : Finset κ}

theorem search_taken {rounds n : Nat} {a : α} (ha : candidate n = some a) (htaken : key a ∈ taken) :
    search candidate key taken (rounds + 1) n = search candidate key taken rounds (n + 1) := by
  rw [search, ha]
  exact if_pos htaken

theorem search_free {rounds n : Nat} {a : α} (ha : candidate n = some a) (hfree : key a ∉ taken) :
    search candidate key taken (rounds + 1) n = some a := by
  rw [search, ha]
  exact if_neg hfree

/-- Up to a free candidate the search finds one. -/
theorem search_of_free {i n : Nat} (hthere : ∀ j ≤ i, ∃ a, candidate (n + j) = some a)
    (hfree : ∃ a, candidate (n + i) = some a ∧ key a ∉ taken) :
    ∃ j ≤ i, ∃ a, candidate (n + j) = some a ∧ key a ∉ taken ∧
      ∀ rounds, j < rounds → search candidate key taken rounds n = some a := by
  induction i generalizing n with
  | zero =>
    obtain ⟨a, ha, hnot⟩ := hfree
    refine ⟨0, Nat.le_refl 0, a, ha, hnot, fun rounds hrounds => ?_⟩
    obtain ⟨rounds, rfl⟩ := Nat.exists_eq_succ_of_ne_zero (Nat.ne_of_gt hrounds)
    exact search_free ha hnot
  | succ i ih =>
    obtain ⟨a, ha⟩ := hthere 0 (Nat.zero_le _)
    by_cases htaken : key a ∈ taken
    · -- one round, and the rest from the next number on
      have hshift : ∀ j, n + (j + 1) = n + 1 + j := fun j => by omega
      rw [hshift] at hfree
      obtain ⟨j, hj, b, hb, hnot, hsearch⟩ := ih (n := n + 1)
        (fun j hj => hshift j ▸ hthere (j + 1) (Nat.succ_le_succ hj)) hfree
      refine ⟨j + 1, by omega, b, (hshift j).symm ▸ hb, hnot, fun rounds hrounds => ?_⟩
      obtain ⟨rounds, rfl⟩ := Nat.exists_eq_succ_of_ne_zero (Nat.ne_of_gt (Nat.zero_lt_of_lt hrounds))
      exact (search_taken ha htaken).trans (hsearch rounds (Nat.lt_of_succ_lt_succ hrounds))
    · refine ⟨0, Nat.zero_le _, a, ha, htaken, fun rounds hrounds => ?_⟩
      obtain ⟨rounds, rfl⟩ := Nat.exists_eq_succ_of_ne_zero (Nat.ne_of_gt hrounds)
      exact search_free ha htaken

/-- **Among more candidates than are taken, one is free.** -/
theorem exists_free {n : Nat} (hthere : ∀ j ≤ taken.card, ∃ a, candidate (n + j) = some a)
    (hdistinct : ∀ i ≤ taken.card, ∀ j ≤ taken.card, ∀ a b, candidate (n + i) = some a →
      candidate (n + j) = some b → key a = key b → i = j) :
    ∃ i ≤ taken.card, ∃ a, candidate (n + i) = some a ∧ key a ∉ taken := by
  by_contra hnone
  have hall : ∀ i ≤ taken.card, ∀ a, candidate (n + i) = some a → key a ∈ taken := by
    intro i hi a ha
    by_contra hnot
    exact hnone ⟨i, hi, a, ha, hnot⟩
  -- so many candidates do not fit
  have hkeys : ∀ i ∈ Finset.range (taken.card + 1), ((candidate (n + i)).map key) ∈ taken.image some := by
    intro i hi
    have hle : i ≤ taken.card := by
      rw [Finset.mem_range] at hi
      omega
    obtain ⟨a, ha⟩ := hthere i hle
    rw [ha]
    exact Finset.mem_image_of_mem some (hall i hle a ha)
  have hcard : (taken.image some).card < (Finset.range (taken.card + 1)).card := by
    rw [Finset.card_range]
    exact Nat.lt_succ_of_le Finset.card_image_le
  obtain ⟨i, hi, j, hj, hne, heq⟩ := Finset.exists_ne_map_eq_of_card_lt_of_maps_to hcard hkeys
  rw [Finset.mem_range] at hi hj
  obtain ⟨a, ha⟩ := hthere i (by omega)
  obtain ⟨b, hb⟩ := hthere j (by omega)
  rw [ha, hb] at heq
  exact hne (hdistinct i (by omega) j (by omega) a b ha hb (Option.some.inj heq))

/-- **The search finds a free candidate** in one round more than are taken. -/
theorem search_isSome {n : Nat} (hthere : ∀ j ≤ taken.card, ∃ a, candidate (n + j) = some a)
    (hdistinct : ∀ i ≤ taken.card, ∀ j ≤ taken.card, ∀ a b, candidate (n + i) = some a →
      candidate (n + j) = some b → key a = key b → i = j) :
    ∃ j ≤ taken.card, ∃ a, candidate (n + j) = some a ∧ key a ∉ taken ∧
      ∀ rounds, taken.card < rounds → search candidate key taken rounds n = some a := by
  obtain ⟨i, hi, hfree⟩ := exists_free hthere hdistinct
  obtain ⟨j, hj, a, ha, hnot, hsearch⟩ :=
    search_of_free (fun j hj => hthere j (Nat.le_trans hj hi)) hfree
  exact ⟨j, Nat.le_trans hj hi, a, ha, hnot, fun rounds hrounds => hsearch rounds (by omega)⟩

/-- What comes after an occurrence of a character is settled by how many more of them follow. -/
theorem eq_of_count_eq {γ : Type} [DecidableEq γ] {x : γ} {a b p q : List γ} (h : a ++ x :: p = b ++ x :: q)
    (hcount : p.count x = q.count x) : p = q := by
  have hshorter : ∀ {c p q : List γ}, x :: p = c ++ x :: q → p.count x = q.count x → p = q := by
    intro c p q h hcount
    cases c with
    | nil => exact (List.cons.inj h).2
    | cons y c =>
      -- then one more of them follows on the left
      have hp : p = c ++ x :: q := (List.cons.inj h).2
      rw [hp, List.count_append, List.count_cons_self] at hcount
      omega
  rcases List.append_eq_append_iff.mp h with ⟨c, -, hc⟩ | ⟨c, -, hc⟩
  · exact hshorter hc hcount
  · exact (hshorter hc hcount.symm).symm

end FreshNames
