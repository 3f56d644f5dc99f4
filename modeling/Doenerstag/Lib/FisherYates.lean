import Mathlib.Data.List.Basic
import Mathlib.Data.List.Nodup
import Mathlib.Data.List.Perm.Basic

/-!
# The Fisher–Yates shuffle

From the last place down to the second, the element there changes places with one that is drawn from
those up to it. What is drawn are numbers: for place `i` one of `0` to `i`.

* `shuffleFrom` — the shuffle of the places up to one, given what is drawn.
* `shuffleFrom_perm` — it rearranges.
* `shuffleFrom_reaches` — **every arrangement is drawn**, and of a list without repetitions
  `shuffleFrom_injective` — **in one way only.**
-/

namespace FisherYates

variable {α : Type*}

/-- Two places of a list change their elements. -/
def swap (l : List α) (i j : Nat) : List α :=
  match l[i]?, l[j]? with
  | some a, some b => (l.set i b).set j a
  | _, _ => l

/-- The places `i` down to `1`, with what is drawn for them. -/
def shuffleFrom : Nat → List α → List Nat → List α
  | 0, l, _ => l
  | _ + 1, l, [] => l
  | i + 1, l, j :: draws => shuffleFrom i (swap l (i + 1) j) draws

/-- What is drawn for the places `i` down to `1`. -/
def Drawn : Nat → List Nat → Prop
  | 0, draws => draws = []
  | _ + 1, [] => False
  | i + 1, j :: draws => j ≤ i + 1 ∧ Drawn i draws

/-! ## One exchange -/

theorem swap_last (a : List α) (x : α) : swap (a ++ [x]) a.length a.length = a ++ [x] := by
  unfold swap
  simp

theorem swap_earlier {a : List α} {j : Nat} (x : α) (hj : j < a.length) :
    swap (a ++ [x]) a.length j = a.set j x ++ [a[j]] := by
  unfold swap
  rw [List.getElem?_append_left hj, List.getElem?_eq_getElem hj]
  simp [List.set_append_left _ _ hj]

/-- What the exchange with the last place leaves: the element drawn at the end, and before it the
others. -/
theorem swap_perm {a : List α} {j : Nat} (x : α) (hj : j ≤ a.length) :
    ∃ a' y, swap (a ++ [x]) a.length j = a' ++ [y] ∧ a'.length = a.length ∧
      (a ++ [x])[j]? = some y ∧ (a ++ [x]).Perm (a' ++ [y]) := by
  rcases Nat.lt_or_eq_of_le hj with hlt | rfl
  · have hat : (a ++ [x])[j]? = some a[j] := by
      rw [List.getElem?_append_left hlt, List.getElem?_eq_getElem hlt]
    refine ⟨a.set j x, a[j], swap_earlier x hlt, List.length_set, hat, ?_⟩
    have hset := List.set_perm_cons_eraseIdx hlt x
    have hget := List.getElem_cons_eraseIdx_perm hlt
    refine (List.perm_append_singleton x a).trans ?_
    refine ((hget.symm.cons x).trans (List.Perm.swap _ _ _)).trans ?_
    exact (hset.symm.cons a[j]).trans (List.perm_append_singleton a[j] (a.set j x)).symm
  · exact ⟨a, x, swap_last a x, rfl, by simp, .refl _⟩

theorem swap_append {i j : Nat} {l : List α} (s : List α) (hi : i < l.length) (hj : j < l.length) :
    swap (l ++ s) i j = swap l i j ++ s := by
  unfold swap
  simp [List.getElem?_append_left, hi, hj, List.set_append_left]

theorem length_swap (l : List α) (i j : Nat) : (swap l i j).length = l.length := by
  unfold swap
  split <;> simp

/-! ## The shuffle -/

/-- The places after `i` are not touched any more. -/
theorem shuffleFrom_append {i : Nat} {l draws : List _} (s : List α) (hlength : l.length = i + 1)
    (hdrawn : Drawn i draws) : shuffleFrom i (l ++ s) draws = shuffleFrom i l draws ++ s := by
  suffices hlt : ∀ {i : Nat} {l : List α} {draws : List Nat}, i < l.length → Drawn i draws →
      shuffleFrom i (l ++ s) draws = shuffleFrom i l draws ++ s from
    hlt (by omega) hdrawn
  intro i
  induction i with
  | zero => intro l draws _ _; rfl
  | succ i ih =>
    intro l draws hlength hdrawn
    cases draws with
    | nil => exact hdrawn.elim
    | cons j draws =>
      show shuffleFrom i (swap (l ++ s) (i + 1) j) draws = shuffleFrom i (swap l (i + 1) j) draws ++ s
      rw [swap_append s hlength (Nat.lt_of_le_of_lt hdrawn.1 hlength)]
      exact ih (by rw [length_swap]; omega) hdrawn.2

/-- **One place**: the element drawn for the last place goes there, and the others are shuffled. -/
theorem shuffleFrom_last {i j : Nat} {l : List α} (hlength : l.length = i + 2) (hj : j ≤ i + 1) :
    ∃ rest y, rest.length = i + 1 ∧ l[j]? = some y ∧ l.Perm (rest ++ [y]) ∧
      ∀ draws, Drawn i draws →
        shuffleFrom (i + 1) l (j :: draws) = shuffleFrom i rest draws ++ [y] := by
  obtain ⟨a, x, rfl⟩ : ∃ a x, l = a ++ [x] :=
    ⟨_, _, (List.dropLast_append_getLast (List.ne_nil_of_length_eq_add_one hlength)).symm⟩
  have ha : a.length = i + 1 := by simpa using hlength
  obtain ⟨rest, y, hswap, hrest, hat, hperm⟩ := swap_perm (a := a) x (ha ▸ hj)
  refine ⟨rest, y, hrest.trans ha, hat, hperm, fun draws hdrawn => ?_⟩
  show shuffleFrom i (swap (a ++ [x]) (i + 1) j) draws = _
  rw [← ha, hswap]
  exact shuffleFrom_append [y] (hrest.trans ha) hdrawn

theorem shuffleFrom_perm {i : Nat} {l : List α} {draws : List Nat} (hlength : l.length = i + 1)
    (hdrawn : Drawn i draws) : (shuffleFrom i l draws).Perm l := by
  induction i generalizing l draws with
  | zero => exact .refl _
  | succ i ih =>
    cases draws with
    | nil => exact hdrawn.elim
    | cons j draws =>
      obtain ⟨rest, y, hrest, -, hperm, heq⟩ := shuffleFrom_last hlength hdrawn.1
      rw [heq draws hdrawn.2]
      exact ((ih hrest hdrawn.2).append_right [y]).trans hperm.symm

theorem shuffleFrom_reaches {i : Nat} {l t : List α} (hlength : l.length = i + 1) (hperm : l.Perm t) :
    ∃ draws, Drawn i draws ∧ shuffleFrom i l draws = t := by
  induction i generalizing l t with
  | zero =>
    obtain ⟨x, rfl⟩ := List.length_eq_one_iff.mp hlength
    exact ⟨[], rfl, (List.perm_singleton.mp hperm.symm).symm⟩
  | succ i ih =>
    obtain ⟨t', y, rfl⟩ : ∃ t' y, t = t' ++ [y] :=
      ⟨_, _, (List.dropLast_append_getLast
        (List.ne_nil_of_length_eq_add_one (hperm.length_eq.symm.trans hlength))).symm⟩
    -- what is to stand last is drawn first
    have hy : y ∈ l := hperm.mem_iff.mpr (List.mem_append_right _ List.mem_cons_self)
    obtain ⟨j, hj, hat⟩ := List.getElem_of_mem hy
    obtain ⟨rest, y', hrest, hat', hperm', heq⟩ := shuffleFrom_last hlength (j := j) (by omega)
    have hsame : y' = y := by
      rw [List.getElem?_eq_getElem hj, hat] at hat'
      exact (Option.some.inj hat').symm
    subst hsame
    obtain ⟨draws, hdrawn, hreaches⟩ :=
      ih hrest ((List.perm_append_right_iff [y']).mp (hperm'.symm.trans hperm))
    exact ⟨j :: draws, ⟨by omega, hdrawn⟩, by rw [heq draws hdrawn, hreaches]⟩

theorem shuffleFrom_injective {i : Nat} {l : List α} {draws draws' : List Nat}
    (hlength : l.length = i + 1) (hnodup : l.Nodup) (hdrawn : Drawn i draws)
    (hdrawn' : Drawn i draws') (h : shuffleFrom i l draws = shuffleFrom i l draws') :
    draws = draws' := by
  induction i generalizing l draws draws' with
  | zero => exact hdrawn.trans hdrawn'.symm
  | succ i ih =>
    cases draws with
    | nil => exact hdrawn.elim
    | cons j draws =>
      cases draws' with
      | nil => exact hdrawn'.elim
      | cons j' draws' =>
        obtain ⟨rest, y, hrest, hat, hperm, heq⟩ := shuffleFrom_last hlength hdrawn.1
        obtain ⟨rest', y', -, hat', -, heq'⟩ := shuffleFrom_last hlength hdrawn'.1
        rw [heq draws hdrawn.2, heq' draws' hdrawn'.2] at h
        -- the same element stands last, so the same number was drawn for it
        have hy : y = y' := List.singleton_inj.mp (List.append_inj_right' h rfl)
        subst hy
        have hlt : j < l.length := by
          have := hdrawn.1
          omega
        have hj : j = j' := (List.getElem?_inj hlt hnodup).mp (hat.trans hat'.symm)
        subst hj
        rw [← heq' draws' hdrawn'.2, heq draws' hdrawn'.2] at h
        have hnodup' : rest.Nodup := (List.nodup_append.mp (hperm.nodup_iff.mp hnodup)).1
        rw [ih hrest hnodup' hdrawn.2 hdrawn'.2 (List.append_cancel_right h)]

end FisherYates
