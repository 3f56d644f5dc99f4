import Mathlib.Data.List.Sort
import Mathlib.Order.Basic

/-!
# Sorting by a key and a name

Elements are ordered by a key, and those with one key by their names. No two have the same name, so that
there is one order. What becomes of it when the keys of two neighbours are exchanged depends on who else has
them.

* `First` — the order.
* `insertionSort_eq_iff` — sorting gives the one permutation that is in order.
* `exchanged_iff` — **exchanging the keys of neighbours exchanges them**, unless the keys are equal or names
  of others with one of the keys stand in between.
* `raised_iff`, `lowered_iff` — with one of the keys set only, they stay where they are if their names are in
  order.
-/

namespace SortKeys

variable {α κ ν : Type*} [LinearOrder κ] {key : α → κ} {name : α → ν} {before : ν → ν → Prop}

/-- `x` comes before `y`. -/
def First (key : α → κ) (name : α → ν) (before : ν → ν → Prop) (x y : α) : Prop :=
  key x < key y ∨ key x = key y ∧ before (name x) (name y)

section Order

variable [IsStrictTotalOrder ν before]

theorem First.trans {x y z : α} (hxy : First key name before x y) (hyz : First key name before y z) :
    First key name before x z := by
  obtain hlt | ⟨heq, hname⟩ := hxy
  · obtain hlt' | ⟨heq', -⟩ := hyz
    · exact .inl (hlt.trans hlt')
    · exact .inl (heq' ▸ hlt)
  · obtain hlt' | ⟨heq', hname'⟩ := hyz
    · exact .inl (heq ▸ hlt')
    · exact .inr ⟨heq.trans heq', trans_of before hname hname'⟩

theorem First.asymm {x y : α} (hxy : First key name before x y) : ¬ First key name before y x := by
  intro hyx
  obtain hlt | ⟨-, hname⟩ := hxy.trans hyx
  · exact lt_irrefl _ hlt
  · exact irrefl _ hname

variable (key name before) in
/-- Of two elements one comes first, or they look the same. -/
theorem first_trichotomy (x y : α) : First key name before x y ∨ First key name before y x ∨
    key x = key y ∧ name x = name y := by
  obtain hlt | heq | hlt := lt_trichotomy (key x) (key y)
  · exact .inl (.inl hlt)
  · obtain hname | hname | hname := trichotomous_of before (name x) (name y)
    · exact .inl (.inr ⟨heq, hname⟩)
    · exact .inr (.inr ⟨heq, hname⟩)
    · exact .inr (.inl (.inr ⟨heq.symm, hname⟩))
  · exact .inr (.inl (.inl hlt))

theorem first_or_first {x y : α} (hne : name x ≠ name y) :
    First key name before x y ∨ First key name before y x := by
  obtain hxy | hyx | ⟨-, hname⟩ := first_trichotomy key name before x y
  · exact .inl hxy
  · exact .inr hyx
  · exact absurd hname hne

end Order

/-! ## Neighbours -/

section Neighbours

variable {pre post : List α} {a b a' b' : α}

theorem pairwise_neighbours {r : α → α → Prop} : (pre ++ a :: b :: post).Pairwise r ↔
    (pre ++ post).Pairwise r ∧ r a b ∧ (∀ p ∈ pre, r p a ∧ r p b) ∧ ∀ q ∈ post, r a q ∧ r b q := by
  simp only [List.pairwise_append, List.pairwise_cons, List.mem_cons]
  constructor
  · rintro ⟨hpre, ⟨ha, hb, hpost⟩, hacross⟩
    exact ⟨⟨hpre, hpost, fun p hp q hq => hacross p hp q (.inr (.inr hq))⟩, ha b (.inl rfl),
      fun p hp => ⟨hacross p hp a (.inl rfl), hacross p hp b (.inr (.inl rfl))⟩,
      fun q hq => ⟨ha q (.inr hq), hb q hq⟩⟩
  · rintro ⟨⟨hpre, hpost, hacross⟩, hab, hbefore, hbehind⟩
    refine ⟨hpre, ⟨?_, fun q hq => (hbehind q hq).2, hpost⟩, ?_⟩
    · rintro q (rfl | hq)
      · exact hab
      · exact (hbehind q hq).1
    · rintro p hp q (rfl | rfl | hq)
      · exact (hbefore p hp).1
      · exact (hbefore p hp).2
      · exact hacross p hp q hq

variable [IsStrictTotalOrder ν before]

/-- **Neighbours whose keys are exchanged change places** if and only if their keys differ, and the names of
the others with one of these keys are before or behind the one that comes there. -/
theorem exchanged_iff (hsorted : (pre ++ a :: b :: post).Pairwise (First key name before))
    (ha : key a' = key b ∧ name a' = name a) (hb : key b' = key a ∧ name b' = name b) :
    (pre ++ b' :: a' :: post).Pairwise (First key name before) ↔
      key a < key b ∧ (∀ p ∈ pre, key p = key a → before (name p) (name b)) ∧
        ∀ q ∈ post, key q = key b → before (name a) (name q) := by
  rw [pairwise_neighbours] at hsorted ⊢
  obtain ⟨hrest, hab, hbefore, hbehind⟩ := hsorted
  simp only [First, ha.1, ha.2, hb.1, hb.2] at hab hbefore hbehind ⊢
  constructor
  · rintro ⟨-, hba, hbefore', hbehind'⟩
    have hlt : key a < key b := by
      obtain hlt | ⟨heq, hname⟩ := hba
      · exact hlt
      · obtain hlt | ⟨-, hname'⟩ := hab
        · exact hlt
        · exact absurd (trans_of before hname hname') (irrefl _)
    refine ⟨hlt, fun p hp heq => ?_, fun q hq heq => ?_⟩
    · obtain hlt' | ⟨-, hname⟩ := (hbefore' p hp).1
      · exact absurd heq hlt'.ne
      · exact hname
    · obtain hlt' | ⟨-, hname⟩ := (hbehind' q hq).2
      · exact absurd heq hlt'.ne'
      · exact hname
  · rintro ⟨hlt, hpre, hpost⟩
    refine ⟨hrest, .inl hlt, fun p hp => ?_, fun q hq => ?_⟩
    · have hle : key p ≤ key a := (hbefore p hp).1.elim le_of_lt fun h => h.1.le
      refine ⟨?_, .inl (hle.trans_lt hlt)⟩
      obtain hlt' | heq := hle.lt_or_eq
      · exact .inl hlt'
      · exact .inr ⟨heq, hpre p hp heq⟩
    · have hle : key b ≤ key q := (hbehind q hq).2.elim le_of_lt fun h => h.1.le
      refine ⟨.inl (hlt.trans_le hle), ?_⟩
      obtain hlt' | heq := hle.lt_or_eq
      · exact .inl hlt'
      · exact .inr ⟨heq, hpost q hq heq.symm⟩

/-- **When the first one gets the key of the second one**, it stays before it if its name is. -/
theorem raised_iff (hsorted : (pre ++ a :: b :: post).Pairwise (First key name before))
    (ha : key a' = key b ∧ name a' = name a) :
    (pre ++ a' :: b :: post).Pairwise (First key name before) ↔ before (name a) (name b) := by
  rw [pairwise_neighbours] at hsorted ⊢
  obtain ⟨hrest, hab, hbefore, hbehind⟩ := hsorted
  simp only [First, ha.1, ha.2] at hab hbefore hbehind ⊢
  constructor
  · rintro ⟨-, hname, -⟩
    obtain hlt | ⟨-, hname⟩ := hname
    · exact absurd hlt (lt_irrefl _)
    · exact hname
  · intro hname
    refine ⟨hrest, .inr ⟨trivial, hname⟩, fun p hp => ⟨?_, (hbefore p hp).2⟩, fun q hq => ⟨?_, (hbehind q hq).2⟩⟩
    · obtain hlt | ⟨heq, hpb⟩ := (hbefore p hp).2
      · exact .inl hlt
      · refine .inr ⟨heq, ?_⟩
        obtain hlt | ⟨-, hpa⟩ := (hbefore p hp).1
        · obtain hlt' | ⟨heq', -⟩ := hab
          · exact absurd (hlt.trans hlt') heq.not_lt
          · exact absurd (heq.trans heq'.symm) hlt.ne
        · exact hpa
    · obtain hlt | ⟨heq, hbq⟩ := (hbehind q hq).2
      · exact .inl hlt
      · exact .inr ⟨heq, trans_of before hname hbq⟩

/-- **When the second one gets the key of the first one**, it stays behind it if its name is. -/
theorem lowered_iff (hsorted : (pre ++ a :: b :: post).Pairwise (First key name before))
    (hb : key b' = key a ∧ name b' = name b) :
    (pre ++ a :: b' :: post).Pairwise (First key name before) ↔ before (name a) (name b) := by
  -- from behind, the first one is the second one
  have hflip : ∀ xs : List α, xs.Pairwise (First key name before) ↔
      xs.reverse.Pairwise (First (OrderDual.toDual ∘ key) name (Function.swap before)) := by
    intro xs
    rw [List.pairwise_reverse]
    refine iff_of_eq (congrArg xs.Pairwise (funext₂ fun x y => propext ?_))
    exact or_congr Iff.rfl (and_congr_left fun _ => eq_comm)
  have hreverse : ∀ x y, (pre ++ x :: y :: post).reverse = post.reverse ++ y :: x :: pre.reverse := by simp
  rw [hflip, hreverse] at hsorted ⊢
  exact raised_iff hsorted hb

end Neighbours

/-! ## Sorting -/

/-- **Sorting elements with different names gives their one permutation that is in order.** -/
theorem insertionSort_eq_iff [IsStrictTotalOrder ν before] {r : α → α → Prop} [DecidableRel r]
    (hr : ∀ x y, r x y ↔ ¬ First key name before y x) {xs ys : List α}
    (hnames : (xs.map name).Nodup) :
    xs.insertionSort r = ys ↔ ys.Perm xs ∧ ys.Pairwise (First key name before) := by
  have : Std.Total r := ⟨fun x y => by
    rw [hr, hr, ← not_and_or]
    exact fun h => h.1.asymm h.2⟩
  have : IsTrans α r := ⟨fun x y z hxy hyz => by
    rw [hr] at hxy hyz ⊢
    intro hzx
    obtain hfirst | hfirst | ⟨hkey, hname⟩ := first_trichotomy key name before x y
    · exact hyz (hzx.trans hfirst)
    · exact hxy hfirst
    · exact hyz (by rwa [First, ← hkey, ← hname])⟩
  have hfirst : ∀ zs : List α, zs.Perm xs → (zs.Pairwise r ↔ zs.Pairwise (First key name before)) := by
    intro zs hperm
    have hdiffer : zs.Pairwise fun x y => name x ≠ name y :=
      List.pairwise_map.mp ((hperm.map name).nodup_iff.mpr hnames)
    constructor
    · intro hsorted
      refine (hsorted.and hdiffer).imp fun {x y} h => ?_
      exact (first_or_first h.2).resolve_right ((hr x y).mp h.1)
    · exact fun hsorted => hsorted.imp fun {x y} h => (hr x y).mpr h.asymm
  constructor
  · rintro rfl
    have hperm := List.perm_insertionSort r xs
    exact ⟨hperm, (hfirst _ hperm).mp (List.pairwise_insertionSort r xs)⟩
  · rintro ⟨hperm, hsorted⟩
    have hsort := List.perm_insertionSort r xs
    refine (hsort.trans hperm.symm).eq_of_pairwise (fun x y _ _ hxy hyx => absurd hyx hxy.asymm)
      ((hfirst _ hsort).mp (List.pairwise_insertionSort r xs)) hsorted

end SortKeys
