import Doenerstag.Lib.Tables

/-!
# A set of links, replaced

A table of links has an owner and a target in each row. The links of one owner are replaced by a list of
targets in two statements: a delete of what the list does not have, and an insert of what is not there yet.
A row that stays is never touched.

* `clear`, `fill` — the two statements.
* `Replaced` — what replacing is to come to.
* `fill_clear_replaced` — **the two statements do that**, for every list, with repetitions or empty.
-/

namespace LinkSets

variable {ρ ο κ : Type} [DecidableEq ο] [DecidableEq κ] (owner : ρ → ο) (target : ρ → κ)

/-- `owner = … AND target <> ALL (…)`; of an empty list everything is unequal to all. -/
def stale (o : ο) (linked : List κ) (r : ρ) : Bool := owner r = o && linked.all fun k => target r ≠ k

/-- `DELETE` -/
def clear (o : ο) (linked : List κ) (rows : List ρ) : List ρ :=
  rows.filter fun r => !stale owner target o linked r

/-- The targets of the list that no row of the owner has; one that stands twice conflicts with itself. -/
def absent (o : ο) (linked : List κ) (rows : List ρ) : List κ :=
  (linked.filter fun k => !rows.any fun r => owner r = o && target r = k).eraseDups

/-- `INSERT … ON CONFLICT DO NOTHING` -/
def fill (o : ο) (make : κ → ρ) (linked : List κ) (rows : List ρ) : List ρ :=
  rows ++ (absent owner target o linked rows).map make

/-- The rows after the links of an owner were replaced. -/
structure Replaced (o : ο) (linked : List κ) (rows rows' : List ρ) : Prop where
  /-- the links are exactly those of the list -/
  exact : ∀ k, (∃ r ∈ rows', owner r = o ∧ target r = k) ↔ k ∈ linked
  /-- a link that was there and is still wanted keeps its row -/
  kept : ∀ r ∈ rows, owner r = o → target r ∈ linked → r ∈ rows'
  /-- a link that was there before has the row it had -/
  original : ∀ r ∈ rows, ∀ r' ∈ rows', owner r = o → owner r' = o → target r' = target r → r' ∈ rows
  /-- each link has one row -/
  once : (rows.map fun r => (owner r, target r)).Nodup → (rows'.map fun r => (owner r, target r)).Nodup
  others : rows'.filter (fun r => owner r ≠ o) = rows.filter (fun r => owner r ≠ o)

variable {owner target} {o : ο} {linked : List κ} {rows : List ρ} {make : κ → ρ}

theorem stale_iff {r : ρ} : stale owner target o linked r = true ↔ owner r = o ∧ target r ∉ linked := by
  unfold stale
  simp only [Bool.and_eq_true, decide_eq_true_eq, List.all_eq_true, ne_eq]
  constructor
  · exact fun h => ⟨h.1, fun hmem => h.2 _ hmem rfl⟩
  · exact fun h => ⟨h.1, fun k hk heq => h.2 (heq ▸ hk)⟩

theorem mem_clear {r : ρ} : r ∈ clear owner target o linked rows ↔
    r ∈ rows ∧ (owner r = o → target r ∈ linked) := by
  unfold clear
  rw [List.mem_filter, Bool.not_eq_true', Bool.eq_false_iff, ne_eq, stale_iff, not_and, not_not]

theorem mem_absent {k : κ} : k ∈ absent owner target o linked rows ↔
    k ∈ linked ∧ ∀ r ∈ rows, owner r = o → target r ≠ k := by
  unfold absent
  rw [List.mem_eraseDups, List.mem_filter]
  simp

theorem absent_nil : absent owner target o [] rows = [] := rfl

/-- **The delete of the complement and the insert of the rest replace the links.** -/
theorem fill_clear_replaced (howner : ∀ k, owner (make k) = o) (htarget : ∀ k, target (make k) = k) :
    Replaced owner target o linked rows
      (fill owner target o make linked (clear owner target o linked rows)) := by
  have hmem : ∀ r, r ∈ fill owner target o make linked (clear owner target o linked rows) ↔
      (r ∈ rows ∧ (owner r = o → target r ∈ linked)) ∨
        ∃ k ∈ absent owner target o linked (clear owner target o linked rows), make k = r := by
    intro r
    unfold fill
    rw [List.mem_append, mem_clear, List.mem_map]
  constructor
  case exact =>
    intro k
    constructor
    · rintro ⟨r, hr, hown, rfl⟩
      rcases (hmem r).mp hr with ⟨-, hlinked⟩ | ⟨k, hk, rfl⟩
      · exact hlinked hown
      · rw [htarget]
        exact (mem_absent.mp hk).1
    · intro hk
      by_cases hthere : ∃ r ∈ clear owner target o linked rows, owner r = o ∧ target r = k
      · obtain ⟨r, hr, hown, htar⟩ := hthere
        exact ⟨r, (hmem r).mpr (.inl (mem_clear.mp hr)), hown, htar⟩
      · -- no row has it, so one is inserted
        have habsent : k ∈ absent owner target o linked (clear owner target o linked rows) :=
          mem_absent.mpr ⟨hk, fun r hr hown htar => hthere ⟨r, hr, hown, htar⟩⟩
        exact ⟨make k, (hmem _).mpr (.inr ⟨k, habsent, rfl⟩), howner k, htarget k⟩
  case kept => exact fun r hr _ hlinked => (hmem r).mpr (.inl ⟨hr, fun _ => hlinked⟩)
  case original =>
    intro r hr r' hr' hown hown' hsame
    rcases (hmem r').mp hr' with ⟨hrows, -⟩ | ⟨k, hk, rfl⟩
    · exact hrows
    · -- the insert would have conflicted with the row that is there
      rw [htarget] at hsame
      obtain ⟨hlinked, hfree⟩ := mem_absent.mp hk
      refine absurd hsame.symm (hfree r (mem_clear.mpr ⟨hr, fun _ => hsame ▸ hlinked⟩) hown)
  case once =>
    intro hnodup
    unfold fill
    rw [List.map_append, List.nodup_append]
    refine ⟨(List.filter_sublist.map _).nodup hnodup, ?_, ?_⟩
    · rw [List.map_map]
      refine (Tables.nodup_eraseDups _).map fun a b hab => ?_
      have htargets := congrArg Prod.snd hab
      simpa [htarget] using htargets
    · intro key hold new hnew heq
      obtain ⟨r, hr, rfl⟩ := List.mem_map.mp hold
      obtain ⟨r', hr', rfl⟩ := List.mem_map.mp hnew
      obtain ⟨k, hk, rfl⟩ := List.mem_map.mp hr'
      obtain ⟨hown, htar⟩ := Prod.ext_iff.mp heq
      refine (mem_absent.mp hk).2 r hr ?_ ?_
      · exact hown.trans (howner k)
      · exact htar.trans (htarget k)
  case others =>
    unfold fill clear
    rw [List.filter_append, List.filter_filter]
    have hnew : ((absent owner target o linked (rows.filter fun r => !stale owner target o linked r)).map
        make).filter (fun r => decide (owner r ≠ o)) = [] := by
      rw [List.filter_eq_nil_iff]
      intro r hr
      obtain ⟨k, -, rfl⟩ := List.mem_map.mp hr
      simp [howner]
    rw [hnew, List.append_nil]
    refine List.filter_congr fun r _ => ?_
    by_cases hown : owner r = o
    · simp [hown]
    · simp [hown, stale]

end LinkSets
