import Mathlib.Data.List.Basic
import Mathlib.Data.List.Nodup

/-!
# Tables with foreign keys

A table is a list of rows. A reference is a nullable column that names a row of another table by
its key. Deleting rows from the table a reference points into has one of three consequences for the
rows that point at them: they are deleted too (`ON DELETE CASCADE`), they lose the reference
(`ON DELETE SET NULL`), or they forbid the deletion (`ON DELETE RESTRICT`).

* `Refers` — referential integrity: every reference names a row that is there.
* `gone`, `dangling` — the keys a deletion takes away, and the rows that named one of them.
* `Refers.cascade`, `Refers.setNull`, `Refers.restrict` — **each of the three actions keeps
  referential integrity**.
* `Refers.keep_child`, `Refers.map_child`, `Refers.map_parent` — so does any change that leaves the
  reference and the key alone.
-/

namespace Tables

variable {π χ κ : Type*}

/-- Every reference among `children` names a row of `parents`. -/
def Refers (ref : χ → Option κ) (key : π → κ) (children : List χ) (parents : List π) : Prop :=
  ∀ c ∈ children, ∀ k, ref c = some k → ∃ p ∈ parents, key p = k

instance [DecidableEq κ] (ref : χ → Option κ) (key : π → κ) (children : List χ)
    (parents : List π) : Decidable (Refers ref key children parents) :=
  decidable_of_iff (∀ c ∈ children, ∀ k ∈ ref c, ∃ p ∈ parents, key p = k) Iff.rfl

/-- The rows that `DELETE … WHERE doomed` leaves. -/
def keep (doomed : π → Bool) (rows : List π) : List π := rows.filter fun p => !doomed p

/-- The keys that `DELETE … WHERE doomed` takes away. -/
def gone [DecidableEq κ] (key : π → κ) (doomed : π → Bool) (parents : List π) (k : κ) : Bool :=
  parents.any fun p => doomed p && decide (key p = k)

/-- The row names a key that is gone. -/
def dangling (ref : χ → Option κ) (gone : κ → Bool) (c : χ) : Bool := (ref c).any gone

/-- `ON DELETE SET NULL`: the rows that named a key that is gone lose the reference. -/
def setNull (ref : χ → Option κ) (clear : χ → χ) (gone : κ → Bool) (children : List χ) : List χ :=
  children.map fun c => if dangling ref gone c then clear c else c

/-! ## What is left of a table -/

@[simp] theorem mem_keep {doomed : π → Bool} {rows : List π} {p : π} :
    p ∈ keep doomed rows ↔ p ∈ rows ∧ doomed p = false := by
  simp [keep]

theorem keep_sublist (doomed : π → Bool) (rows : List π) : (keep doomed rows).Sublist rows :=
  List.filter_sublist

theorem keep_eq_self {doomed : π → Bool} {rows : List π} (h : ∀ p ∈ rows, doomed p = false) :
    keep doomed rows = rows :=
  List.filter_eq_self.2 fun p hp => by simp [h p hp]

/-- A selection that no deleted row is in is what it was. -/
theorem filter_keep {doomed p : π → Bool} {rows : List π}
    (h : ∀ x ∈ rows, p x = true → doomed x = false) : (keep doomed rows).filter p = rows.filter p := by
  rw [keep, List.filter_filter]
  refine List.filter_congr fun x hx => ?_
  cases hp : p x with
  | false => rfl
  | true => simp [h x hx hp]

/-- A selection that no changed row is in is what it was. -/
theorem filter_map_untouched {change : π → π} {p : π → Bool} {rows : List π}
    (hsame : ∀ x ∈ rows, p (change x) = p x) (huntouched : ∀ x ∈ rows, p x = true → change x = x) :
    (rows.map change).filter p = rows.filter p := by
  induction rows with
  | nil => rfl
  | cons x rest ih =>
    have hrest := ih (fun y hy => hsame y (List.mem_cons_of_mem _ hy))
      fun y hy => huntouched y (List.mem_cons_of_mem _ hy)
    have hx := hsame x List.mem_cons_self
    rw [List.map_cons, List.filter_cons, List.filter_cons, hx, hrest]
    cases hp : p x with
    | false => simp
    | true => simp [huntouched x List.mem_cons_self hp]

/-- Replacing the rows with one key does not change what another key names. -/
theorem find?_map_other [BEq κ] [LawfulBEq κ] {key : π → κ} {new : π} {k k' : κ}
    (hnew : key new = k) (hk : k' ≠ k) (rows : List π) :
    (rows.map fun p => if key p == k then new else p).find? (fun p => key p == k') =
      rows.find? fun p => key p == k' := by
  induction rows with
  | nil => rfl
  | cons p rest ih =>
    rw [List.map_cons, List.find?_cons, List.find?_cons, ih]
    cases hp : key p == k with
    | false => simp
    | true =>
      have hold : (key p == k') = false := by
        rw [eq_of_beq hp]
        exact beq_false_of_ne (Ne.symm hk)
      have hreplaced : (key new == k') = false := by
        rw [hnew]
        exact beq_false_of_ne (Ne.symm hk)
      simp [hold, hreplaced]

/-- A key whose rows are replaced by rows with that key names the replacement of the row it
named. -/
theorem find?_map_same [BEq κ] [LawfulBEq κ] {key : π → κ} {f : π → π} {old : π} {k : κ}
    (hf : ∀ p, key p = k → key (f p) = k) {rows : List π}
    (h : rows.find? (fun p => key p == k) = some old) :
    (rows.map fun p => if key p == k then f p else p).find? (fun p => key p == k) =
      some (f old) := by
  induction rows with
  | nil => cases h
  | cons p rest ih =>
    rw [List.find?_cons] at h
    rw [List.map_cons, List.find?_cons]
    cases hp : key p == k with
    | true =>
      rw [hp] at h
      cases h
      have hkey : (key (f old) == k) = true := beq_iff_eq.mpr (hf old (eq_of_beq hp))
      simp [hkey]
    | false =>
      rw [hp] at h
      simpa [hp] using ih h

/-- A row with the key is among the rows. -/
theorem any_key [BEq κ] [LawfulBEq κ] {key : π → κ} {rows : List π} {k : κ} (h : ∃ p ∈ rows, key p = k) :
    (rows.any fun p => key p == k) = true := by
  obtain ⟨p, hp, hkey⟩ := h
  exact List.any_eq_true.mpr ⟨p, hp, beq_iff_eq.mpr hkey⟩

theorem any_key_eq_false [BEq κ] [LawfulBEq κ] {key : π → κ} {rows : List π} {k : κ} (h : ∀ p ∈ rows, key p ≠ k) :
    (rows.any fun p => key p == k) = false :=
  List.any_eq_false.mpr fun p hp heq => h p hp (beq_iff_eq.mp heq)

/-- A primary key names its row. -/
theorem find?_key [BEq κ] [LawfulBEq κ] {key : π → κ} {rows : List π} {p : π}
    (hkeys : (rows.map key).Nodup) (hp : p ∈ rows) :
    (rows.find? fun q => key q == key p) = some p := by
  induction rows with
  | nil => cases hp
  | cons q rest ih =>
    rw [List.map_cons, List.nodup_cons] at hkeys
    rw [List.find?_cons]
    rcases List.mem_cons.mp hp with rfl | hrest
    · simp
    · have hne : key q ≠ key p := fun heq => hkeys.1 (heq ▸ List.mem_map_of_mem hrest)
      rw [beq_false_of_ne hne]
      exact ih hkeys.2 hrest

/-- Rows that are changed under their keys are found under them. -/
theorem find?_map_key [BEq κ] {key : π → κ} {f : π → π} (hf : ∀ p, key (f p) = key p)
    (rows : List π) (k : κ) :
    (rows.map f).find? (fun p => key p == k) = (rows.find? fun p => key p == k).map f := by
  rw [List.find?_map]
  simp only [Function.comp_def, hf]

theorem nodup_keep {key : π → κ} {doomed : π → Bool} {rows : List π}
    (h : (rows.map key).Nodup) : ((keep doomed rows).map key).Nodup :=
  h.sublist ((keep_sublist doomed rows).map key)

/-- What a key names after a deletion. -/
theorem find?_keep [BEq κ] [LawfulBEq κ] {key : π → κ} {doomed : π → Bool} {rows : List π} {p : π}
    (hkeys : (rows.map key).Nodup) (hp : p ∈ rows) :
    (keep doomed rows).find? (fun q => key q == key p) = if doomed p then none else some p := by
  cases hd : doomed p with
  | false => exact find?_key (nodup_keep hkeys) (mem_keep.mpr ⟨hp, hd⟩)
  | true =>
    rw [if_pos rfl, List.find?_eq_none]
    intro q hq hkey
    obtain ⟨hmem, hkept⟩ := mem_keep.mp hq
    have hsame : q = p := List.inj_on_of_nodup_map hkeys hmem hp (eq_of_beq hkey)
    rw [hsame, hd] at hkept
    cases hkept

/-- The keys of the rows a condition selects are the keys of those rows only. -/
theorem contains_selected [BEq κ] [LawfulBEq κ] {key : π → κ} {selected : π → Bool} {rows : List π}
    {p : π} (hkeys : (rows.map key).Nodup) (hp : p ∈ rows) :
    ((rows.filter selected).map key).contains (key p) = selected p := by
  rw [Bool.eq_iff_iff, List.contains_iff_mem, List.mem_map]
  constructor
  · rintro ⟨q, hq, hkey⟩
    obtain ⟨hmem, hselected⟩ := List.mem_filter.mp hq
    have hsame : q = p := List.inj_on_of_nodup_map hkeys hmem hp hkey
    rwa [hsame] at hselected
  · intro hselected
    exact ⟨p, List.mem_filter.mpr ⟨hp, hselected⟩, rfl⟩

theorem gone_eq_false [DecidableEq κ] {key : π → κ} {doomed : π → Bool} {parents : List π} {k : κ} :
    gone key doomed parents k = false ↔ ∀ p ∈ parents, key p = k → doomed p = false := by
  simp only [gone, List.any_eq_false, Bool.and_eq_true, decide_eq_true_eq, not_and]
  exact ⟨fun h p hp hk => Bool.eq_false_iff.2 fun hd => h p hp hd hk,
    fun h p hp hd hk => by simp [h p hp hk] at hd⟩

theorem dangling_eq_false {ref : χ → Option κ} {gone : κ → Bool} {c : χ} :
    dangling ref gone c = false ↔ ∀ k, ref c = some k → gone k = false := by
  cases h : ref c <;> simp [dangling, h]

theorem setNull_eq_self {ref : χ → Option κ} {clear : χ → χ} {gone : κ → Bool}
    {children : List χ} (h : ∀ c ∈ children, dangling ref gone c = false) :
    setNull ref clear gone children = children := by
  rw [setNull]
  exact (List.map_congr_left fun c hc => by simp [h c hc]).trans (List.map_id _)

theorem setNull_map {α : Type*} {ref : χ → Option κ} (clear : χ → χ) {gone : κ → Bool}
    {f : χ → α} (hclear : ∀ c, f (clear c) = f c) (children : List χ) :
    (setNull ref clear gone children).map f = children.map f := by
  rw [setNull, List.map_map]
  refine List.map_congr_left fun c _ => ?_
  by_cases hc : dangling ref gone c <;> simp [hc, hclear]

/-- A row of the table afterwards is a row that was there, as it was or without the reference. -/
theorem mem_setNull {ref : χ → Option κ} {clear : χ → χ} {gone : κ → Bool} {children : List χ}
    {c : χ} (h : c ∈ setNull ref clear gone children) :
    ∃ c₀ ∈ children, (dangling ref gone c₀ = true ∧ c = clear c₀) ∨
      (dangling ref gone c₀ = false ∧ c = c₀) := by
  obtain ⟨c₀, hc₀, rfl⟩ := List.mem_map.1 h
  refine ⟨c₀, hc₀, ?_⟩
  cases hd : dangling ref gone c₀ <;> simp

/-- No row that is left names a key that is gone. -/
theorem any_dangling_keep (ref : χ → Option κ) (gone : κ → Bool) (children : List χ) :
    (keep (dangling ref gone) children).any (dangling ref gone) = false := by
  rw [List.any_eq_false]
  intro c hc
  simp [(mem_keep.1 hc).2]

theorem any_dangling_setNull {κ' : Type*} {ref : χ → Option κ} {ref' : χ → Option κ'}
    {lost : κ → Bool} {gone : κ' → Bool} {children : List χ} (clear : χ → χ)
    (hclear : ∀ c, ref' (clear c) = ref' c) (h : children.any (dangling ref' gone) = false) :
    (setNull ref clear lost children).any (dangling ref' gone) = false := by
  rw [List.any_eq_false] at h ⊢
  intro c hc
  obtain ⟨c₀, hc₀, ⟨-, rfl⟩ | ⟨-, rfl⟩⟩ := mem_setNull hc
  · rw [dangling, hclear]
    exact h c₀ hc₀
  · exact h c hc₀

/-! ## Deleting nothing -/

theorem gone_eq_none [DecidableEq κ] {key : π → κ} {doomed : π → Bool} {parents : List π}
    (h : ∀ p ∈ parents, doomed p = false) : gone key doomed parents = fun _ => false :=
  funext fun _ => gone_eq_false.2 fun p hp _ => h p hp

@[simp] theorem dangling_none (ref : χ → Option κ) :
    dangling ref (fun _ => false) = fun _ => false :=
  funext fun _ => dangling_eq_false.2 fun _ _ => rfl

@[simp] theorem keep_none (rows : List π) : keep (fun _ => false) rows = rows :=
  keep_eq_self fun _ _ => rfl

@[simp] theorem setNull_none (ref : χ → Option κ) (clear : χ → χ) (children : List χ) :
    setNull ref clear (fun _ => false) children = children :=
  setNull_eq_self fun _ _ => by simp

/-- Rows that nothing refers to are not missed. -/
theorem dangling_of_unreferenced [DecidableEq κ] {ref : χ → Option κ} {key : π → κ}
    {doomed : π → Bool} {children : List χ} {parents : List π}
    (h : ∀ p ∈ parents, doomed p = true → ∀ c ∈ children, ref c ≠ some (key p)) :
    ∀ c ∈ children, dangling ref (gone key doomed parents) c = false := by
  intro c hc
  rw [dangling_eq_false]
  intro k hk
  rw [gone_eq_false]
  intro p hp hkey
  by_contra hdoomed
  exact h p hp (by simpa using hdoomed) c hc (by rw [hk, hkey])

/-! ## Referential integrity -/

namespace Refers

variable {ref : χ → Option κ} {key : π → κ} {children : List χ} {parents : List π}

/-- A reference that is not to a deleted key still has its row. -/
theorem survives [DecidableEq κ] (h : Refers ref key children parents) {doomed : π → Bool} {c : χ}
    (hc : c ∈ children) (hkept : dangling ref (gone key doomed parents) c = false) {k : κ}
    (hk : ref c = some k) : ∃ p ∈ keep doomed parents, key p = k := by
  obtain ⟨p, hp, hkey⟩ := h c hc k hk
  have hnot := gone_eq_false.1 (dangling_eq_false.1 hkept k hk) p hp hkey
  exact ⟨p, mem_keep.2 ⟨hp, hnot⟩, hkey⟩

/-- **`ON DELETE CASCADE` keeps integrity.** -/
theorem cascade [DecidableEq κ] (h : Refers ref key children parents) (doomed : π → Bool) :
    Refers ref key (keep (dangling ref (gone key doomed parents)) children)
      (keep doomed parents) := by
  intro c hc k hk
  obtain ⟨hmem, hkept⟩ := mem_keep.1 hc
  exact h.survives hmem hkept hk

/-- **`ON DELETE SET NULL` keeps integrity.** -/
theorem setNull [DecidableEq κ] (h : Refers ref key children parents) (doomed : π → Bool) (clear : χ → χ)
    (hclear : ∀ c, ref (clear c) = none) :
    Refers ref key (Tables.setNull ref clear (gone key doomed parents) children)
      (keep doomed parents) := by
  intro c hc k hk
  obtain ⟨c₀, hc₀, ⟨-, rfl⟩ | ⟨hkept, rfl⟩⟩ := mem_setNull hc
  · rw [hclear] at hk
    cases hk
  · exact h.survives hc₀ hkept hk

/-- **`ON DELETE RESTRICT` keeps integrity**, since it forbids what would break it. -/
theorem restrict [DecidableEq κ] (h : Refers ref key children parents) {doomed : π → Bool}
    (hfree : children.any (dangling ref (gone key doomed parents)) = false) :
    Refers ref key children (keep doomed parents) := by
  intro c hc k hk
  have hkept := List.any_eq_false.1 hfree c hc
  exact h.survives hc (Bool.eq_false_iff.2 hkept) hk

theorem keep_child (h : Refers ref key children parents) (doomed : χ → Bool) :
    Refers ref key (keep doomed children) parents :=
  fun c hc => h c (mem_keep.1 hc).1

/-- Clearing one column of the children leaves the references of another alone. -/
theorem map_child {κ' : Type*} {ref' : χ → Option κ'} {lost : κ' → Bool}
    (h : Refers ref key children parents) (clear : χ → χ) (hclear : ∀ c, ref (clear c) = ref c) :
    Refers ref key (Tables.setNull ref' clear lost children) parents := by
  intro c hc k hk
  obtain ⟨c₀, hc₀, ⟨-, rfl⟩ | ⟨-, rfl⟩⟩ := mem_setNull hc
  · exact h c₀ hc₀ k (hclear c₀ ▸ hk)
  · exact h c hc₀ k hk

/-- Clearing a column of the parents leaves their keys alone. -/
theorem map_parent {κ' : Type*} {ref' : π → Option κ'} {lost : κ' → Bool}
    (h : Refers ref key children parents) (clear : π → π) (hclear : ∀ p, key (clear p) = key p) :
    Refers ref key children (Tables.setNull ref' clear lost parents) := by
  intro c hc k hk
  obtain ⟨p, hp, hkey⟩ := h c hc k hk
  refine ⟨_, List.mem_map_of_mem hp, ?_⟩
  by_cases hd : dangling ref' lost p <;> simp [hd, hclear, hkey]

end Refers

/-! ## Lists without repetitions -/

/-- Each element once. -/
theorem nodup_eraseDups {α : Type*} [BEq α] [LawfulBEq α] (xs : List α) : xs.eraseDups.Nodup := by
  induction hn : xs.length using Nat.strongRecOn generalizing xs with
  | ind n ih =>
    cases xs with
    | nil => simp
    | cons x rest =>
      have hshorter : (rest.filter fun y => !y == x).length < n := by
        have hle := List.length_filter_le (fun y => !y == x) rest
        rw [List.length_cons] at hn
        omega
      rw [List.eraseDups_cons, List.nodup_cons]
      exact ⟨by simp, ih _ hshorter _ rfl⟩

end Tables
