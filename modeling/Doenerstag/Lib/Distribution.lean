import Mathlib.Data.List.Induction
import Mathlib.Data.List.Nodup
import Mathlib.Logic.Function.Basic

/-!
# Rows distributed over items

Items are read first, and then rows that belong to them. An index from keys to positions is built in one
pass over the items; each row is attached to the item at the position of its key.

* `indexOf`, `distribute` — the two loops.
* `locates_indexOf` — of items with different keys the index has every position.
* `rowsUnder_map`, `rowsUnder_perm` — what stands under a key, when the rows are changed or sorted.
* `distribute_eq_map` — **each item then has the rows under its own key, in their order, and no others.**
-/

namespace Distribution

variable {ι κ α : Type} [DecidableEq κ]

/-- `for i := range items { index[key] = &items[i] }` -/
def indexOf (key : ι → κ) (items : List ι) : κ → Option Nat :=
  items.zipIdx.foldl (fun index p => Function.update index (key p.1) (some p.2)) fun _ => none

/-- `for rows.Next() { if item, ok := index[k]; ok { … } }` -/
def distribute (index : κ → Option Nat) (attach : ι → α → ι) (items : List ι) (rows : List (κ × α)) :
    List ι :=
  rows.foldl (fun items r => (index r.1).elim items fun i => items.modify i (attach · r.2)) items

/-- What stands under a key -/
def rowsUnder (k : κ) (rows : List (κ × α)) : List α := (rows.filter fun r => r.1 = k).map Prod.snd

/-- The index has the position of every key. -/
def Locates (index : κ → Option Nat) (keys : List κ) : Prop := ∀ k i, index k = some i ↔ keys[i]? = some k

/-! ## The index -/

omit [DecidableEq κ] in
theorem locates_nil : Locates (fun _ : κ => none) [] := by
  intro k i
  simp

theorem locates_concat {index : κ → Option Nat} {keys : List κ} {k : κ} (h : Locates index keys)
    (hnew : k ∉ keys) : Locates (Function.update index k (some keys.length)) (keys ++ [k]) := by
  intro k' i
  by_cases hk : k' = k
  · subst hk
    rw [Function.update_self, List.getElem?_append]
    split_ifs with hi
    · have hother : keys[i]? ≠ some k' := fun hget => hnew (List.mem_of_getElem? hget)
      simp only [hother, iff_false, Option.some.injEq]
      omega
    · rw [Option.some.injEq, List.getElem?_singleton]
      split_ifs with hlast
      · simp only [iff_true]
        omega
      · simp only [iff_false]
        omega
  · rw [Function.update_of_ne hk, h k' i, List.getElem?_append]
    split_ifs with hi
    · rfl
    · have hnone : keys[i]? = none := List.getElem?_eq_none (Nat.le_of_not_lt hi)
      rw [hnone, List.getElem?_singleton]
      split_ifs with hlast
      · simp [Ne.symm hk]
      · simp

theorem indexOf_concat (key : ι → κ) (items : List ι) (m : ι) :
    indexOf key (items ++ [m]) = Function.update (indexOf key items) (key m) (some items.length) := by
  unfold indexOf
  rw [List.zipIdx_append, List.foldl_append]
  simp

theorem locates_indexOf {key : ι → κ} {items : List ι} (hkeys : (items.map key).Nodup) :
    Locates (indexOf key items) (items.map key) := by
  induction items using List.reverseRecOn with
  | nil => exact locates_nil
  | append_singleton items m ih =>
    rw [List.map_append, List.map_singleton] at hkeys ⊢
    obtain ⟨hfirst, -, hdisjoint⟩ := List.nodup_append.mp hkeys
    have hnew : key m ∉ items.map key := fun hmem => hdisjoint _ hmem _ (List.mem_singleton.mpr rfl) rfl
    have hconcat := locates_concat (ih hfirst) hnew
    rw [List.length_map] at hconcat
    rw [indexOf_concat]
    exact hconcat

/-! ## The rows -/

variable {index : κ → Option Nat} {key : ι → κ} {attach : ι → α → ι} {items : List ι}

/-- One row changes the item under its key. -/
theorem modify_located (h : Locates index (items.map key)) (k : κ) (f : ι → ι) :
    ((index k).elim items fun i => items.modify i f) = items.map fun m => if key m = k then f m else m := by
  cases hk : index k with
  | none =>
    -- nothing stands under the key
    have hother : ∀ m ∈ items, key m ≠ k := by
      intro m hm hkey
      obtain ⟨i, hi⟩ := List.mem_iff_getElem?.mp (List.mem_map_of_mem (f := key) hm)
      rw [hkey] at hi
      rw [(h k i).mpr hi] at hk
      cases hk
    symm
    show items.map _ = items
    calc items.map (fun m => if key m = k then f m else m)
        = items.map id := List.map_congr_left fun m hm => if_neg (hother m hm)
      _ = items := List.map_id items
  | some i =>
    show items.modify i f = _
    apply List.ext_getElem?
    intro j
    rw [List.getElem?_modify, List.getElem?_map]
    cases hj : items[j]? with
    | none => simp
    | some m =>
      have hkey : key m = k ↔ i = j := by
        have hget : (items.map key)[j]? = some (key m) := by rw [List.getElem?_map, hj]; rfl
        constructor
        · intro hm
          rw [hm] at hget
          have hboth := (h k j).mpr hget
          rw [hk] at hboth
          exact Option.some.inj hboth
        · rintro rfl
          have hthere := (h k i).mp hk
          rw [hget] at hthere
          exact Option.some.inj hthere
      by_cases hi : i = j
      · simp [hi, hkey.mpr hi]
      · simp [hi, mt hkey.mp hi]

theorem rowsUnder_cons (k : κ) (r : κ × α) (rows : List (κ × α)) :
    rowsUnder k (r :: rows) = if r.1 = k then r.2 :: rowsUnder k rows else rowsUnder k rows := by
  unfold rowsUnder
  rw [List.filter_cons]
  by_cases hk : r.1 = k
  · simp [hk]
  · simp [hk]

theorem mem_rowsUnder {k : κ} {a : α} {rows : List (κ × α)} : a ∈ rowsUnder k rows ↔ (k, a) ∈ rows := by
  simp [rowsUnder]

theorem rowsUnder_map {β : Type} (k : κ) (f : α → β) (rows : List (κ × α)) :
    rowsUnder k (rows.map fun r => (r.1, f r.2)) = (rowsUnder k rows).map f := by
  unfold rowsUnder
  rw [List.filter_map, List.map_map, List.map_map]
  rfl

theorem rowsUnder_perm {rows rows' : List (κ × α)} (h : rows.Perm rows') (k : κ) :
    (rowsUnder k rows).Perm (rowsUnder k rows') :=
  (h.filter _).map _

/-- **Each item has the rows under its own key**, whatever the rows and their order. -/
theorem distribute_eq_map (hattach : ∀ m a, key (attach m a) = key m) (rows : List (κ × α)) :
    ∀ {items : List ι}, Locates index (items.map key) →
      distribute index attach items rows = items.map fun m => (rowsUnder (key m) rows).foldl attach m := by
  induction rows with
  | nil =>
    intro items _
    exact (List.map_id items).symm
  | cons r rows ih =>
    intro items h
    have hkeys : (items.map fun m => if key m = r.1 then attach m r.2 else m).map key = items.map key := by
      rw [List.map_map]
      refine List.map_congr_left fun m _ => ?_
      show key (if key m = r.1 then attach m r.2 else m) = key m
      split_ifs
      · exact hattach m r.2
      · rfl
    calc distribute index attach items (r :: rows)
        = distribute index attach (items.map fun m => if key m = r.1 then attach m r.2 else m) rows := by
          rw [← modify_located h]
          rfl
      _ = (items.map fun m => if key m = r.1 then attach m r.2 else m).map
            fun m => (rowsUnder (key m) rows).foldl attach m := ih (hkeys.symm ▸ h)
      _ = items.map fun m => (rowsUnder (key m) (r :: rows)).foldl attach m := by
          rw [List.map_map]
          refine List.map_congr_left fun m _ => ?_
          show (rowsUnder (key (if key m = r.1 then attach m r.2 else m)) rows).foldl attach
            (if key m = r.1 then attach m r.2 else m) = _
          rw [rowsUnder_cons]
          by_cases hk : key m = r.1
          · rw [if_pos hk, if_pos hk.symm, hattach]
            rfl
          · rw [if_neg hk, if_neg (Ne.symm hk)]

end Distribution
