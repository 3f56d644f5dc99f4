import Mathlib.Data.List.Induction
import Mathlib.Data.List.Nodup
import Mathlib.Data.List.Perm.Basic
import Mathlib.Algebra.BigOperators.Group.List.Basic

/-!
# Grouping by key, in order of first appearance

The loop that groups a list with a map of accumulators and a list of the keys in the
order in which they were first seen:

```
for x in xs:
    if key(x) not in lines: lines[key(x)] = create(x); order.append(key(x))
    lines[key(x)] = extend(lines[key(x)], x)
return [lines[k] for k in order]
```

* `Groups.visit` is one iteration, `groupFold` the loop, `Groups.collect` the list it ends with;
* `groupFold_lines`: the accumulator of `k` is the fold of `extend` over the elements with key `k`;
* `collect_forall₂`: the collected list runs parallel to a duplicate-free list of keys, and no
  group is empty;
* `flatMap_bucket_perm`: the groups are a partition of the input;
* `collect_sum`: a quantity that `create` starts at zero and `extend` adds to is conserved.
-/

namespace GroupFold

variable {α β κ : Type*} [DecidableEq κ]

/-- A map of accumulators together with its keys in order of insertion. -/
structure Groups (κ β : Type*) where
  lines : κ → Option β
  order : List κ

/-- No accumulators and no keys. -/
def Groups.empty : Groups κ β := { lines := fun _ => none, order := [] }

section Loop

variable (key : α → κ) (create : α → β) (extend : β → α → β)

/-- One iteration: the accumulator of the element's key, created if it is missing, takes the
element in. -/
def Groups.visit (g : Groups κ β) (x : α) : Groups κ β :=
  match g.lines (key x) with
  | some line => { g with lines := Function.update g.lines (key x) (some (extend line x)) }
  | none =>
    { lines := Function.update g.lines (key x) (some (extend (create x) x))
      order := g.order ++ [key x] }

/-- The loop. -/
def groupFold (xs : List α) : Groups κ β :=
  xs.foldl (Groups.visit key create extend) Groups.empty

/-- The accumulators in the order in which their keys were first seen. -/
def Groups.collect (g : Groups κ β) : List β := g.order.filterMap g.lines

/-- The elements with key `k`, in their order. -/
def bucket (k : κ) (xs : List α) : List α := xs.filter fun x => key x = k

/-- The accumulator a group of elements ends with: created from the first one, extended by all. -/
def summarise : List α → Option β
  | [] => none
  | x :: xs => some ((x :: xs).foldl extend (create x))

theorem bucket_append (k : κ) (xs ys : List α) :
    bucket key k (xs ++ ys) = bucket key k xs ++ bucket key k ys :=
  List.filter_append _ _

theorem mem_bucket {k : κ} {xs : List α} {x : α} : x ∈ bucket key k xs ↔ x ∈ xs ∧ key x = k := by
  simp [bucket]

theorem summarise_append_singleton (xs : List α) (x : α) :
    summarise create extend (xs ++ [x]) =
      some (extend ((summarise create extend xs).getD (create x)) x) := by
  cases xs with
  | nil => rfl
  | cons y ys => simp [summarise]

theorem summarise_eq_none {xs : List α} : summarise create extend xs = none ↔ xs = [] := by
  cases xs <;> simp [summarise]

theorem groupFold_concat (xs : List α) (x : α) :
    groupFold key create extend (xs ++ [x]) =
      (groupFold key create extend xs).visit key create extend x := by
  simp [groupFold]

/-! ## What the map and the key list hold

Both facts are an induction on the list from its end: the last element is the one the last
iteration visits. -/

/-- **The accumulator of a key.** After the loop the map holds, for every key, what its bucket
comes to. -/
theorem groupFold_lines (xs : List α) (k : κ) :
    (groupFold key create extend xs).lines k = summarise create extend (bucket key k xs) := by
  induction xs using List.reverseRecOn with
  | nil => rfl
  | append_singleton xs x ih =>
    rw [groupFold_concat, bucket_append]
    by_cases hk : key x = k
    · subst hk
      have hlast : bucket key (key x) [x] = [x] := by simp [bucket]
      rw [hlast, summarise_append_singleton, ← ih]
      cases hline : (groupFold key create extend xs).lines (key x) with
      | none => simp [Groups.visit, hline]
      | some line => simp [Groups.visit, hline]
    · have hlast : bucket key k [x] = [] := by simp [bucket, hk]
      rw [hlast, List.append_nil, ← ih]
      have hne : k ≠ key x := fun h => hk h.symm
      cases hline : (groupFold key create extend xs).lines (key x) with
      | none => simp [Groups.visit, hline, hne]
      | some line => simp [Groups.visit, hline, hne]

theorem lines_isSome_iff (xs : List α) (k : κ) :
    ((groupFold key create extend xs).lines k).isSome ↔ ∃ x ∈ xs, key x = k := by
  rw [groupFold_lines, Option.isSome_iff_ne_none, ne_eq, summarise_eq_none,
    List.eq_nil_iff_forall_not_mem]
  simp [mem_bucket]

theorem mem_order_iff (xs : List α) (k : κ) :
    k ∈ (groupFold key create extend xs).order ↔ ∃ x ∈ xs, key x = k := by
  induction xs using List.reverseRecOn with
  | nil => simp [groupFold, Groups.empty]
  | append_singleton xs x ih =>
    rw [groupFold_concat]
    cases hline : (groupFold key create extend xs).lines (key x) with
    | none => simp [Groups.visit, hline, ih, or_and_right, exists_or, eq_comm]
    | some line =>
      have hseen : ∃ y ∈ xs, key y = key x := by
        rw [← lines_isSome_iff key create extend, hline, Option.isSome_some]
      simp only [Groups.visit, hline, ih, List.mem_append, List.mem_singleton, or_and_right,
        exists_or, exists_eq_left]
      constructor
      · exact Or.inl
      · rintro (h | rfl)
        · exact h
        · exact hseen

/-- No key is listed twice. -/
theorem order_nodup (xs : List α) : (groupFold key create extend xs).order.Nodup := by
  induction xs using List.reverseRecOn with
  | nil => simp [groupFold, Groups.empty]
  | append_singleton xs x ih =>
    rw [groupFold_concat]
    cases hline : (groupFold key create extend xs).lines (key x) with
    | some line => simpa [Groups.visit, hline] using ih
    | none =>
      have hnew : key x ∉ (groupFold key create extend xs).order := by
        rw [mem_order_iff, ← lines_isSome_iff key create extend, hline]
        simp
      simp only [Groups.visit, hline]
      exact List.Nodup.append ih (List.nodup_singleton _) (List.disjoint_singleton.2 hnew)

/-! ## The collected list -/

/-- The accumulators of a list of keys, each with its bucket: parallel, when every key occurs. -/
theorem filterMap_summarise_forall₂ (xs : List α) (ks : List κ)
    (hks : ∀ k ∈ ks, ∃ x ∈ xs, key x = k) :
    List.Forall₂ (fun line k => summarise create extend (bucket key k xs) = some line)
      (ks.filterMap fun k => summarise create extend (bucket key k xs)) ks := by
  induction ks with
  | nil => simp
  | cons k ks ih =>
    have hrest := ih fun k' hk' => hks k' (List.mem_cons_of_mem k hk')
    obtain ⟨x, hx, hkey⟩ := hks k List.mem_cons_self
    cases hline : summarise create extend (bucket key k xs) with
    | none =>
      rw [summarise_eq_none] at hline
      have hmem : x ∈ bucket key k xs := (mem_bucket key).2 ⟨hx, hkey⟩
      simp [hline] at hmem
    | some line =>
      simp only [List.filterMap_cons, hline]
      exact .cons hline hrest

/-- **The collected list, group by group.** It runs parallel to the keys: each line is what the
elements with that key come to. -/
theorem collect_forall₂ (xs : List α) :
    List.Forall₂ (fun line k => summarise create extend (bucket key k xs) = some line)
      (groupFold key create extend xs).collect (groupFold key create extend xs).order := by
  have hlines : (groupFold key create extend xs).lines =
      fun k => summarise create extend (bucket key k xs) :=
    funext (groupFold_lines key create extend xs)
  rw [Groups.collect, hlines]
  exact filterMap_summarise_forall₂ key create extend xs _
    fun k hk => (mem_order_iff key create extend xs k).1 hk

/-- The buckets of a duplicate-free list of keys that covers the elements hold every element
exactly once. Induction on the keys: the first one takes its bucket out of the list. -/
theorem flatMap_bucket_perm (ks : List κ) (hnd : ks.Nodup) (xs : List α)
    (hall : ∀ x ∈ xs, key x ∈ ks) : (ks.flatMap fun k => bucket key k xs).Perm xs := by
  induction ks generalizing xs with
  | nil =>
    have hxs : xs = [] := List.eq_nil_iff_forall_not_mem.2 fun x hx => by simpa using hall x hx
    simp [hxs]
  | cons k ks ih =>
    obtain ⟨hk, hnd⟩ := List.nodup_cons.1 hnd
    set rest := xs.filter fun x => !decide (key x = k) with hrest
    have hbuckets : ∀ k' ∈ ks, bucket key k' rest = bucket key k' xs := by
      intro k' hk'
      have hne : k' ≠ k := fun h => hk (h ▸ hk')
      rw [bucket, hrest, List.filter_filter]
      refine List.filter_congr fun x _ => ?_
      by_cases hx : key x = k'
      · simp [hx, hne]
      · simp [hx]
    have hcover : ∀ x ∈ rest, key x ∈ ks := by
      intro x hx
      obtain ⟨hmem, hne⟩ := List.mem_filter.1 hx
      have hne : key x ≠ k := by simpa using hne
      exact (List.mem_cons.1 (hall x hmem)).resolve_left hne
    have htail : (ks.flatMap fun k' => bucket key k' xs).Perm rest := by
      rw [← List.flatMap_congr hbuckets]
      exact ih hnd rest hcover
    rw [List.flatMap_cons]
    exact (htail.append_left _).trans (List.filter_append_perm _ xs)

/-- **The groups are a partition.** -/
theorem groupFold_partition (xs : List α) :
    ((groupFold key create extend xs).order.flatMap fun k => bucket key k xs).Perm xs :=
  flatMap_bucket_perm key _ (order_nodup key create extend xs) xs
    fun x hx => (mem_order_iff key create extend xs _).2 ⟨x, hx, rfl⟩

end Loop

/-! ## Conserved quantities -/

section Measure

variable {M : Type*} [AddCommMonoid M]
  {key : α → κ} {create : α → β} {extend : β → α → β} {f : β → M} {g : α → M}

theorem foldl_extend_measure (hextend : ∀ line x, f (extend line x) = f line + g x)
    (xs : List α) (line : β) : f (xs.foldl extend line) = f line + (xs.map g).sum := by
  induction xs generalizing line with
  | nil => simp
  | cons x xs ih => simp [ih, hextend, add_assoc]

/-- What a line holds of the quantity is what its elements bring. -/
theorem summarise_measure (hcreate : ∀ x, f (create x) = 0)
    (hextend : ∀ line x, f (extend line x) = f line + g x) {xs : List α} {line : β}
    (hline : summarise create extend xs = some line) : f line = (xs.map g).sum := by
  cases xs with
  | nil => simp [summarise] at hline
  | cons x xs =>
    rw [← Option.some.inj hline, foldl_extend_measure hextend, hcreate, zero_add]

/-- **Conservation.** A quantity that a new accumulator has none of, and to which every element
adds its share, sums over the lines to what it sums to over the elements. -/
theorem collect_sum (hcreate : ∀ x, f (create x) = 0)
    (hextend : ∀ line x, f (extend line x) = f line + g x) (xs : List α) :
    ((groupFold key create extend xs).collect.map f).sum = (xs.map g).sum := by
  have hlines : ∀ (lines : List β) (ks : List κ),
      List.Forall₂ (fun line k => summarise create extend (bucket key k xs) = some line) lines ks →
      (lines.map f).sum = ((ks.flatMap fun k => bucket key k xs).map g).sum := by
    intro lines ks h
    induction h with
    | nil => simp
    | cons hline _ ih => simp [ih, summarise_measure hcreate hextend hline]
  rw [hlines _ _ (collect_forall₂ key create extend xs)]
  exact ((groupFold_partition key create extend xs).map g).sum_eq

end Measure

end GroupFold
