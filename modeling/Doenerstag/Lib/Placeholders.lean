import Mathlib.Data.List.Basic

/-!
# Clauses with numbered placeholders

A statement is put together clause by clause. Each clause takes one argument, which it names by its place in
the list of arguments; the text and the list grow side by side.

* `Clauses` — what has been put together, no clause naming an argument that is not there.
* `Clauses.values` — the clauses with what their placeholders are bound to.
* `Clauses.values_add`, `Clauses.values_whenGiven` — each clause gets the argument it was added with.
* `Clauses.bound_append` — arguments that come after change nothing for it.
-/

namespace Placeholders

variable {κ α β : Type}

/-- The argument that `$n` stands for; they are counted from one. -/
def bound (args : List α) : Nat → Option α
  | 0 => none
  | n + 1 => args[n]?

theorem bound_append {args : List α} {n : Nat} (h : n ≤ args.length) (more : List α) :
    bound (args ++ more) n = bound args n := by
  cases n with
  | zero => rfl
  | succ n => exact List.getElem?_append_left h

/-- The last argument -/
theorem bound_last (args : List α) (a : α) : bound (args ++ [a]) (args.length + 1) = some a :=
  List.getElem?_concat_length

structure Clauses (κ α : Type) where
  clauses : List (κ × Nat)
  args : List α
  inRange : ∀ c ∈ clauses, c.2 ≤ args.length

namespace Clauses

def empty : Clauses κ α where
  clauses := []
  args := []
  inRange := fun _ hc => absurd hc List.not_mem_nil

/-- The argument goes to the end of the list, and the clause gets the number that this makes. -/
def add (s : Clauses κ α) (clause : κ) (value : α) : Clauses κ α where
  clauses := s.clauses ++ [(clause, s.args.length + 1)]
  args := s.args ++ [value]
  inRange := by
    intro c hc
    rw [List.length_append]
    rcases List.mem_append.mp hc with hc | hc
    · have hle := s.inRange c hc
      omega
    · rw [List.mem_singleton.mp hc]
      exact Nat.le_refl _

/-- `if x != nil { … }` -/
def whenGiven (s : Clauses κ α) (given : Option β) (f : Clauses κ α → β → Clauses κ α) : Clauses κ α :=
  match given with
  | none => s
  | some b => f s b

/-- Each clause with what it is bound to in a list of arguments -/
def valuesIn (s : Clauses κ α) (args : List α) : List (κ × Option α) :=
  s.clauses.map fun c => (c.1, bound args c.2)

def values (s : Clauses κ α) : List (κ × Option α) := s.valuesIn s.args

theorem values_empty : (empty : Clauses κ α).values = [] := rfl

/-- Arguments that are added later leave the clauses as they are. -/
theorem valuesIn_append (s : Clauses κ α) (more : List α) : s.valuesIn (s.args ++ more) = s.values := by
  refine List.map_congr_left fun c hc => ?_
  rw [bound_append (s.inRange c hc)]

theorem values_add (s : Clauses κ α) (clause : κ) (value : α) :
    (s.add clause value).values = s.values ++ [(clause, some value)] := by
  show (s.clauses ++ [_]).map _ = _
  rw [List.map_append, ← s.valuesIn_append [value]]
  show _ ++ [(clause, bound (s.args ++ [value]) (s.args.length + 1))] = _
  rw [bound_last]
  rfl

/-- Clauses that are only there with what they need -/
theorem values_whenGiven {s : Clauses κ α} {given : Option β} {f : Clauses κ α → β → Clauses κ α}
    {more : β → List (κ × Option α)} (h : ∀ b, (f s b).values = s.values ++ more b) :
    (s.whenGiven given f).values = s.values ++ given.elim [] more := by
  cases given with
  | none => exact (List.append_nil _).symm
  | some b => exact h b

/-- The clause of a field, with the argument its number names -/
def ifGiven (given : Option β) (clause : κ) (value : β → α) : List (κ × Option α) :=
  given.elim [] fun b => [(clause, some (value b))]

theorem values_whenGiven_add {s : Clauses κ α} {given : Option β} {clause : κ} {value : β → α} :
    (s.whenGiven given fun s b => s.add clause (value b)).values = s.values ++ ifGiven given clause value :=
  values_whenGiven fun b => values_add s clause (value b)

theorem ifGiven_eq_nil_iff {given : Option β} {clause : κ} {value : β → α} :
    ifGiven given clause value = [] ↔ given = none := by
  cases given with
  | none => exact iff_of_true rfl rfl
  | some b => exact iff_of_false (List.cons_ne_nil _ _) (Option.some_ne_none b)

theorem mem_ifGiven {given : Option β} {clause : κ} {value : β → α} {x : κ × Option α} :
    x ∈ ifGiven given clause value ↔ ∃ b, given = some b ∧ x = (clause, some (value b)) := by
  cases given <;> simp [ifGiven]

theorem clauses_ifGiven {given : Option β} {clause : κ} {value : β → α} :
    ((ifGiven given clause value).map Prod.fst).Sublist [clause] := by
  cases given with
  | none => exact List.nil_sublist [clause]
  | some b => exact List.Sublist.refl [clause]

theorem clauses_eq_nil_iff {s : Clauses κ α} : s.clauses = [] ↔ s.values = [] := by
  unfold values valuesIn
  rw [List.map_eq_nil_iff]

end Clauses

end Placeholders
