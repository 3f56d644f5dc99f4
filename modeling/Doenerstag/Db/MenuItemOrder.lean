import Doenerstag.Db.MenuItems

/-!
# The order of the menu, in the database (`internal/db/menu.go`)

* `menuItemOrder` — the `ORDER BY` of the two queries that list a menu; its cast to `bigint` may fail.
* `sortMenu` — **the rows of such a query, or the error when the number of one of them is out of range.**
-/

namespace Doenerstag

/-- Digits and nothing else: `^[0-9]+$` -/
def isNumber (id : String) : Bool := id ≠ "" && id.toList.all Char.isDigit

/-- The number that a text of digits is. -/
def numberOf (id : String) : Nat := if isNumber id then Nat.ofDigitChars 10 id.toList 0 else 0

/-- `CASE WHEN external_id ~ '^[0-9]+$' THEN external_id::bigint END`, unless the cast fails. -/
def menuNumber (externalID : Option String) : Option (Option Nat) :=
  match externalID with
  | none => some none
  | some id =>
    if isNumber id then if numberOf id < 2 ^ 63 then some (some (numberOf id)) else none
    else some none

/-- What `menuItemOrder` sorts by -/
structure MenuItemKey where
  externalID : Option String
  name : String

/-- `menuItemOrder`: the first row comes before the second, unless a cast fails. -/
def menuItemOrder (rt : Runtime) (a b : MenuItemKey) : Option Bool := do
  let an ← menuNumber a.externalID
  let bn ← menuNumber b.externalID
  let byName := rt.sortsBefore (rt.lower a.name) (rt.lower b.name)
  let byText := match a.externalID, b.externalID with
    | some s, some t => if s ≠ t then rt.sortsBefore s t else byName
    | _, _ => byName
  return if a.externalID.isNone ≠ b.externalID.isNone then b.externalID.isNone
    else match an, bn with
      | some x, some y => if x ≠ y then decide (x < y) else byText
      | some _, none => true
      | none, some _ => false
      | none, none => byText

/-- The columns that `menuItemOrder` reads -/
def MenuItemRow.key (m : MenuItemRow) : MenuItemKey := { externalID := m.externalID, name := m.name }

/-- `SELECT … ORDER BY`: the expressions are evaluated for every row that was selected. -/
def sortMenu (rt : Runtime) (rows : List MenuItemRow) : Except PgError (List MenuItemRow) :=
  if rows.any fun m => (menuNumber m.externalID).isNone then .error .outOfRange
  else .ok (sliceStable (fun a b => (menuItemOrder rt a.key b.key).getD false) rows)

theorem sortMenu_perm {rt : Runtime} {rows sorted : List MenuItemRow} (h : sortMenu rt rows = .ok sorted) :
    sorted.Perm rows := by
  unfold sortMenu at h
  split_ifs at h
  cases h
  exact sliceStable_perm _ _

end Doenerstag
