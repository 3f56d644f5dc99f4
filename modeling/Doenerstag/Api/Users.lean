import Doenerstag.Api.Fields
import Doenerstag.Db.Deletion

/-!
# Accounts (`internal/api/users.go`)

The handler that deletes an account.
-/

namespace Doenerstag

open ReadCommitted

/-- The statements of `deleteUser`, with its look at the clock. -/
inductive DeleteUserStmt where
  | user
  | now
  | delete (s : DeleteAccountStmt)
  deriving DecidableEq, Repr

/-- `LookupUser` -/
def lookupUser {ℓ β : Type} (l : ℓ) (rt : Runtime) (r : Request β) : Handler ℓ AppUserRow :=
  loadParam rt r.id (userByID l)

theorem requireOwner_eq_ok {principal : Option Principal} {ownerID : UUID} {p : Principal}
    (h : requireOwner principal ownerID = .ok p) : principal = some p ∧ (p.userID = ownerID ∨ p.isAdmin = true) := by
  obtain ⟨q, hq, hrest⟩ := Prog.exceptBind_eq_ok h
  cases principal with
  | none => cases hq
  | some q' =>
    cases hq
    by_cases hrefused : (!q.is ownerID && !q.isAdmin) = true
    · rw [if_pos hrefused] at hrest
      cases hrest
    · rw [if_neg hrefused] at hrest
      cases hrest
      refine ⟨rfl, ?_⟩
      by_contra hnot
      rw [not_or] at hnot
      exact hrefused (by simp [Principal.is, hnot.1, hnot.2])

theorem requireNotPlaceholder_eq_ok {id : UUID} {u : Unit} (h : requireNotPlaceholder id = .ok u) :
    id ≠ deletedUserID := by
  intro hid
  rw [requireNotPlaceholder, if_pos hid] at h
  cases h

def adminUndeletable : ApiError :=
  { code := codeAdminRequired, field := "",
    detail := "the administrator account cannot be deleted" }

def deleteUserError (e : DbError) : ApiError :=
  if e = .notFound then .of codeNotFound else .of codeDatabaseUnavailable

def deleteUser (rt : Runtime) (r : Request Unit) : Handler DeleteUserStmt Unit := do
  let user ← lookupUser .user rt r
  let _ ← Prog.ofExcept (requireOwner r.principal user.id)
  Prog.ofExcept (requireNotPlaceholder user.id)
  Prog.require (!user.isAdmin) adminUndeletable
  let now ← clock .now
  ((deleteAccount user.id now).within .delete).mapError deleteUserError

end Doenerstag
