import Doenerstag.Db.Orders
import Doenerstag.Db.Sessions

/-!
# Accounts (`internal/db/users.go`)

What a login and a password reset read of an account, and the statements that change one: `UpdateUser`, which
stores a password among other things, `RecordLogin`, and `CreateUser`. `updated_by` is left out, as nothing reads it.
-/

namespace Doenerstag

open ReadCommitted

@[simps] def Db.setAppUsers (db : Db) (rows : List AppUserRow) : Db := { db with appUsers := rows }

/-- A field that is absent is `none`. -/
structure UserUpdate where
  name : Option String
  displayName : Option String
  email : Option String
  passwordHash : Option String
  deriving DecidableEq, Repr

def UserUpdate.empty : UserUpdate :=
  { name := none, displayName := none, email := none, passwordHash := none }

def UserUpdate.apply (change : UserUpdate) (u : AppUserRow) : AppUserRow :=
  { u with
    name := change.name.getD u.name
    displayName := (change.displayName.map nullIfEmpty).getD u.displayName
    email := (change.email.map nullIfEmpty).getD u.email
    passwordHash := change.passwordHash.getD u.passwordHash }

/-- The `CHECK`s of `app_user`. -/
def AppUserRow.checks (u : AppUserRow) : Bool :=
  (3 ≤ u.name.length && u.name.length ≤ 64) &&
    (u.displayName.all fun n => 1 ≤ n.length && n.length ≤ 64) &&
    u.email.all fun e => 1 < e.toList.idxOf '@' + 1 && e.toList.contains '@' && e.length ≤ 254

namespace Db

/-- `… WHERE lower(name) = lower(…)` -/
def userByName (rt : Runtime) (name : String) (db : Db) : Option AppUserRow :=
  db.appUsers.find? fun u => rt.lower u.name == rt.lower name

/-- `… WHERE lower(email) = lower(…) ORDER BY name`; an account without an address never matches. -/
def usersByEmail (rt : Runtime) (email : String) (db : Db) : List AppUserRow :=
  sliceStable (fun a b => rt.sortsBefore a.name b.name)
    (db.appUsers.filter fun u => u.email.any fun e => rt.lower e == rt.lower email)

/-- `UPDATE app_user SET … WHERE id = … RETURNING` -/
def updateUser (rt : Runtime) (id : UUID) (change : UserUpdate) (db : Db) :
    Except PgError (Db × Option AppUserRow) :=
  match db.userByID id with
  | none => .ok (db, none)
  | some u =>
    let new := change.apply u
    if !new.checks then .error .checkViolation
    else if db.appUsers.any fun v => v.id != id && rt.lower v.name == rt.lower new.name then
      .error .uniqueViolation
    else
      .ok (db.setAppUsers (db.appUsers.map fun v => if v.id == id then new else v), some new)

/-- `INSERT INTO app_user … RETURNING` -/
def insertUser (rt : Runtime) (row : AppUserRow) (db : Db) : Except PgError (Db × Option AppUserRow) :=
  if !row.checks then .error .checkViolation
  else if db.appUsers.any fun u => u.id == row.id || rt.lower u.name == rt.lower row.name then
    .error .uniqueViolation
  else .ok (db.setAppUsers (db.appUsers ++ [row]), some row)

/-- `UPDATE app_user SET last_login_at = … WHERE id = …` -/
def recordLogin (id : UUID) (stamp : Time) (db : Db) : Except PgError (Db × Nat) :=
  .ok (db.setAppUsers
    (db.appUsers.map fun u => if u.id == id then { u with lastLoginAt := some (pgTime stamp) } else u),
    db.appUsers.countP fun u => u.id == id)

end Db

/-- `NewUser` -/
structure NewUser where
  name : String
  displayName : String
  email : String
  passwordHash : String

/-- The row of a new account. -/
def NewUser.row (new : NewUser) (id : UUID) : AppUserRow :=
  { id
    name := new.name
    displayName := nullIfEmpty new.displayName
    passwordHash := new.passwordHash
    email := nullIfEmpty new.email
    isAdmin := false
    lastLoginAt := none }

def updateUserError (e : StmtError PgError) : DbError :=
  match e with
  | .rejected .uniqueViolation => .nameTaken
  | e => scanError e

variable {ℓ : Type}

/-- `PasswordHashByName`: the account, its hash with it. -/
def passwordHashByName (l : ℓ) (rt : Runtime) (name : String) : DbProgram ℓ AppUserRow :=
  (queryRow l (Db.userByName rt name)).mapError scanError

def userByName (l : ℓ) (rt : Runtime) (name : String) : DbProgram ℓ AppUserRow :=
  (queryRow l (Db.userByName rt name)).mapError scanError

def usersByEmail (l : ℓ) (rt : Runtime) (email : String) : DbProgram ℓ (List AppUserRow) :=
  (query l (Db.usersByEmail rt email)).mapError otherError

def updateUser (l : ℓ) (rt : Runtime) (id : UUID) (change : UserUpdate) : DbProgram ℓ AppUserRow :=
  if change = .empty then userByID l id
  else (returning l fun _ => Db.updateUser rt id change).mapError updateUserError

/-- `PasswordHashByID` -/
def passwordHashByID (l : ℓ) (id : UUID) : DbProgram ℓ String :=
  (queryRow l fun db => (db.userByID id).map AppUserRow.passwordHash).mapError scanError

/-- `CreateUser`; the id is freshly generated. -/
def createUser (l : ℓ) (rt : Runtime) (id : UUID) (new : NewUser) : DbProgram ℓ AppUserRow :=
  (returning l fun _ => Db.insertUser rt (new.row id)).mapError updateUserError

def recordLogin (l : ℓ) (id : UUID) (stamp : Time) : DbProgram ℓ Unit := do
  let _ ← (exec l fun _ => Db.recordLogin id stamp).mapError otherError

end Doenerstag
