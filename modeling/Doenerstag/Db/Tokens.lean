import Doenerstag.Db.Sessions

/-!
# API tokens (`internal/db/tokens.go`)

The two statements of a request with a Bearer token, and those that issue and revoke one. The lookup is by
hash; the token itself is not stored. `created_at` is left out, and with it `ListAPITokens`, which sorts by it.
-/

namespace Doenerstag

open ReadCommitted

@[simps] def Db.setAPITokens (db : Db) (rows : List APITokenRow) : Db := { db with apiTokens := rows }

/-- `tokenColumns` -/
structure APIToken where
  id : UUID
  userID : UUID
  name : String
  tokenPrefix : String
  expiresAt : Option Time
  lastUsedAt : Option Time
  deriving DecidableEq, Repr

def APITokenRow.scan (t : APITokenRow) : APIToken :=
  { id := t.id
    userID := t.userID
    name := t.name
    tokenPrefix := t.tokenPrefix
    expiresAt := t.expiresAt
    lastUsedAt := t.lastUsedAt }

/-- `Expired` (`internal/model/session.go`) -/
def APIToken.expired (t : APIToken) (now : Time) : Bool := t.expiresAt.any fun at_ => at_ ≤ now

namespace Db

/-- `SELECT … FROM api_token t JOIN app_user u ON u.id = t.user_id WHERE t.token_hash = …` -/
def apiTokenByHash (hash : String) (db : Db) : Option (APIToken × AppUserRow) := do
  let t ← db.apiTokens.find? fun t => t.tokenHash == hash
  let u ← db.userByID t.userID
  pure (t.scan, u)

/-- `UPDATE api_token SET last_used_at = … WHERE id = … AND (last_used_at IS NULL OR …)` -/
def touchAPIToken (id : UUID) (stamp : Time) (throttle : Duration) (db : Db) :
    Except PgError (Db × Nat) :=
  let stale (t : APITokenRow) : Bool :=
    t.id == id && t.lastUsedAt.all fun used => used < pgTime stamp - pgInterval throttle
  .ok (db.setAPITokens
    (db.apiTokens.map fun t => if stale t then { t with lastUsedAt := some (pgTime stamp) } else t),
    db.apiTokens.countP stale)

/-- `INSERT INTO api_token … RETURNING` -/
def insertAPIToken (row : APITokenRow) (db : Db) : Except PgError (Db × Option APIToken) :=
  if row.name.length < 1 || 64 < row.name.length then .error .checkViolation
  else if db.apiTokens.any fun t => t.id == row.id || (t.userID == row.userID && t.name == row.name) ||
      t.tokenHash == row.tokenHash then .error .uniqueViolation
  else if (db.userByID row.userID).isNone then .error .foreignKeyViolation
  else .ok (db.setAPITokens (db.apiTokens ++ [row]), some row.scan)

/-- `SELECT … FROM api_token WHERE id = …` -/
def apiTokenByID (id : UUID) (db : Db) : Option APIToken :=
  (db.apiTokens.find? fun t => t.id == id).map APITokenRow.scan

/-- `DELETE FROM api_token WHERE id = …` -/
def deleteAPIToken (id : UUID) (db : Db) : Except PgError (Db × Nat) :=
  .ok (db.setAPITokens (db.apiTokens.filter fun t => t.id != id), db.apiTokens.countP fun t => t.id == id)

end Db

/-- `NewAPIToken` -/
structure NewAPIToken where
  userID : UUID
  name : String
  hash : String
  tokenPrefix : String
  expiresAt : Option Time

def NewAPIToken.row (new : NewAPIToken) (id : UUID) : APITokenRow :=
  { id
    userID := new.userID
    name := new.name
    tokenHash := new.hash
    tokenPrefix := new.tokenPrefix
    expiresAt := new.expiresAt.map pgTime
    lastUsedAt := none }

def createAPITokenError (e : StmtError PgError) : DbError :=
  match e with
  | .rejected .uniqueViolation => .nameTaken
  | e => scanError e

/-- `CreateAPIToken`; the id is freshly generated. -/
def createAPIToken {ℓ : Type} (l : ℓ) (id : UUID) (new : NewAPIToken) : DbProgram ℓ APIToken :=
  (returning l fun _ => Db.insertAPIToken (new.row id)).mapError createAPITokenError

def apiTokenByID {ℓ : Type} (l : ℓ) (id : UUID) : DbProgram ℓ APIToken :=
  (queryRow l (Db.apiTokenByID id)).mapError scanError

def deleteAPIToken {ℓ : Type} (l : ℓ) (id : UUID) : DbProgram ℓ Unit := do
  let rows ← (exec l fun _ => Db.deleteAPIToken id).mapError otherError
  Prog.require (rows != 0) .notFound

def apiTokenByHash {ℓ : Type} (l : ℓ) (hash : String) : DbProgram ℓ (APIToken × AppUserRow) :=
  (queryRow l (Db.apiTokenByHash hash)).mapError scanError

def touchAPIToken (id : UUID) (now : Time) (throttle : Duration) : DbProgram StampedStmt Unit := do
  let stamp ← stampAt .now now
  let _ ← (exec .write fun _ => Db.touchAPIToken id stamp throttle).mapError otherError

end Doenerstag
