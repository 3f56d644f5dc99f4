import Doenerstag.Api.Login

/-!
# Setting a new password (`internal/api/passwordreset.go`)

`complete`, which spends the token of a reset link, stores the hash of the new password and ends the
sessions of the account. The two writes are statements of their own.
-/

namespace Doenerstag

open ReadCommitted

inductive ResetError where
  | expired
  | invalid
  deriving DecidableEq, Repr

/-- `ResetHandlers`, as far as `complete` uses it. -/
structure ResetHandlers where
  rt : Runtime
  /-- `ParseReset`, at an instant: the account, and the identity of the token -/
  parseReset : String → Time → Except ResetError (UUID × String)
  passwords : Passwords

/-- The completion of a reset: the token of the link, the password of the body, and the salt that is
drawn for its hash. -/
structure ResetCall where
  token : String
  body : Except ApiError String
  salt : String

inductive ResetStmt where
  /-- `h.now()`, for the token -/
  | now
  /-- `h.now()`, for `Spend` -/
  | spendNow
  | spend
  | update
  | delete (userID : UUID)
  deriving DecidableEq, Repr

/-- `auth.ResetLifetime` -/
def resetLifetime : Duration := Time.hour

/-- `Spend`: whether the token was already used, and the ones that are by now. -/
def spendReset (id : String) (now : Time) (spent : String → Option Time) :
    Bool × (String → Option Time) :=
  let kept : String → Option Time := fun key => (spent key).filter fun expires => now < expires
  if (kept id).isSome then (true, kept)
  else (false, Function.update kept id (some (now + resetLifetime)))

def parseResetError (e : ResetError) : ApiError :=
  match e with
  | .expired => .of codeResetExpired
  | .invalid => .of codeResetInvalid

def storePasswordError (e : DbError) : ApiError :=
  if e = .notFound then .of codeResetInvalid else .of codeDatabaseUnavailable

namespace ResetHandlers

variable (h : ResetHandlers)

/-- `complete` up to its first write: the account, and the hash of its new password. -/
def acceptReset (r : ResetCall) : AuthHandler ResetStmt (UUID × String) := do
  let password ← .ofExcept r.body
  let now ← onDb (clock .now)
  let (userID, id) ← .ofExcept ((h.parseReset r.token now).mapError parseResetError)
  match h.passwords.complexity password with
  | some detail => throw { code := codePasswordTooWeak, field := "password", detail }
  | none =>
    let now ← onDb (clock .spendNow)
    let already ← Prog.atomic .spend fun s =>
      let r := spendReset id now s.spent
      (r.1, { s with spent := r.2 })
    Prog.require (!already) (.of codeResetInvalid)
    let hash ← .ofExcept ((h.passwords.hash r.salt password).mapError fun _ => .of codeInternal)
    pure (userID, hash)

def complete (r : ResetCall) : AuthHandler ResetStmt Unit := do
  let (userID, hash) ← h.acceptReset r
  let _ ← (onDb (updateUser .update h.rt userID
    { UserUpdate.empty with passwordHash := some hash })).mapError storePasswordError
  -- a failure is logged, and the password is set all the same
  let _ ← (onDb (deleteSessionsForUser (.delete userID) userID)).succeeds

end ResetHandlers

end Doenerstag
