import Doenerstag.Api.EmailAddresses
import Doenerstag.Api.Login
import Doenerstag.Api.MenuItems
import Doenerstag.Api.Users

/-!
# Registering and changing an account (`internal/api/auth.go`, `internal/api/users.go`)

* `validateUserName`, `validateDisplayName` — the rules that both apply.
* `register`, `patch` — the two handlers.
-/

namespace Doenerstag

open ReadCommitted

def codeUserNameTaken : Code := 1009
def codeAlreadyLoggedIn : Code := 2006

/-! ## The fields -/

def minUserNameLength : Nat := 3
def maxUserNameLength : Nat := 64
def maxDisplayNameLength : Nat := 64

def isControl (c : Char) : Bool := c.toNat < 0x20 || c.toNat == 0x7f

def validateUserName (name : String) : Except ApiError Unit :=
  if name = "" then .error (.on codeMissingField "name")
  else if name.length < minUserNameLength ∨ maxUserNameLength < name.length then
    .error { code := codeInvalidField, field := "name"
             detail := "the user name must be between 3 and 64 characters" }
  else if name.toList.any isControl then
    .error { code := codeInvalidField, field := "name", detail := "the user name may not contain control characters" }
  else .ok ()

def validateDisplayName (name : String) : Except ApiError Unit :=
  if name = "" then .ok ()
  else if longerThan name maxDisplayNameLength then
    .error (tooLong "display_name" "display name" maxDisplayNameLength)
  else if name.toList.any isControl then
    .error { code := codeInvalidField, field := "display_name"
             detail := "the display name may not contain control characters" }
  else .ok ()

/-- `strings.EqualFold` with `AdministratorName`: nothing but `r`, `o` and `t`, in either case, folds to these. -/
def isAdministratorName (name : String) : Bool := name.toList.map Char.toLower == "root".toList

def passwordTooWeak (detail : String) : ApiError := { code := codePasswordTooWeak, field := "password", detail }

/-! ## Registration -/

structure RegisterRequest where
  name : String
  displayName : String
  email : String
  password : String

/-- A registration: the body as it was decoded, where it comes from, and what is drawn for it. -/
structure RegisterCall where
  principal : Option Principal
  body : Except ApiError RegisterRequest
  userID : UUID
  address : String
  userAgent : String
  sessionID : UUID
  salt : String

/-- What `startSession` reads of it. -/
def RegisterCall.visit (r : RegisterCall) : LoginCall :=
  { body := r.body.map fun body => { name := body.name, password := body.password }
    address := r.address
    userAgent := r.userAgent
    sessionID := r.sessionID
    salt := r.salt }

inductive RegisterStmt where
  | create
  | session (s : LoginStmt)
  deriving DecidableEq, Repr

def createUserError (e : DbError) : ApiError :=
  if e = .nameTaken then .on codeUserNameTaken "name" else .of codeDatabaseUnavailable

/-- The row of a registration. -/
def AuthHandlers.newUser (h : AuthHandlers) (P : AddressParser) (salt : String) (body : RegisterRequest) :
    Except ApiError NewUser := do
  let name := trimSpace body.name
  let displayName := trimSpace body.displayName
  let email := trimSpace body.email
  validateUserName name
  validateDisplayName displayName
  validateEmail P email
  match h.passwords.complexity body.password with
  | some detail => throw (passwordTooWeak detail)
  | none => do
    let hash ← (h.passwords.hash salt body.password).mapError fun _ => .of codeInternal
    pure { name, displayName, email, passwordHash := hash }

/-- `register`, by an anonymous caller only -/
def AuthHandlers.register (h : AuthHandlers) (P : AddressParser) (r : RegisterCall) :
    AuthHandler RegisterStmt LoginAnswer := do
  Prog.require r.principal.isNone (.of codeAlreadyLoggedIn)
  let body ← .ofExcept r.body
  let new ← .ofExcept (h.newUser P r.salt body)
  let user ← (onDb (createUser .create h.rt r.userID new)).mapError createUserError
  let (session, token) ← (h.startSession r.visit user).within .session
  pure { token, user, expiresAt := session.absoluteExpires.rfc3339 }

/-! ## Changes -/

/-- `patchUserRequest`; a field that is absent is `none`. -/
structure PatchUserRequest where
  name : Option String
  displayName : Option String
  email : Option String
  password : Option String
  currentPassword : Option String

/-- A change of an account, with the salt that is drawn for the hash. -/
structure PatchUserCall where
  request : Request PatchUserRequest
  salt : String

inductive PatchUserStmt where
  | user
  /-- `PasswordHashByID` -/
  | current
  | update
  | delete
  deriving DecidableEq, Repr

def currentPasswordMissing : ApiError :=
  { code := codeMissingField, field := "current_password"
    detail := "changing your own password requires the current one" }

def currentPasswordWrong : ApiError :=
  { code := codeInvalidLogin, field := "current_password", detail := "the current password is not correct" }

def administratorRenamed : ApiError :=
  { code := codeInvalidField, field := "name", detail := "the administrator account cannot be renamed" }

/-- `UserHandlers`, as far as a change of an account uses it. -/
structure UserHandlers where
  rt : Runtime
  passwords : Passwords
  addresses : AddressParser

namespace UserHandlers

variable (h : UserHandlers)

/-- `newPasswordHash` once it may be changed -/
def hashNew (salt password : String) : Except ApiError String :=
  match h.passwords.complexity password with
  | some detail => .error (passwordTooWeak detail)
  | none => (h.passwords.hash salt password).mapError fun _ => .of codeInternal

/-- The current password is the one that is stored. -/
def confirmCurrent (user : AppUserRow) (current : Option String) : Handler PatchUserStmt Unit :=
  match current with
  | none => throw currentPasswordMissing
  | some current => do
    Prog.require (current != "") currentPasswordMissing
    let stored ← (passwordHashByID .current user.id).mapError databaseUnavailable
    Prog.require (h.passwords.verify current stored) currentPasswordWrong

/-- The owner has to say the current password, and an administrator does not. -/
def newPasswordHash (user : AppUserRow) (principal : Principal) (salt password : String) (current : Option String) :
    Handler PatchUserStmt String := do
  let _ ← if principal.is user.id then h.confirmCurrent user current else pure ()
  Prog.ofExcept (h.hashNew salt password)

def validateName (user : AppUserRow) (name : String) : Except ApiError String := do
  validateUserName (trimSpace name)
  if user.isAdmin && !isAdministratorName (trimSpace name) then throw administratorRenamed
  else pure (trimSpace name)

/-- `validatePatch`, but for the password -/
def validateFields (user : AppUserRow) (body : PatchUserRequest) : Except ApiError UserUpdate := do
  let name ← body.name.mapM (validateName user)
  let displayName ← body.displayName.mapM fun name => do
    validateDisplayName (trimSpace name)
    pure (trimSpace name)
  let email ← body.email.mapM fun email => do
    validateEmail h.addresses (trimSpace email)
    pure (trimSpace email)
  pure { name, displayName, email, passwordHash := none }

def validatePatch (user : AppUserRow) (principal : Principal) (salt : String) (body : PatchUserRequest) :
    Handler PatchUserStmt UserUpdate := do
  let update ← Prog.ofExcept (h.validateFields user body)
  match body.password with
  | none => pure update
  | some password => do
    let hash ← h.newPasswordHash user principal salt password body.currentPassword
    pure { update with passwordHash := some hash }

/-- Who is given a password by an administrator is logged out. -/
def endSessions (user : AppUserRow) (principal : Principal) (update : UserUpdate) : Handler PatchUserStmt Unit :=
  if update.passwordHash.isSome && !principal.is user.id then
    (deleteSessionsForUser .delete user.id).mapError databaseUnavailable
  else pure ()

/-- `patch` once it is known whose account it is to be -/
def patchUser (user : AppUserRow) (principal : Principal) (call : PatchUserCall) :
    Handler PatchUserStmt AppUserRow := do
  let body ← Prog.ofExcept call.request.body
  let update ← h.validatePatch user principal call.salt body
  let updated ← (updateUser .update h.rt user.id update).mapError createUserError
  endSessions user principal update
  pure updated

def patch (call : PatchUserCall) : Handler PatchUserStmt AppUserRow := do
  let user ← lookupUser .user h.rt call.request
  let principal ← Prog.ofExcept (requireOwner call.request.principal user.id)
  Prog.ofExcept (requireNotPlaceholder user.id)
  h.patchUser user principal call

end UserHandlers

end Doenerstag
