import Doenerstag.Api.Authenticate
import Doenerstag.Api.RateLimit
import Doenerstag.Db.Users

/-!
# Logging in and out (`internal/api/login.go`, `internal/api/auth.go`)

The two handlers as programs on what they share: the database, the clock and what the limiter has
counted. A verification of a password is a step of its own, for it is slow and others go on meanwhile.
-/

namespace Doenerstag

open ReadCommitted

def codePasswordTooWeak : Code := 1010
def codeResetInvalid : Code := 1015
def codeResetExpired : Code := 1016
def codeTooManyLogins : Code := 5000
def codeInternal : Code := 9000

/-! ## Passwords -/

/-- `internal/auth/password.go` on top of Argon2id, which is another library's. -/
structure Passwords where
  /-- `Verify`: the password matches the stored hash -/
  verify : String → String → Bool
  /-- `NeedsRehash` -/
  needsRehash : String → Bool
  /-- `HashWithoutValidation`, with the salt it draws -/
  hash : String → String → Except Unit String
  /-- `ValidateComplexity`: what is wrong with a password -/
  complexity : String → Option String

def unusablePasswordHash : String := "*"

def isUnusable (encoded : String) : Bool :=
  encoded = unusablePasswordHash || !("$argon2id$".toList.isPrefixOf encoded.toList)

/-! ## What the handlers share -/

structure AuthServer where
  world : World Db Time
  counts : LoginCounts
  /-- `UsedResets`: when a spent token is forgotten -/
  spent : String → Option Time

def AuthServer.setWorld (w : World Db Time) (s : AuthServer) : AuthServer := { s with world := w }

def AuthServer.setCounts (counts : LoginCounts) (s : AuthServer) : AuthServer := { s with counts }

abbrev AuthHandler (ℓ : Type) : Type → Type := Prog ℓ Outcome AuthServer ApiError

/-- The statements of a function of the db package, among what the handlers share. -/
def onDb {ℓ χ α : Type} (p : Program ℓ Db Time χ α) : Prog ℓ Outcome AuthServer χ α :=
  p.onPart AuthServer.world AuthServer.setWorld

/-! ## Login -/

/-- `loginRequest` -/
structure LoginRequest where
  name : String
  password : String

/-- A login: the body as it was decoded, where it comes from, and what is drawn for it. -/
structure LoginCall where
  body : Except ApiError LoginRequest
  address : String
  userAgent : String
  sessionID : UUID
  salt : String

/-- `AuthHandlers`. Without a limiter nothing is limited. -/
structure AuthHandlers where
  rt : Runtime
  signer : Signer
  absoluteTimeout : Duration
  limiter : Option LoginLimiter
  passwords : Passwords

/-- The steps of `login`. -/
inductive LoginStmt where
  | allow
  | recordFailure
  /-- `PasswordHashByName` -/
  | account
  /-- `equaliseLoginTiming` -/
  | equalise
  /-- the verification of the password, by what comes of it -/
  | verify (matched : Bool)
  | recordSuccess
  | rehash
  /-- `h.now()` in `startSession` -/
  | now
  | session (userID : UUID) (s : StampedStmt)
  | csrf
  /-- `h.now()` in `recordLogin` -/
  | recordNow
  | record
  deriving DecidableEq, Repr

def userAgentLogLimit : Nat := 512

/-- The characters that fit into so many bytes. -/
def charsWithin : Nat → List Char → List Char
  | _, [] => []
  | n, c :: rest => if c.utf8Size ≤ n then c :: charsWithin (n - c.utf8Size) rest else []

/-- `truncate` -/
def truncate (s : String) (n : Nat) : String := String.ofList (charsWithin n s.toList)

/-- `sessionBody`, with the token of its cookie. -/
structure LoginAnswer where
  token : String
  user : AppUserRow
  expiresAt : String
  deriving DecidableEq, Repr

namespace AuthHandlers

variable (h : AuthHandlers)

def allow (name address : String) : AuthHandler LoginStmt Unit :=
  match h.limiter with
  | none => pure ()
  | some l => do
    let wait ← Prog.atomic .allow fun s =>
      let r := l.allow name address s.world.now s.counts
      (r.1, s.setCounts r.2)
    Prog.require wait.isNone (.of codeTooManyLogins)

def recordLoginFailure (name address : String) : AuthHandler LoginStmt Unit :=
  match h.limiter with
  | none => pure ()
  | some l => Prog.atomic .recordFailure fun s =>
      ((), s.setCounts (l.recordFailure name address s.world.now s.counts))

def recordLoginSuccess (name : String) : AuthHandler LoginStmt Unit :=
  match h.limiter with
  | none => pure ()
  | some l => Prog.atomic .recordSuccess fun s => ((), s.setCounts (l.recordSuccess name s.counts))

/-- Every attempt that fails counts, and is answered alike. -/
def failLogin {α : Type} (name address : String) : AuthHandler LoginStmt α := do
  h.recordLoginFailure name address
  throw (.of codeInvalidLogin)

/-- The account of the name. For a name without one as much time is spent as for another. -/
def loginAccount (name address : String) : AuthHandler LoginStmt AppUserRow :=
  (onDb (passwordHashByName .account h.rt name)).handle fun e =>
    if e = .notFound then do
      Prog.mark .equalise
      h.failLogin name address
    else throw (.of codeDatabaseUnavailable)

/-- `rehashIfNeeded`: a hash that cannot be upgraded stays as it is. -/
def rehashIfNeeded (user : AppUserRow) (password salt : String) : AuthHandler LoginStmt Unit :=
  if h.passwords.needsRehash user.passwordHash then
    match h.passwords.hash salt password with
    | .error _ => pure ()
    | .ok upgraded => do
      let _ ← (onDb (updateUser .rehash h.rt user.id
        { UserUpdate.empty with passwordHash := some upgraded })).succeeds
  else pure ()

/-- `startSession`: the row, then the token and the cookies. -/
def startSession (r : LoginCall) (user : AppUserRow) : AuthHandler LoginStmt (Session × String) := do
  let issued ← onDb (clock .now)
  let session ← (onDb ((replaceSession r.sessionID
    { userID := user.id
      lifetime := h.absoluteTimeout
      remoteAddr := r.address
      userAgent := truncate r.userAgent userAgentLogLimit
      issuedAt := issued }).within (.session user.id))).mapError fun _ => .of codeInternal
  let token ← .ofExcept ((h.signer.issue
    { userID := user.id
      sessionID := session.id
      issuedAt := session.issuedAt
      expiresAt := session.absoluteExpires
      isAdmin := user.isAdmin }).mapError fun _ => .of codeInternal)
  -- the random bytes of the CSRF token may not be there
  Prog.step .csrf (fun _ s => s) fun e _ =>
    if e = .failure then .fail (.of codeInternal) else .done (session, token)

/-- `recordLogin`: a login that worked is not reported as a failure. -/
def noteLogin (user : AppUserRow) : AuthHandler LoginStmt Unit := do
  let stamp ← onDb (clock .recordNow)
  let _ ← (onDb (recordLogin .record user.id stamp)).succeeds

/-- The password against the account's hash. -/
def verifyLogin (name address password : String) (user : AppUserRow) : AuthHandler LoginStmt Unit :=
  if isUnusable user.passwordHash then h.failLogin name address
  else do
    let matched := h.passwords.verify password user.passwordHash
    Prog.mark (.verify matched)
    if matched then pure () else h.failLogin name address

/-- `login`, once the password was right. -/
def acceptLogin (r : LoginCall) (name password : String) (user : AppUserRow) :
    AuthHandler LoginStmt LoginAnswer := do
  h.recordLoginSuccess name
  h.rehashIfNeeded user password r.salt
  let (session, token) ← h.startSession r user
  noteLogin user
  pure { token, user, expiresAt := session.absoluteExpires.rfc3339 }

def login (r : LoginCall) : AuthHandler LoginStmt LoginAnswer := do
  let body ← .ofExcept r.body
  let name := trimSpace body.name
  h.allow name r.address
  if name = "" ∨ body.password = "" then h.failLogin name r.address
  else do
    let user ← h.loginAccount name r.address
    h.verifyLogin name r.address body.password user
    h.acceptLogin r name body.password user

end AuthHandlers

/-! ## Logout -/

inductive LogoutStmt where
  /-- the middleware -/
  | authenticate (s : FromSessionStmt)
  | delete
  deriving DecidableEq, Repr

/-- `logout` behind `Middleware`: a cookie that does not work leaves the request anonymous. -/
def Authenticator.logout (a : Authenticator) (raw : String) : AuthHandler LogoutStmt Unit := do
  let principal ← (onDb ((a.fromSession raw).within .authenticate)).option
  match principal with
  | none => pure ()
  | some p =>
    if p.sessionID = ⟨0⟩ then pure ()
    else (onDb (deleteSession .delete p.sessionID)).mapError databaseUnavailable

/-! ## A server to evaluate the definitions on -/

/-- Hashes that show their password. -/
def plainPasswords : Passwords where
  verify := fun password encoded => encoded == "$argon2id$" ++ password
  needsRehash := fun _ => false
  hash := fun _ password => .ok ("$argon2id$" ++ password)
  complexity := fun _ => none

/-- Tokens that show their session, and that do not expire. -/
def plainSigner : Signer where
  issue := fun claims => .ok claims.sessionID.string
  parse := fun raw _ =>
    match Runtime.ascii.parseUUID raw with
    | none => .error .invalid
    | some id => .ok { userID := ⟨1⟩, sessionID := id, issuedAt := 0, expiresAt := 0, isAdmin := false }

def plainAuth : AuthHandlers where
  rt := .ascii
  signer := plainSigner
  absoluteTimeout := 24 * Time.hour
  limiter := none
  passwords := plainPasswords

/-- Anna's password is `kebab`. -/
def annasServer : AuthServer where
  world :=
    { db := { Db.empty with
        appUsers := [{ id := ⟨1⟩, name := "anna", displayName := none
                       passwordHash := "$argon2id$kebab", email := none, isAdmin := false
                       lastLoginAt := none }] }
      now := Time.second }
  counts := .empty
  spent := fun _ => none

/-- Somebody logs in as Anna. -/
def annaWith (password : String) (sessionID : UUID) : LoginCall :=
  { body := .ok { name := "anna", password }, address := "10.0.0.1", userAgent := ""
    sessionID, salt := "" }

end Doenerstag
