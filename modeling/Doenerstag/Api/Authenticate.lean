import Doenerstag.Api.Fields
import Doenerstag.Db.Sessions

/-!
# Who is calling (`internal/api/authenticate.go`, `internal/auth/jwt.go`)

A session cookie carries a signed token, and the token names the row of a session. `fromSession` goes
from the one to the other: the token's signature and expiry, the row, its absolute lifetime, the idle
timeout; then it notes the visit. A row whose time is up goes with the request that finds it.
-/

namespace Doenerstag

open ReadCommitted

def codeInvalidLogin : Code := 2001
def codeSessionExpired : Code := 2002
def codeSessionSuperseded : Code := 2003

/-! ## Tokens -/

/-- What a token says: `sub`, `jti`, `iat`, `exp` and `adm`. -/
structure Claims where
  userID : UUID
  sessionID : UUID
  issuedAt : Time
  expiresAt : Time
  isAdmin : Bool
  deriving DecidableEq, Repr

inductive TokenError where
  | expired
  | invalid
  deriving DecidableEq, Repr

/-- `auth.Signer`; the token format and its signature are another library's. -/
structure Signer where
  /-- `Issue` -/
  issue : Claims → Except Unit String
  /-- `Parse`, at an instant -/
  parse : String → Time → Except TokenError Claims

/-- An instant as a token holds it: whole seconds. -/
def unixTime (t : Time) : Time := t - t % Time.second

/-- The text is a token of those claims: until it expires it verifies, and from then on it is
expired. -/
def Signer.Signed (s : Signer) (raw : String) (claims : Claims) : Prop :=
  ∀ now, s.parse raw now =
    if unixTime claims.expiresAt ≤ now then .error .expired
    else .ok { claims with issuedAt := unixTime claims.issuedAt
                           expiresAt := unixTime claims.expiresAt }

/-! ## The session of a request -/

/-- How old `last_seen_at` may get before a visit is noted. -/
def touchThrottle : Duration := 60 * Time.second

/-- `Authenticator` -/
structure Authenticator where
  signer : Signer
  idleTimeout : Duration

/-- `Principal`, of a caller with a session cookie. -/
structure SessionPrincipal where
  user : AppUserRow
  sessionID : UUID
  deriving DecidableEq, Repr

inductive FromSessionStmt where
  /-- the clock that the token is judged by -/
  | verify
  /-- `SessionWithUser` -/
  | session
  /-- `a.now()` -/
  | now
  | discard
  | touch (s : StampedStmt)
  deriving DecidableEq, Repr

def tokenError (e : TokenError) : ApiError :=
  match e with
  | .expired => .of codeSessionExpired
  | .invalid => .of codeNotAuthenticated

def sessionError (e : DbError) : ApiError :=
  if e = .notFound then .of codeSessionSuperseded else .of codeDatabaseUnavailable

namespace Authenticator

variable (a : Authenticator)

/-- The request is rejected either way. -/
def discard (id : UUID) : Handler FromSessionStmt Unit := do
  let _ ← (deleteSession .discard id).succeeds

/-- The checks of the row, and the visit. -/
def visitSession (session : Session) (user : AppUserRow) :
    Handler FromSessionStmt SessionPrincipal := do
  let now ← clock .now
  if session.expired now then
    discard session.id
    throw (.of codeSessionExpired)
  else if session.idle now a.idleTimeout then
    discard session.id
    throw (.of codeSessionExpired)
  else
    -- a visit that cannot be noted is a visit all the same
    let _ ← ((touchSession session.id now touchThrottle).within .touch).succeeds
    pure { user, sessionID := session.id }

/-- `fromSession` -/
def fromSession (raw : String) : Handler FromSessionStmt SessionPrincipal := do
  let verified ← clock .verify
  let claims ← .ofExcept ((a.signer.parse raw verified).mapError tokenError)
  let (session, user) ← (sessionWithUser .session claims.sessionID).mapError sessionError
  a.visitSession session user

end Authenticator

end Doenerstag
